import Jolt.Publishing.SampleNode
import Jolt.Lib.Runs
import Jolt.Signing.Injective

/-! # What the identity key signs for applications

`publish_bytes` signs the bytes that it is given with the key of the identity, as they are. The
records of the identity, of its devices and of its update log, are signed with the same key over
their canonical bytes, which begin with a domain separator. Nothing keeps published bytes from
beginning so, and the signature in the public manifest of such content is the signature of a record
(`published_record_signed`). What an event adds to the published content is what an application
supplies or the JSON of a chain (`published_step`), so the store never has the signature of a record
exactly in the runs in which no bytes that applications publish read as a record of the identity
(`no_record_signed_iff`). -/

namespace Jolt.Publishing.SigningOracle

open Std Lib.Checks Lib.Runs Lib.Calls.Call Jolt.Core Jolt.Core.Types IdentityAuthority UpdateLog
  DeviceWriterLog
open Network.Node hiding Event step run construct
open Signing.Formats Signing.Injective Store Writing LocalNode Outcomes Requests
  Publishing.Alignment Publishing.Runs
open SampleNode (primitives)

/-! ### Bytes of records -/

section

variable (P : Primitives) (identity : IdentityId) (data : Bytes)

/-- The bytes are the canonical bytes of a device authorization record or of an update-log entry of
the identity. -/
def IsRecordBytes : Prop :=
  (∃ body : DeviceAuthorizationRecordBody, AuthorizationFits P body ∧ body.identity = identity ∧
    body.rootPublicKey = identity.publicKey.bytes ∧ body.canonicalBytes P = data) ∨
  ∃ body : UpdateLogEntryBody, UpdateFits P body ∧ body.ownerPublicKey = identity.publicKey.bytes ∧
    body.canonicalBytes P = data

/-- The bytes begin with the domain separator of such a record, and what follows can be read to its
end as the fields of one that belongs to the identity. -/
def readsAsRecord : Bool :=
  match parseSigned P data with
  | some (.deviceAuthorizationRecord body) =>
    body.identity = identity && body.rootPublicKey = identity.publicKey.bytes
  | some (.updateLogEntry body) => body.ownerPublicKey = identity.publicKey.bytes
  | _ => false

end

variable {P : Primitives} {identity : IdentityId} {data : Bytes}

theorem readsAsRecord_iff : readsAsRecord P identity data = true ↔
    IsRecordBytes P identity data := by
  unfold readsAsRecord IsRecordBytes
  constructor
  · intro h
    split at h
    · rename_i body hparse
      obtain ⟨hfits, hbytes⟩ := (parseSigned_eq_some_iff P).mp hparse
      rw [Bool.and_eq_true, decide_eq_true_eq, decide_eq_true_eq] at h
      exact .inl ⟨body, hfits, h.1, h.2, hbytes⟩
    · rename_i body hparse
      obtain ⟨hfits, hbytes⟩ := (parseSigned_eq_some_iff P).mp hparse
      rw [decide_eq_true_eq] at h
      exact .inr ⟨body, hfits, h, hbytes⟩
    · cases h
  · rintro (⟨body, hfits, hidentity, hkey, hbytes⟩ | ⟨body, hfits, hkey, hbytes⟩)
    · have hparse : parseSigned P data = some (.deviceAuthorizationRecord body) :=
        (parseSigned_eq_some_iff P).mpr ⟨hfits, hbytes⟩
      simp [hparse, hidentity, hkey]
    · have hparse : parseSigned P data = some (.updateLogEntry body) :=
        (parseSigned_eq_some_iff P).mpr ⟨hfits, hbytes⟩
      simp [hparse, hkey]

theorem head_of_isRecordBytes (h : IsRecordBytes P identity data) : data.head? = some 106 := by
  rcases h with ⟨body, -, -, -, rfl⟩ | ⟨body, -, -, rfl⟩ <;> rfl

/-! ### What is published -/

abbrev SameContent (a b : LocalNode) : Prop :=
  b.store.publishedContent = a.store.publishedContent

variable {toJson : List DeviceAuthorizationRecord → Bytes} {peerIdOf : Bytes → Option PeerId}
  {node : LocalNode} {outside : Outside} {contentId : String} {entry : Bytes × ContentManifest}

theorem sameContent_trans {a b c : LocalNode} (h : SameContent a b) (h' : SameContent b c) :
    SameContent a c :=
  h'.trans h

theorem sameContent_publish (path : String) (operation : DeviceWriterOperation)
    (mutation : Option RecordMutationIntent) (node : LocalNode) : SameContent node
      (publishLocalDeviceWriterOperation P outside path operation mutation node).2 := by
  obtain ⟨e, h⟩ | ⟨_, _, _, -, ⟨e, -, h⟩ | ⟨stored, -, h⟩⟩ :=
    publish_cases P outside path operation mutation node <;> rw [h]
  · rfl
  · rfl

theorem sameContent_takeOver (ambient : Ambient) (identity : IdentityId)
    (records : List DeviceAuthorizationRecord) (node : LocalNode) :
    SameContent node (takeOver P ambient identity records node).2 := by
  rcases takeOver_cases (P := P) node ambient identity records with
    h | ⟨network, -, -, -, h | h⟩ <;> rw [h]
  · rfl
  · rfl

theorem sameContent_persist (ambient : Ambient) (records : List DeviceAuthorizationRecord) :
    Keeps SameContent (persistDeviceWriterState P ambient records) := by
  refine Keeps.bind sameContent_trans (keeps_read (R := SameContent) (fun _ => rfl) id) fun _ => ?_
  refine Keeps.bind sameContent_trans (keeps_check (R := SameContent) (fun _ => rfl) _) fun _ => ?_
  exact keeps_write fun node => rfl

theorem sameContent_storeAndPersist (ambient : Ambient) (identity : IdentityId)
    (records : List DeviceAuthorizationRecord) (logs : List (List DeviceWriterLogEntry)) :
    Keeps SameContent (storeAndPersist P ambient identity records logs) := by
  refine Keeps.bind sameContent_trans (fun _ => rfl) fun _ => ?_
  refine Keeps.bind sameContent_trans (keeps_read (R := SameContent) (fun _ => rfl) id) fun node =>
    ?_
  split_ifs
  · exact keeps_pure (R := SameContent) (fun _ => rfl) ()
  · split
    · exact keeps_check (R := SameContent) (fun _ => rfl) _
    · refine Keeps.bind sameContent_trans ?_ fun _ => ?_
      · intro node
        rw [adoptSyncedLocalLog_apply]
        split
        · rfl
        · split_ifs <;> rfl
      · refine Keeps.bind sameContent_trans (sameContent_persist _ _) fun _ => ?_
        exact keeps_write fun node => rfl

/-- Content that a failed write has cut off is no longer there as it was. -/
theorem published_of_withCut (h : (withCut P outside node data).store.publishedContent[contentId]? =
      some entry) : node.store.publishedContent[contentId]? = some entry := by
  unfold withCut ContentStore.cutOff at h
  split at h
  · simp only [setStore, ExtTreeMap.getElem?_erase] at h
    split_ifs at h
    exact h
  · exact h

theorem sameContent_carryOut {w : Write} (hsaved : w.content.elim (.ok ())
      (fun _ => outside.contentSaved) = .ok ()) :
    SameContent (afterContent P w node) (carryOut P outside w node).2 := by
  rw [carryOut_apply, hsaved]
  dsimp only
  cases w.action with
  | none => exact sameContent_publish w.path w.operation w.intent _
  | some action =>
    dsimp only
    cases node.nextUpdateLogEntry P action with
    | error e => rfl
    | ok entry =>
      cases outside.updateLogSaved with
      | error e => rfl
      | ok u =>
        exact Stagewise.of_replied (R := SameContent)
          (sameContent_publish w.path w.operation w.intent (logged (afterContent P w node) entry))

theorem published_withContent : (withContent P node data).store.publishedContent[contentId]? =
    if contentId = P.contentIdToString (.fromBytes P data) then some (data, manifestOf P node data)
    else node.store.publishedContent[contentId]? := by
  simp only [withContent, setStore, ContentStore.publish, manifestOf, ExtTreeMap.getElem?_insert,
    LawfulEqOrd.compare_eq_iff_eq]
  exact if_congr eq_comm rfl rfl

/-- **What a write adds to the published content**: nothing but its own content, signed. -/
theorem published_carryOut {w : Write} (h : (carryOut P outside w
      node).2.store.publishedContent[contentId]? = some entry) :
    node.store.publishedContent[contentId]? = some entry ∨
      ∃ data, w.content = some data ∧ outside.contentSaved = .ok () ∧
        entry = (data, manifestOf P node data) := by
  rcases hsaved : w.content.elim (.ok ()) fun _ => outside.contentSaved with e | u
  · rw [carryOut_apply, hsaved] at h
    unfold afterCut at h
    cases hcontent : w.content with
    | none => simp [hcontent] at hsaved
    | some data => exact .inl (published_of_withCut (by simpa [hcontent] using h))
  · rw [sameContent_carryOut hsaved] at h
    unfold afterContent at h
    cases hcontent : w.content with
    | none => exact .inl (by simpa [hcontent] using h)
    | some data =>
      rw [hcontent] at hsaved
      simp only [hcontent, published_withContent] at h
      split_ifs at h
      · exact .inr ⟨data, rfl, hsaved, (Option.some.inj h).symm⟩
      · exact .inl h

section

variable (P) (node)

/-- The content of a request that is carried out. -/
def contentOf (request : Request) : Option Bytes :=
  match plan P node request with
  | .ok (.inr w) => w.content
  | _ => none

/-- The bytes of an application that an event publishes. -/
def supplied : Event → Option Bytes
  | .write outside request => if outside.contentSaved.isOk then contentOf P node request else none
  | .content outside data => if outside.contentSaved.isOk then some data else none
  | _ => none

end

theorem isOk_iff {saved : Except String Unit} : saved.isOk = true ↔ saved = .ok () := by
  cases saved <;> simp [Except.isOk, Except.toBool]

theorem published_of_supplied {event : Event} (h : data ∈ supplied P node event) :
    (step P toJson peerIdOf node event).store.publishedContent[
      P.contentIdToString (.fromBytes P data)]? = some (data, manifestOf P node data) := by
  unfold supplied at h
  split at h
  · rename_i outside request
    rw [Option.mem_def, Option.ite_none_right_eq_some, isOk_iff, contentOf] at h
    obtain ⟨hok, h⟩ := h
    split at h
    · rename_i w hplan
      have hsaved : w.content.elim (.ok ()) (fun _ => outside.contentSaved) = .ok () := by
        rw [h]
        exact hok
      simp only [step, call_apply, hplan, replied_snd]
      rw [sameContent_carryOut hsaved, afterContent, h]
      exact published_withContent.trans (if_pos rfl)
    · cases h
  · rw [Option.mem_def, Option.ite_none_right_eq_some, isOk_iff] at h
    obtain ⟨hok, hdata⟩ := h
    cases hdata
    simp only [step, publishBytes_apply, hok]
    exact published_withContent.trans (if_pos rfl)
  · cases h

theorem published_at {path : String} (h : (publishBytesAtPath P outside data path
      node).2.store.publishedContent[contentId]? = some entry) :
    node.store.publishedContent[contentId]? = some entry ∨
      entry = (data, manifestOf P node data) := by
  rw [publishBytesAtPath_apply] at h
  cases haddress : node.addressOf path with
  | error e =>
    rw [haddress] at h
    exact .inl h
  | ok address =>
    simp only [haddress, replied_snd] at h
    obtain hold | ⟨_, hdata, -, hentry⟩ := published_carryOut h
    · exact .inl hold
    · cases hdata
      exact .inr hentry

/-- **What an event adds to the published content**: what an application supplies, or the JSON of a
chain, with its signature. -/
theorem published_step {event : Event} (h : (step P toJson peerIdOf node
      event).store.publishedContent[contentId]? = some entry) :
    node.store.publishedContent[contentId]? = some entry ∨
      ∃ data, (data ∈ supplied P node event ∨ ∃ records, data = toJson records) ∧
        entry = (data, manifestOf P node data) := by
  cases event with
  | write outside request =>
    simp only [step, call_apply] at h
    rcases hplan : plan P node request with e | reply | w <;> simp only [hplan] at h
    · exact .inl h
    · exact .inl h
    · rw [replied_snd] at h
      obtain hold | ⟨data, hdata, hok, hentry⟩ := published_carryOut h
      · exact .inl hold
      · refine .inr ⟨data, .inl ?_, hentry⟩
        simp [supplied, contentOf, hplan, hdata, isOk_iff.mpr hok]
  | content outside data =>
    simp only [step, publishBytes_apply] at h
    cases hsaved : outside.contentSaved with
    | error e => exact .inl (published_of_withCut (by simpa [hsaved] using h))
    | ok u =>
      simp only [hsaved, published_withContent] at h
      split_ifs at h
      · refine .inr ⟨data, .inl ?_, (Option.some.inj h).symm⟩
        simp [supplied, isOk_iff.mpr hsaved]
      · exact .inl h
  | authority outside ambient operation =>
    simp only [step, appendLocalDeviceAuthorityOperation_apply] at h
    rcases hnext : nextAuthorityRecords P node outside.createdAt operation with e | records <;>
      simp only [hnext] at h
    · exact .inl h
    · have hpublished : (publishBytesAtPath P outside (toJson records) identityAuthorityPath
          node).2.store.publishedContent[contentId]? = some entry := by
        rcases hmid : publishBytesAtPath P outside (toJson records) identityAuthorityPath node with
          ⟨e | a, mid⟩ <;> simp only [hmid] at h
        · exact h
        · rw [← h, ← sameContent_takeOver (P := P) ambient node.identity records mid]
          rcases takeOver P ambient node.identity records mid with ⟨e | u, last⟩ <;> rfl
      exact (published_at hpublished).imp_right fun hentry => ⟨_, .inr ⟨records, rfl⟩, hentry⟩
  | offer ambient peer request =>
    have hsame : SameContent node (handleSyncRequest P peerIdOf ambient peer request node).2 :=
      keeps_handleSyncRequest (R := SameContent) (fun _ => rfl)
        (fun node _ => sameContent_storeAndPersist ambient _ _ _ node) node
    exact .inl (hsame ▸ h)
  | response ambient pending response =>
    have hsame : SameContent node (handleSyncResponse P ambient pending response node).2 :=
      keeps_handleSyncResponse (R := SameContent) (fun _ => rfl)
        (fun node _ => sameContent_storeAndPersist ambient _ _ _ node) (fun _ _ => rfl) node
    exact .inl (hsame ▸ h)
  | updateLog identity entries =>
    rcases storeVerifiedUpdateLog_cases (P := P) node identity entries with heq | ⟨heq, -⟩
    · simp only [step, heq] at h
      exact .inl h
    · simp only [step, heq] at h
      exact .inl h
  | _ => exact .inl h

/-! ### Runs in which no record is signed -/

/-- The store has the signature of a record of the identity, in the manifest of published
content. -/
def RecordSigned (P : Primitives) (node : LocalNode) : Prop :=
  ∃ (contentId : String) (data : Bytes) (manifest : ContentManifest),
    node.store.publishedContent[contentId]? = some (data, manifest) ∧
      manifest.signature = P.sign node.identityKey data ∧ IsRecordBytes P node.identity data

/-- No bytes that an application publishes with the event read as a record of the identity. -/
def NoRecordSupplied (P : Primitives) (node : LocalNode) (event : Event) : Prop :=
  ∀ data ∈ supplied P node event, readsAsRecord P node.identity data = false

theorem not_isRecordBytes_toJson (hjson : ∀ records, (toJson records).head? = some 91)
    (records : List DeviceAuthorizationRecord) : ¬ IsRecordBytes P identity (toJson records) := by
  intro h
  have hhead := head_of_isRecordBytes h
  rw [hjson] at hhead
  cases hhead

/-- **An event leads to the signature of a record exactly if an application supplies one.** -/
theorem recordSigned_step_iff (hjson : ∀ records, (toJson records).head? = some 91)
    (hnode : ¬ RecordSigned P node) (event : Event) :
    ¬ RecordSigned P (step P toJson peerIdOf node event) ↔ NoRecordSupplied P node event := by
  have hself : SameSelf node (step P toJson peerIdOf node event) := sameSelf_step node event
  unfold RecordSigned at hnode ⊢
  rw [hself.identity, hself.identityKey]
  constructor
  · intro hnone data hdata
    by_contra hreads
    refine hnone ⟨_, data, _, published_of_supplied hdata, rfl, readsAsRecord_iff.mp ?_⟩
    simpa using hreads
  · rintro hsupplied ⟨contentId, data, manifest, hentry, hsignature, hbytes⟩
    obtain hold | ⟨data', hdata, heq⟩ := published_step hentry
    · exact hnode ⟨contentId, data, manifest, hold, hsignature, hbytes⟩
    · obtain ⟨rfl, rfl⟩ := Prod.mk.inj heq
      rcases hdata with hdata | ⟨records, rfl⟩
      · rw [← readsAsRecord_iff, hsupplied data hdata] at hbytes
        cases hbytes
      · exact not_isRecordBytes_toJson hjson records hbytes

/-- **No record is signed for an application**, in the runs in which no bytes that applications
publish read as a record of the identity, and only in those. `hjson` is that `serde_json` writes a
list as an array. -/
theorem no_record_signed_iff (hjson : ∀ records, (toJson records).head? = some 91)
    (hnode : ¬ RecordSigned P node) (events : List Event) :
    Along (step P toJson peerIdOf)
        (fun node event => ¬ RecordSigned P (step P toJson peerIdOf node event)) node events ↔
      Along (step P toJson peerIdOf) (NoRecordSupplied P) node events :=
  along_iff (I := fun node => ¬ RecordSigned P node) (fun _ _ _ hnone => hnone)
    (fun _ event hnode => recordSigned_step_iff hjson hnode event) hnode

/-! ### A record that the node signs for an application -/

/-- The record that authorizes the phone in the name of the owner, whom nobody asked. -/
def phoneRecord : DeviceAuthorizationRecordBody :=
  { (Sample.record 1 none (Sample.authorize "phone" 2)).body with
    previousRecordHash := SampleNode.node.localDeviceAuthorityRecords.getLast?.map
      (·.recordHash primitives) }

def phoneBytes : Bytes := phoneRecord.canonicalBytes primitives

def publication (data : Bytes) : Event := .write default (.publish data "/notes/first")

theorem not_recordSigned_node : ¬ RecordSigned primitives SampleNode.node := by
  rintro ⟨contentId, data, manifest, hentry, -⟩
  have hempty : SampleNode.node.store.publishedContent.toList = [] := by decide +kernel
  have hmem := ExtTreeMap.mem_toList_iff_getElem?_eq_some.mpr hentry
  rw [hempty] at hmem
  cases hmem

/-- A note of the application is signed, and no record is. -/
theorem note_signed : Along (step primitives (fun _ => [91]) SampleNode.peerIdOf)
    (fun node event => ¬ RecordSigned primitives
      (step primitives (fun _ => [91]) SampleNode.peerIdOf node event))
    SampleNode.node [publication [104, 105]] := by
  refine (no_record_signed_iff (fun _ => rfl) not_recordSigned_node _).mpr ⟨?_, trivial⟩
  unfold NoRecordSupplied
  decide +kernel

/-- An application publishes the bytes of a record, and the manifest of that content completes it:
the chain with the record and the signature of the manifest is valid, and authorizes the phone. -/
theorem published_record_signed :
    RecordSigned primitives (step primitives (fun _ => [91]) SampleNode.peerIdOf SampleNode.node
      (publication phoneBytes)) ∧
    ((step primitives (fun _ => [91]) SampleNode.peerIdOf SampleNode.node
        (publication phoneBytes)).store.publishedContent[primitives.contentIdToString
          (.fromBytes primitives phoneBytes)]?.any fun (_, manifest) =>
      (verifyIdentityAuthorityChain primitives SampleNode.node.identity
        (SampleNode.node.localDeviceAuthorityRecords ++
          [⟨phoneRecord, manifest.signature⟩])).isOk) = true := by
  constructor
  · refine not_not.mp fun hnone => ?_
    have hsupplied := (recordSigned_step_iff (fun _ => rfl) not_recordSigned_node _).mp hnone
    have hreads := hsupplied phoneBytes (by decide +kernel)
    exact absurd hreads (by decide +kernel)
  · decide +kernel

end Jolt.Publishing.SigningOracle

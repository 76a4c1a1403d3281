import Jolt.Lib.Runs
import Jolt.Publishing.AlignedRuns

/-! # The device of the node stays in the chain

The chain that a node publishes by names its device from the construction on: a node that finds its
device missing authorizes it, and operations are only added. Syncs can replace the chain by one that
is not shorter; if such chains name the device, it goes on being named (`named_run`). -/

namespace Jolt.Publishing.NamedRuns

open Std Lib Checks Calls.Call Lib.Runs Jolt.Core Jolt.Core.Types IdentityAuthority DeviceWriterLog
  Authority.Chain Network DeviceWriterCache CacheSpec
open Node hiding Event step run construct
open Store Writing LocalNode Outcomes Requests Publishing.Alignment Publishing.Runs AlignedRuns

variable {P : Primitives} {toJson : List DeviceAuthorizationRecord → Bytes}
  {peerIdOf : Bytes → Option PeerId} {node node' : LocalNode} {st : CachedDeviceWriterState}
  {outside : Outside} {records : List DeviceAuthorizationRecord}

/-- The chain that the node publishes by names its device. -/
def Named (node : LocalNode) : Prop :=
  (deviceOf node.localDeviceAuthorityRecords node.localDeviceId).isSome = true

theorem named_authorityRecords {createdAt : UInt64} {requireActive : Bool}
    (h : node.authorityRecordsForLocalDevice P createdAt requireActive = .ok records) :
    (deviceOf records node.localDeviceId).isSome = true := by
  rcases authorityRecords_cases h with ⟨authority, device, hverify, hdevice, -, -, rfl⟩ | ⟨-,
    record, rfl, hoperation⟩
  · rw [← getElem?_devices_of_verify hverify, hdevice]
    rfl
  · rw [deviceOf_concat, hoperation, authorizeLocal, deviceStep, if_pos rfl]
    rfl

/-! ### Writing and authority operations -/

theorem named_of_eq {a b : LocalNode} (hdevice : b.localDeviceId = a.localDeviceId)
    (hrecords : b.localDeviceAuthorityRecords = a.localDeviceAuthorityRecords) (h : Named a) :
    Named b := by
  unfold Named
  rw [hdevice, hrecords]
  exact h

theorem named_publish (outside : Outside) (path : String) (operation : DeviceWriterOperation)
    (mutation : Option RecordMutationIntent) : Keeps (fun a b => Named a → Named b)
      (publishLocalDeviceWriterOperation P outside path operation mutation) := by
  intro node hnamed
  obtain ⟨e, h⟩ | ⟨entry, record, network, hp, ⟨e, -, h⟩ | ⟨stored, hn, h⟩⟩ :=
    publish_cases P outside path operation mutation node
  · rw [h]
    exact hnamed
  · have hself := sameSelf_publish (P := P) outside path operation mutation node
    rw [h] at hself ⊢
    exact named_of_eq hself.localDeviceId rfl hnamed
  · rw [h]
    obtain ⟨-, _, -, -, hrecords, -⟩ := prepareDeviceWriterOperation_eq_ok.mp hp
    obtain ⟨merged, -, -, rfl⟩ := storeVerified_eq_ok hn
    have hnamed' := named_authorityRecords hrecords
    exact hnamed'

theorem stagewise_named : Stagewise P (fun a b => Named a → Named b) where
  refl _ := id
  trans hab hbc ha := hbc (hab ha)
  content _ _ _ := id
  entry _ _ _ _ := id
  logged _ _ _ _ := id
  publish := named_publish

theorem named_authority (ambient : Ambient) (operation : DeviceAuthorizationOperation) :
    Keeps (fun a b => Named a → Named b)
      (appendLocalDeviceAuthorityOperation P toJson outside ambient operation) := by
  refine stagewise_named.authority toJson outside ambient operation fun node records hnext => ?_
  intro mid hmid hnamed
  have hself := stagewise_sameSelf.publishBytesAtPath (P := P) outside (toJson records)
    identityAuthorityPath node
  obtain ⟨record, rfl⟩ : ∃ record, records = node.localDeviceAuthorityRecords ++ [record] := by
    simp only [nextAuthorityRecords, bind_eq_ok, pure_eq_ok] at hnext
    obtain ⟨_, -, record, -, _, -, rfl⟩ := hnext
    exact ⟨record, rfl⟩
  rcases takeOver_cases (P := P) mid ambient node.identity
    (node.localDeviceAuthorityRecords ++ [record]) with h | ⟨network, -, hdevice, -,
      h | h⟩ <;> rw [h]
  · exact hmid hnamed
  · exact named_of_eq hdevice rfl (hmid hnamed)
  · show (deviceOf (node.localDeviceAuthorityRecords ++ [record]) network.localDeviceId).isSome =
      true
    rw [hdevice, deviceOf_concat, show mid.network.localDeviceId = node.localDeviceId from
      hself.localDeviceId]
    exact isSome_deviceStep hnamed _

/-- A chain that a sync brings can replace that of the node only if it names the device. -/
def ChainNames (P : Primitives) (node : LocalNode) (records : List DeviceAuthorizationRecord) :
    Prop :=
  ∀ authority, verifyIdentityAuthorityChain P node.identity records = .ok authority →
    node.localDeviceAuthorityRecords.length ≤ records.length →
      node.localDeviceId ∈ authority.devices

theorem named_storeAndPersist (ambient : Ambient) (logs : List (List DeviceWriterLogEntry))
    (hnames : ChainNames P node records) (ha : Aligned P node st) (hnamed : Named node) :
    Named (storeAndPersist P ambient node.identity records logs node).2 := by
  obtain ⟨network', -, hdevice, -, h | ⟨merged, hmerge, h⟩⟩ :=
    storeAndPersist_cases (P := P) node ambient records logs <;> rw [h]
  · exact named_of_eq hdevice rfl hnamed
  · show (deviceOf merged.authorityRecords network'.localDeviceId).isSome = true
    rw [hdevice]
    obtain ⟨candidate, -, hcandidate, hchosen, -⟩ := mergeVerified_eq_ok_iff.mp (ha.merge hmerge).1
    unfold chooseRecords at hchosen
    dsimp only at hchosen
    split_ifs at hchosen with hle
    · rw [hchosen, ← getElem?_devices_of_verify hcandidate, ← ExtTreeMap.mem_iff_isSome_getElem?]
      refine hnames candidate hcandidate ?_
      obtain ⟨authority, _, hheld, hseq, -⟩ := ha.ok.backed
      have hlen := latestSequence_of_verify hcandidate
      have hlen' := latestSequence_of_verify hheld
      rw [hseq, UInt64.le_iff_toNat_le] at hle
      rw [← ha.records]
      omega
    · rw [hchosen, ha.records]
      exact hnamed

/-! ### Runs -/

/-- The chains that syncs bring for the identity name the device, if they verify and are not shorter
than that of the node. -/
def Names (P : Primitives) (node : LocalNode) : Event → Prop
  | .offer _ _ request =>
    request.identity = node.identity → ChainNames P node request.authorityRecords
  | .response _ pending response =>
    pending.identity = node.identity → ChainNames P node response.authorityRecords
  | _ => True

/-- **The chain goes on naming the device**, if the chains of the syncs do. -/
theorem named_step {event : Event} (hnames : Names P node event)
    (ha : InLine P node) (hnamed : Named node) : Named (step P toJson peerIdOf node event) := by
  have hself : SameSelf node (step P toJson peerIdOf node event) := sameSelf_step node event
  obtain ⟨st, hst⟩ := ha
  cases event with
  | write outside request => exact stagewise_named.call outside request node hnamed
  | content outside data => exact stagewise_named.publishBytes outside data node hnamed
  | authority outside ambient operation => exact named_authority ambient operation node hnamed
  | offer ambient peer request =>
    have hkeeps : Keeps (fun a b => a = node → Named b) (handleSyncRequest P peerIdOf ambient peer
      request) := by
      refine keeps_handleSyncRequest (fun _ h => h ▸ hnamed) fun _ hid h => ?_
      subst h
      exact named_storeAndPersist ambient _ (hnames hid) hst hnamed
    exact hkeeps node rfl
  | response ambient pending response =>
    have hkeeps : Keeps (fun a b => a = node → Named b) (handleSyncResponse P ambient pending
      response) := by
      refine keeps_handleSyncResponse (fun _ h => h ▸ hnamed) (fun _ hid h => ?_) fun _ hid h => ?_
      · subst h
        exact named_storeAndPersist ambient _ (hnames hid) hst hnamed
      · subst h
        exact named_of_eq (CacheSteps.cacheFrame_schedule _ pending response).localDeviceId
          rfl hnamed
    exact hkeeps node rfl
  | updateLog identity entries =>
    refine named_of_eq hself.localDeviceId ?_ hnamed
    show (storeVerifiedUpdateLog P identity entries node).2.localDeviceAuthorityRecords = _
    rcases storeVerifiedUpdateLog_cases (P := P) node identity entries with h | ⟨h, -⟩ <;> rw [h]
    rfl
  | _ => exact named_of_eq hself.localDeviceId rfl hnamed

theorem named_run (ha : InLine P node) (hnamed : Named node) {events : List Event}
    (hsaved : ∀ event ∈ events, Saved node.identity event)
    (hnames : Along (step P toJson peerIdOf) (Names P) node events) :
    Named (run P toJson peerIdOf node events) := by
  suffices h : SameSelf node (run P toJson peerIdOf node events) ∧
      InLine P (run P toJson peerIdOf node events) ∧ Named (run P toJson peerIdOf node events) from
    h.2.2
  have hevents := (along_of_forall_mem hsaved).and hnames
  refine hevents.invariant (I := fun mid => SameSelf node mid ∧ InLine P mid ∧ Named mid) ?_
    ⟨.refl node, ha, hnamed⟩
  rintro mid event ⟨hself, hmid, hname⟩ ⟨hsaved, hnames⟩
  refine ⟨hself.trans (sameSelf_step mid event), ?_, ?_⟩
  · exact inLine_step (hself.identity ▸ hsaved) hmid
  · exact named_step hnames hmid hname

/-! ### Construction -/

theorem named_construct {keys : Keys} {boot : Boot} {store : ContentStore}
    (h : construct P keys boot store = (.ok (), node)) : Named node := by
  unfold construct load at h
  simp only [run_bind_eq_ok, write_apply, Prod.mk.injEq] at h
  obtain ⟨_, updates, hupdates, _, logs, hlogs, _, restored, ⟨-, rfl⟩, hensure⟩ := h
  obtain ⟨records, hrecords, htake⟩ := ensureLocalDeviceAuthority_eq_ok hensure
  obtain ⟨sequence, network', hn, rfl⟩ := takeOver_eq_ok htake
  obtain ⟨merged, -, -, rfl⟩ := storeVerified_eq_ok hn
  have hnamed := named_authorityRecords hrecords
  exact hnamed

end Jolt.Publishing.NamedRuns

import Jolt.Publishing.Runs

/-! # The copies of a node stay in line

A node that is built from its store has its copies in line (`aligned_construct`), and as long as the
states that syncs bring for its own identity are saved, every event keeps them so (`aligned_run`). A
sync whose state is not saved leaves the node with the chain it had for publishing beside a cached
state with another one. -/

namespace Jolt.Publishing.AlignedRuns

open Std Lib Checks Calls.Call Jolt.Core Jolt.Core.Types IdentityAuthority DeviceWriterLog Network
  DeviceWriterCache CacheSpec List Nat
open Node hiding Event step run construct
open CacheSteps HeldLogs Store Writing LocalNode Outcomes Requests Publishing.Alignment
  Publishing.Runs

variable {P : Primitives} {toJson : List DeviceAuthorizationRecord → Bytes}
  {peerIdOf : Bytes → Option PeerId} {node node' : LocalNode} {st : CachedDeviceWriterState}
  {ambient : Ambient} {outside : Outside} {records : List DeviceAuthorizationRecord}
  {network' : NetworkNode} {sequence : UInt64} {identity : IdentityId}
  {record : PersistedDeviceWriterLog}

def InLine (P : Primitives) (node : LocalNode) : Prop := ∃ st, Aligned P node st

theorem aligned_of_eq (h : Aligned P node st) (hid : node'.identity = node.identity)
    (hdevice : node'.localDeviceId = node.localDeviceId) (hstate : node'.state = node.state)
    (hrecords : node'.localDeviceAuthorityRecords = node.localDeviceAuthorityRecords)
    (hlog : node'.localLog = node.localLog)
    (hworks : ∀ work ∈ works node'.network, work ∈ works node.network ∨
      work.identity ≠ node.identity) : Aligned P node' st := by
  refine ⟨hstate.trans h.state, hid ▸ h.ok, h.records.trans hrecords.symm, ?_, ?_⟩
  · rw [hdevice, hlog]
    exact h.log
  · intro work hwork
    rw [hid]
    exact (hworks work hwork).elim (h.works work) id

theorem aligned_of_network (h : Aligned P node st) (hnetwork : node'.network = node.network)
    (hrecords : node'.localDeviceAuthorityRecords = node.localDeviceAuthorityRecords) :
    Aligned P node' st := by
  obtain ⟨network, _, _, _, _, _, _⟩ := node'
  obtain rfl : network = node.network := hnetwork
  exact aligned_of_eq h rfl rfl rfl hrecords rfl fun _ hwork => .inl hwork

/-! ### Writing -/

theorem inLine_publish (outside : Outside) (path : String) (operation : DeviceWriterOperation)
    (mutation : Option RecordMutationIntent) : Keeps (fun a b => InLine P a → InLine P b)
      (publishLocalDeviceWriterOperation P outside path operation mutation) := by
  rintro node ⟨st, ha⟩
  obtain ⟨e, h⟩ | ⟨entry, record, network, -, ⟨e, hn, h⟩ | ⟨stored, -, h⟩⟩ :=
    publish_cases P outside path operation mutation node
  · rw [h]
    exact ⟨st, ha⟩
  · rw [h]
    rcases storeVerified_eq_error hn with rfl | rfl
    · exact ⟨st, aligned_of_network ha rfl rfl⟩
    · exact ⟨st, aligned_of_eq ha rfl rfl rfl rfl rfl fun _ hwork => .inl hwork⟩
  · rw [h]
    obtain ⟨_, _, _, _, st', -, -, -, -, -, -, -, hw⟩ := publish_eq_ok ha h
    exact ⟨st', hw.aligned⟩

theorem stagewise_inLine : Stagewise P (fun a b => InLine P a → InLine P b) where
  refl _ := id
  trans hab hbc ha := hbc (hab ha)
  content _ _ _ := fun ⟨st, ha⟩ => ⟨st, aligned_of_network ha rfl rfl⟩
  entry _ _ _ _ := fun ⟨st, ha⟩ => ⟨st, aligned_of_network ha rfl rfl⟩
  logged _ _ _ _ := fun ⟨st, ha⟩ => ⟨st, aligned_of_network ha rfl rfl⟩
  publish := inLine_publish

/-! ### Authority operations -/

/-- **A chain that is stored without logs** and taken over for publishing. -/
theorem aligned_chain (ha : Aligned P node st) (hlen : st.authorityRecords.length ≤ records.length)
    (hn : node.network.storeVerifiedDeviceWriterLogs P ambient node.identity records [] =
      (.ok sequence, network')) :
      ∃ st', Aligned P ((node.setNetwork network').setAuthorityRecords records) st' ∧
      st'.deviceLogs = st.deviceLogs := by
  obtain ⟨merged, hmerge, -, rfl⟩ := storeVerified_eq_ok hn
  obtain ⟨hmerge, hok⟩ := ha.merge hmerge
  obtain ⟨candidate, authority', hcandidate, hchosen, -, -, hlogs, -, -, -, -⟩ :=
    mergeVerified_eq_ok_iff.mp hmerge
  rw [chooseRecords_of_length_le ha.ok hcandidate hlen] at hchosen
  simp only [Option.map_some, Option.getD_some, foldlM_nil, pure_eq_ok] at hlogs
  refine ⟨stamp merged ambient.now none, ⟨cached_insertState _, cacheOk_stamp hok _ _, hchosen, ?_,
    ha.works⟩, hlogs.symm⟩
  show held merged.deviceLogs node.localDeviceId = node.localLog
  rw [← hlogs, ha.log]

/-- A write adds at most one record to the chain. -/
theorem length_records_publish (outside : Outside) (path : String)
    (operation : DeviceWriterOperation) (mutation : Option RecordMutationIntent)
    (node : LocalNode) :
    (publishLocalDeviceWriterOperation P outside path operation mutation
      node).2.localDeviceAuthorityRecords.length ≤ node.localDeviceAuthorityRecords.length + 1 := by
  obtain ⟨e, h⟩ | ⟨entry, record, network, hp, ⟨e, -, h⟩ | ⟨stored, -, h⟩⟩ :=
    publish_cases P outside path operation mutation node <;> rw [h]
  · exact le_succ _
  · exact le_succ _
  · obtain ⟨-, _, -, -, hrecords, -⟩ := prepareDeviceWriterOperation_eq_ok.mp hp
    rcases authorityRecords_cases hrecords with ⟨_, _, -, -, -, -, heq⟩ | ⟨-, _, heq, -⟩
    · exact (congrArg List.length heq).le.trans (le_succ _)
    · exact ((congrArg List.length heq).trans length_append).le

theorem length_records_carryOut (outside : Outside) (w : Write) (node : LocalNode) :
    (carryOut P outside w node).2.localDeviceAuthorityRecords.length ≤
      node.localDeviceAuthorityRecords.length + 1 := by
  have hcontent : (afterContent P w node).localDeviceAuthorityRecords =
    node.localDeviceAuthorityRecords := by
    unfold afterContent
    cases w.content <;> rfl
  rw [carryOut_apply, ← hcontent]
  cases w.content.elim (.ok ()) fun _ => outside.contentSaved with
  | error e =>
    obtain ⟨_, _, hcut⟩ := afterCut_eq P outside node w
    dsimp only
    rw [hcut]
    exact hcontent ▸ le_succ _
  | ok u =>
    cases w.action with
    | none => exact length_records_publish outside w.path w.operation w.intent _
    | some action =>
      dsimp only
      cases node.nextUpdateLogEntry P action with
      | error e => exact le_succ _
      | ok entry =>
        cases outside.updateLogSaved with
        | error e => exact le_succ _
        | ok v =>
          exact Stagewise.of_replied (R := fun a b => b.localDeviceAuthorityRecords.length ≤
            a.localDeviceAuthorityRecords.length + 1)
            (length_records_publish outside w.path w.operation w.intent (logged _ entry))

theorem length_records_publishBytesAtPath (outside : Outside) (data : Bytes) (path : String)
    (node : LocalNode) :
    (publishBytesAtPath P outside data path node).2.localDeviceAuthorityRecords.length ≤
      node.localDeviceAuthorityRecords.length + 1 := by
  rw [publishBytesAtPath_apply]
  cases node.addressOf path with
  | error e => exact le_succ _
  | ok address =>
    exact Stagewise.of_replied (R := fun a b => b.localDeviceAuthorityRecords.length ≤
      a.localDeviceAuthorityRecords.length + 1) (length_records_carryOut outside _ node)

theorem length_nextAuthorityRecords {createdAt : UInt64} {operation : DeviceAuthorizationOperation}
    (h : nextAuthorityRecords P node createdAt operation = .ok records) :
    records.length = node.localDeviceAuthorityRecords.length + 1 := by
  simp only [nextAuthorityRecords, bind_eq_ok, pure_eq_ok] at h
  obtain ⟨_, -, _, -, _, -, rfl⟩ := h
  exact length_append

theorem inLine_takeOver (ha : Aligned P node st)
    (hlen : st.authorityRecords.length ≤ records.length) :
    InLine P (takeOver P ambient node.identity records node).2 := by
  rw [takeOver_apply]
  cases ambient.saved with
  | error e => exact ⟨st, ha⟩
  | ok u =>
    dsimp only
    rcases hn : node.network.storeVerifiedDeviceWriterLogs P ambient node.identity records [] with
      ⟨e | sequence, network'⟩
    · rcases storeVerified_eq_error hn with rfl | rfl
      · exact ⟨st, aligned_of_network ha rfl rfl⟩
      · exact ⟨st, aligned_of_eq ha rfl rfl rfl rfl rfl fun _ hwork => .inl hwork⟩
    · obtain ⟨st', hst', -⟩ := aligned_chain ha hlen hn
      exact ⟨st', aligned_of_network hst' rfl rfl⟩

/-- **Authority operations keep the copies in line**: the chain with the new record is at least as
long as the one that publishing it leaves behind. -/
theorem inLine_authority (operation : DeviceAuthorizationOperation) :
    Keeps (fun a b => InLine P a → InLine P b)
      (appendLocalDeviceAuthorityOperation P toJson outside ambient operation) := by
  refine stagewise_inLine.authority toJson outside ambient operation fun node records hnext => ?_
  intro mid hmid ha
  obtain ⟨st, hst⟩ := hmid ha
  have hself := stagewise_sameSelf.publishBytesAtPath (P := P) outside (toJson records)
    identityAuthorityPath node
  have hlen := length_records_publishBytesAtPath (P := P) outside (toJson records)
    identityAuthorityPath node
  rw [← length_nextAuthorityRecords hnext, ← hst.records] at hlen
  rw [← hself.identity]
  exact inLine_takeOver hst hlen

/-! ### Syncs and verifications in the background -/

theorem aligned_setNetwork {network : NetworkNode} (ha : Aligned P node st)
    (hframe : LocalFrame node.network network)
    (hcached : network.cached node.identity = node.network.cached node.identity)
    (hworks : ∀ work ∈ works network, work ∈ works node.network ∨ work.identity ≠ node.identity) :
    Aligned P (node.setNetwork network) st := by
  refine aligned_of_eq ha hframe.identity hframe.localDeviceId ?_ rfl ?_ hworks
  · show network.cached network.identity = _
    rw [hframe.identity]
    exact hcached
  · show network.localDeviceWriterLogs network.identity = _
    rw [hframe.identity, hframe.localLogs]
    rfl

theorem cached_of_cacheFrame {network : NetworkNode} (h : CacheFrame network network')
    (identity : IdentityId) :
    network'.cached identity = network.cached identity := by
  unfold NetworkNode.cached
  rw [h.states]

theorem aligned_storeVerified_of_ne (hid : identity ≠ node.identity) (ha : Aligned P node st)
    (records : List DeviceAuthorizationRecord) (logs : List (List DeviceWriterLogEntry)) :
    Aligned P (storeVerifiedDeviceWriterLogs P ambient identity records logs node).2 st := by
  have hstores : Stores P node.identity (fun _ => False) node.network
      (node.network.storeVerifiedDeviceWriterLogs P ambient identity records logs).2 :=
    stores_storeVerified node.network ambient identity records logs fun h => absurd h hid
  refine aligned_setNetwork ha (localFrame_storeVerified ..) (cached_eq_of_cellStep hstores.cell)
    fun work hwork => .inl ?_
  unfold works at hwork ⊢
  rwa [hstores.queue] at hwork

theorem aligned_schedule {pending : PendingDeviceWriterSync}
    (hid : pending.identity ≠ node.identity) (ha : Aligned P node st)
    (response : DeviceWriterSyncResponse) :
    Aligned P (node.setNetwork (node.network.scheduleDeviceWriterSyncVerification pending response))
      st := by
  have hframe := cacheFrame_schedule node.network pending response
  refine aligned_setNetwork ha hframe.toLocalFrame (cached_of_cacheFrame hframe _) fun work hwork =>
    ?_
  rcases mem_works_schedule hwork with hwork | ⟨hpending, -⟩
  · exact .inl hwork
  · exact .inr (hpending ▸ hid)

theorem aligned_completion (ha : Aligned P node st) (id : ℕ) :
    Aligned P (node.setNetwork (node.network.handleDeviceWriterSyncCompletion P ambient id))
      st := by
  have hframe : (node.network.handleDeviceWriterSyncCompletion P ambient id).cached node.identity =
        node.network.cached node.identity ∧
      works (node.network.handleDeviceWriterSyncCompletion P ambient id) ⊆ works node.network := by
    unfold NetworkNode.handleDeviceWriterSyncCompletion
    split
    · exact ⟨rfl, List.Subset.refl _⟩
    next work hfind =>
    have hne : work.identity ≠ node.identity :=
      ha.works work (mem_append_left _ (mem_of_find?_eq_some hfind))
    split
    · exact ⟨rfl, List.Subset.refl _⟩
    · exact ⟨rfl, works_finishWork_subset node.network work⟩
    · split_ifs
      · refine ⟨?_, works_finishWork_subset (node.network.insertState _ _) work⟩
        exact congrArg _ (insertState_of_ne node.network _ hne)
      · exact ⟨rfl, works_finishWork_subset node.network work⟩
  exact aligned_setNetwork ha (localFrame_completion node.network ambient id) hframe.1
    fun work hwork =>
    .inl (hframe.2 hwork)

theorem aligned_cancel (ha : Aligned P node st) (identity : IdentityId) :
    Aligned P (node.setNetwork (node.network.cancelDeviceWriterSyncForIdentity identity)) st := by
  have hframe := cacheFrame_cancel node.network identity
  exact aligned_setNetwork ha hframe.toLocalFrame (cached_of_cacheFrame hframe _) fun work hwork =>
    .inl (works_cancel_subset node.network identity hwork)

/-! ### Runs -/

/-- The states that a sync brings for the identity are saved, and its logs come by syncs only. -/
def Saved (identity : IdentityId) : Event → Prop
  | .offer ambient _ request => request.identity = identity → ambient.saved = .ok ()
  | .response ambient pending _ => pending.identity = identity → ambient.saved = .ok ()
  | .store _ id _ _ => id ≠ identity
  | _ => True

/-- **Every event keeps the copies in line**, if what it syncs is saved. -/
theorem inLine_step {event : Event} (hsaved : Saved node.identity event) (ha : InLine P node) :
    InLine P (step P toJson peerIdOf node event) := by
  cases event with
  | write outside request => exact stagewise_inLine.call outside request node ha
  | content outside data => exact stagewise_inLine.publishBytes outside data node ha
  | authority outside ambient operation => exact inLine_authority operation node ha
  | offer ambient peer request =>
    have hkeeps : Keeps (fun a b => Saved a.identity (.offer ambient peer request) → InLine P a →
        InLine P b) (handleSyncRequest P peerIdOf ambient peer request) := by
      refine keeps_handleSyncRequest (fun _ _ => id) fun node hid hsaved => ?_
      rintro ⟨st, hst⟩
      exact aligned_storeAndPersist hst (hsaved hid) _ _
    exact hkeeps node hsaved ha
  | response ambient pending response =>
    have hkeeps : Keeps (fun a b => Saved a.identity (.response ambient pending response) →
        InLine P a → InLine P b) (handleSyncResponse P ambient pending response) := by
      refine keeps_handleSyncResponse (fun _ _ => id) (fun node hid hsaved => ?_) fun node hid _ =>
        ?_
      · rintro ⟨st, hst⟩
        exact aligned_storeAndPersist hst (hsaved hid) _ _
      · rintro ⟨st, hst⟩
        exact ⟨st, aligned_schedule hid hst response⟩
    exact hkeeps node hsaved ha
  | completion ambient id =>
    obtain ⟨st, hst⟩ := ha
    exact ⟨st, aligned_completion hst id⟩
  | cancel identity =>
    obtain ⟨st, hst⟩ := ha
    exact ⟨st, aligned_cancel hst identity⟩
  | store ambient identity records logs =>
    obtain ⟨st, hst⟩ := ha
    exact ⟨st, aligned_storeVerified_of_ne hsaved hst records logs⟩
  | updateLog identity entries =>
    obtain ⟨st, hst⟩ := ha
    refine ⟨st, ?_⟩
    show Aligned P (storeVerifiedUpdateLog P identity entries node).2 st
    rcases storeVerifiedUpdateLog_cases (P := P) node identity entries with h | ⟨h, -⟩ <;> rw [h]
    · exact hst
    · exact aligned_of_network hst rfl rfl

/-- **The copies stay in line** over every run whose synced states are saved. -/
theorem inLine_run (ha : InLine P node) {events : List Event}
    (hsaved : ∀ event ∈ events, Saved node.identity event) :
    InLine P (run P toJson peerIdOf node events) := by
  suffices h : SameSelf node (run P toJson peerIdOf node events) ∧
    InLine P (run P toJson peerIdOf node events) from h.2
  refine run_induction (I := fun mid => SameSelf node mid ∧ InLine P mid) (C := Saved node.identity)
    ?_ ⟨.refl node, ha⟩ hsaved
  rintro mid event ⟨hself, hmid⟩ hevent
  exact ⟨hself.trans (sameSelf_step mid event), inLine_step (hself.identity ▸ hevent) hmid⟩

/-! ### Construction -/

/-- Nothing is loaded for the identity of the node. -/
structure Blank (node : LocalNode) : Prop where
  state : node.state = none
  records : node.localDeviceAuthorityRecords = []
  log : node.localLog = []
  works : works node.network = []

theorem blank_fresh (keys : Keys) (store : ContentStore) : Blank (fresh P keys store) :=
    ⟨rfl, rfl, rfl, rfl⟩

/-- The logs that are saved for other devices are not logs of the local one. -/
def Apart (localDeviceId : String) (store : ContentStore) : Prop :=
  ∀ record ∈ store.deviceWriterLog, ∀ log ∈ record.otherDeviceLogs, log.head?.map
    (·.body.deviceId) ≠ some localDeviceId

theorem held_foldlM_of_ne : ∀ {logs : List (List DeviceWriterLogEntry)}
    {accumulated accumulated' : DeviceLogs} {d : String}, WellKeyed accumulated →
    (∀ log ∈ logs, log.head?.map (·.body.deviceId) ≠ some d) →
    logs.foldlM (accumulateLog P) accumulated = .ok accumulated' →
    held accumulated' d = held accumulated d
  | [], _, _, _, _, _, h => by
    simp only [foldlM_nil, pure_eq_ok] at h
    rw [h]
  | log :: logs, accumulated, accumulated', d, hk, hne, h => by
    rw [foldlM_cons, bind_eq_ok] at h
    obtain ⟨acc, hacc, hrest⟩ := h
    rw [held_foldlM_of_ne (hk.accumulateLog hacc) (fun l hl =>
      hne l (mem_cons_of_mem log hl)) hrest]
    rcases accumulateLog_cases hk hacc with ⟨-, rfl⟩ | ⟨first, full, hfirst, -, hlookup⟩
    · rfl
    · have hd : first.body.deviceId ≠ d := by
        rintro rfl
        exact hne log mem_cons_self (by rw [hfirst]; rfl)
      unfold held
      rw [hlookup d, if_neg hd]

/-- **What is held for the local device after loading** is the log that the node goes on with. -/
theorem held_of_loaded {accumulated : DeviceLogs} {d : String}
    (hothers : ∀ log ∈ record.otherDeviceLogs, log.head?.map (·.body.deviceId) ≠ some d)
    (h : record.deviceLogs.foldlM (accumulateLog P) ∅ = .ok accumulated) : held accumulated d =
      (record.deviceLogs.find? fun log => log.head?.map (·.body.deviceId) = some d).getD [] := by
  have hfind : record.otherDeviceLogs.find? (fun log => log.head?.map (·.body.deviceId) = some d) =
    none := by
    rw [find?_eq_none]
    intro log hlog
    simpa using hothers log hlog
  unfold PersistedDeviceWriterLog.deviceLogs at h ⊢
  by_cases hnil : record.deviceLog = []
  · rw [if_pos hnil, nil_append] at h ⊢
    rw [hfind, held_foldlM_of_ne wellKeyed_empty hothers h]
    simp [held]
  · rw [if_neg hnil, singleton_append] at h ⊢
    rw [foldlM_cons, bind_eq_ok] at h
    obtain ⟨acc, hacc, hrest⟩ := h
    rw [held_foldlM_of_ne (wellKeyed_empty.accumulateLog hacc) hothers hrest, find?_cons, hfind]
    rcases accumulateLog_cases wellKeyed_empty hacc with ⟨hempty, -⟩ | ⟨first, full, hfirst,
      hfull, hlookup⟩
    · exact absurd hempty hnil
    · have hlog : full = record.deviceLog := by
        rcases hfull with ⟨rfl, -⟩ | ⟨known, hknown, -⟩
        · rfl
        · simp at hknown
      unfold held
      rw [hlookup d, hlog, hfirst]
      by_cases hd : first.body.deviceId = d
      · simp [hd, Newest.keepNewer]
      · simp [hd]

/-- A state that is stored first, on a blank node, with the log and the chain the node goes on
with. -/
theorem aligned_of_blank (hblank : Blank node) {logs : List (List DeviceWriterLogEntry)}
    (hn : node.network.storeVerifiedDeviceWriterLogs P ambient node.identity records logs =
      (.ok sequence, network')) : ∃ st, network'.cached node.identity = some st ∧
        CacheOk P node.identity st ∧
      st.authorityRecords = records ∧ network'.identity = node.identity ∧
      network'.localDeviceId = node.localDeviceId ∧ works network' = [] ∧
      network'.localDeviceWriterLogs = node.network.localDeviceWriterLogs ∧
      logs.foldlM (accumulateLog P) ∅ = .ok st.deviceLogs := by
  obtain ⟨merged, hmerge, -, rfl⟩ := storeVerified_eq_ok hn
  have hcached : node.network.cached node.network.identity = none := hblank.state
  rw [mergeFor, hcached] at hmerge
  have hok := cacheOk_of_mergeVerified (by simp) hmerge
  obtain ⟨candidate, authority', hcandidate, hchosen, -, -, hlogs, -, -, -, -⟩ :=
    mergeVerified_eq_ok_iff.mp hmerge
  exact ⟨stamp merged ambient.now none, cached_insertState _, cacheOk_stamp hok _ _,
    hchosen, rfl, rfl,
    hblank.works, rfl, hlogs⟩

theorem aligned_of_fields {d : String} (hid : node.identity = identity)
    (hdevice : node.localDeviceId = d) (hstate : node.network.cached identity = some st)
    (hok : CacheOk P identity st)
    (hrecords : st.authorityRecords = node.localDeviceAuthorityRecords)
    (hlog : held st.deviceLogs d = node.network.localDeviceWriterLogs identity)
    (hworks : works node.network = []) :
    Aligned P node st := by
  subst hid hdevice
  refine ⟨hstate, hok, hrecords, hlog, fun work hwork => ?_⟩
  rw [hworks] at hwork
  cases hwork

/-- A record that is loaded puts the copies in line. -/
theorem inLine_load (hblank : Blank node) (hapart : ∀ log ∈ record.otherDeviceLogs,
      log.head?.map (·.body.deviceId) ≠ some node.localDeviceId)
    (hn : node.network.storeVerifiedDeviceWriterLogs P ambient node.identity record.authorityRecords
      record.deviceLogs = (.ok sequence, network')) : InLine P (loaded node network' record) := by
  obtain ⟨st, hstate, hok, hrecords, hid, hdevice, hworks, hlogs, hfold⟩ :=
    aligned_of_blank hblank hn
  have hheld := held_of_loaded hapart hfold
  refine ⟨st, ?_⟩
  unfold loaded
  cases hfind : record.deviceLogs.find? fun log =>
    log.head?.map (·.body.deviceId) = some node.localDeviceId with
  | none =>
    rw [hfind] at hheld
    refine aligned_of_fields hid hdevice hstate hok hrecords (hheld.trans ?_) hworks
    exact ((congrFun hlogs node.identity).trans hblank.log).symm
  | some log =>
    rw [hfind] at hheld
    refine aligned_of_fields hid hdevice hstate hok hrecords (hheld.trans ?_) hworks
    show log = (network'.insertLocalLog network'.identity log).localDeviceWriterLogs node.identity
    rw [hid, localLogs_insertLocalLog]

/-- Restoring the states of other identities. -/
theorem restoreRemote_frame (network : NetworkNode)
    (saved : List (Iteration × PersistedRemoteIdentityState)) :
    let network' := saved.foldl
      (fun network s => network.restorePersistedRemoteIdentityState P s.1 s.2) network
    network'.identity = network.identity ∧ network'.localDeviceId = network.localDeviceId ∧
      network'.cached network.identity = network.cached network.identity ∧
      network'.localDeviceWriterLogs = network.localDeviceWriterLogs ∧
      works network' = works network := by
  induction saved generalizing network with
  | nil => exact ⟨rfl, rfl, rfl, rfl, rfl⟩
  | cons s saved ih =>
    have hone : let network' := network.restorePersistedRemoteIdentityState P s.1 s.2
        network'.identity = network.identity ∧ network'.localDeviceId = network.localDeviceId ∧
        network'.cached network.identity = network.cached network.identity ∧
        network'.localDeviceWriterLogs = network.localDeviceWriterLogs ∧
        works network' = works network := by
      unfold NetworkNode.restorePersistedRemoteIdentityState
      dsimp only
      split_ifs with hid
      · exact ⟨rfl, rfl, rfl, rfl, rfl⟩
      · split
        · exact ⟨rfl, rfl, rfl, rfl, rfl⟩
        · exact ⟨rfl, rfl, congrArg _ (insertState_of_ne network _ hid), rfl, rfl⟩
    obtain ⟨h1, h2, h3, h4, h5⟩ := hone
    obtain ⟨i1, i2, i3, i4, i5⟩ := ih (network.restorePersistedRemoteIdentityState P s.1 s.2)
    rw [h1] at i3
    exact ⟨i1.trans h1, i2.trans h2, i3.trans h3, i4.trans h4, i5.trans h5⟩

/-- **The first chain of a blank node** is taken over. -/
theorem inLine_takeOver_of_blank (hblank : Blank node)
    (h : takeOver P ambient node.identity records node = (.ok (), node')) : InLine P node' := by
  obtain ⟨sequence, network', hn, rfl⟩ := takeOver_eq_ok h
  obtain ⟨st, hstate, hok, hrecords, hid, hdevice, hworks, hlogs, hfold⟩ :=
    aligned_of_blank hblank hn
  simp only [foldlM_nil, pure_eq_ok] at hfold
  refine ⟨st, aligned_of_fields hid hdevice hstate hok hrecords ?_ hworks⟩
  rw [← hfold]
  exact ((congrFun hlogs node.identity).trans hblank.log).symm

/-- **A node that is built has its copies in line.** -/
theorem inLine_construct {keys : Keys} {boot : Boot} {store : ContentStore}
    (hapart : Apart (keys.localDeviceId P) store)
    (h : construct P keys boot store = (.ok (), node)) : InLine P node := by
  unfold construct load at h
  simp only [run_bind_eq_ok, write_apply, Prod.mk.injEq] at h
  obtain ⟨_, updates, hupdates, _, logs, hlogs, _, restored, ⟨-, rfl⟩, hensure⟩ := h
  -- the update log is not part of the copies
  have hblank : Blank updates ∧ updates.store = store ∧ updates.localDeviceId =
    keys.localDeviceId P := by
    rcases loadPersistedLocalUpdateLog_eq_ok hupdates with ⟨-, rfl⟩ | ⟨entries, -, -, -, rfl⟩
    · exact ⟨blank_fresh keys store, rfl, rfl⟩
    · exact ⟨⟨rfl, rfl, rfl, rfl⟩, rfl, rfl⟩
  obtain ⟨hblank, hstore, hdevice⟩ := hblank
  have hloaded : Blank logs ∨ InLine P logs := by
    rcases loadPersistedLocalDeviceWriterLog_eq_ok hlogs with
      ⟨-, rfl⟩ | ⟨record, sequence, network', hrecord, hn, rfl⟩
    · exact .inl hblank
    · refine .inr (inLine_load hblank ?_ hn)
      rw [hdevice]
      exact hapart record (hstore ▸ hrecord)
  obtain ⟨hid, hdevice', hstate, hlocal, hworks⟩ :=
    restoreRemote_frame (P := P) logs.network boot.remote
  generalize boot.remote.foldl
    (fun network s => network.restorePersistedRemoteIdentityState P s.1 s.2) logs.network = network'
    at hensure hid hdevice' hstate hlocal hworks
  obtain ⟨records, hrecords, hensure⟩ := ensureLocalDeviceAuthority_eq_ok hensure
  rcases hloaded with hb | ⟨st, hst⟩
  · have hb' : Blank (logs.setNetwork network') := by
      refine ⟨?_, hb.records, ?_, hworks.trans hb.works⟩
      · show network'.cached network'.identity = none
        rw [hid, hstate]
        exact hb.state
      · show network'.localDeviceWriterLogs network'.identity = []
        rw [hid, hlocal]
        exact hb.log
    exact inLine_takeOver_of_blank hb' hensure
  · have hst' : Aligned P (logs.setNetwork network') st := by
      refine aligned_of_eq hst hid hdevice' ?_ rfl ?_ fun work hwork => .inl (hworks ▸ hwork)
      · show network'.cached network'.identity = _
        rw [hid, hstate]
        rfl
      · show network'.localDeviceWriterLogs network'.identity = _
        rw [hid, hlocal]
        rfl
    have htake : InLine P (takeOver P boot.authorize (logs.setNetwork network').identity records
        (logs.setNetwork network')).2 :=
      inLine_takeOver hst' (hst'.records ▸ length_authorityRecords_le hrecords)
    rw [hensure] at htake
    exact htake

end Jolt.Publishing.AlignedRuns

import Jolt.Publishing.Outcomes
import Jolt.Network.CacheSteps
import Jolt.Network.HeldLogs

/-! # The local log and the merged state

Between two calls a node whose syncs are all saved keeps three copies in line (`Aligned`): the log
of the local device and the authority chain that publishing goes by are the ones in the cached
state. An entry that is written then continues the cached log of the local device, under a chain
that is at least as long as the cached one, so it is stored and accepted (`publish_eq_ok`), and if
it observes the heads of its path it becomes the only one (`Written.heads_eq`). -/

namespace Jolt.Publishing.Alignment

open Std Lib Checks Sorting Jolt.Core Jolt.Core.Types IdentityAuthority DeviceWriterLog
  Authority.Chain Merge Spec Shape Refine Causality Overwrite Network DeviceWriterCache Node
  CacheSpec CacheSteps HeldLogs Store Writing LocalNode Outcomes List Option

variable {P : Primitives} {identity : IdentityId} {node node' : LocalNode}
  {network network' : NetworkNode} {ambient : Ambient} {outside : Outside}
  {st st' : CachedDeviceWriterState} {records : List DeviceAuthorizationRecord} {logs : Logs}
  {d : String} {x e : DeviceWriterLogEntry} {operation : DeviceWriterOperation}
  {observed : List DeviceWriterLogEntryHash} {createdAt : UInt64}
  {authority authority' : VerifiedIdentityAuthority}

/-! ### Storing for the node's own identity -/

def mergeFor (P : Primitives) (ambient : Ambient) (network : NetworkNode)
    (records : List DeviceAuthorizationRecord) (logs : Logs) :
    Except (Fault NetworkError) CachedDeviceWriterState :=
  mergeVerifiedDeviceWriterState P ambient.iteration network.identity
    (network.cached network.identity) records logs legacyDeviceWriterSyncVersion [] true

theorem storeVerified_local :
    network.storeVerifiedDeviceWriterLogs P ambient network.identity records logs =
      match mergeFor P ambient network records logs with
      | .error error => (.error error, network)
      | .ok merged =>
        if network.localHistoryDiverged P network.identity merged.deviceLogs then
          (.error (NetworkNode.historyDiverged P network.identity),
            network.setBlocked network.identity true)
        else (.ok merged.authoritySequence,
          network.insertState network.identity (stamp merged ambient.now none)) := by
  unfold NetworkNode.storeVerifiedDeviceWriterLogs mergeFor
  rcases mergeVerifiedDeviceWriterState P ambient.iteration network.identity
    (network.cached network.identity) records logs legacyDeviceWriterSyncVersion []
      true with e | merged
  · rfl
  · simp only [if_true]
    rfl

theorem storeVerified_eq_ok {sequence : UInt64}
    (h : network.storeVerifiedDeviceWriterLogs P ambient network.identity records logs =
      (.ok sequence, network')) :
    ∃ merged, mergeFor P ambient network records logs = .ok merged ∧
      network.localHistoryDiverged P network.identity merged.deviceLogs = false ∧
      network' = network.insertState network.identity (stamp merged ambient.now none) := by
  rw [storeVerified_local] at h
  rcases hm : mergeFor P ambient network records logs with e | merged
  · simp [hm] at h
  · simp only [hm] at h
    split_ifs at h with hd
    · simp at h
    · obtain ⟨-, rfl⟩ := Prod.mk.inj h
      exact ⟨merged, rfl, by simpa using hd, rfl⟩

theorem storeVerified_eq_error {error : Fault NetworkError}
    (h : network.storeVerifiedDeviceWriterLogs P ambient network.identity records logs =
      (.error error, network')) :
    network' = network ∨ network' = network.setBlocked network.identity true := by
  rw [storeVerified_local] at h
  rcases hm : mergeFor P ambient network records logs with e | merged
  · simp only [hm] at h
    exact .inl (Prod.mk.inj h).2.symm
  · simp only [hm] at h
    split_ifs at h
    · exact .inr (Prod.mk.inj h).2.symm
    · simp at h

@[simp] theorem cached_insertState (st : CachedDeviceWriterState) :
    (network.insertState identity st).cached identity = some st := by
      simp [NetworkNode.cached, insertState_self]

/-! ### What a cached state says of its logs -/

theorem deviceLog_of_cacheOk (h : CacheOk P identity st) {log : List DeviceWriterLogEntry}
    (hlog : st.deviceLogs[d]? = some log) : DeviceLog P identity d log := by
  obtain ⟨authority, iteration, hverify, -, hmerge⟩ := h.backed
  have hverified := (merge_eq_ok_iff.mp hmerge).1 log (mem_values.mpr ⟨d, hlog⟩)
  obtain ⟨first, hfirst, rfl⟩ := h.wellKeyed d log hlog
  obtain ⟨d', hd'⟩ := verifyDeviceLogShape_iff_exists.mp hverified.1
  rw [(hd'.valid first (mem_of_mem_head? hfirst)).deviceId, ← identity_of_verify hverify]
  exact hd'

theorem deviceLog_held (h : CacheOk P identity st) (d : String) :
    DeviceLog P identity d (held st.deviceLogs d) := by
  by_cases hnil : held st.deviceLogs d = []
  · rw [hnil]
    exact ⟨by simp, by simp, by simp⟩
  · exact deviceLog_of_cacheOk h ((getElem?_eq_some_iff_held h.wellKeyed).mpr ⟨rfl, hnil⟩)

theorem mem_held_of_mem_values (h : CacheOk P identity st) {iteration : Iteration}
    (hx : x ∈ (iteration.values st.deviceLogs).flatten) :
    x ∈ held st.deviceLogs x.body.deviceId := by
  obtain ⟨log, hlog, hmem⟩ := mem_flatten.mp hx
  obtain ⟨d, hd⟩ := mem_values.mp hlog
  have hid := ((deviceLog_of_cacheOk h hd).valid x hmem).deviceId
  rw [hid, ((getElem?_eq_some_iff_held h.wellKeyed).mp hd).1]
  exact hmem

/-! ### The invariant -/

/-- **The copies agree**: the cached state is backed by the chain that publishing goes by, and holds
the local log. Nothing is verified in the background for the node's own identity. -/
structure Aligned (P : Primitives) (node : LocalNode) (st : CachedDeviceWriterState) : Prop where
  state : node.state = some st
  ok : CacheOk P node.identity st
  records : st.authorityRecords = node.localDeviceAuthorityRecords
  log : held st.deviceLogs node.localDeviceId = node.localLog
  works : ∀ work ∈ works node.network, work.identity ≠ node.identity

theorem Aligned.deviceLog (h : Aligned P node st) :
    DeviceLog P node.identity node.localDeviceId node.localLog :=
  h.log ▸ deviceLog_held h.ok node.localDeviceId

theorem Aligned.merge (ha : Aligned P node st) {ambient : Ambient}
    {merged : CachedDeviceWriterState}
    (h : mergeFor P ambient node.network records logs = .ok merged) :
    mergeVerifiedDeviceWriterState P ambient.iteration node.identity (some st) records logs
      legacyDeviceWriterSyncVersion [] true = .ok merged ∧ CacheOk P node.identity merged := by
  have hcached : node.network.cached node.network.identity = some st := ha.state
  rw [mergeFor, hcached] at h
  refine ⟨h, cacheOk_of_mergeVerified ?_ h⟩
  rintro s ⟨⟩
  exact ha.ok

/-! ### The next entry -/

structure NextEntry (P : Primitives) (node : LocalNode) (operation : DeviceWriterOperation)
    (observed : List DeviceWriterLogEntryHash) (e : DeviceWriterLogEntry) : Prop where
  body : DeviceWriterLog.validateBody e.body = .ok ()
  identity : e.body.identity = node.identity
  deviceId : e.body.deviceId = node.localDeviceId
  operation : e.body.operation = operation
  observed : ∀ h, h ∈ e.body.observedHeads ↔ h ∈ observed
  signature : e.signature = P.sign node.deviceKey (e.body.canonicalBytes P)
  sequence : e.body.deviceSequence = node.localLog.getLast?.elim 0 (·.body.deviceSequence + 1)
  previous : e.body.previousEntryHash = node.localLog.getLast?.map (·.entryHash P)

theorem mem_canonicalHeads {heads : List DeviceWriterLogEntryHash} {h : DeviceWriterLogEntryHash} :
    h ∈ canonicalHeads heads ↔ h ∈ heads := by rw [canonicalHeads, mem_destutter_ne, mem_sortBy]

theorem signBody_eq_ok {body : DeviceWriterLogEntryBody} {signer : Bytes → Bytes}
    (h : DeviceWriterLogEntry.signBody P body signer = .ok e) :
    DeviceWriterLog.validateBody body = .ok () ∧ e = ⟨body, signer (body.canonicalBytes P)⟩ := by
  simp only [DeviceWriterLogEntry.signBody, bind_eq_ok, pure_eq_ok] at h
  obtain ⟨_, hbody, _, -, rfl⟩ := h
  exact ⟨hbody, rfl⟩

theorem nextEntry_of_eq_ok (hlog : DeviceLog P node.identity node.localDeviceId node.localLog)
    (h : node.nextDeviceWriterEntry P operation observed createdAt = .ok e) :
    NextEntry P node operation observed e := by
  unfold nextDeviceWriterEntry at h
  cases hlast : node.localLog.getLast? with
  | none =>
    simp only [hlast] at h
    obtain ⟨hbody, rfl⟩ := signBody_eq_ok h
    exact ⟨hbody, rfl, rfl, rfl, fun _ => mem_canonicalHeads, rfl, by simp [hlast], by simp [hlast]⟩
  | some previous =>
    simp only [hlast] at h
    obtain ⟨hbody, rfl⟩ := signBody_eq_ok h
    have hvalid := hlog.valid previous (mem_of_getLast? hlast)
    exact ⟨hbody, hvalid.identity, hvalid.deviceId, rfl, fun _ => mem_canonicalHeads, rfl,
      by simp [hlast], by simp [hlast]⟩

theorem NextEntry.exists_extends (ha : Aligned P node st)
    (he : NextEntry P node operation observed e) :
    ∃ accumulated, [node.localLog ++ [e]].foldlM (accumulateLog P) st.deviceLogs = .ok accumulated ∧
      Extends st.deviceLogs accumulated node.localDeviceId e := by
  have hk := ha.ok.wellKeyed
  have hfirst : ∃ first rest, node.localLog ++ [e] = first :: rest ∧
      first.body.deviceSequence = 0 ∧ first.body.deviceId = node.localDeviceId := by
    cases hl : node.localLog with
    | nil => exact ⟨e, [], rfl, by simp [he.sequence, hl], he.deviceId⟩
    | cons first rest =>
      have hlog := ha.deviceLog
      rw [hl] at hlog
      exact ⟨first, rest ++ [e], rfl, (hlog.genesis first rfl).1,
        (hlog.valid first mem_cons_self).deviceId⟩
  obtain ⟨first, rest, heq, hzero, hid⟩ := hfirst
  have hpre : held st.deviceLogs first.body.deviceId <+: first :: rest := by
    rw [hid, ha.log, ← heq]
    exact prefix_append _ _
  obtain ⟨acc, hacc, hheld⟩ := accumulateLog_genesis (P := P) hk hzero hpre
  refine ⟨acc, ?_, hk, hk.accumulateLog hacc, ?_⟩
  · rw [heq, foldlM_cons, hacc]
    rfl
  · intro d
    rw [hheld d, hid, ← heq, ha.log]

/-! ### The chain an entry is written under -/

/-- The second authority knows what the first knows, and besides at most the device `d`. -/
def Widens (authority authority' : VerifiedIdentityAuthority) (d : String) : Prop :=
  ∀ d', authority'.devices[d']? = authority.devices[d']? ∨ d' = d ∧ authority.devices[d']? = none

theorem Widens.accepted (h : Widens authority authority' d) (hx : Accepted authority x) :
    Accepted authority' x := by
  obtain ⟨device, hdevice, hstatus⟩ := hx
  rcases h x.body.deviceId with heq | ⟨-, hnone⟩
  · exact ⟨device, heq.trans hdevice, hstatus⟩
  · rw [hnone] at hdevice
    cases hdevice

theorem Widens.accepted_or (h : Widens authority authority' d) (hx : Accepted authority' x) :
    Accepted authority x ∨ x.body.deviceId = d := by
  obtain ⟨device, hdevice, hstatus⟩ := hx
  rcases h x.body.deviceId with heq | ⟨hid, -⟩
  · exact .inl ⟨device, heq.symm.trans hdevice, hstatus⟩
  · exact .inr hid

def authorizeLocal (P : Primitives) (node : LocalNode) (createdAt : UInt64) :
    DeviceAuthorizationOperation :=
  .authorizeDevice node.localDeviceId (P.verifyingKey node.deviceKey).bytes [] ["identity:write"]
    (some "Local device") createdAt

theorem authorizeLocalDevice_eq_ok (h : node.authorizeLocalDevice P createdAt = .ok records) :
    ∃ record, records = node.localDeviceAuthorityRecords ++ [record] ∧
      record.body.operation = authorizeLocal P node createdAt := by
  simp only [authorizeLocalDevice, bind_eq_ok, asProtocol_eq_ok, pure_eq_ok] at h
  obtain ⟨record, hrecord, rfl⟩ := h
  refine ⟨record, rfl, ?_⟩
  cases hlast : node.localDeviceAuthorityRecords.getLast? with
  | none =>
    simp only [hlast, DeviceAuthorizationRecord.genesis, DeviceAuthorizationRecord.signBody,
      bind_eq_ok, pure_eq_ok] at hrecord
    obtain ⟨_, -, _, -, rfl⟩ := hrecord
    rfl
  | some previous =>
    simp only [hlast, DeviceAuthorizationRecord.append, DeviceAuthorizationRecord.signBody,
      bind_eq_ok, pure_eq_ok] at hrecord
    obtain ⟨_, -, _, -, rfl⟩ := hrecord
    rfl

section

variable {requireActive : Bool}
  (h : node.authorityRecordsForLocalDevice P createdAt requireActive = .ok records)
include h

/-- **The chain to write under**: the local one if it knows the local device, else with a record
that authorizes it. -/
theorem authorityRecords_cases : (∃ authority device,
      verifyIdentityAuthorityChain P node.identity node.localDeviceAuthorityRecords =
        .ok authority ∧
      authority.devices[node.localDeviceId]? = some device ∧
      (requireActive = true → device.status = .active) ∧
      device.signingPublicKey = (P.verifyingKey node.deviceKey).bytes ∧
      records = node.localDeviceAuthorityRecords) ∨
    ((∀ authority, verifyIdentityAuthorityChain P node.identity node.localDeviceAuthorityRecords =
        .ok authority → authority.devices[node.localDeviceId]? = none) ∧
      ∃ record, records = node.localDeviceAuthorityRecords ++ [record] ∧
        record.body.operation = authorizeLocal P node createdAt) := by
  unfold authorityRecordsForLocalDevice at h
  split_ifs at h with hnil
  · refine .inr ⟨fun authority hv => absurd hnil (ne_nil_of_verify hv), ?_⟩
    exact authorizeLocalDevice_eq_ok h
  · simp only [bind_eq_ok, asProtocol_eq_ok] at h
    obtain ⟨authority, hverify, h⟩ := h
    cases hdevice : authority.devices[node.localDeviceId]? with
    | none =>
      simp only [hdevice] at h
      refine .inr ⟨fun authority' hv => ?_, authorizeLocalDevice_eq_ok h⟩
      rw [hverify] at hv
      cases hv
      exact hdevice
    | some device =>
      simp only [hdevice, bind_eq_ok, ensure_eq_ok, pure_eq_ok] at h
      obtain ⟨_, hactive, _, hkey, rfl⟩ := h
      exact .inl ⟨authority, device, hverify, hdevice, hactive, hkey, rfl⟩

theorem length_authorityRecords_le : node.localDeviceAuthorityRecords.length ≤ records.length := by
  rcases authorityRecords_cases h with ⟨_, _, -, -, -, -, rfl⟩ | ⟨-, record, rfl, -⟩
  · exact Nat.le_refl _
  · rw [length_append]
    exact Nat.le_add_right _ _

end

/-- Under the chain to write under, the local device may write, and no other device changes. -/
theorem authorityRecords_widens
    (h : node.authorityRecordsForLocalDevice P createdAt true = .ok records)
    (hverify : verifyIdentityAuthorityChain P node.identity node.localDeviceAuthorityRecords =
      .ok authority) (hverify' : verifyIdentityAuthorityChain P node.identity records =
        .ok authority') :
    Widens authority authority' node.localDeviceId ∧
      ∃ device, authority'.devices[node.localDeviceId]? = some device ∧ device.status = .active ∧
        device.signingPublicKey = (P.verifyingKey node.deviceKey).bytes := by
  rcases authorityRecords_cases h with ⟨auth, device, hauth, hdevice, hactive, hkey, rfl⟩ |
    ⟨hunknown, record, rfl, hoperation⟩
  · rw [hverify] at hauth hverify'
    cases hauth
    cases hverify'
    exact ⟨fun _ => .inl rfl, device, hdevice, hactive rfl, hkey⟩
  · have hnone := hunknown authority hverify
    have hlook : ∀ d : String, authority'.devices[d]? =
        deviceStep d authority.devices[d]? (authorizeLocal P node createdAt) := by
      intro d
      rw [getElem?_devices_of_verify hverify' d, getElem?_devices_of_verify hverify d, deviceOf,
        foldl_append, foldl_cons, foldl_nil, hoperation]
      rfl
    refine ⟨fun d => ?_, ?_⟩
    · by_cases hd : node.localDeviceId = d
      · exact .inr ⟨hd.symm, hd ▸ hnone⟩
      · refine .inl ?_
        rw [hlook d, authorizeLocal, deviceStep, if_neg hd]
    · rw [hlook node.localDeviceId, authorizeLocal, deviceStep, if_pos rfl]
      exact ⟨_, rfl, rfl, rfl⟩

theorem chooseRecords_of_length_le (h : CacheOk P identity st)
    {candidate : VerifiedIdentityAuthority}
    (hverify : verifyIdentityAuthorityChain P identity records = .ok candidate)
    (hlen : st.authorityRecords.length ≤ records.length) :
    chooseRecords (some st) candidate records = records := by
  obtain ⟨authority, _, hheld, hseq, -⟩ := h.backed
  have hlen' := latestSequence_of_verify hverify
  have hlen'' := latestSequence_of_verify hheld
  have hle : st.authoritySequence ≤ candidate.latestSequence := by
    rw [hseq, UInt64.le_iff_toNat_le]
    omega
  simp only [chooseRecords, if_pos hle]

/-! ### Writing an entry -/

section

variable (id : IdentityId) (log : List DeviceWriterLogEntry) (b : Bool)

@[simp] theorem localLogs_insertLocalLog :
    (network.insertLocalLog id log).localDeviceWriterLogs id = log := by
  simp [NetworkNode.insertLocalLog]

end

variable {path : String} {operation : DeviceWriterOperation}
  {observed : List DeviceWriterLogEntryHash} {e : DeviceWriterLogEntry}

theorem localLog_published (record : PersistedDeviceWriterLog) :
    (published node record network).localLog = record.deviceLog :=
  localLogs_insertLocalLog _ _

/-- **What an entry of the local device changes**: the cached log of the device is continued by the
entry, under a chain that lets the device write. -/
structure Written (P : Primitives) (node node' : LocalNode) (st st' : CachedDeviceWriterState)
    (operation : DeviceWriterOperation) (observed : List DeviceWriterLogEntryHash)
    (e : DeviceWriterLogEntry) : Prop where
  next : NextEntry P node operation observed e
  aligned : Aligned P node' st'
  log : node'.localLog = node.localLog ++ [e]
  table : Extends st.deviceLogs st'.deviceLogs node.localDeviceId e
  authority : ∃ authority authority',
    verifyIdentityAuthorityChain P node.identity st.authorityRecords = .ok authority ∧
    verifyIdentityAuthorityChain P node.identity st'.authorityRecords = .ok authority' ∧
    Widens authority authority' node.localDeviceId ∧ Accepted authority' e

/-- **A write that returns** has stored its entry. -/
theorem publish_eq_ok (ha : Aligned P node st) {mutation : Option RecordMutationIntent}
    {sequence : UInt64} {revision : String}
    (h : publishLocalDeviceWriterOperation P outside path operation mutation node =
      (.ok (sequence, revision), node')) : ∃ e observed record network' st',
      node.prepareDeviceWriterOperation P outside path operation mutation = .ok (e, record) ∧
      node.observedHeadsOf P outside.network.iteration operation mutation = .ok observed ∧
      node' = published node record network' ∧ network'.identity = node.identity ∧
      network'.localDeviceId = node.localDeviceId ∧
      sequence = e.body.deviceSequence ∧ revision = (e.entryHash P).toHex ∧
      Written P node node' st st' operation observed e := by
  obtain ⟨e, record, stored, network', hp, hn, rfl, rfl, rfl⟩ :=
    publishLocalDeviceWriterOperation_eq_ok h
  obtain ⟨-, observed, hobserved, hentry, hrecords, -, hlog, -⟩ :=
    prepareDeviceWriterOperation_eq_ok.mp hp
  obtain ⟨merged, hmerge, -, rfl⟩ := storeVerified_eq_ok hn
  have hnext := nextEntry_of_eq_ok ha.deviceLog hentry
  obtain ⟨accumulated, hfold, hext⟩ := hnext.exists_extends ha
  obtain ⟨hmerge, hok⟩ := ha.merge hmerge
  obtain ⟨candidate, authority', hcandidate, hchosen, hverify', -, hlogs, -, -, -, -⟩ :=
    mergeVerified_eq_ok_iff.mp hmerge
  rw [map_some, getD_some, hlog, hfold] at hlogs
  cases hlogs
  -- the chain to write under is at least as long as the cached one
  have hlen : st.authorityRecords.length ≤ record.authorityRecords.length :=
    ha.records ▸ length_authorityRecords_le hrecords
  rw [chooseRecords_of_length_le ha.ok hcandidate hlen] at hchosen
  obtain ⟨authority, _, hverify, -, -⟩ := ha.ok.backed
  have hverified := hverify'
  rw [hchosen] at hverified
  have hverifyLocal := hverify
  rw [ha.records] at hverifyLocal
  obtain ⟨hwidens, device, hdevice, hactive, -⟩ :=
    authorityRecords_widens hrecords hverifyLocal hverified
  have haccepted : Accepted authority' e := ⟨device, hnext.deviceId ▸ hdevice, .inl hactive⟩
  refine ⟨e, observed, record, _, stamp merged outside.network.now none, hp, hobserved, rfl, rfl,
    rfl, rfl, rfl, hnext, ?_, ?_, hext, authority, authority', hverify, hverify', hwidens,
    haccepted⟩
  · refine ⟨?_, cacheOk_stamp hok _ _, hchosen, ?_, ha.works⟩
    · exact cached_insertState _
    · show held merged.deviceLogs node.localDeviceId = _
      rw [hext.held, if_pos rfl, ha.log, ← hlog]
      exact (localLogs_insertLocalLog _ _).symm
  · rw [← hlog]
    exact localLog_published record

/-! ### What an entry does to its path -/

theorem Written.heads_eq (ha : Aligned P node st)
    (hw : Written P node node' st st' operation observed e) {state : DeviceWriterPathState}
    (hop : singletonAt path operation = some state)
    (hobserved : ∀ c, Reported st.merged path c → c.entryHash ∈ observed)
    (hid : node'.identity = node.identity) :
    st'.merged.singletonPaths[path]? = some (mergedEntry P e state) ∧
      st'.merged.singletonConflicts[path]? = none := by
  obtain ⟨authority, authority', hverify, hverify', hwidens, haccepted⟩ := hw.authority
  obtain ⟨auth, iteration, hauth, -, hmerge⟩ := ha.ok.backed
  rw [hverify] at hauth
  cases hauth
  obtain ⟨auth', iteration', hauth', -, hmerge'⟩ := hw.aligned.ok.backed
  rw [hid, hverify'] at hauth'
  cases hauth'
  obtain ⟨-, hheads, hst⟩ := merge_eq_ok_iff.mp hmerge'
  have hcand : asCandidate P authority' path e = some (mergedEntry P e state) :=
    asCandidate_eq_some.mpr ⟨haccepted, state, hw.next.operation ▸ hop, rfl⟩
  have hflat : (iteration'.values st'.deviceLogs).flatten.Perm
      ((iteration.values st.deviceLogs).flatten ++ [e]) := hw.table.flatten_perm
  have hne : heads P authority' (iteration'.values st'.deviceLogs) path ≠ [] := by
    obtain ⟨log, hlog, hin⟩ := mem_flatten.mp (hflat.mem_iff.mpr (by simp : e ∈ _ ++ [e]))
    exact hheads path (ne_nil_of_mem (mem_candidatesAt.mpr ⟨log, hlog, e, hin, hcand⟩))
  have hsingle : heads P authority' (iteration'.values st'.deviceLogs) path =
    [mergedEntry P e state] := by
    have hstay : ∀ x ∈ (iteration.values st.deviceLogs).flatten, Candidate authority path x →
        Candidate authority' path x := fun x _ hx => ⟨hwidens.accepted hx.1, hx.2⟩
    refine heads_eq_singleton hflat hw.table.continued hstay ?_ hcand ?_ hne
    · intro x hx hcx
      rcases hwidens.accepted_or hcx.1 with haccept | hlocal
      · exact .inl ⟨haccept, hcx.2⟩
      · -- the entries of the local device come before the new one in its log
        refine .inr ⟨_, mem_values.mpr ⟨_, hw.table.getElem?_self⟩, ?_⟩
        have hin := mem_held_of_mem_values ha.ok hx
        rw [hlocal] at hin
        exact (singleton_sublist.mpr hin).append (List.Sublist.refl [e])
    · intro head hhead
      exact (hw.next.observed _).mpr (hobserved head ((reported_iff_mem_heads hmerge).mpr hhead))
  rw [hst.winner, hst.conflicts, hsingle]
  exact ⟨rfl, rfl⟩

theorem Written.mem_appendRecords (hw : Written P node node' st st' operation observed e)
    {contentId : ContentId} (hop : appendAt path operation = some contentId)
    (hid : node'.identity = node.identity) :
    ∃ rows, st'.merged.appendRecords[path]? = some rows ∧
      mergedAppendRecord P e contentId ∈ rows := by
  obtain ⟨authority, authority', -, hverify', -, haccepted⟩ := hw.authority
  obtain ⟨auth', iteration', hauth', -, hmerge'⟩ := hw.aligned.ok.backed
  rw [hid, hverify'] at hauth'
  cases hauth'
  obtain ⟨-, -, hst⟩ := merge_eq_ok_iff.mp hmerge'
  have hmem : mergedAppendRecord P e contentId ∈
      appendRecordsAt P authority' (iteration'.values st'.deviceLogs) path := by
    rw [appendRecordsAt, mem_sortBy, mem_filterMap]
    refine ⟨e, ?_, ?_⟩
    · exact hw.table.flatten_perm.mem_iff.mpr
        (mem_append_right (iteration'.values st.deviceLogs).flatten (mem_singleton.mpr rfl))
    · rw [asAppendRecord, if_pos haccepted, hw.next.operation, hop]
      rfl
  exact ⟨_, (hst.append path).trans (Families.row_eq_some.mpr ⟨rfl, ne_nil_of_mem hmem⟩), hmem⟩

/-! ### Syncs -/

theorem deviceLogIsPrefix_iff {a b : List DeviceWriterLogEntry} :
    deviceLogIsPrefix P a b = true ↔ a.map (·.entryHash P) <+: b.map (·.entryHash P) := by
  induction a generalizing b with
  | nil => simp [deviceLogIsPrefix]
  | cons x a ih =>
    cases b with
    | nil => simp [deviceLogIsPrefix]
    | cons y b =>
      rw [deviceLogIsPrefix, Bool.and_eq_true, decide_eq_true_eq, ih, map_cons, map_cons,
        cons_prefix_cons]

theorem deviceLogIsPrefix_refl (log : List DeviceWriterLogEntry) :
    deviceLogIsPrefix P log log = true :=
  deviceLogIsPrefix_iff.mpr prefix_rfl

theorem adoptSynced_cases (node : LocalNode) (state : CachedDeviceWriterState) :
    ∃ network', (adoptSyncedLocalLog P state node).2 = node.setNetwork network' ∧
      network'.identity = node.identity ∧ network'.localDeviceId = node.localDeviceId ∧
      deviceLogIsPrefix P node.localLog (network'.localDeviceWriterLogs node.identity) = true := by
  rw [adoptSyncedLocalLog_apply]
  cases state.deviceLogs[node.localDeviceId]? with
  | none => exact ⟨node.network, rfl, rfl, rfl, deviceLogIsPrefix_refl _⟩
  | some synced =>
    dsimp only
    split_ifs with hpre
    · refine ⟨_, rfl, rfl, rfl, ?_⟩
      show deviceLogIsPrefix P node.localLog
        ((node.network.insertLocalLog node.identity synced).localDeviceWriterLogs node.identity) =
          true
      rwa [localLogs_insertLocalLog]
    · exact ⟨_, rfl, rfl, rfl, deviceLogIsPrefix_refl _⟩
    · exact ⟨node.network, rfl, rfl, rfl, deviceLogIsPrefix_refl _⟩

/-- **What a sync of the node's own identity leaves behind**: the network part, and if it is saved
the record on disk and the chain to publish by. The local log is continued, if at all. -/
theorem storeAndPersist_cases (node : LocalNode) (ambient : Ambient)
    (records : List DeviceAuthorizationRecord) (logs : Logs) :
    ∃ network', network'.identity = node.identity ∧ network'.localDeviceId = node.localDeviceId ∧
      deviceLogIsPrefix P node.localLog (network'.localDeviceWriterLogs node.identity) = true ∧
      ((storeAndPersist P ambient node.identity records logs node).2 = node.setNetwork network' ∨
        ∃ merged, mergeFor P ambient node.network records logs = .ok merged ∧
          (storeAndPersist P ambient node.identity records logs node).2 =
            ((node.setNetwork network').setStore (node.store.saveDeviceWriterLog
              (recordOf (node.setNetwork network') ambient.iteration
                merged.authorityRecords))).setAuthorityRecords merged.authorityRecords) := by
  rw [storeAndPersist_apply]
  rcases hn : node.network.storeVerifiedDeviceWriterLogs P ambient node.identity records logs with
    ⟨error | sequence, network'⟩
  · refine ⟨network', ?_, ?_, ?_, .inl rfl⟩
    · rcases storeVerified_eq_error hn with rfl | rfl <;> rfl
    · rcases storeVerified_eq_error hn with rfl | rfl <;> rfl
    · rcases storeVerified_eq_error hn with rfl | rfl <;> exact deviceLogIsPrefix_refl _
  obtain ⟨merged, hmerge, -, rfl⟩ := storeVerified_eq_ok hn
  have hstate : (node.setNetwork (node.network.insertState node.network.identity
      (stamp merged ambient.now none))).state = some (stamp merged ambient.now none) :=
    cached_insertState _
  have hpersist := persistSynced_apply (P := P) ambient hstate
  obtain ⟨network', hadopted, hid, hdevice, hpre⟩ := adoptSynced_cases (P := P)
    (node.setNetwork (node.network.insertState node.network.identity
      (stamp merged ambient.now none))) (stamp merged ambient.now none)
  refine ⟨network', hid, hdevice, hpre, ?_⟩
  dsimp only
  rw [show node.identity = (node.setNetwork (node.network.insertState node.network.identity
    (stamp merged ambient.now none))).identity from rfl, hpersist]
  rcases hadopt : adoptSyncedLocalLog P (stamp merged ambient.now none)
    (node.setNetwork (node.network.insertState node.network.identity
      (stamp merged ambient.now none))) with ⟨error | u, adopted⟩
  · rw [hadopt] at hadopted
    exact .inl hadopted
  · rw [hadopt] at hadopted
    obtain rfl : adopted = node.setNetwork network' := hadopted
    dsimp only
    cases ambient.saved with
    | error error => exact .inl rfl
    | ok v => exact .inr ⟨merged, hmerge, rfl⟩

/-- **A stored sync is adopted**: the log that is then cached for the local device continues the
local log, which it replaces. -/
theorem adoptSynced_eq_ok (st' : CachedDeviceWriterState) (node' : LocalNode)
    (ha : Aligned P node st)
    (hlength : (held st.deviceLogs node.localDeviceId).length ≤
      (held st'.deviceLogs node.localDeviceId).length)
    (hagree : node.network.localHistoryDiverged P node.identity st'.deviceLogs = false)
    (hsame : node'.localLog = node.localLog ∧ node'.identity = node.identity ∧
      node'.localDeviceId = node.localDeviceId) :
    ∃ network', adoptSyncedLocalLog P st' node' = (.ok (), node'.setNetwork network') ∧
      network'.cached = node'.network.cached ∧ network'.identity = node'.identity ∧
      network'.localDeviceId = node'.localDeviceId ∧ works network' = works node'.network ∧
      network'.localDeviceWriterLogs node'.identity = held st'.deviceLogs node.localDeviceId := by
  obtain ⟨hlog, hid, hdevice⟩ := hsame
  rw [ha.log] at hlength
  rw [adoptSyncedLocalLog_apply, hdevice]
  unfold held at hlength ⊢
  cases hsynced : st'.deviceLogs[node.localDeviceId]? with
  | none =>
    rw [hsynced, getD_none, length_nil] at hlength
    refine ⟨node'.network, rfl, rfl, rfl, hdevice ▸ rfl, rfl, ?_⟩
    exact hlog.trans (length_eq_zero_iff.mp (Nat.le_zero.mp hlength))
  | some synced =>
    rw [hsynced, getD_some] at hlength
    by_cases hp : deviceLogIsPrefix P node'.localLog synced
    · refine ⟨(node'.network.insertLocalLog node'.identity synced).setBlocked node'.identity false,
        by simp only [hp, if_true], rfl, rfl, hdevice ▸ rfl, rfl, ?_⟩
      exact localLogs_insertLocalLog _ _
    · -- the shorter of two logs cannot be the synced one
      rw [hlog] at hp
      have hback : deviceLogIsPrefix P synced node.localLog = true := by
        have hagree' : (!deviceLogIsPrefix P node.localLog synced &&
            !deviceLogIsPrefix P synced node.localLog) = false := by
          unfold NetworkNode.localHistoryDiverged at hagree
          rw [show st'.deviceLogs[node.network.localDeviceId]? = some synced from hsynced] at hagree
          exact hagree
        simpa [hp] using hagree'
      have hpre := deviceLogIsPrefix_iff.mp hback
      have hlen : (synced.map (·.entryHash P)).length =
        (node.localLog.map (·.entryHash P)).length := by
        have hle := hpre.length_le
        rw [length_map, length_map] at hle ⊢
        omega
      exact absurd (deviceLogIsPrefix_iff.mpr (hpre.eq_of_length hlen ▸ prefix_rfl)) hp

/-- **A sync that is saved keeps the copies in line.** -/
theorem aligned_storeAndPersist (ha : Aligned P node st) (hsaved : ambient.saved = .ok ())
    (records : List DeviceAuthorizationRecord) (logs : Logs) :
    ∃ st', Aligned P (storeAndPersist P ambient node.identity records logs node).2 st' := by
  rw [storeAndPersist_apply]
  rcases hn : node.network.storeVerifiedDeviceWriterLogs P ambient node.identity records logs with
    ⟨error | sequence, network'⟩
  · rcases storeVerified_eq_error hn with rfl | rfl
    · exact ⟨st, ha.state, ha.ok, ha.records, ha.log, ha.works⟩
    · exact ⟨st, ha.state, ha.ok, ha.records, ha.log, ha.works⟩
  obtain ⟨merged, hmerge, hagree, rfl⟩ := storeVerified_eq_ok hn
  obtain ⟨hmerge, hok⟩ := ha.merge hmerge
  obtain ⟨-, -, -, -, -, -, hfold, -, -, -, -⟩ := mergeVerified_eq_ok_iff.mp hmerge
  have hlength := length_held_le_of_foldlM ha.ok.wellKeyed hfold node.localDeviceId
  have hstate : (node.setNetwork (node.network.insertState node.network.identity
      (stamp merged ambient.now none))).state = some (stamp merged ambient.now none) :=
    cached_insertState _
  obtain ⟨network', hadopt, hcache, hid, hdevice, hworks, hlog⟩ := adoptSynced_eq_ok
    (stamp merged ambient.now none) (node.setNetwork (node.network.insertState
      node.network.identity (stamp merged ambient.now none))) ha hlength hagree ⟨rfl, rfl, rfl⟩
  have hpersist := persistSynced_apply (P := P) ambient hstate
  simp only [hadopt, hsaved] at hpersist
  refine ⟨stamp merged ambient.now none, ?_⟩
  show Aligned P (persistSyncedLocalDeviceWriterState P ambient node.identity
    (node.setNetwork (node.network.insertState node.network.identity
      (stamp merged ambient.now none)))).2 _
  rw [show node.identity = (node.setNetwork (node.network.insertState node.network.identity
    (stamp merged ambient.now none))).identity from rfl, hpersist]
  refine ⟨?_, ?_, rfl, ?_, ?_⟩
  · show network'.cached network'.identity = _
    rw [hcache, hid]
    exact cached_insertState _
  · show CacheOk P network'.identity _
    rw [hid]
    exact cacheOk_stamp hok _ _
  · show held merged.deviceLogs network'.localDeviceId = network'.localDeviceWriterLogs
      network'.identity
    rw [hdevice, hid]
    exact hlog.symm
  · show ∀ work ∈ works network', work.identity ≠ network'.identity
    rw [hworks, hid]
    exact ha.works

end Jolt.Publishing.Alignment

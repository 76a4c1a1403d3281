import Jolt.Publishing.Writing
import Jolt.Network.CacheSpec

/-! # How the publishing calls end

One equation for each call of `Writing`: what it returns and what it leaves behind, for every
outcome of its checks and of its writes to disk. The later modules reason from these equations. -/

namespace Jolt.Publishing.Outcomes

open Std Lib.Checks Lib.Calls.Call Jolt.Core Jolt.Core.Types IdentityAuthority DeviceWriterLog
  UpdateLog Network DeviceWriterCache Node CacheSpec Store Writing LocalNode

variable {P : Primitives} {node : LocalNode} {outside : Outside}

@[simp] theorem asInvalidInput_eq_ok {ε α : Type} {text : ε → String} {x : Except ε α} {a : α} :
    asInvalidInput text x = .ok a ↔ x = .ok a := by
  cases x <;> simp [asInvalidInput]

/-! ### What an update leaves alone -/

section

variable (network : NetworkNode) (store : ContentStore) (id : IdentityId)
  (entries : List UpdateLogEntry) (records : List DeviceAuthorizationRecord)

@[simp] theorem network_setNetwork : (node.setNetwork network).network = network := rfl
@[simp] theorem network_setStore : (node.setStore store).network = node.network := rfl
end

variable {identity : IdentityId} {operation : DeviceWriterOperation}
  {mutation : Option RecordMutationIntent} {node' : LocalNode} {ambient : Ambient}

theorem onNetwork_bind {α β : Type}
    (f : NetworkNode → Except (Fault NetworkError) α × NetworkNode) (k : α → NodeCall β) :
    (onNetwork f >>= k) node =
      match f node.network with
      | (.error error, network) => (.error error, node.setNetwork network)
      | (.ok a, network) => k a (node.setNetwork network) := by
  rw [run_bind, onNetwork]
  rcases f node.network with ⟨error | a, network⟩ <;> rfl

/-! ### Content and the update log -/

def manifestOf (P : Primitives) (node : LocalNode) (data : Bytes) : ContentManifest where
  contentId := ContentId.fromBytes P data
  size := data.length
  contentType := "application/octet-stream"
  publisherKey := (P.verifyingKey node.identityKey).bytes
  signature := P.sign node.identityKey data

def withContent (P : Primitives) (node : LocalNode) (data : Bytes) : LocalNode :=
  node.setStore (node.store.publish P data (manifestOf P node data))

/-- The node once the write of content has failed. -/
def withCut (P : Primitives) (outside : Outside) (node : LocalNode) (data : Bytes) : LocalNode :=
  node.setStore (node.store.cutOff (P.contentIdToString (.fromBytes P data))
    (outside.contentCut.map data.take))

theorem withCut_eq (P : Primitives) (outside : Outside) (node : LocalNode) (data : Bytes) :
    ∃ publishedContent tornContent,
    withCut P outside node data =
      node.setStore { node.store with publishedContent, tornContent } := by
  unfold withCut Store.ContentStore.cutOff
  split
  · exact ⟨_, _, rfl⟩
  · exact ⟨_, _, rfl⟩

theorem publishBytes_apply (data : Bytes) : publishBytes P outside data node =
      match outside.contentSaved with
      | .error error => (.error (.err (.protocol error)), withCut P outside node data)
      | .ok () => (.ok (ContentId.fromBytes P data), withContent P node data) := by
  unfold publishBytes
  cases h : outside.contentSaved <;> rfl

def extendedLog (node : LocalNode) (entry : UpdateLogEntry) : List UpdateLogEntry :=
  node.updateLog.getD [] ++ [entry]

/-- The node once the entry is in its update log, in memory. -/
def withEntry (node : LocalNode) (entry : UpdateLogEntry) : LocalNode :=
  node.insertUpdateLog node.identity (extendedLog node entry)

theorem updateLog_withEntry (node : LocalNode) (entry : UpdateLogEntry) :
    (withEntry node entry).updateLog = some (extendedLog node entry) :=
  Function.update_self _ _ _

theorem publishLocalUpdateLogAction_apply (action : UpdateAction) :
    publishLocalUpdateLogAction P outside action node =
      match node.nextUpdateLogEntry P action with
      | .error error => (.error (.err (.protocol error.toString)), node)
      | .ok entry =>
        match outside.updateLogSaved with
        | .error error => (.error (.err (.protocol error)), withEntry node entry)
        | .ok () => (.ok entry.body.sequence, (withEntry node entry).setStore
            (node.store.saveUpdateLog (extendedLog node entry))) := by
  unfold publishLocalUpdateLogAction
  simp only [read_bind, id_eq]
  cases h : node.nextUpdateLogEntry P action with
  | error error => rfl
  | ok entry => cases h' : outside.updateLogSaved <;> rfl

/-- The sequence of the log that is held, if it verifies. -/
def heldSequence (P : Primitives) (node : LocalNode) (identity : IdentityId) :
    Except (Fault NetworkError) (Option UInt64) :=
  match node.updateLogs identity with
  | none => .ok none
  | some current => dropError (verifyUpdateLogForIdentity P identity current)

/-- A log that is received is taken if it verifies and its sequence is greater. -/
theorem storeVerifiedUpdateLog_cases (node : LocalNode) (identity : IdentityId)
    (entries : List UpdateLogEntry) :
    (storeVerifiedUpdateLog P identity entries node).2 = node ∨
      (storeVerifiedUpdateLog P identity entries node).2 = node.insertUpdateLog identity entries ∧
      ∃ candidate, verifyUpdateLogForIdentity P identity entries = .ok candidate ∧
        ∀ current sequence, node.updateLogs identity = some current →
          verifyUpdateLogForIdentity P identity current = .ok sequence → sequence < candidate := by
  unfold storeVerifiedUpdateLog
  simp only [read_bind, id_eq]
  rcases hcandidate : asProtocolFault UpdateLogError.toString
    (verifyUpdateLogForIdentity P identity entries) with error | candidate
  · exact .inl rfl
  rw [check_ok_bind]
  rcases hlog : node.updateLogs identity with _ | current
  · exact .inr ⟨rfl, candidate, asProtocolFault_eq_ok.mp hcandidate, fun _ _ hc => nomatch hc⟩
  dsimp only
  rcases hheld : dropError (verifyUpdateLogForIdentity P identity current) with error | held
  · exact .inl rfl
  rw [check_ok_bind]
  split_ifs with hgreater
  · refine .inr ⟨rfl, candidate, asProtocolFault_eq_ok.mp hcandidate, fun log sequence hc hs => ?_⟩
    cases hc
    rw [hs] at hheld
    cases hheld
    simpa using hgreater
  · exact .inl rfl

/-! ### The log of the local device -/

/-- The node once a prepared operation is saved, stored and taken over. -/
def published (node : LocalNode) (record : PersistedDeviceWriterLog) (network : NetworkNode) :
    LocalNode :=
  { node with
    network := network.insertLocalLog network.identity record.deviceLog
    localDeviceAuthorityRecords := record.authorityRecords
    localRecordMutations := record.recordMutations
    store := node.store.saveDeviceWriterLog record }

theorem publishLocalDeviceWriterOperation_apply (path : String) (operation : DeviceWriterOperation)
    (mutation : Option RecordMutationIntent) :
    publishLocalDeviceWriterOperation P outside path operation mutation node =
      match node.prepareDeviceWriterOperation P outside path operation mutation with
      | .error error => (.error error, node)
      | .ok (entry, record) =>
        match outside.network.saved with
        | .error error => (.error (.err (.protocol (s!"failed to persist device-writer log for " ++
            s!"{P.identityToString node.identity}: {error}"))), node)
        | .ok () =>
          match node.network.storeVerifiedDeviceWriterLogs P outside.network node.identity
              record.authorityRecords [record.deviceLog] with
          | (.error error, network) => (.error error,
              (node.setStore (node.store.saveDeviceWriterLog record)).setNetwork network)
          | (.ok _, network) => (.ok (entry.body.deviceSequence, (entry.entryHash P).toHex),
              published node record network) := by
  unfold publishLocalDeviceWriterOperation
  simp only [read_bind, id_eq]
  cases h : node.prepareDeviceWriterOperation P outside path operation mutation with
  | error error => rfl
  | ok prepared =>
    obtain ⟨entry, record⟩ := prepared
    cases hs : outside.network.saved with
    | error error => rfl
    | ok u =>
      simp only [check_ok_bind, asProtocol, write_bind, storeVerifiedDeviceWriterLogs,
        onNetwork_bind, network_setStore]
      rcases node.network.storeVerifiedDeviceWriterLogs P outside.network node.identity
        record.authorityRecords [record.deviceLog] with ⟨error | sequence, network⟩
      · rfl
      · rfl

/-- How a write ends: with nothing done, with the record saved and not stored, or published. -/
theorem publish_cases (P : Primitives) (outside : Outside) (path : String)
    (operation : DeviceWriterOperation) (mutation : Option RecordMutationIntent)
    (node : LocalNode) :
    (∃ e, publishLocalDeviceWriterOperation P outside path operation mutation node =
      (.error e, node)) ∨
    ∃ entry record network, node.prepareDeviceWriterOperation P outside path operation mutation =
      .ok (entry, record) ∧
      ((∃ e, node.network.storeVerifiedDeviceWriterLogs P outside.network node.identity
        record.authorityRecords
          [record.deviceLog] = (.error e, network) ∧
        publishLocalDeviceWriterOperation P outside path operation mutation node =
          (.error e, (node.setStore (node.store.saveDeviceWriterLog record)).setNetwork network)) ∨
      ∃ stored, node.network.storeVerifiedDeviceWriterLogs P outside.network node.identity
        record.authorityRecords
          [record.deviceLog] = (.ok stored, network) ∧
        publishLocalDeviceWriterOperation P outside path operation mutation node =
          (.ok (entry.body.deviceSequence, (entry.entryHash P).toHex),
            published node record network)) := by
  rw [publishLocalDeviceWriterOperation_apply]
  rcases node.prepareDeviceWriterOperation P outside path operation
    mutation with e | ⟨entry, record⟩
  · exact .inl ⟨e, rfl⟩
  rcases outside.network.saved with e | u
  · exact .inl ⟨_, rfl⟩
  refine .inr ⟨entry, record, ?_⟩
  dsimp only
  rcases node.network.storeVerifiedDeviceWriterLogs P outside.network node.identity
    record.authorityRecords
    [record.deviceLog] with ⟨e | stored, network⟩
  · exact ⟨network, rfl, .inl ⟨e, rfl, rfl⟩⟩
  · exact ⟨network, rfl, .inr ⟨stored, rfl, rfl⟩⟩

theorem updateLogs_publish (outside : Outside) (path : String) (operation : DeviceWriterOperation)
    (mutation : Option RecordMutationIntent) : Keeps (fun a b => b.updateLogs = a.updateLogs)
      (publishLocalDeviceWriterOperation P outside path operation mutation) := by
  intro node
  obtain ⟨e, h⟩ | ⟨entry, record, network, -, ⟨e, -, h⟩ | ⟨stored, -, h⟩⟩ :=
    publish_cases P outside path operation mutation node <;> rw [h] <;> rfl

theorem publishLocalDeviceWriterOperation_eq_ok {path : String} {sequence : UInt64}
    {revision : String}
    (h : publishLocalDeviceWriterOperation P outside path operation mutation node =
      (.ok (sequence, revision), node')) : ∃ entry record stored network,
      node.prepareDeviceWriterOperation P outside path operation mutation = .ok (entry, record) ∧
      node.network.storeVerifiedDeviceWriterLogs P outside.network node.identity
        record.authorityRecords [record.deviceLog] = (.ok stored, network) ∧
      sequence = entry.body.deviceSequence ∧ revision = (entry.entryHash P).toHex ∧
      node' = published node record network := by
  obtain ⟨e, hout⟩ | ⟨entry, record, network, hp, ⟨e, -, hout⟩ | ⟨stored, hn, hout⟩⟩ :=
    publish_cases P outside path operation mutation node
  · simp [hout] at h
  · simp [hout] at h
  · simp only [hout, Prod.mk.injEq, Except.ok.injEq] at h
    obtain ⟨⟨rfl, rfl⟩, rfl⟩ := h
    exact ⟨entry, record, stored, network, hp, hn, rfl, rfl, rfl⟩

theorem prepareDeviceWriterOperation_eq_ok {path : String} {entry : DeviceWriterLogEntry}
    {record : PersistedDeviceWriterLog} :
    node.prepareDeviceWriterOperation P outside path operation mutation = .ok (entry, record) ↔
      node.blocked = false ∧
      ∃ observedHeads, node.observedHeadsOf P outside.network.iteration operation mutation =
        .ok observedHeads ∧
        node.nextDeviceWriterEntry P operation observedHeads outside.createdAt = .ok entry ∧
        node.authorityRecordsForLocalDevice P outside.createdAt true = .ok record.authorityRecords ∧
        node.recordMutation P path (entry.entryHash P).toHex mutation = .ok record.recordMutations ∧
        record.deviceLog = node.localLog ++ [entry] ∧
        record.otherDeviceLogs = node.otherDeviceLogsForPersistence outside.network.iteration := by
  simp only [prepareDeviceWriterOperation, bind_eq_ok, ensure_eq_ok, asProtocol_eq_ok, pure_eq_ok,
    Prod.mk.injEq]
  constructor
  · rintro ⟨_, hb, heads, hh, entry', he, records, hr, mutations, hm, rfl, rfl⟩
    exact ⟨hb, heads, hh, he, hr, hm, rfl, rfl⟩
  · rintro ⟨hb, heads, hh, he, hr, hm, hl, ho⟩
    refine ⟨(), hb, heads, hh, entry, he, record.authorityRecords, hr, record.recordMutations, hm,
      rfl, ?_⟩
    cases record
    simp_all

/-! ### Saving and syncing -/

/-- The record of the device-writer state as it is saved. -/
def recordOf (node : LocalNode) (iteration : Iteration)
    (records : List DeviceAuthorizationRecord) : PersistedDeviceWriterLog where
  authorityRecords := records
  deviceLog := node.localLog
  otherDeviceLogs := node.otherDeviceLogsForPersistence iteration
  recordMutations := node.localRecordMutations

theorem persistDeviceWriterState_apply (ambient : Ambient)
    (records : List DeviceAuthorizationRecord) :
    persistDeviceWriterState P ambient records node =
      match ambient.saved with
      | .error error => (.error (.err (.protocol (s!"failed to persist device-writer state for " ++
          s!"{P.identityToString node.identity}: {error}"))), node)
      | .ok () => (.ok (), node.setStore
          (node.store.saveDeviceWriterLog (recordOf node ambient.iteration records))) := by
  unfold persistDeviceWriterState
  cases h : ambient.saved <;> rfl

theorem adoptSyncedLocalLog_apply (state : CachedDeviceWriterState) :
    adoptSyncedLocalLog P state node =
      match state.deviceLogs[node.localDeviceId]? with
      | none => (.ok (), node)
      | some synced =>
        if deviceLogIsPrefix P node.localLog synced then
          (.ok (), node.setNetwork ((node.network.insertLocalLog node.identity synced).setBlocked
            node.identity false))
        else if !deviceLogIsPrefix P synced node.localLog then
          (.error (NetworkNode.historyDiverged P node.identity),
            node.setNetwork (node.network.setBlocked node.identity true))
        else (.ok (), node) := by
  unfold adoptSyncedLocalLog
  simp only [read_bind, id_eq]
  cases state.deviceLogs[node.localDeviceId]? with
  | none => rfl
  | some synced =>
    by_cases h : deviceLogIsPrefix P node.localLog synced
    · simp only [h, if_true]
      rfl
    · by_cases h' : deviceLogIsPrefix P synced node.localLog
      · simp only [h, h', if_false, Bool.not_true, Bool.false_eq_true]
        rfl
      · simp only [h, h', if_false, Bool.not_false, Bool.false_eq_true, if_true]
        rfl

theorem storeAndPersist_apply (ambient : Ambient) (records : List DeviceAuthorizationRecord)
    (logs : List (List DeviceWriterLogEntry)) :
    storeAndPersist P ambient node.identity records logs node =
      match node.network.storeVerifiedDeviceWriterLogs P ambient node.identity records logs with
      | (.error error, network) => (.error error, node.setNetwork network)
      | (.ok _, network) =>
        persistSyncedLocalDeviceWriterState P ambient node.identity (node.setNetwork network) := by
  unfold storeAndPersist storeVerifiedDeviceWriterLogs
  rw [onNetwork_bind]
  rcases node.network.storeVerifiedDeviceWriterLogs P ambient node.identity records logs with
    ⟨error | sequence, network⟩ <;> rfl

theorem persistSynced_apply (ambient : Ambient) {state : CachedDeviceWriterState}
    (h : node.state = some state) :
    persistSyncedLocalDeviceWriterState P ambient node.identity node =
      match adoptSyncedLocalLog P state node with
      | (.error error, node) => (.error error, node)
      | (.ok (), node) =>
        match ambient.saved with
        | .error error =>
            (.error (.err (.protocol (s!"failed to persist device-writer state for " ++
            s!"{P.identityToString node.identity}: {error}"))), node)
        | .ok () => (.ok (), (node.setStore (node.store.saveDeviceWriterLog
            (recordOf node ambient.iteration state.authorityRecords))).setAuthorityRecords
              state.authorityRecords) := by
  unfold persistSyncedLocalDeviceWriterState
  simp only [read_bind, id_eq, ne_eq, not_true_eq_false, if_false, h]
  rw [run_bind]
  rcases adoptSyncedLocalLog P state node with ⟨error | u, node'⟩
  · rfl
  · simp only
    rw [run_bind, persistDeviceWriterState_apply]
    cases ambient.saved <;> rfl

/-! ### Taking over a chain -/

/-- The end of `append_local_device_authority_operation` and of `ensure_local_device_authority`: the
chain is saved, stored and then gone by. -/
def takeOver (P : Primitives) (ambient : Ambient) (identity : IdentityId)
    (records : List DeviceAuthorizationRecord) : NodeCall Unit := do
  persistDeviceWriterState P ambient records
  let _ ← storeVerifiedDeviceWriterLogs P ambient identity records []
  write (·.setAuthorityRecords records)

theorem takeOver_apply (ambient : Ambient) (identity : IdentityId)
    (records : List DeviceAuthorizationRecord) :
    takeOver P ambient identity records node =
      match ambient.saved with
      | .error error => (.error (.err (.protocol (s!"failed to persist device-writer state for " ++
          s!"{P.identityToString node.identity}: {error}"))), node)
      | .ok () =>
        match node.network.storeVerifiedDeviceWriterLogs P ambient identity records [] with
        | (.error error, network) => (.error error, (node.setStore (node.store.saveDeviceWriterLog
            (recordOf node ambient.iteration records))).setNetwork network)
        | (.ok _, network) => (.ok (), ((node.setStore (node.store.saveDeviceWriterLog
            (recordOf node ambient.iteration records))).setNetwork network).setAuthorityRecords
              records) := by
  unfold takeOver
  rw [run_bind, persistDeviceWriterState_apply]
  cases ambient.saved with
  | error error => rfl
  | ok u =>
    show (storeVerifiedDeviceWriterLogs P ambient identity records [] >>= _) _ = _
    rw [storeVerifiedDeviceWriterLogs, onNetwork_bind, network_setStore]
    rcases node.network.storeVerifiedDeviceWriterLogs P ambient identity records [] with
      ⟨error | sequence, network⟩ <;> rfl

theorem takeOver_eq_ok {records : List DeviceAuthorizationRecord}
    (h : takeOver P ambient identity records node = (.ok (), node')) : ∃ sequence network,
      node.network.storeVerifiedDeviceWriterLogs P ambient identity records
        [] = (.ok sequence, network) ∧
      node' = ((node.setStore (node.store.saveDeviceWriterLog
        (recordOf node ambient.iteration records))).setNetwork network).setAuthorityRecords
          records := by
  rw [takeOver_apply] at h
  rcases hsaved : ambient.saved with error | u
  · simp [hsaved] at h
  simp only [hsaved] at h
  rcases hn : node.network.storeVerifiedDeviceWriterLogs P ambient identity records [] with
    ⟨error | sequence, network⟩
  · simp [hn] at h
  · simp only [hn, Prod.mk.injEq, true_and] at h
    exact ⟨sequence, network, rfl, h.symm⟩

/-- The chain with a record of the operation, once it is checked. -/
def nextAuthorityRecords (P : Primitives) (node : LocalNode) (createdAt : UInt64)
    (operation : DeviceAuthorizationOperation) :
    Except (Fault NetworkError) (List DeviceAuthorizationRecord) := do
  let previous ← okOr node.localDeviceAuthorityRecords.getLast?
    (.err (.protocol "local device authority is not initialized"))
  let record ← asProtocol IdentityAuthorityError.toString
    (previous.append P operation createdAt (P.sign node.identityKey))
  let _ ← asInvalidInput IdentityAuthorityError.toString
    (verifyIdentityAuthorityChain P node.identity (node.localDeviceAuthorityRecords ++ [record]))
  return node.localDeviceAuthorityRecords ++ [record]

theorem appendLocalDeviceAuthorityOperation_apply (toJson : List DeviceAuthorizationRecord → Bytes)
    (ambient : Ambient) (operation : DeviceAuthorizationOperation) :
    appendLocalDeviceAuthorityOperation P toJson outside ambient operation node =
      match nextAuthorityRecords P node outside.createdAt operation with
      | .error error => (.error error, node)
      | .ok records =>
        match publishBytesAtPath P outside (toJson records) identityAuthorityPath node with
        | (.error error, mid) => (.error error, mid)
        | (.ok _, mid) =>
          match takeOver P ambient node.identity records mid with
          | (.error error, node') => (.error error, node')
          | (.ok (), node') => (.ok records, node') := by
  unfold appendLocalDeviceAuthorityOperation nextAuthorityRecords
  simp only [read_bind, id_eq, check_bind]
  rcases okOr node.localDeviceAuthorityRecords.getLast? _ with error | previous
  · rfl
  simp only [ok_bind]
  rcases asProtocol IdentityAuthorityError.toString (previous.append P operation outside.createdAt
    (P.sign node.identityKey)) with error | record
  · rfl
  simp only [ok_bind]
  rcases asInvalidInput IdentityAuthorityError.toString (verifyIdentityAuthorityChain
    P node.identity
    (node.localDeviceAuthorityRecords ++ [record])) with error | authority
  · rfl
  simp only [ok_bind, pure, Except.pure, run_bind]
  rcases publishBytesAtPath P outside (toJson (node.localDeviceAuthorityRecords ++ [record]))
    identityAuthorityPath node with ⟨error | result, mid⟩
  · rfl
  simp only [takeOver, run_bind]
  rcases persistDeviceWriterState P ambient (node.localDeviceAuthorityRecords ++ [record]) mid with
    ⟨error | u, saved⟩
  · rfl
  dsimp only
  rcases storeVerifiedDeviceWriterLogs P ambient node.identity
    (node.localDeviceAuthorityRecords ++ [record]) [] saved with ⟨error | sequence, stored⟩ <;> rfl

theorem ensureLocalDeviceAuthority_apply (ambient : Ambient) (createdAt : UInt64) :
    ensureLocalDeviceAuthority P ambient createdAt node =
      match node.authorityRecordsForLocalDevice P createdAt false with
      | .error error => (.error error, node)
      | .ok records => takeOver P ambient node.identity records node := by
  unfold ensureLocalDeviceAuthority
  simp only [read_bind, id_eq, check_bind]
  cases node.authorityRecordsForLocalDevice P createdAt false <;> rfl

theorem ensureLocalDeviceAuthority_eq_ok {createdAt : UInt64}
    (h : ensureLocalDeviceAuthority P ambient createdAt node = (.ok (), node')) :
    ∃ records, node.authorityRecordsForLocalDevice P createdAt false = .ok records ∧
      takeOver P ambient node.identity records node = (.ok (), node') := by
  rw [ensureLocalDeviceAuthority_apply] at h
  rcases hrecords : node.authorityRecordsForLocalDevice P createdAt false with error | records
  · simp [hrecords] at h
  · simp only [hrecords] at h
    exact ⟨records, rfl, h⟩

/-! ### Loading -/

theorem loadPersistedLocalUpdateLog_eq_ok
    (h : loadPersistedLocalUpdateLog P node = (.ok (), node')) :
    (node.store.updateLog = none ∧ node' = node) ∨ ∃ entries sequence, node.store.updateLog =
      some entries ∧
        verifyUpdateLogForIdentity P node.identity entries = .ok sequence ∧
        node' = node.insertUpdateLog node.identity entries := by
  unfold loadPersistedLocalUpdateLog at h
  simp only [read_bind, id_eq] at h
  cases hlog : node.store.updateLog with
  | none =>
    simp only [hlog, pure_apply, Prod.mk.injEq, true_and] at h
    exact .inl ⟨rfl, h.symm⟩
  | some entries =>
    simp only [hlog, run_bind_eq_ok, check_apply, write_apply, Prod.mk.injEq, asProtocolFault_eq_ok,
      true_and] at h
    obtain ⟨sequence, mid, ⟨hverify, rfl⟩, rfl⟩ := h
    exact .inr ⟨entries, sequence, rfl, hverify, rfl⟩

/-- The node with the saved record, once the states of the record are stored. -/
def loaded (node : LocalNode) (network : NetworkNode) (record : PersistedDeviceWriterLog) :
    LocalNode :=
  { node with
    network :=
      match record.deviceLogs.find? fun log =>
          log.head?.map (·.body.deviceId) = some node.localDeviceId with
      | some log => network.insertLocalLog network.identity log
      | none => network
    localDeviceAuthorityRecords := record.authorityRecords
    localRecordMutations := record.recordMutations }

theorem mapErr_eq_ok {α : Type} {f : NetworkError → NetworkError} {call : NodeCall α} {a : α} :
    mapErr f call node = (.ok a, node') ↔ call node = (.ok a, node') := by
  unfold mapErr
  rcases call node with ⟨(e | message) | a, mid⟩ <;> simp

theorem loadPersistedLocalDeviceWriterLog_eq_ok
    (h : loadPersistedLocalDeviceWriterLog P ambient node = (.ok (), node')) :
    (node.store.deviceWriterLog = none ∧ node' = node) ∨
      ∃ record sequence network, node.store.deviceWriterLog = some record ∧
        node.network.storeVerifiedDeviceWriterLogs P ambient node.identity record.authorityRecords
          record.deviceLogs = (.ok sequence, network) ∧
        node' = loaded node network record := by
  unfold loadPersistedLocalDeviceWriterLog at h
  simp only [read_bind, id_eq] at h
  cases hrecord : node.store.deviceWriterLog with
  | none =>
    simp only [hrecord, pure_apply, Prod.mk.injEq, true_and] at h
    exact .inl ⟨rfl, h.symm⟩
  | some record =>
    simp only [hrecord] at h
    rw [run_bind_eq_ok] at h
    obtain ⟨sequence, mid, hstore, h⟩ := h
    rw [mapErr_eq_ok] at hstore
    obtain ⟨hsequence, rfl⟩ := Prod.mk.inj hstore
    refine .inr ⟨record, sequence, _, rfl, Prod.ext hsequence rfl, ?_⟩
    unfold loaded
    simp only [write_bind] at h
    cases hfind : record.deviceLogs.find? fun log =>
      log.head?.map (·.body.deviceId) = some node.localDeviceId with
    | none =>
      simp only [hfind] at h
      exact (Prod.mk.inj h).2.symm
    | some log =>
      simp only [hfind] at h
      exact (Prod.mk.inj h).2.symm

end Jolt.Publishing.Outcomes

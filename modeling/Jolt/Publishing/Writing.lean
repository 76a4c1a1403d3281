import Jolt.Publishing.Store
import Jolt.Network.Node
import Jolt.Lib.Calls

/-! # Writing on a node

The part of a node that publishes for its own identity (`publishing.rs`, `inventory.rs` and the
construction of a node): content, the update log, the log of the local device, the authority chain,
and mutations of records, which name the revisions they replace. Over `NetworkNode`, which keeps the
device-writer states, it adds the keys, the local logs and tables, and the disk.

Calls run on the node and keep what they have done when they fail (`Call`). What a call gets from
outside, the time, orders of iteration and the outcome of every write to disk, is an argument.
Announcements to the network, which a failure does not stop, are left out.

The maps `local_device_authority_records` and `local_record_mutations` of the source are only used
at the identity of the node, so they are its values there. -/

namespace Jolt.Publishing.Writing

open Std Lib Checks Sorting Calls Call Jolt.Core Jolt.Core.Types Address IdentityAuthority
  DeviceWriterLog UpdateLog Network.DeviceWriterCache Network.Node Store

structure LocalNode where
  network : NetworkNode
  /-- The signing key of the identity. -/
  identityKey : Bytes32
  /-- The signing key of this installation. -/
  deviceKey : Bytes32
  updateLogs : IdentityId → Option (List UpdateLogEntry)
  localDeviceAuthorityRecords : List DeviceAuthorizationRecord
  localRecordMutations : RecordMutations
  store : ContentStore

/-- What a publishing call gets from outside. The network part has the outcome of saving the
device-writer record. If content is not saved, `contentCut` is how much of it is in the file, or
`none` if the file was not opened. -/
structure Outside where
  network : Ambient
  createdAt : UInt64
  contentSaved : Except String Unit
  contentCut : Option ℕ
  updateLogSaved : Except String Unit

instance : Inhabited Outside := ⟨default, 0, .ok (), none, .ok ()⟩

abbrev NodeCall := Call LocalNode (Fault NetworkError)

def asInvalidInput {ε α : Type} (text : ε → String) : Except ε α → Except (Fault NetworkError) α
  | .ok a => .ok a
  | .error e => .error (.err (.invalidInput (text e)))

/-! ### Records as they are inspected -/

structure LocalRecordInfo where
  path : String
  contentId : String
  revision : String
deriving DecidableEq

inductive LocalRecordHead where
  | deleted (revision : String)
  | present (info : LocalRecordInfo)
deriving DecidableEq

def LocalRecordHead.revision : LocalRecordHead → String
  | deleted revision => revision
  | present info => info.revision

inductive LocalRecordState where
  | missing (path : String)
  | deleted (path : String) (revision : String)
  | present (info : LocalRecordInfo)
  | conflicted (path : String) (alternatives : List LocalRecordHead)
deriving DecidableEq

structure LocalRecordUpdate where
  path : String
  contentId : String
  revision : String
  data : Bytes
deriving DecidableEq

structure LocalRecordDelete where
  path : String
  revision : String
deriving DecidableEq

inductive RequiredSingleRecordState where
  | present
  | deleted
deriving DecidableEq, Repr

structure RecordMutationIntent where
  mutationId : String
  observedRevisions : List String
  operation : PersistedRecordMutationOperation
  contentId : Option ContentId

def validateRecordMutationId (mutationId : String) : Except (Fault NetworkError) Unit :=
  ensure (mutationId ≠ "" ∧ (asBytes mutationId).length ≤ 256)
    (.err (.invalidInput "mutation_id must contain 1 to 256 bytes"))

def requestedRecordRevisions (revision : String) (observedRevisions : List String) :
    Except (Fault NetworkError) (List String) :=
  if observedRevisions = [] then .ok [revision]
  else if observedRevisions.getLast? ≠ some revision then
    .error (.err (.invalidInput "revision must name the final observed_revisions head"))
  else .ok observedRevisions

namespace LocalNode

variable (node : LocalNode)

/-! ### The node's own values -/

def identity (node : LocalNode) : IdentityId := node.network.identity

def localDeviceId (node : LocalNode) : String := node.network.localDeviceId

def state : Option CachedDeviceWriterState := node.network.cached node.identity

def localLog : List DeviceWriterLogEntry := node.network.localDeviceWriterLogs node.identity

def blocked : Bool := node.network.blockedLocalDeviceWriterIdentities node.identity

def updateLog : Option (List UpdateLogEntry) := node.updateLogs node.identity

def insertUpdateLog (identity : IdentityId) (entries : List UpdateLogEntry) : LocalNode :=
  { node with updateLogs := Function.update node.updateLogs identity (some entries) }

def setNetwork (network : NetworkNode) : LocalNode :=
  { node with network }

def setAuthorityRecords (records : List DeviceAuthorizationRecord) : LocalNode :=
  { node with localDeviceAuthorityRecords := records }

def setStore (store : ContentStore) : LocalNode := { node with store }

section

variable (P : Primitives) (node : LocalNode) (createdAt : UInt64) (iteration : Iteration)
  (outside : Outside) (data : Bytes) (path observedRevision : String)
  (observedRevisions : List String) (mutationId : String) (operation : DeviceWriterOperation)
  (mutation : Option RecordMutationIntent)

def onNetwork {α : Type} (f : NetworkNode → Except (Fault NetworkError) α × NetworkNode) :
    NodeCall α :=
  fun node => ((f node.network).1, node.setNetwork (f node.network).2)

/-! ### Inspecting records -/

def localRecordHead (entry : MergedDeviceWriterEntry) (path : String) : LocalRecordHead :=
  match entry.state with
  | .present contentId => .present ⟨path, P.contentIdToString contentId, entry.entryHash.toHex⟩
  | .tombstone => .deleted entry.entryHash.toHex

def inspectLocalRecord : LocalRecordState :=
  match node.state with
  | none => .missing path
  | some state =>
    match state.merged.singletonPaths[path]? with
    | none => .missing path
    | some entry =>
      match state.merged.singletonConflicts[path]? with
      | some conflicts =>
        .conflicted path ((conflicts ++ [entry]).map (localRecordHead P · path))
      | none =>
        match entry.state with
        | .present contentId =>
          .present ⟨path, P.contentIdToString contentId, entry.entryHash.toHex⟩
        | .tombstone => .deleted path entry.entryHash.toHex

/-- The current revisions, if the record is in a state in which as many can be replaced. -/
def currentRecordRevisions (requested : ℕ) (requiredSingleState : RequiredSingleRecordState) :
    Option (List String) :=
  match node.inspectLocalRecord P path with
  | .present current =>
    if requested = 1 ∧ requiredSingleState = .present then some [current.revision] else none
  | .deleted _ revision =>
    if requested = 1 ∧ requiredSingleState = .deleted then some [revision] else none
  | .conflicted _ alternatives =>
    if 1 < requested then some (alternatives.map (·.revision)) else none
  | .missing _ => none

def validateCurrentRecordRevisions (requestedRevisions : List String)
    (requiredSingleState : RequiredSingleRecordState) : Except (Fault NetworkError) Unit := do
  let currentRevisions ← okOr
    (node.currentRecordRevisions P path requestedRevisions.length requiredSingleState)
    (.err .recordConflict)
  ensure (currentRevisions = requestedRevisions) (.err .recordConflict)

/-- The heads a plain singleton write supersedes. -/
def currentSingletonHeads : List DeviceWriterLogEntryHash :=
  let headsAt (path : String) : List DeviceWriterLogEntryHash :=
    match node.state with
    | none => []
    | some state =>
      state.merged.singletonPaths[path]?.toList.map (·.entryHash) ++
        (state.merged.singletonConflicts[path]?.getD []).map (·.entryHash)
  match operation with
  | .setPath path _ .singleton => headsAt path
  | .tombstonePath path => headsAt path
  | .setPath _ _ .append => []

/-- The hash of the first entry with the given text, of the cached logs as an iteration has them. -/
def observedRecordHeadHash (state : CachedDeviceWriterState) (revision : String) :
    Except (Fault NetworkError) DeviceWriterLogEntryHash :=
  okOr ((iteration.values state.deviceLogs).flatten.findSome? fun entry =>
    if (entry.entryHash P).toHex = revision then some (entry.entryHash P) else none)
    (.err .recordConflict)

def observedRecordHeadHashes (revisions : List String) : Except (Fault NetworkError)
    (List DeviceWriterLogEntryHash) :=
  match node.state with
  | none => .error (.err .recordConflict)
  | some state => revisions.mapM (observedRecordHeadHash P iteration state)

/-! ### Content and the update log -/

def publishBytes : NodeCall ContentId := do
  let node ← read id
  let contentId := ContentId.fromBytes P data
  let manifest : ContentManifest :=
    { contentId
      size := data.length
      contentType := "application/octet-stream"
      publisherKey := (P.verifyingKey node.identityKey).bytes
      signature := P.sign node.identityKey data }
  match outside.contentSaved with
  | .ok () => do
    write fun node => node.setStore (node.store.publish P data manifest)
    return contentId
  | .error error => do
    let left := outside.contentCut.map data.take
    write fun node => node.setStore (node.store.cutOff (P.contentIdToString contentId) left)
    check (asProtocol id (.error error))

def nextUpdateLogEntry (action : UpdateAction) : Except UpdateLogError UpdateLogEntry :=
  match node.updateLog.bind List.getLast? with
  | some previous => previous.append P action (P.sign node.identityKey)
  | none =>
    UpdateLogEntry.genesis P (P.verifyingKey node.identityKey).bytes action
      (P.sign node.identityKey)

/-- The entry is added in memory before the log is saved. -/
def publishLocalUpdateLogAction (action : UpdateAction) : NodeCall UInt64 := do
  let node ← read id
  let entry ← check (asProtocol UpdateLogError.toString (node.nextUpdateLogEntry P action))
  let entriesToSave := node.updateLog.getD [] ++ [entry]
  write (·.insertUpdateLog node.identity entriesToSave)
  check (asProtocol id outside.updateLogSaved)
  write fun node => node.setStore (node.store.saveUpdateLog entriesToSave)
  return entry.body.sequence

/-! ### The authority chain -/

/-- The local chain with a record that authorizes the local device. -/
def authorizeLocalDevice : Except (Fault NetworkError) (List DeviceAuthorizationRecord) := do
  let operation : DeviceAuthorizationOperation :=
    .authorizeDevice node.localDeviceId (P.verifyingKey node.deviceKey).bytes [] ["identity:write"]
      (some "Local device") createdAt
  let record ← asProtocol IdentityAuthorityError.toString
    (match node.localDeviceAuthorityRecords.getLast? with
    | some previous => previous.append P operation createdAt (P.sign node.identityKey)
    | none =>
      DeviceAuthorizationRecord.genesis P (P.verifyingKey node.identityKey).bytes node.identity
        operation createdAt (P.sign node.identityKey))
  return node.localDeviceAuthorityRecords ++ [record]

def authorityRecordsForLocalDevice (requireActive : Bool) :
    Except (Fault NetworkError) (List DeviceAuthorizationRecord) :=
  if node.localDeviceAuthorityRecords = [] then node.authorizeLocalDevice P createdAt
  else do
    let authority ← asProtocol IdentityAuthorityError.toString
      (verifyIdentityAuthorityChain P node.identity node.localDeviceAuthorityRecords)
    match authority.devices[node.localDeviceId]? with
    | none => node.authorizeLocalDevice P createdAt
    | some device =>
      ensure (requireActive = true → device.status = .active)
        (.err (.localDeviceRevoked node.localDeviceId))
      ensure (device.signingPublicKey = (P.verifyingKey node.deviceKey).bytes)
        (.err (.localDeviceSigningKeyMismatch node.localDeviceId))
      return node.localDeviceAuthorityRecords

/-! ### Saving the device-writer state -/

/-- The cached logs of the other devices, in the order of their devices. -/
def otherDeviceLogsForPersistence : List (List DeviceWriterLogEntry) :=
  match node.state with
  | none => []
  | some state =>
    sortBy (compareOn fun log => (log.head?.map (·.body.deviceId)).getD "")
      (((iteration.rows state.deviceLogs).filter (·.1 ≠ node.localDeviceId)).map (·.2))

def persistDeviceWriterState (ambient : Ambient)
    (authorityRecords : List DeviceAuthorizationRecord) :
    NodeCall Unit := do
  let node ← read id
  check (asProtocol (fun error => s!"failed to persist device-writer state for " ++
    s!"{P.identityToString node.identity}: {error}") ambient.saved)
  write fun node => node.setStore (node.store.saveDeviceWriterLog
    { authorityRecords
      deviceLog := node.localLog
      otherDeviceLogs := node.otherDeviceLogsForPersistence ambient.iteration
      recordMutations := node.localRecordMutations })

def storeVerifiedDeviceWriterLogs (ambient : Ambient) (identity : IdentityId)
    (authorityRecords : List DeviceAuthorizationRecord)
    (deviceLogs : List (List DeviceWriterLogEntry)) : NodeCall UInt64 :=
  onNetwork fun network =>
    network.storeVerifiedDeviceWriterLogs P ambient identity authorityRecords deviceLogs

/-! ### Writing to the log of the local device -/

/-- The heads an entry observes: those its mutation names, or the current ones. -/
def observedHeadsOf : Option RecordMutationIntent → Except (Fault NetworkError)
    (List DeviceWriterLogEntryHash)
  | some mutation => node.observedRecordHeadHashes P iteration mutation.observedRevisions
  | none => .ok (node.currentSingletonHeads operation)

def nextDeviceWriterEntry (observedHeads : List DeviceWriterLogEntryHash) (createdAt : UInt64) :
    Except DeviceWriterLogError DeviceWriterLogEntry :=
  match node.localLog.getLast? with
  | some previous =>
    previous.appendObserving P operation observedHeads createdAt (P.sign node.deviceKey)
  | none =>
    DeviceWriterLogEntry.genesisObserving P node.identity node.localDeviceId operation observedHeads
      createdAt (P.sign node.deviceKey)

/-- The table of mutations with the one that is carried out. -/
def recordMutation (revision : String) : Option RecordMutationIntent → Except
    (Fault NetworkError) RecordMutations
  | none => .ok node.localRecordMutations
  | some mutation => do
    let observedRevision ← okOr mutation.observedRevisions.getLast?
      (.err (.protocol "record mutation must observe at least one revision"))
    return node.localRecordMutations.insert mutation.mutationId
      { path
        observedRevision
        observedRevisions :=
          if 1 < mutation.observedRevisions.length then mutation.observedRevisions else []
        operation := some mutation.operation
        contentId := mutation.contentId.map P.contentIdToString
        resultRevision := revision }

/-- What `publish_local_device_writer_operation` does before it writes to disk: the new entry and
the record to save. -/
def prepareDeviceWriterOperation : Except (Fault NetworkError)
    (DeviceWriterLogEntry × PersistedDeviceWriterLog) := do
  ensure (node.blocked = false) (.err (.protocol (s!"local device-writer history diverged for " ++
    s!"{P.identityToString node.identity}; refusing to append")))
  let observedHeads ← node.observedHeadsOf P outside.network.iteration operation mutation
  let entry ← asProtocol DeviceWriterLogError.toString
    (node.nextDeviceWriterEntry P operation observedHeads outside.createdAt)
  let authorityRecords ← node.authorityRecordsForLocalDevice P outside.createdAt true
  let recordMutations ← node.recordMutation P path (entry.entryHash P).toHex mutation
  return (entry,
    { authorityRecords
      deviceLog := node.localLog ++ [entry]
      otherDeviceLogs := node.otherDeviceLogsForPersistence outside.network.iteration
      recordMutations })

def publishLocalDeviceWriterOperation : NodeCall (UInt64 × String) := do
  let node ← read id
  let (entry, record) ←
    check (node.prepareDeviceWriterOperation P outside path operation mutation)
  check (asProtocol (fun error => s!"failed to persist device-writer log for " ++
    s!"{P.identityToString node.identity}: {error}") outside.network.saved)
  write fun node => node.setStore (node.store.saveDeviceWriterLog record)
  let _ ← storeVerifiedDeviceWriterLogs P outside.network node.identity record.authorityRecords
    [record.deviceLog]
  write fun node =>
    { node with
      network := node.network.insertLocalLog node.identity record.deviceLog
      localDeviceAuthorityRecords := record.authorityRecords
      localRecordMutations := record.recordMutations }
  return (entry.body.deviceSequence, (entry.entryHash P).toHex)

def publishLocalDeviceWriterPath (contentId : ContentId) (mode : DeviceWriterPathMode)
    (mutation : Option RecordMutationIntent) : NodeCall (UInt64 × String) :=
  publishLocalDeviceWriterOperation P outside path (.setPath path contentId mode) mutation

/-! ### Publishing at a path -/

def addressOf : Except (Fault NetworkError) JoltAddress :=
  asInvalidInput JoltError.toString (JoltAddress.new node.identity path)

def publishBytesAtPath : NodeCall (ContentId × JoltAddress × UInt64 × String) := do
  let node ← read id
  let address ← check (node.addressOf path)
  let contentId ← publishBytes P outside data
  let latestSequence ← publishLocalUpdateLogAction P outside (.setPath address.path contentId)
  let (_, revision) ← publishLocalDeviceWriterPath P outside address.path contentId .singleton none
  return (contentId, address, latestSequence, revision)

def publishBytesAppendingPath : NodeCall (ContentId × JoltAddress × UInt64) := do
  let node ← read id
  let address ← check (node.addressOf path)
  let contentId ← publishBytes P outside data
  let (deviceSequence, _) ←
    publishLocalDeviceWriterPath P outside address.path contentId .append none
  return (contentId, address, deviceSequence)

/-! ### Mutations of records -/

def mutationIdReused : Fault NetworkError :=
  .err (.invalidInput "mutation_id was already used for a different record mutation")

/-- What a mutation is asked to do, once its arguments are checked: the path and the revisions it
replaces. -/
structure RecordRequest where
  path : String
  requestedRevisions : List String
deriving DecidableEq

/-- The checks of the arguments, common to all mutations. -/
def recordRequest : Except (Fault NetworkError) RecordRequest := do
  validateRecordMutationId mutationId
  let address ← node.addressOf path
  let requestedRevisions ← requestedRecordRevisions observedRevision observedRevisions
  return ⟨address.path, requestedRevisions⟩

/-- The answer to a mutation that was carried out before, for those that write content. -/
def replayRecordWrite (operation : PersistedRecordMutationOperation) (request : RecordRequest)
    (data : Bytes) (previous : PersistedRecordMutation) :
    Except (Fault NetworkError) LocalRecordUpdate := do
  let contentId ← okOr previous.contentId mutationIdReused
  ensure (previous.getOperation = operation ∧ previous.path = request.path ∧
      previous.getObservedRevisions = request.requestedRevisions ∧
      contentId = P.contentIdToString (ContentId.fromBytes P data)) mutationIdReused
  let stored ← okOr (node.store.getContent contentId) (.err (.contentNotFound contentId))
  return ⟨previous.path, contentId, previous.resultRevision, stored.data⟩

/-- `update_local_record` and `restore_local_record`, which differ in the operation they record and
in the state they ask for. -/
def writeLocalRecord (operation : PersistedRecordMutationOperation)
    (requiredSingleState : RequiredSingleRecordState) (outside : Outside) (path : String)
    (data : Bytes) (observedRevision : String) (observedRevisions : List String)
    (mutationId : String) : NodeCall LocalRecordUpdate := do
  let node ← read id
  let request ← check (node.recordRequest path observedRevision observedRevisions mutationId)
  match node.localRecordMutations[mutationId]? with
  | some previous => check (node.replayRecordWrite P operation request data previous)
  | none =>
    check (node.validateCurrentRecordRevisions P request.path request.requestedRevisions
      requiredSingleState)
    let contentId ← publishBytes P outside data
    let _ ← publishLocalUpdateLogAction P outside (.setPath request.path contentId)
    let (_, resultRevision) ←
      publishLocalDeviceWriterPath P outside request.path contentId .singleton
        (some ⟨mutationId, request.requestedRevisions, operation, some contentId⟩)
    return ⟨request.path, P.contentIdToString contentId, resultRevision, data⟩

def updateLocalRecord := writeLocalRecord P .update .present

def restoreLocalRecord := writeLocalRecord P .restore .deleted

def replayRecordDelete (request : RecordRequest) (previous : PersistedRecordMutation) :
    Except (Fault NetworkError) LocalRecordDelete := do
  ensure (previous.getOperation = .delete ∧ previous.path = request.path ∧
      previous.getObservedRevisions = request.requestedRevisions ∧ previous.contentId = none)
    mutationIdReused
  return ⟨previous.path, previous.resultRevision⟩

def deleteLocalRecord : NodeCall LocalRecordDelete := do
  let node ← read id
  let request ← check (node.recordRequest path observedRevision observedRevisions mutationId)
  match node.localRecordMutations[mutationId]? with
  | some previous => check (replayRecordDelete request previous)
  | none =>
    check (node.validateCurrentRecordRevisions P request.path request.requestedRevisions .present)
    let _ ← publishLocalUpdateLogAction P outside (.removePath request.path)
    let (_, resultRevision) ←
      publishLocalDeviceWriterOperation P outside request.path (.tombstonePath request.path)
        (some ⟨mutationId, request.requestedRevisions, .delete, none⟩)
    return ⟨request.path, resultRevision⟩

/-! ### Authority operations -/

variable (toJson : List DeviceAuthorizationRecord → Bytes) (ambient : Ambient)
  (identity : IdentityId)

/-- The chain is extended, checked, published, saved and only then stored. `toJson` is
`serde_json::to_vec`, which does not fail on records. -/
def appendLocalDeviceAuthorityOperation (outside : Outside) (ambient : Ambient)
    (operation : DeviceAuthorizationOperation) : NodeCall (List DeviceAuthorizationRecord) := do
  let node ← read id
  let previous ← check (okOr node.localDeviceAuthorityRecords.getLast?
    (.err (.protocol "local device authority is not initialized")))
  let record ← check (asProtocol IdentityAuthorityError.toString
    (previous.append P operation outside.createdAt (P.sign node.identityKey)))
  let authorityRecords := node.localDeviceAuthorityRecords ++ [record]
  let _ ← check (asInvalidInput IdentityAuthorityError.toString
    (verifyIdentityAuthorityChain P node.identity authorityRecords))
  let _ ← publishBytesAtPath P outside (toJson authorityRecords) identityAuthorityPath
  persistDeviceWriterState P ambient authorityRecords
  let _ ← storeVerifiedDeviceWriterLogs P ambient node.identity authorityRecords []
  write (·.setAuthorityRecords authorityRecords)
  return authorityRecords

/-! ### Syncs of the node's own identity -/

/-- The synced log of the local device becomes the local log if it extends it. -/
def adoptSyncedLocalLog (state : CachedDeviceWriterState) : NodeCall Unit := do
  let node ← read id
  match state.deviceLogs[node.localDeviceId]? with
  | none => return ()
  | some syncedLocalLog =>
    if deviceLogIsPrefix P node.localLog syncedLocalLog then
      write fun node => node.setNetwork
        ((node.network.insertLocalLog node.identity syncedLocalLog).setBlocked node.identity false)
    else if !deviceLogIsPrefix P syncedLocalLog node.localLog then
      write fun node => node.setNetwork (node.network.setBlocked node.identity true)
      check (.error (NetworkNode.historyDiverged P node.identity))
    else return ()

def persistSyncedLocalDeviceWriterState : NodeCall Unit := do
  let node ← read id
  if identity ≠ node.identity then return ()
  else
    match node.state with
    | none => check (.error (.err (.protocol
        s!"cannot persist missing device-writer state for {P.identityToString identity}")))
    | some state =>
      adoptSyncedLocalLog P state
      persistDeviceWriterState P ambient state.authorityRecords
      write (·.setAuthorityRecords state.authorityRecords)

def storeAndPersist (authorityRecords : List DeviceAuthorizationRecord)
    (deviceLogs : List (List DeviceWriterLogEntry)) : NodeCall Unit := do
  let _ ← storeVerifiedDeviceWriterLogs P ambient identity authorityRecords deviceLogs
  persistSyncedLocalDeviceWriterState P ambient identity

/-! ### Update logs from the network -/

/-- A verified log replaces the held one if its sequence is greater. Verifying an empty log
panics. -/
def storeVerifiedUpdateLog (entries : List UpdateLogEntry) : NodeCall Unit := do
  let node ← read id
  let candidateSequence ← check (asProtocolFault UpdateLogError.toString
    (verifyUpdateLogForIdentity P identity entries))
  let currentSequence ← check
    (match node.updateLogs identity with
    | none => .ok none
    | some current => dropError (verifyUpdateLogForIdentity P identity current))
  if currentSequence.all (· < candidateSequence) then write (·.insertUpdateLog identity entries)
  else return ()

/-- The paths the update log of the node's identity binds, with the sequence of the binding. -/
def currentLocalPaths (node : LocalNode) : ExtTreeMap String (ContentId × UInt64) :=
  (node.updateLog.getD []).foldl (fun paths entry =>
      match entry.body.action with
      | .setPath path contentId => paths.insert path (contentId, entry.body.sequence)
      | .removePath path => paths.erase path
      | _ => paths) ∅

end

end LocalNode

/-! ### Construction -/

section

variable (P : Primitives)

/-- What the construction of a node gets from outside: how the local record is loaded, the saved
states of other identities, and how the local device is authorized. -/
structure Boot where
  load : Ambient
  remote : List (Iteration × PersistedRemoteIdentityState)
  authorize : Ambient
  createdAt : UInt64

instance : Inhabited Boot := ⟨default, [], default, 0⟩

/-- The keys a node is constructed with, and the bounds of its queue. -/
structure Keys where
  identityKey : Bytes32
  deviceKey : Bytes32
  maxConcurrency : ℕ
  queueCapacity : ℕ

def Keys.identity (keys : Keys) : IdentityId := IdentityId.fromPublicKey
    (P.verifyingKey keys.identityKey)

/-- `format!("dev_{}", self.local_device_identity.identity_id())`. -/
def Keys.localDeviceId (keys : Keys) : String :=
  "dev_" ++ P.identityToString (IdentityId.fromPublicKey (P.verifyingKey keys.deviceKey))

def LocalNode.fresh (keys : Keys) (store : ContentStore) : LocalNode where
  network := .fresh (keys.identity P) (keys.localDeviceId P) keys.maxConcurrency keys.queueCapacity
  identityKey := keys.identityKey
  deviceKey := keys.deviceKey
  updateLogs _ := none
  localDeviceAuthorityRecords := []
  localRecordMutations := ∅
  store

namespace LocalNode

def loadPersistedLocalUpdateLog : NodeCall Unit := do
  let node ← read id
  match node.store.updateLog with
  | none => return ()
  | some entries =>
    let _ ← check (asProtocolFault (fun error => s!"invalid persisted update log for " ++
      s!"{P.identityToString node.identity}: {UpdateLogError.toString error}")
      (verifyUpdateLogForIdentity P node.identity entries))
    write (·.insertUpdateLog node.identity entries)

def mapErr {α : Type} (f : NetworkError → NetworkError) (call : NodeCall α) : NodeCall α :=
  fun node =>
    match call node with
    | (.error (.err error), node) => (.error (.err (f error)), node)
    | result => result

def loadPersistedLocalDeviceWriterLog (ambient : Ambient) : NodeCall Unit := do
  let node ← read id
  match node.store.deviceWriterLog with
  | none => return ()
  | some record =>
    let _ ← mapErr (fun error => .protocol (s!"invalid persisted device-writer log for " ++
      s!"{P.identityToString node.identity}: {error.toString}"))
      (storeVerifiedDeviceWriterLogs P ambient node.identity record.authorityRecords
        record.deviceLogs)
    write (·.setAuthorityRecords record.authorityRecords)
    match record.deviceLogs.find? fun log =>
        log.head?.map (·.body.deviceId) = some node.localDeviceId with
    | some localDeviceLog =>
      write fun node => node.setNetwork (node.network.insertLocalLog node.identity localDeviceLog)
    | none => write id
    write fun node => { node with localRecordMutations := record.recordMutations }

def ensureLocalDeviceAuthority (ambient : Ambient) (createdAt : UInt64) : NodeCall Unit := do
  let node ← read id
  let authorityRecords ← check (node.authorityRecordsForLocalDevice P createdAt false)
  persistDeviceWriterState P ambient authorityRecords
  let _ ← storeVerifiedDeviceWriterLogs P ambient node.identity authorityRecords []
  write (·.setAuthorityRecords authorityRecords)

def load (boot : Boot) : NodeCall Unit := do
  loadPersistedLocalUpdateLog P
  loadPersistedLocalDeviceWriterLog P boot.load
  write fun node => node.setNetwork (boot.remote.foldl
    (fun network saved => network.restorePersistedRemoteIdentityState P saved.1 saved.2)
      node.network)
  ensureLocalDeviceAuthority P boot.authorize boot.createdAt

/-- `NetworkNode::new` on what is in the store. -/
def construct (keys : Keys) (boot : Boot) (store : ContentStore) :
    Except (Fault NetworkError) Unit × LocalNode :=
  load P boot (fresh P keys store)

end LocalNode

end

end Jolt.Publishing.Writing

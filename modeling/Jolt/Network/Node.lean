import Jolt.Network.DeviceWriterCache
import Jolt.Lib.SharedCell

/-! # A running node

The part of `NetworkNode` that keeps the device-writer states: what it does with a sync response,
with what is offered inside a sync request, with a background verification that completes, and with
logs that are stored or published on the node itself (`resolution.rs`, `events.rs`, `commands.rs`,
`publishing.rs`).

Responses for the identities of others are verified in the background. The work starts from a
snapshot of the cached state, waits in a queue if too many are running, and its result is cached
only if the state is still the one of the snapshot. Everything else is handled at once.

A cached state is shared behind an `Arc`, so the cache is a `Cell` for each identity. The number of
a background work is a counter of 64 bits in the source, which no run exhausts; here it is a natural
number. -/

namespace Jolt.Network.Node

open Std Lib.Checks Lib.SharedCell Jolt.Core Jolt.Core.Types IdentityAuthority DeviceWriterLog
  DeviceWriterCache

def causalHeadsDeviceWriterOperationVersion : UInt16 := 3

abbrev PeerId := String

/-! ### Messages -/

structure DeviceWriterSyncContinuation where
  cursors : List DeviceWriterCursor

structure DeviceWriterSyncRequest where
  identity : IdentityId
  authorityRecords : List DeviceAuthorizationRecord
  deviceLogs : List (List DeviceWriterLogEntry)

structure DeviceWriterSyncResponse where
  requiredOperationVersion : UInt16
  syncVersion : UInt16
  heads : List DeviceWriterCursor
  continuation : Option DeviceWriterSyncContinuation
  authorityRecords : List DeviceAuthorizationRecord
  deviceLogs : List (List DeviceWriterLogEntry)

def DeviceWriterSyncResponse.ensureSupported (response : DeviceWriterSyncResponse)
    (supportedOperationVersion supportedSyncVersion : UInt16) : Except NetworkError Unit := do
  ensure (response.requiredOperationVersion ≤ supportedOperationVersion)
    (.unsupportedDeviceWriterOperationVersion supportedOperationVersion
      response.requiredOperationVersion)
  ensure (response.syncVersion ≤ supportedSyncVersion)
    (.unsupportedDeviceWriterSyncVersion supportedSyncVersion response.syncVersion)

structure PendingDeviceWriterSync where
  identity : IdentityId
  provider : PeerId

structure PersistedRemoteIdentityState where
  identity : IdentityId
  authorityRecords : List DeviceAuthorizationRecord
  deviceLogs : List (List DeviceWriterLogEntry)
  lastVerifiedAt : UInt64
  sourcePeer : Option PeerId

/-! ### The node -/

/-- A verification in the background, with the snapshot it starts from. -/
structure DeviceWriterSyncWork where
  id : ℕ
  identity : IdentityId
  provider : PeerId
  existing : Option (Pointer CachedDeviceWriterState)
  authorityRecords : List DeviceAuthorizationRecord
  deviceLogs : List (List DeviceWriterLogEntry)
  syncVersion : UInt16
  heads : List DeviceWriterCursor
  continuation : Option DeviceWriterSyncContinuation

structure DeviceWriterSyncWorkQueue where
  queued : List DeviceWriterSyncWork
  active : List DeviceWriterSyncWork
  byIdentity : IdentityId → Option ℕ
  nextId : ℕ
  maxConcurrency : ℕ
  queueCapacity : ℕ

structure NetworkNode where
  identity : IdentityId
  localDeviceId : String
  deviceWriterStates : IdentityId → Cell CachedDeviceWriterState
  localDeviceWriterLogs : IdentityId → List DeviceWriterLogEntry
  blockedLocalDeviceWriterIdentities : IdentityId → Bool
  deviceWriterSyncWork : DeviceWriterSyncWorkQueue

/-- What a call gets from outside: an order of iteration, the time, and the outcome of writing to
disk. -/
structure Ambient where
  iteration : Iteration
  now : UInt64
  saved : Except String Unit

instance : Inhabited Ambient := ⟨default, 0, .ok ()⟩

namespace NetworkNode

variable (node : NetworkNode) (identity : IdentityId)

def cached : Option CachedDeviceWriterState := (node.deviceWriterStates identity).value?

def insertState (state : CachedDeviceWriterState) : NetworkNode :=
  { node with
    deviceWriterStates := Function.update node.deviceWriterStates identity
      ((node.deviceWriterStates identity).put state) }

def insertLocalLog (log : List DeviceWriterLogEntry) : NetworkNode :=
  { node with localDeviceWriterLogs := Function.update node.localDeviceWriterLogs identity log }

def setBlocked (blocked : Bool) : NetworkNode :=
  { node with
    blockedLocalDeviceWriterIdentities := Function.update node.blockedLocalDeviceWriterIdentities
      identity blocked }

def setQueue (queue : DeviceWriterSyncWorkQueue) : NetworkNode :=
  { node with deviceWriterSyncWork := queue }

def fresh (localDeviceId : String) (maxConcurrency queueCapacity : ℕ) : NetworkNode where
  identity
  localDeviceId
  deviceWriterStates _ := .empty
  localDeviceWriterLogs _ := []
  blockedLocalDeviceWriterIdentities _ := false
  deviceWriterSyncWork := ⟨[], [], fun _ => none, 0, max maxConcurrency 1, queueCapacity⟩

section

variable (P : Primitives) (node : NetworkNode) (ambient : Ambient) (identity : IdentityId)
  (authorityRecords : List DeviceAuthorizationRecord)

/-! ### Storing logs -/

/-- The log synced for the local device and the local log are no prefixes of each other. -/
def localHistoryDiverged (deviceLogs : DeviceLogs) : Bool :=
  match deviceLogs[node.localDeviceId]? with
  | none => false
  | some syncedLocalLog =>
    !deviceLogIsPrefix P (node.localDeviceWriterLogs identity) syncedLocalLog &&
      !deviceLogIsPrefix P syncedLocalLog (node.localDeviceWriterLogs identity)

def historyDiverged : Fault NetworkError :=
  .err (.protocol s!"local device-writer history diverged for {P.identityToString identity}")

def storeVerifiedDeviceWriterLogs (deviceLogs : List (List DeviceWriterLogEntry)) :
    Except (Fault NetworkError) UInt64 × NetworkNode :=
  match mergeVerifiedDeviceWriterState P ambient.iteration identity (node.cached identity)
      authorityRecords deviceLogs legacyDeviceWriterSyncVersion [] true with
  | .error e => (.error e, node)
  | .ok merged =>
    let state := { merged with lastVerifiedAt := ambient.now, sourcePeer := none }
    if identity = node.identity then
      if node.localHistoryDiverged P identity state.deviceLogs then
        (.error (historyDiverged P identity), node.setBlocked identity true)
      else (.ok state.authoritySequence, node.insertState identity state)
    else
      match ambient.saved with
      | .error error =>
        (.error (.err (.protocol (s!"failed to persist verified remote identity state for " ++
          s!"{P.identityToString identity}: {error}"))), node)
      | .ok () => (.ok state.authoritySequence, node.insertState identity state)

/-- After a sync of the local identity: the synced log of the local device becomes the local log if
it extends it. -/
def persistSyncedLocalDeviceWriterState : Except (Fault NetworkError) Unit × NetworkNode :=
  if identity ≠ node.identity then (.ok (), node)
  else
    match node.cached identity with
    | none => (.error (.err (.protocol
        s!"cannot persist missing device-writer state for {P.identityToString identity}")), node)
    | some state =>
      let saved : Except (Fault NetworkError) Unit :=
        match ambient.saved with
        | .ok () => .ok ()
        | .error error => .error (.err (.protocol (s!"failed to persist device-writer state for " ++
            s!"{P.identityToString identity}: {error}")))
      match state.deviceLogs[node.localDeviceId]? with
      | none => (saved, node)
      | some syncedLocalLog =>
        if deviceLogIsPrefix P (node.localDeviceWriterLogs identity) syncedLocalLog then
          (saved, (node.insertLocalLog identity syncedLocalLog).setBlocked identity false)
        else if !deviceLogIsPrefix P syncedLocalLog (node.localDeviceWriterLogs identity) then
          (.error (historyDiverged P identity), node.setBlocked identity true)
        else (saved, node)

def storeAndPersist (deviceLogs : List (List DeviceWriterLogEntry)) :
    Except (Fault NetworkError) Unit × NetworkNode :=
  match node.storeVerifiedDeviceWriterLogs P ambient identity authorityRecords deviceLogs with
  | (.error e, node) => (.error e, node)
  | (.ok _, node) => node.persistSyncedLocalDeviceWriterState P ambient identity

/-- Only while a node is constructed: the state of a remote identity as it was saved. -/
def restorePersistedRemoteIdentityState (iteration : Iteration)
    (record : PersistedRemoteIdentityState) :
    NetworkNode :=
  if record.identity = node.identity then node
  else
    match mergeVerifiedDeviceWriterState P iteration record.identity none record.authorityRecords
        record.deviceLogs legacyDeviceWriterSyncVersion [] true with
    | .error _ => node
    | .ok state =>
      node.insertState record.identity
        { state with lastVerifiedAt := record.lastVerifiedAt, sourcePeer := record.sourcePeer }

/-- The log of the local device with a new entry, as `publish_local_device_writer_operation` stores
it once the entry is made. -/
def publishLocalDeviceLog (deviceLog : List DeviceWriterLogEntry) :
    Except (Fault NetworkError) UInt64 × NetworkNode :=
  if node.blockedLocalDeviceWriterIdentities identity then
    (.error (.err (.protocol (s!"local device-writer history diverged for " ++
      s!"{P.identityToString identity}; refusing to append"))), node)
  else
    match ambient.saved with
    | .error error => (.error (.err (.protocol (s!"failed to persist device-writer log for " ++
        s!"{P.identityToString identity}: {error}"))), node)
    | .ok () =>
      match node.storeVerifiedDeviceWriterLogs P ambient identity authorityRecords [deviceLog] with
      | (.error e, node) => (.error e, node)
      | (.ok sequence, node) => (.ok sequence, node.insertLocalLog identity deviceLog)

/-! ### Verification in the background -/

def scheduleDeviceWriterSyncVerification (pending : PendingDeviceWriterSync)
    (response : DeviceWriterSyncResponse) :
    NetworkNode :=
  let queue := node.deviceWriterSyncWork
  let work : DeviceWriterSyncWork :=
    { id := queue.nextId
      identity := pending.identity
      provider := pending.provider
      existing := (node.deviceWriterStates pending.identity).content
      authorityRecords := response.authorityRecords
      deviceLogs := response.deviceLogs
      syncVersion := response.syncVersion
      heads := response.heads
      continuation := response.continuation }
  let byIdentity := Function.update queue.byIdentity pending.identity (some work.id)
  if queue.active.length < queue.maxConcurrency then
    node.setQueue { queue with
      nextId := queue.nextId + 1
      byIdentity
      active := queue.active ++ [work] }
  else if queue.queued.length < queue.queueCapacity then
    node.setQueue { queue with
      nextId := queue.nextId + 1
      byIdentity
      queued := queue.queued ++ [work] }
  else node.setQueue { queue with nextId := queue.nextId + 1 }

/-- The loop of `start_queued_device_writer_sync_work`. -/
def startQueued (maxConcurrency : ℕ) (active : List DeviceWriterSyncWork) :
    List DeviceWriterSyncWork → List DeviceWriterSyncWork × List DeviceWriterSyncWork
  | [] => (active, [])
  | work :: queued =>
    if active.length < maxConcurrency then startQueued maxConcurrency (active ++ [work]) queued
    else (active, work :: queued)

/-- Remove a work that has completed and start what is queued. -/
def finishWork (work : DeviceWriterSyncWork) : NetworkNode :=
  let queue := node.deviceWriterSyncWork
  let active := queue.active.filter (·.id ≠ work.id)
  let started := startQueued queue.maxConcurrency active queue.queued
  node.setQueue { queue with
    active := started.1
    queued := started.2
    byIdentity := if queue.byIdentity work.identity = some work.id then
        Function.update queue.byIdentity work.identity none
      else queue.byIdentity }

def verifyWork (work : DeviceWriterSyncWork) (ambient : Ambient) :
    Except (Fault NetworkError) CachedDeviceWriterState := do
  let state ← mergeVerifiedDeviceWriterState P ambient.iteration work.identity
    (work.existing.map (·.value)) work.authorityRecords work.deviceLogs work.syncVersion work.heads
    work.continuation.isNone
  return { state with lastVerifiedAt := ambient.now, sourcePeer := some work.provider }

/-- The work with number `id` completes. A computation that panics never completes. -/
def handleDeviceWriterSyncCompletion (id : ℕ) : NetworkNode :=
  match node.deviceWriterSyncWork.active.find? (·.id = id) with
  | none => node
  | some work =>
    match verifyWork P work ambient with
    | .error (.panicked _) => node
    | .error (.err _) => node.finishWork work
    | .ok state =>
      if (node.deviceWriterStates work.identity).isCurrent work.existing then
        (node.insertState work.identity state).finishWork work
      else node.finishWork work

def cancelDeviceWriterSyncForIdentity : NetworkNode :=
  let queue := node.deviceWriterSyncWork
  match queue.byIdentity identity with
  | none => node
  | some id =>
    node.setQueue { queue with
      byIdentity := Function.update queue.byIdentity identity none
      queued := queue.queued.filter (·.id ≠ id) }

/-! ### Events -/

variable (peerIdOf : Bytes → Option PeerId)

/-- A device of the chain is active and its key is the key of the peer. `peerIdOf` is
`ed25519::PublicKey::try_from_bytes` followed by `to_peer_id`. -/
def authorityRecordsAuthorizePeer (identity : IdentityId)
    (authorityRecords : List DeviceAuthorizationRecord) (peer : PeerId) : Bool :=
  match verifyIdentityAuthorityChain P identity authorityRecords with
  | .error _ => false
  | .ok authority => authority.devices.values.any fun device =>
      device.status = .active ∧ peerIdOf device.signingPublicKey = some peer

/-- A sync request arrives: what it offers is stored if it is for the local identity and comes from
one of its devices. -/
def handleSyncRequest (node : NetworkNode) (ambient : Ambient) (peer : PeerId)
    (request : DeviceWriterSyncRequest) : NetworkNode :=
  if request.authorityRecords ≠ [] ∧ request.identity = node.identity ∧
      authorityRecordsAuthorizePeer P peerIdOf request.identity request.authorityRecords peer then
    (node.storeAndPersist P ambient request.identity request.authorityRecords request.deviceLogs).2
  else node

def handleSyncResponse (node : NetworkNode) (ambient : Ambient) (pending : PendingDeviceWriterSync)
    (response : DeviceWriterSyncResponse) : NetworkNode :=
  match response.ensureSupported causalHeadsDeviceWriterOperationVersion
      deltaDeviceWriterSyncVersion with
  | .error _ => node
  | .ok () =>
    if response.authorityRecords = [] then node
    else if pending.identity ≠ node.identity then
      node.scheduleDeviceWriterSyncVerification pending response
    else
      (node.storeAndPersist P ambient pending.identity response.authorityRecords
        response.deviceLogs).2

end

end NetworkNode

variable (P : Primitives)

inductive Event where
  | request (ambient : Ambient) (peer : PeerId) (request : DeviceWriterSyncRequest)
  | response (ambient : Ambient) (pending : PendingDeviceWriterSync)
      (response : DeviceWriterSyncResponse)
  | completion (ambient : Ambient) (id : ℕ)
  | store (ambient : Ambient) (identity : IdentityId)
      (authorityRecords : List DeviceAuthorizationRecord)
      (deviceLogs : List (List DeviceWriterLogEntry))
  | publish (ambient : Ambient) (identity : IdentityId)
      (authorityRecords : List DeviceAuthorizationRecord) (deviceLog : List DeviceWriterLogEntry)
  | cancel (identity : IdentityId)

/-- The node after an event. A call that panics stops the node with its cache as it is. -/
def step (peerIdOf : Bytes → Option PeerId) (node : NetworkNode) : Event → NetworkNode
  | .request ambient peer request => node.handleSyncRequest P peerIdOf ambient peer request
  | .response ambient pending response => node.handleSyncResponse P ambient pending response
  | .completion ambient id => node.handleDeviceWriterSyncCompletion P ambient id
  | .store ambient identity authorityRecords deviceLogs =>
    (node.storeVerifiedDeviceWriterLogs P ambient identity authorityRecords deviceLogs).2
  | .publish ambient identity authorityRecords deviceLog =>
    (node.publishLocalDeviceLog P ambient identity authorityRecords deviceLog).2
  | .cancel identity => node.cancelDeviceWriterSyncForIdentity identity

def run (peerIdOf : Bytes → Option PeerId) (node : NetworkNode) (events : List Event) :
    NetworkNode :=
  events.foldl (step P peerIdOf) node

/-- The node that `NetworkNode::new` returns starts from here: the saved states of remote identities
are restored, each as some iteration has it. What is loaded for the local identity is stored by an
event of the run. -/
def construct (identity : IdentityId) (localDeviceId : String) (maxConcurrency queueCapacity : ℕ)
    (saved : List (Iteration × PersistedRemoteIdentityState)) : NetworkNode :=
  saved.foldl (fun node s => node.restorePersistedRemoteIdentityState P s.1 s.2)
    (.fresh identity localDeviceId maxConcurrency queueCapacity)

end Jolt.Network.Node

import Jolt.Core.DeviceWriterLog

/-! # The device-writer state a node caches

`merge_verified_device_writer_state` of `resolution.rs`, which takes what a node has cached for an
identity and what it is sent (authority records, full logs or log deltas, and the heads of the
sender), and returns the new state to cache or an error.

The source keeps the logs of an identity in a hash map, whose order of iteration is arbitrary and
may differ from call to call. Here the map is a tree map and each call is given an `Iteration`, the
order in which that call walks it. -/

namespace Jolt.Network.DeviceWriterCache

open Std Lib.Checks Jolt.Core Jolt.Core.Types IdentityAuthority DeviceWriterLog

def legacyDeviceWriterSyncVersion : UInt16 := 1

def deltaDeviceWriterSyncVersion : UInt16 := 2

inductive DiscoveryFailureCode where
  | noBootstrapRelays
  | relayUnreachable
  | relayMeshEmpty
  | identityProviderNotFound
  | identityHeadInvalid
  | contentProviderNotFound
  | contentFetchFailed
  | contentHashMismatch
deriving DecidableEq, Repr

inductive NetworkError where
  | protocol (message : String)
  | invalidInput (message : String)
  | recordConflict
  | localDeviceRevoked (deviceId : String)
  | localDeviceSigningKeyMismatch (deviceId : String)
  | pathTombstoned (path : String)
  | unsupportedDeviceWriterOperationVersion (supported required : UInt16)
  | unsupportedDeviceWriterSyncVersion (supported required : UInt16)
  | contentNotFound (contentId : String)
  | verificationFailed
  | timeout
  | providerNotFound (contentId : String)
  | discoveryFailed (code : DiscoveryFailureCode) (message : String)
deriving DecidableEq, Repr

def NetworkError.toString : NetworkError → String
  | protocol message => s!"Protocol error: {message}"
  | invalidInput message => s!"Invalid input: {message}"
  | recordConflict => "Record changed since the observed revision"
  | localDeviceRevoked deviceId => s!"Local device {deviceId} is revoked"
  | localDeviceSigningKeyMismatch deviceId =>
    s!"Local device {deviceId} signing key does not match its authority record"
  | pathTombstoned path => s!"Path is Tombstoned: {path}"
  | unsupportedDeviceWriterOperationVersion supported required =>
    s!"Device-writer history requires operation version {required}, " ++
      s!"but this node supports {supported}"
  | unsupportedDeviceWriterSyncVersion supported required =>
    s!"Device-writer synchronization requires envelope version {required}, " ++
      s!"but this node supports {supported}"
  | contentNotFound contentId => s!"Content not found: {contentId}"
  | verificationFailed => "Verification failed: hash mismatch"
  | timeout => "Timeout waiting for response"
  | providerNotFound contentId => s!"Provider not found for content: {contentId}"
  | discoveryFailed _ message => message

abbrev DeviceLogs := ExtTreeMap String (List DeviceWriterLogEntry)

/-- An order in which a hash map is walked. -/
structure Iteration where
  order : List (String × List DeviceWriterLogEntry) → List (String × List DeviceWriterLogEntry)
  perm : ∀ rows, (order rows).Perm rows

instance : Inhabited Iteration := ⟨id, fun _ => .refl _⟩

def Iteration.rows (iteration : Iteration) (logs : DeviceLogs) :
    List (String × List DeviceWriterLogEntry) :=
  iteration.order logs.toList

def Iteration.values (iteration : Iteration) (logs : DeviceLogs) :
    List (List DeviceWriterLogEntry) :=
  (iteration.rows logs).map (·.2)

/-- The head of a device's log as a sync message names it. -/
structure DeviceWriterCursor where
  deviceId : String
  deviceSequence : UInt64
  entryHash : DeviceWriterLogEntryHash
deriving DecidableEq

structure CachedDeviceWriterState where
  authoritySequence : UInt64
  merged : MergedDeviceIdentityState
  lastVerifiedAt : UInt64
  sourcePeer : Option String
  authorityRecords : List DeviceAuthorizationRecord
  deviceLogs : DeviceLogs

section

variable (P : Primitives) (accumulated : DeviceLogs)

/-- Lexicographic order on `(created_at, device_sequence, device_id, entry_hash)`. -/
def headOrder : DeviceWriterLogEntry → DeviceWriterLogEntry → Ordering :=
  compareLex (compareOn (·.body.createdAt)) (compareLex (compareOn (·.body.deviceSequence))
    (compareLex (compareOn (·.body.deviceId)) (compareOn (·.entryHash P))))

instance : TransCmp (headOrder P) := by unfold headOrder; infer_instance

def deviceLogIsNewer (candidate known : List DeviceWriterLogEntry) :
    Except (Fault NetworkError) Bool :=
  match compare candidate.length known.length with
  | .gt => .ok true
  | .lt => .ok false
  | .eq =>
    match candidate.getLast?, known.getLast? with
    | some candidate, some known => .ok (headOrder P candidate known = .gt)
    | none, _ => .error (.panicked "empty device logs are filtered before comparison")
    | _, none => .error (.panicked "stored device logs are never empty")

def deviceLogIsPrefix : List DeviceWriterLogEntry → List DeviceWriterLogEntry → Bool
  | [], _ => true
  | _ :: _, [] => false
  | left :: shorter, right :: candidate =>
    left.entryHash P = right.entryHash P && deviceLogIsPrefix shorter candidate

/-- The full log a received log stands for: itself if it starts at sequence `0`, else it continues
the known one. The sum may wrap around in the source; no entry with a sequence other than `0`
matches it then, as none matches the sum taken here. -/
def extendKnown (first : DeviceWriterLogEntry) (log : List DeviceWriterLogEntry) :
    Except (Fault NetworkError) (List DeviceWriterLogEntry) :=
  if first.body.deviceSequence = 0 then .ok log
  else
    match accumulated[first.body.deviceId]? with
    | none =>
        .error
        (.err
        (.protocol s!"device-writer delta for {first.body.deviceId} has no verified predecessor"))
    | some known =>
      match known.getLast? with
      | none => .error (.panicked "stored device-writer logs are never empty")
      | some knownHead =>
        if first.body.deviceSequence.toNat ≠ knownHead.body.deviceSequence.toNat + 1 ∨
            first.body.previousEntryHash ≠ some (knownHead.entryHash P) then
          .error (.err (.protocol
            s!"device-writer delta for {first.body.deviceId} is not contiguous with verified state"))
        else .ok (known ++ log)

/-- Keep the log if the device has none or an older one. -/
def keepLog (deviceId : String) (log : List DeviceWriterLogEntry) :
    Except (Fault NetworkError) DeviceLogs :=
  match accumulated[deviceId]? with
  | none => .ok (accumulated.insert deviceId log)
  | some known => do
    let keep ← deviceLogIsNewer P log known
    return if keep then accumulated.insert deviceId log else accumulated

/-- One turn of the loop over the received logs. -/
def accumulateLog (log : List DeviceWriterLogEntry) : Except (Fault NetworkError) DeviceLogs :=
  match log with
  | [] => .ok accumulated
  | first :: rest => do
    let log ← extendKnown P accumulated first (first :: rest)
    keepLog P accumulated first.body.deviceId log

/-- One turn of the loop that compares the accumulated logs with the heads of the sender. -/
def checkHead (heads : List DeviceWriterCursor) (row : String × List DeviceWriterLogEntry) :
    Except (Fault NetworkError) Unit := do
  let expected ← okOr (heads.reverse.find? (·.deviceId = row.1))
    (.err (.protocol s!"device-writer delta omitted head for {row.1}"))
  let actual ← okOr row.2.getLast?
    (.err (.protocol s!"device-writer state for {row.1} is empty"))
  ensure (actual.body.deviceSequence = expected.deviceSequence ∧
    actual.entryHash P = expected.entryHash)
    (.err (.protocol s!"device-writer delta did not reach advertised head for {row.1}"))

/-- The comparison with the heads of the sender, at the end of a delta sync. `heads_by_device` is a
map, so a device named twice makes it smaller than the list. -/
def checkHeads (iteration : Iteration) (syncVersion : UInt16) (heads : List DeviceWriterCursor)
    (complete : Bool) (accumulated : DeviceLogs) : Except (Fault NetworkError) Unit :=
  if deltaDeviceWriterSyncVersion ≤ syncVersion ∧ complete then do
    ensure ((heads.map (·.deviceId)).dedup.length = heads.length ∧
        (heads.map (·.deviceId)).dedup.length = accumulated.size)
      (.err (.protocol "device-writer delta heads do not describe complete provider state"))
    (iteration.rows accumulated).forM (checkHead P heads)
  else .ok ()

/-- An error of another crate, as the message of a protocol error. -/
def asProtocol {ε α : Type} (text : ε → String) : Except ε α → Except (Fault NetworkError) α
  | .ok a => .ok a
  | .error e => .error (.err (.protocol (text e)))

/-- The same for a call that may also panic. -/
def asProtocolFault {ε α : Type} (text : ε → String) : Except (Fault ε) α → Except
    (Fault NetworkError) α
  | .ok a => .ok a
  | .error (.err e) => .error (.err (.protocol (text e)))
  | .error (.panicked message) => .error (.panicked message)

/-- The records to go by: the received ones, unless the cached state has a later sequence. -/
def chooseRecords (existing : Option CachedDeviceWriterState)
    (candidateAuthority : VerifiedIdentityAuthority)
    (authorityRecords : List DeviceAuthorizationRecord) : List DeviceAuthorizationRecord :=
  match existing with
  | some state =>
    if state.authoritySequence ≤ candidateAuthority.latestSequence then authorityRecords
    else state.authorityRecords
  | none => authorityRecords

def mergeVerifiedDeviceWriterState (iteration : Iteration) (identity : IdentityId)
    (existing : Option CachedDeviceWriterState) (authorityRecords : List DeviceAuthorizationRecord)
    (deviceLogs : List (List DeviceWriterLogEntry)) (syncVersion : UInt16)
    (heads : List DeviceWriterCursor) (complete : Bool) :
    Except (Fault NetworkError) CachedDeviceWriterState := do
  let candidateAuthority ← asProtocol IdentityAuthorityError.toString
    (verifyIdentityAuthorityChain P identity authorityRecords)
  let authorityRecords := chooseRecords existing candidateAuthority authorityRecords
  let authority ← asProtocol IdentityAuthorityError.toString
    (verifyIdentityAuthorityChain P identity authorityRecords)
  let accumulated ← deviceLogs.foldlM (accumulateLog P) ((existing.map (·.deviceLogs)).getD ∅)
  checkHeads P iteration syncVersion heads complete accumulated
  let merged ← asProtocolFault DeviceWriterLogError.toString
    (mergeDeviceWriterLogs P authority (iteration.values accumulated))
  return { authoritySequence := authority.latestSequence
           merged
           lastVerifiedAt := (existing.map (·.lastVerifiedAt)).getD 0
           sourcePeer := existing.bind (·.sourcePeer)
           authorityRecords
           deviceLogs := accumulated }

end

end Jolt.Network.DeviceWriterCache

import Jolt.Core.IdentityAuthority
import Jolt.Core.UpdateLog
import Jolt.Lib.Sorting
import Jolt.Lib.Families

/-! # Device writer logs and their merge

The per-device logs of `device_writer_log.rs` and `mergeDeviceWriterLogs`, which folds the logs of
all devices of an identity into one state. A log is a hash chain of signed entries; an entry sets a
singleton path, adds to an append path or tombstones a path, and may name *observed heads*, hashes
of entries it supersedes.

The merge runs over the logs with four mutable tables (`MergeState`), then settles each path: the
candidates that were superseded are dropped, the rest are sorted, the greatest is the winner and the
others are conflicts. Taking the winner of an empty list panics, so the result is an
`Except (Fault DeviceWriterLogError)`. -/

namespace Jolt.Core.DeviceWriterLog

open Std Lib Checks Sorting Families Jolt.Core.Types Encoding Address IdentityAuthority

def domainSeparator : Bytes := asBytes "jolt:device-writer-log-entry:v1\x00"

def recordType : String := "jolt.device_writer_log_entry"

def recordVersion : UInt16 := 1

def publicKeyLen : ℕ := 32

def signatureLen : ℕ := 64

def observedHeadsSeparator : Bytes := asBytes "\x00jolt:observed-singleton-heads:v1\x00"

inductive DeviceWriterLogError where
  | unsupportedEntryType
  | unsupportedEntryVersion
  | identityMismatch
  | emptyDeviceId
  | invalidSignatureLength
  | invalidSignature
  | deviceChanged (index : ℕ)
  | outOfOrderSequence (index : ℕ) (expected : ℕ) (actual : UInt64)
  | invalidGenesisSequence
  | genesisHasPreviousHash
  | nonCanonicalObservedHeads
  | brokenPreviousHash (index : ℕ)
  | emptyPath
  | invalidPath
  | resolveIdentityMismatch
  | pathNotFound (path : String)
  | pathTombstoned (path : String)
deriving DecidableEq, Repr

def DeviceWriterLogError.toString : DeviceWriterLogError → String
  | unsupportedEntryType => "device writer log entry type is not supported"
  | unsupportedEntryVersion => "device writer log entry version is not supported"
  | identityMismatch => "device writer log has an entry for a different identity"
  | emptyDeviceId => "device id is required"
  | invalidSignatureLength => "device writer log entry signature must be 64 bytes"
  | invalidSignature => "invalid device writer log entry signature"
  | deviceChanged index => s!"device writer log entry at index {index} changes device id"
  | outOfOrderSequence index expected actual =>
    s!"device writer log entry at index {index} has sequence {actual}, expected {expected}"
  | invalidGenesisSequence => "device writer log genesis entry must have sequence 0"
  | genesisHasPreviousHash =>
    "device writer log genesis entry must not have a previous entry hash"
  | nonCanonicalObservedHeads => "observed device writer heads must be sorted and unique"
  | brokenPreviousHash index =>
    s!"device writer log entry at index {index} has a broken previous-entry hash"
  | emptyPath => "singleton path is required"
  | invalidPath => "device writer path is invalid"
  | resolveIdentityMismatch => "requested address identity does not match merged device state"
  | pathNotFound path => s!"no merged singleton path found for {path}"
  | pathTombstoned path => s!"merged singleton path is Tombstoned: {path}"

structure DeviceWriterLogEntryHash where
  bytes : Bytes32
deriving DecidableEq

instance : Ord DeviceWriterLogEntryHash := ⟨compareOn DeviceWriterLogEntryHash.bytes⟩

instance : TransOrd DeviceWriterLogEntryHash := inferInstanceAs
    (TransCmp (compareOn DeviceWriterLogEntryHash.bytes))

instance : LawfulEqOrd DeviceWriterLogEntryHash where
  eq_of_compare {a b} h := by
    have : a.bytes = b.bytes := LawfulEqOrd.compare_eq_iff_eq.mp h
    cases a; cases b; simp_all

inductive DeviceWriterPathMode where
  | singleton
  | append
deriving DecidableEq, Repr

inductive DeviceWriterOperation where
  | setPath (path : String) (contentId : ContentId) (mode : DeviceWriterPathMode)
  | tombstonePath (path : String)
deriving DecidableEq

structure DeviceWriterLogEntryBody where
  recordType : String
  version : UInt16
  identity : IdentityId
  deviceId : String
  deviceSequence : UInt64
  previousEntryHash : Option DeviceWriterLogEntryHash
  operation : DeviceWriterOperation
  createdAt : UInt64
  observedHeads : List DeviceWriterLogEntryHash
deriving DecidableEq

structure DeviceWriterLogEntry where
  body : DeviceWriterLogEntryBody
  signature : Bytes
deriving DecidableEq

inductive DeviceWriterPathState where
  | present (contentId : ContentId)
  | tombstone
deriving DecidableEq

structure MergedDeviceWriterEntry where
  identity : IdentityId
  deviceId : String
  deviceSequence : UInt64
  entryHash : DeviceWriterLogEntryHash
  createdAt : UInt64
  state : DeviceWriterPathState
deriving DecidableEq

structure MergedAppendRecord where
  identity : IdentityId
  deviceId : String
  deviceSequence : UInt64
  entryHash : DeviceWriterLogEntryHash
  createdAt : UInt64
  contentId : ContentId
deriving DecidableEq

inductive DeviceWriterRejectionReason where
  | unknownDevice
  | revokedDevice
deriving DecidableEq, Repr

structure RejectedDeviceWriterEntry where
  identity : IdentityId
  deviceId : String
  deviceSequence : UInt64
  entryHash : DeviceWriterLogEntryHash
  contentId : Option ContentId
  reason : DeviceWriterRejectionReason
deriving DecidableEq

structure MergedDeviceIdentityState where
  identity : IdentityId
  singletonPaths : ExtTreeMap String MergedDeviceWriterEntry
  singletonConflicts : ExtTreeMap String (List MergedDeviceWriterEntry)
  appendRecords : ExtTreeMap String (List MergedAppendRecord)
  rejectedEntries : List RejectedDeviceWriterEntry

section

variable (P : Primitives) (observedHeads : List DeviceWriterLogEntryHash)
  (body : DeviceWriterLogEntryBody) (identity : IdentityId) (deviceId : String)
  (authority : VerifiedIdentityAuthority) (s : MergeState) (path : String)
  (entry : DeviceWriterLogEntry)

/-! ### Canonical bytes -/

def DeviceWriterOperation.encode : DeviceWriterOperation → Bytes
  | setPath path contentId mode =>
    [0] ++ putString path ++ putString (P.contentIdToString contentId) ++
      [match mode with | .singleton => 0 | .append => 1]
  | tombstonePath path => [1] ++ putString path

/-- The trailing extension, left out when there are no observed heads. -/
def observedHeadsBytes : Bytes :=
  if observedHeads = [] then []
  else observedHeadsSeparator ++ putVec (·.bytes.bytes) observedHeads

def DeviceWriterLogEntryBody.canonicalBytes : Bytes :=
  domainSeparator ++ putString body.recordType ++ u16Bytes body.version ++
    putString (P.identityToString body.identity) ++ putString body.deviceId ++
    u64Bytes body.deviceSequence ++ putOptional (·.bytes.bytes) body.previousEntryHash ++
    body.operation.encode P ++ u64Bytes body.createdAt ++ observedHeadsBytes body.observedHeads

def DeviceWriterLogEntry.entryHash :
    DeviceWriterLogEntryHash := ⟨P.blake3 (entry.body.canonicalBytes P)⟩

/-! ### Checks of one log -/

def validateDeviceId : Except DeviceWriterLogError Unit := ensure
    (trimIsEmpty deviceId = false) .emptyDeviceId

def validatePath : Except DeviceWriterLogError Unit := do
  ensure (trimIsEmpty path = false) .emptyPath
  ensure (path.toList.head? = some '/' ∧ (JoltAddress.new identity path).isOk) .invalidPath

/-- `windows(2).any(|heads| heads[0] >= heads[1])` does not hold. -/
def headsAscending : List DeviceWriterLogEntryHash → Bool
  | a :: b :: rest => compare a b = .lt && headsAscending (b :: rest)
  | _ => true

def validateBody : Except DeviceWriterLogError Unit := do
  ensure (body.recordType = recordType) .unsupportedEntryType
  ensure (body.version = recordVersion) .unsupportedEntryVersion
  validateDeviceId body.deviceId
  ensure (headsAscending body.observedHeads) .nonCanonicalObservedHeads
  match body.operation with
  | .setPath path _ _ => validatePath body.identity path
  | .tombstonePath path => validatePath body.identity path

def validateSignatureLen (signature : Bytes) : Except DeviceWriterLogError Unit :=
  ensure (signature.length = signatureLen) .invalidSignatureLength

def verifySignature (publicKey payload signature : Bytes) : Except DeviceWriterLogError Unit := do
  ensure (publicKey.length = publicKeyLen) .invalidSignature
  validateSignatureLen signature
  ensure (P.keyFromBytes publicKey) .invalidSignature
  ensure (P.verifyStrict publicKey payload signature) .invalidSignature

/-! ### Making entries -/

/-- The text of a hash, which is the revision of a record. -/
def DeviceWriterLogEntryHash.toHex (hash : DeviceWriterLogEntryHash) : String :=
  hexText hash.bytes.bytes

def canonicalHeads : List DeviceWriterLogEntryHash := (sortBy compare observedHeads).destutter
    (· ≠ ·)

def DeviceWriterLogEntry.signBody (signer : Bytes → Bytes) :
    Except DeviceWriterLogError DeviceWriterLogEntry := do
  validateBody body
  let signature := signer (body.canonicalBytes P)
  validateSignatureLen signature
  return ⟨body, signature⟩

def DeviceWriterLogEntry.genesisObserving (operation : DeviceWriterOperation)
    (observedHeads : List DeviceWriterLogEntryHash) (createdAt : UInt64) (signer : Bytes → Bytes) :
    Except DeviceWriterLogError DeviceWriterLogEntry :=
  signBody P
    { recordType
      version := recordVersion
      identity
      deviceId
      deviceSequence := 0
      previousEntryHash := none
      operation
      createdAt
      observedHeads := canonicalHeads observedHeads } signer

def DeviceWriterLogEntry.appendObserving (operation : DeviceWriterOperation)
    (observedHeads : List DeviceWriterLogEntryHash) (createdAt : UInt64) (signer : Bytes → Bytes) :
    Except DeviceWriterLogError DeviceWriterLogEntry :=
  signBody P
    { recordType
      version := recordVersion
      identity := entry.body.identity
      deviceId := entry.body.deviceId
      deviceSequence := entry.body.deviceSequence + 1
      previousEntryHash := some (entry.entryHash P)
      operation
      createdAt
      observedHeads := canonicalHeads observedHeads } signer

/-! ### The shape of a log -/

/-- One turn of the loop of `verify_device_log_shape`, at `index` with the entry before, if any. The
sum cannot overflow: the entry before carries its own index. -/
def verifyEntryShape (index : ℕ) (previous : Option DeviceWriterLogEntry)
    (entry : DeviceWriterLogEntry) :
    Except DeviceWriterLogError Unit := do
  validateBody entry.body
  ensure (entry.body.identity = identity) .identityMismatch
  ensure (entry.body.deviceId = deviceId) (.deviceChanged index)
  match previous with
  | none =>
    ensure (entry.body.deviceSequence = 0) .invalidGenesisSequence
    ensure (entry.body.previousEntryHash = none) .genesisHasPreviousHash
  | some previous =>
    let expected := previous.body.deviceSequence.toNat + 1
    ensure (entry.body.deviceSequence.toNat = expected)
      (.outOfOrderSequence index expected entry.body.deviceSequence)
    ensure (entry.body.previousEntryHash = some (previous.entryHash P)) (.brokenPreviousHash index)

/-- The loop over the entries from `index` on. -/
def verifyEntryShapes (identity : IdentityId) (deviceId : String) :
    ℕ → Option DeviceWriterLogEntry → List DeviceWriterLogEntry → Except DeviceWriterLogError Unit
  | _, _, [] => .ok ()
  | index, previous, entry :: rest => do
    verifyEntryShape P identity deviceId index previous entry
    verifyEntryShapes identity deviceId (index + 1) (some entry) rest

def verifyDeviceLogShape (log : List DeviceWriterLogEntry) : Except DeviceWriterLogError Unit :=
  match log with
  | [] => .ok ()
  | first :: rest => verifyEntryShapes P identity first.body.deviceId 0 none (first :: rest)

/-! ### The merge -/

/-- The singleton entry `entry` as the merged state reports it. -/
def mergedEntry (state : DeviceWriterPathState) : MergedDeviceWriterEntry where
  identity := entry.body.identity
  deviceId := entry.body.deviceId
  deviceSequence := entry.body.deviceSequence
  entryHash := entry.entryHash P
  createdAt := entry.body.createdAt
  state := state

/-- The append entry `entry` as the merged state reports it. -/
def mergedAppendRecord (contentId : ContentId) : MergedAppendRecord where
  identity := entry.body.identity
  deviceId := entry.body.deviceId
  deviceSequence := entry.body.deviceSequence
  entryHash := entry.entryHash P
  createdAt := entry.body.createdAt
  contentId := contentId

def rejectedEntry (reason : DeviceWriterRejectionReason) : RejectedDeviceWriterEntry where
  identity := entry.body.identity
  deviceId := entry.body.deviceId
  deviceSequence := entry.body.deviceSequence
  entryHash := entry.entryHash P
  contentId :=
    match entry.body.operation with
    | .setPath _ contentId _ => some contentId
    | .tombstonePath _ => none
  reason := reason

/-- Lexicographic order on `(device_sequence, device_id, entry_hash)`. -/
def entryOrder : MergedDeviceWriterEntry → MergedDeviceWriterEntry → Ordering :=
  compareLex (compareOn (·.deviceSequence))
    (compareLex (compareOn (·.deviceId)) (compareOn (·.entryHash)))

/-- Lexicographic order on `(created_at, device_sequence, device_id, entry_hash)`. -/
def appendRecordOrder : MergedAppendRecord → MergedAppendRecord → Ordering :=
  compareLex (compareOn (·.createdAt)) (compareLex (compareOn (·.deviceSequence))
    (compareLex (compareOn (·.deviceId)) (compareOn (·.entryHash))))

/-- Lexicographic order on `(identity text, device_id, device_sequence, entry_hash)`. -/
def rejectedOrder : RejectedDeviceWriterEntry → RejectedDeviceWriterEntry → Ordering :=
  compareLex (compareOn fun e => P.identityToString e.identity) (compareLex (compareOn (·.deviceId))
    (compareLex (compareOn (·.deviceSequence)) (compareOn (·.entryHash))))

instance : TransCmp entryOrder := by unfold entryOrder; infer_instance

instance : TransCmp appendRecordOrder := by unfold appendRecordOrder; infer_instance

instance : TransCmp (rejectedOrder P) := by unfold rejectedOrder; infer_instance

/-- The tables the merge threads through its loops. `previousSingletonByPath` starts anew with each
log. -/
structure MergeState where
  singletonCandidates : ExtTreeMap String (List MergedDeviceWriterEntry)
  supersededSingletons : ExtTreeMap String (Finset DeviceWriterLogEntryHash)
  appendRecords : ExtTreeMap String (List MergedAppendRecord)
  rejectedEntries : List RejectedDeviceWriterEntry
  previousSingletonByPath : ExtTreeMap String DeviceWriterLogEntryHash

def MergeState.empty : MergeState := ⟨∅, ∅, ∅, [], ∅⟩

def MergeState.pushRejected (entry : RejectedDeviceWriterEntry) : MergeState :=
  { s with rejectedEntries := s.rejectedEntries ++ [entry] }

/-- A singleton or tombstone entry: its observed heads and the previous one of this log at the path
become superseded, and it becomes a candidate. -/
def MergeState.pushSingleton (state : DeviceWriterPathState) : MergeState :=
  { s with
    supersededSingletons := s.supersededSingletons.alter path fun superseded =>
      let superseded := superseded.getD ∅ ∪ entry.body.observedHeads.toFinset
      some (match s.previousSingletonByPath[path]? with
        | some previous => insert previous superseded
        | none => superseded)
    previousSingletonByPath := s.previousSingletonByPath.insert path (entry.entryHash P)
    singletonCandidates := pushAt s.singletonCandidates path (mergedEntry P entry state) }

def MergeState.pushAppend (contentId : ContentId) : MergeState :=
  { s with appendRecords := pushAt s.appendRecords path (mergedAppendRecord P entry contentId) }

/-- One turn of the loop over the entries of a log written by `device`. -/
def mergeEntry (device : Option AuthorizedDevice) (s : MergeState) (entry : DeviceWriterLogEntry) :
    Except DeviceWriterLogError MergeState :=
  match device with
  | none => .ok (s.pushRejected (rejectedEntry P entry .unknownDevice))
  | some device => do
    verifySignature P device.signingPublicKey (entry.body.canonicalBytes P) entry.signature
    if device.status = .revoked ∧
        authority.deviceCanWrite entry.body.deviceId entry.body.deviceSequence = false then
      return s.pushRejected (rejectedEntry P entry .revokedDevice)
    match entry.body.operation with
    | .setPath path contentId .singleton => return s.pushSingleton P path entry (.present contentId)
    | .setPath path contentId .append => return s.pushAppend P path entry contentId
    | .tombstonePath path => return s.pushSingleton P path entry .tombstone

def mergeLog (log : List DeviceWriterLogEntry) : Except DeviceWriterLogError MergeState :=
  match log with
  | [] => .ok s
  | first :: rest => do
    verifyDeviceLogShape P authority.identity (first :: rest)
    (first :: rest).foldlM (mergeEntry P authority authority.devices[first.body.deviceId]?)
      { s with previousSingletonByPath := ∅ }

/-- The candidates of a path that were not superseded, in ascending order. -/
def remainingCandidates (candidates : List MergedDeviceWriterEntry) :
    List MergedDeviceWriterEntry :=
  sortBy entryOrder (match s.supersededSingletons[path]? with
    | some superseded => candidates.filter fun candidate => candidate.entryHash ∉ superseded
    | none => candidates)

structure Settled where
  singletonPaths : ExtTreeMap String MergedDeviceWriterEntry
  singletonConflicts : ExtTreeMap String (List MergedDeviceWriterEntry)

/-- One turn of the loop over the paths: pop the winner, keep the rest as conflicts. -/
def settlePath (settled : Settled) (row : String × List MergedDeviceWriterEntry) :
    Except (Fault DeviceWriterLogError) Settled :=
  let candidates := remainingCandidates s row.1 row.2
  match candidates.getLast? with
  | none => .error (.panicked "singleton candidates map only stores non-empty values")
  | some winner =>
    let conflicts := candidates.dropLast
    .ok { singletonPaths := settled.singletonPaths.insert row.1 winner
          singletonConflicts :=
            if conflicts = [] then settled.singletonConflicts
            else settled.singletonConflicts.insert row.1 conflicts }

def settle : Except (Fault DeviceWriterLogError) MergedDeviceIdentityState := do
  let settled ← s.singletonCandidates.toList.foldlM (settlePath s) ⟨∅, ∅⟩
  return { identity := authority.identity
           singletonPaths := settled.singletonPaths
           singletonConflicts := settled.singletonConflicts
           appendRecords := s.appendRecords.map fun _ records => sortBy appendRecordOrder records
           rejectedEntries := sortBy (rejectedOrder P) s.rejectedEntries }

def mergeDeviceWriterLogs (logs : List (List DeviceWriterLogEntry)) :
    Except (Fault DeviceWriterLogError) MergedDeviceIdentityState :=
  match logs.foldlM (mergeLog P authority) MergeState.empty with
  | .error e => .error (.err e)
  | .ok s => settle P authority s

end

/-! ### Resolution -/

def resolveMergedDeviceJoltAddress (address : JoltAddress) (merged : MergedDeviceIdentityState) :
    Except DeviceWriterLogError UpdateLog.ResolvedJoltTarget := do
  ensure (address.identity = merged.identity) .resolveIdentityMismatch
  let entry ← okOr merged.singletonPaths[address.path]? (.pathNotFound address.path)
  match entry.state with
  | .present contentId =>
    return { identity := merged.identity, path := address.path, contentId, reachability := [] }
  | .tombstone => .error (.pathTombstoned address.path)

end Jolt.Core.DeviceWriterLog

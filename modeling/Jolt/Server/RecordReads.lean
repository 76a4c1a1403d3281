import Jolt.Network.Node
import Jolt.Server.ChangeStreams
import Jolt.Server.Recipients

/-! # Reading the records of an identity

How apps read what a node holds of an identity: the append records and the present records below the
beginning of a path, as the node selects them (`resolution.rs`), behind the check of the session's
capabilities for that beginning (`app_api.rs`). -/

namespace Jolt.Server.RecordReads

open Std Lib.Checks Lib.Text Core.Types Core.DeviceWriterLog Network.Node Capabilities Sessions
  AppApi Recipients ChangeStreams List

/-! ### What the node selects -/

structure AppendRecordInfo where
  path : String
  contentId : String
  deviceId : String
  deviceSequence : UInt64
  createdAt : UInt64
  entryHash : String
deriving DecidableEq

structure MaterializedRecordSnapshot where
  records : List MaterializedRecordInfo
  lastVerifiedAt : Option UInt64

def appendRecordsUnder (merged : MergedDeviceIdentityState) (start : String) :
    List (String × MergedAppendRecord) :=
  (merged.appendRecords.toList.filter fun row => startsWith row.1 start).flatMap fun row =>
    row.2.map fun entry => (row.1, entry)

section

variable (P : Primitives)

/-- The method `enumerate_append_records` of the node. -/
def NetworkNode.enumerateAppendRecords (node : NetworkNode) (identity : IdentityId)
    (start : String) :
    List AppendRecordInfo :=
  match node.cached identity with
  | none => []
  | some state =>
    (appendRecordsUnder state.merged start).map fun (path, entry) =>
      { path
        contentId := P.contentIdToString entry.contentId
        deviceId := entry.deviceId
        deviceSequence := entry.deviceSequence
        createdAt := entry.createdAt
        entryHash := entry.entryHash.toHex }

/-- The record of a singleton path, if it is present and its path starts so. -/
def materialized (start : String) (row : String × MergedDeviceWriterEntry) :
    Option MaterializedRecordInfo :=
  match row.2.state with
  | .tombstone => none
  | .present contentId =>
    if startsWith row.1 start then
      some ⟨row.1, P.contentIdToString contentId, row.2.entryHash.toHex, row.2.createdAt⟩
    else none

def NetworkNode.materializedRecordSnapshot (now : UInt64) (node : NetworkNode)
    (identity : IdentityId) (start : String) : MaterializedRecordSnapshot where
  records :=
    match node.cached identity with
    | none => []
    | some state => state.merged.singletonPaths.toList.filterMap (materialized P start)
  lastVerifiedAt :=
    (((node.cached identity).map (·.lastVerifiedAt)).filter fun verifiedAt => 0 < verifiedAt).or
      (if identity = node.identity then some now else none)

/-! ### The checks -/

variable (readers : Readers) (session : AppSessionView)

def requireEnumerateCapability (requestedIdentity : IdentityId) (path : String) :
    Except AppApiError Unit := do
  let raw ← okOr session.identity (.forbidden "app session has no granted identity")
  let sessionIdentity ← recipientIdentity P readers raw
  ensure ((session.grantedCapabilities.any fun capability =>
      ((stripPrefix "enumerate:any:" capability).or
        (if sessionIdentity = requestedIdentity then stripPrefix "enumerate:self:" capability
        else none)).any fun pattern => pathMatches pattern path) = true)
    (.forbidden (s!"enumeration of identity {P.identityToString requestedIdentity} at {path} is " ++
      "outside the granted identity and path scope"))

def requireDataSubscriptionCapability (requestedIdentity : IdentityId) (start : String) :
    Except AppApiError Unit :=
  ensure (session.allowsDataSubscription P requestedIdentity start = true)
    (.forbidden (s!"data subscription for identity {P.identityToString requestedIdentity} at " ++
      s!"{start} is outside the granted identity and path scope"))

/-! ### What sessions are given -/

/-- What a session is given of the append records, once its request is read. -/
def enumerateFor (node : NetworkNode) (identity : IdentityId) (start : String) :
    Except AppApiError (List AppendRecordInfo) := do
  requireEnumerateCapability P readers session identity start
  return NetworkNode.enumerateAppendRecords P node identity start

def snapshotFor (now : UInt64) (node : NetworkNode) (identity : IdentityId) (start : String) :
    Except AppApiError MaterializedRecordSnapshot := do
  requireDataSubscriptionCapability P session identity start
  return NetworkNode.materializedRecordSnapshot P now node identity start

end

/-! ### What they return -/

variable {P : Primitives} {readers : Readers} {session : AppSessionView} {node : NetworkNode}
  {identity : IdentityId} {start : String} {now : UInt64} {rows : List AppendRecordInfo}
  {authorization : Option (Option String)}

theorem mem_appendRecordsUnder {merged : MergedDeviceIdentityState} {path : String}
    {entry : MergedAppendRecord} : (path, entry) ∈ appendRecordsUnder merged start ↔
      startsWith path start = true ∧ ∃ entries, merged.appendRecords[path]? = some entries ∧
        entry ∈ entries := by
  simp only [appendRecordsUnder, mem_flatMap, mem_filter, mem_map, Prod.mk.injEq]
  constructor
  · rintro ⟨row, ⟨hrow, hstart⟩, entry, hentry, rfl, rfl⟩
    exact ⟨hstart, row.2, ExtTreeMap.mem_toList_iff_getElem?_eq_some.mp hrow, hentry⟩
  · rintro ⟨hstart, entries, hget, hentry⟩
    exact ⟨(path, entries), ⟨ExtTreeMap.mem_toList_iff_getElem?_eq_some.mpr hget, hstart⟩, entry,
      hentry, rfl, rfl⟩

theorem startsWith_of_mem_enumerate {row : AppendRecordInfo}
    (h : row ∈ NetworkNode.enumerateAppendRecords P node identity start) :
    startsWith row.path start = true := by
  unfold NetworkNode.enumerateAppendRecords at h
  split at h
  · cases h
  · obtain ⟨⟨path, entry⟩, hmem, rfl⟩ := mem_map.mp h
    exact (mem_appendRecordsUnder.mp hmem).1

theorem startsWith_of_mem_snapshot {record : MaterializedRecordInfo}
    (h : record ∈ (NetworkNode.materializedRecordSnapshot P now node identity start).records) :
    startsWith record.path start = true := by
  unfold NetworkNode.materializedRecordSnapshot at h
  dsimp only at h
  split at h
  · cases h
  · obtain ⟨row, -, hrow⟩ := mem_filterMap.mp h
    unfold materialized at hrow
    split at hrow
    · cases hrow
    · split_ifs at hrow with hstart
      cases hrow
      exact hstart

theorem enumerateFor_eq_ok : enumerateFor P readers session node identity start = .ok rows ↔
      requireEnumerateCapability P readers session identity start = .ok () ∧
        NetworkNode.enumerateAppendRecords P node identity start = rows := by simp [enumerateFor]

theorem snapshotFor_eq_ok {snapshot : MaterializedRecordSnapshot} :
    snapshotFor P session now node identity start = .ok snapshot ↔
      session.allowsDataSubscription P identity start = true ∧
        NetworkNode.materializedRecordSnapshot P now node identity start = snapshot := by
  simp [snapshotFor, requireDataSubscriptionCapability]

end Jolt.Server.RecordReads

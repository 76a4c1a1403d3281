import Jolt.Network.Node

/-! # The pages of a device-writer sync

How a provider answers a sync request (`DeviceWriterSyncResponse` of `protocol.rs`). A request names
the versions the requester understands and, by cursors, the last entries it has. If every cursor
matches an entry of the provider, the answer is a delta: for each device the entries after the
cursor, up to a budget of entries and bytes, and a continuation if the budget cut it short. Else the
answer is every log.

The index arithmetic is that of the source: a sequence is cast to `usize`, sums and differences may
overflow, a slice may start behind the end of its log. What overflows panics or wraps around,
depending on the build; `Platform` has this, the width of `usize`, and the lengths of the CBOR
encodings. -/

namespace Jolt.Network.SyncPages

open Std Lib.Sorting Jolt.Core Jolt.Core.Types IdentityAuthority DeviceWriterLog DeviceWriterCache
  Node

def legacyDeviceWriterOperationVersion : UInt16 := 1

def tombstoneDeviceWriterOperationVersion : UInt16 := 2

def deviceWriterDeltaMaxEntries : ℕ := 256

def deviceWriterDeltaMaxResponseBytes : ℕ := 1024 * 1024

/-! ### Machine arithmetic -/

/-- The machine and the build a provider runs on. -/
structure Platform where
  usizeBits : ℕ
  /-- A `usize` has at least 32 bits on the targets of the crate. -/
  le_usizeBits : 32 ≤ usizeBits
  /-- Whether an overflow panics; else it wraps around. -/
  overflowChecks : Bool
  /-- The length of the CBOR encoding of an entry. -/
  entryLen : DeviceWriterLogEntry → ℕ
  /-- The length of the CBOR encoding of a response. -/
  responseLen : DeviceWriterSyncResponse → ℕ

namespace Platform

variable (M : Platform)

def asUsize (n : UInt64) : ℕ := n.toNat % 2 ^ M.usizeBits

def saturatingAdd (a b : ℕ) : ℕ := min (a + b) (2 ^ M.usizeBits - 1)

def add (a b : ℕ) : Except (Fault NetworkError) ℕ :=
  if a + b < 2 ^ M.usizeBits then .ok (a + b)
  else if M.overflowChecks then .error (.panicked "attempt to add with overflow")
  else .ok ((a + b) % 2 ^ M.usizeBits)

def sub (a b : ℕ) : Except (Fault NetworkError) ℕ :=
  if b ≤ a then .ok (a - b)
  else if M.overflowChecks then .error (.panicked "attempt to subtract with overflow")
  else .ok (a + 2 ^ M.usizeBits - b)

end Platform

def sliceFrom (log : List DeviceWriterLogEntry) (start : ℕ) : Except (Fault NetworkError)
    (List DeviceWriterLogEntry) :=
  if start ≤ log.length then .ok (log.drop start)
  else .error (.panicked "range start index out of range for slice")

def cborArrayHeaderLen (len : ℕ) : ℕ :=
  if len ≤ 23 then 1
  else if len ≤ 0xff then 2
  else if len ≤ 0xffff then 3
  else if len ≤ 0xffffffff then 5
  else 9

/-! ### Requests and responses -/

/-- The part of a sync request that decides the answer. -/
structure SyncRequest where
  identity : IdentityId
  maxOperationVersion : UInt16
  maxSyncVersion : UInt16
  cursors : List DeviceWriterCursor

namespace SyncRequest

def new (identity : IdentityId) : SyncRequest :=
  ⟨identity, causalHeadsDeviceWriterOperationVersion, deltaDeviceWriterSyncVersion, []⟩

def withCursors (request : SyncRequest) (cursors : List DeviceWriterCursor) : SyncRequest :=
  { request with cursors }

end SyncRequest

/-- The operation version a reader of the entry has to know. -/
def operationVersion (entry : DeviceWriterLogEntry) : UInt16 :=
  if entry.body.observedHeads ≠ [] then causalHeadsDeviceWriterOperationVersion
  else
    match entry.body.operation with
    | .setPath .. => legacyDeviceWriterOperationVersion
    | .tombstonePath .. => tombstoneDeviceWriterOperationVersion

def requiredOperationVersion (deviceLogs : List (List DeviceWriterLogEntry)) : UInt16 :=
  ((deviceLogs.flatten.map operationVersion).max?).getD legacyDeviceWriterOperationVersion

def unsupportedOperationVersion (requiredOperationVersion : UInt16) : DeviceWriterSyncResponse where
  requiredOperationVersion
  syncVersion := legacyDeviceWriterSyncVersion
  heads := []
  continuation := none
  authorityRecords := []
  deviceLogs := []

def fullResponse (requiredOperationVersion maxOperationVersion : UInt16)
    (authorityRecords : List DeviceAuthorizationRecord)
    (deviceLogs : List (List DeviceWriterLogEntry)) : DeviceWriterSyncResponse :=
  if maxOperationVersion < requiredOperationVersion then
    unsupportedOperationVersion requiredOperationVersion
  else
    { requiredOperationVersion
      syncVersion := legacyDeviceWriterSyncVersion
      heads := []
      continuation := none
      authorityRecords
      deviceLogs }

/-- The name of a log in the order they are served in. -/
def firstDeviceId (log : List DeviceWriterLogEntry) : String :=
  (log.head?.map (·.body.deviceId)).getD ""

section

variable (P : Primitives) (M : Platform) (cursors : List DeviceWriterCursor)

def cursorFromEntry (entry : DeviceWriterLogEntry) : DeviceWriterCursor :=
  ⟨entry.body.deviceId, entry.body.deviceSequence, entry.entryHash P⟩

/-- `log.last().map(DeviceWriterCursor::from_entry)`. -/
def headCursor (log : List DeviceWriterLogEntry) : Option DeviceWriterCursor := log.getLast?.map
    (cursorFromEntry P)

/-- Whether the cursor names an entry of the logs. `logs_by_device` is a map, so of two logs of a
device the later one counts. -/
def cursorKnown (deviceLogs : List (List DeviceWriterLogEntry)) (cursor : DeviceWriterCursor) :
    Bool :=
  match deviceLogs.reverse.find? fun log =>
      log.head?.map (·.body.deviceId) = some cursor.deviceId with
  | none => false
  | some log =>
    match log[M.asUsize cursor.deviceSequence]? with
    | none => false
    | some known =>
      known.body.deviceSequence = cursor.deviceSequence && known.entryHash P = cursor.entryHash

/-- The index of the first entry to send. The cursors name distinct devices. -/
def startOf (log : List DeviceWriterLogEntry) : Except (Fault NetworkError) ℕ :=
  match log.getLast? with
  | none => .ok 0
  | some head =>
    match cursors.find? (·.deviceId = head.body.deviceId) with
    | none => .ok 0
    | some cursor => M.add (M.asUsize cursor.deviceSequence) 1

/-- The response without logs and with the longest cursors a continuation can have; its encoding is
what the entries of a page are added to. -/
def envelope (requiredOperationVersion : UInt16) (cursors heads : List DeviceWriterCursor)
    (authorityRecords : List DeviceAuthorizationRecord) : DeviceWriterSyncResponse where
  requiredOperationVersion
  syncVersion := deltaDeviceWriterSyncVersion
  heads
  continuation := some ⟨(sortBy compare ((cursors ++ heads).map (·.deviceId)).dedup).map
    fun deviceId =>
      ⟨deviceId, UInt64.ofNat (2 ^ 64 - 1), ⟨⟨List.replicate 32 0xff, by simp⟩⟩⟩⟩
  authorityRecords
  deviceLogs := []

/-! ### Filling a page -/

structure Limits where
  maxEntries : ℕ
  maxBytes : ℕ

/-- The entries of one log that go on a page, how many entries and bytes the page then has, and
whether it is full. -/
structure Taken where
  delta : List DeviceWriterLogEntry
  transferredEntries : ℕ
  transferredBytes : ℕ
  truncated : Bool

/-- What the arrays around an entry add to its encoding: `outer` logs are on the page and `inner`
entries of this one. -/
def collectionOverhead (outer inner : ℕ) : Except (Fault NetworkError) ℕ :=
  if inner = 0 then do
    let grown ← M.sub (cborArrayHeaderLen (outer + 1)) (cborArrayHeaderLen outer)
    M.add grown (cborArrayHeaderLen (inner + 1))
  else M.sub (cborArrayHeaderLen (inner + 1)) (cborArrayHeaderLen inner)

def takeEntries (M : Platform) (limits : Limits) (outer : ℕ) :
    List DeviceWriterLogEntry → List DeviceWriterLogEntry → ℕ → ℕ → Except
      (Fault NetworkError) Taken
  | [], delta, transferredEntries, transferredBytes =>
    .ok ⟨delta, transferredEntries, transferredBytes, false⟩
  | entry :: rest, delta, transferredEntries, transferredBytes => do
    let overhead ← collectionOverhead M outer delta.length
    let encodedEntryBytes := M.saturatingAdd overhead (M.entryLen entry)
    if limits.maxEntries ≤ transferredEntries ∨
        limits.maxBytes < M.saturatingAdd transferredBytes encodedEntryBytes then
      return ⟨delta, transferredEntries, transferredBytes, true⟩
    else do
      let transferredBytes ← M.add transferredBytes encodedEntryBytes
      takeEntries M limits outer rest (delta ++ [entry]) (transferredEntries + 1) transferredBytes

structure Page where
  deltaLogs : List (List DeviceWriterLogEntry)
  transferredEntries : ℕ
  transferredBytes : ℕ
  truncated : Bool

/-- The loop over the logs, each with the index to start from. -/
def takeLogs (M : Platform) (limits : Limits) :
    List (List DeviceWriterLogEntry × ℕ) → Page → Except (Fault NetworkError) Page
  | [], page => .ok page
  | (log, start) :: logs, page => do
    let rest ← sliceFrom log start
    let taken ← takeEntries M limits page.deltaLogs.length rest [] page.transferredEntries
      page.transferredBytes
    let page : Page :=
      { deltaLogs := if taken.delta = [] then page.deltaLogs else page.deltaLogs ++ [taken.delta]
        transferredEntries := taken.transferredEntries
        transferredBytes := taken.transferredBytes
        truncated := taken.truncated }
    if taken.truncated then return page else takeLogs M limits logs page

/-- The cursors of the request, moved to the last entry that was sent of each device. -/
def continuationCursors (deltaLogs : List (List DeviceWriterLogEntry)) : List DeviceWriterCursor :=
  let moved := (cursors ++ deltaLogs.flatten.map (cursorFromEntry P)).foldl
    (fun (moved : ExtTreeMap String DeviceWriterCursor) cursor =>
      moved.insert cursor.deviceId cursor) ∅
  sortBy (compareOn (·.deviceId)) (moved.toList.map (·.2))

def forSyncRequestWithLimits (request : SyncRequest)
    (authorityRecords : List DeviceAuthorizationRecord)
    (deviceLogs : List (List DeviceWriterLogEntry)) (limits : Limits) :
    Except (Fault NetworkError) DeviceWriterSyncResponse :=
  let required := requiredOperationVersion deviceLogs
  let full := fullResponse required request.maxOperationVersion authorityRecords
  if request.maxSyncVersion < deltaDeviceWriterSyncVersion ∨
      request.maxOperationVersion < required then .ok (full deviceLogs)
  -- `insert` returns the cursor that is replaced, if a device is named twice
  else if ¬ (request.cursors.map (·.deviceId)).Nodup then .ok (full deviceLogs)
  else if ¬ request.cursors.all (cursorKnown P M deviceLogs) then .ok (full deviceLogs)
  else do
    let deviceLogs := sortBy (compareOn firstDeviceId) deviceLogs
    let heads := deviceLogs.filterMap (headCursor P)
    let starts ← deviceLogs.mapM (startOf M request.cursors)
    let page ← takeLogs M limits (deviceLogs.zip starts)
      ⟨[], 0, M.responseLen (envelope required request.cursors heads authorityRecords), false⟩
    if page.truncated ∧ page.transferredEntries = 0 then return full deviceLogs
    else
      return { requiredOperationVersion := required
               syncVersion := deltaDeviceWriterSyncVersion
               heads
               continuation :=
                 if page.truncated then
                   some ⟨continuationCursors P request.cursors page.deltaLogs⟩
                 else none
               authorityRecords
               deviceLogs := page.deltaLogs }

def forSyncRequest (request : SyncRequest) (authorityRecords : List DeviceAuthorizationRecord)
    (deviceLogs : List (List DeviceWriterLogEntry)) :
    Except (Fault NetworkError) DeviceWriterSyncResponse :=
  forSyncRequestWithLimits P M request authorityRecords deviceLogs
    ⟨deviceWriterDeltaMaxEntries, deviceWriterDeltaMaxResponseBytes⟩

end

end Jolt.Network.SyncPages

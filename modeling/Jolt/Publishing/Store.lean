import Jolt.Core.DeviceWriterLog

/-! # What a node keeps on disk

The part of `ContentStore` (`store.rs`) that publishing uses: published content with its manifest,
the update log of the local identity, and the record of its device-writer state, with the table of
the record mutations that were carried out. The save of a log replaces its file by renaming a
finished one, so a save that fails leaves the file as it was. Published content is written in place,
so a write that fails can cut off content that was published before. -/

namespace Jolt.Publishing.Store

open Std Jolt.Core Jolt.Core.Types IdentityAuthority DeviceWriterLog UpdateLog

/-! ### Content -/

structure ContentManifest where
  contentId : ContentId
  size : ℕ
  contentType : String
  publisherKey : Bytes
  signature : Bytes
deriving DecidableEq

structure ContentData where
  data : Bytes
  publisherKey : Bytes
  signature : Bytes
deriving DecidableEq

/-! ### Record mutations -/

inductive PersistedRecordMutationOperation where
  | update
  | delete
  | restore
deriving DecidableEq, Repr

structure PersistedRecordMutation where
  path : String
  observedRevision : String
  observedRevisions : List String
  operation : Option PersistedRecordMutationOperation
  contentId : Option String
  resultRevision : String
deriving DecidableEq

/-- The method `observed_revisions()`: records of one revision leave the list empty. -/
def PersistedRecordMutation.getObservedRevisions (mutation : PersistedRecordMutation) :
    List String :=
  if mutation.observedRevisions = [] then [mutation.observedRevision]
  else mutation.observedRevisions

/-- The method `operation()`: old records do not name their operation. -/
def PersistedRecordMutation.getOperation (mutation : PersistedRecordMutation) :
    PersistedRecordMutationOperation :=
  mutation.operation.getD (if mutation.contentId.isSome then .update else .delete)

abbrev RecordMutations := ExtTreeMap String PersistedRecordMutation

/-! ### The device-writer record -/

structure PersistedDeviceWriterLog where
  authorityRecords : List DeviceAuthorizationRecord
  deviceLog : List DeviceWriterLogEntry
  otherDeviceLogs : List (List DeviceWriterLogEntry)
  recordMutations : RecordMutations

def PersistedDeviceWriterLog.deviceLogs (record : PersistedDeviceWriterLog) :
    List (List DeviceWriterLogEntry) :=
  (if record.deviceLog = [] then [] else [record.deviceLog]) ++ record.otherDeviceLogs

/-! ### The store -/

/-- The files of one node. The logs are those of its own identity, the only one whose logs it saves
here. -/
structure ContentStore where
  publishedContent : ExtTreeMap String (Bytes × ContentManifest)
  /-- Published content whose file a failed write has cut off, as what is left of it. -/
  tornContent : ExtTreeMap String (Bytes × ContentManifest)
  cachedContent : ExtTreeMap String ContentData
  updateLog : Option (List UpdateLogEntry)
  deviceWriterLog : Option PersistedDeviceWriterLog

namespace ContentStore

def empty : ContentStore := ⟨∅, ∅, ∅, none, none⟩

variable (P : Primitives) (store : ContentStore)

/-- The effect of a `publish` that succeeds. -/
def publish (data : Bytes) (manifest : ContentManifest) : ContentStore :=
  let contentId := P.contentIdToString manifest.contentId
  { store with
    publishedContent := store.publishedContent.insert contentId (data, manifest)
    tornContent := store.tornContent.erase contentId }

/-- The effect of a `publish` that fails, with what it leaves of the content if it has opened the
file. Content that was not published before is not listed then. -/
def cutOff (contentId : String) (left : Option Bytes) : ContentStore :=
  match left, (store.publishedContent[contentId]?).or store.tornContent[contentId]? with
  | some left, some (_, manifest) =>
    { store with
      publishedContent := store.publishedContent.erase contentId
      tornContent := store.tornContent.insert contentId (left, manifest) }
  | _, _ => store

/-- Published content first, then the cache. -/
def getContent (contentId : String) : Option ContentData :=
  match (store.publishedContent[contentId]?).or store.tornContent[contentId]? with
  | some (data, manifest) => some ⟨data, manifest.publisherKey, manifest.signature⟩
  | none => store.cachedContent[contentId]?

def saveUpdateLog (entries : List UpdateLogEntry) : ContentStore :=
  { store with updateLog := some entries }

def saveDeviceWriterLog (record : PersistedDeviceWriterLog) : ContentStore :=
  { store with deviceWriterLog := some record }

end ContentStore

end Jolt.Publishing.Store

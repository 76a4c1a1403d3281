import Jolt.Sdk.ConcurrentUpdates

/-! # Items

What an app gets when it reads a record with the SDK (`readItem` in `data.ts`). A record without
conflicting heads gives an item in its state. For one with conflicting heads the resource has a
policy for a deletion against an update and one for updates against each other, and either the
conflict is left to the app or the policy decides. -/

namespace Jolt.Sdk.Items

open Values Schemas Sdk.Merge

variable (record : BackendConflictRecord)

/-! ### Resources -/

inductive UpdateConflict where
  | lastWriteWins
  | manual
deriving DecidableEq

inductive DeleteConflict where
  | deleteWins
  | updateWins
  | manual
deriving DecidableEq

structure ResourceConflicts where
  update : UpdateConflict
  delete : DeleteConflict

structure ResourceAccess where
  update : Bool
  delete : Bool
  restore : Bool

structure ResourceDefinition where
  schema : String
  access : ResourceAccess
  conflicts : ResourceConflicts

/-! ### Items -/

inductive BackendRecord where
  | missing
  | unavailable
  | present (record : BackendPresentRecord)
  | deleted (revision : Option String)
  | conflicted (record : BackendConflictRecord)

structure MutationContext where
  revision : String
  observedRevisions : Option (List String)

inductive ConflictAlternative where
  | present (value : Value)
  | deleted

inductive Item where
  | missing
  | unavailable
  | present (migrated : StoredSchemaValue) (value : Value) (revision : Option String)
      (observedRevisions : Option (List String))
  | deleted (context : Option MutationContext)
  | conflicted (alternatives : List ConflictAlternative) (record : BackendConflictRecord)
      (isMutable : Bool)

/-- The revision of a present alternative, with what is stored. -/
def presentAlternatives : List PresentHead :=
  record.alternatives.filterMap fun
    | .present head => some head
    | .deleted _ => none

def deletedAlternatives : List String :=
  record.alternatives.filterMap fun
    | .present _ => none
    | .deleted revision => some revision

/-- The conflict without deleted alternatives; the revisions stay. -/
def presentOnlyConflict (alternatives : List PresentHead) : BackendConflictRecord :=
  if alternatives.length = record.alternatives.length then record
  else { record with alternatives := alternatives.map .present }

section

variable (isoTime : String → Option ℤ) (classes : SchemaClasses) (resource : ResourceDefinition)
  (record : BackendConflictRecord) (isMutable : Bool)

def presentItem (record : BackendPresentRecord) (isMutable : Bool) : Except DataError Item := do
  let migrated ← migratedStoredValue isoTime classes resource.schema record.stored
  return .present migrated.1 migrated.2 (if isMutable then record.revision else none)
    (if isMutable then record.observedRevisions else none)

def conflictAlternative : BackendAlternativeRecord → Except DataError ConflictAlternative
  | .deleted _ => return .deleted
  | .present head => do
    let migrated ← migratedStoredValue isoTime classes resource.schema head.stored
    return .present migrated.2

def conflictItem : Except DataError Item := do
  let alternatives ← record.alternatives.mapM (conflictAlternative isoTime classes resource)
  return .conflicted alternatives record isMutable

/-- The present alternatives of a conflict are merged, or the last one wins. -/
def readUpdates : Except DataError Item := do
  let present := presentAlternatives record
  match ← mergeConcurrentPresentUpdates isoTime classes resource.schema record present with
  | none =>
    if 1 < present.length ∧ resource.conflicts.update = .manual then
      conflictItem isoTime classes resource (presentOnlyConflict record present) isMutable
    else
      match present.getLast? with
      | none => .error .conflict
      | some winner =>
        presentItem isoTime classes resource ⟨winner.stored, some winner.revision,
          some record.revisions⟩ isMutable
  | some merged =>
    if merged.hasFieldConflict ∧ resource.conflicts.update = .manual then
      conflictItem isoTime classes resource (presentOnlyConflict record present) isMutable
    else presentItem isoTime classes resource merged.record isMutable

def readConflict : Except DataError Item :=
  let deleted := deletedAlternatives record
  let present := presentAlternatives record
  if 0 < deleted.length ∧ 0 < present.length ∧ resource.conflicts.delete = .manual then
    conflictItem isoTime classes resource record isMutable
  else
    match deleted.getLast? with
    | some revision =>
      if present.length = 0 ∨ resource.conflicts.delete = .deleteWins then
        return .deleted (if isMutable then some ⟨revision, some record.revisions⟩ else none)
      else readUpdates isoTime classes resource record isMutable
    | none => readUpdates isoTime classes resource record isMutable

def readItem : BackendRecord → Except DataError Item
  | .missing => return .missing
  | .unavailable => return .unavailable
  | .conflicted record => readConflict isoTime classes resource record isMutable
  | .deleted revision =>
    return .deleted (if isMutable then revision.map fun revision => ⟨revision, none⟩ else none)
  | .present record => presentItem isoTime classes resource record isMutable

end

end Jolt.Sdk.Items

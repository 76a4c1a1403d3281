import Jolt.Lib.Checks
import Jolt.Sdk.Values

/-! # Schemas of the SDK

Schema classes, and how a stored value becomes a value of one (`parse`, `migratedStoredValue` in
`data.ts`). A class has a version and fields, each a primitive, an array or a value of another
class. A value is parsed field by field; unknown fields are kept in what is stored and left out of
what is parsed. A value of an older version first goes through the migrations to the present one.

A field that an object does not have itself is read from what the object inherits. This is what all
objects do, unless the prototype of the object has been changed. -/

namespace Jolt.Sdk.Schemas

open Lib.Checks Values

/-! ### Schema classes -/

inductive ValueDefinition where
  | string
  | number
  | boolean
  | identity
  | dateTime
  | schema (schemaClass : String)
  | array (item : ValueDefinition)

structure FieldDefinition where
  definition : ValueDefinition
  optional : Bool

/-- A migration is code of the app, and may fail. -/
structure SchemaOptions where
  version : ℕ
  migrations : ℕ → Option (Value → Option Value)

/-- The classes that are decorated, and the fields of each class. -/
structure SchemaClasses where
  options : String → Option SchemaOptions
  fields : String → List (String × FieldDefinition)

inductive DataError where
  | validation (field message : String)
  | migration (fromVersion toVersion : ℕ) (message : String)
  | type (message : String)
  | range (message : String)
  | conflict
deriving DecidableEq

/-! ### Stored values -/

def objectMembers : List String :=
  ["constructor", "__defineGetter__", "__defineSetter__", "hasOwnProperty", "__lookupGetter__",
    "__lookupSetter__", "isPrototypeOf", "propertyIsEnumerable", "toString", "valueOf", "__proto__",
    "toLocaleString"]

def ordinary (key : String) : Value := if key ∈ objectMembers then .function key else .undefined

/-- A stored value with its version; `inherits` is what the value inherits if it is an object. -/
structure StoredSchemaValue where
  version : ℕ
  value : Value
  inherits : String → Value

def StoredSchemaValue.read (stored : StoredSchemaValue) (key : String) : Value :=
  (stored.value.own? key).getD (stored.inherits key)

/-! ### Parsing -/

def mismatch (path : String) : ValueDefinition → DataError
  | .string => .validation path "must be a string"
  | .number => .validation path "must be a finite number"
  | .boolean => .validation path "must be a boolean"
  | .identity => .validation path "must be an identity"
  | .dateTime => .validation path "must be a date-time"
  | .schema _ => .validation path "must be an object"
  | .array _ => .validation path "must be an array"

/-- The fields of a class, read and parsed one after the other, as the own fields of a new object.
An assignment to `__proto__` adds no field. -/
def parseFields (classes : SchemaClasses) (schemaClass : String) (read : String → Value)
    (parseAt : String → ValueDefinition → Except DataError Value) : Except DataError Value := do
  ensure ((classes.options schemaClass).isSome) (.type "Class is not decorated with @Schema")
  let present := (classes.fields schemaClass).filter fun entry =>
    !(entry.2.optional && (read entry.1).isUndefined)
  let parsed ← present.mapM fun entry => do
    return (entry.1, ← parseAt entry.1 entry.2.definition)
  return .object ((parsed.map (·.1)).filter (· ≠ "__proto__")) fun key =>
    ((parsed.find? (·.1 = key)).map (·.2)).getD .undefined

section

variable (isoTime : String → Option ℤ) (classes : SchemaClasses)

/-- `isoTime` is the time of a text that is a date and time in the ISO format and valid. -/
def parseValue : Value → ValueDefinition → String → Except DataError Value
  | .object keys field, .schema schemaClass, _ =>
    parseFields classes schemaClass (fun key => if key ∈ keys then field key else ordinary key)
      (fun key definition =>
        if key ∈ keys then parseValue (field key) definition key else .error
          (mismatch key definition))
  | .date _, .schema schemaClass, _ =>
    parseFields classes schemaClass ordinary fun key definition => .error (mismatch key definition)
  | .array length item, .array definition, path => do
    let items ← (List.range length).mapM fun i => parseValue (item i) definition s!"{path}[{i}]"
    return .array length fun i => items.getD i .undefined
  | .string s, .string, _ => .ok (.string s)
  | .string s, .identity, path =>
    if s = "" then .error (mismatch path .identity) else .ok (.string s)
  | .string s, .dateTime, path =>
    match isoTime s with
    | some time => .ok (.date (some time))
    | none => .error (mismatch path .dateTime)
  | .date time, .dateTime, path =>
    match time with
    | some time => .ok (.date (some time))
    | none => .error (mismatch path .dateTime)
  | .number n, .number, path =>
      if n.isFinite then .ok (.number n) else .error (mismatch path .number)
  | .bool b, .boolean, _ => .ok (.bool b)
  | _, definition, path => .error (mismatch path definition)

def parse (schemaClass : String) (stored : StoredSchemaValue) : Except DataError Value :=
  match stored.value with
  | .object .. | .date _ =>
    parseFields classes schemaClass stored.read fun key definition =>
      parseValue isoTime classes (stored.read key) definition key
  | _ => .error (.validation "$" "must be an object")

/-! ### Migration -/

def migrationValue : Value → Option Value
  | .object keys field => some (.object keys field)
  | .date _ => some (.object [] fun _ => .undefined)
  | _ => none

def requirePositiveVersion (version : ℕ) (label : String) : Except DataError Unit :=
  ensure (0 < version) (.range s!"{label} must be a positive integer")

def migrateTo (options : SchemaOptions) (value : Value) (version : ℕ) : Except DataError Value := do
  let step ← okOr (options.migrations version)
    (.migration (version - 1) version s!"Missing migration to schema version {version}")
  okOr ((migrationValue value).bind step)
    (.migration (version - 1) version s!"Migration to schema version {version} failed")

/-- The stored value in the present version, and as a value of the class. -/
def migratedStoredValue (schemaClass : String) (stored : StoredSchemaValue) :
    Except DataError (StoredSchemaValue × Value) := do
  let options ← okOr (classes.options schemaClass) (.type "Class is not decorated with @Schema")
  requirePositiveVersion stored.version "Stored schema version"
  ensure (stored.version ≤ options.version) (.migration stored.version options.version
    s!"Cannot migrate schema version {stored.version} to older version {options.version}")
  if stored.version = options.version then
    return (stored, ← parse isoTime classes schemaClass stored)
  else do
    let value ← (List.range' (stored.version + 1) (options.version - stored.version)).foldlM
      (migrateTo options) stored.value
    let migrated : StoredSchemaValue := ⟨options.version, value, ordinary⟩
    let parsed ← (parse isoTime classes schemaClass migrated).mapError fun _ =>
      .migration stored.version options.version
        s!"Migrated value does not match schema version {options.version}"
    return (migrated, parsed)

end

/-! ### What parses -/

variable {isoTime : String → Option ℤ} {classes : SchemaClasses} {schemaClass : String}
  {stored migrated : StoredSchemaValue} {parsed : Value}

def Fits (isoTime : String → Option ℤ) (classes : SchemaClasses) (entry : String × FieldDefinition)
    (v : Value) : Prop :=
  (entry.2.optional = true ∧ v.isUndefined = true) ∨
    ∃ parsed, parseValue isoTime classes v entry.2.definition entry.1 = .ok parsed

theorem exists_parseFields_eq_ok_iff {read : String → Value} :
    (∃ parsed, parseFields classes schemaClass read
        (fun key definition => parseValue isoTime classes (read key) definition key) = .ok parsed) ↔
      (classes.options schemaClass).isSome = true ∧
        ∀ entry ∈ classes.fields schemaClass, Fits isoTime classes entry (read entry.1) := by
  have hparsed := exists_mapM_eq_ok_iff (l := (classes.fields schemaClass).filter fun entry =>
      !(entry.2.optional && (read entry.1).isUndefined))
    (f := fun entry => do
      return (entry.1, ← parseValue isoTime classes (read entry.1) entry.2.definition entry.1))
  have hfits : ∀ entry : String × FieldDefinition, Fits isoTime classes entry (read entry.1) ↔
        ((!(entry.2.optional && (read entry.1).isUndefined)) = true →
          ∃ a,
            (do return (entry.1, ← parseValue isoTime classes (read entry.1) entry.2.definition
            entry.1)) =
            Except.ok (ε := DataError) a) := by
    intro entry
    simp only [Fits, bind_eq_ok, pure_eq_ok, ← Bool.and_eq_true, Bool.not_eq_true']
    cases entry.2.optional && (read entry.1).isUndefined <;> simp
  simp only [List.mem_filter, and_imp, ← hfits] at hparsed
  rw [← hparsed]
  simp only [parseFields, bind_eq_ok, ensure_eq_ok, pure_eq_ok]
  constructor
  · rintro ⟨_, -, hoptions, results, hresults, -⟩
    exact ⟨hoptions, results, hresults⟩
  · rintro ⟨hoptions, results, hresults⟩
    exact ⟨_, (), hoptions, results, hresults, rfl⟩

/-- **A value parses exactly if it is an object in which every field of the class fits.** -/
theorem exists_parse_eq_ok_iff : (∃ parsed, parse isoTime classes schemaClass stored = .ok parsed) ↔
      (migrationValue stored.value).isSome = true ∧ (classes.options schemaClass).isSome = true ∧
        ∀ entry ∈ classes.fields schemaClass, Fits isoTime classes entry (stored.read entry.1) := by
  rw [← exists_parseFields_eq_ok_iff]
  unfold parse
  cases stored.value <;> simp [migrationValue]

/-- **What migration gives** is of the present version and parses. -/
theorem migratedStoredValue_eq_ok
    (h : migratedStoredValue isoTime classes schemaClass stored = .ok (migrated, parsed)) :
    parse isoTime classes schemaClass migrated = .ok parsed ∧
      (migrated = stored ∨ migrated.inherits = ordinary) ∧
      ∃ options, classes.options schemaClass = some options ∧ migrated.version = options.version ∧
        0 < options.version := by
  simp only [migratedStoredValue, requirePositiveVersion, bind_eq_ok, okOr_eq_ok, ensure_eq_ok] at h
  obtain ⟨options, hoptions, -, hpositive, -, hle, h⟩ := h
  split_ifs at h with hversion
  · simp only [bind_eq_ok, pure_eq_ok, Prod.mk.injEq] at h
    obtain ⟨_, hparse, rfl, rfl⟩ := h
    exact ⟨hparse, .inl rfl, options, hoptions, hversion, hversion ▸ hpositive⟩
  · simp only [bind_eq_ok, pure_eq_ok, mapError_eq_ok, Prod.mk.injEq] at h
    obtain ⟨value, -, _, hparse, rfl, rfl⟩ := h
    exact ⟨hparse, .inr rfl, options, hoptions, rfl, hpositive.trans_le hle⟩

theorem migratedStoredValue_of_parse {options : SchemaOptions}
    (hoptions : classes.options schemaClass = some options) (hpositive : 0 < options.version)
    (hversion : stored.version = options.version)
    (hparse : parse isoTime classes schemaClass stored = .ok parsed) :
    migratedStoredValue isoTime classes schemaClass stored = .ok (stored, parsed) := by
  simp [migratedStoredValue, requirePositiveVersion, hoptions, hversion, hpositive, hparse]

end Jolt.Sdk.Schemas

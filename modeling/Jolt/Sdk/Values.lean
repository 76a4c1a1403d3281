import Mathlib

/-! # Values of the SDK

The values that records hold in the SDK (`data.ts`), and the equality by which it compares them
(`storedValuesEqual`). Records are read as JSON; migrations and parsed values also bring dates and
`undefined`, and what an object inherits are functions. An object is given by its own keys, in the
order in which they were added, and its fields; an array by its length and its items, without holes,
which JSON does not have.

What a value means (`meaning`) leaves out the order of keys, so that values with the same fields
have the same meaning. The equality of the SDK looks at the own keys of objects, of which a date has
none. So it is the equality of what is left of the meanings without the times of dates
(`storedValuesEqual_iff`). -/

namespace Jolt.Sdk.Values

open List

/-! ### Values -/

structure JsNumber where
  bits : UInt64
deriving DecidableEq

namespace JsNumber

def exponent (n : JsNumber) : ℕ := n.bits.toNat / 2 ^ 52 % 2 ^ 11

def isFinite (n : JsNumber) : Bool := n.exponent ≠ 2 ^ 11 - 1

def isNaN (n : JsNumber) : Bool := !n.isFinite && n.bits.toNat % 2 ^ 52 ≠ 0

/-- The number as `Object.is` tells it from others: all that are not a number are one. -/
def value (n : JsNumber) : Option UInt64 := if n.isNaN then none else some n.bits

def ofNat (n : ℕ) : JsNumber := ⟨(Float.ofNat n).toBits⟩

end JsNumber

inductive Value where
  | undefined
  | null
  | bool (b : Bool)
  | number (n : JsNumber)
  | string (s : String)
  | function (name : String)
  /-- A date without a time is invalid. -/
  | date (time : Option ℤ)
  | array (length : ℕ) (item : ℕ → Value)
  | object (keys : List String) (field : String → Value)

namespace Value

def isUndefined : Value → Bool
  | undefined => true
  | _ => false

def keys : Value → List String
  | object keys _ => keys.dedup
  | _ => []

/-- The own field with the key, if there is one. -/
def own? (key : String) : Value → Option Value
  | object keys field => if key ∈ keys then some (field key) else none
  | _ => none

/-- `Object.is`, of values that are no objects. -/
def is : Value → Value → Bool
  | undefined, undefined => true
  | null, null => true
  | bool b, bool b' => b = b'
  | number n, number n' => n.value = n'.value
  | string s, string s' => s = s'
  | function name, function name' => name = name'
  | _, _ => false

end Value

/-- Whether two stored values are the same, arrays and objects item by item and field by field. -/
def storedValuesEqual : Value → Value → Bool
  | .array length item, right =>
    match right with
    | .array length' item' =>
      length = length' && (List.range length).all fun i => storedValuesEqual (item i) (item' i)
    | _ => false
  | .object keys field, right =>
    match right with
    | .object keys' field' =>
      keys.dedup.length = keys'.dedup.length &&
        keys.dedup.all fun key => decide (key ∈ keys') && storedValuesEqual (field key) (field' key)
    | .date _ => keys.dedup.length = 0
    | _ => false
  | .date _, right =>
    match right with
    | .object keys' _ => keys'.dedup.length = 0
    | .date _ => true
    | _ => false
  | left, right => left.is right

/-! ### Meanings -/

/-- A value up to the order of keys: fields that an object does not have are undefined. -/
inductive Meaning where
  | undefined
  | null
  | bool (b : Bool)
  | number (n : Option UInt64)
  | string (s : String)
  | function (name : String)
  | date (time : Option ℤ)
  | array (length : ℕ) (item : ℕ → Meaning)
  | object (own : String → Bool) (field : String → Meaning)

def Value.meaning : Value → Meaning
  | undefined => .undefined
  | null => .null
  | bool b => .bool b
  | number n => .number n.value
  | string s => .string s
  | function name => .function name
  | date time => .date time
  | array length item => .array length fun i => if i < length then (item i).meaning else .undefined
  | object keys field =>
    .object (fun key => key ∈ keys) fun key =>
      if key ∈ keys then (field key).meaning else .undefined

/-- The meaning without the times of dates, which are then objects without fields. -/
def Meaning.timeless : Meaning → Meaning
  | date _ => .object (fun _ => false) fun _ => .undefined
  | array length item => .array length fun i => (item i).timeless
  | object own field => .object own fun key => (field key).timeless
  | undefined => .undefined
  | null => .null
  | bool b => .bool b
  | number n => .number n
  | string s => .string s
  | function name => .function name

/-- What the equality of the SDK sees of a value. -/
def Value.seen (v : Value) : Meaning := v.meaning.timeless

/-! ### The equality -/

theorem seen_array (length : ℕ) (item : ℕ → Value) : (Value.array length item).seen =
      .array length fun i => if i < length then (item i).seen else .undefined := by
  simp only [Value.seen, Value.meaning, Meaning.timeless, Meaning.array.injEq, true_and]
  funext i
  split_ifs <;> rfl

theorem seen_object (keys : List String) (field : String → Value) : (Value.object keys field).seen =
      .object (fun key => key ∈ keys) fun key =>
        if key ∈ keys then (field key).seen else .undefined := by
  simp only [Value.seen, Value.meaning, Meaning.timeless, Meaning.object.injEq, true_and]
  funext key
  split_ifs <;> rfl

theorem seen_date (time : Option ℤ) : (Value.date time).seen = .object (fun _ => false) fun _ =>
    .undefined := rfl

theorem keys_iff {keys keys' : List String} :
    (keys.dedup.length = keys'.dedup.length ∧ ∀ key ∈ keys, key ∈ keys') ↔ ∀ key, key ∈ keys ↔
      key ∈ keys' := by
  simp only [← card_toFinset]
  constructor
  · rintro ⟨hcard, hsub⟩ key
    have hsub' : keys.toFinset ⊆ keys'.toFinset := fun key hkey => by
      simpa using hsub key (by simpa using hkey)
    have heq := Finset.eq_of_subset_of_card_le hsub' hcard.ge
    simpa using Finset.ext_iff.mp heq key
  · intro h
    refine ⟨congrArg Finset.card (Finset.ext fun key => ?_), fun key hkey => (h key).mp hkey⟩
    simpa using h key

theorem isEmpty_iff {keys : List String} : keys.dedup.length = 0 ↔ ∀ key, key ∉ keys := by
  simp [eq_nil_iff_forall_not_mem]

/-- **The equality of the SDK is the equality of what it sees**, and so an equivalence. -/
theorem storedValuesEqual_iff (left right : Value) : storedValuesEqual left right = true ↔
    left.seen = right.seen := by
  induction left generalizing right with
  | array length item ih =>
    cases right with
    | array length' item' =>
      simp only [storedValuesEqual, seen_array, Bool.and_eq_true, decide_eq_true_eq, all_eq_true,
        mem_range, Meaning.array.injEq, ih]
      refine and_congr_right fun hlength => ?_
      subst hlength
      constructor
      · intro h
        funext i
        split_ifs with hi
        · exact h i hi
        · rfl
      · intro h i hi
        simpa [hi] using congrFun h i
    | _ => simp [storedValuesEqual, Value.seen, Value.meaning, Meaning.timeless]
  | object keys field ih =>
    cases right with
    | object keys' field' =>
      simp only [storedValuesEqual, seen_object, Bool.and_eq_true, decide_eq_true_eq, all_eq_true,
        mem_dedup, Meaning.object.injEq, ih]
      constructor
      · rintro ⟨hlength, hfields⟩
        have hkeys := keys_iff.mp ⟨hlength, fun key hkey => (hfields key hkey).1⟩
        refine ⟨funext fun key => decide_eq_decide.mpr (hkeys key), funext fun key => ?_⟩
        by_cases hkey : key ∈ keys
        · simp [hkey, (hkeys key).mp hkey, (hfields key hkey).2]
        · simp [hkey, mt (hkeys key).mpr hkey]
      · rintro ⟨hkeys, hfields⟩
        have hkeys : ∀ key, key ∈ keys ↔ key ∈ keys' := fun key =>
          decide_eq_decide.mp (congrFun hkeys key)
        refine ⟨(keys_iff.mpr hkeys).1, fun key hkey => ⟨(hkeys key).mp hkey, ?_⟩⟩
        simpa [hkey, (hkeys key).mp hkey] using congrFun hfields key
    | date time =>
      simp only [storedValuesEqual, seen_object, seen_date, decide_eq_true_eq, isEmpty_iff,
        Meaning.object.injEq]
      constructor
      · intro h
        exact ⟨funext fun key => by simp [h key], funext fun key => by simp [h key]⟩
      · rintro ⟨h, -⟩ key
        simpa using congrFun h key
    | _ => simp [storedValuesEqual, Value.seen, Value.meaning, Meaning.timeless]
  | date time =>
    cases right with
    | object keys' field' =>
      simp only [storedValuesEqual, seen_object, seen_date, decide_eq_true_eq, isEmpty_iff,
        Meaning.object.injEq]
      constructor
      · intro h
        exact ⟨funext fun key => by simp [h key], funext fun key => by simp [h key]⟩
      · rintro ⟨h, -⟩ key
        simpa using congrFun h.symm key
    | date time' => simp [storedValuesEqual, seen_date]
    | _ => simp [storedValuesEqual, Value.seen, Value.meaning, Meaning.timeless]
  | _ =>
    cases right <;> simp [storedValuesEqual, Value.is, Value.seen, Value.meaning, Meaning.timeless]

theorem seen_eq_of_meaning_eq {v w : Value} (h : v.meaning = w.meaning) : v.seen = w.seen :=
  congrArg Meaning.timeless h

/-- **The equality of the SDK is an equivalence**, although it takes dates for empty objects. -/
theorem storedValuesEqual_equivalence : Equivalence fun left right =>
    storedValuesEqual left right = true := by
  simp only [storedValuesEqual_iff]
  exact ⟨fun _ => rfl, Eq.symm, Eq.trans⟩

end Jolt.Sdk.Values

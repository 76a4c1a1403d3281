import Jolt.Lib.Diffs
import Jolt.Lib.ThreeWay
import Jolt.Sdk.Schemas

/-! # Merging concurrent updates

When devices have updated a record at the same time, the SDK merges their updates field by field,
with the record that all of them have seen as the base (`mergeConcurrentPresentUpdates` in
`data.ts`). The changes of the alternatives are collected one alternative after the other, a later
change of a field in place of an earlier one, and then made to a copy of the base.

What it computes is the three-way merge by what the SDK sees of values, except for a field
`__proto__` that the base does not have: assigning it changes the prototype of the copy. -/

namespace Jolt.Sdk.Merge

open Std Lib Values Schemas List ThreeWay

/-! ### Records -/

/-- A present head of a record (`BackendPresentRecord` with a revision). -/
structure PresentHead where
  version : ℕ
  value : Value
  revision : String

/-- The value is read from a text, so it inherits what every object does. -/
def PresentHead.stored (head : PresentHead) :
    StoredSchemaValue := ⟨head.version, head.value, ordinary⟩

@[simp] theorem PresentHead.stored_value (head : PresentHead) :
    head.stored.value = head.value := rfl

inductive BackendAlternativeRecord where
  | present (head : PresentHead)
  | deleted (revision : String)

structure BackendPresentRecord where
  stored : StoredSchemaValue
  revision : Option String
  observedRevisions : Option (List String)

/-- The alternatives are in the order in which the last one wins. -/
structure BackendConflictRecord where
  alternatives : List BackendAlternativeRecord
  revisions : List String
  base : Option BackendAlternativeRecord

/-! ### Objects that are changed -/

def get (v : Value) (key : String) : Value :=
  match v with
  | .object .. => (v.own? key).getD (ordinary key)
  | .array length item =>
    match (List.range length).find? (toString · = key) with
    | some i => item i
    | none => if key = "length" then .number (.ofNat length) else ordinary key
  | _ => ordinary key

structure Draft where
  keys : List String
  field : String → Value
  inherits : String → Value

namespace Draft

def spread (v : Value) : Draft := ⟨v.keys, fun key => (v.own? key).getD .undefined, ordinary⟩

def setPrototype (draft : Draft) : Value → Draft
  | .null => { draft with inherits := fun _ => .undefined }
  | .object keys field => { draft with inherits := get (.object keys field) }
  | .array length item => { draft with inherits := get (.array length item) }
  | .date time => { draft with inherits := get (.date time) }
  | .function name => { draft with inherits := get (.function name) }
  | _ => draft

/-- `draft[key] = v`: an own field is set or added, except that every object inherits how
`__proto__` is set. -/
def set (draft : Draft) (key : String) (v : Value) : Draft :=
  if key ∈ draft.keys then { draft with field := Function.update draft.field key v }
  else if key = "__proto__" then draft.setPrototype v
  else { draft with keys := draft.keys ++ [key], field := Function.update draft.field key v }

def delete (draft : Draft) (key : String) : Draft :=
  { draft with keys := draft.keys.filter (· ≠ key) }

def value (draft : Draft) : Value := .object draft.keys draft.field

end Draft

/-! ### The merge -/

/-- Whether a field has the same value, or is absent, in both. -/
def outcomesEqual : Option Value → Option Value → Bool
  | some left, some right => storedValuesEqual left right
  | none, none => true
  | _, _ => false

structure Found where
  changes : ExtTreeMap String (Option Value)
  hasFieldConflict : Bool

/-- Compare a field of an alternative with the base, and a change with the one found before. -/
def noteField (base value : Value) (found : Found) (key : String) : Found :=
  let next := value.own? key
  if outcomesEqual (base.own? key) next then found
  else
    { changes := found.changes.insert key next
      hasFieldConflict := found.hasFieldConflict || (found.changes[key]?).any
        (!outcomesEqual · next) }

def noteAlternative (base : Value) (found : Found) (value : Value) : Found :=
  (base.keys ++ value.keys).dedup.foldl (noteField base value) found

def Draft.change (draft : Draft) (entry : String × Option Value) : Draft :=
  match entry.2 with
  | some v => draft.set entry.1 v
  | none => draft.delete entry.1

structure Merged where
  record : BackendPresentRecord
  hasFieldConflict : Bool

def mergedRecord (conflict : BackendConflictRecord) (base : StoredSchemaValue) (found : Found) :
    Merged :=
  let merged := found.changes.toList.foldl Draft.change (Draft.spread base.value)
  { record :=
      { stored := ⟨base.version, merged.value, merged.inherits⟩
        revision := conflict.revisions.getLast?
        observedRevisions := some conflict.revisions }
    hasFieldConflict := found.hasFieldConflict }

section

variable (isoTime : String → Option ℤ) (classes : SchemaClasses) (schemaClass : String)

/-- The merge of the alternatives; nothing if there is no base or no alternative. -/
def mergeConcurrentPresentUpdates (conflict : BackendConflictRecord)
    (alternatives : List PresentHead) :
    Except DataError (Option Merged) :=
  match conflict.base, alternatives with
  | some (.present base), _ :: _ => do
    let base := (← migratedStoredValue isoTime classes schemaClass base.stored).1
    let found ← alternatives.foldlM
      (fun found alternative => do
        return noteAlternative base.value found
          (← migratedStoredValue isoTime classes schemaClass alternative.stored).1.value)
      ⟨∅, false⟩
    return some (mergedRecord conflict base found)
  | _, _ => return none

end

/-! ### Fields as they are seen -/

def fields (v : Value) (key : String) : Option Value := v.own? key

/-- A field as the equality of the SDK sees it. -/
def seen (outcome : Option Value) : Option Meaning := outcome.map Value.seen

def meant (outcome : Option Value) : Option Meaning := outcome.map Value.meaning

theorem outcomesEqual_iff (left right : Option Value) : outcomesEqual left right = true ↔
    seen left = seen right := by
  cases left <;> cases right <;> simp [outcomesEqual, seen, storedValuesEqual_iff]

theorem seen_eq_of_meant_eq (left right : Option Value) (h : meant left = meant right) :
    seen left = seen right := by
  cases left with
  | none =>
    cases right with
    | none => rfl
    | some w => simp [meant] at h
  | some v =>
    cases right with
    | none => simp [meant] at h
    | some w =>
      have hmeaning : v.meaning = w.meaning := by simpa [meant] using h
      simp [seen, seen_eq_of_meaning_eq hmeaning]

theorem mem_keys_iff {v : Value} {key : String} : key ∈ v.keys ↔ fields v key ≠ none := by
  cases v <;> simp [Value.keys, fields, Value.own?]

/-! ### One alternative -/

variable {base value : Value} {found : Found} {key : String} {draft : Draft} {values : List Value}

/-- The alternative has changed the field, as far as the SDK sees. -/
def Differs (base value : Value) (key : String) : Prop := seen (fields value key) ≠ seen
    (fields base key)

theorem noteField_of_not_differs (h : ¬ Differs base value key) :
    noteField base value found key = found :=
  if_pos ((outcomesEqual_iff _ _).mpr (not_not.mp h).symm)

theorem noteField_of_differs (h : Differs base value key) : noteField base value found key =
      { changes := found.changes.insert key (fields value key)
        hasFieldConflict := found.hasFieldConflict ||
          (found.changes[key]?).any (!outcomesEqual · (fields value key)) } :=
  if_neg fun hsame => h ((outcomesEqual_iff _ _).mp hsame).symm

/-- What the fields of one alternative add. Every key comes once, so each is compared with what was
found in earlier alternatives. -/
structure Notes (base value : Value) (keys : List String) (found found' : Found) : Prop where
  differs : ∀ key ∈ keys, Differs base value key → found'.changes[key]? = some (fields value key)
  same : ∀ key, key ∉ keys ∨ ¬ Differs base value key → found'.changes[key]? = found.changes[key]?
  conflict : found'.hasFieldConflict = true ↔ found.hasFieldConflict = true ∨
    ∃ key ∈ keys, Differs base value key ∧
      ∃ previous, found.changes[key]? = some previous ∧ seen previous ≠ seen (fields value key)

theorem notes_foldl (base value : Value) : ∀ {keys : List String}, keys.Nodup → ∀ found : Found,
    Notes base value keys found (keys.foldl (noteField base value) found)
  | [], _, found => ⟨nofun, fun _ _ => rfl, by simp⟩
  | k :: keys, hnodup, found => by
    obtain ⟨hk, hnodup⟩ := nodup_cons.mp hnodup
    obtain ⟨hdiffers, hsame, hconflict⟩ :=
      notes_foldl base value hnodup (noteField base value found k)
    rw [foldl_cons]
    by_cases hchanged : Differs base value k
    · have hnote : noteField base value found k =
          { changes := found.changes.insert k (fields value k)
            hasFieldConflict := found.hasFieldConflict ||
              (found.changes[k]?).any (!outcomesEqual · (fields value k)) } :=
        noteField_of_differs hchanged
      have hother : ∀ key ≠ k, (noteField base value found k).changes[key]? =
        found.changes[key]? := by
        intro key hne
        rw [hnote, ExtTreeMap.getElem?_insert]
        simp [Ne.symm hne]
      refine ⟨fun key hkey hkeyChanged => ?_, fun key hkey => ?_, ?_⟩
      · obtain rfl | hmem := mem_cons.mp hkey
        · rw [hsame key (.inl hk), hnote]
          simp
        · exact hdiffers key hmem hkeyChanged
      · have hne : key ≠ k := by
          rintro rfl
          simp [hchanged] at hkey
        rw [hsame key (by simpa [hne] using hkey), hother key hne]
      · rw [hconflict]
        have hflag : (noteField base value found k).hasFieldConflict = true ↔
          found.hasFieldConflict = true ∨
              ∃ previous, found.changes[k]? = some previous ∧
                seen previous ≠ seen (fields value k) := by
          rw [hnote]
          simp [Option.any_eq_true, ← Bool.not_eq_true, outcomesEqual_iff]
        have hrest : (∃ key ∈ keys, Differs base value key ∧ ∃ previous,
              (noteField base value found k).changes[key]? = some previous ∧
                seen previous ≠ seen (fields value key)) ↔
            ∃ key ∈ keys, Differs base value key ∧ ∃ previous, found.changes[key]? = some previous ∧
              seen previous ≠ seen (fields value key) := by
          refine exists_congr fun key => and_congr_right fun hkey => ?_
          rw [hother key fun heq => hk (heq ▸ hkey)]
        rw [hflag, hrest, or_assoc]
        simp [hchanged]
    · rw [noteField_of_not_differs hchanged] at hdiffers hsame hconflict ⊢
      refine ⟨fun key hkey hkeyChanged => ?_, fun key hkey => hsame key ?_, ?_⟩
      · obtain rfl | hmem := mem_cons.mp hkey
        · exact absurd hkeyChanged hchanged
        · exact hdiffers key hmem hkeyChanged
      · refine hkey.imp_left fun hnot hmem => hnot (mem_cons_of_mem k hmem)
      · rw [hconflict]
        simp [hchanged]

theorem mem_of_differs (h : Differs base value key) : key ∈ (base.keys ++ value.keys).dedup := by
  rw [mem_dedup, mem_append, mem_keys_iff, mem_keys_iff]
  by_contra hnone
  rw [not_or, not_not, not_not] at hnone
  exact h (by rw [hnone.1, hnone.2])

theorem noteAlternative_of_differs (h : Differs base value key) :
    (noteAlternative base found value).changes[key]? = some (fields value key) :=
  (notes_foldl base value (nodup_dedup _) found).differs key (mem_of_differs h) h

theorem noteAlternative_of_not_differs (h : ¬ Differs base value key) :
    (noteAlternative base found value).changes[key]? = found.changes[key]? :=
  (notes_foldl base value (nodup_dedup _) found).same key (.inr h)

theorem noteAlternative_hasFieldConflict :
    (noteAlternative base found value).hasFieldConflict = true ↔ found.hasFieldConflict = true ∨
      ∃ key, Differs base value key ∧
        ∃ previous, found.changes[key]? = some previous ∧ seen previous ≠ seen
          (fields value key) := by
  rw [noteAlternative, (notes_foldl base value (nodup_dedup _) found).conflict]
  refine or_congr_right (exists_congr fun key => ?_)
  rw [and_iff_right_iff_imp]
  exact fun h => mem_of_differs h.1

/-! ### All alternatives -/

/-- **What is found are the last changes, and whether two of them are in conflict.** -/
theorem found_alternatives (base : Value) (values : List Value) :
    let found := values.foldl (noteAlternative base) ⟨∅, false⟩
    (∀ key, found.changes[key]? = (ThreeWay.lastChange seen (fields base) (values.map fields)
      key).map (· key)) ∧
    (found.hasFieldConflict = true ↔ ThreeWay.Conflict seen (fields base) (values.map fields)) := by
  induction values using List.reverseRecOn with
  | nil => exact ⟨fun key => by simp [ThreeWay.lastChange], by simp [ThreeWay.Conflict]⟩
  | append_singleton values value ih =>
    obtain ⟨hchanges, hconflict⟩ := ih
    simp only [foldl_append, foldl_cons, foldl_nil, map_append, map_cons, map_nil]
    refine ⟨fun key => ?_, ?_⟩
    · by_cases hdiffers : Differs base value key
      · rw [noteAlternative_of_differs hdiffers, lastChange_append_of_changed hdiffers]
        rfl
      · rw [noteAlternative_of_not_differs hdiffers, hchanges,
          lastChange_append_of_unchanged (not_not.mp hdiffers)]
    · rw [noteAlternative_hasFieldConflict, hconflict, conflict_append_iff]
      refine or_congr_right (exists_congr fun key => and_congr_right fun _ => ?_)
      simp [hchanges key]

/-! ### The changes are made -/

/-- The own field of an object that is changed. -/
def Draft.own? (draft : Draft) (key : String) : Option Value := draft.value.own? key

/-- A field that the object does not have and that is not added by an assignment. -/
def Unassignable (draft : Draft) (key : String) : Prop := key = "__proto__" ∧ draft.own? key = none

theorem own?_set_self (h : ¬ Unassignable draft key) (v : Value) :
    (draft.set key v).own? key = some v := by
  unfold Draft.set
  split_ifs with hmem hproto
  · simp [Draft.own?, Draft.value, Value.own?, hmem]
  · exact absurd ⟨hproto, by simp [Draft.own?, Draft.value, Value.own?, hmem]⟩ h
  · simp [Draft.own?, Draft.value, Value.own?]

theorem keys_setPrototype (draft : Draft) (v : Value) :
    (draft.setPrototype v).keys = draft.keys ∧ (draft.setPrototype v).field = draft.field := by
  cases v <;> exact ⟨rfl, rfl⟩

theorem own?_set_of_ne {k : String} (h : key ≠ k) (v : Value) :
    (draft.set k v).own? key = draft.own? key := by
  unfold Draft.set
  split_ifs with hmem hproto
  · simp [Draft.own?, Draft.value, Value.own?, h]
  · simp [Draft.own?, Draft.value, Value.own?, keys_setPrototype]
  · simp [Draft.own?, Draft.value, Value.own?, h]

theorem own?_set_of_unassignable (h : Unassignable draft key) (v : Value) :
    (draft.set key v).own? key = none := by
  obtain ⟨rfl, hnone⟩ := h
  have hmem : "__proto__" ∉ draft.keys := by simpa [Draft.own?, Draft.value, Value.own?] using hnone
  simp [Draft.set, hmem, Draft.own?, Draft.value, Value.own?, keys_setPrototype]

theorem own?_delete_self (draft : Draft) (key : String) : (draft.delete key).own? key = none := by
  simp [Draft.own?, Draft.value, Draft.delete, Value.own?]

theorem own?_delete_of_ne {k : String} (h : key ≠ k) :
    (draft.delete k).own? key = draft.own? key := by
  simp [Draft.own?, Draft.value, Draft.delete, Value.own?, h]

theorem own?_change_of_ne {entry : String × Option Value} (h : key ≠ entry.1) :
    (draft.change entry).own? key = draft.own? key := by
  obtain ⟨k, v | _⟩ := entry
  · exact own?_delete_of_ne h
  · exact own?_set_of_ne h _

theorem inherits_set (h : ¬ Unassignable draft key) (v : Value) :
    (draft.set key v).inherits = draft.inherits := by
  unfold Draft.set
  split_ifs with hmem hproto
  · rfl
  · exact absurd ⟨hproto, by simp [Draft.own?, Draft.value, Value.own?, hmem]⟩ h
  · rfl

/-- **Each change is made to its field**, if the changes are of different fields. -/
theorem own?_foldl_change : ∀ {entries : List (String × Option Value)}, (entries.map (·.1)).Nodup →
    ∀ draft : Draft,
    let changed := entries.foldl Draft.change draft
    (∀ key, key ∉ entries.map (·.1) → changed.own? key = draft.own? key) ∧
    ∀ entry ∈ entries, (¬ Unassignable draft entry.1 → changed.own? entry.1 = entry.2) ∧
      (Unassignable draft entry.1 → changed.own? entry.1 = none)
  | [], _, draft => ⟨fun _ _ => rfl, nofun⟩
  | e :: entries, hnodup, draft => by
    rw [map_cons, nodup_cons] at hnodup
    obtain ⟨he, hnodup⟩ := hnodup
    obtain ⟨hother, hentries⟩ := own?_foldl_change hnodup (draft.change e)
    refine ⟨fun key hkey => ?_, fun entry hentry => ?_⟩
    · rw [map_cons, mem_cons, not_or] at hkey
      exact (hother key hkey.2).trans (own?_change_of_ne hkey.1)
    · obtain rfl | hmem := mem_cons.mp hentry
      · rw [foldl_cons, hother entry.1 he]
        obtain ⟨key, _ | v⟩ := entry
        · exact ⟨fun _ => own?_delete_self draft key, fun _ => own?_delete_self draft key⟩
        · exact ⟨fun h => own?_set_self h v, fun h => own?_set_of_unassignable h v⟩
      · have hne : entry.1 ≠ e.1 := fun heq => he (heq ▸ mem_map_of_mem hmem)
        have hsame : Unassignable (draft.change e) entry.1 ↔ Unassignable draft entry.1 := by
          rw [Unassignable, own?_change_of_ne hne, Unassignable]
        rw [← hsame]
        exact hentries entry hmem

/-! ### The merge of the fields -/

theorem own?_spread (v : Value) (key : String) : (Draft.spread v).own? key = fields v key := by
  cases v with
  | object keys field =>
    by_cases hkey : key ∈ keys <;> simp [Draft.spread, Draft.own?, Draft.value, Value.own?,
      Value.keys, fields, hkey]
  | _ => rfl

/-- No alternative adds a field `__proto__`. -/
def KeepsPrototype (base : Value) (values : List Value) : Prop :=
  fields base "__proto__" ≠ none ∨ ∀ value ∈ values, fields value "__proto__" = none

def mergedDraft (base : Value) (values : List Value) : Draft :=
  (values.foldl (noteAlternative base) ⟨∅, false⟩).changes.toList.foldl Draft.change
  (Draft.spread base)

theorem own?_mergedDraft_of_assignable (h : ¬ Unassignable (Draft.spread base) key) :
    (mergedDraft base values).own? key = ThreeWay.merge seen (fields base)
    (values.map fields) key := by
  obtain ⟨hchanges, -⟩ := found_alternatives base values
  obtain ⟨hother, hentries⟩ := own?_foldl_change
    (Diffs.nodup_map_fst_toList (values.foldl (noteAlternative base) ⟨∅, false⟩).changes)
    (Draft.spread base)
  rw [mergedDraft]
  obtain ⟨hnone, hmerge⟩ | ⟨a, ha, hmerge⟩ := merge_cases seen (fields base) (values.map fields) key
  · rw [hmerge, hother key, own?_spread]
    intro hmem
    obtain ⟨entry, hentry, rfl⟩ := mem_map.mp hmem
    rw [ExtTreeMap.mem_toList_iff_getElem?_eq_some, hchanges, hnone] at hentry
    cases hentry
  · rw [hmerge]
    have hentry :
      (key, a key) ∈ (values.foldl (noteAlternative base) ⟨∅, false⟩).changes.toList := by
      rw [ExtTreeMap.mem_toList_iff_getElem?_eq_some, hchanges, ha]
      rfl
    exact (hentries _ hentry).1 h

theorem own?_mergedDraft_of_unassignable (h : Unassignable (Draft.spread base) key) :
    (mergedDraft base values).own? key = none := by
  obtain ⟨hother, hentries⟩ := own?_foldl_change
    (Diffs.nodup_map_fst_toList (values.foldl (noteAlternative base) ⟨∅, false⟩).changes)
    (Draft.spread base)
  rw [mergedDraft]
  by_cases hmem : key ∈ (values.foldl (noteAlternative base) ⟨∅, false⟩).changes.toList.map (·.1)
  · obtain ⟨entry, hentry, rfl⟩ := mem_map.mp hmem
    exact (hentries _ hentry).2 h
  · rw [hother key hmem]
    exact h.2

/-- **The merge is the three-way merge by what is seen**, if no alternative adds a field
`__proto__`. -/
theorem own?_mergedDraft (h : KeepsPrototype base values) (key : String) :
    (mergedDraft base values).own? key = ThreeWay.merge seen (fields base)
    (values.map fields) key := by
  by_cases hunassignable : Unassignable (Draft.spread base) key
  · rw [own?_mergedDraft_of_unassignable hunassignable]
    obtain ⟨rfl, hbase⟩ := hunassignable
    rw [own?_spread] at hbase
    have hvalues := h.resolve_left (not_not.mpr hbase)
    obtain ⟨-, hmerge⟩ | ⟨a, ha, hmerge⟩ :=
      merge_cases seen (fields base) (values.map fields) "__proto__"
    · rw [hmerge, hbase]
    · obtain ⟨value, hvalue, rfl⟩ := mem_map.mp (lastChange_eq_some ha).1
      rw [hmerge, hvalues value hvalue]
  · exact own?_mergedDraft_of_assignable hunassignable

theorem inherits_foldl_change : ∀ {entries : List (String × Option Value)},
    (entries.map (·.1)).Nodup → ∀ {draft : Draft},
    (∀ entry ∈ entries, ∀ v, entry.2 = some v → ¬ Unassignable draft entry.1) →
    (entries.foldl Draft.change draft).inherits = draft.inherits
  | [], _, _, _ => rfl
  | e :: entries, hnodup, draft, h => by
    rw [map_cons, nodup_cons] at hnodup
    obtain ⟨he, hnodup⟩ := hnodup
    have hhead : (draft.change e).inherits = draft.inherits := by
      obtain ⟨key, _ | v⟩ := e
      · rfl
      · exact inherits_set (h _ mem_cons_self v rfl) v
    rw [foldl_cons, ← hhead]
    refine inherits_foldl_change hnodup fun entry hentry v hv hunassignable => ?_
    have hne : entry.1 ≠ e.1 := fun heq => he (heq ▸ mem_map_of_mem hentry)
    rw [Unassignable, own?_change_of_ne hne] at hunassignable
    exact h entry (mem_cons_of_mem e hentry) v hv hunassignable

theorem inherits_mergedDraft (h : KeepsPrototype base values) :
    (mergedDraft base values).inherits = ordinary := by
  obtain ⟨hchanges, -⟩ := found_alternatives base values
  refine inherits_foldl_change (Diffs.nodup_map_fst_toList _) fun entry hentry v hv hunassignable =>
    ?_
  obtain ⟨hkey, hbase⟩ := hunassignable
  rw [own?_spread, hkey] at hbase
  have hvalues := h.resolve_left (not_not.mpr hbase)
  -- the change is from an alternative, which has no such field
  rw [ExtTreeMap.mem_toList_iff_getElem?_eq_some, hchanges, Option.map_eq_some_iff] at hentry
  obtain ⟨a, ha, hentry⟩ := hentry
  obtain ⟨value, hvalue, rfl⟩ := mem_map.mp (lastChange_eq_some ha).1
  rw [hkey, hvalues value hvalue, hv] at hentry
  cases hentry

end Jolt.Sdk.Merge

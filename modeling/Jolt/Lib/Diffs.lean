import Std.Data.ExtTreeMap
import Mathlib.Data.List.Basic

/-! # Differences of keyed tables

A table of values which carry their own key, as it is collected from a list (`byKey`, the last value
under a key counts) and listed again (`values`). The difference of two tables is the values that are
new or not as they were (`changed`) with the keys that are gone (`removed`). Patching the old table
with it gives the new one (`patch_changed_removed`). -/

namespace Jolt.Lib.Diffs

open Std List

variable {κ β : Type} [Ord κ] [TransOrd κ] [LawfulEqOrd κ] [DecidableEq κ]

section

variable (key : β → κ) (t : ExtTreeMap κ β)

def insertAll (l : List β) : ExtTreeMap κ β := l.foldl (fun t x => t.insert (key x) x) t

def eraseAll (keys : List κ) : ExtTreeMap κ β := keys.foldl (·.erase ·) t

def byKey (l : List β) : ExtTreeMap κ β := insertAll key ∅ l

def values : List β := t.toList.map (·.2)

/-- The values of the new table that the old one does not have. -/
def changed [DecidableEq β] (old new : ExtTreeMap κ β) : List β :=
  (new.toList.filter fun row => old[row.1]? ≠ some row.2).map (·.2)

/-- The keys of the old table that the new one does not have. -/
def removed (old new : ExtTreeMap κ β) : List κ := old.keys.filter fun k => ¬ new.contains k

def patch (changed : List β) (removed : List κ) : ExtTreeMap κ β := insertAll key
    (eraseAll t removed) changed

def Keyed : Prop := ∀ k x, t[k]? = some x → key x = k

end

variable {key : β → κ} {t old new : ExtTreeMap κ β}

omit [DecidableEq κ] in
theorem nodup_map_fst_toList (t : ExtTreeMap κ β) : (t.toList.map (·.1)).Nodup := by
  rw [List.Nodup, pairwise_map]
  refine ExtTreeMap.distinct_keys_toList.imp fun hne heq => hne ?_
  rw [heq]
  exact ReflCmp.compare_self

theorem getElem?_insertAll (k : κ) : ∀ (l : List β) (t : ExtTreeMap κ β),
    (insertAll key t l)[k]? = ((l.filter (key · = k)).getLast?).or t[k]?
  | [], t => by simp [insertAll]
  | x :: l, t => by
    have hrest := getElem?_insertAll k l (t.insert (key x) x)
    rw [insertAll, foldl_cons, ← insertAll, hrest, ExtTreeMap.getElem?_insert]
    by_cases hk : key x = k
    · rw [filter_cons_of_pos (by simpa using hk), getLast?_cons]
      cases (l.filter (key · = k)).getLast? <;> simp [hk]
    · have hcmp : compare (key x) k ≠ .eq := fun hc => hk (LawfulEqOrd.compare_eq_iff_eq.mp hc)
      rw [filter_cons_of_neg (by simpa using hk), if_neg hcmp]

theorem getElem?_eraseAll (k : κ) : ∀ (keys : List κ) (t : ExtTreeMap κ β),
    (eraseAll t keys)[k]? = if k ∈ keys then none else t[k]?
  | [], t => by simp [eraseAll]
  | k' :: keys, t => by
    have hrest := getElem?_eraseAll k keys (t.erase k')
    rw [eraseAll, foldl_cons, ← eraseAll, hrest, ExtTreeMap.getElem?_erase]
    by_cases hk : k' = k
    · simp [hk]
    · have hcmp : compare k' k ≠ .eq := fun hc => hk (LawfulEqOrd.compare_eq_iff_eq.mp hc)
      simp [hcmp, Ne.symm hk]

theorem getElem?_insertAll_of_forall {l : List β} (hl : ∀ x ∈ l, new[key x]? = some x) (k : κ) :
    (insertAll key t l)[k]? = if k ∈ l.map key then new[k]? else t[k]? := by
  rw [getElem?_insertAll]
  cases hlast : (l.filter (key · = k)).getLast? with
  | some x =>
    obtain ⟨hx, hkey⟩ := mem_filter.mp (mem_of_getLast? hlast)
    have hkey : key x = k := by simpa using hkey
    subst hkey
    rw [if_pos (mem_map_of_mem hx), hl x hx]
    rfl
  | none =>
    have hnone := filter_eq_nil_iff.mp (getLast?_eq_none_iff.mp hlast)
    have hk : k ∉ l.map key := by
      intro hk
      obtain ⟨x, hx, hkey⟩ := mem_map.mp hk
      exact hnone x hx (by simpa using hkey)
    rw [if_neg hk]
    rfl

theorem keyed_byKey (l : List β) : Keyed key (byKey key l) := by
  intro k x hx
  have hnone : (∅ : ExtTreeMap κ β)[k]? = none := by simp
  rw [byKey, getElem?_insertAll, hnone, Option.or_none] at hx
  simpa using (mem_filter.mp (mem_of_getLast? hx)).2

theorem mem_of_mem_values_byKey {l : List β} {x : β} (h : x ∈ values (byKey key l)) : x ∈ l := by
  obtain ⟨row, hrow, rfl⟩ := mem_map.mp h
  have hget : (byKey key l)[row.1]? = some row.2 :=
    ExtTreeMap.mem_toList_iff_getElem?_eq_some.mp hrow
  have hnone : (∅ : ExtTreeMap κ β)[row.1]? = none := by simp
  rw [byKey, getElem?_insertAll, hnone, Option.or_none] at hget
  exact (mem_filter.mp (mem_of_getLast? hget)).1

omit [DecidableEq κ] in
theorem Keyed.getElem?_key (h : Keyed key t) {row : κ × β} (hrow : row ∈ t.toList) :
    t[key row.2]? = some row.2 := by
  have hget : t[row.1]? = some row.2 := ExtTreeMap.mem_toList_iff_getElem?_eq_some.mp hrow
  rw [h _ _ hget]
  exact hget

omit [DecidableEq κ] in
theorem mem_map_key_map_toList (h : Keyed key t) {p : κ × β → Bool} {k : κ} :
    k ∈ ((t.toList.filter p).map (·.2)).map key ↔ ∃ x, t[k]? = some x ∧ p (k, x) = true := by
  simp only [mem_map, mem_filter, exists_exists_and_eq_and]
  constructor
  · rintro ⟨row, ⟨hrow, hp⟩, rfl⟩
    have hget : t[row.1]? = some row.2 := ExtTreeMap.mem_toList_iff_getElem?_eq_some.mp hrow
    rw [h _ _ hget]
    exact ⟨row.2, hget, hp⟩
  · rintro ⟨x, hget, hp⟩
    exact ⟨(k, x), ⟨ExtTreeMap.mem_toList_iff_getElem?_eq_some.mpr hget, hp⟩, h _ _ hget⟩

/-- **A table is collected again from its values.** -/
theorem byKey_values (h : Keyed key t) : byKey key (values t) = t := by
  refine ExtTreeMap.ext_getElem? fun k => ?_
  have hvalues : ∀ x ∈ values t, t[key x]? = some x := by
    intro x hx
    obtain ⟨row, hrow, rfl⟩ := mem_map.mp hx
    exact h.getElem?_key hrow
  rw [byKey, getElem?_insertAll_of_forall hvalues]
  split_ifs with hk
  · rfl
  · cases hget : t[k]? with
    | none => simp
    | some x =>
      have hrow : (k, x) ∈ t.toList := ExtTreeMap.mem_toList_iff_getElem?_eq_some.mpr hget
      have hx : x ∈ values t := mem_map.mpr ⟨(k, x), hrow, rfl⟩
      exact absurd (mem_map.mpr ⟨x, hx, h k x hget⟩) hk

omit [DecidableEq κ] in
theorem mem_removed {k : κ} : k ∈ removed old new ↔ old[k]?.isSome ∧ new[k]? = none := by
  rw [removed, mem_filter, ExtTreeMap.mem_keys, ← ExtTreeMap.isSome_getElem?_iff_mem]
  simp

variable [DecidableEq β]

omit [DecidableEq κ] [LawfulEqOrd κ] in
theorem mem_values_of_mem_changed {x : β} (h : x ∈ changed old new) : x ∈ values new := by
  obtain ⟨row, hrow, rfl⟩ := mem_map.mp h
  exact mem_map.mpr ⟨row, (mem_filter.mp hrow).1, rfl⟩

/-- **The difference turns the old table into the new one.** -/
theorem patch_changed_removed (h : Keyed key new) : patch key old (changed old new)
    (removed old new) = new := by
  refine ExtTreeMap.ext_getElem? fun k => ?_
  have hchanged : ∀ x ∈ changed old new, new[key x]? = some x := by
    intro x hx
    obtain ⟨row, hrow, rfl⟩ := mem_map.mp hx
    exact h.getElem?_key (mem_filter.mp hrow).1
  rw [patch, getElem?_insertAll_of_forall hchanged, getElem?_eraseAll]
  by_cases hk : k ∈ (changed old new).map key
  · rw [if_pos hk]
  · rw [if_neg hk]
    rw [changed, mem_map_key_map_toList h] at hk
    cases hnew : new[k]? with
    | none =>
      cases hold : old[k]? with
      | none => simp
      | some y => rw [if_pos (mem_removed.mpr ⟨by simp [hold], hnew⟩)]
    | some x =>
      have hremoved : k ∉ removed old new := fun hr => by simp [(mem_removed.mp hr).2] at hnew
      rw [if_neg hremoved]
      by_contra hne
      exact hk ⟨x, hnew, by simpa using hne⟩

theorem eq_of_changed_removed_eq_nil (h : Keyed key new) (hchanged : changed old new = [])
    (hremoved : removed old new = []) : old = new := by
  have hpatch : patch key old (changed old new) (removed old new) = new := patch_changed_removed h
  rwa [hchanged, hremoved] at hpatch

end Jolt.Lib.Diffs

import Mathlib.Data.List.Sort

/-! # Tables of lists

A table that maps keys to the lists of what was pushed under them, as
`entry(k).or_default().push(v)` builds it. `Holds t f` says that `t` is the table of the family `f`
of lists: a key is present exactly if its list is non-empty. Two tables of the same family are equal
(`Holds.ext`).

A row is also how a list is stored conditionally: `row l` is absent when there is nothing to
store. -/

namespace Jolt.Lib.Families

open Std List ExtTreeMap

variable {κ β γ : Type*} [Ord κ] [TransOrd κ] [LawfulEqOrd κ]

/-- A list as a row of a table: absent if it is empty. -/
def row (l : List β) : Option (List β) := if l = [] then none else some l

@[simp] theorem row_nil : row ([] : List β) = none := rfl

@[simp] theorem row_eq_some {l l' : List β} : row l = some l' ↔ l = l' ∧ l ≠ [] := by
  unfold row
  split_ifs with h
  · simp [h]
  · simp [h]

@[simp] theorem getD_row (l : List β) : (row l).getD [] = l := by
    unfold row; split_ifs with h <;> simp [h]

theorem map_row {g : List β → List γ} {l : List β} (hg : g l = [] ↔ l = []) :
    (row l).map g = row (g l) := by
  by_cases h : l = []
  · have hgl : g l = [] := hg.mpr h
    rw [hgl, h]
    rfl
  · have hgl : g l ≠ [] := fun h' => h (hg.mp h')
    simp [row, h, hgl]

def pushAt (t : ExtTreeMap κ (List β)) (k : κ) (v : β) : ExtTreeMap κ (List β) :=
  t.alter k fun o => some (o.getD [] ++ [v])

def Holds (t : ExtTreeMap κ (List β)) (f : κ → List β) : Prop := ∀ k, t[k]? = row (f k)

omit [LawfulEqOrd κ] in
theorem holds_empty : Holds (∅ : ExtTreeMap κ (List β)) fun _ => [] := fun k => by simp

theorem Holds.ext {t t' : ExtTreeMap κ (List β)} {f : κ → List β} (h : Holds t f)
    (h' : Holds t' f) : t = t' :=
  ext_getElem? fun k => (h k).trans (h' k).symm

theorem Holds.pushAt [DecidableEq κ] {t : ExtTreeMap κ (List β)} {f : κ → List β} (h : Holds t f)
    (k : κ) (v : β) :
    Holds (pushAt t k v) fun k' => f k' ++ (if k = k' then some v else none).toList := by
  intro k'
  unfold Families.pushAt
  rw [getElem?_alter, h k, getD_row]
  by_cases hk : k = k'
  · subst hk
    simp [row]
  · have hc : compare k k' ≠ .eq := fun hc => hk (LawfulEqOrd.compare_eq_iff_eq.mp hc)
    rw [if_neg hc, h k']
    simp [hk]

/-! ### Tables built row by row -/

def insertSome (t : ExtTreeMap κ β) (k : κ) : Option β → ExtTreeMap κ β
  | some v => t.insert k v
  | none => t

theorem getElem?_insertSome_self (t : ExtTreeMap κ β) (k : κ) (o : Option β) :
    (insertSome t k o)[k]? = o.or t[k]? := by
  cases o <;> simp [insertSome]

theorem getElem?_insertSome_of_ne (t : ExtTreeMap κ β) {k k' : κ} (h : k ≠ k') (o : Option β) :
    (insertSome t k o)[k']? = t[k']? := by
  have hc : compare k k' ≠ .eq := fun hc => h (LawfulEqOrd.compare_eq_iff_eq.mp hc)
  cases o with
  | none => rfl
  | some v => simp [insertSome, ExtTreeMap.getElem?_insert, hc]

theorem getElem?_foldl_insertSome_of_notMem (f : κ → γ → Option β) :
    ∀ (rows : List (κ × γ)) (t : ExtTreeMap κ β) {k : κ}, (∀ r ∈ rows, r.1 ≠ k) →
      (rows.foldl (fun t r => insertSome t r.1 (f r.1 r.2)) t)[k]? = t[k]?
  | [], _, _, _ => rfl
  | r :: rows, t, k, h => by
    rw [foldl_cons, getElem?_foldl_insertSome_of_notMem f rows _ fun r' hr' =>
      h r' (mem_cons_of_mem r hr')]
    exact getElem?_insertSome_of_ne t (h r mem_cons_self) _

theorem getElem?_foldl_insertSome_of_mem (f : κ → γ → Option β) :
    ∀ (rows : List (κ × γ)) (t : ExtTreeMap κ β) {k : κ} {v : γ},
      rows.Pairwise (fun a b => a.1 ≠ b.1) → (k, v) ∈ rows → t[k]? = none →
      (rows.foldl (fun t r => insertSome t r.1 (f r.1 r.2)) t)[k]? = f k v
  | r :: rows, t, k, v, hd, hm, ht => by
    obtain ⟨hr, hd⟩ := pairwise_cons.mp hd
    rw [foldl_cons]
    rcases mem_cons.mp hm with rfl | hm
    · rw [getElem?_foldl_insertSome_of_notMem f rows _ fun r' hr' => (hr r' hr').symm,
        getElem?_insertSome_self, ht, Option.or_none]
    · refine getElem?_foldl_insertSome_of_mem f rows _ hd hm ?_
      rw [getElem?_insertSome_of_ne t (hr (k, v) hm), ht]

/-- **A table built from the rows of another one** has, at each key, what is made of the old row. -/
theorem getElem?_foldl_toList (t : ExtTreeMap κ γ) (f : κ → γ → Option β) (k : κ) :
    (t.toList.foldl (fun acc r => insertSome acc r.1 (f r.1 r.2)) ∅)[k]? = t[k]?.bind (f k) := by
  have hd : t.toList.Pairwise fun a b => a.1 ≠ b.1 := by
    refine distinct_keys_toList.imp fun h he => h ?_
    rw [he]
    exact ReflCmp.compare_self
  cases hk : t[k]? with
  | none =>
    rw [getElem?_foldl_insertSome_of_notMem f _ _ ?_]
    · simp
    · rintro r hr rfl
      rw [mem_toList_iff_getElem?_eq_some.mp hr] at hk
      cases hk
  | some v =>
    refine getElem?_foldl_insertSome_of_mem f _ _ hd ?_ (by simp)
    exact mem_toList_iff_getElem?_eq_some.mpr hk

end Jolt.Lib.Families

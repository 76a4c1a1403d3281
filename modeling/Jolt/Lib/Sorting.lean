import Mathlib.Data.List.Sort
import Mathlib.Data.List.Destutter

/-! # Sorting by a comparator

`sortBy cmp` is a stable sort by an `Ordering`-valued comparator, as the standard sorts of most
languages take one. The result is a sorted permutation (`perm_sortBy`, `pairwise_sortBy`). A stable
sort depends on the order of its input only where the comparator cannot tell two elements apart, so
if equal keys mean equal elements the sort is a function of the multiset (`sortBy_eq_of_perm`). The
first elements of a sorted list are those of a low rank (`mem_take_of_length_filter_le`), and
dropping repetitions from it keeps the first element of each key (`mem_destutter_sortBy_iff`). -/

namespace Jolt.Lib.Sorting

open Std List

variable {α β : Type*} {cmp : α → α → Ordering}

def sortBy (cmp : α → α → Ordering) (l : List α) : List α := l.insertionSort fun a b =>
    (cmp a b).isLE

theorem perm_sortBy (cmp : α → α → Ordering) (l : List α) :
    (sortBy cmp l).Perm l := perm_insertionSort _ l

@[simp] theorem mem_sortBy {l : List α} {a : α} :
    a ∈ sortBy cmp l ↔ a ∈ l := (perm_sortBy cmp l).mem_iff

@[simp] theorem sortBy_eq_nil_iff {l : List α} : sortBy cmp l = [] ↔ l = [] := by
  rw [← length_eq_zero_iff, (perm_sortBy cmp l).length_eq, length_eq_zero_iff]

theorem pairwise_sortBy [TransCmp cmp] (l : List α) : (sortBy cmp l).Pairwise fun a b =>
    (cmp a b).isLE := by
  have : Std.Total fun a b : α => (cmp a b).isLE = true := by
    refine ⟨fun a b => ?_⟩
    rw [@OrientedCmp.eq_swap _ cmp _ b a]
    cases cmp a b <;> simp
  have : IsTrans α fun a b : α => (cmp a b).isLE = true :=
    ⟨fun _ _ _ h₁ h₂ => TransCmp.isLE_trans h₁ h₂⟩
  exact pairwise_insertionSort _ l

/-- **A sort forgets the order of its input** when elements with equal keys are equal. -/
theorem sortBy_eq_of_perm [TransCmp cmp] {l l' : List α} (hp : l.Perm l')
    (heq : ∀ a ∈ l, ∀ b ∈ l, cmp a b = .eq → a = b) : sortBy cmp l = sortBy cmp l' := by
  have hperm : (sortBy cmp l).Perm (sortBy cmp l') :=
    (perm_sortBy cmp l).trans (hp.trans (perm_sortBy cmp l').symm)
  refine hperm.eq_of_pairwise ?_ (pairwise_sortBy l) (pairwise_sortBy l')
  intro a b ha hb hab hba
  refine heq a (mem_sortBy.mp ha) b (hp.mem_iff.mpr (mem_sortBy.mp hb)) ?_
  rw [@OrientedCmp.eq_swap _ cmp _ b a] at hba
  cases h : cmp a b <;> simp_all

/-! ### The first elements of a sorted list -/

section

variable {p : α → Bool} {l : List α} {a : α} {n : ℕ}

/-- **An element of a low rank is among the first.** `p` selects the elements that come no later. -/
theorem mem_take_of_length_filter_le (hp : l.Pairwise fun x y => p y = true → p x = true)
    (ha : a ∈ l) (hpa : p a = true) (hn : (l.filter p).length ≤ n) : a ∈ l.take n := by
  rw [← take_append_drop n l, mem_append] at ha
  refine ha.resolve_right fun hdrop => ?_
  rw [← take_append_drop n l] at hp hn
  have htake : (l.take n).filter p = l.take n :=
    filter_eq_self.mpr fun x hx => (pairwise_append.mp hp).2.2 x hx a hdrop hpa
  have hrest : 0 < ((l.drop n).filter p).length := length_pos_of_mem (mem_filter.mpr ⟨hdrop, hpa⟩)
  have hlength : n < l.length := by
    have hpos := length_pos_of_mem hdrop
    rw [length_drop] at hpos
    omega
  rw [filter_append, htake, length_append, length_take] at hn
  omega

/-- If nothing after the element is selected, it is among the first only if it has a low rank. -/
theorem length_filter_le_of_mem_take (hp : l.Pairwise fun x y => x = a → p y = false)
    (ha : a ∈ l.take n) : (l.filter p).length ≤ n := by
  rw [← take_append_drop n l] at hp ⊢
  have hdrop : (l.drop n).filter p = [] :=
    filter_eq_nil_iff.mpr fun y hy => by simp [(pairwise_append.mp hp).2.2 a ha y hy rfl]
  rw [filter_append, hdrop, append_nil]
  exact (length_filter_le _ _).trans (length_take_le _ _)

end

/-! ### Dropping repetitions -/

theorem mem_destutter_ne [DecidableEq α] {a : α} : ∀ {l : List α}, a ∈ l.destutter (· ≠ ·) ↔ a ∈ l
  | [] => Iff.rfl
  | b :: l => by
    rw [destutter_cons']
    induction l generalizing b with
    | nil => rfl
    | cons c l ih =>
      by_cases hbc : b = c
      · subst hbc
        rw [destutter'_cons_neg (h := not_not.mpr rfl), ih, mem_cons, mem_cons, mem_cons,
          ← or_assoc, or_self]
      · rw [destutter'_cons_pos _ hbc, mem_cons, ih, mem_cons (b := b)]

/-! ### The first element of each key -/

section

variable {κ : Type*} [DecidableEq κ] {g : α → κ} {l : List α} {a : α}
  (hcmp : ∀ a b, cmp a b = .eq ↔ g a = g b)
include hcmp

/-- A stable sort does not reorder the elements of one key. -/
theorem filter_sortBy (k : κ) : (sortBy cmp l).filter (g · = k) = l.filter (g · = k) := by
  have hsame : (l.filter (g · = k)).Pairwise fun a b => (cmp a b).isLE = true := by
    refine pairwise_of_forall_mem_list fun a ha b hb => ?_
    have hkey : g a = g b := by simp_all
    rw [(hcmp a b).mpr hkey]
    rfl
  have hsub := (sublist_insertionSort hsame filter_sublist).filter (g · = k)
  rw [filter_filter] at hsub
  simp only [Bool.and_self] at hsub
  exact (hsub.eq_of_length ((perm_sortBy cmp l).filter _).length_eq.symm).symm

omit [DecidableEq κ] in
theorem lt_of_isLE_of_ne {b : α} (hle : (cmp a b).isLE = true) (hne : g a ≠ g b) :
    cmp a b = .lt := by
  have := mt (hcmp a b).mp hne
  cases h : cmp a b <;> simp_all

/-- What is left of a sorted list has increasing keys. -/
theorem pairwise_destutter [TransCmp cmp] (hl : l.Pairwise fun a b => (cmp a b).isLE = true) :
    (l.destutter (g · ≠ g ·)).Pairwise fun a b => cmp a b = .lt := by
  have : IsTrans α fun a b => cmp a b = .lt := ⟨fun _ _ _ => TransCmp.lt_trans⟩
  have hle := (hl.sublist (destutter_sublist (fun a b => g a ≠ g b) l)).isChain
  have hne := isChain_destutter (fun a b => g a ≠ g b) l
  rw [← isChain_iff_pairwise]
  rw [isChain_iff_getElem] at hle hne ⊢
  exact fun i hi => lt_of_isLE_of_ne hcmp (hle i hi) (hne i hi)

/-- What is left of a sorted list are the first elements of each key. -/
theorem find?_of_mem_destutter [TransCmp cmp]
    (hl : l.Pairwise fun a b => (cmp a b).isLE = true)
    (ha : a ∈ l.destutter (g · ≠ g ·)) : l.find? (g · = g a) = some a := by
  cases l with
  | nil => cases ha
  | cons b l =>
    induction l generalizing b with
    | nil => simp_all
    | cons c l ih =>
      obtain ⟨hb, hc⟩ := pairwise_cons.mp hl
      rw [destutter_cons_cons] at ha
      split_ifs at ha with hbc
      · -- the keys after `b` are greater than its key
        rcases mem_cons.mp ha with rfl | ha
        · simp
        · have hmem : a ∈ c :: l := (destutter_sublist _ _).subset ha
          have hca : (cmp c a).isLE = true := by
            rcases mem_cons.mp hmem with rfl | hmem
            · exact ReflCmp.isLE_rfl
            · exact (pairwise_cons.mp hc).1 a hmem
          have hlt := lt_of_isLE_of_ne hcmp (hb c mem_cons_self) hbc
          have hne : g b ≠ g a := fun heq => by
            simpa [(hcmp b a).mpr heq] using TransCmp.lt_of_lt_of_isLE hlt hca
          rw [find?_cons_of_neg (by simpa using hne)]
          exact ih c hc ha
      · have hkeep := ih b (pairwise_cons.mpr ⟨fun x hx => hb x (mem_cons_of_mem _ hx),
          (pairwise_cons.mp hc).2⟩) ha
        have hbc := not_not.mp hbc
        by_cases hba : g b = g a
        · rw [find?_cons_of_pos (by simpa using hba)] at hkeep ⊢
          exact hkeep
        · rw [find?_cons_of_neg (by simpa using hba)] at hkeep ⊢
          rw [find?_cons_of_neg (by simpa [hbc] using hba)]
          exact hkeep

/-- **Sorting and dropping repetitions keeps the first element of each key.** -/
theorem mem_destutter_sortBy_iff [TransCmp cmp] :
    a ∈ (sortBy cmp l).destutter (g · ≠ g ·) ↔ l.find? (g · = g a) = some a := by
  have hfind : ∀ b, (sortBy cmp l).find? (g · = g b) = l.find? (g · = g b) := fun b => by
    rw [← head?_filter, filter_sortBy hcmp, head?_filter]
  have hfirst : ∀ {b}, b ∈ (sortBy cmp l).destutter (g · ≠ g ·) → l.find? (g · = g b) = some b :=
    fun hb => hfind _ ▸ find?_of_mem_destutter hcmp (pairwise_sortBy l) hb
  refine ⟨hfirst, fun ha => ?_⟩
  have hkeys : ((sortBy cmp l).destutter (g · ≠ g ·)).map g =
      ((sortBy cmp l).map g).destutter (· ≠ ·) := map_destutter fun _ _ _ _ => Iff.rfl
  have hmem : g a ∈ ((sortBy cmp l).destutter (g · ≠ g ·)).map g := by
    rw [hkeys, mem_destutter_ne]
    exact mem_map_of_mem (mem_sortBy.mpr (mem_of_find?_eq_some ha))
  obtain ⟨b, hb, hkey⟩ := mem_map.mp hmem
  have hsome := hfirst hb
  rw [hkey, ha] at hsome
  exact Option.some.inj hsome ▸ hb

end

/-! ### Lexicographic comparators -/

theorem compareLex_eq_iff {cmp₁ cmp₂ : α → α → Ordering} {a b : α} :
    compareLex cmp₁ cmp₂ a b = .eq ↔ cmp₁ a b = .eq ∧ cmp₂ a b = .eq := by
      simp [compareLex, Ordering.then_eq_eq]

theorem compareOn_eq_iff [Ord β] [LawfulEqOrd β] {f : α → β} {a b : α} :
    compareOn f a b = .eq ↔ f a = f b :=
  LawfulEqOrd.compare_eq_iff_eq

end Jolt.Lib.Sorting

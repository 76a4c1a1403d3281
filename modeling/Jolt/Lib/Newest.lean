import Mathlib.Data.List.Sort

/-! # Keeping the newest

A holder that replaces what it holds by whatever is newer under a comparator. What it holds after a
set of offers is a newest element of the set (`IsNewest`), so offers can come in any order,
repeatedly, and through other holders that pass on only what they hold (`IsNewest.insert`,
`IsNewest.of_cofinal`). If elements the comparator cannot tell apart are equal, what is held is
determined by the set (`IsNewest.unique`). -/

namespace Jolt.Lib.Newest

open Std List

variable {α : Type*} {cmp : α → α → Ordering} {s t : Set α} {held : Option α}

/-- Replace what is held by `x` if that is newer. -/
def keepNewer (cmp : α → α → Ordering) (held : Option α) (x : α) : Option α :=
  match held with
  | none => some x
  | some h => if cmp x h = .gt then some x else some h

/-- `held` is a newest element of `s`, and nothing only if there is none. -/
structure IsNewest (cmp : α → α → Ordering) (s : Set α) (held : Option α) : Prop where
  mem : ∀ a, held = some a → a ∈ s
  newest : ∀ a, held = some a → ∀ x ∈ s, cmp x a ≠ .gt
  empty : held = none → s = ∅

theorem keepNewer_eq_some {x a : α} (h : keepNewer cmp held x = some a) :
    a = x ∨ held = some a := by
  unfold keepNewer at h
  cases held with
  | none =>
    cases h
    exact .inl rfl
  | some b =>
    simp only at h
    split_ifs at h
    · cases h
      exact .inl rfl
    · exact .inr h

theorem isNewest_none : IsNewest cmp (∅ : Set α) none := ⟨by simp, by simp, fun _ => rfl⟩

/-- **One offer.** -/
theorem IsNewest.insert [TransCmp cmp] (hs : IsNewest cmp s held) (x : α) :
    IsNewest cmp (s ∪ {x}) (keepNewer cmp held x) := by
  cases held with
  | none =>
    rw [hs.empty rfl, Set.empty_union]
    refine ⟨?_, ?_, by simp [keepNewer]⟩
    · rintro a ⟨⟩
      rfl
    · rintro a ⟨⟩ y rfl
      simp [@ReflCmp.compare_self _ cmp]
  | some h =>
    unfold keepNewer
    by_cases hx : cmp x h = .gt
    · simp only [hx, if_true]
      refine ⟨?_, ?_, by simp⟩
      · rintro a ⟨⟩
        exact .inr rfl
      · rintro a ⟨⟩ y (hy | rfl)
        · have hyh : (cmp y h).isLE := Ordering.isLE_iff_ne_gt.mpr (hs.newest h rfl y hy)
          have hhx : cmp h x = .lt := OrientedCmp.lt_of_gt hx
          simp [TransCmp.lt_of_isLE_of_lt hyh hhx]
        · simp [@ReflCmp.compare_self _ cmp]
    · simp only [hx, if_false]
      refine ⟨?_, ?_, by simp⟩
      · rintro a ⟨⟩
        exact .inl (hs.mem h rfl)
      · rintro a ⟨⟩ y (hy | rfl)
        · exact hs.newest h rfl y hy
        · exact hx

/-- **Offers one after the other.** -/
theorem IsNewest.foldl [TransCmp cmp] : ∀ {l : List α} {s : Set α} {held : Option α},
    IsNewest cmp s held → IsNewest cmp (s ∪ {x | x ∈ l}) (l.foldl (keepNewer cmp) held)
  | [], s, held, hs => by
    have hempty : s ∪ {x | x ∈ ([] : List α)} = s := by simp
    rw [hempty]
    exact hs
  | x :: l, s, held, hs => by
    have hsplit : s ∪ {y | y ∈ x :: l} = s ∪ {x} ∪ {y | y ∈ l} := by
      ext y
      simp only [Set.mem_union, Set.mem_ofPred_eq, mem_cons, Set.mem_singleton_iff, or_assoc]
    rw [hsplit]
    exact (hs.insert x).foldl

theorem isNewest_self [TransCmp cmp] (held : Option α) : IsNewest cmp {a | held = some a} held where
  mem a ha := ha
  newest a ha x hx := by
    obtain rfl : a = x := Option.some.inj (ha.symm.trans hx)
    simp [@ReflCmp.compare_self _ cmp]
  empty hnone := by simp [hnone]

theorem foldl_keepNewer_of_le {a : α} : ∀ {l : List α}, (∀ x ∈ l, cmp x a ≠ .gt) →
    l.foldl (keepNewer cmp) (some a) = some a
  | [], _ => rfl
  | x :: l, h => by
    have hx : keepNewer cmp (some a) x = some a := by simp [keepNewer, h x mem_cons_self]
    rw [foldl_cons, hx]
    exact foldl_keepNewer_of_le fun y hy => h y (mem_cons_of_mem x hy)

/-- **Passing on enough is as good as passing on everything**: elements that have one at least as
new among the offers change nothing. -/
theorem IsNewest.of_cofinal [TransCmp cmp] (hs : IsNewest cmp s held) (hsub : s ⊆ t)
    (hcof : ∀ x ∈ t, ∃ y ∈ s, cmp x y ≠ .gt) : IsNewest cmp t held where
  mem a ha := hsub (hs.mem a ha)
  newest a ha x hx := by
    obtain ⟨y, hy, hxy⟩ := hcof x hx
    have hle : (cmp x y).isLE := Ordering.isLE_iff_ne_gt.mpr hxy
    have hle' : (cmp y a).isLE := Ordering.isLE_iff_ne_gt.mpr (hs.newest a ha y hy)
    exact Ordering.isLE_iff_ne_gt.mp (TransCmp.isLE_trans hle hle')
  empty hnone := by
    refine Set.eq_empty_iff_forall_notMem.mpr fun x hx => ?_
    obtain ⟨y, hy, -⟩ := hcof x hx
    simp [hs.empty hnone] at hy

/-- **What is held is determined by the set of offers**, if equal keys mean equal elements. -/
theorem IsNewest.unique [OrientedCmp cmp] {held' : Option α} (hs : IsNewest cmp s held)
    (hs' : IsNewest cmp s held') (heq : ∀ a ∈ s, ∀ b ∈ s, cmp a b = .eq → a = b) :
    held = held' := by
  cases held with
  | none =>
    cases held' with
    | none => rfl
    | some b => simpa [hs.empty rfl] using hs'.mem b rfl
  | some a =>
    cases held' with
    | none => simpa [hs'.empty rfl] using hs.mem a rfl
    | some b =>
      have ha := hs.mem a rfl
      have hb := hs'.mem b rfl
      have hba := hs.newest a rfl b hb
      have hab := hs'.newest b rfl a ha
      rw [@OrientedCmp.eq_swap _ cmp _ b a] at hba
      refine congrArg some (heq a ha b hb ?_)
      cases h : cmp a b <;> simp_all

end Jolt.Lib.Newest

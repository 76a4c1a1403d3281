import Mathlib.Data.List.Sort
import Mathlib.Data.List.Induction

/-! # The last of the greatest

Elements are offered one after the other. An element that is good and whose rank is at least the
rank of what is held replaces it, so that among good elements of the same rank the last one stays.
What is held in the end is then a greatest one among the good elements, if there is one that is not
below what was held before (`foldl_adopt_cases`), and it is the last one offered
(`foldl_adopt_concat`).

So the order of the offers does not matter exactly if there is at most one greatest element
(`foldl_adopt_perm_iff`). -/

namespace Jolt.Lib.LastGreatest

open List

variable {α : Type*} (good : α → Prop) [DecidablePred good] (rank : α → ℕ)

/-- Replace what is held by a good element that does not rank below it. -/
def adopt (held : Option α) (x : α) : Option α :=
  if good x ∧ ∀ h ∈ held, rank h ≤ rank x then some x else held

/-- `x` is a good element of `l`, and neither what is held nor a good element of `l` ranks above
it. -/
structure Greatest (good : α → Prop) (rank : α → ℕ) (held : Option α) (l : List α) (x : α) :
    Prop where
  mem : x ∈ l
  isGood : good x
  above : ∀ h ∈ held, rank h ≤ rank x
  greatest : ∀ y ∈ l, good y → rank y ≤ rank x

variable {good rank} {held : Option α} {l l' : List α} {x : α}

omit [DecidablePred good] in
theorem Greatest.of_perm (h : Greatest good rank held l x) (hp : l.Perm l') :
    Greatest good rank held l' x :=
  ⟨hp.mem_iff.mp h.mem, h.isGood, h.above, fun y hy => h.greatest y (hp.mem_iff.mpr hy)⟩

/-- **What is held in the end** is a greatest element, or what was held before if there is none. -/
theorem foldl_adopt_cases (good : α → Prop) [DecidablePred good] (rank : α → ℕ) (held : Option α)
    (l : List α) :
    (∃ x, Greatest good rank held l x ∧ l.foldl (adopt good rank) held = some x) ∨
      (∀ x ∈ l, good x → ∃ h ∈ held, rank x < rank h) ∧ l.foldl (adopt good rank) held = held := by
  induction l using List.reverseRecOn with
  | nil => exact .inr ⟨by simp, rfl⟩
  | append_singleton l x ih =>
    rw [foldl_append, foldl_cons, foldl_nil]
    rcases ih with ⟨g, hg, heq⟩ | ⟨hnone, heq⟩
    · left
      rw [heq, adopt]
      split_ifs with hx
      · -- The new element takes over, and ranks no lower than the greatest so far.
        obtain ⟨hgood, hle⟩ := hx
        have hgx : rank g ≤ rank x := hle g rfl
        refine ⟨x, ⟨by simp, hgood, fun h hh => (hg.above h hh).trans hgx, fun y hy hy' => ?_⟩, rfl⟩
        rcases mem_append.mp hy with hy | hy
        · exact (hg.greatest y hy hy').trans hgx
        · rw [mem_singleton.mp hy]
      · refine ⟨g, ⟨mem_append_left _ hg.mem, hg.isGood, hg.above, fun y hy hy' => ?_⟩, rfl⟩
        rcases mem_append.mp hy with hy | hy
        · exact hg.greatest y hy hy'
        · rw [mem_singleton.mp hy] at hy' ⊢
          by_contra hlt
          refine hx ⟨hy', fun h hh => ?_⟩
          rw [← Option.some.inj hh]
          omega
    · rw [heq, adopt]
      split_ifs with hx
      · obtain ⟨hgood, hle⟩ := hx
        refine .inl ⟨x, ⟨by simp, hgood, hle, fun y hy hy' => ?_⟩, rfl⟩
        rcases mem_append.mp hy with hy | hy
        · obtain ⟨h, hh, hlt⟩ := hnone y hy hy'
          have := hle h hh
          omega
        · rw [mem_singleton.mp hy]
      · refine .inr ⟨fun y hy hy' => ?_, rfl⟩
        rcases mem_append.mp hy with hy | hy
        · exact hnone y hy hy'
        · rw [mem_singleton.mp hy] at hy' ⊢
          by_contra hlt
          refine hx ⟨hy', fun h hh => ?_⟩
          by_contra hgt
          exact hlt ⟨h, hh, by omega⟩

theorem foldl_adopt_concat (h : Greatest good rank held (l ++ [x]) x) :
    (l ++ [x]).foldl (adopt good rank) held = some x := by
  rw [foldl_append, foldl_cons, foldl_nil, adopt, if_pos]
  refine ⟨h.isGood, fun g hg => ?_⟩
  rcases foldl_adopt_cases good rank held l with ⟨y, hy, heq⟩ | ⟨-, heq⟩
  · have hgy : y = g := Option.some.inj (heq.symm.trans hg)
    rw [← hgy]
    exact h.greatest y (mem_append_left _ hy.mem) hy.isGood
  · rw [heq] at hg
    exact h.above g hg

/-- **The order of the offers does not matter** exactly if there is at most one greatest element. -/
theorem foldl_adopt_perm_iff : (∀ l₁ l₂ : List α, l₁.Perm l → l₂.Perm l →
      l₁.foldl (adopt good rank) held = l₂.foldl (adopt good rank) held) ↔
      ∀ x y, Greatest good rank held l x → Greatest good rank held l y → x = y := by
  constructor
  · intro h x y hx hy
    -- Either of them can be offered last.
    have hlast : ∀ z, Greatest good rank held l z → ∃ l₁ : List α, l₁.Perm l ∧
        l₁.foldl (adopt good rank) held = some z := by
      intro z hz
      obtain ⟨front, back, rfl⟩ := append_of_mem hz.mem
      have hp : (front ++ back ++ [z]).Perm (front ++ z :: back) := by
        rw [append_assoc]
        exact List.Perm.append_left front (perm_append_singleton z back)
      exact ⟨_, hp, foldl_adopt_concat (hz.of_perm hp.symm)⟩
    obtain ⟨l₁, hp₁, heq₁⟩ := hlast x hx
    obtain ⟨l₂, hp₂, heq₂⟩ := hlast y hy
    have heq := h l₁ l₂ hp₁ hp₂
    rw [heq₁, heq₂] at heq
    exact Option.some.inj heq
  · intro h l₁ l₂ hp₁ hp₂
    rcases foldl_adopt_cases good rank held l₁ with ⟨x, hx, heq₁⟩ | ⟨hnone, heq₁⟩ <;>
      rcases foldl_adopt_cases good rank held l₂ with ⟨y, hy, heq₂⟩ | ⟨hnone', heq₂⟩
    · rw [heq₁, heq₂, h x y (hx.of_perm hp₁) (hy.of_perm hp₂)]
    · obtain ⟨g, hg, hlt⟩ := hnone' x ((hp₁.trans hp₂.symm).mem_iff.mp hx.mem) hx.isGood
      have := hx.above g hg
      omega
    · obtain ⟨g, hg, hlt⟩ := hnone y ((hp₂.trans hp₁.symm).mem_iff.mp hy.mem) hy.isGood
      have := hy.above g hg
      omega
    · rw [heq₁, heq₂]

end Jolt.Lib.LastGreatest

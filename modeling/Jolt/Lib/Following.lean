import Mathlib.Data.List.Induction
import Mathlib.Data.List.Basic

/-! # One element after another

`[a, b].Sublist l` says that some occurrence of `b` comes after one of `a` in `l`. How this relation
grows with the list, for loops that remember the last element of a kind. -/

namespace Jolt.Lib.Following

open List

variable {α : Type*} {l : List α}

theorem pair_sublist_concat {a b x : α} : [a, b].Sublist (l ++ [x]) ↔ [a, b].Sublist l ∨
    (a ∈ l ∧ b = x) := by
  constructor
  · intro h
    obtain ⟨l₁, l₂, he, h₁, h₂⟩ := sublist_append_iff.mp h
    rcases sublist_singleton.mp h₂ with rfl | rfl
    · left
      rw [append_nil] at he
      rwa [he]
    · right
      obtain ⟨rfl, rfl⟩ : l₁ = [a] ∧ b = x := by rcases l₁ with _ | ⟨y, _ | ⟨z, l₁⟩⟩ <;> simp_all
      exact ⟨singleton_sublist.mp h₁, rfl⟩
  · rintro (h | ⟨ha, rfl⟩)
    · exact h.trans (sublist_append_left l [x])
    · exact (singleton_sublist.mpr ha).append (List.Sublist.refl [b])

theorem getLast?_filter_or_followed {p : α → Prop} [DecidablePred p] {a : α}
    (ha : a ∈ l) (hp : p a) :
    (l.filter p).getLast? = some a ∨ ∃ b, [a, b].Sublist l ∧ p b := by
  induction l using List.reverseRecOn with
  | nil => simp at ha
  | append_singleton l x ih =>
    rcases mem_append.mp ha with ha | ha
    · by_cases hx : p x
      · exact .inr ⟨x, pair_sublist_concat.mpr (.inr ⟨ha, rfl⟩), hx⟩
      · rcases ih ha with h | ⟨b, hb, hpb⟩
        · left; simpa [hx] using h
        · exact .inr ⟨b, pair_sublist_concat.mpr (.inl hb), hpb⟩
    · left
      obtain rfl : a = x := by simpa using ha
      simp [hp]

theorem mem_iff_getLast?_or_mem_dropLast {a : α} : a ∈ l ↔ l.getLast? = some a ∨
    a ∈ l.dropLast := by
  rcases eq_nil_or_concat l with rfl | ⟨l, x, rfl⟩
  · simp
  · rw [concat_eq_append, dropLast_concat, getLast?_concat, mem_append]
    simp only [mem_singleton, Option.some.injEq, eq_comm (a := a)]
    exact or_comm

end Jolt.Lib.Following

import Mathlib.Data.List.Basic

/-! # Changing the first element that fits

`updateFirst fits change` changes the element that `find? fits` finds and leaves the others, as a
search for a mutable reference does. -/

namespace Jolt.Lib.FirstMatch

open List

variable {α β : Type} {fits : α → Bool} {change : α → α}

/-- Change the first element that fits (`iter_mut().find(..)`). -/
def updateFirst (fits : α → Bool) (change : α → α) : List α → List α
  | [] => []
  | a :: l => if fits a then change a :: l else a :: updateFirst fits change l

theorem mem_updateFirst {b : α} :
    ∀ {l : List α}, b ∈ updateFirst fits change l → b ∈ l ∨ ∃ a, l.find? fits = some a ∧
      b = change a
  | [], h => by cases h
  | a :: l, h => by
    unfold updateFirst at h
    split_ifs at h with hfits
    · rcases mem_cons.mp h with rfl | h
      · exact .inr ⟨a, find?_cons_of_pos hfits, rfl⟩
      · exact .inl (mem_cons_of_mem a h)
    · rcases mem_cons.mp h with rfl | h
      · exact .inl mem_cons_self
      · rcases mem_updateFirst h with h | ⟨a', hfind, rfl⟩
        · exact .inl (mem_cons_of_mem a h)
        · exact .inr ⟨a', by rwa [find?_cons_of_neg hfits], rfl⟩

theorem find?_updateFirst_self {a : α} (hchange : fits (change a) = true) :
    ∀ {l : List α}, l.find? fits = some a → (updateFirst fits change l).find? fits = some (change a)
  | [], h => by cases h
  | b :: l, h => by
    unfold updateFirst
    by_cases hb : fits b = true
    · rw [find?_cons_of_pos hb] at h
      cases h
      rw [if_pos hb, find?_cons_of_pos hchange]
    · rw [find?_cons_of_neg hb] at h
      rw [if_neg hb, find?_cons_of_neg hb]
      exact find?_updateFirst_self hchange h

theorem mem_or_mem_updateFirst {a : α} : ∀ {l : List α}, a ∈ l →
      a ∈ updateFirst fits change l ∨ l.find? fits = some a ∧ change a ∈ updateFirst fits change l
  | b :: l, h => by
    unfold updateFirst
    by_cases hb : fits b = true
    · rw [if_pos hb]
      rcases mem_cons.mp h with rfl | h
      · exact .inr ⟨find?_cons_of_pos hb, mem_cons_self⟩
      · exact .inl (mem_cons_of_mem _ h)
    · rw [if_neg hb]
      rcases mem_cons.mp h with rfl | h
      · exact .inl mem_cons_self
      · rcases mem_or_mem_updateFirst h with h | ⟨hfind, h⟩
        · exact .inl (mem_cons_of_mem _ h)
        · exact .inr ⟨by rwa [find?_cons_of_neg hb], mem_cons_of_mem _ h⟩

theorem mem_updateFirst_of_not {a : α} (ha : fits a = false) {l : List α} (h : a ∈ l) :
    a ∈ updateFirst fits change l :=
  (mem_or_mem_updateFirst h).resolve_right fun hfound =>
    Bool.false_ne_true (ha.symm.trans (find?_some hfound.1))

theorem map_updateFirst {f : α → β} (h : ∀ a, f (change a) = f a) :
    ∀ l : List α, (updateFirst fits change l).map f = l.map f
  | [] => rfl
  | a :: l => by
    unfold updateFirst
    split_ifs
    · rw [map_cons, map_cons, h]
    · rw [map_cons, map_cons, map_updateFirst h l]

end Jolt.Lib.FirstMatch

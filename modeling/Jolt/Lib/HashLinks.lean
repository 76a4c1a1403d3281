import Mathlib.Data.List.Infix
import Mathlib.Data.Set.Function

/-! # Lists linked by digests

A list in which every element carries the digest of the element before, and the first one none.
Where the digest tells the elements apart, the digest of the last element stands for the whole list
(`Linked.eq_of_getLast`), so that one list is a prefix of another exactly if the digest of its last
element occurs there (`Linked.isPrefix_iff`). -/

namespace Jolt.Lib.HashLinks

open List

variable {β η : Type*} {previous : β → Option η} {digest : β → η} {a b l : List β} {x : β}

/-- Every element carries the digest of the one before. -/
inductive Linked (previous : β → Option η) (digest : β → η) : List β → Prop
  | nil : Linked previous digest []
  | concat {l : List β} {x : β} (hl : Linked previous digest l)
      (hx : previous x = l.getLast?.map digest) : Linked previous digest (l ++ [x])

theorem linked_concat_iff :
    Linked previous digest (l ++ [x]) ↔ Linked previous digest l ∧
      previous x = l.getLast?.map digest := by
  constructor
  · intro h
    generalize heq : l ++ [x] = l' at h
    cases h with
    | nil => simp at heq
    | concat hl hx =>
      obtain ⟨rfl, hxx⟩ := append_inj' heq rfl
      cases hxx
      exact ⟨hl, hx⟩
  · rintro ⟨hl, hx⟩
    exact hl.concat hx

theorem Linked.of_isPrefix (hb : Linked previous digest b) (h : a <+: b) :
    Linked previous digest a := by
  obtain ⟨rest, rfl⟩ := h
  induction rest using List.reverseRecOn with
  | nil => simpa using hb
  | append_singleton rest x ih =>
    rw [← append_assoc] at hb
    exact ih (linked_concat_iff.mp hb).1

section

variable (ha : Linked previous digest a) (hb : Linked previous digest b)
  (hinj : Set.InjOn digest {x | x ∈ a ∨ x ∈ b})
include ha hb hinj

/-- **The last digest stands for the list.** -/
theorem Linked.eq_of_getLast (hlast : a.getLast?.map digest = b.getLast?.map digest) : a = b := by
  induction a using List.reverseRecOn generalizing b with
  | nil =>
    simp only [getLast?_nil, Option.map_none] at hlast
    exact (getLast?_eq_none_iff.mp (Option.map_eq_none_iff.mp hlast.symm)).symm
  | append_singleton a x ih =>
    rcases eq_nil_or_concat b with rfl | ⟨b, y, rfl⟩
    · simp at hlast
    rw [concat_eq_append] at hb hinj hlast ⊢
    obtain ⟨ha', hx⟩ := linked_concat_iff.mp ha
    obtain ⟨hb', hy⟩ := linked_concat_iff.mp hb
    -- Equal digests mean equal last elements, which name the same digest before.
    have hxy : x = y := hinj (by simp) (by simp) (by simpa using hlast)
    subst hxy
    have hsub : {z | z ∈ a ∨ z ∈ b} ⊆ {z | z ∈ a ++ [x] ∨ z ∈ b ++ [x]} := by
      rintro z (hz | hz)
      · exact .inl (mem_append_left [x] hz)
      · exact .inr (mem_append_left [x] hz)
    have hrest : a = b := ih ha' hb' (hinj.mono hsub) (hx.symm.trans hy)
    rw [hrest]

/-- **A list is a prefix of another exactly if its last digest occurs there.** -/
theorem Linked.isPrefix_iff (hne : a ≠ []) : a <+: b ↔ digest (a.getLast hne) ∈ b.map digest := by
  constructor
  · intro h
    exact mem_map_of_mem (h.subset (getLast_mem hne))
  · intro h
    obtain ⟨x, hx, hdigest⟩ := mem_map.mp h
    obtain ⟨front, rest, rfl⟩ := append_of_mem hx
    have hfront : front ++ [x] <+: front ++ x :: rest := by simp
    have heq : a = front ++ [x] := by
      refine ha.eq_of_getLast (hb.of_isPrefix hfront) (hinj.mono ?_) ?_
      · rintro z (hz | hz)
        · exact .inl hz
        · exact .inr (hfront.subset hz)
      · rw [getLast?_eq_some_getLast hne]
        simp [hdigest]
    rw [heq]
    exact hfront

end

end Jolt.Lib.HashLinks

import Mathlib.Data.List.Induction
import Mathlib.Data.List.Perm.Basic

/-! # Three-way merges

A base and several alternatives, each a family of values. A merge takes every field from the last
alternative that has changed it, and from the base if none has. Values are compared by what is seen
of them, a function `f`: an alternative has changed a field if `f` tells its value from that of the
base.

If all alternatives that have changed a field have changed it to the same (there is no `Conflict`),
their order does not matter (`merge_eq_of_perm`). A merge that goes by a coarser view `g` is the one
by `f` exactly if `g` sees the last change of every field (`merge_coarser_iff`). -/

namespace Jolt.Lib.ThreeWay

open List

variable {K V W W' : Type*} {f : V → W} {g : V → W'} {base : K → V}
  {alternatives : List (K → V)} {k : K}

open Classical in
/-- The last alternative that has changed the field. -/
noncomputable def lastChange (f : V → W) (base : K → V) (alternatives : List (K → V)) (k : K) :
    Option (K → V) :=
  (alternatives.filter fun a => f (a k) ≠ f (base k)).getLast?

/-- The field as in the last alternative that has changed it. -/
noncomputable def merge (f : V → W) (base : K → V) (alternatives : List (K → V)) (k : K) : V :=
  match lastChange f base alternatives k with
  | some a => a k
  | none => base k

variable {a : K → V}

/-- Two alternatives have changed one field differently. -/
def Conflict (f : V → W) (base : K → V) (alternatives : List (K → V)) : Prop :=
  ∃ k, ∃ a ∈ alternatives, ∃ b ∈ alternatives, f (a k) ≠ f (base k) ∧ f (b k) ≠ f (base k) ∧ f
    (a k) ≠ f (b k)

/-! ### The last change -/

theorem lastChange_append_of_changed (h : f (a k) ≠ f (base k)) :
    lastChange f base (alternatives ++ [a]) k = some a := by simp [lastChange, filter_append, h]

theorem lastChange_append_of_unchanged (h : f (a k) = f (base k)) :
    lastChange f base (alternatives ++ [a]) k = lastChange f base alternatives k := by
  simp [lastChange, filter_append, h]

theorem lastChange_eq_some (h : lastChange f base alternatives k = some a) :
    a ∈ alternatives ∧ f (a k) ≠ f (base k) := by
  have hmem := mem_of_getLast? h
  simpa using hmem

theorem lastChange_eq_none_iff :
    lastChange f base alternatives k = none ↔ ∀ a ∈ alternatives, f (a k) = f (base k) := by
      simp [lastChange]

theorem merge_cases (f : V → W) (base : K → V) (alternatives : List (K → V)) (k : K) :
    (lastChange f base alternatives k = none ∧ merge f base alternatives k = base k) ∨
      ∃ a, lastChange f base alternatives k = some a ∧ merge f base alternatives k = a k := by
  unfold merge
  cases lastChange f base alternatives k with
  | none => exact .inl ⟨rfl, rfl⟩
  | some a => exact .inr ⟨a, rfl, rfl⟩

theorem merge_singleton (f : V → W) (base a : K → V) (k : K) :
    f (merge f base [a] k) = f (a k) := by
  obtain ⟨hnone, heq⟩ | ⟨b, hb, heq⟩ := merge_cases f base [a] k
  · rw [heq, lastChange_eq_none_iff.mp hnone a mem_cons_self]
  · rw [heq, mem_singleton.mp (lastChange_eq_some hb).1]

/-! ### Conflicts -/

/-- It is enough to compare each change with the last one before it. -/
theorem conflict_append_iff : Conflict f base (alternatives ++ [a]) ↔ Conflict f base alternatives ∨
      ∃ k, f (a k) ≠ f (base k) ∧ ∃ b, lastChange f base alternatives k = some b ∧ f
        (b k) ≠ f (a k) := by
  constructor
  · -- a change that differs from the new one differs from the last one, or the last one does
    have hlast : ∀ k b, b ∈ alternatives → f (b k) ≠ f (base k) → f (a k) ≠ f (base k) →
        f (b k) ≠ f (a k) → Conflict f base alternatives ∨
          ∃ k, f (a k) ≠ f (base k) ∧ ∃ b, lastChange f base alternatives k = some b ∧
            f (b k) ≠ f (a k) := by
      intro k b hb hbChanged haChanged hdiffer
      cases hlastChange : lastChange f base alternatives k with
      | none => exact absurd (lastChange_eq_none_iff.mp hlastChange b hb) hbChanged
      | some c =>
        obtain ⟨hc, hcChanged⟩ := lastChange_eq_some hlastChange
        by_cases hsame : f (c k) = f (a k)
        · exact .inl ⟨k, b, hb, c, hc, hbChanged, hcChanged, fun heq => hdiffer (heq.trans hsame)⟩
        · exact .inr ⟨k, haChanged, c, hlastChange, hsame⟩
    rintro ⟨k, b, hb, c, hc, hbChanged, hcChanged, hdiffer⟩
    rw [mem_append, mem_singleton] at hb hc
    obtain hb | rfl := hb <;> obtain hc | rfl := hc
    · exact .inl ⟨k, b, hb, c, hc, hbChanged, hcChanged, hdiffer⟩
    · exact hlast k b hb hbChanged hcChanged hdiffer
    · exact hlast k c hc hcChanged hbChanged (Ne.symm hdiffer)
    · exact absurd rfl hdiffer
  · rintro (⟨k, b, hb, c, hc, hchanged⟩ | ⟨k, hchanged, b, hb, hdiffer⟩)
    · exact ⟨k, b, mem_append_left _ hb, c, mem_append_left _ hc, hchanged⟩
    · obtain ⟨hmem, hbChanged⟩ := lastChange_eq_some hb
      exact ⟨k, b, mem_append_left _ hmem, a, by simp, hbChanged, hchanged, hdiffer⟩

/-! ### The order of the alternatives -/

/-- **Without conflicts the order of the alternatives does not matter.** -/
theorem merge_eq_of_perm {alternatives' : List (K → V)} (h : ¬ Conflict f base alternatives)
    (hperm : alternatives.Perm alternatives') (k : K) :
    f (merge f base alternatives k) = f (merge f base alternatives' k) := by
  obtain ⟨hnone, heq⟩ | ⟨a, ha, heq⟩ := merge_cases f base alternatives k <;>
    obtain ⟨hnone', heq'⟩ | ⟨b, hb, heq'⟩ := merge_cases f base alternatives' k
  · rw [heq, heq']
  · obtain ⟨hmem, hchanged⟩ := lastChange_eq_some hb
    exact absurd (lastChange_eq_none_iff.mp hnone b (hperm.mem_iff.mpr hmem)) hchanged
  · obtain ⟨hmem, hchanged⟩ := lastChange_eq_some ha
    exact absurd (lastChange_eq_none_iff.mp hnone' a (hperm.mem_iff.mp hmem)) hchanged
  · obtain ⟨hmem, hchanged⟩ := lastChange_eq_some ha
    obtain ⟨hmem', hchanged'⟩ := lastChange_eq_some hb
    rw [heq, heq']
    by_contra hne
    exact h ⟨k, a, hmem, b, hperm.mem_iff.mpr hmem', hchanged, hchanged', hne⟩

/-! ### A coarser view -/

section

variable (hfg : ∀ x y, f x = f y → g x = g y)

include hfg

theorem Conflict.of_coarser (h : Conflict g base alternatives) : Conflict f base alternatives := by
  obtain ⟨k, a, ha, b, hb, hchanged, hchanged', hdiffer⟩ := h
  exact ⟨k, a, ha, b, hb, fun heq => hchanged (hfg _ _ heq), fun heq => hchanged' (hfg _ _ heq),
    fun heq => hdiffer (hfg _ _ heq)⟩

theorem lastChange_coarser {a : K → V} (h : lastChange f base alternatives k = some a)
    (hseen : g (a k) ≠ g (base k)) : lastChange g base alternatives k = some a := by
  induction alternatives using List.reverseRecOn with
  | nil => simp [lastChange] at h
  | append_singleton alternatives b ih =>
    by_cases hb : f (b k) = f (base k)
    · rw [lastChange_append_of_unchanged hb] at h
      rw [lastChange_append_of_unchanged (hfg _ _ hb)]
      exact ih h
    · rw [lastChange_append_of_changed hb] at h
      cases h
      exact lastChange_append_of_changed hseen

/-- **The merge by the coarser view gives each field as the other does exactly if it sees the last
change of each.** -/
theorem merge_coarser_iff :
    (∀ k, f (merge g base alternatives k) = f (merge f base alternatives k)) ↔
      ∀ k a, lastChange f base alternatives k = some a → g (a k) ≠ g (base k) := by
  constructor
  · intro h k a ha hunseen
    obtain ⟨hmem, hchanged⟩ := lastChange_eq_some ha
    have hmerged : merge f base alternatives k = a k := by simp [merge, ha]
    have heq := h k
    rw [hmerged] at heq
    -- the value that was merged is the base's for the coarser view, so it is the base's
    obtain ⟨-, hbase⟩ | ⟨b, hb, hother⟩ := merge_cases g base alternatives k
    · rw [hbase] at heq
      exact hchanged heq.symm
    · rw [hother] at heq
      exact (lastChange_eq_some hb).2 ((hfg _ _ heq).trans hunseen)
  · intro h k
    obtain ⟨hnone, heq⟩ | ⟨a, ha, heq⟩ := merge_cases f base alternatives k
    · have hnone' : lastChange g base alternatives k = none :=
        lastChange_eq_none_iff.mpr fun a ha => hfg _ _ (lastChange_eq_none_iff.mp hnone a ha)
      simp [merge, hnone, hnone']
    · simp [merge, ha, lastChange_coarser hfg ha (h k a ha)]

end

end Jolt.Lib.ThreeWay

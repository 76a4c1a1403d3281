import Mathlib.Data.List.Forall2

/-! # Cutting a sequence of queues

A page takes what it can from several queues, in their order: all of each queue until one has to be
cut, and nothing of those behind it. `Cut queues runs cut` says that `runs` is such a page, one run
for each queue, and whether a queue was cut. -/

namespace Jolt.Lib.Cutting

variable {α : Type*}

/-- `runs` is what a page takes from the queues; `cut` if it had to stop inside one. -/
inductive Cut : List (List α) → List (List α) → Bool → Prop
  | nil : Cut [] [] false
  | whole {queue : List α} {queues runs : List (List α)} {cut : Bool} :
      Cut queues runs cut → Cut (queue :: queues) (queue :: runs) cut
  | here {taken left : List α} {queues : List (List α)} :
      left ≠ [] → Cut ((taken ++ left) :: queues) (taken :: queues.map fun _ => []) true

namespace Cut

variable {queues runs : List (List α)} {cut : Bool}

theorem forall₂_isPrefix (h : Cut queues runs cut) : List.Forall₂ (· <+: ·) runs queues := by
  induction h with
  | nil => exact List.Forall₂.nil
  | whole _ ih => exact List.Forall₂.cons List.prefix_rfl ih
  | @here taken left queues _ =>
    refine List.Forall₂.cons (List.prefix_append taken left) ?_
    induction queues with
    | nil => exact List.Forall₂.nil
    | cons queue queues ih => exact List.Forall₂.cons List.nil_prefix ih

theorem eq_of_not_cut (h : Cut queues runs cut) (hcut : cut = false) : runs = queues := by
  induction h with
  | nil => rfl
  | whole _ ih => rw [ih hcut]
  | here _ => cases hcut

end Cut

end Jolt.Lib.Cutting

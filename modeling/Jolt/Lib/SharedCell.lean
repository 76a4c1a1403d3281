import Mathlib.Data.Option.Basic
import Mathlib.Data.Nat.Notation

/-! # A cell that is read by snapshot and replaced if unchanged

A cell holds at most one value behind a pointer. Whoever wants to replace the value takes a snapshot
of the pointer, computes a new value from the old one while others may do the same, and has the
result put in only if the cell still holds the same pointer (`Arc::ptr_eq` on a clone that is kept,
so that the allocation is not used again). Pointers are modelled by the number of the allocation.

A result that is put in so has been computed from the value it replaces (`Taken.current`). -/

namespace Jolt.Lib.SharedCell

variable {α : Type*}

/-- A value and the allocation that holds it. -/
structure Pointer (α : Type*) where
  allocation : ℕ
  value : α

/-- A cell, empty until the first value is put in. -/
structure Cell (α : Type*) where
  allocated : ℕ
  content : Option (Pointer α)

namespace Cell

def empty : Cell α := ⟨0, none⟩

def put (cell : Cell α) (a : α) : Cell α := ⟨cell.allocated + 1, some ⟨cell.allocated, a⟩⟩

def value? (cell : Cell α) : Option α := cell.content.map (·.value)

@[simp] theorem value?_put (cell : Cell α) (a : α) : (cell.put a).value? = some a := rfl

/-- The cell is as it was when the snapshot was taken: still empty, or with the same pointer. -/
def isCurrent (cell : Cell α) (snapshot : Option (Pointer α)) : Bool :=
  match snapshot, cell.content with
  | none, none => true
  | some base, some current => base.allocation = current.allocation
  | _, _ => false

end Cell

/-- The snapshot was taken from the cell, now or earlier: its allocation is not a new one, and if
the cell holds the same allocation, it holds the same value. -/
structure Taken (cell : Cell α) (snapshot : Option (Pointer α)) : Prop where
  old : ∀ base ∈ snapshot, base.allocation < cell.allocated
  same : ∀ base ∈ snapshot, ∀ current ∈ cell.content,
    base.allocation = current.allocation → base.value = current.value

/-- A cell that could be reached: its own content is a snapshot of it. -/
def Cell.Sound (cell : Cell α) : Prop := Taken cell cell.content

theorem Cell.sound_empty : (Cell.empty : Cell α).Sound := ⟨by simp [empty], by simp [empty]⟩

theorem Cell.sound_put (cell : Cell α) (a : α) : (cell.put a).Sound := by
  refine ⟨?_, ?_⟩
  · rintro base hb
    obtain rfl : ⟨cell.allocated, a⟩ = base := Option.some.inj hb
    exact Nat.lt_succ_self _
  · rintro base hb current hc -
    rw [Option.some.inj (hb.symm.trans hc)]

variable {snapshot : Option (Pointer α)}

theorem Taken.put {cell : Cell α} (h : Taken cell snapshot) (a : α) :
    Taken (cell.put a) snapshot := by
  refine ⟨fun base hb => Nat.lt_succ_of_lt (h.old base hb), fun base hb current hc heq => ?_⟩
  obtain rfl : ⟨cell.allocated, a⟩ = current := Option.some.inj hc
  have hlt : base.allocation < cell.allocated := h.old base hb
  have heq' : base.allocation = cell.allocated := heq
  omega

/-- **Nothing was lost in between.** If the cell is as it was when the snapshot was taken, it has
the value of the snapshot. -/
theorem Taken.current {cell : Cell α} (h : Taken cell snapshot)
    (hc : cell.isCurrent snapshot = true) : snapshot.map (·.value) = cell.value? := by
  unfold Cell.isCurrent at hc
  unfold Cell.value?
  cases hs : snapshot with
  | none =>
    cases hcell : cell.content with
    | none => rfl
    | some current => simp [hs, hcell] at hc
  | some base =>
    cases hcell : cell.content with
    | none => simp [hs, hcell] at hc
    | some current =>
      simp only [hs, hcell, decide_eq_true_eq] at hc
      rw [Option.map_some, Option.map_some, h.same base hs current hcell hc]

end Jolt.Lib.SharedCell

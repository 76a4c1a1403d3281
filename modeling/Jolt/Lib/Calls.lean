import Jolt.Lib.Checks

/-! # Calls that change a state and may fail

A `Call` runs on a state and gives a value or an error, and a state in either case: a call that
fails keeps what it has done so far, as a method on `&mut self` that returns early does. Calls are
written with `do`, from checks that do not touch the state (`check`), reads and writes.

A `do` block is taken apart into the calls it makes, one equation for each, for a run that succeeds
(`run_bind_eq_ok`) and for one that fails (`run_bind_eq_error`). What every call of a block keeps,
the block keeps (`Keeps.bind`). -/

namespace Jolt.Lib.Calls

/-- A call on a state `σ` that returns a value or fails. -/
def Call (σ ε α : Type) : Type := σ → Except ε α × σ

variable {σ ε α β : Type}

namespace Call

instance : Monad (Call σ ε) where
  pure a := fun s => (.ok a, s)
  bind x f := fun s =>
    match x s with
    | (.ok a, s) => f a s
    | (.error e, s) => (.error e, s)

/-- A computation that does not touch the state. -/
def check (x : Except ε α) : Call σ ε α := fun s => (x, s)

def read (f : σ → α) : Call σ ε α := fun s => (.ok (f s), s)

def write (f : σ → σ) : Call σ ε Unit := fun s => (.ok (), f s)

/-! ### Running a call -/

variable {x : Call σ ε α} {f : α → Call σ ε β} {s t : σ} {b : β} {e : ε} {R : σ → σ → Prop}

theorem run_bind : (x >>= f) s =
      match x s with
      | (.ok a, s) => f a s
      | (.error e, s) => (.error e, s) := rfl

theorem run_bind_eq_ok : (x >>= f) s = (.ok b, t) ↔ ∃ a u, x s = (.ok a, u) ∧
    f a u = (.ok b, t) := by
  rw [run_bind]
  rcases x s with ⟨e | a, u⟩
  · simp
  · simp only [Prod.mk.injEq, Except.ok.injEq]
    constructor
    · exact fun h => ⟨a, u, ⟨rfl, rfl⟩, h⟩
    · rintro ⟨_, _, ⟨rfl, rfl⟩, h⟩
      exact h

theorem run_bind_eq_error :
    (x >>= f) s = (.error e, t) ↔ x s = (.error e, t) ∨ ∃ a u, x s = (.ok a, u) ∧
      f a u = (.error e, t) := by
  rw [run_bind]
  rcases x s with ⟨e | a, u⟩
  · simp
  · simp only [Prod.mk.injEq, Except.ok.injEq, reduceCtorEq, false_and, false_or]
    constructor
    · exact fun h => ⟨a, u, ⟨rfl, rfl⟩, h⟩
    · rintro ⟨_, _, ⟨rfl, rfl⟩, h⟩
      exact h

theorem run_bind_congr {x' : Call σ ε α} {f' : α → Call σ ε β} (hx : x' s = x s)
    (hf : ∀ a t, x s = (.ok a, t) → f' a t = f a t) : (x' >>= f') s = (x >>= f) s := by
  rw [run_bind, run_bind, hx]
  rcases h : x s with ⟨e | a, t⟩
  · rfl
  · exact hf a t h

theorem check_eq_ok {y : Except ε β} : (check y : Call σ ε β) s = (.ok b, t) ↔
    y = .ok b ∧ s = t := by
  rw [check, Prod.mk.injEq]

theorem exists_of_isOk {y : Except ε α × σ} (h : y.1.isOk = true) : ∃ a u, y = (.ok a, u) := by
  obtain ⟨e | a, u⟩ := y
  · cases h
  · exact ⟨a, u, rfl⟩

@[simp] theorem pure_apply (a : α) : (pure a : Call σ ε α) s = (.ok a, s) := rfl

@[simp] theorem check_apply (y : Except ε α) : (check y : Call σ ε α) s = (y, s) := rfl

@[simp] theorem read_apply (g : σ → α) : (read g : Call σ ε α) s = (.ok (g s), s) := rfl

@[simp] theorem write_apply (g : σ → σ) : (write g : Call σ ε Unit) s = (.ok (), g s) := rfl

@[simp] theorem read_bind (g : σ → α) : (read g >>= f) s = f (g s) s := rfl

@[simp] theorem write_bind (g : σ → σ) {k : Unit → Call σ ε β} :
    (write g >>= k) s = k () (g s) := rfl

theorem check_bind (y : Except ε α) : (check y >>= f) s =
      match y with
      | .error e => (.error e, s)
      | .ok a => f a s := by
  cases y <;> rfl

@[simp] theorem check_ok_bind (a : α) : (check (.ok a) >>= f) s = f a s := rfl

@[simp] theorem check_error_bind (e : ε) : (check (.error e) >>= f) s = (.error e, s) := rfl

/-! ### What a call keeps -/

/-- Whatever the outcome, the state afterwards is related to the state before. -/
def Keeps (R : σ → σ → Prop) (x : Call σ ε α) : Prop := ∀ s, R s (x s).2

theorem Keeps.bind (htrans : ∀ {s t u}, R s t → R t u → R s u) (hx : Keeps R x)
    (hf : ∀ a, Keeps R (f a)) :
    Keeps R (x >>= f) := by
  intro s
  have hs := hx s
  rw [run_bind]
  rcases h : x s with ⟨e | a, u⟩
  · rw [h] at hs
    exact hs
  · rw [h] at hs
    exact htrans hs (hf a u)

theorem keeps_check (hrefl : ∀ s, R s s) (y : Except ε α) : Keeps R (check y : Call σ ε α) := hrefl

theorem keeps_read (hrefl : ∀ s, R s s) (g : σ → α) : Keeps R (read g : Call σ ε α) := hrefl

theorem keeps_pure (hrefl : ∀ s, R s s) (a : α) : Keeps R (pure a : Call σ ε α) := hrefl

theorem keeps_write {g : σ → σ} (h : ∀ s, R s (g s)) : Keeps R (write g : Call σ ε Unit) := h

end Call

end Jolt.Lib.Calls

import Mathlib

/-! # Computations that may fail

Equations `x = .ok a` for computations in `Except`, as a simp set that takes a `do` block apart into
the facts under which it succeeds, and loops (`foldlM`) whose turns succeed exactly under a
condition on their element (`foldlM_eq_ok_iff`). -/

namespace Jolt.Lib.Checks

open List

universe u

variable {ε : Type*} {α β σ : Type u} {e : ε} {a : α} {x : Except ε α} {f : α → Except ε β}

/-- Fail with `e` unless `c` holds: `if !c { return Err(e) }`. -/
def ensure (c : Prop) [Decidable c] (e : ε) : Except ε Unit := if c then .ok () else .error e

@[simp] theorem ensure_eq_ok {c : Prop} [Decidable c] {u : Unit} : ensure c e = .ok u ↔ c := by
  by_cases h : c <;> simp [ensure, h]

/-- The value of an option, or the error `e` (`ok_or`). -/
def okOr (o : Option α) (e : ε) : Except ε α :=
  match o with
  | some a => .ok a
  | none => .error e

@[simp] theorem okOr_eq_ok {o : Option α} : okOr o e = .ok a ↔ o = some a := by
  cases o <;> simp [okOr]

@[simp] theorem bind_eq_ok {b : β} : (x >>= f) = .ok b ↔ ∃ a, x = .ok a ∧ f a = .ok b := by
  cases x <;> simp [Bind.bind, Except.bind]

theorem bind_eq_error : (x >>= f) = .error e ↔ x = .error e ∨ ∃ a, x = .ok a ∧ f a = .error e := by
  cases x <;> simp [Bind.bind, Except.bind]

theorem pure_ne_error : (pure a : Except ε α) ≠ .error e := nofun

theorem ok_bind (a : α) (f : α → Except ε β) : (Except.ok a >>= f) = f a := rfl

@[simp] theorem pure_eq_ok {b : α} : (pure a : Except ε α) = .ok b ↔ a = b := by
    simp [pure, Except.pure]

@[simp] theorem map_eq_ok {f : α → β} {b : β} : (f <$> x) = .ok b ↔ ∃ a, x = .ok a ∧ f a = b := by
  cases x <;> simp [Functor.map, Except.map]

@[simp] theorem mapError_eq_ok {ε' : Type*} {f : ε → ε'} : x.mapError f = .ok a ↔ x = .ok a := by
  cases x <;> simp [Except.mapError]

@[simp] theorem exists_unit_eq_ok {x : Except ε Unit} : (∃ u, x = .ok u) ↔ x = .ok () :=
  ⟨fun ⟨_, h⟩ => h, fun h => ⟨(), h⟩⟩

theorem exists_eq_ok_of_isOk (h : x.isOk = true) : ∃ a, x = .ok a := by
  cases x with
  | error e => simp [Except.isOk, Except.toBool] at h
  | ok a => exact ⟨a, rfl⟩

theorem exists_eq_ok_of_toOption_map {γ : Type*} {f : α → γ} {c : γ}
    (h : x.toOption.map f = some c) :
    ∃ a, x = .ok a ∧ f a = c := by
  cases x with
  | error e => simp [Except.toOption] at h
  | ok a => exact ⟨a, rfl, by simpa [Except.toOption] using h⟩

variable {ι : Type*}

/-- **A loop whose turns may fail.** If the turn at `a` succeeds exactly when `good a`, and then
gives `step s a`, the loop succeeds exactly when all elements are good, and then gives the fold of
`step`. -/
theorem foldlM_eq_ok_iff {turn : σ → ι → Except ε σ} {step : σ → ι → σ} {good : ι → Prop} :
    ∀ {l : List ι} {s s' : σ}, (∀ a ∈ l, ∀ s s', turn s a = .ok s' ↔ good a ∧ s' = step s a) →
      (l.foldlM turn s = .ok s' ↔ (∀ a ∈ l, good a) ∧ s' = l.foldl step s)
  | [], s, s', _ => by simp [eq_comm (a := s)]
  | a :: l, s, s', h => by
    have ih : ∀ s, l.foldlM turn s = .ok s' ↔ (∀ b ∈ l, good b) ∧ s' = l.foldl step s :=
      fun s => foldlM_eq_ok_iff fun b hb => h b (mem_cons_of_mem a hb)
    rw [foldlM_cons, bind_eq_ok]
    constructor
    · rintro ⟨s₁, h₁, h₂⟩
      obtain ⟨hg, rfl⟩ := (h a mem_cons_self s s₁).mp h₁
      obtain ⟨hl, rfl⟩ := (ih _).mp h₂
      exact ⟨by simpa [hg] using hl, rfl⟩
    · rintro ⟨hg, rfl⟩
      refine ⟨step s a, (h a mem_cons_self _ _).mpr ⟨hg a mem_cons_self, rfl⟩, ?_⟩
      exact (ih _).mpr ⟨fun b hb => hg b (mem_cons_of_mem a hb), rfl⟩

theorem exists_mapM_eq_ok_iff {f : ι → Except ε α} {l : List ι} :
    (∃ results, l.mapM f = .ok results) ↔ ∀ x ∈ l, ∃ a, f x = .ok a := by
  induction l with
  | nil => simp
  | cons x l ih =>
    simp only [mapM_cons, bind_eq_ok, pure_eq_ok, forall_mem_cons, ← ih]
    constructor
    · rintro ⟨_, a, ha, results, hresults, -⟩
      exact ⟨⟨a, ha⟩, results, hresults⟩
    · rintro ⟨⟨a, ha⟩, results, hresults⟩
      exact ⟨_, a, ha, results, hresults, rfl⟩

/-- **Checking and mapping.** If an item passes exactly when it is good, and then gives `g x`, all
pass exactly when all are good, and then the results are the map of `g`. -/
theorem mapM_eq_ok_iff {f : ι → Except ε α} {g : ι → α} {good : ι → Prop}
    (h : ∀ x a, f x = .ok a ↔ good x ∧ a = g x) {l : List ι} {results : List α} :
    l.mapM f = .ok results ↔ (∀ x ∈ l, good x) ∧ results = l.map g := by
  induction l generalizing results with
  | nil =>
    rw [mapM_nil, pure_eq_ok]
    simp [eq_comm]
  | cons x l ih =>
    simp only [mapM_cons, bind_eq_ok, pure_eq_ok, forall_mem_cons, map_cons, h, ih]
    constructor
    · rintro ⟨_, ⟨hx, rfl⟩, _, ⟨hl, rfl⟩, rfl⟩
      exact ⟨⟨hx, hl⟩, rfl⟩
    · rintro ⟨⟨hx, hl⟩, rfl⟩
      exact ⟨_, ⟨hx, rfl⟩, _, ⟨hl, rfl⟩, rfl⟩

theorem mapM_eq_ok_perm {f : ι → Except ε α} {l l' : List ι} {results : List α}
    (hperm : l.Perm l') (h : l.mapM f = .ok results) :
    ∃ results', l'.mapM f = .ok results' ∧ results.Perm results' := by
  induction hperm generalizing results with
  | nil => exact ⟨results, h, .refl _⟩
  | cons x _ ih =>
    simp only [mapM_cons, bind_eq_ok, pure_eq_ok] at h ⊢
    obtain ⟨a, ha, rest, hrest, rfl⟩ := h
    obtain ⟨rest', hrest', hperm'⟩ := ih hrest
    exact ⟨a :: rest', ⟨a, ha, rest', hrest', rfl⟩, hperm'.cons a⟩
  | swap x y l =>
    simp only [mapM_cons, bind_eq_ok, pure_eq_ok] at h ⊢
    obtain ⟨b, hb, _, ⟨a, ha, rest, hrest, rfl⟩, rfl⟩ := h
    exact ⟨a :: b :: rest, ⟨a, ha, b :: rest, ⟨b, hb, rest, hrest, rfl⟩, rfl⟩, .swap a b rest⟩
  | trans _ _ ih ih' =>
    obtain ⟨middle, hmiddle, hperm⟩ := ih h
    obtain ⟨results', hresults', hperm'⟩ := ih' hmiddle
    exact ⟨results', hresults', hperm.trans hperm'⟩

theorem mem_of_mapM_eq_ok {f : ι → Except ε α} :
    ∀ {l : List ι} {results : List α}, l.mapM f = .ok results → ∀ a ∈ results, ∃ x ∈ l, f x = .ok a
  | [], results, h, a, ha => by
    simp only [mapM_nil, pure_eq_ok] at h
    subst h
    cases ha
  | x :: l, results, h, a, ha => by
    simp only [mapM_cons, bind_eq_ok, pure_eq_ok] at h
    obtain ⟨b, hb, rest, hrest, rfl⟩ := h
    obtain rfl | ha := mem_cons.mp ha
    · exact ⟨x, mem_cons_self, hb⟩
    · obtain ⟨y, hy, hfy⟩ := mem_of_mapM_eq_ok hrest a ha
      exact ⟨y, mem_cons_of_mem x hy, hfy⟩

theorem mem_of_mapM_eq_error {f : ι → Except ε α} :
    ∀ {l : List ι} {e : ε}, l.mapM f = .error e → ∃ x ∈ l, f x = .error e
  | [], e, h => by cases h
  | x :: l, e, h => by
    rw [mapM_cons, bind_eq_error] at h
    obtain hx | ⟨a, -, h⟩ := h
    · exact ⟨x, mem_cons_self, hx⟩
    · obtain hl | ⟨results, -, h⟩ := bind_eq_error.mp h
      · obtain ⟨y, hy, hfy⟩ := mem_of_mapM_eq_error hl
        exact ⟨y, mem_cons_of_mem x hy, hfy⟩
      · exact absurd h pure_ne_error

theorem foldlM_eq_map_mapM {f : ι → Except ε α} (step : σ → α → σ) :
    ∀ (l : List ι) (s : σ), l.foldlM (fun s x => do return step s (← f x)) s =
      (fun results => results.foldl step s) <$> l.mapM f
  | [], s => rfl
  | x :: l, s => by
    rw [foldlM_cons, mapM_cons]
    cases f x with
    | error e => rfl
    | ok a =>
      have hrest := foldlM_eq_map_mapM (f := f) step l (step s a)
      simp only [ok_bind, pure_bind, hrest]
      cases l.mapM f <;> rfl

theorem forM_eq_ok_iff {check : ι → Except ε Unit} : ∀ {l : List ι}, l.forM check = .ok () ↔
    ∀ a ∈ l, check a = .ok ()
  | [] => by simp [pure, Except.pure]
  | a :: l => by
    rw [List.forM, bind_eq_ok, forall_mem_cons]
    constructor
    · rintro ⟨_, ha, hl⟩
      exact ⟨ha, forM_eq_ok_iff.mp hl⟩
    · rintro ⟨ha, hl⟩
      exact ⟨(), ha, forM_eq_ok_iff.mpr hl⟩

end Jolt.Lib.Checks

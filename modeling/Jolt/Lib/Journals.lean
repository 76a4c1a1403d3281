import Mathlib.Data.List.Pairwise
import Mathlib.Data.List.Basic
import Mathlib.Order.Basic

/-! # Bounded journals

A publisher numbers its events and keeps the last of them, so that a reader which has seen the
events up to some number, its cursor, can be given the rest. The last event may be replaced under a
new number.

A reader is `Behind` the publisher if the events that it has not seen bring its state to the
publisher's, or if some of them were dropped and this shows (`isLost`). A reader stays behind when
an event is pushed (`Behind.push`), also in place of the last one (`Behind.push_popIf`), and when it
takes the next event (`Behind.next`). One that has seen all events has the publisher's state
(`Behind.caughtUp`). States are compared by a relation, since not every change of the publisher's
state is worth an event. In the same way an event that a reader `Awaits` stays in the journal until
the reader is given it or is lost. -/

namespace Jolt.Lib.Journals

open List Option

/-- The number of the last event, and the events that are kept with their numbers. -/
structure Journal (ε : Type) where
  sequence : ℕ
  entries : List (ℕ × ε)

namespace Journal

variable {ε σ : Type} {j : Journal ε} {capacity cursor : ℕ}
variable {entry : ℕ × ε}

def empty : Journal ε := ⟨0, []⟩

/-- Drop the oldest events until `capacity` many are left. -/
def truncate (capacity : ℕ) (entries : List (ℕ × ε)) : List (ℕ × ε) := entries.drop
    (entries.length - capacity)

def push (capacity : ℕ) (j : Journal ε) (e : ε) : Journal ε :=
  ⟨j.sequence + 1, truncate capacity (j.entries ++ [(j.sequence + 1, e)])⟩

def popIf (p : ε → Bool) (j : Journal ε) : Journal ε :=
  if j.entries.getLast?.any (p ·.2) then ⟨j.sequence, j.entries.dropLast⟩ else j

/-- The first event that is kept is not the next one for the cursor. -/
def isLost (j : Journal ε) (cursor : ℕ) : Bool := j.entries.head?.any (cursor < ·.1 - 1)

def next? (j : Journal ε) (cursor : ℕ) : Option (ℕ × ε) := j.entries.find? (cursor < ·.1)

/-- The events that a reader with the cursor has not seen. -/
def unseen (j : Journal ε) (cursor : ℕ) : List (ℕ × ε) := j.entries.filter (cursor < ·.1)

/-! ### Entries -/

theorem mem_of_mem_push {e : ε} (h : entry ∈ (j.push capacity e).entries) :
    entry ∈ j.entries ∨ entry.2 = e := by
  rcases mem_append.mp (mem_of_mem_drop h) with hold | hnew
  · exact .inl hold
  · rw [mem_singleton.mp hnew]
    exact .inr rfl

variable {p : ε → Bool}

theorem mem_of_mem_popIf (h : entry ∈ (j.popIf p).entries) : entry ∈ j.entries := by
  unfold popIf at h
  split_ifs at h
  · exact (dropLast_sublist _).subset h
  · exact h

/-! ### Numbers -/

/-- The numbers increase, up to that of the last event. -/
structure Ordered (j : Journal ε) : Prop where
  increasing : j.entries.Pairwise (·.1 < ·.1)
  le : ∀ entry ∈ j.entries, entry.1 ≤ j.sequence

theorem ordered_empty : (empty : Journal ε).Ordered := ⟨.nil, by simp [empty]⟩

theorem Ordered.concat (h : j.Ordered) (e : ε) : (j.entries ++ [(j.sequence + 1, e)]).Pairwise
    (·.1 < ·.1) := by
  refine pairwise_append.mpr ⟨h.increasing, pairwise_singleton _ _, fun entry hentry new hnew => ?_⟩
  rw [mem_singleton.mp hnew]
  exact Nat.lt_succ_of_le (h.le entry hentry)

theorem Ordered.push (h : j.Ordered) (capacity : ℕ) (e : ε) : (j.push capacity e).Ordered where
  increasing := (h.concat e).sublist (drop_sublist _ _)
  le := by
    intro entry hentry
    rcases mem_append.mp (mem_of_mem_drop hentry) with hold | hnew
    · exact Nat.le_succ_of_le (h.le entry hold)
    · rw [mem_singleton.mp hnew]
      exact Nat.le_refl _

theorem Ordered.popIf (h : j.Ordered) (p : ε → Bool) : (j.popIf p).Ordered := by
  unfold Journal.popIf
  split_ifs
  · exact ⟨h.increasing.sublist (dropLast_sublist _), fun entry hentry =>
      h.le entry ((dropLast_sublist _).subset hentry)⟩
  · exact h

theorem Ordered.isLost_sequence (h : j.Ordered) : j.isLost j.sequence = false := by
  unfold isLost
  cases hhead : j.entries.head? with
  | none => rfl
  | some entry =>
    have hle := h.le entry (mem_of_head? hhead)
    simp only [any_some, decide_eq_false_iff_not]
    omega

theorem Ordered.unseen_sequence (h : j.Ordered) : j.unseen j.sequence = [] :=
  filter_eq_nil_iff.mpr fun entry hentry => by simpa using h.le entry hentry

variable {l : List (ℕ × ε)}

theorem seen_of_isLost_drop (hl : l.Pairwise (·.1 < ·.1)) {n : ℕ}
    (hn : n < l.length) (h : (l.drop n).head?.any (cursor < ·.1 - 1) = false) :
    ∀ entry ∈ l.take n, entry.1 ≤ cursor := by
  intro entry hentry
  have hfirst : (l.drop n).head? = some (l.get ⟨n, hn⟩) := by
    rw [head?_drop, getElem?_eq_getElem hn]
    rfl
  rw [hfirst, any_some, decide_eq_false_iff_not] at h
  have hparts := pairwise_append.mp ((take_append_drop n l).symm ▸ hl)
  have hlt := hparts.2.2 entry hentry _ (mem_of_head? hfirst)
  omega

theorem Ordered.unseen_eq_cons (h : j.Ordered) (hnext : j.next? cursor = some entry) :
    j.unseen cursor = entry :: j.unseen entry.1 := by
  obtain ⟨hlt, before, after, hentries, hbefore⟩ := find?_eq_some_iff_append.mp hnext
  have hparts := pairwise_append.mp (hentries ▸ h.increasing)
  have hafter := pairwise_cons.mp hparts.2.1
  have hlt : cursor < entry.1 := by simpa using hlt
  have hseen : ∀ n, (∀ x ∈ before, x.1 ≤ n) → before.filter (n < ·.1) = [] := fun n hn =>
    filter_eq_nil_iff.mpr fun x hx => by simpa using hn x hx
  have hlater : ∀ n ≤ entry.1, after.filter (n < ·.1) = after := fun n hn =>
    filter_eq_self.mpr fun x hx => by simpa using Nat.lt_of_le_of_lt hn (hafter.1 x hx)
  unfold unseen
  rw [hentries, filter_append, filter_append, hseen cursor (fun x hx => by
    simpa using hbefore x hx),
    hseen entry.1 (fun x hx => Nat.le_of_lt (hparts.2.2 x hx entry mem_cons_self)),
    filter_cons_of_pos (by simpa using hlt), filter_cons_of_neg (by simp),
    hlater cursor (Nat.le_of_lt hlt), hlater entry.1 (Nat.le_refl _)]
  rfl

theorem exists_concat_of_getLast?_any (h : l.getLast?.any (p ·.2) = true) :
    ∃ init last, l = init ++ [last] ∧ p last.2 = true := by
  cases hlast : l.getLast? with
  | none => simp [hlast] at h
  | some last =>
    rw [hlast, any_some] at h
    exact ⟨l.dropLast, last, (dropLast_append_getLast? last hlast).symm, h⟩

/-! ### Readers -/

section

variable (R : σ → σ → Prop) (apply : σ → ε → σ)

def applyAll (s : σ) (events : List (ℕ × ε)) : σ := events.foldl (fun s e => apply s e.2) s

/-- A reader with the cursor and the state `s`, where the publisher has the state `t`. -/
def Behind (j : Journal ε) (cursor : ℕ) (s t : σ) : Prop :=
  cursor ≤ j.sequence ∧ (j.isLost cursor = false → R (applyAll apply s (j.unseen cursor)) t)

end

variable {R : σ → σ → Prop} {apply : σ → ε → σ} {s t t' : σ} {e : ε}

theorem Behind.self (hj : j.Ordered) (h : R t t) : Behind R apply j j.sequence t t :=
  ⟨Nat.le_refl _, fun _ => by rwa [hj.unseen_sequence]⟩

/-- **Who has seen all events has the publisher's state.** -/
theorem Behind.caughtUp (h : Behind R apply j cursor s t) (hj : j.Ordered)
    (hcursor : cursor = j.sequence) : R s t := by
  subst hcursor
  have hstate := h.2 hj.isLost_sequence
  rwa [hj.unseen_sequence] at hstate

/-- What a reader has still to see after entries were added and the oldest dropped. -/
theorem unseen_truncate (hl : l.Pairwise (·.1 < ·.1)) (hne : l ≠ [])
    (hcapacity : 0 < capacity) (h : (truncate capacity l).head?.any (cursor < ·.1 - 1) = false) :
    (truncate capacity l).filter (cursor < ·.1) = l.filter (cursor < ·.1) ∧ l.head?.any
    (cursor < ·.1 - 1) = false := by
  have hn : l.length - capacity < l.length := by
    have hpos := length_pos_iff.mpr hne
    omega
  have hseen := seen_of_isLost_drop hl hn h
  have hfilter : (l.take (l.length - capacity)).filter (cursor < ·.1) = [] :=
    filter_eq_nil_iff.mpr fun entry hentry => by simpa using hseen entry hentry
  constructor
  · conv_rhs => rw [← take_append_drop (l.length - capacity) l, filter_append, hfilter]
    rfl
  · rcases Nat.eq_zero_or_pos (l.length - capacity) with hzero | hpos
    · rwa [truncate, hzero, drop_zero] at h
    · cases l with
      | nil => rfl
      | cons entry l =>
        obtain ⟨m, hm⟩ := Nat.exists_eq_succ_of_ne_zero (Nat.pos_iff_ne_zero.mp hpos)
        have hle : entry.1 ≤ cursor := hseen entry (by rw [hm]; exact mem_cons_self)
        simp only [head?_cons, any_some, decide_eq_false_iff_not]
        omega

theorem unseen_push (hj : j.Ordered) (hcapacity : 0 < capacity) (hcursor : cursor ≤ j.sequence)
    (hlost : (j.push capacity e).isLost cursor = false) :
    j.isLost cursor = false ∧ (j.push capacity e).unseen cursor = j.unseen cursor ++
      [(j.sequence + 1, e)] := by
  obtain ⟨hunseen, hlost⟩ := unseen_truncate (hj.concat e) (by simp) hcapacity hlost
  have hnew : cursor < j.sequence + 1 := Nat.lt_succ_of_le hcursor
  constructor
  · unfold isLost
    cases hentries : j.entries with
    | nil => rfl
    | cons entry rest => rwa [hentries] at hlost
  · refine hunseen.trans ?_
    rw [filter_append, unseen]
    simp [hnew]

/-- The same for an event in place of the last one, which the reader may still have had to see. -/
theorem unseen_push_popIf (hj : j.Ordered) (hcapacity : 0 < capacity)
    (hcursor : cursor ≤ j.sequence) (hlost : ((j.popIf p).push capacity e).isLost cursor = false) :
    j.isLost cursor = false ∧ ∃ kept popped, j.unseen cursor = kept ++ Option.toList popped ∧
      (∀ entry ∈ popped, p entry.2 = true) ∧
      ((j.popIf p).push capacity e).unseen cursor = kept ++ [(j.sequence + 1, e)] := by
  by_cases hlast : j.entries.getLast?.any (p ·.2) = true
  · obtain ⟨init, last, hentries, hplast⟩ := exists_concat_of_getLast?_any hlast
    have hpop : j.popIf p = ⟨j.sequence, init⟩ := by
      rw [Journal.popIf, if_pos hlast, hentries, dropLast_concat]
    have hordered : Ordered ⟨j.sequence, init⟩ := hpop ▸ hj.popIf p
    rw [hpop] at hlost ⊢
    have hnew : cursor < j.sequence + 1 := Nat.lt_succ_of_le hcursor
    obtain ⟨hunseen, hfirst⟩ := unseen_truncate (hordered.concat e) (by simp) hcapacity hlost
    -- with nothing left before the new entry, only a reader that has seen all is not lost
    have hold : j.isLost cursor = false := by
      unfold isLost
      rw [hentries]
      cases init with
      | cons entry rest => exact hfirst
      | nil =>
        have hle := hj.le last (by simp [hentries])
        simp only [nil_append, head?_cons, any_some, decide_eq_false_iff_not] at hfirst ⊢
        omega
    refine ⟨hold, init.filter (cursor < ·.1), if cursor < last.1 then some last else none,
      ?_, ?_, ?_⟩
    · rw [unseen, hentries, filter_append]
      by_cases hseen : cursor < last.1 <;> simp [hseen]
    · intro entry hentry
      split_ifs at hentry
      · obtain rfl := mem_some_iff.mp hentry
        exact hplast
      · cases hentry
    · refine hunseen.trans ?_
      rw [filter_append]
      simp [hnew]
  · have hsame : j.popIf p = j := if_neg hlast
    rw [hsame] at hlost ⊢
    obtain ⟨hold, hunseen⟩ := unseen_push hj hcapacity hcursor hlost
    exact ⟨hold, j.unseen cursor, none, by simp, by simp, hunseen⟩

theorem Behind.push (h : Behind R apply j cursor s t) (hj : j.Ordered) (hcapacity : 0 < capacity)
    (he : ∀ s', R s' t → R (apply s' e) t') : Behind R apply (j.push capacity e) cursor s t' := by
  refine ⟨Nat.le_succ_of_le h.1, fun hlost => ?_⟩
  obtain ⟨hold, hunseen⟩ := unseen_push hj hcapacity h.1 hlost
  rw [hunseen, applyAll, foldl_append]
  exact he _ (h.2 hold)

theorem sequence_popIf (j : Journal ε) (p : ε → Bool) : (j.popIf p).sequence = j.sequence := by
  unfold popIf
  split_ifs <;> rfl

theorem Behind.push_popIf (h : Behind R apply j cursor s t) (hj : j.Ordered)
    (hcapacity : 0 < capacity) (he : ∀ s', R s' t → R (apply s' e) t')
    (hp : ∀ s' e', p e' = true → apply (apply s' e') e = apply s' e) :
    Behind R apply ((j.popIf p).push capacity e) cursor s t' := by
  refine ⟨?_, fun hlost => ?_⟩
  · show cursor ≤ (j.popIf p).sequence + 1
    rw [sequence_popIf]
    exact Nat.le_succ_of_le h.1
  · obtain ⟨hold, kept, popped, hkept, hpopped, hunseen⟩ := unseen_push_popIf hj hcapacity h.1 hlost
    have hstate := h.2 hold
    rw [hkept, applyAll, foldl_append] at hstate
    rw [hunseen, applyAll, foldl_append]
    have happlied := he _ hstate
    cases popped with
    | none => exact happlied
    | some last =>
      rw [toList_some, foldl_cons, foldl_nil, hp _ _ (hpopped last rfl)] at happlied
      exact happlied

theorem Behind.next (h : Behind R apply j cursor s t) (hj : j.Ordered)
    (hlost : j.isLost cursor = false) {entry : ℕ × ε} (hnext : j.next? cursor = some entry) :
    Behind R apply j entry.1 (apply s entry.2) t := by
  refine ⟨hj.le entry (mem_of_find?_eq_some hnext), fun _ => ?_⟩
  have hstate := h.2 hlost
  rwa [hj.unseen_eq_cons hnext] at hstate

theorem unseen_eq_nil (h : j.next? cursor = none) : j.unseen cursor = [] :=
  filter_eq_nil_iff.mpr (find?_eq_none.mp h)

/-! ### Awaited events -/

/-- A reader with the cursor is still to be given the event with the number `n`, of which `Q` holds,
if it can go on at all. -/
def Awaits (Q : ε → Prop) (j : Journal ε) (cursor n : ℕ) : Prop :=
  cursor < n ∧ cursor ≤ j.sequence ∧ (j.isLost cursor = false → ∃ e, (n, e) ∈ j.unseen cursor ∧ Q e)

variable {Q : ε → Prop} {n : ℕ}

section

variable (h : Awaits Q j cursor n) (hj : j.Ordered)
include h hj

theorem Awaits.push (hcapacity : 0 < capacity) (e : ε) : Awaits Q (j.push capacity e) cursor n := by
  refine ⟨h.1, Nat.le_succ_of_le h.2.1, fun hlost => ?_⟩
  obtain ⟨hold, hunseen⟩ := unseen_push hj hcapacity h.2.1 hlost
  obtain ⟨awaited, hmem, hQ⟩ := h.2.2 hold
  exact ⟨awaited, hunseen ▸ mem_append_left _ hmem, hQ⟩

theorem Awaits.push_popIf (hcapacity : 0 < capacity) (hp : ∀ e, p e = true → ¬ Q e) (e : ε) :
    Awaits Q ((j.popIf p).push capacity e) cursor n := by
  refine ⟨h.1, ?_, fun hlost => ?_⟩
  · show cursor ≤ (j.popIf p).sequence + 1
    rw [sequence_popIf]
    exact Nat.le_succ_of_le h.2.1
  · obtain ⟨hold, kept, popped, hkept, hpopped, hunseen⟩ :=
      unseen_push_popIf hj hcapacity h.2.1 hlost
    obtain ⟨awaited, hmem, hQ⟩ := h.2.2 hold
    rw [hkept] at hmem
    rcases mem_append.mp hmem with hmem | hmem
    · exact ⟨awaited, hunseen ▸ mem_append_left _ hmem, hQ⟩
    · exact absurd hQ (hp awaited (hpopped _ (mem_toList.mp hmem)))

theorem Awaits.next (hlost : j.isLost cursor = false) :
    ∃ entry, j.next? cursor = some entry ∧ cursor < entry.1 ∧
      (Q entry.2 ∨ Awaits Q j entry.1 n) := by
  obtain ⟨awaited, hmem, hQ⟩ := h.2.2 hlost
  cases hnext : j.next? cursor with
  | none =>
    rw [unseen_eq_nil hnext] at hmem
    cases hmem
  | some entry =>
    have hfound := find?_some hnext
    refine ⟨entry, rfl, by simpa using hfound, ?_⟩
    rw [hj.unseen_eq_cons hnext] at hmem
    rcases mem_cons.mp hmem with rfl | hlater
    · exact .inl hQ
    · have hlt : entry.1 < n := by simpa using (mem_filter.mp hlater).2
      exact .inr ⟨hlt, hj.le entry (mem_of_find?_eq_some hnext), fun _ => ⟨awaited, hlater, hQ⟩⟩

end

theorem Awaits.of_isLost (hcursor : cursor ≤ j.sequence) (hlost : j.isLost cursor = true) :
    Awaits Q j cursor (cursor + 1) :=
  ⟨Nat.lt_succ_self _, hcursor, fun h => by simp [hlost] at h⟩

theorem Awaits.of_next (hcursor : cursor ≤ j.sequence) {entry : ℕ × ε}
    (hnext : j.next? cursor = some entry) (hQ : Q entry.2) : Awaits Q j cursor entry.1 := by
  have hlt : cursor < entry.1 := by simpa using find?_some hnext
  have hmem : entry ∈ j.unseen cursor := mem_filter.mpr ⟨mem_of_find?_eq_some hnext, by
    simpa using hlt⟩
  exact ⟨hlt, hcursor, fun _ => ⟨entry.2, hmem, hQ⟩⟩

end Journal

end Jolt.Lib.Journals

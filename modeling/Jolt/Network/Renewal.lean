import Mathlib

/-! # Renewal of the reachability record

`reachability_renewal.rs`. The daemon checks from time to time whether to publish the reachability
record of the local identity again, which it does once half of its lifetime has passed. A failed
publication changes nothing, so the next check tries again. The gap between two checks and the time
until a retry succeeds must fit together into the half of the lifetime that is left
(`does_not_lapse`). Times are seconds, `u64` in the source. -/

namespace Jolt.Network.Renewal

def saturatingAdd (a b : ℕ) : ℕ := min (a + b) (2 ^ 64 - 1)

structure RenewalSchedule where
  ttlSecs : ℕ
  /-- The expiry of the last record that was published. -/
  publishedExpiresAt : Option ℕ
deriving DecidableEq

namespace RenewalSchedule

variable (schedule : RenewalSchedule)

def new (ttlSecs : ℕ) : RenewalSchedule := ⟨ttlSecs, none⟩

def expiresAtFor (now : ℕ) : ℕ := saturatingAdd now schedule.ttlSecs

def isDue (now : ℕ) : Bool :=
  match schedule.publishedExpiresAt with
  | none => true
  | some expiresAt => saturatingAdd now (schedule.ttlSecs / 2) ≥ expiresAt

def recordPublished (expiresAt : ℕ) : RenewalSchedule :=
  { schedule with publishedExpiresAt := some expiresAt }

/-- The last published record has not expired. -/
def Unexpired (moment : ℕ) : Prop := ∃ expiresAt ∈ schedule.publishedExpiresAt, moment < expiresAt

end RenewalSchedule

inductive RenewalOutcome (ε : Type) where
  | notDue
  | published (expiresAt : ℕ)
  | failed (error : ε)

/-- One check, with the schedule after it. -/
def renewIfDue {ε : Type} (schedule : RenewalSchedule) (now : ℕ) (publish : ℕ → Except ε Unit) :
    RenewalOutcome ε × RenewalSchedule :=
  if !schedule.isDue now then (.notDue, schedule)
  else
    let expiresAt := schedule.expiresAtFor now
    match publish expiresAt with
    | .ok () => (.published expiresAt, schedule.recordPublished expiresAt)
    | .error error => (.failed error, schedule)

/-! ### Histories of checks -/

/-- The times of the checks, and what publishing would give at each. -/
structure History (ε : Type) where
  ttl : ℕ
  now : ℕ → ℕ
  publish : ℕ → ℕ → Except ε Unit

variable {ε : Type}

namespace History

variable (c : History ε)

/-- The schedule before check `i`. -/
def schedule : ℕ → RenewalSchedule
  | 0 => .new c.ttl
  | i + 1 => (renewIfDue (schedule i) (c.now i) (c.publish i)).2

def DueAt (i : ℕ) : Prop := (c.schedule i).isDue (c.now i) = true

def PublishesAt (i : ℕ) : Prop :=
  ∃ expiresAt, (renewIfDue (c.schedule i) (c.now i) (c.publish i)).1 = .published expiresAt

/-- The first check at which a renewal is due, since the last publication or the start. -/
def FirstDueAt (i : ℕ) : Prop := c.DueAt i ∧ ∀ k, i = k + 1 → c.PublishesAt k ∨ ¬ c.DueAt k

/-- **The first `n` checks are not too far apart, and retries succeed in time**, unless the checks
end before. -/
structure Watched (g r n : ℕ) : Prop where
  mono : ∀ i j, i ≤ j → j < n → c.now i ≤ c.now j
  gap : ∀ i, i + 1 < n → c.now (i + 1) ≤ c.now i + g
  retried : ∀ i < n, c.FirstDueAt i →
    (∃ j < n, i ≤ j ∧ c.now j ≤ c.now i + r ∧ c.PublishesAt j) ∨ ∀ j < n, c.now j ≤ c.now i + r
  fits : ∀ i < n, c.now i + c.ttl < 2 ^ 64

/-- What is known before check `i`, after the publication at check `k`: at the last check it was too
early to renew, or every attempt since the first one has failed. -/
structure Renewed (g k i expiresAt : ℕ) : Prop where
  published : (c.schedule i).publishedExpiresAt = some expiresAt
  le_expiresAt : c.now k + c.ttl ≤ expiresAt
  early_or_due :
    (∃ j, i = j + 1 ∧ (c.PublishesAt j ∨ ¬ c.DueAt j) ∧ c.now j + c.ttl / 2 < expiresAt) ∨
    ∃ d < i, c.FirstDueAt d ∧ c.now d + c.ttl / 2 < expiresAt + g ∧ ∀ l, d ≤ l → l < i →
      ¬ c.PublishesAt l

end History

variable {c : History ε} {g r n i j k expiresAt : ℕ}

theorem renewIfDue_cases (schedule : RenewalSchedule) (now : ℕ) (publish : ℕ → Except ε Unit) :
    schedule.isDue now = true ∧ renewIfDue schedule now publish =
        (.published (schedule.expiresAtFor now),
          schedule.recordPublished (schedule.expiresAtFor now)) ∨
      (∀ expiresAt, (renewIfDue schedule now publish).1 ≠ .published expiresAt) ∧
        (renewIfDue schedule now publish).2 = schedule := by
  unfold renewIfDue
  cases hdue : schedule.isDue now with
  | false => exact .inr ⟨by simp, rfl⟩
  | true =>
    cases hpublish : publish (schedule.expiresAtFor now) with
    | ok => exact .inl ⟨rfl, by simp [hpublish]⟩
    | error => exact .inr ⟨by simp [hpublish], by simp [hpublish]⟩

theorem ttlSecs_schedule (i : ℕ) : (c.schedule i).ttlSecs = c.ttl := by
  induction i with
  | zero => rfl
  | succ i ih =>
    rw [History.schedule]
    obtain ⟨-, h⟩ | ⟨-, h⟩ := renewIfDue_cases (c.schedule i) (c.now i) (c.publish i)
    · rw [h]
      exact ih
    · rw [h]
      exact ih

/-- What a check does to the schedule. -/
theorem schedule_succ (hfits : c.now i + c.ttl < 2 ^ 64) :
    c.PublishesAt i ∧ c.DueAt i ∧ (c.schedule (i + 1)).publishedExpiresAt = some (c.now i + c.ttl) ∨
      ¬ c.PublishesAt i ∧ c.schedule (i + 1) = c.schedule i := by
  have hexpires : (c.schedule i).expiresAtFor (c.now i) = c.now i + c.ttl := by
    rw [RenewalSchedule.expiresAtFor, ttlSecs_schedule, saturatingAdd]
    omega
  obtain ⟨hdue, h⟩ | ⟨hnot, h⟩ := renewIfDue_cases (c.schedule i) (c.now i) (c.publish i)
  · refine .inl ⟨⟨_, congrArg Prod.fst h⟩, hdue, ?_⟩
    rw [History.schedule, h, hexpires]
    rfl
  · exact .inr ⟨fun ⟨expiresAt, hpub⟩ => hnot expiresAt hpub, h⟩

theorem dueAt_iff (hfits : c.now i + c.ttl < 2 ^ 64)
    (hpublished : (c.schedule i).publishedExpiresAt = some expiresAt) :
    c.DueAt i ↔ expiresAt ≤ c.now i + c.ttl / 2 := by
  rw [History.DueAt, RenewalSchedule.isDue, hpublished, ttlSecs_schedule, saturatingAdd]
  simp only [ge_iff_le, decide_eq_true_eq]
  omega

theorem renewed_of_publishesAt (h : c.Watched g r n) (hmargin : g + r < c.ttl / 2)
    (hki : k ≤ i) (hin : i < n) (hi : c.PublishesAt i) :
    c.Renewed g k (i + 1) (c.now i + c.ttl) := by
  have hmono := h.mono k i hki hin
  obtain ⟨-, -, hpublished⟩ | ⟨hnot, -⟩ := schedule_succ (h.fits i hin)
  · exact ⟨hpublished, by omega, .inl ⟨i, rfl, .inl hi, by omega⟩⟩
  · exact absurd hi hnot

theorem renewed_of_not_publishesAt (hrenewed : c.Renewed g k i expiresAt) (h : c.Watched g r n)
    (hin : i < n) (hi : ¬ c.PublishesAt i) : c.Renewed g k (i + 1) expiresAt := by
  obtain ⟨hpub, -⟩ | ⟨-, hsame⟩ := schedule_succ (h.fits i hin)
  · exact absurd hpub hi
  refine ⟨by rw [hsame, hrenewed.published], hrenewed.le_expiresAt, ?_⟩
  by_cases hdue : c.DueAt i
  · obtain ⟨j, rfl, hfirst, hearly⟩ | ⟨d, hdi, hfirst, hsoon, hfailed⟩ := hrenewed.early_or_due
    · have hgap := h.gap j hin
      refine .inr ⟨j + 1, by omega, ⟨hdue, fun l hl => ?_⟩, by omega, fun l hl hl' => ?_⟩
      · obtain rfl : j = l := by omega
        exact hfirst
      · obtain rfl : l = j + 1 := by omega
        exact hi
    · refine .inr ⟨d, by omega, hfirst, hsoon, fun l hdl hl => ?_⟩
      by_cases hli : l = i
      · exact hli ▸ hi
      · exact hfailed l hdl (by omega)
  · rw [dueAt_iff (h.fits i hin) hrenewed.published] at hdue
    exact .inl ⟨i, rfl, .inr (by rwa [dueAt_iff (h.fits i hin) hrenewed.published]), by omega⟩

theorem exists_renewed (h : c.Watched g r n) (hmargin : g + r < c.ttl / 2) (hk : c.PublishesAt k)
    (hki : k < i) (hin : i ≤ n) : ∃ expiresAt, c.Renewed g k i expiresAt := by
  induction i with
  | zero => omega
  | succ i ih =>
    by_cases hi : c.PublishesAt i
    · exact ⟨_, renewed_of_publishesAt h hmargin (by omega) hin hi⟩
    · have hne : k ≠ i := by
        rintro rfl
        exact hi hk
      obtain ⟨expiresAt, hrenewed⟩ := ih (by omega) (by omega)
      exact ⟨expiresAt, renewed_of_not_publishesAt hrenewed h hin hi⟩

/-- **Reachability does not lapse**: after a first success, the record is valid until the next
check, and no check publishes before half of the lifetime has passed. -/
theorem does_not_lapse (h : c.Watched g r n) (hmargin : g + r < c.ttl / 2) (hk : c.PublishesAt k)
    (hki : k < i) (hin : i < n) :
    (∀ moment ≤ c.now i, (c.schedule i).Unexpired moment) ∧
      (c.PublishesAt i → c.now k + (c.ttl - c.ttl / 2) ≤ c.now i) := by
  obtain ⟨expiresAt, hpublished, hle, hcases⟩ := exists_renewed h hmargin hk hki (Nat.le_of_lt hin)
  refine ⟨fun moment hmoment => ⟨expiresAt, hpublished, ?_⟩, fun hpub => ?_⟩
  · obtain ⟨j, rfl, -, hearly⟩ | ⟨d, hdi, hfirst, hsoon, hfailed⟩ := hcases
    · have := h.gap j hin
      omega
    · obtain ⟨l, hln, hdl, hwithin, hl⟩ | hend := h.retried d (by omega) hfirst
      · have hil : i ≤ l := Nat.le_of_not_lt fun hli => hfailed l hdl hli hl
        have := h.mono i l hil hln
        omega
      · have := hend i hin
        omega
  · obtain ⟨-, hdue, -⟩ | ⟨hnot, -⟩ := schedule_succ (h.fits i hin)
    · have := (dueAt_iff (h.fits i hin) hpublished).mp hdue
      omega
    · exact absurd hpub hnot

/-- Checks every two seconds that all succeed. -/
def steady : History Unit := ⟨10, fun i => 2 * i, fun _ _ => .ok ()⟩

theorem steady_does_not_lapse : steady.Watched 2 2 8 ∧ steady.PublishesAt 0 ∧
    (∀ moment ≤ steady.now 3, (steady.schedule 3).Unexpired moment) ∧
      (steady.PublishesAt 3 → steady.now 0 + (steady.ttl - steady.ttl / 2) ≤ steady.now 3) := by
  have hpub (i : ℕ) (hdue : steady.DueAt i) : steady.PublishesAt i := by
    unfold History.DueAt at hdue
    rw [History.PublishesAt, renewIfDue, hdue]
    exact ⟨_, rfl⟩
  have h : steady.Watched 2 2 8 :=
    { mono := fun i j hij _ => Nat.mul_le_mul_left 2 hij
      gap := fun i _ => Nat.le_refl _
      retried := fun i hi hfirst => .inl ⟨i, hi, Nat.le_refl _, Nat.le_add_right _ _,
        hpub i hfirst.1⟩
      fits := fun i hi => by simp only [steady]; omega }
  exact ⟨h, hpub 0 rfl, does_not_lapse h (by decide) (hpub 0 rfl) (by decide) (by decide)⟩

end Jolt.Network.Renewal

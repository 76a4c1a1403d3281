import Jolt.Lib.Runs
import Mathlib.Algebra.Order.BigOperators.Group.List
import Mathlib.Tactic.IntervalCases

/-! # How far a provider query travels

`handle_identity_provider_query` in `providers.rs`, for one query id in a network of any size. A
node that knows no provider forwards a query to at most three relays
(`IDENTITY_PROVIDER_QUERY_FANOUT`), with its time to live less one, unless it has seen the id in the
last 30 seconds. With a time to live of at most `IDENTITY_PROVIDER_QUERY_TTL` the query makes at
most three hops (`flood_bounded`), but no node cuts down a larger one (`long_journey`). -/

namespace Jolt.Network.QueryFlood

open Lib.Runs List Nat

/-- A request under way; `hops` counts how often the query was forwarded. -/
structure Query (ν : Type) where
  sender : ν
  receiver : ν
  limit : ℕ
  ttl : ℕ
  deadlineUnixMs : ℕ
  hops : ℕ
deriving DecidableEq

/-- What a node finds when it handles a query: its clocks in milliseconds, the number of candidates
it knows, and the relays it is connected to. -/
structure Circumstances (ν : Type) where
  now : ℕ
  nowMs : ℕ
  candidates : ℕ
  relays : List ν

structure Flood (ν : Type) where
  seenAt : ν → Option ℕ
  inFlight : List (Query ν)
  /-- All requests that nodes have sent on. -/
  forwarded : List (Query ν)
  /-- Who has forwarded the query, and when. -/
  forwards : List (ν × ℕ)

variable {ν : Type} [DecidableEq ν]

/-- The requests that handling the query sends on. -/
def Query.next (q : Query ν) (seenAt : Option ℕ) (c : Circumstances ν) : List (Query ν) :=
  let alreadySeen := seenAt.any fun t => c.now - t < 30000
  let limit := min q.limit 8 -- `IDENTITY_PROVIDER_QUERY_LIMIT`
  let providers := min c.candidates limit
  if alreadySeen || providers ≠ 0 || q.ttl = 0 || q.deadlineUnixMs ≤ c.nowMs ||
    providers ≥ limit then []
  else ((c.relays.filter (· ≠ q.sender)).take 3).map fun peer =>
    ⟨q.receiver, peer, limit, q.ttl - 1, q.deadlineUnixMs, q.hops + 1⟩

/-- The request at the place arrives and is handled. -/
def step (s : Flood ν) (a : ℕ × Circumstances ν) : Flood ν :=
  match s.inFlight[a.1]? with
  | none => s
  | some q =>
    let next := q.next (s.seenAt q.receiver) a.2
    { seenAt := Function.update s.seenAt q.receiver (some a.2.now)
      inFlight := s.inFlight.eraseIdx a.1 ++ next
      forwarded := s.forwarded ++ next
      forwards := if next = [] then s.forwards else s.forwards ++ [(q.receiver, a.2.now)] }

def inject (seenAt : ν → Option ℕ) (q : Query ν) :
    Flood ν := ⟨seenAt, [{ q with hops := 0 }], [], []⟩

/-- The clock of the receiver does not go back. -/
abbrev ClockRuns (s : Flood ν) (a : ℕ × Circumstances ν) : Prop :=
  ∀ q ∈ s.inFlight[a.1]?, ∀ t ∈ s.seenAt q.receiver, t ≤ a.2.now

/-- How many requests a query with the time to live can lead to. -/
def weight : ℕ → ℕ
  | 0 => 0
  | ttl + 1 => 3 * (1 + weight ttl)

structure Bounded (ttl : ℕ) (s : Flood ν) : Prop where
  weight_le : s.forwarded.length + (s.inFlight.map fun q => weight q.ttl).sum ≤ weight ttl
  inFlight : ∀ q ∈ s.inFlight, q.hops + q.ttl = ttl
  forwarded : ∀ q ∈ s.forwarded, q.hops ≤ ttl
  apart : s.forwards.Pairwise fun f g => f.1 = g.1 → f.2 + 30000 ≤ g.2
  seen : ∀ f ∈ s.forwards, ∃ t ∈ s.seenAt f.1, f.2 ≤ t

variable {q : Query ν} {seenAt : Option ℕ} {c : Circumstances ν} {ttl : ℕ} {s : Flood ν}

theorem next_eq_nil_or : q.next seenAt c = [] ∨ (∀ t ∈ seenAt, 30000 ≤ c.now - t) ∧
    (q.next seenAt c).length ≤ 3 ∧
    ∃ ttl, q.ttl = ttl + 1 ∧ ∀ n ∈ q.next seenAt c, n.ttl = ttl ∧ n.hops = q.hops + 1 := by
  unfold Query.next
  extract_lets seen limit providers
  split_ifs with h
  · exact .inl rfl
  simp only [Bool.or_eq_true, decide_eq_true_eq, not_or] at h
  refine .inr ⟨fun t ht => ?_, ?_, q.ttl - 1,
    (Nat.sub_add_cancel (Nat.pos_of_ne_zero h.1.1.2)).symm, fun n hn => ?_⟩
  · obtain rfl := Option.mem_def.mp ht
    simpa [seen] using h.1.1.1.1
  · exact (length_map _).trans_le (length_take_le ..)
  · obtain ⟨peer, -, rfl⟩ := mem_map.mp hn
    exact ⟨rfl, rfl⟩

theorem weight_next_le :
    (q.next seenAt c).length + ((q.next seenAt c).map fun n => weight n.ttl).sum ≤
      weight q.ttl := by
  obtain h | ⟨-, hlen, ttl, hq, hn⟩ := @next_eq_nil_or ν _ q seenAt c
  · simp [h]
  have hsum : ((q.next seenAt c).map fun n => weight n.ttl).sum ≤ (q.next seenAt c).length *
    weight ttl := by
    refine (sum_le_card_nsmul _ (weight ttl) fun w hw => ?_).trans_eq (by simp)
    obtain ⟨n, h, rfl⟩ := mem_map.mp hw
    rw [(hn n h).1]
  have hlen := mul_le_mul_right (1 + weight ttl) hlen
  rw [mul_add, mul_one] at hlen
  rw [hq, weight]
  omega

/-- **Handling one request keeps the bounds.** -/
theorem Bounded.step (h : Bounded ttl s) {a : ℕ × Circumstances ν} (hc : ClockRuns s a) :
    Bounded ttl (step s a) := by
  unfold QueryFlood.step
  cases hq : s.inFlight[a.1]? with
  | none => exact h
  | some q =>
    have hmem := mem_of_getElem? hq
    have hspec := @next_eq_nil_or ν _ q (s.seenAt q.receiver) a.2
    have hn : ∀ n ∈ q.next (s.seenAt q.receiver) a.2, n.hops + n.ttl = ttl := by
      intro n hn
      obtain h0 | ⟨-, -, _, _, hnext⟩ := hspec
      · simp [h0] at hn
      · have := hnext n hn
        have := h.inFlight q hmem
        omega
    constructor
    · have hw := @weight_next_le ν _ q (s.seenAt q.receiver) a.2
      have herase := ((List.getElem_cons_eraseIdx_perm (List.getElem?_eq_some_iff.mp hq).1).map
        fun q => weight q.ttl).sum_eq
      rw [(List.getElem?_eq_some_iff.mp hq).2, List.map_cons, List.sum_cons] at herase
      have := h.weight_le
      simp only [length_append, map_append, List.sum_append]
      omega
    · intro r hr
      obtain hr | hr := mem_append.mp hr
      · exact h.inFlight r (mem_of_mem_eraseIdx hr)
      · exact hn r hr
    · intro r hr
      obtain hr | hr := mem_append.mp hr
      · exact h.forwarded r hr
      · exact (Nat.le_add_right ..).trans_eq (hn r hr)
    · dsimp only
      split_ifs with h0
      · exact h.apart
      refine pairwise_append.mpr ⟨h.apart, pairwise_singleton .., fun f hf g hg heq => ?_⟩
      obtain rfl := mem_singleton.mp hg
      obtain ⟨t, ht, hft⟩ := h.seen f hf
      have heq : f.1 = q.receiver := heq
      have := (hspec.resolve_left h0).1 t (heq ▸ ht)
      dsimp only
      omega
    · have hold : ∀ f ∈ s.forwards, ∃ t ∈ Function.update s.seenAt q.receiver (some a.2.now) f.1,
        f.2 ≤ t := by
        intro f hf
        obtain ⟨t, ht, hft⟩ := h.seen f hf
        by_cases heq : f.1 = q.receiver
        · exact ⟨a.2.now, by simp [heq], hft.trans (hc q hq t (heq ▸ ht))⟩
        · exact ⟨t, by simpa [heq] using ht, hft⟩
      intro f hf
      dsimp only at hf
      split_ifs at hf
      · exact hold f hf
      obtain hf | hf := mem_append.mp hf
      · exact hold f hf
      · obtain rfl := mem_singleton.mp hf
        exact ⟨a.2.now, by simp, le_rfl⟩

omit [DecidableEq ν] in
theorem bounded_inject (seenAt : ν → Option ℕ) : Bounded q.ttl (inject seenAt q) := by
    constructor <;> simp [inject]

/-- **A query makes as many hops as its time to live says, each node forwards it at most once while
it remembers it, and the number of requests is bounded, however large the network is.** With a time
to live of at most three these are three hops and 39 requests. -/
theorem flood_bounded (seenAt : ν → Option ℕ) (q : Query ν) (steps : List (ℕ × Circumstances ν))
    (hc : Along step ClockRuns (inject seenAt q) steps) :
    (∀ r ∈ (steps.foldl step (inject seenAt q)).forwarded, r.hops ≤ q.ttl) ∧
    ((steps.foldl step (inject seenAt q)).forwards.Pairwise fun f g =>
      f.1 = g.1 → f.2 + 30000 ≤ g.2) ∧
    (steps.foldl step (inject seenAt q)).forwarded.length ≤ weight q.ttl ∧
    (q.ttl ≤ 3 → (∀ r ∈ (steps.foldl step (inject seenAt q)).forwarded, r.hops ≤ 3) ∧
      (steps.foldl step (inject seenAt q)).forwarded.length ≤ 39) := by
  have hb : Bounded q.ttl (steps.foldl step (inject seenAt q)) :=
    hc.invariant (fun _ _ h hc => h.step hc) (bounded_inject seenAt)
  have hlength := hb.weight_le
  refine ⟨hb.forwarded, hb.apart, by omega, fun h => ⟨fun r hr => (hb.forwarded r hr).trans h, ?_⟩⟩
  have hw : weight q.ttl ≤ 39 := by
    interval_cases q.ttl <;> decide
  omega

/-- Each node is connected to the next one as its relay. -/
def line : List (ℕ × Circumstances ℕ) := (List.range 4).map fun i => (0, ⟨i, i, 0, [i + 2]⟩)

theorem flood_bounded_line :
    ((line.foldl step (inject (fun _ => none) ⟨0, 1, 8, 3, 100, 0⟩)).forwarded.map (·.hops)) =
    [1, 2, 3] ∧
    (line.foldl step (inject (fun _ => none) ⟨0, 1, 8, 3, 100, 0⟩)).forwarded.length ≤ 39 :=
  ⟨by decide, ((flood_bounded _ ⟨0, 1, 8, 3, 100, 0⟩ line (by decide)).2.2.2 le_rfl).2⟩

/-- **A peer that puts in a larger time to live makes the query travel farther.** -/
theorem long_journey : ∃ (q : Query ℕ) (steps : List (ℕ × Circumstances ℕ)), q.ttl ≤ 255 ∧
    Along step ClockRuns (inject (fun _ => none) q) steps ∧
    ∃ r ∈ (steps.foldl step (inject (fun _ => none) q)).forwarded, 3 < r.hops := by
  refine ⟨⟨0, 1, 8, 255, 100, 0⟩, line, by decide, by decide, ⟨4, 5, 8, 251, 100, 4⟩, ?_⟩
  decide

end Jolt.Network.QueryFlood

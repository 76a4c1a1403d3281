import Jolt.Network.Node

/-! # Retries of a sync

What the node does when a sync request fails or times out (`on_device_writer_sync_settled` in
`resolution.rs`): it asks a discovered provider of the identity other than the one that failed, and
if there is none, it answers the waiters of the identity. The pool of providers is looked at and not
used up. With one provider in it the waiters are answered after at most as many failures as there
are providers; with two or more, the requests go back and forth between two of them for as long as
they fail (`answeredInTime_iff`).

All tables of the node have the identity as a key here, so the model has the part of one identity.
At most one request is pending for it: whatever sends one looks first whether there is one. The pool
may shrink, since the update-log path takes providers out of it. -/

namespace Jolt.Network.SyncRetries

open DeviceWriterCache Node List

/-! ### The sync of an identity -/

inductive DeviceWriterSyncWaiter where
  | enumerate (pathStart : String) (responseTx : ℕ)
  | materializedView (pathStart : String) (responseTx : ℕ)
  | refresh
  | localRefresh
deriving DecidableEq

inductive MaterializedRecordRefreshOutcome where
  | ready
  | networkUnavailable
  | verificationFailed

structure PendingDeviceWriterSync where
  provider : PeerId
  deadline : ℕ

/-- The part of one identity. The waiters that were answered are kept with the outcome that they
were told. -/
structure Sync where
  discoveredProviders : List PeerId
  pending : Option PendingDeviceWriterSync
  waiters : List DeviceWriterSyncWaiter
  answers : List (DeviceWriterSyncWaiter × MaterializedRecordRefreshOutcome)
  resolveTimeout : ℕ

namespace Sync

variable (s : Sync) (now : ℕ) (provider : PeerId)

/-- `peek_discovered_update_log_provider_except`. -/
def peekProviderExcept (excluded : PeerId) : Option PeerId := s.discoveredProviders.find?
    (· ≠ excluded)

/-- `request_device_writer_sync_from_provider`. -/
def request : Sync :=
  { s with pending := some ⟨provider, now + s.resolveTimeout⟩ }

/-- `answer_device_writer_waiters_with_outcome`. -/
def answer (outcome : MaterializedRecordRefreshOutcome) : Sync :=
  { s with waiters := [], answers := s.answers ++ s.waiters.map (·, outcome) }

def refreshOutcome : NetworkError → MaterializedRecordRefreshOutcome
  | .verificationFailed | .discoveryFailed .identityHeadInvalid _
  | .unsupportedDeviceWriterOperationVersion .. | .unsupportedDeviceWriterSyncVersion .. =>
    .verificationFailed
  | _ => .networkUnavailable

def localRefreshOnly (waiters : List DeviceWriterSyncWaiter) : Bool :=
  !waiters.isEmpty && waiters.all (· = .localRefresh)

/-- `on_device_writer_sync_settled`, with an error. -/
def onSettled (error : NetworkError) : Sync :=
  if localRefreshOnly s.waiters then s.answer .ready
  else
    match s.peekProviderExcept provider with
    | some next => s.request now next
    | none => s.answer (refreshOutcome error)

def fail (error : NetworkError) : Sync :=
  { s with pending := none }.onSettled now provider error

end Sync

inductive Event where
  /-- The pending request fails, or its response is not verified. -/
  | failed (now : ℕ) (error : NetworkError)
  /-- `check_device_writer_sync_timeouts`. -/
  | checkTimeouts (now : ℕ)
  /-- A provider is taken out of the pool. -/
  | taken (provider : PeerId)

/-- How the pending request ends with the event, if it does. -/
def failure (pending : PendingDeviceWriterSync) : Event → Option (ℕ × NetworkError)
  | .failed now error => some (now, error)
  | .checkTimeouts now => if pending.deadline ≤ now then some (now, .timeout) else none
  | .taken _ => none

def ended (s : Sync) (event : Event) : Option (PeerId × ℕ × NetworkError) := do
  let pending ← s.pending
  let (now, error) ← failure pending event
  return (pending.provider, now, error)

def step (s : Sync) (event : Event) : Sync :=
  match ended s event with
  | some (provider, now, error) => s.fail now provider error
  | none =>
    match event with
    | .taken provider => { s with discoveredProviders := s.discoveredProviders.erase provider }
    | _ => s

def failures : Sync → List Event → ℕ
  | _, [] => 0
  | s, event :: events => (if (ended s event).isSome then 1 else 0) + failures (step s event) events

/-! ### Parked waiters -/

/-- The waiters are parked, and the provider is being asked. -/
structure Parked (waiters : List DeviceWriterSyncWaiter) (provider : PeerId) (s : Sync) : Prop where
  waiters_eq : s.waiters = waiters
  pending : ∃ deadline, s.pending = some ⟨provider, deadline⟩

def Answered (waiters : List DeviceWriterSyncWaiter) (s : Sync) : Prop :=
  s.waiters = [] ∧ ∀ waiter ∈ waiters, ∃ outcome, (waiter, outcome) ∈ s.answers

/-- The discovered providers, with the one that is being asked. -/
def providers (s : Sync) (provider : PeerId) :
    Finset PeerId := insert provider s.discoveredProviders.toFinset

/-- **After as many failures as there are providers, the waiters have been answered**, however the
requests fail and whatever is taken out of the pool meanwhile. -/
def AnsweredInTime (waiters : List DeviceWriterSyncWaiter) (provider : PeerId) (s : Sync) : Prop :=
  ∀ events, (providers s provider).card ≤ failures s events → Answered waiters (events.foldl step s)

section

variable {waiters : List DeviceWriterSyncWaiter} {provider : PeerId} {s : Sync} {event : Event}

theorem answered_answer (h : s.waiters = waiters) (outcome : MaterializedRecordRefreshOutcome) :
    Answered waiters (s.answer outcome) :=
  ⟨rfl, fun _ hmem => ⟨outcome, mem_append_right _ (mem_map_of_mem (h ▸ hmem))⟩⟩

/-- The request fails: the waiters are answered, or another provider of the pool is asked. -/
theorem Parked.step_of_failure (h : Parked waiters provider s)
    (hevent : (ended s event).isSome = true) :
    Answered waiters (step s event) ∧
        (Sync.localRefreshOnly waiters = true ∨ ∀ next ∈ s.discoveredProviders, next = provider) ∨
      Sync.localRefreshOnly waiters = false ∧
        ∃ next ∈ s.discoveredProviders, next ≠ provider ∧ Parked waiters next (step s event) ∧
          (step s event).discoveredProviders = s.discoveredProviders := by
  obtain ⟨⟨asked, now, error⟩, hended⟩ := Option.isSome_iff_exists.mp hevent
  obtain ⟨deadline, hpending⟩ := h.pending
  obtain rfl : provider = asked := by
    simp only [ended, hpending, Option.bind_eq_bind, Option.bind_some] at hended
    cases hfailure : failure ⟨provider, deadline⟩ event with
    | none => simp [hfailure] at hended
    | some => simp_all
  unfold step Sync.fail Sync.onSettled Sync.peekProviderExcept
  rw [hended]
  dsimp only
  rw [h.waiters_eq]
  cases hlocal : Sync.localRefreshOnly waiters with
  | true =>
    exact .inl ⟨answered_answer rfl _, .inl rfl⟩
  | false =>
    rw [if_neg Bool.false_ne_true]
    cases hnext : s.discoveredProviders.find? (· ≠ provider) with
    | none =>
      refine .inl ⟨answered_answer rfl _, .inr fun next hmem => ?_⟩
      simpa using find?_eq_none.mp hnext next hmem
    | some next =>
      have hne : next ≠ provider := by simpa using find?_some hnext
      exact .inr ⟨rfl, next, mem_of_find?_eq_some hnext, hne, ⟨rfl, _, rfl⟩, rfl⟩

theorem step_of_none (hevent : ended s event = none) :
    (step s event).waiters = s.waiters ∧ (step s event).pending = s.pending ∧
      (step s event).answers = s.answers ∧ (step s event).discoveredProviders ⊆
        s.discoveredProviders := by
  unfold step
  rw [hevent]
  cases event with
  | taken provider => exact ⟨rfl, rfl, rfl, erase_subset⟩
  | _ => exact ⟨rfl, rfl, rfl, List.Subset.refl _⟩

theorem Answered.step (h : Answered waiters s) (event : Event) :
    Answered waiters (step s event) := by
  have hanswer (outcome : MaterializedRecordRefreshOutcome) :
      Answered waiters ({ s with pending := none }.answer outcome) := by
    refine ⟨rfl, fun waiter hmem => ?_⟩
    obtain ⟨told, hmem⟩ := h.2 waiter hmem
    exact ⟨told, mem_append_left _ hmem⟩
  cases hended : ended s event with
  | none =>
    obtain ⟨hwaiters, -, hanswers, -⟩ := step_of_none hended
    exact ⟨hwaiters.trans h.1, by rw [hanswers]; exact h.2⟩
  | some found =>
    unfold SyncRetries.step Sync.fail Sync.onSettled
    rw [hended]
    dsimp only
    split_ifs
    · exact hanswer _
    · split
      · exact h
      · exact hanswer _

theorem Answered.foldl (h : Answered waiters s) (events : List Event) :
    Answered waiters (events.foldl SyncRetries.step s) := by
  induction events generalizing s with
  | nil => exact h
  | cons event events ih => exact ih (h.step event)

/-! ### How many failures -/

/-- With one provider in the pool, each failure leaves fewer providers to ask. -/
theorem Parked.answeredInTime (h : Parked waiters provider s)
    (hone : Sync.localRefreshOnly waiters = true ∨
      ∀ a ∈ s.discoveredProviders, ∀ b ∈ s.discoveredProviders, a = b) :
        AnsweredInTime waiters provider s := by
  intro events
  induction events generalizing s provider with
  | nil =>
    intro hcard
    have hpos : 0 < (providers s provider).card :=
      Finset.card_pos.mpr ⟨provider, Finset.mem_insert_self ..⟩
    exact absurd hcard (by simpa [failures] using hpos.ne')
  | cons event events ih =>
    intro hcard
    unfold failures at hcard
    cases hended : ended s event with
    | some found =>
      have hevent : (ended s event).isSome = true := by rw [hended]; rfl
      rw [if_pos hevent] at hcard
      rcases h.step_of_failure hevent with ⟨hanswered, -⟩ | ⟨hlocal, next, hmem, hne,
        hparked, hpool⟩
      · exact hanswered.foldl events
      · have hsame := hone.resolve_left (by rw [hlocal]; exact Bool.false_ne_true)
        -- the pool holds the next provider only, and not the one that failed
        have hfewer : providers (step s event) next ⊂ providers s provider := by
          rw [Finset.ssubset_iff_of_subset fun x hx => ?_]
          · refine ⟨provider, Finset.mem_insert_self .., fun hprovider => ?_⟩
            rcases Finset.mem_insert.mp hprovider with heq | hpooled
            · exact hne heq.symm
            · rw [hpool, mem_toFinset] at hpooled
              exact hne (hsame next hmem provider hpooled)
          · rcases Finset.mem_insert.mp hx with rfl | hpooled
            · exact Finset.mem_insert_of_mem (mem_toFinset.mpr hmem)
            · rw [hpool] at hpooled
              exact Finset.mem_insert_of_mem hpooled
        have hlt := Finset.card_lt_card hfewer
        exact ih hparked (by rw [hpool]; exact hone) (by omega)
    | none =>
      rw [if_neg (by rw [hended]; exact Bool.false_ne_true)] at hcard
      obtain ⟨hwaiters, hpending, -, hsub⟩ := step_of_none hended
      refine ih ⟨hwaiters.trans h.waiters_eq, by rw [hpending]; exact h.pending⟩
        (hone.imp_right fun hsame a ha b hb => hsame a (hsub ha) b (hsub hb)) ?_
      have hle : (providers (step s event) provider).card ≤ (providers s provider).card :=
        Finset.card_le_card (Finset.insert_subset_insert _ fun x hx =>
          mem_toFinset.mpr (hsub (mem_toFinset.mp hx)))
      omega

/-- With two providers in the pool, the waiters stay parked through any number of failures. -/
theorem Parked.forever (h : Parked waiters provider s)
    (hlocal : Sync.localRefreshOnly waiters = false) {a b : PeerId} (ha : a ∈ s.discoveredProviders)
    (hb : b ∈ s.discoveredProviders) (hab : a ≠ b) (n : ℕ) :
    ∃ events, failures s events = n ∧ (events.foldl step s).waiters = waiters := by
  induction n generalizing s provider with
  | zero => exact ⟨[], rfl, h.waiters_eq⟩
  | succ n ih =>
    obtain ⟨deadline, hpending⟩ := h.pending
    have hevent : (ended s (.failed 0 .timeout)).isSome = true := by simp [ended, hpending, failure]
    rcases h.step_of_failure hevent with ⟨-, hlocal' | hnone⟩ | ⟨-, next, -, -, hparked, hpool⟩
    · rw [hlocal] at hlocal'
      cases hlocal'
    · exact absurd ((hnone a ha).trans (hnone b hb).symm) hab
    · obtain ⟨events, hfailures, hwaiters⟩ := ih hparked (by rwa [hpool]) (by rwa [hpool])
      refine ⟨.failed 0 .timeout :: events, ?_, hwaiters⟩
      unfold failures
      rw [if_pos hevent, hfailures, Nat.add_comm]

end

/-- **The waiters are answered in time if and only if the pool holds at most one provider**, or they
are all refreshes of the local identity, which ask no other provider. -/
theorem answeredInTime_iff {waiters : List DeviceWriterSyncWaiter} {provider : PeerId} {s : Sync}
    (h : Parked waiters provider s) (hsome : waiters ≠ []) : AnsweredInTime waiters provider s ↔
      Sync.localRefreshOnly waiters = true ∨ ∀ a ∈ s.discoveredProviders,
        ∀ b ∈ s.discoveredProviders, a = b := by
  refine ⟨fun hanswered => ?_, h.answeredInTime⟩
  by_contra hcontra
  push Not at hcontra
  obtain ⟨hlocal, a, ha, b, hb, hab⟩ := hcontra
  obtain ⟨events, hfailures, hwaiters⟩ := h.forever (by simpa using hlocal) ha hb hab
    (providers s provider).card
  exact hsome (hwaiters.symm.trans (hanswered events hfailures.ge).1)

/-- One waiter, and a request at the provider `a`. -/
def enumerating (pool : List PeerId) : Sync := ⟨pool, some ⟨"a", 30⟩, [.enumerate "/" 0], [], 30⟩

theorem parked_enumerating (pool : List PeerId) : Parked [.enumerate "/" 0] "a"
    (enumerating pool) := ⟨rfl, 30, rfl⟩

theorem one_provider_answered : AnsweredInTime [.enumerate "/" 0] "a" (enumerating ["a"]) := by
  refine (answeredInTime_iff (parked_enumerating _) (cons_ne_nil _ _)).mpr (.inr ?_)
  simp [enumerating]

/-- With the providers `a` and `b`, no number of failures is enough. -/
theorem two_providers_never_answered : Parked [.enumerate "/" 0] "a" (enumerating ["a", "b"]) ∧
      ∀ n, ∃ events, failures (enumerating ["a", "b"]) events = n ∧
        (events.foldl step (enumerating ["a", "b"])).waiters = [.enumerate "/" 0] := by
  have ha : "a" ∈ (enumerating ["a", "b"]).discoveredProviders := by simp [enumerating]
  have hb : "b" ∈ (enumerating ["a", "b"]).discoveredProviders := by simp [enumerating]
  exact ⟨parked_enumerating _, (parked_enumerating _).forever rfl ha hb (by decide)⟩

end Jolt.Network.SyncRetries

import Jolt.Lib.Runs

/-! # The state of a subscription object

The object that `Subscription.create` of `data.ts` returns has a state, which `get`, `remove` and
the `next` of its change streams write when the backend answers them. `get` looks at the state when
it is called, but no method looks again when its answer arrives, and `next` does not look at all. A
state that is Cancelled or Revoked remains so exactly if no view and no state that is not terminal
answers a call that is in flight by then (`terminal_sticks_iff`). A `get` that is in flight when the
subscription is removed makes it usable again (`removed_subscription_returns`).

The items that `get` and `next` read after they have written the state, and the cursors, are those
of `Sdk.Subscriptions`; neither is read for the state. -/

namespace Jolt.Sdk.SubscriptionStates

open Lib.Runs

/-! ### The object -/

inductive SubscriptionState where
  | loading
  | updating
  | ready
  | stale
  | unavailable
  | cancelled
  | revoked
deriving DecidableEq

inductive SubscriptionFailure where
  | networkUnavailable
  | verificationFailed
  | overloaded
deriving DecidableEq

/-- What the backend says about the state: of a view that it has read, or in an event. -/
structure BackendState where
  state : SubscriptionState
  lastVerifiedAt : Option ℕ
  reason : Option SubscriptionFailure

inductive BackendSubscriptionChange where
  | snapshot (view : BackendState)
  | changed
  | state (state : BackendState)
  | resyncRequired
  | cancelled
  | revoked

/-- How a call of the backend fails; only the loss of access is told apart. -/
inductive BackendError where
  | accessRevoked
  | other
deriving DecidableEq

/-- How `get` is refused before it asks the backend. -/
inductive GetRefusal where
  | cancelled
  | accessRevoked

/-- A stream that `changes` returned: whether its backend stream is open, whether it was cancelled
before that, and whether its last event was delivered. -/
structure ChangeStream where
  backendStream : Bool
  cancelledBeforeOpen : Bool
  terminalDelivered : Bool

inductive InFlight where
  | get
  | next (stream : ℕ)
  | remove
deriving DecidableEq

structure DataSubscription where
  state : SubscriptionState
  lastVerifiedAt : Option ℕ
  reason : Option SubscriptionFailure
  streams : List ChangeStream
  inFlight : List InFlight

namespace DataSubscription

variable (s : DataSubscription) (n : ℕ)

def created : DataSubscription := ⟨.loading, none, none, [], []⟩

def await (call : InFlight) : DataSubscription :=
  { s with inFlight := call :: s.inFlight }

def resume (call : InFlight) (go : DataSubscription → DataSubscription) : DataSubscription :=
  if call ∈ s.inFlight then go { s with inFlight := s.inFlight.erase call } else s

def setStream (stream : ChangeStream) : DataSubscription :=
  { s with streams := s.streams.set n stream }

/-- The three assignments of `get` and `next`. -/
def take (told : BackendState) : DataSubscription :=
  { s with state := told.state, lastVerifiedAt := told.lastVerifiedAt, reason := told.reason }

def get (s : DataSubscription) : Except GetRefusal DataSubscription :=
  if s.state = .cancelled then .error .cancelled
  else if s.state = .revoked then .error .accessRevoked
  else .ok ({ s with state := if s.lastVerifiedAt.isNone then .loading else .updating }.await .get)

def gotten : Except BackendError BackendState → DataSubscription
  | .ok view => s.take view
  | .error .accessRevoked => { s with state := .revoked }
  | .error .other => s

def next (s : DataSubscription) (n : ℕ) : DataSubscription :=
  match s.streams[n]? with
  | none => s
  | some stream =>
    if stream.terminalDelivered then s
    else if stream.cancelledBeforeOpen then s.setStream n { stream with terminalDelivered := true }
    else (s.setStream n { stream with backendStream := true }).await (.next n)

def deliverLast : DataSubscription :=
  { s with streams := s.streams.modify n fun stream => { stream with terminalDelivered := true } }

/-- `next` when the backend has answered; if the call failed, it throws. -/
def changed (s : DataSubscription) (n : ℕ) : Except BackendError BackendSubscriptionChange →
    DataSubscription
  | .ok (.snapshot view) => s.take view
  | .ok .changed => s
  | .ok (.state state) => s.take state
  | .ok .resyncRequired => s
  | .ok .cancelled => s.deliverLast n
  | .ok .revoked => { s with state := .revoked }.deliverLast n
  | .error _ => s

/-- `cancel` of a stream; an open one is cancelled at the backend. -/
def cancel : DataSubscription :=
  { s with
    streams := s.streams.modify n fun stream =>
      if stream.backendStream then stream else { stream with cancelledBeforeOpen := true } }

/-- `remove` up to the call of the backend. -/
def remove (s : DataSubscription) : DataSubscription :=
  if s.state = .cancelled then s else s.await .remove

/-- `remove` when the backend has answered. -/
def removed : Except BackendError Unit → DataSubscription
  | .ok () => { s with state := .cancelled, reason := none }
  | .error _ => s

end DataSubscription

variable {s : DataSubscription}

/-! ### Runs -/

inductive Event where
  | get
  | gotten (answer : Except BackendError BackendState)
  | changes
  | next (stream : ℕ)
  | changed (stream : ℕ) (answer : Except BackendError BackendSubscriptionChange)
  | cancel (stream : ℕ)
  | remove
  | removed (answer : Except BackendError Unit)

/-- The object after an event; an answer is for a call that is in flight. -/
def step (s : DataSubscription) : Event → DataSubscription
  | .get => (s.get).toOption.getD s
  | .gotten answer => s.resume .get (·.gotten answer)
  | .changes => { s with streams := s.streams ++ [⟨false, false, false⟩] }
  | .next n => s.next n
  | .changed n answer => s.resume (.next n) (·.changed n answer)
  | .cancel n => s.cancel n
  | .remove => s.remove
  | .removed answer => s.resume .remove (·.removed answer)

def run (events : List Event) : DataSubscription := events.foldl step .created

/-! ### Terminal states -/

def SubscriptionState.terminal : SubscriptionState → Bool
  | cancelled | revoked => true
  | _ => false

/-- A view or a state that answers a call in flight in a terminal state is terminal. -/
def ReportsTerminal (s : DataSubscription) : Event → Prop
  | .gotten (.ok view) =>
    s.state.terminal = true → InFlight.get ∈ s.inFlight → view.state.terminal = true
  | .changed n (.ok (.snapshot view)) =>
    s.state.terminal = true → InFlight.next n ∈ s.inFlight → view.state.terminal = true
  | .changed n (.ok (.state state)) =>
    s.state.terminal = true → InFlight.next n ∈ s.inFlight → state.state.terminal = true
  | _ => True

theorem get_of_terminal (h : s.state.terminal = true) : ∃ refusal, s.get = .error refusal := by
  unfold DataSubscription.get
  cases hstate : s.state with
  | cancelled => exact ⟨_, if_pos rfl⟩
  | revoked => exact ⟨_, if_neg nofun⟩
  | _ => simp [hstate, SubscriptionState.terminal] at h

theorem state_next (s : DataSubscription) (n : ℕ) : (s.next n).state = s.state := by
  unfold DataSubscription.next
  split
  · rfl
  · split_ifs <;> rfl

theorem state_remove (s : DataSubscription) : s.remove.state = s.state := by
  unfold DataSubscription.remove
  split_ifs <;> rfl

theorem state_resume (s : DataSubscription) (call : InFlight)
    (go : DataSubscription → DataSubscription) :
    (s.resume call go).state =
      if call ∈ s.inFlight then (go { s with inFlight := s.inFlight.erase call }).state
      else s.state := by
  unfold DataSubscription.resume
  split_ifs <;> rfl

/-- **In a terminal state only a view or a state of the backend can end it.** -/
theorem terminal_step_iff (hterminal : s.state.terminal = true) (event : Event) :
    (step s event).state.terminal = true ↔ ReportsTerminal s event := by
  cases event with
  | get =>
    obtain ⟨refusal, hrefused⟩ := get_of_terminal hterminal
    simp [step, hrefused, Except.toOption, hterminal, ReportsTerminal]
  | gotten answer =>
    rw [step, state_resume]
    rcases answer with (_ | _) | view <;> split_ifs with hflight <;>
      simp_all [DataSubscription.gotten, DataSubscription.take, ReportsTerminal,
        SubscriptionState.terminal]
  | changes => exact iff_of_true hterminal trivial
  | next n => exact iff_of_true (by rwa [step, state_next]) trivial
  | changed n answer =>
    rw [step, state_resume]
    rcases answer with _ | _ | _ | _ | _ | _ | _ <;> split_ifs with hflight <;>
      simp_all [DataSubscription.changed, DataSubscription.take, DataSubscription.deliverLast,
        ReportsTerminal, SubscriptionState.terminal]
  | cancel n => exact iff_of_true hterminal trivial
  | remove => exact iff_of_true (by rwa [step, state_remove]) trivial
  | removed answer =>
    rw [step, state_resume]
    rcases answer with _ | _ <;> split_ifs with hflight <;>
      simp_all [DataSubscription.removed, ReportsTerminal, SubscriptionState.terminal]

theorem terminal_foldl {events : List Event} (h : Along step ReportsTerminal s events)
    (hterminal : s.state.terminal = true) : (events.foldl step s).state.terminal = true :=
  h.invariant (I := fun s => s.state.terminal = true)
    (fun _ event hs hreports => (terminal_step_iff hs event).mpr hreports) hterminal

/-- In every part of the run, a terminal state at its start is terminal at its end, and `get` is
refused there. -/
def Sticks (s : DataSubscription) (events : List Event) : Prop :=
  ∀ before after, before ++ after <+: events → (before.foldl step s).state.terminal = true →
    ((before ++ after).foldl step s).state.terminal = true ∧
      ∃ refusal, ((before ++ after).foldl step s).get = .error refusal

theorem Sticks.tail {event : Event} {events : List Event} (h : Sticks s (event :: events)) :
    Sticks (step s event) events := by
  intro before after hpart hterminal
  exact h (event :: before) after (List.cons_prefix_cons.mpr ⟨rfl, hpart⟩) hterminal

theorem along_of_sticks {events : List Event} (h : Sticks s events) :
    Along step ReportsTerminal s events := by
  induction events generalizing s with
  | nil => trivial
  | cons event events ih =>
    refine ⟨?_, ih h.tail⟩
    by_cases hterminal : s.state.terminal = true
    · have hnext := (h [] [event] (by simp) hterminal).1
      exact (terminal_step_iff hterminal event).mp hnext
    · unfold ReportsTerminal
      split <;> first | trivial | exact fun hs => absurd hs hterminal

/-- **Terminal states are final exactly if no view and no state that is not terminal answers a call
in a terminal state**, in every interleaving of calls and answers: then, and only then, a state
that is Cancelled or Revoked remains so, and every later `get` is refused. -/
theorem terminal_sticks_iff (events : List Event) :
    Sticks .created events ↔ Along step ReportsTerminal .created events := by
  refine ⟨along_of_sticks, fun h before after hpart hterminal => ?_⟩
  obtain ⟨rest, rfl⟩ := hpart
  have hafter := (along_append.mp (along_append.mp h).1).2
  have hend := terminal_foldl hafter hterminal
  rw [← List.foldl_append] at hend
  exact ⟨hend, get_of_terminal hend⟩

/-- The subscription is removed while a `get` is in flight; when the view arrives, the state is
Ready, and the next `get` is not refused. -/
theorem removed_subscription_returns :
    ¬ Sticks .created
        [.get, .remove, .removed (.ok ()), .gotten (.ok ⟨.ready, some 7, none⟩)] ∧
      (run [.get, .remove, .removed (.ok ())]).state = .cancelled ∧
      ∃ s, (run [.get, .remove, .removed (.ok ()), .gotten (.ok ⟨.ready, some 7, none⟩)]).get =
        .ok s := by
  refine ⟨fun h => ?_, rfl, _, rfl⟩
  have hend := h [.get, .remove, .removed (.ok ())] [.gotten (.ok ⟨.ready, some 7, none⟩)]
    (List.prefix_refl _) rfl
  exact absurd hend.1 (by decide)

/-- A `next` that the backend answers as cancelled, and a failing `remove`, after a removal. -/
example : Along step ReportsTerminal .created
    [.changes, .next 0, .remove, .removed (.ok ()), .changed 0 (.ok .cancelled), .get,
      .removed (.error .other)] := by
  simp [Along, ReportsTerminal]

end Jolt.Sdk.SubscriptionStates

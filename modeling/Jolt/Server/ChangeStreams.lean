import Jolt.Lib.Diffs
import Jolt.Lib.Journals
import Jolt.Server.Sessions

/-! # Change streams

The streams of `data_change_streams.rs`, through which an app follows the records of a data
subscription. A stream has the records and the refresh state that were published last, and a journal
of the last changes. A poll brings the cursor of the last event that the app has seen and is
answered with the next event, with a snapshot if that event was dropped, or waits. A stream that
ends leaves a tombstone for some time, and one that nobody polls is evicted.

The registry is behind one lock, so every function below is one atomic step. A poll that waits takes
another turn (`nextTurn`) when it is notified. Cursors are the pairs that their texts
`generation:sequence` stand for, times are seconds, sequences are natural numbers where the source
has 64 bits, and the tables of the registry are functions, since no result depends on the order of
their entries. -/

namespace Jolt.Server.ChangeStreams

open Std Lib.Diffs Lib.Journals Sessions List

/-! ### Events -/

structure MaterializedRecordInfo where
  path : String
  contentId : String
  revision : String
  createdAt : UInt64
deriving DecidableEq

structure Cursor where
  generation : String
  sequence : ℕ
deriving DecidableEq

inductive DataChangeEvent where
  | snapshot (cursor : Cursor) (identity : String) (records : List MaterializedRecordInfo)
      (state : DataSubscriptionRefresh)
  | changed (cursor : Cursor) (identity : String) (records : List MaterializedRecordInfo)
      (removed : List String)
  | state (cursor : Cursor) (state : DataSubscriptionRefresh)
  | timeout (cursor : Cursor)
  | resyncRequired
  | cancelled
  | revoked
deriving DecidableEq

def DataChangeEvent.isState : DataChangeEvent → Bool
  | state .. => true
  | _ => false

abbrev Records := ExtTreeMap String MaterializedRecordInfo

def byPath (records : List MaterializedRecordInfo) : Records := byKey (·.path) records

/-- Whether a new refresh state is worth an event. -/
def refreshTransitionChanged : DataSubscriptionRefresh → DataSubscriptionRefresh → Bool
  | .loading, .loading => false
  | .updating _, .updating _ => false
  | .ready _, .ready _ => false
  | .stale _ previous, .stale _ next => previous ≠ next
  | .unavailable previous, .unavailable next => previous ≠ next
  | _, _ => true

/-! ### The registry -/

/-- The field `journal` has the source's `sequence` and `journal`. -/
structure StreamState where
  sessionId : String
  identity : String
  records : Records
  refresh : DataSubscriptionRefresh
  journal : Journal DataChangeEvent
  lastPolledAt : ℕ

structure TerminalTombstone where
  sessionId : String
  event : DataChangeEvent
  expiresAt : ℕ

structure StreamRegistry where
  active : String → Option StreamState
  terminal : String → Option TerminalTombstone

def StreamRegistry.default : StreamRegistry := ⟨fun _ => none, fun _ => none⟩

def StreamRegistry.insertActive (registry : StreamRegistry) (subscriptionId : String)
    (stream : StreamState) : StreamRegistry :=
  { registry with active := Function.update registry.active subscriptionId (some stream) }

structure DataChangeStreams where
  generation : String
  capacity : ℕ
  idleTimeout : ℕ
  capacity_pos : 0 < capacity

def DataChangeStreams.withGenerationCapacityAndIdleTimeout (generation : String)
    (capacity idleTimeout : ℕ) : DataChangeStreams :=
  ⟨generation, max capacity 1, idleTimeout, by omega⟩

def StreamState.new (sessionId identity : String) (records : List MaterializedRecordInfo)
    (refresh : DataSubscriptionRefresh) (now : ℕ) : StreamState where
  sessionId := sessionId
  identity := identity
  records := byPath records
  refresh := refresh
  journal := .empty
  lastPolledAt := now

namespace DataChangeStreams

variable (streams : DataChangeStreams) (now : ℕ) (sessionId subscriptionId identity : String)
  (records : List MaterializedRecordInfo) (refresh : DataSubscriptionRefresh)
  (registry : StreamRegistry) (stream : StreamState)

def cursor (sequence : ℕ) : Cursor := ⟨streams.generation, sequence⟩

def parseCursor (cursor : Cursor) : Option ℕ :=
  if cursor.generation = streams.generation then some cursor.sequence else none

def snapshot (stream : StreamState) : DataChangeEvent :=
  .snapshot (streams.cursor stream.journal.sequence) stream.identity
    (values stream.records) stream.refresh

def pushEvent (event : DataChangeEvent) : StreamState :=
  { stream with journal := stream.journal.push streams.capacity event }

/-! ### Polls -/

/-- What an active stream of the poll's session and identity answers. Nothing means that the poll
waits. -/
def answer : Option ℕ → Option DataChangeEvent
  | none => some (streams.snapshot stream)
  | some requestedSequence =>
    if requestedSequence > stream.journal.sequence then
      some .resyncRequired
    else if stream.journal.isLost requestedSequence then
      some (streams.snapshot stream)
    else
      (stream.journal.next? requestedSequence).map (·.2)

/-- One turn of the loop in `next_with_timeout`. -/
def turn (requestedSequence : Option ℕ) (registry : StreamRegistry) :
    Option DataChangeEvent × StreamRegistry :=
  match registry.terminal subscriptionId with
  | some terminal =>
    (some (if terminal.sessionId = sessionId then terminal.event else .resyncRequired), registry)
  | none =>
    match registry.active subscriptionId with
    | none =>
      let stream := StreamState.new sessionId identity records refresh now
      (some (streams.snapshot stream), registry.insertActive subscriptionId stream)
    | some stream =>
      if stream.sessionId ≠ sessionId ∨ stream.identity ≠ identity then
        (some .resyncRequired, registry)
      else
        (streams.answer stream requestedSequence,
          registry.insertActive subscriptionId { stream with lastPolledAt := now })

/-- A turn of a poll with its cursor, which must be of this process. -/
def nextTurn (cursor : Option Cursor) (registry : StreamRegistry) :
    Option DataChangeEvent × StreamRegistry :=
  match cursor with
  | none => streams.turn now sessionId subscriptionId identity records refresh none registry
  | some cursor =>
    match streams.parseCursor cursor with
    | none => (some .resyncRequired, registry)
    | some sequence =>
      streams.turn now sessionId subscriptionId identity records refresh (some sequence) registry

/-! ### Publishing -/

def publishRecords (nextRecords : Records) (stream : StreamState) : StreamState :=
  let changed := changed stream.records nextRecords
  let removed := removed stream.records nextRecords
  if ¬ changed.isEmpty ∨ ¬ removed.isEmpty then
    streams.pushEvent { stream with records := nextRecords }
      (.changed (streams.cursor (stream.journal.sequence + 1)) identity changed removed)
  else
    { stream with records := nextRecords }

/-- The event for a changed refresh state, in place of one for an earlier refresh state. -/
def publishRefresh : StreamState :=
  if refreshTransitionChanged stream.refresh refresh then
    streams.pushEvent
      { stream with refresh := refresh, journal := stream.journal.popIf DataChangeEvent.isState }
      (.state (streams.cursor (stream.journal.sequence + 1)) refresh)
  else
    { stream with refresh := refresh }

def publishInner (registerIfMissing : Bool) (registry : StreamRegistry) : StreamRegistry :=
  if (registry.terminal subscriptionId).isSome then registry
  else
    match registry.active subscriptionId with
    | none =>
      if ¬ registerIfMissing then registry
      else registry.insertActive subscriptionId (.new sessionId identity records refresh now)
    | some stream =>
      if stream.sessionId ≠ sessionId ∨ stream.identity ≠ identity then registry
      else
        registry.insertActive subscriptionId
          (streams.publishRefresh refresh (streams.publishRecords identity (byPath records) stream))

def publish : StreamRegistry :=
  streams.publishInner now sessionId subscriptionId identity records refresh true registry

def publishIfActive : StreamRegistry :=
  streams.publishInner now sessionId subscriptionId identity records refresh false registry

/-! ### The end of a stream -/

/-- The streams for which `ends` holds are removed, and a tombstone with the event is left for
each. -/
def terminate (event : DataChangeEvent) (ends : String → StreamState → Bool)
    (registry : StreamRegistry) :
    StreamRegistry where
  active := fun id => (registry.active id).filter fun stream => ¬ ends id stream
  terminal := fun id =>
    if (registry.active id).any (ends id) then some ⟨sessionId, event, now + streams.idleTimeout⟩
    else registry.terminal id

def cancelSubscription : StreamRegistry → StreamRegistry :=
  streams.terminate now sessionId .cancelled fun id stream =>
    id = subscriptionId ∧ stream.sessionId = sessionId

def revokeSession : StreamRegistry → StreamRegistry :=
  streams.terminate now sessionId .revoked fun _ stream => stream.sessionId = sessionId

/-- Remove the streams that were not polled for long, unless a waiting poll holds them, and the
tombstones whose time is over. -/
def evictIdle (held : String → Bool) (registry : StreamRegistry) : StreamRegistry where
  active := fun id =>
    (registry.active id).filter fun stream => held id || now - stream.lastPolledAt <
      streams.idleTimeout
  terminal := fun id => (registry.terminal id).filter fun tombstone => tombstone.expiresAt > now

end DataChangeStreams

def StreamRegistry.isActive (registry : StreamRegistry) (sessionId subscriptionId : String) :
    Bool :=
  (registry.active subscriptionId).any (·.sessionId = sessionId)

/-! ### What a reader makes of the events -/

/-- The records and the refresh state, as published or as known to a reader. -/
structure View where
  records : Records
  refresh : DataSubscriptionRefresh

/-- Replace on a snapshot, upsert and remove on a change. -/
def View.apply (view : View) : DataChangeEvent → View
  | .snapshot _ _ records state => ⟨byPath records, state⟩
  | .changed _ _ records removed =>
      { view with records := patch (·.path) view.records records removed }
  | .state _ state => { view with refresh := state }
  | _ => view

def StreamState.view (stream : StreamState) : View := ⟨stream.records, stream.refresh⟩

/-- The same records, and refresh states between which no event is due. -/
def SameView (view view' : View) : Prop :=
  view.records = view'.records ∧ refreshTransitionChanged view.refresh view'.refresh = false

theorem refreshTransitionChanged_self (refresh : DataSubscriptionRefresh) :
    refreshTransitionChanged refresh refresh = false := by
  cases refresh <;> simp [refreshTransitionChanged]

theorem refreshTransitionChanged_trans {a b c : DataSubscriptionRefresh}
    (hab : refreshTransitionChanged a b = false) (hbc : refreshTransitionChanged b c = false) :
    refreshTransitionChanged a c = false := by
  cases a <;> cases b <;> simp [refreshTransitionChanged] at hab <;>
    cases c <;> simp [refreshTransitionChanged] at hbc ⊢
  · exact hab.trans hbc
  · exact hab.trans hbc

theorem SameView.refl (view : View) : SameView view view := ⟨rfl, refreshTransitionChanged_self _⟩

/-! ### Streams -/

/-- The cursor of an event that belongs in a journal. -/
def DataChangeEvent.changeCursor? : DataChangeEvent → Option Cursor
  | changed cursor .. => some cursor
  | state cursor _ => some cursor
  | _ => none

/-- The journal is numbered by the cursors of its events, and the records stand under their
paths. -/
structure StreamState.WellFormed (generation : String) (stream : StreamState) : Prop where
  ordered : stream.journal.Ordered
  cursors : ∀ entry ∈ stream.journal.entries, entry.2.changeCursor? = some ⟨generation, entry.1⟩
  keyed : Keyed (·.path) stream.records

variable {streams : DataChangeStreams} {stream : StreamState}

theorem StreamState.wellFormed_new (generation sessionId identity : String)
    (records : List MaterializedRecordInfo) (refresh : DataSubscriptionRefresh) (now : ℕ) :
    (StreamState.new sessionId identity records refresh now).WellFormed generation :=
  ⟨Journal.ordered_empty, by simp [StreamState.new, Journal.empty], keyed_byKey _⟩

/-- A reader with the cursor's sequence and the view has the stream's view once it has seen the
rest. -/
def Follows (stream : StreamState) (sequence : ℕ) (view : View) : Prop :=
  Journal.Behind SameView View.apply stream.journal sequence view stream.view

/-- `stream'` comes from `stream` by publishing `view`: who followed still does. -/
structure Publishes (generation : String) (stream stream' : StreamState) (view : View) : Prop where
  wellFormed : stream'.WellFormed generation
  view_eq : stream'.view = view
  sessionId_eq : stream'.sessionId = stream.sessionId
  identity_eq : stream'.identity = stream.identity
  follows : ∀ sequence known, Follows stream sequence known → Follows stream' sequence known

theorem cursors_push {j : Journal DataChangeEvent} {generation : String} {event : DataChangeEvent}
    {capacity : ℕ} (h : ∀ entry ∈ j.entries, entry.2.changeCursor? = some ⟨generation, entry.1⟩)
    (hevent : event.changeCursor? = some ⟨generation, j.sequence + 1⟩) :
    ∀ entry ∈ (j.push capacity event).entries, entry.2.changeCursor? =
      some ⟨generation, entry.1⟩ := by
  intro entry hentry
  rcases mem_append.mp (mem_of_mem_drop hentry) with hold | hnew
  · exact h entry hold
  · rw [mem_singleton.mp hnew]
    exact hevent

theorem publishes_publishRecords (h : stream.WellFormed streams.generation) (identity : String)
    (records : List MaterializedRecordInfo) :
    Publishes streams.generation stream (streams.publishRecords identity (byPath records) stream)
      ⟨byPath records, stream.refresh⟩ := by
  have hkeyed : Keyed (·.path) (byPath records) := keyed_byKey records
  unfold DataChangeStreams.publishRecords
  dsimp only
  split_ifs with hchanged
  · refine ⟨⟨h.ordered.push _ _, cursors_push h.cursors rfl, hkeyed⟩, rfl, rfl, rfl, ?_⟩
    intro sequence known hknown
    refine hknown.push h.ordered streams.capacity_pos fun view hview => ⟨?_, hview.2⟩
    -- the reader has the old records, and the event is their difference to the new ones
    rw [View.apply, hview.1]
    exact patch_changed_removed hkeyed
  · rw [not_or, not_not, not_not, List.isEmpty_iff, List.isEmpty_iff] at hchanged
    have hsame := eq_of_changed_removed_eq_nil hkeyed hchanged.1 hchanged.2
    refine ⟨⟨h.ordered, h.cursors, hkeyed⟩, rfl, rfl, rfl, fun sequence known hknown => ?_⟩
    rw [Follows, StreamState.view, ← hsame]
    exact hknown

theorem cursors_popIf {j : Journal DataChangeEvent} {generation : String}
    (h : ∀ entry ∈ j.entries, entry.2.changeCursor? = some ⟨generation, entry.1⟩)
    (p : DataChangeEvent → Bool) :
    ∀ entry ∈ (j.popIf p).entries, entry.2.changeCursor? = some ⟨generation, entry.1⟩ := by
  unfold Journal.popIf
  split_ifs
  · exact fun entry hentry => h entry ((dropLast_sublist _).subset hentry)
  · exact h

section

variable (h : stream.WellFormed streams.generation)
include h

theorem publishes_publishRefresh (refresh : DataSubscriptionRefresh) :
    Publishes streams.generation stream (streams.publishRefresh refresh stream) ⟨stream.records,
      refresh⟩ := by
  unfold DataChangeStreams.publishRefresh
  split_ifs with hchanged
  · have hsequence : (stream.journal.popIf DataChangeEvent.isState).sequence =
      stream.journal.sequence := by
      unfold Journal.popIf
      split_ifs <;> rfl
    have hevent : DataChangeEvent.changeCursor?
      (.state (streams.cursor (stream.journal.sequence + 1)) refresh) =
        some ⟨streams.generation, (stream.journal.popIf DataChangeEvent.isState).sequence + 1⟩ := by
      rw [hsequence]
      rfl
    refine ⟨⟨(h.ordered.popIf _).push _ _, cursors_push (cursors_popIf h.cursors _) hevent,
      h.keyed⟩,
      rfl, rfl, rfl, fun sequence known hknown => ?_⟩
    refine hknown.push_popIf h.ordered streams.capacity_pos
      (fun view hview => ⟨hview.1, refreshTransitionChanged_self _⟩) fun view event hstate => ?_
    cases event <;> simp_all [DataChangeEvent.isState, View.apply]
  · refine ⟨⟨h.ordered, h.cursors, h.keyed⟩, rfl, rfl, rfl, fun sequence known hknown => ?_⟩
    refine ⟨hknown.1, fun hlost => ?_⟩
    obtain ⟨hrecords, hrefresh⟩ := hknown.2 hlost
    have hnext := Bool.eq_false_of_not_eq_true hchanged
    exact ⟨hrecords, refreshTransitionChanged_trans hrefresh hnext⟩

/-- **Publishing keeps every reader behind the stream.** -/
theorem publishes_published (identity : String)
    (records : List MaterializedRecordInfo) (refresh : DataSubscriptionRefresh) :
    Publishes streams.generation stream
      (streams.publishRefresh refresh (streams.publishRecords identity (byPath records) stream))
      ⟨byPath records, refresh⟩ := by
  have hrecords := publishes_publishRecords h identity records
  have hrefresh := publishes_publishRefresh hrecords.wellFormed refresh
  have hview : (streams.publishRecords identity (byPath records) stream).records = byPath records :=
    congrArg View.records hrecords.view_eq
  rw [hview] at hrefresh
  exact ⟨hrefresh.wellFormed, hrefresh.view_eq, hrefresh.sessionId_eq.trans hrecords.sessionId_eq,
    hrefresh.identity_eq.trans hrecords.identity_eq,
    fun sequence known hknown => hrefresh.follows _ _ (hrecords.follows _ _ hknown)⟩

theorem apply_snapshot (view : View) : view.apply (streams.snapshot stream) = stream.view := by
  rw [DataChangeStreams.snapshot, View.apply, byPath, byKey_values h.keyed]
  rfl

theorem follows_view : Follows stream stream.journal.sequence stream.view :=
  Journal.Behind.self h.ordered (SameView.refl _)

end

end Jolt.Server.ChangeStreams

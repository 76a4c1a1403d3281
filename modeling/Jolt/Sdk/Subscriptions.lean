import Jolt.Lib.Runs
import Jolt.Sdk.ConflictPolicy
import Jolt.Server.ChangeStreams

/-! # Subscriptions of an app

How an app follows the records of another identity with the SDK (`Subscription.create` in
`data.ts`). The server lists the records and keeps a change stream of them. A call of `next` asks
the stream for the next event after the cursor, reads the record behind each ref that the event
names, and returns the items. `get` lists the records and reads them all. A consumer replaces its
items on a snapshot and updates them on a change.

The backend's stream and the stream that the app has each have a cursor, and both take it from an
event before the records are read. So the refs of an event are named again after a call that fails
at the server (`redelivered_of_readsSucceed`), but not after one that fails when it reads.

Each event below is atomic: records are read one by one, and all else may happen in between. The
processes of the server follow one another, each with a generation of its own. -/

namespace Jolt.Sdk.Subscriptions

open Lib.Diffs Lib.Journals Lib.Runs Schemas Items ConcurrentUpdates ConflictPolicy Server.Sessions
  Server.ChangeStreams List Nat

/-! ### Reading items -/

/-- The records that the server lists for a subscription, and what the backend reads at a path. -/
structure Source where
  records : List MaterializedRecordInfo
  found : String → Except DataError BackendRecord

/-- The processes of the server, whose generations are random ids, and the schema that the app reads
with. -/
structure Setting where
  streamsOf : ℕ → DataChangeStreams
  generation_injective : Function.Injective fun n => (streamsOf n).generation
  isoTime : String → Option ℤ
  classes : SchemaClasses
  resource : ResourceDefinition

section

variable (S : Setting)

/-- What `itemsForRefs` adds for a ref. Items that are not present and values that do not fit the
schema are left out; other errors end it. -/
def itemForRef (source : Source) (ref : String) : Except DataError (Option Item) :=
  match source.found ref >>= readItem S.isoTime S.classes S.resource false with
  | .ok (.present migrated value revision observed) =>
      .ok (some (.present migrated value revision observed))
  | .ok _ => .ok none
  | .error (.validation ..) | .error (.migration ..) => .ok none
  | .error error => .error error

end

variable (items : String → Option Item)

/-! ### The streams -/

def refs : DataChangeEvent → List String
  | .snapshot _ _ records _ | .changed _ _ records _ => records.map (·.path)
  | _ => []

def removedRefs : DataChangeEvent → List String
  | .changed _ _ _ removed => removed
  | _ => []

def isSnapshot : DataChangeEvent → Bool
  | .snapshot .. => true
  | _ => false

/-- The stream of the connected backend, from `openSubscriptionChanges`. -/
structure BackendChangeStream where
  cursor : Option Cursor
  cancelled : Bool

/-- The stream that `changes` returns. The first call of `next` opens the backend's stream. -/
structure DataChangeStream where
  cursor : Option Cursor
  backendStream : Option BackendChangeStream
  cancelledBeforeOpen : Bool
  terminalDelivered : Bool

def changes (cursor : Option Cursor) : DataChangeStream := ⟨cursor, none, false, false⟩

def DataChangeStream.opened (iterator : DataChangeStream) : BackendChangeStream :=
  iterator.backendStream.getD ⟨iterator.cursor, false⟩

def DataChangeStream.cancel (iterator : DataChangeStream) : DataChangeStream :=
  match iterator.backendStream with
  | none => { iterator with cancelledBeforeOpen := true }
  | some backend => { iterator with backendStream := some { backend with cancelled := true } }

/-- A call of `next` with the snapshot or change that it has fetched, the refs that it has still to
read, and the items that it has read. -/
structure Delivery where
  event : DataChangeEvent
  unread : List String
  items : List (String × Item)

def kept (event : DataChangeEvent) : String → Option Item :=
  if isSnapshot event then fun _ => none else items

def upsert (entry : String × Item) : String → Option Item := Function.update items entry.1
    (some entry.2)

def consume (delivery : Delivery) (path : String) : Option Item :=
  if path ∈ removedRefs delivery.event then none
  else delivery.items.foldl upsert (kept items delivery.event) path

/-- The server with the number of its process, the stream of the subscription and the event that has
ended it; the stream of the app with the call that is under way; the items of the consumer. -/
structure State where
  process : ℕ
  source : Source
  stream : StreamState
  ended : Option DataChangeEvent
  iterator : DataChangeStream
  call : Option Delivery
  items : String → Option Item

inductive Event where
  /-- The records change. -/
  | write (source : Source)
  /-- The server publishes the records. -/
  | announce (refresh : DataSubscriptionRefresh)
  /-- The subscription is cancelled or the session revoked. -/
  | finish (revoked : Bool)
  /-- Another process of the server. -/
  | restart (refresh : DataSubscriptionRefresh) (now : ℕ)
  /-- A call of `next` asks the server, or goes on to wait for an answer. -/
  | poll
  /-- The request fails, or its answer does not arrive. -/
  | pollFails (unauthorized : Bool)
  /-- The call reads the next ref, which may fail for reasons of its own. -/
  | read (fault : Bool)
  /-- The call returns, and the consumer takes what it returns. -/
  | deliver
  | cancel
  /-- The app opens another stream at the cursor of the one it has. -/
  | reopen

/-- The server has the records, nobody has asked. -/
def State.init (source : Source) (sessionId identity : String) (refresh : DataSubscriptionRefresh)
    (now : ℕ) : State where
  process := 0
  source := source
  stream := .new sessionId identity source.records refresh now
  ended := none
  iterator := changes none
  call := none
  items := fun _ => none

section

variable (S : Setting) (s : State) (ref : String)

def State.streams : DataChangeStreams := S.streamsOf s.process

/-- What the server answers. Nothing means that the call waits. When the time is over, the answer
has the cursor of the request, and the call asks again. -/
def State.answer (s : State) (cursor : Option Cursor) : Option DataChangeEvent :=
  let present (requestedSequence : Option ℕ) :=
    match s.ended with
    | some event => some event
    | none => (s.streams S).answer s.stream requestedSequence
  match cursor with
  | none => present none
  | some cursor =>
    match (s.streams S).parseCursor cursor with
    | none => some .resyncRequired
    | some sequence => present (some sequence)

/-- A call of `next` is answered: by the backend's stream first, then by the stream of the app. -/
def State.receive (event : DataChangeEvent) : State :=
  let goOn (cursor backendCursor : Option Cursor) : DataChangeStream :=
    { s.iterator with cursor, backendStream := some { s.iterator.opened with cursor :=
      backendCursor } }
  match event with
  | .timeout cursor => { s with iterator := goOn s.iterator.cursor (some cursor) }
  | .resyncRequired => { s with iterator := goOn s.iterator.cursor none }
  | .cancelled | .revoked =>
    { s with iterator :=
        { goOn s.iterator.cursor s.iterator.opened.cursor with terminalDelivered := true } }
  | .state cursor _ => { s with iterator := goOn (some cursor) (some cursor) }
  | .snapshot cursor .. | .changed cursor .. =>
    { s with iterator := goOn (some cursor) (some cursor), call := some ⟨event, refs event, []⟩ }

/-- A call of `next` can ask the server: none is under way, and the stream was not cancelled and has
not ended. -/
def State.Asks : Prop :=
  s.call.isNone ∧ ¬ s.iterator.terminalDelivered ∧ ¬ s.iterator.cancelledBeforeOpen ∧
    ¬ s.iterator.opened.cancelled

instance (s : State) : Decidable s.Asks := inferInstanceAs (Decidable (_ ∧ _))

/-- The next ref of a call is read: the call goes on, or it rejects. -/
def State.readNext (fault : Bool) (delivery : Delivery) (ref : String) (unread : List String) :
    State :=
  match itemForRef S s.source ref, fault with
  | .ok item, false =>
    { s with call := some { delivery with
      unread, items := delivery.items ++ (item.map (ref, ·)).toList } }
  | _, _ => { s with call := none }

def step : Event → State
  | .write source => { s with source }
  | .announce refresh =>
    if s.ended.isSome then s
    else
      let streams := s.streams S
      { s with
        stream := streams.publishRefresh refresh
          (streams.publishRecords s.stream.identity (byPath s.source.records) s.stream) }
  | .finish revoked =>
      { s with ended := s.ended.or (some (if revoked then .revoked else .cancelled)) }
  | .restart refresh now =>
    if s.ended.isSome then s
    else
      { s with
        process := s.process + 1
        stream := .new s.stream.sessionId s.stream.identity s.source.records refresh now }
  | .poll =>
    if s.Asks then
      match s.answer S s.iterator.opened.cursor with
      | none => { s with iterator := { s.iterator with backendStream := some s.iterator.opened } }
      | some event => s.receive event
    else if s.call.isNone then
      -- a cancelled stream tells so once
      { s with iterator := { s.iterator with terminalDelivered := true } }
    else s
  | .pollFails unauthorized =>
    if s.Asks then
      { s with
        iterator :=
          { s.iterator with
            backendStream := some s.iterator.opened, terminalDelivered := unauthorized } }
    else s
  | .read fault =>
    match s.call with
    | none => s
    | some delivery =>
      match delivery.unread with
      | [] => s
      | ref :: unread => s.readNext S fault delivery ref unread
  | .deliver =>
    match s.call with
    | none => s
    | some delivery =>
      if delivery.unread = [] then { s with call := none, items := consume s.items delivery } else s
  | .cancel => { s with iterator := s.iterator.cancel }
  | .reopen => if s.call.isNone then { s with iterator := changes s.iterator.cursor } else s

def run (events : List Event) : State := events.foldl (step S) s

/-! ### What is named again -/

/-- The event tells what has become of the ref. -/
def Covers : DataChangeEvent → Prop
  | .snapshot .. => True
  | .changed _ _ records removed => ref ∈ records.map (·.path) ∨ ref ∈ removed
  | _ => False

/-- The event whose records a call has fetched that rejects with this step, or that was on its way
to it. -/
def rejected : Event → Option DataChangeEvent
  | .pollFails false => if s.Asks then s.answer S s.iterator.opened.cursor else none
  | .read fault =>
    match s.call with
    | none => none
    | some delivery =>
      match delivery.unread with
      | [] => none
      | ref :: unread =>
        if (s.readNext S fault delivery ref unread).call.isNone then
          some delivery.event
        else none
  | _ => none

def yielded : Event → Option DataChangeEvent
  | .deliver => (s.call.filter (·.unread = [])).map (·.event)
  | _ => none

def yields (s : State) : List Event → List DataChangeEvent
  | [] => []
  | event :: events =>
    (yielded s event).toList ++ yields (step S s event) events

/-- How often a call of `next` has asked the server or gone on to wait. -/
def turns (s : State) : List Event → ℕ
  | [] => 0
  | event :: events =>
    (match event with
      | .poll => if s.Asks then 1 else 0
      | _ => 0) + turns (step S s event) events

/-- No read of a ref throws, schema errors apart. -/
def ReadsSucceed : Event → Prop
  | .read fault => ∀ delivery ∈ s.call, ∀ ref ∈ delivery.unread.head?,
      fault = false ∧ ∃ item, itemForRef S s.source ref = .ok item
  | _ => True

/-- The consumer goes on with the stream that it has, which has not come to its end, and its reads
succeed. -/
def GoesOn : Event → Prop
  | .finish _ | .cancel | .reopen | .pollFails true => False
  | event => ReadsSucceed S s event

/-- The consumer will be told what has become of the ref, if it asks often enough. -/
def WillCover : Prop :=
  ∃ n, ∀ events, Along (step S) (GoesOn S) s events → n ≤ turns S s events →
    ∃ event ∈ yields S s events, Covers ref event

/-- **A failed delivery is made up for**: the refs of the event are covered by a later one, on the
same stream and on one that is opened at its cursor. -/
def Redelivered (event : Event) : Prop :=
  ∀ change, rejected S s event = some change → ∀ ref ∈ refs change ++ removedRefs change,
      let s' := step S s event
      WillCover S s' ref ∧ WillCover S (step S s' .reopen) ref

end

variable {S : Setting} {s : State} {ref : String} {streams : DataChangeStreams} {c : Cursor} {n : ℕ}
  {cursor : Option Cursor} {event change : DataChangeEvent}

/-! ### Cursors -/

/-- The cursor is not one of the present process. -/
def Stale (S : Setting) (s : State) (cursor : Option Cursor) : Prop :=
  ∀ c ∈ cursor, c.generation ≠ (s.streams S).generation

/-- The cursor is one of an earlier process, or the present stream has come to it. -/
def Known (S : Setting) (s : State) (c : Cursor) : Prop :=
  (∃ n ≤ s.process, c.generation = (S.streamsOf n).generation) ∧
    (c.generation = (s.streams S).generation → c.sequence ≤ s.stream.journal.sequence)

/-- The stream is well formed, the cursor of the app's stream is a known one, and the backend's
stream has the same cursor or was told that it is stale. -/
structure Sound (S : Setting) (s : State) : Prop where
  wellFormed : s.stream.WellFormed (s.streams S).generation
  known : ∀ c ∈ s.iterator.cursor, Known S s c
  opened : s.iterator.opened.cursor = s.iterator.cursor ∨
    s.iterator.opened.cursor = none ∧ Stale S s s.iterator.cursor
  ended : ∀ event ∈ s.ended, event = .cancelled ∨ event = .revoked

theorem parseCursor_eq_none (h : c.generation ≠ streams.generation) :
    streams.parseCursor c = none := if_neg h

theorem parseCursor_eq_some (h : c.generation = streams.generation) :
    streams.parseCursor c = some c.sequence :=
  if_pos h

theorem answer_none (hended : s.ended = none) :
    s.answer S none = some ((s.streams S).snapshot s.stream) := by
  unfold State.answer
  rw [hended]
  rfl

theorem answer_stale (h : c.generation ≠ (s.streams S).generation) :
    s.answer S (some c) = some .resyncRequired := by
  unfold State.answer
  dsimp only
  rw [parseCursor_eq_none h]

theorem answer_some (hended : s.ended = none) (h : c.generation = (s.streams S).generation)
    (hle : c.sequence ≤ s.stream.journal.sequence) : s.answer S (some c) =
      if s.stream.journal.isLost c.sequence then some ((s.streams S).snapshot s.stream)
      else (s.stream.journal.next? c.sequence).map (·.2) := by
  unfold State.answer
  dsimp only
  rw [parseCursor_eq_some h, hended]
  exact if_neg (not_lt.mpr hle)

/-! ### Publishing -/

theorem le_sequence_published (streams : DataChangeStreams) (identity : String) (records : Records)
    (refresh : DataSubscriptionRefresh) (stream : StreamState) : stream.journal.sequence ≤
      (streams.publishRefresh refresh (streams.publishRecords identity records
        stream)).journal.sequence := by
  have hrecords : stream.journal.sequence ≤
    (streams.publishRecords identity records stream).journal.sequence := by
    unfold DataChangeStreams.publishRecords
    dsimp only
    split_ifs
    · exact le_succ _
    · exact le_refl _
  refine hrecords.trans ?_
  unfold DataChangeStreams.publishRefresh
  split_ifs
  · show _ ≤ (Journal.popIf _ _).sequence + 1
    rw [Journal.sequence_popIf]
    exact le_succ _
  · exact le_refl _

theorem awaits_published {stream : StreamState} {cursor : ℕ}
    (hwf : stream.WellFormed streams.generation) (identity : String)
    (records : List MaterializedRecordInfo) (refresh : DataSubscriptionRefresh)
    (h : Journal.Awaits (Covers ref) stream.journal cursor n) : Journal.Awaits (Covers ref)
      (streams.publishRefresh refresh (streams.publishRecords identity (byPath records)
        stream)).journal cursor n := by
  have hordered := (publishes_publishRecords hwf identity records).wellFormed.ordered
  have hrecords : Journal.Awaits (Covers ref)
      (streams.publishRecords identity (byPath records) stream).journal cursor n := by
    unfold DataChangeStreams.publishRecords
    dsimp only
    split_ifs
    · exact h.push hwf.ordered streams.capacity_pos _
    · exact h
  unfold DataChangeStreams.publishRefresh
  split_ifs
  · refine hrecords.push_popIf hordered streams.capacity_pos (fun event hstate => ?_) _
    cases event <;> simp_all [DataChangeEvent.isState, Covers]
  · exact hrecords

/-! ### Sound states -/

theorem sound_init (source : Source) (sessionId identity : String)
    (refresh : DataSubscriptionRefresh) (now : ℕ) :
    Sound S (.init source sessionId identity refresh now) where
  wellFormed := StreamState.wellFormed_new ..
  known := by simp [State.init, changes]
  opened := .inl rfl
  ended := by simp [State.init]

theorem cancel_cursors (iterator : DataChangeStream) :
    iterator.cancel.cursor = iterator.cursor ∧ iterator.cancel.opened.cursor =
      iterator.opened.cursor := by
  unfold DataChangeStream.cancel DataChangeStream.opened
  cases iterator.backendStream <;> exact ⟨rfl, rfl⟩

theorem answer_cases (h : Sound S s) (hknown : ∀ c ∈ cursor, Known S s c)
    (hanswer : s.answer S cursor = some event) :
    (event = .resyncRequired ∧ cursor ≠ none ∧ Stale S s cursor) ∨
    (event = .cancelled ∨ event = .revoked) ∧ s.ended.isSome ∨
    s.ended = none ∧ event = (s.streams S).snapshot s.stream ∧
      (∀ c ∈ cursor, c.generation = (s.streams S).generation ∧
        s.stream.journal.isLost c.sequence = true) ∨
    s.ended = none ∧ ∃ c, cursor = some c ∧ c.generation = (s.streams S).generation ∧
      s.stream.journal.isLost c.sequence = false ∧
      ∃ n, s.stream.journal.next? c.sequence = some (n, event) ∧
        event.changeCursor? = some ⟨(s.streams S).generation, n⟩ := by
  cases hended : s.ended with
  | some terminal =>
    have hterminal := h.ended terminal hended
    cases cursor with
    | none =>
      have heq : terminal = event := by simpa [State.answer, hended] using hanswer
      exact .inr (.inl ⟨heq ▸ hterminal, rfl⟩)
    | some c =>
      by_cases hgen : c.generation = (s.streams S).generation
      · have heq : terminal = event := by
          simpa [State.answer, hended, parseCursor_eq_some hgen] using hanswer
        exact .inr (.inl ⟨heq ▸ hterminal, rfl⟩)
      · rw [answer_stale hgen] at hanswer
        exact .inl ⟨(Option.some.inj hanswer).symm, by simp, by simpa [Stale] using hgen⟩
  | none =>
    cases cursor with
    | none =>
      rw [answer_none hended] at hanswer
      exact .inr (.inr (.inl ⟨rfl, (Option.some.inj hanswer).symm, by simp⟩))
    | some c =>
      by_cases hgen : c.generation = (s.streams S).generation
      · rw [answer_some hended hgen ((hknown c rfl).2 hgen)] at hanswer
        split_ifs at hanswer with hlost
        · exact .inr (.inr (.inl ⟨rfl, (Option.some.inj hanswer).symm, by simp [hgen, hlost]⟩))
        · obtain ⟨⟨n, change⟩, hnext, rfl⟩ := Option.map_eq_some_iff.mp hanswer
          have hcursor := h.wellFormed.cursors _ (mem_of_find?_eq_some hnext)
          exact .inr (.inr (.inr ⟨rfl, c, rfl, hgen, by simpa using hlost, n, hnext, hcursor⟩))
      · rw [answer_stale hgen] at hanswer
        exact .inl ⟨(Option.some.inj hanswer).symm, by simp, by simpa [Stale] using hgen⟩

theorem known_of_le (h : n ≤ s.stream.journal.sequence) : Known S s ⟨(s.streams S).generation, n⟩ :=
  ⟨⟨s.process, le_refl _, rfl⟩, fun _ => h⟩

theorem Sound.known_opened (h : Sound S s) : ∀ c ∈ s.iterator.opened.cursor, Known S s c := by
  intro c hc
  rcases h.opened with heq | ⟨hnone, -⟩
  · exact h.known c (heq ▸ hc)
  · rw [hnone] at hc
    cases hc

theorem Sound.goOn (h : Sound S s) (hn : n ≤ s.stream.journal.sequence)
    {iterator : DataChangeStream} (call : Option Delivery)
    (hcursor : iterator.cursor = some ⟨(s.streams S).generation, n⟩)
    (hopened : iterator.opened.cursor = iterator.cursor) : Sound S { s with iterator, call } where
  wellFormed := h.wellFormed
  known := by
    intro c hc
    obtain rfl := Option.some.inj (hcursor.symm.trans hc)
    exact known_of_le hn
  opened := .inl hopened
  ended := h.ended

theorem Sound.receive (h : Sound S s) (hanswer : s.answer S s.iterator.opened.cursor = some event) :
    Sound S (s.receive event) := by
  rcases answer_cases h h.known_opened hanswer with
    ⟨rfl, hsome, hstale⟩ | ⟨rfl | rfl, -⟩ | ⟨-, rfl, -⟩ | ⟨-, c, -, -, -, n, hnext, hchange⟩
  · refine ⟨h.wellFormed, h.known, .inr ⟨rfl, ?_⟩, h.ended⟩
    rcases h.opened with heq | ⟨hnone, -⟩
    · exact heq ▸ hstale
    · exact absurd hnone hsome
  · exact ⟨h.wellFormed, h.known, h.opened, h.ended⟩
  · exact ⟨h.wellFormed, h.known, h.opened, h.ended⟩
  · exact h.goOn (le_refl _) _ rfl rfl
  · have hle : n ≤ s.stream.journal.sequence :=
      h.wellFormed.ordered.le _ (mem_of_find?_eq_some hnext)
    cases event with
    | changed cursor identity records removed =>
      obtain rfl := Option.some.inj hchange
      exact h.goOn hle _ rfl rfl
    | state cursor state =>
      obtain rfl := Option.some.inj hchange
      exact h.goOn hle s.call rfl rfl
    | _ => cases hchange

theorem Sound.step (h : Sound S s) (event : Event) : Sound S (step S s event) := by
  cases event with
  | write source => exact ⟨h.wellFormed, h.known, h.opened, h.ended⟩
  | announce refresh =>
    unfold Subscriptions.step
    dsimp only
    split_ifs
    · exact h
    · refine ⟨(publishes_published h.wellFormed _ _ _).wellFormed, fun c hc =>
        ?_, h.opened, h.ended⟩
      refine ⟨(h.known c hc).1, fun hgen => ((h.known c hc).2 hgen).trans ?_⟩
      exact le_sequence_published ..
  | finish revoked =>
    refine ⟨h.wellFormed, h.known, h.opened, fun event hevent => ?_⟩
    rcases Option.or_eq_some_iff.mp hevent with hold | ⟨-, hnew⟩
    · exact h.ended event hold
    · rw [← Option.some.inj hnew]
      cases revoked <;> simp
  | restart refresh now =>
    unfold Subscriptions.step
    dsimp only
    split_ifs
    · exact h
    · have hstale : ∀ c, Known S s c → c.generation ≠ (S.streamsOf (s.process + 1)).generation := by
        intro c hknown hgen
        obtain ⟨n, hn, hc⟩ := hknown.1
        have := S.generation_injective (hc.symm.trans hgen)
        omega
      refine ⟨StreamState.wellFormed_new .., fun c hc => ?_, ?_, h.ended⟩
      · obtain ⟨n, hn, hc'⟩ := (h.known c hc).1
        exact ⟨⟨n, le_succ_of_le hn, hc'⟩, fun hgen => absurd hgen (hstale c (h.known c hc))⟩
      · rcases h.opened with heq | ⟨hnone, -⟩
        · exact .inl heq
        · exact .inr ⟨hnone, fun c hc => hstale c (h.known c hc)⟩
  | poll =>
    unfold Subscriptions.step
    dsimp only
    split_ifs
    · cases hanswer : s.answer S s.iterator.opened.cursor with
      | none => exact ⟨h.wellFormed, h.known, h.opened, h.ended⟩
      | some event => exact h.receive hanswer
    · exact ⟨h.wellFormed, h.known, h.opened, h.ended⟩
    · exact h
  | pollFails unauthorized =>
    unfold Subscriptions.step
    dsimp only
    split_ifs
    · exact ⟨h.wellFormed, h.known, h.opened, h.ended⟩
    · exact h
  | read fault =>
    unfold Subscriptions.step State.readNext
    dsimp only
    split
    · exact h
    · split
      · exact h
      · split <;> exact ⟨h.wellFormed, h.known, h.opened, h.ended⟩
  | deliver =>
    unfold Subscriptions.step
    dsimp only
    split
    · exact h
    · split_ifs
      · exact ⟨h.wellFormed, h.known, h.opened, h.ended⟩
      · exact h
  | cancel =>
    obtain ⟨hcursor, hopened⟩ := cancel_cursors s.iterator
    refine ⟨h.wellFormed, fun c hc => h.known c (hcursor ▸ hc), ?_, h.ended⟩
    have hafter : s.iterator.cancel.opened.cursor = s.iterator.cancel.cursor ∨
        s.iterator.cancel.opened.cursor = none ∧ Stale S s s.iterator.cancel.cursor := by
      rw [hcursor, hopened]
      exact h.opened
    exact hafter
  | reopen =>
    unfold Subscriptions.step
    dsimp only
    split_ifs
    · exact ⟨h.wellFormed, h.known, .inl rfl, h.ended⟩
    · exact h

/-! ### Covering a ref -/

/-- Within `n` turns a reader with the cursor has asked again after it was given an event that
covers the ref. One turn more than it takes is counted, so that a restart of the server never adds
to them. -/
def DueAt (S : Setting) (s : State) (ref : String) (n : ℕ) : Option Cursor → Prop
  | none => 2 ≤ n
  | some c =>
    c.generation ≠ (s.streams S).generation ∧ 3 ≤ n ∨ c.generation = (s.streams S).generation ∧
        ∃ m, Journal.Awaits (Covers ref) s.stream.journal c.sequence m ∧ m - c.sequence + 3 ≤ n

/-- The stream of the app goes on, and a call has an event that covers the ref or will have one in
time. -/
structure Due (S : Setting) (s : State) (ref : String) (n : ℕ) : Prop where
  ended : s.ended = none
  terminal : s.iterator.terminalDelivered = false
  beforeOpen : s.iterator.cancelledBeforeOpen = false
  cancelled : s.iterator.opened.cancelled = false
  covers : (∃ delivery ∈ s.call, Covers ref delivery.event ∧ 1 ≤ n) ∨
    DueAt S s ref n s.iterator.opened.cursor

theorem Due.asks (h : Due S s ref n) (hcall : s.call = none) : s.Asks := by
  refine ⟨by simp [hcall], ?_, ?_, ?_⟩
  · simp [h.terminal]
  · simp [h.beforeOpen]
  · simp [h.cancelled]

theorem DueAt.pos (h : DueAt S s ref n cursor) : 1 ≤ n := by
  cases cursor with
  | none => exact le_of_succ_le h
  | some c =>
    rcases h with ⟨-, hn⟩ | ⟨-, m, -, hn⟩
    · omega
    · omega

theorem Due.pos (h : Due S s ref n) : 1 ≤ n := by
  rcases h.covers with ⟨-, -, -, hn⟩ | hdue
  · exact hn
  · exact hdue.pos

section

variable (hs : Sound S s) (h : Due S s ref n)
include hs h

/-- The call is answered: with an event that covers the ref, or one turn fewer is left. -/
theorem Due.receive (hcall : s.call = none) :
    ∃ event, s.answer S s.iterator.opened.cursor = some event ∧ Due S (s.receive event) ref
      (n - 1) := by
  have hdue : DueAt S s ref n s.iterator.opened.cursor := by
    rcases h.covers with ⟨delivery, hdelivery, -⟩ | hdue
    · rw [hcall] at hdelivery
      cases hdelivery
    · exact hdue
  have hsnapshot : 2 ≤ n → Due S (s.receive ((s.streams S).snapshot s.stream)) ref (n - 1) :=
    fun hn => ⟨h.ended, h.terminal, h.beforeOpen, h.cancelled, .inl ⟨_, rfl, trivial, by omega⟩⟩
  cases hcursor : s.iterator.opened.cursor with
  | none =>
    rw [hcursor] at hdue
    exact ⟨_, answer_none h.ended, hsnapshot hdue⟩
  | some c =>
    rw [hcursor] at hdue
    rcases hdue with ⟨hstale, hn⟩ | ⟨hgen, m, hawaits, hn⟩
    · refine ⟨_, answer_stale hstale, h.ended, h.terminal, h.beforeOpen, h.cancelled, .inr ?_⟩
      show 2 ≤ n - 1
      omega
    · rw [answer_some h.ended hgen hawaits.2.1]
      cases hlost : s.stream.journal.isLost c.sequence with
      | true => exact ⟨_, rfl, hsnapshot (by omega)⟩
      | false =>
        obtain ⟨⟨k, event⟩, hnext, hlt, hevent⟩ := hawaits.next hs.wellFormed.ordered hlost
        have hchange : event.changeCursor? = some ⟨(s.streams S).generation, k⟩ :=
          hs.wellFormed.cursors _ (mem_of_find?_eq_some hnext)
        dsimp only at hlt hevent
        rw [hnext]
        refine ⟨event, rfl, ?_⟩
        -- the event covers the ref and is read, or the reader is one event further
        have hmore : Journal.Awaits (Covers ref) s.stream.journal k m → m - k + 3 ≤ n - 1 := by
          intro hlater
          have hle := hlater.1
          omega
        cases event with
        | changed cursor identity records removed =>
          obtain rfl := Option.some.inj hchange
          refine ⟨h.ended, h.terminal, h.beforeOpen, h.cancelled, ?_⟩
          rcases hevent with hcovers | hlater
          · exact .inl ⟨_, rfl, hcovers, by omega⟩
          · exact .inr (.inr ⟨rfl, m, hlater, hmore hlater⟩)
        | state cursor state =>
          obtain rfl := Option.some.inj hchange
          refine ⟨h.ended, h.terminal, h.beforeOpen, h.cancelled, .inr ?_⟩
          rcases hevent with hcovers | hlater
          · exact hcovers.elim
          · exact .inr ⟨rfl, m, hlater, hmore hlater⟩
        | _ => cases hchange

theorem Due.announce (refresh : DataSubscriptionRefresh) :
    Due S (Subscriptions.step S s (.announce refresh)) ref n := by
  unfold Subscriptions.step
  dsimp only
  rw [if_neg (by simp [h.ended])]
  refine ⟨h.ended, h.terminal, h.beforeOpen, h.cancelled, ?_⟩
  rcases h.covers with hcall | hdue
  · exact .inl hcall
  · refine .inr ?_
    dsimp only
    cases hcursor : s.iterator.opened.cursor with
    | none =>
      rw [hcursor] at hdue
      exact hdue
    | some c =>
      rw [hcursor] at hdue
      rcases hdue with hstale | ⟨hgen, m, hawaits, hn⟩
      · exact .inl hstale
      · exact .inr ⟨hgen, m, awaits_published hs.wellFormed _ _ _ hawaits, hn⟩

theorem Due.restart (refresh : DataSubscriptionRefresh) (now : ℕ) :
    Due S (Subscriptions.step S s (.restart refresh now)) ref n := by
  unfold Subscriptions.step
  dsimp only
  rw [if_neg (by simp [h.ended])]
  refine ⟨h.ended, h.terminal, h.beforeOpen, h.cancelled, ?_⟩
  rcases h.covers with hcall | hdue
  · exact .inl hcall
  · refine .inr ?_
    dsimp only
    cases hcursor : s.iterator.opened.cursor with
    | none =>
      rw [hcursor] at hdue
      exact hdue
    | some c =>
      obtain ⟨k, hk, hgen⟩ := (hs.known_opened c hcursor).1
      refine .inl ⟨fun hsame => ?_, ?_⟩
      · have hprocess := S.generation_injective (hgen.symm.trans hsame)
        dsimp only at hprocess
        omega
      · rw [hcursor] at hdue
        rcases hdue with ⟨-, hn⟩ | ⟨-, m, -, hn⟩
        · exact hn
        · omega

/-- **As long as the consumer goes on, it is given an event that covers the ref or one will come in
time.** -/
theorem Due.step {event : Event} (hgo : GoesOn S s event) :
    (∃ change, yielded s event = some change ∧ Covers ref change) ∨ Due S
    (Subscriptions.step S s event) ref
        (n - turns S s [event]) := by
  cases event with
  | write source => exact .inr ⟨h.ended, h.terminal, h.beforeOpen, h.cancelled, h.covers⟩
  | announce refresh => exact .inr (h.announce hs refresh)
  | finish revoked => exact hgo.elim
  | restart refresh now => exact .inr (h.restart hs refresh now)
  | cancel => exact hgo.elim
  | reopen => exact hgo.elim
  | poll =>
    refine .inr ?_
    unfold turns Subscriptions.step
    dsimp only
    cases hcall : s.call with
    | none =>
      obtain ⟨event, hanswer, hdue⟩ := h.receive hs hcall
      rw [if_pos (h.asks hcall), if_pos (h.asks hcall), hanswer]
      exact hdue
    | some delivery =>
      have hnot : ¬ s.Asks := fun hasks => by simp [State.Asks, hcall] at hasks
      rw [if_neg hnot, if_neg hnot, if_neg (by simp)]
      exact h
  | pollFails unauthorized =>
    cases unauthorized with
    | true => exact hgo.elim
    | false =>
      refine .inr ?_
      unfold Subscriptions.step
      dsimp only
      split_ifs
      · exact ⟨h.ended, rfl, h.beforeOpen, h.cancelled, h.covers⟩
      · exact h
  | read fault =>
    refine .inr ?_
    unfold Subscriptions.step
    dsimp only
    cases hcall : s.call with
    | none => exact h
    | some delivery =>
      dsimp only
      cases hunread : delivery.unread with
      | nil => exact h
      | cons next unread =>
        obtain ⟨rfl, item, hitem⟩ := hgo delivery hcall next (by simp [hunread])
        dsimp only
        unfold State.readNext
        rw [hitem]
        refine ⟨h.ended, h.terminal, h.beforeOpen, h.cancelled, ?_⟩
        rcases h.covers with ⟨delivery', hdelivery', hcovers⟩ | hdue
        · obtain rfl := Option.some.inj (hcall.symm.trans hdelivery')
          exact .inl ⟨_, rfl, hcovers⟩
        · exact .inr hdue
  | deliver =>
    unfold Subscriptions.step yielded
    dsimp only
    cases hcall : s.call with
    | none => exact .inr h
    | some delivery =>
      dsimp only
      by_cases hunread : delivery.unread = []
      · rw [if_pos hunread]
        rcases h.covers with ⟨delivery', hdelivery', hcovers, -⟩ | hdue
        · obtain rfl := Option.some.inj (hcall.symm.trans hdelivery')
          exact .inl ⟨delivery.event, by simp [hunread], hcovers⟩
        · exact .inr ⟨h.ended, h.terminal, h.beforeOpen, h.cancelled, .inr hdue⟩
      · rw [if_neg hunread]
        exact .inr h

end

theorem turns_cons (event : Event) (events : List Event) :
    turns S s (event :: events) = turns S s [event] +
        turns S (Subscriptions.step S s event)
          events :=
  rfl

theorem Due.willCover (hs : Sound S s) (h : Due S s ref n) : WillCover S s ref := by
  refine ⟨n, fun events hgo hturns => ?_⟩
  induction events generalizing s n with
  | nil =>
    have hpos := h.pos
    exact absurd hturns (by simp only [turns]; omega)
  | cons event events ih =>
    rcases h.step hs hgo.1 with ⟨change, hyielded, hcovers⟩ | hdue
    · exact ⟨change, by simp [yields, hyielded], hcovers⟩
    · rw [turns_cons] at hturns
      obtain ⟨change, hmem, hcovers⟩ := ih (hs.step event) hdue hgo.2 (by omega)
      exact ⟨change, mem_append_right _ hmem, hcovers⟩

/-! ### Failed calls -/

theorem covers_of_mem (h : ref ∈ refs change ++ removedRefs change) : Covers ref change := by
  cases change with
  | changed cursor identity records removed => exact mem_append.mp h
  | snapshot => trivial
  | _ => simp [refs, removedRefs] at h

/-- An answer with the ref would be given again, to the stream as it is and to one at its cursor. -/
theorem exists_dueAt (hs : Sound S s) (hanswer : s.answer S s.iterator.opened.cursor = some change)
    (href : ref ∈ refs change ++ removedRefs change) :
    s.ended = none ∧ ∃ n, DueAt S s ref n s.iterator.opened.cursor ∧
      DueAt S s ref n s.iterator.cursor := by
  have hcovers := covers_of_mem href
  have hcases := answer_cases hs hs.known_opened hanswer
  have hended : s.ended = none := by
    rcases hcases with ⟨rfl, -⟩ | ⟨rfl | rfl, -⟩ | ⟨hended, -⟩ | ⟨hended, -⟩
    · exact hcovers.elim
    · exact hcovers.elim
    · exact hcovers.elim
    · exact hended
    · exact hended
  refine ⟨hended, ?_⟩
  rcases hs.opened with heq | ⟨hnone, hstale⟩
  · rw [← heq]
    suffices hdue : ∃ n, DueAt S s ref n s.iterator.opened.cursor from
      hdue.imp fun n hn => ⟨hn, hn⟩
    cases hcursor : s.iterator.opened.cursor with
    | none => exact ⟨2, le_refl 2⟩
    | some c =>
      have hknown := hs.known_opened c hcursor
      rw [hcursor] at hcases
      rcases hcases with ⟨rfl, -⟩ | ⟨rfl | rfl, -⟩ | ⟨-, -, hlost⟩ | ⟨-, _, ⟨⟩, hgen,
        -, k, hnext, -⟩
      · exact hcovers.elim
      · exact hcovers.elim
      · exact hcovers.elim
      · obtain ⟨hgen, hlost⟩ := hlost c rfl
        exact ⟨_, .inr ⟨hgen, _, .of_isLost (hknown.2 hgen) hlost, le_refl _⟩⟩
      · exact ⟨_, .inr ⟨hgen, _, .of_next (hknown.2 hgen) hnext hcovers, le_refl _⟩⟩
  · refine ⟨3, by rw [hnone]; exact le_succ 2, ?_⟩
    cases hcursor : s.iterator.cursor with
    | none => exact le_succ 2
    | some c => exact .inl ⟨hstale c hcursor, le_refl 3⟩

/-- One step: a call that fails at the server has moved no cursor. -/
theorem redelivered_step (hs : Sound S s) {event : Event} (hreads : ReadsSucceed S s event) :
    Redelivered S s event := by
  intro change hrejected ref href
  have hsound : Sound S (step S s event) := hs.step event
  have hreopened : Sound S (step S (step S s event) .reopen) := hsound.step .reopen
  cases event with
  | pollFails unauthorized =>
    cases unauthorized with
    | true => cases hrejected
    | false =>
      unfold rejected at hrejected
      split_ifs at hrejected with hasks
      obtain ⟨hended, n, hopened, hcursor⟩ := exists_dueAt hs hrejected href
      have hstep : step S s (.pollFails false) =
          { s with iterator :=
              { s.iterator with
                backendStream := some s.iterator.opened, terminalDelivered := false } } :=
        if_pos hasks
      obtain ⟨hcall, -, hbefore, hcancelled⟩ := hasks
      have hreopen : step S
          { s with iterator :=
              { s.iterator with
                backendStream := some s.iterator.opened, terminalDelivered := false } }
            .reopen = { s with iterator := changes s.iterator.cursor } :=
        if_pos hcall
      rw [hstep] at hsound hreopened ⊢
      rw [hreopen] at hreopened
      dsimp only
      rw [hreopen]
      constructor
      · have hdue : Due S { s with iterator :=
            { s.iterator with
              backendStream := some s.iterator.opened, terminalDelivered := false } } ref n :=
          ⟨hended, rfl, by simpa using hbefore, Bool.eq_false_of_not_eq_true hcancelled,
            .inr hopened⟩
        exact hdue.willCover hsound
      · have hdue : Due S { s with iterator := changes s.iterator.cursor } ref n :=
          ⟨hended, rfl, rfl, rfl, .inr hcursor⟩
        exact hdue.willCover hreopened
  | read fault =>
    -- a read that succeeds rejects no call
    unfold rejected at hrejected
    dsimp only at hrejected
    cases hcall : s.call with
    | none => rw [hcall] at hrejected; cases hrejected
    | some delivery =>
      rw [hcall] at hrejected
      dsimp only at hrejected
      cases hunread : delivery.unread with
      | nil => rw [hunread] at hrejected; cases hrejected
      | cons next unread =>
        obtain ⟨rfl, item, hitem⟩ := hreads delivery hcall next (by simp [hunread])
        rw [hunread] at hrejected
        dsimp only at hrejected
        unfold State.readNext at hrejected
        simp [hitem] at hrejected
  | _ => cases hrejected

/-- **No delivery is lost as long as no read of a ref throws.** -/
theorem redelivered_of_readsSucceed (source : Source) (sessionId identity : String)
    (refresh : DataSubscriptionRefresh) (now : ℕ)
    (events : List Event)
    (hreads : Along (step S) (ReadsSucceed S) (.init source sessionId identity refresh now)
      events) :
    Along (step S) (Redelivered S) (.init source sessionId identity refresh now) events :=
  hreads.of_invariant (I := Sound S) (fun _ event hs _ => hs.step event)
    (fun _ _ hs hreads => redelivered_step hs hreads) (sound_init ..)

def sampleStreams (process : ℕ) : DataChangeStreams :=
  .withGenerationCapacityAndIdleTimeout (String.ofList (List.replicate process 'r')) 64 90

theorem injective_sampleStreams : Function.Injective fun n => (sampleStreams n).generation := by
  intro m n h
  have htexts : List.replicate m 'r' = List.replicate n 'r' := String.ofList_injective h
  simpa using congrArg List.length htexts

def noteSetting :
    Setting := ⟨sampleStreams, injective_sampleStreams, fun _ => none, noteClasses, noteResource⟩

def noteSource (revision : String) : Source where
  records := [⟨"n/a", "c", revision, 1⟩]
  found _ := .ok (.present ⟨shortNote.stored, some revision, none⟩)

def noteState : State := .init (noteSource "one") "session" "alice" .loading 0

/-- The note is read, it changes, and the change is announced. -/
def followedEvents : List Event :=
  [.poll, .read false, .deliver, .write (noteSource "two"), .announce .loading]

theorem readsSucceed_noteSource (revision : String) (hsource : s.source = noteSource revision) :
    ReadsSucceed noteSetting s (.read false) := by
  intro delivery _ ref _
  rw [hsource]
  exact ⟨rfl, _, rfl⟩

/-- The answer with the change is lost, and it is given again. -/
theorem lost_answer_redelivered : (rejected noteSetting (run noteSetting noteState followedEvents)
      (.pollFails false)).isSome = true ∧
    Along (step noteSetting) (Redelivered noteSetting) noteState
      (followedEvents ++ [.pollFails false]) := by
  refine ⟨by decide +kernel, redelivered_of_readsSucceed _ _ _ _ _ _ ?_⟩
  exact ⟨trivial, readsSucceed_noteSource "one" rfl, trivial, trivial, trivial, trivial, trivial⟩

/-! ### A read that throws -/

section

variable (hasks : s.Asks) (hopened : s.iterator.backendStream = some s.iterator.opened)
  (hanswer : s.answer S s.iterator.opened.cursor = none)

include hasks hopened hanswer

theorem step_poll_of_waits : step S s .poll = s := by
  unfold step
  dsimp only
  rw [if_pos hasks, hanswer, ← hopened]

theorem not_willCover_of_waits : ¬ WillCover S s ref := by
  rintro ⟨n, hn⟩
  have hstep := @step_poll_of_waits S s hasks hopened hanswer
  have hwaits : ∀ k, turns S s (List.replicate k .poll) = k ∧
    yields S s (List.replicate k .poll) = [] ∧
      Along (step S) (GoesOn S) s (List.replicate k .poll) := by
    intro k
    induction k with
    | zero => exact ⟨rfl, rfl, trivial⟩
    | succ k ih =>
      obtain ⟨hturns, hyields, halong⟩ := ih
      rw [replicate_succ]
      refine ⟨?_, ?_, trivial, by rwa [hstep]⟩
      · rw [turns, hstep, hturns, if_pos hasks]
        omega
      · rw [yields, hstep, hyields]
        rfl
  obtain ⟨hturns, hyields, halong⟩ := hwaits n
  obtain ⟨event, hmem, -⟩ := hn _ halong hturns.ge
  rw [hyields] at hmem
  cases hmem

end

/-- The change is fetched, and the read of the note fails. Both cursors are past the change by
then. -/
theorem failed_read_is_not_redelivered : ¬ Along (step noteSetting)
    (Redelivered noteSetting) noteState
      (followedEvents ++ [.poll, .read true]) := by
  intro h
  have hlast := (along_append.mp h).2.2.1
  refine not_willCover_of_waits ?_ ?_ ?_ (hlast _ rfl "n/a" ?_).1
  · decide +kernel
  · rfl
  · decide +kernel
  · decide +kernel

end Jolt.Sdk.Subscriptions

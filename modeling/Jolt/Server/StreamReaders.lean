import Jolt.Lib.Runs
import Jolt.Server.ChangeStreams

/-! # Readers of change streams

The streams of one process with any number of readers, each of which follows one subscription: it
polls with the cursor of its last event and applies the events. Streams are published, cancelled,
revoked and evicted in between, in any order. Two things are kept only to state results: which view
was published last, and how many streams a subscription has had before the present one, its
lifetime.

Within one lifetime, a reader that has seen all events has the last published view
(`caught_up_within_lifetime`). All streams of a process share one generation, and their numbers
begin anew, so this fails for a reader with a cursor of an earlier lifetime unless the present
stream can tell (`cursors_confined_iff`). -/

namespace Jolt.Server.StreamReaders

open Std Lib.Diffs Lib.Runs Sessions ChangeStreams Option

/-! ### The system -/

/-- What a reader knows, from the stream of which lifetime. -/
structure Seen where
  cursor : Cursor
  view : View
  lifetime : ℕ

/-- A poll that waits does so on the stream of one lifetime. -/
structure Reader where
  seen : Option Seen
  waiting : Option ℕ

structure System (n : ℕ) where
  registry : StreamRegistry
  readers : Fin n → Reader
  lifetime : String → ℕ
  published : String → Option View

def System.init (n : ℕ) : System n := ⟨.default, fun _ => ⟨none, none⟩, fun _ => 0, fun _ => none⟩

/-- What a reader knows after an event from the stream of the lifetime. -/
def receive (lifetime : ℕ) (seen : Option Seen) : DataChangeEvent → Option Seen
  | .snapshot cursor _ records state => some ⟨cursor, ⟨byPath records, state⟩, lifetime⟩
  | .changed cursor identity records removed =>
    seen.map fun s =>
      { s with cursor, view := s.view.apply (.changed cursor identity records removed) }
  | .state cursor state =>
      seen.map fun s => { s with cursor, view := s.view.apply (.state cursor state) }
  | .timeout cursor => seen.map ({ · with cursor })
  | .resyncRequired | .cancelled | .revoked => none

def Reader.afterTurn (lifetime : ℕ) (reader : Reader) : Option DataChangeEvent → Reader
  | some event => ⟨receive lifetime reader.seen event, none⟩
  | none => { reader with waiting := some lifetime }

inductive Step (n : ℕ) where
  /-- A turn of the reader's poll: its first one, or a later one after it was notified. -/
  | poll (reader : Fin n) (now : ℕ) (sessionId identity : String)
      (records : List MaterializedRecordInfo) (refresh : DataSubscriptionRefresh)
  /-- The time of a waiting poll is over. -/
  | timeout (reader : Fin n)
  /-- The app gives a poll up. -/
  | abandon (reader : Fin n)
  | publish (now : ℕ) (sessionId subscriptionId identity : String)
      (records : List MaterializedRecordInfo) (refresh : DataSubscriptionRefresh)
      (registerIfMissing : Bool)
  | cancel (now : ℕ) (sessionId subscriptionId : String)
  | revoke (now : ℕ) (sessionId : String)
  | evict (now : ℕ)

variable {n : ℕ} (streams : DataChangeStreams) (subscription : Fin n → String) (sys : System n)

/-- The streams whose notification a waiting poll holds. -/
def System.held (id : String) : Bool :=
  decide (∃ r, subscription r = id ∧ (sys.readers r).waiting = some (sys.lifetime id))

/-- The system with the registry after a step. A lifetime is over when the stream is gone. -/
def System.withRegistry (registry : StreamRegistry) (published : String → Option View) : System n :=
  { sys with
    registry := registry
    lifetime := fun id =>
      if (sys.registry.active id).isSome ∧ (registry.active id).isNone then sys.lifetime id + 1
      else sys.lifetime id
    published := published }

def System.withReader (r : Fin n) (reader : Reader) : System n :=
  { sys with readers := Function.update sys.readers r reader }

def System.publishedIf (reached : Bool) (id : String) (view : View) : String → Option View :=
  if reached then Function.update sys.published id (some view) else sys.published

/-- The answer to a turn of the reader's poll, and the registry after it. -/
def System.turn (r : Fin n) (now : ℕ) (sessionId identity : String)
    (records : List MaterializedRecordInfo) (refresh : DataSubscriptionRefresh) :
    Option DataChangeEvent × StreamRegistry :=
  streams.nextTurn now sessionId (subscription r) identity records refresh
    ((sys.readers r).seen.map (·.cursor)) sys.registry

def reaches (registry : StreamRegistry) (sessionId subscriptionId identity : String)
    (registerIfMissing : Bool) : Bool :=
  (registry.terminal subscriptionId).isNone &&
    match registry.active subscriptionId with
    | none => registerIfMissing
    | some stream => stream.sessionId = sessionId ∧ stream.identity = identity

def step : Step n → System n
  | .poll r now sessionId identity records refresh =>
    let (event, registry) := sys.turn streams subscription r now sessionId identity records refresh
    let created := (sys.registry.active (subscription r)).isNone &&
      (registry.active (subscription r)).isSome
    (sys.withRegistry registry (sys.publishedIf created (subscription r) ⟨byPath records,
      refresh⟩)).withReader r
        ((sys.readers r).afterTurn (sys.lifetime (subscription r)) event)
  | .timeout r => sys.withReader r ⟨(sys.readers r).seen, none⟩
  | .abandon r => sys.withReader r ⟨(sys.readers r).seen, none⟩
  | .publish now sessionId subscriptionId identity records refresh registerIfMissing =>
    sys.withRegistry
      (streams.publishInner now sessionId subscriptionId identity records refresh
        registerIfMissing sys.registry)
      (sys.publishedIf (reaches sys.registry sessionId subscriptionId identity registerIfMissing)
        subscriptionId ⟨byPath records, refresh⟩)
  | .cancel now sessionId subscriptionId =>
    sys.withRegistry (streams.cancelSubscription now sessionId subscriptionId sys.registry)
      sys.published
  | .revoke now sessionId =>
    sys.withRegistry (streams.revokeSession now sessionId sys.registry) sys.published
  | .evict now =>
    sys.withRegistry (streams.evictIdle now (sys.held subscription) sys.registry) sys.published

def run (steps : List (Step n)) : System n := steps.foldl (step streams subscription) (.init n)

/-! ### What a step does to one stream -/

/-- How the stream of one subscription and what was published last change together. -/
inductive Evolves (generation : String) :
    Option StreamState × Option View → Option StreamState × Option View → Prop where
  | absent (view : Option View) : Evolves generation (none, view) (none, view)
  | created {stream : StreamState} (h : stream.WellFormed generation) (view : Option View) :
      Evolves generation (none, view) (some stream, some stream.view)
  | removed (stream : StreamState) (view : Option View) :
      Evolves generation (some stream, view) (none, view)
  | published {stream stream' : StreamState} {view : View}
      (h : Publishes generation stream stream' view) (view' : Option View) :
      Evolves generation (some stream, view') (some stream', some view)

/-- An active stream is well formed and has the view that was published last. -/
def Shows (generation : String) (stream : Option StreamState) (view : Option View) : Prop :=
  ∀ s, stream = some s → s.WellFormed generation ∧ view = some s.view

section

variable {streams} {subscription} {generation : String} {stream : Option StreamState}
  {view : Option View} {registry : StreamRegistry} {published : String → Option View}
  {s : StreamState} {event : DataChangeEvent} {before after : Option StreamState × Option View}

theorem Evolves.shows (h : Evolves generation before after)
    (hshows : Shows generation before.1 before.2) :
    Shows generation after.1 after.2 := by
  intro s hs
  cases h with
  | absent view => cases hs
  | removed stream view => cases hs
  | created hstream view =>
    cases hs
    exact ⟨hstream, rfl⟩
  | published hpublishes view' =>
    cases hs
    exact ⟨hpublishes.wellFormed, by rw [hpublishes.view_eq]⟩

theorem publishes_touch (h : s.WellFormed generation) (now : ℕ) :
    Publishes generation s { s with lastPolledAt := now } s.view :=
  ⟨⟨h.ordered, h.cursors, h.keyed⟩, rfl, rfl, rfl, fun _ _ hknown => hknown⟩

theorem Shows.evolves_self (h : Shows generation stream view) : Evolves generation (stream, view)
    (stream, view) := by
  cases stream with
  | none => exact .absent view
  | some s =>
    obtain ⟨hs, rfl⟩ := h s rfl
    exact .published (publishes_touch hs s.lastPolledAt) _

theorem Shows.evolves_filter (h : Shows generation stream view) (p : StreamState → Bool) :
    Evolves generation (stream, view) (stream.filter p, view) := by
  cases stream with
  | none => exact .absent view
  | some s =>
    by_cases hp : p s = true
    · rw [filter_some_pos hp]
      exact h.evolves_self
    · rw [filter_some_neg (Bool.eq_false_of_not_eq_true hp)]
      exact .removed s view

theorem insertActive_self (registry : StreamRegistry) (id : String) (s : StreamState) :
    (registry.insertActive id s).active id = some s := Function.update_self _ _ _

theorem insertActive_of_ne (registry : StreamRegistry) {id id' : String} (h : id' ≠ id)
    (s : StreamState) : (registry.insertActive id s).active id' = registry.active id' :=
  Function.update_of_ne h _ _

/-- What a turn with the requested sequence can do. -/
theorem turn_cases (streams : DataChangeStreams) (now : ℕ)
    (sessionId subscriptionId identity : String) (records : List MaterializedRecordInfo)
    (refresh : DataSubscriptionRefresh) (requestedSequence : Option ℕ) (registry : StreamRegistry) :
    let result := streams.turn now sessionId subscriptionId identity records refresh
      requestedSequence registry
    (∃ terminal, registry.terminal subscriptionId = some terminal ∧
      result = (some (if terminal.sessionId = sessionId then terminal.event else .resyncRequired),
        registry)) ∨
    (registry.terminal subscriptionId = none ∧ registry.active subscriptionId = none ∧
      result = (some (streams.snapshot (.new sessionId identity records refresh now)),
        registry.insertActive subscriptionId (.new sessionId identity records refresh now))) ∨
    (∃ s, registry.terminal subscriptionId = none ∧ registry.active subscriptionId = some s ∧
      (s.sessionId ≠ sessionId ∨ s.identity ≠ identity) ∧
        result = (some .resyncRequired, registry)) ∨
    (∃ s, registry.terminal subscriptionId = none ∧ registry.active subscriptionId = some s ∧
      (s.sessionId = sessionId ∧ s.identity = identity) ∧
      result = (streams.answer s requestedSequence,
        registry.insertActive subscriptionId { s with lastPolledAt := now })) := by
  unfold DataChangeStreams.turn
  cases hterminal : registry.terminal subscriptionId with
  | some terminal => exact .inl ⟨terminal, rfl, rfl⟩
  | none =>
    cases hactive : registry.active subscriptionId with
    | none => exact .inr (.inl ⟨rfl, rfl, rfl⟩)
    | some s =>
      by_cases howner : s.sessionId ≠ sessionId ∨ s.identity ≠ identity
      · exact .inr (.inr (.inl ⟨s, rfl, rfl, howner, if_pos howner⟩))
      · refine .inr (.inr (.inr ⟨s, rfl, rfl, ?_, if_neg howner⟩))
        rwa [not_or, not_not, not_not] at howner

/-! ### Tombstones -/

/-- A tombstone stands in the place of a stream and tells how it ended. -/
def Tombstoned (registry : StreamRegistry) : Prop :=
  ∀ id terminal, registry.terminal id = some terminal →
    registry.active id = none ∧ (terminal.event = .cancelled ∨ terminal.event = .revoked)

section

variable (h : Tombstoned registry)
include h

theorem Tombstoned.insertActive {id : String} (hid : registry.terminal id = none)
    (s : StreamState) :
    Tombstoned (registry.insertActive id s) := by
  intro id' terminal hterminal
  have hne : id' ≠ id := by
    rintro rfl
    exact absurd (hterminal.symm.trans hid) (by simp)
  rw [insertActive_of_ne registry hne]
  exact h id' terminal hterminal

section

variable (now : ℕ) (sessionId subscriptionId identity : String)
  (records : List MaterializedRecordInfo) (refresh : DataSubscriptionRefresh)

theorem Tombstoned.turn (requestedSequence : Option ℕ) :
    Tombstoned (streams.turn now sessionId subscriptionId identity records refresh requestedSequence
      registry).2 := by
  obtain ⟨_, _, hturn⟩ | ⟨hterminal, _, hturn⟩ | ⟨_, _, _, _, hturn⟩ | ⟨s, hterminal,
    _, _, hturn⟩ :=
    turn_cases streams now sessionId subscriptionId identity records refresh
      requestedSequence registry
  · rw [hturn]
    exact h
  · rw [hturn]
    exact h.insertActive hterminal _
  · rw [hturn]
    exact h
  · rw [hturn]
    exact h.insertActive hterminal _

theorem Tombstoned.publishInner (registerIfMissing : Bool) :
    Tombstoned (streams.publishInner now sessionId subscriptionId identity records refresh
      registerIfMissing registry) := by
  unfold DataChangeStreams.publishInner
  by_cases hterminal : (registry.terminal subscriptionId).isSome = true
  · rwa [if_pos hterminal]
  · have hnone : registry.terminal subscriptionId = none := by simpa using hterminal
    rw [if_neg hterminal]
    split
    · split_ifs
      · exact h.insertActive hnone _
      · exact h
    · split_ifs
      · exact h
      · exact h.insertActive hnone _

end

theorem Tombstoned.terminate (now : ℕ) (sessionId : String)
    (hevent : event = .cancelled ∨ event = .revoked) (ends : String → StreamState → Bool) :
    Tombstoned (streams.terminate now sessionId event ends registry) := by
  intro id terminal hterminal
  dsimp only [DataChangeStreams.terminate] at hterminal ⊢
  split_ifs at hterminal with hends
  · cases hterminal
    refine ⟨?_, hevent⟩
    obtain ⟨s, hs, hends⟩ := any_eq_true _ _ |>.mp hends
    simp [hs, hends]
  · obtain ⟨hactive, hevent⟩ := h id terminal hterminal
    exact ⟨by simp [hactive], hevent⟩

theorem Tombstoned.evictIdle (now : ℕ) (held : String → Bool) :
    Tombstoned (streams.evictIdle now held registry) := by
  intro id terminal hterminal
  dsimp only [DataChangeStreams.evictIdle] at hterminal ⊢
  obtain ⟨hterminal, -⟩ := filter_eq_some_iff.mp hterminal
  obtain ⟨hactive, hevent⟩ := h id terminal hterminal
  exact ⟨by simp [hactive], hevent⟩

end

/-! ### What a reader knows -/

/-- A reader knows a view of the present stream or of an earlier one, and follows if it is the
present one. -/
def Consistent (generation : String) (stream : Option StreamState) (lifetime : ℕ)
    (seen : Option Seen) : Prop :=
  ∀ s, seen = some s → s.cursor.generation = generation ∧ s.lifetime ≤ lifetime ∧
    (stream = none → s.lifetime < lifetime) ∧
    ∀ present, stream = some present → s.lifetime = lifetime →
      Follows present s.cursor.sequence s.view

theorem Consistent.evolves {lifetime : ℕ} {seen : Option Seen}
    (h : Consistent generation before.1 lifetime seen) (hstep : Evolves generation before after) :
    Consistent generation after.1
      (if before.1.isSome ∧ after.1.isNone then lifetime + 1 else lifetime) seen := by
  intro s hs
  obtain ⟨hgeneration, hle, hnone, hfollows⟩ := h s hs
  cases hstep with
  | absent view => exact ⟨hgeneration, hle, hnone, hfollows⟩
  | created hstream view =>
    have hlt : s.lifetime < lifetime := hnone rfl
    refine ⟨hgeneration, hle, by simp, fun present hpresent heq => ?_⟩
    simp only [isSome_none, Bool.false_eq_true, false_and, if_false] at heq
    omega
  | removed stream view =>
    refine ⟨hgeneration, ?_, fun _ => ?_, fun present hpresent => by cases hpresent⟩
    · simp only [isSome_some, isNone_none, and_self, if_true]
      omega
    · simp only [isSome_some, isNone_none, and_self, if_true]
      omega
  | published hpublishes view' =>
    refine ⟨hgeneration, by simpa using hle, by simp, fun present hpresent heq => ?_⟩
    cases hpresent
    exact hpublishes.follows _ _ (hfollows _ rfl (by simpa using heq))

theorem receive_of_changeCursor {cursor : Cursor} (h : event.changeCursor? = some cursor)
    (lifetime : ℕ) (seen : Option Seen) : receive lifetime seen event =
      seen.map fun s => { s with cursor := cursor, view := s.view.apply event } := by
  cases event <;> simp only [DataChangeEvent.changeCursor?, Option.some.injEq, reduceCtorEq] at h
  · subst h; rfl
  · subst h; rfl

theorem consistent_snapshot (hs : s.WellFormed streams.generation) (lifetime : ℕ)
    (seen : Option Seen) :
    Consistent streams.generation (some s) lifetime
      (receive lifetime seen (streams.snapshot s)) := by
  intro k hk
  have hfollows := follows_view hs
  rw [← apply_snapshot hs s.view] at hfollows
  cases hk
  refine ⟨rfl, Nat.le_refl _, by simp, fun present hpresent _ => ?_⟩
  cases hpresent
  exact hfollows

theorem Consistent.answer {lifetime : ℕ} {seen : Option Seen}
    (h : Consistent streams.generation (some s) lifetime seen)
    (hs : s.WellFormed streams.generation)
    (hevent : streams.answer s (seen.map (·.cursor.sequence)) = some event) :
    Consistent streams.generation (some s) lifetime (receive lifetime seen event) := by
  have hsnapshot : event = streams.snapshot s →
      Consistent streams.generation (some s) lifetime (receive lifetime seen event) := by
    rintro rfl
    exact consistent_snapshot hs lifetime seen
  cases seen with
  | none => exact hsnapshot (Option.some.inj hevent).symm
  | some k =>
    simp only [map_some, DataChangeStreams.answer] at hevent
    split_ifs at hevent with hahead hlost
    · cases hevent
      exact fun _ hnone => by cases hnone
    · exact hsnapshot (Option.some.inj hevent).symm
    · obtain ⟨entry, hentry, rfl⟩ := map_eq_some_iff.mp hevent
      have hcursor := hs.cursors entry (List.mem_of_find?_eq_some hentry)
      obtain ⟨hgeneration, hle, hnone, hfollows⟩ := h k rfl
      rw [receive_of_changeCursor hcursor]
      intro k' hk'
      cases hk'
      refine ⟨rfl, hle, by simp, fun present hpresent heq => ?_⟩
      cases hpresent
      exact (hfollows s rfl heq).next hs.ordered (Bool.eq_false_of_not_eq_true hlost) hentry

end

/-! ### What a step does to the system -/

/-- The stream of the subscription, and what was published last. -/
def System.at (sys : System n) (id : String) : Option StreamState × Option View :=
  (sys.registry.active id, sys.published id)

structure Sound (sys : System n) : Prop where
  shows : ∀ id, Shows streams.generation (sys.registry.active id) (sys.published id)
  tombstoned : Tombstoned sys.registry
  consistent : ∀ r, Consistent streams.generation (sys.registry.active (subscription r))
    (sys.lifetime (subscription r)) (sys.readers r).seen

variable {streams subscription} {sys : System n}

theorem sound_init : Sound streams subscription (.init n) :=
  ⟨fun _ _ h => by (cases h), fun _ _ h => by (cases h), fun _ _ h => by (cases h)⟩

section

variable (h : Sound streams subscription sys)
include h

theorem Sound.turn_eq (r : Fin n) (now : ℕ) (sessionId identity : String)
    (records : List MaterializedRecordInfo) (refresh : DataSubscriptionRefresh) :
    sys.turn streams subscription r now sessionId identity records refresh =
      streams.turn now sessionId (subscription r) identity records refresh
        ((sys.readers r).seen.map (·.cursor.sequence)) sys.registry := by
  unfold System.turn DataChangeStreams.nextTurn
  cases hseen : (sys.readers r).seen with
  | none => rfl
  | some s =>
    have hgeneration := (h.consistent r s hseen).1
    simp only [map_some, DataChangeStreams.parseCursor, if_pos hgeneration]

theorem Sound.evolves_insertActive {id : String} {s : StreamState}
    {published : String → Option View}
    (hself : Evolves streams.generation (sys.at id) (some s, published id))
    (hother : ∀ id' ≠ id, published id' = sys.published id') (id' : String) :
    Evolves streams.generation (sys.at id')
      ((sys.registry.insertActive id s).active id', published id') := by
  by_cases hid : id' = id
  · subst hid
    rwa [insertActive_self]
  · rw [insertActive_of_ne _ hid, hother id' hid]
    exact (h.shows id').evolves_self

omit h in
theorem publishedIf_of_ne (sys : System n) (reached : Bool) {id id' : String} (h : id' ≠ id)
    (view : View) : sys.publishedIf reached id view id' = sys.published id' := by
  unfold System.publishedIf
  split_ifs
  · exact Function.update_of_ne h _ _
  · rfl

omit h in
@[simp] theorem publishedIf_false (sys : System n) (id : String) (view : View) :
    sys.publishedIf false id view = sys.published := rfl

omit h in
theorem publishedIf_true (sys : System n) (id : String) (view : View) :
    sys.publishedIf true id view id = some view := Function.update_self _ _ _

theorem Sound.evolves_poll (r : Fin n) (now : ℕ) (sessionId identity : String)
    (records : List MaterializedRecordInfo) (refresh : DataSubscriptionRefresh) (id : String) :
    let action := Step.poll r now sessionId identity records refresh
    Evolves streams.generation (sys.at id) ((step streams subscription sys action).at id) := by
  have hself := (h.shows id).evolves_self
  have hunchanged (o : Option StreamState) : (o.isNone && o.isSome) = false := by cases o <;> rfl
  dsimp only [step, System.at, System.withReader, System.withRegistry]
  rw [h.turn_eq]
  obtain ⟨_, _, hturn⟩ | ⟨hterminal, hactive, hturn⟩ | ⟨_, _, _, _, hturn⟩ | ⟨s, hterminal,
    hactive, _, hturn⟩ :=
    turn_cases streams now sessionId (subscription r) identity records refresh
      ((sys.readers r).seen.map (·.cursor.sequence)) sys.registry
  · rwa [hturn, hunchanged, publishedIf_false]
  · rw [hturn]
    refine h.evolves_insertActive ?_ (fun id' hid' => publishedIf_of_ne sys _ hid' _) id
    rw [System.at, hactive, insertActive_self, isNone_none, isSome_some, Bool.true_and,
      publishedIf_true]
    exact .created (StreamState.wellFormed_new _ _ _ _ _ _) _
  · rwa [hturn, hunchanged, publishedIf_false]
  · obtain ⟨hs, hpublished⟩ := h.shows _ _ hactive
    rw [hturn]
    refine h.evolves_insertActive ?_ (fun id' hid' => publishedIf_of_ne sys _ hid' _) id
    rw [System.at, hactive, isNone_some, Bool.false_and, publishedIf_false, hpublished]
    exact .published (publishes_touch hs now) _

theorem Sound.evolves_publish (now : ℕ)
    (sessionId subscriptionId identity : String) (records : List MaterializedRecordInfo)
    (refresh : DataSubscriptionRefresh) (registerIfMissing : Bool) (id : String) :
    let action := Step.publish now sessionId subscriptionId identity records refresh
      registerIfMissing
    Evolves streams.generation (sys.at id) ((step streams subscription sys action).at id) := by
  have hself := (h.shows id).evolves_self
  dsimp only [step, System.at, System.withRegistry]
  unfold DataChangeStreams.publishInner reaches
  cases hterminal : sys.registry.terminal subscriptionId with
  | some terminal => simpa using hself
  | none =>
    cases hactive : sys.registry.active subscriptionId with
    | none =>
      cases registerIfMissing with
      | false => simpa using hself
      | true =>
        refine h.evolves_insertActive ?_ (fun id' hid' => publishedIf_of_ne sys _ hid' _) id
        rw [System.at, hactive, isNone_none, Bool.true_and, publishedIf_true]
        exact .created (StreamState.wellFormed_new _ _ _ _ _ _) _
    | some s =>
      by_cases howner : s.sessionId = sessionId ∧ s.identity = identity
      · have hpublishes := publishes_published (h.shows _ _ hactive).1 identity records refresh
        have hforeign : ¬ (s.sessionId ≠ sessionId ∨ s.identity ≠ identity) := by
          rwa [not_or, not_not, not_not]
        simp only [isSome_none, Bool.false_eq_true, if_false, if_neg hforeign,
          isNone_none, Bool.true_and, decide_eq_true howner]
        refine h.evolves_insertActive ?_ (fun id' hid' => publishedIf_of_ne sys _ hid' _) id
        rw [System.at, hactive, publishedIf_true]
        exact .published hpublishes _
      · have hforeign : s.sessionId ≠ sessionId ∨
          s.identity ≠ identity := by rwa [not_and_or] at howner
        simpa [howner, hforeign] using hself

/-- **A step takes every stream to one that its readers still follow.** -/
theorem Sound.evolves (action : Step n) (id : String) :
    Evolves streams.generation (sys.at id) ((step streams subscription sys action).at id) := by
  cases action with
  | poll r now sessionId identity records refresh =>
    exact h.evolves_poll r now sessionId identity records refresh id
  | timeout r => exact (h.shows id).evolves_self
  | abandon r => exact (h.shows id).evolves_self
  | publish now sessionId subscriptionId identity records refresh registerIfMissing =>
    exact h.evolves_publish now sessionId subscriptionId identity records refresh
      registerIfMissing id
  | _ => exact (h.shows id).evolves_filter _

omit h in
theorem lifetime_step (sys : System n) (action : Step n) (id : String) :
    (step streams subscription sys action).lifetime id =
      if (sys.at id).1.isSome ∧ ((step streams subscription sys action).at id).1.isNone then
        sys.lifetime id + 1
      else sys.lifetime id := by
  cases action with
  | timeout r => cases h : sys.registry.active id <;> simp [step, System.withReader, System.at, h]
  | abandon r => cases h : sys.registry.active id <;> simp [step, System.withReader, System.at, h]
  | _ => rfl

theorem Sound.consistent_of_seen_eq (action : Step n) (r : Fin n)
    {seen : Option Seen} (hseen : seen = (sys.readers r).seen) : Consistent streams.generation
      ((step streams subscription sys action).registry.active (subscription r))
      ((step streams subscription sys action).lifetime (subscription r)) seen := by
  rw [lifetime_step, hseen]
  exact Consistent.evolves (h.consistent r) (h.evolves action (subscription r))

theorem Sound.consistent_poll (r : Fin n) (now : ℕ)
    (sessionId identity : String) (records : List MaterializedRecordInfo)
    (refresh : DataSubscriptionRefresh) :
    let sys' := step streams subscription sys (.poll r now sessionId identity records refresh)
    Consistent streams.generation (sys'.registry.active (subscription r))
      (sys'.lifetime (subscription r)) (sys'.readers r).seen := by
  have hkept := h.consistent_of_seen_eq (.poll r now sessionId identity records refresh) r rfl
  dsimp only [step, System.withReader, System.withRegistry] at hkept ⊢
  rw [Function.update_self]
  rw [h.turn_eq] at hkept ⊢
  obtain ⟨terminal, hterminal, hturn⟩ | ⟨hterminal, hactive, hturn⟩ | ⟨_, _, _, _, hturn⟩ |
      ⟨s, hterminal, hactive, _, hturn⟩ :=
    turn_cases streams now sessionId (subscription r) identity records refresh
      ((sys.readers r).seen.map (·.cursor.sequence)) sys.registry
  · have hnone : receive (sys.lifetime (subscription r)) (sys.readers r).seen
        (if terminal.sessionId = sessionId then terminal.event else .resyncRequired) = none := by
      obtain hevent | hevent := (h.tombstoned _ _ hterminal).2 <;> rw [hevent] <;> split_ifs <;> rfl
    rw [hturn]
    intro k hk
    exact absurd (hnone.symm.trans hk) (by simp)
  · rw [hturn, hactive, insertActive_self]
    exact consistent_snapshot (StreamState.wellFormed_new _ _ _ _ _ _) _ (sys.readers r).seen
  · rw [hturn]
    exact fun _ hk => by (cases hk)
  · rw [hturn, hactive, insertActive_self] at hkept ⊢
    obtain ⟨hs, -⟩ := h.shows _ _ hactive
    have hs' : StreamState.WellFormed streams.generation { s with lastPolledAt := now } :=
      (publishes_touch hs now).wellFormed
    cases hanswer : streams.answer s ((sys.readers r).seen.map (·.cursor.sequence)) with
    | none => exact hkept
    | some event => exact hkept.answer hs' hanswer

omit h in
theorem Sound.seen_step_of_not_poll (action : Step n) (r : Fin n)
    (haction : ∀ now sessionId identity records refresh, action ≠ .poll r now sessionId identity
      records refresh) :
    ((step streams subscription sys action).readers r).seen = (sys.readers r).seen := by
  have hupdate (r' : Fin n) : (Function.update sys.readers r'
      ⟨(sys.readers r').seen, none⟩ r).seen = (sys.readers r).seen := by
    by_cases hr : r = r'
    · subst hr
      rw [Function.update_self]
    · rw [Function.update_of_ne hr]
  cases action with
  | poll r' now sessionId identity records refresh =>
    have hr : r ≠ r' := fun hr => haction now sessionId identity records refresh (by rw [hr])
    dsimp only [step, System.withReader]
    rw [Function.update_of_ne hr]
    rfl
  | timeout r' => exact hupdate r'
  | abandon r' => exact hupdate r'
  | _ => rfl

theorem Sound.tombstoned_step (action : Step n) :
    Tombstoned (step streams subscription sys action).registry := by
  cases action with
  | poll r now sessionId identity records refresh =>
    dsimp only [step, System.withReader, System.withRegistry]
    rw [h.turn_eq]
    exact h.tombstoned.turn _ _ _ _ _ _ _
  | timeout r => exact h.tombstoned
  | abandon r => exact h.tombstoned
  | publish now sessionId subscriptionId identity records refresh registerIfMissing =>
    exact h.tombstoned.publishInner _ _ _ _ _ _ _
  | cancel now sessionId subscriptionId => exact h.tombstoned.terminate _ _ (.inl rfl) _
  | revoke now sessionId => exact h.tombstoned.terminate _ _ (.inr rfl) _
  | evict now => exact h.tombstoned.evictIdle _ _

/-- **A step keeps the system sound.** -/
theorem Sound.step (action : Step n) : Sound streams subscription
    (step streams subscription sys action) where
  shows := fun id => (h.evolves action id).shows (h.shows id)
  tombstoned := h.tombstoned_step action
  consistent := by
    intro r
    by_cases hpoll : ∃ now sessionId identity records refresh,
      action = .poll r now sessionId identity records refresh
    · obtain ⟨now, sessionId, identity, records, refresh, rfl⟩ := hpoll
      exact h.consistent_poll r now sessionId identity records refresh
    · refine h.consistent_of_seen_eq action r (Sound.seen_step_of_not_poll action r ?_)
      rintro now sessionId identity records refresh rfl
      exact hpoll ⟨now, sessionId, identity, records, refresh, rfl⟩

omit h in
theorem sound_run (steps : List (Step n)) : Sound streams subscription
    (run streams subscription steps) :=
  (along_true steps).invariant (fun _ action h _ => h.step action) sound_init

/-! ### One lifetime -/

theorem Sound.caughtUp {r : Fin n} {seen : Seen} {stream : StreamState}
    (hseen : (sys.readers r).seen = some seen)
    (hstream : sys.registry.active (subscription r) = some stream)
    (hlifetime : seen.lifetime = sys.lifetime (subscription r))
    (hcursor : seen.cursor.sequence = stream.journal.sequence) :
    ∃ view, sys.published (subscription r) = some view ∧ SameView seen.view view := by
  obtain ⟨hs, hpublished⟩ := h.shows _ _ hstream
  obtain ⟨-, -, -, hfollows⟩ := h.consistent r seen hseen
  exact ⟨stream.view, hpublished, (hfollows stream hstream hlifetime).caughtUp hs.ordered hcursor⟩

end

/-- **Within one lifetime, who has seen all events has the last published view.** The reader began
with a snapshot of the present stream, since no other event sets the lifetime. -/
theorem caught_up_within_lifetime (streams : DataChangeStreams) (subscription : Fin n → String)
    (steps : List (Step n)) (r : Fin n) (seen : Seen) (stream : StreamState)
    (hseen : ((run streams subscription steps).readers r).seen = some seen)
    (hstream : (run streams subscription steps).registry.active (subscription r) = some stream)
    (hlifetime : seen.lifetime = (run streams subscription steps).lifetime (subscription r))
    (hcursor : seen.cursor.sequence = stream.journal.sequence) :
    ∃ view, (run streams subscription steps).published (subscription r) = some view ∧
      seen.view.records = view.records ∧
      refreshTransitionChanged seen.view.refresh view.refresh = false :=
  (sound_run steps).caughtUp hseen hstream hlifetime hcursor

/-- The streams of a process, with a journal of one event. -/
def shortStreams : DataChangeStreams := .withGenerationCapacityAndIdleTimeout "stream_00" 1 90

def note (revision : String) : MaterializedRecordInfo := ⟨"/notes/a", "cid", revision, 1⟩

/-- A reader takes a snapshot. The note is changed, which drops to make room for a refresh state,
and the reader polls again. -/
def followedSteps : List (Step 1) :=
  [.poll 0 0 "session" "alice.jolt" [note "one"] .loading,
    .publish 1 "session" "sub" "alice.jolt" [note "two"] .loading false,
    .publish 2 "session" "sub" "alice.jolt" [note "two"] (.ready 2) false,
    .poll 0 3 "session" "alice.jolt" [note "two"] .loading]

theorem reader_caught_up : ∃ seen view,
    ((run shortStreams (fun _ => "sub") followedSteps).readers 0).seen = some seen ∧
      seen.cursor.sequence = 2 ∧
      (run shortStreams (fun _ => "sub") followedSteps).published "sub" = some view ∧
      seen.view.records = view.records ∧
      refreshTransitionChanged seen.view.refresh view.refresh = false := by
  obtain ⟨view, hview⟩ := caught_up_within_lifetime shortStreams (fun _ => "sub") followedSteps 0 _
    _ rfl rfl rfl rfl
  exact ⟨_, view, rfl, rfl, hview⟩

/-! ### Several lifetimes -/

/-- The answer takes it that the reader has seen the stream up to its cursor. A poll that waits will
be told that its time is over. -/
def AsIfSeen : Option DataChangeEvent → Prop
  | none => True
  | some (.changed ..) | some (.state ..) | some (.timeout _) => True
  | some (.snapshot ..) | some .resyncRequired | some .cancelled | some .revoked => False

variable (streams subscription) in
/-- A stream does not take a cursor of an earlier lifetime for its own. -/
def Confined (sys : System n) : Step n → Prop
  | .poll r now sessionId identity records refresh =>
    ∀ seen, (sys.readers r).seen = some seen → seen.lifetime ≠ sys.lifetime (subscription r) →
      ¬ AsIfSeen (sys.turn streams subscription r now sessionId identity records refresh).1
  | .timeout r =>
    ∀ seen lifetime, (sys.readers r).seen = some seen → (sys.readers r).waiting = some lifetime →
      seen.lifetime = lifetime
  | _ => True

variable (subscription) in
/-- An active stream that is polled with a cursor of an earlier lifetime is of another session or
identity, has not come to the cursor's number, or has dropped the event after it. -/
def Recognizable (sys : System n) : Step n → Prop
  | .poll r _ sessionId identity _ _ =>
    ∀ seen stream, (sys.readers r).seen = some seen → seen.lifetime ≠ sys.lifetime
      (subscription r) →
      sys.registry.active (subscription r) = some stream →
      stream.sessionId ≠ sessionId ∨ stream.identity ≠ identity ∨ stream.journal.sequence <
        seen.cursor.sequence ∨
        stream.journal.isLost seen.cursor.sequence = true
  | _ => True

variable {action : Step n}
variable (streams subscription) in
/-- After its poll, a reader whose cursor is the stream's has the last published view. -/
def NothingLost (sys : System n) : Step n → Prop
  | .poll r now sessionId identity records refresh =>
    let sys' := step streams subscription sys (.poll r now sessionId identity records refresh)
    ∀ seen stream, (sys'.readers r).seen = some seen → sys'.registry.active
      (subscription r) = some stream →
      seen.cursor.sequence = stream.journal.sequence →
      ∃ view, sys'.published (subscription r) = some view ∧ SameView seen.view view
  | _ => True

theorem asIfSeen_of_changeCursor {event : DataChangeEvent} {cursor : Cursor}
    (h : event.changeCursor? = some cursor) : AsIfSeen (some event) := by
  cases event <;> simp [DataChangeEvent.changeCursor?] at h <;> trivial

theorem asIfSeen_answer {s : StreamState} (hs : s.WellFormed streams.generation) (sequence : ℕ) :
    AsIfSeen (streams.answer s (some sequence)) ↔
      ¬ (s.journal.sequence < sequence ∨ s.journal.isLost sequence = true) := by
  unfold DataChangeStreams.answer
  dsimp only
  split_ifs with hahead hlost
  · simp [AsIfSeen, hahead]
  · simp [AsIfSeen, DataChangeStreams.snapshot, hlost]
  · refine iff_of_true ?_ (by simp [hahead, hlost])
    cases hnext : s.journal.next? sequence with
    | none => trivial
    | some entry =>
      exact asIfSeen_of_changeCursor (hs.cursors entry (List.mem_of_find?_eq_some hnext))

section

variable (h : Sound streams subscription sys)
include h

/-- When a turn takes it that the reader has seen the stream. -/
theorem Sound.asIfSeen_turn {r : Fin n} {seen : Seen}
    (hseen : (sys.readers r).seen = some seen) (now : ℕ) (sessionId identity : String)
    (records : List MaterializedRecordInfo) (refresh : DataSubscriptionRefresh) :
    AsIfSeen (sys.turn streams subscription r now sessionId identity records refresh).1 ↔
      ∃ stream, sys.registry.active (subscription r) = some stream ∧
        ¬ (stream.sessionId ≠ sessionId ∨ stream.identity ≠ identity ∨ stream.journal.sequence <
          seen.cursor.sequence ∨
          stream.journal.isLost seen.cursor.sequence = true) := by
  rw [h.turn_eq, hseen, map_some]
  obtain ⟨terminal, hterminal, hturn⟩ | ⟨_, hactive, hturn⟩ | ⟨s, _, hactive, howner, hturn⟩ |
      ⟨s, _, hactive, howner, hturn⟩ :=
    turn_cases streams now sessionId (subscription r) identity records refresh
      (some seen.cursor.sequence) sys.registry
  · obtain ⟨hactive, hevent⟩ := h.tombstoned _ _ hterminal
    rw [hturn, hactive]
    refine iff_of_false ?_ (by simp)
    obtain hevent | hevent := hevent <;> rw [hevent] <;> split_ifs <;> exact id
  · rw [hturn, hactive]
    exact iff_of_false id (by simp)
  · rw [hturn, hactive]
    refine iff_of_false id ?_
    rintro ⟨stream, hstream, hnot⟩
    cases hstream
    exact hnot (howner.imp_right .inl)
  · rw [hturn, hactive, asIfSeen_answer (h.shows _ _ hactive).1]
    simp [howner.1, howner.2]

theorem Sound.confined_poll_iff (r : Fin n) (now : ℕ)
    (sessionId identity : String) (records : List MaterializedRecordInfo)
    (refresh : DataSubscriptionRefresh) :
    Confined streams subscription sys (.poll r now sessionId identity records refresh) ↔
      Recognizable subscription sys (.poll r now sessionId identity records refresh) := by
  constructor
  · intro hconfined seen stream hseen hlifetime hstream
    by_contra hnot
    refine hconfined seen hseen hlifetime ?_
    exact (h.asIfSeen_turn hseen now sessionId identity records refresh).mpr ⟨stream, hstream, hnot⟩
  · intro hknown seen hseen hlifetime hasIf
    obtain ⟨stream, hstream, hnot⟩ :=
      (h.asIfSeen_turn hseen now sessionId identity records refresh).mp hasIf
    exact hnot (hknown seen stream hseen hlifetime hstream)

omit h in
/-- A waiting poll has a cursor of the stream that it waits on. -/
def WaitsOnOwn (sys : System n) : Prop :=
  ∀ r seen lifetime, (sys.readers r).seen = some seen → (sys.readers r).waiting = some lifetime →
    seen.lifetime = lifetime

omit h in
theorem waitsOnOwn_withReader (h : WaitsOnOwn sys) (r : Fin n) {reader : Reader}
    (hreader : ∀ seen lifetime, reader.seen = some seen → reader.waiting = some lifetime →
      seen.lifetime = lifetime) : WaitsOnOwn (sys.withReader r reader) := by
  intro r' seen lifetime hseen hwaiting
  dsimp only [System.withReader] at hseen hwaiting
  by_cases hr : r' = r
  · subst hr
    rw [Function.update_self] at hseen hwaiting
    exact hreader seen lifetime hseen hwaiting
  · rw [Function.update_of_ne hr] at hseen hwaiting
    exact h r' seen lifetime hseen hwaiting

omit h in
theorem WaitsOnOwn.step (h : WaitsOnOwn sys) {action : Step n}
    (hconfined : Confined streams subscription sys action) :
    WaitsOnOwn (step streams subscription sys action) := by
  cases action with
  | poll r now sessionId identity records refresh =>
    dsimp only [StreamReaders.step]
    refine waitsOnOwn_withReader (by exact h) r ?_
    cases hevent : (sys.turn streams subscription r now sessionId identity records refresh).1 with
    | some event => exact fun seen lifetime _ hwaiting => by (cases hwaiting)
    | none =>
      intro seen lifetime hseen hwaiting
      cases hwaiting
      by_contra hlifetime
      refine hconfined seen hseen hlifetime ?_
      rw [hevent]
      trivial
  | timeout r => exact waitsOnOwn_withReader h r fun _ _ _ hwaiting => by (cases hwaiting)
  | abandon r => exact waitsOnOwn_withReader h r fun _ _ _ hwaiting => by (cases hwaiting)
  | _ => exact h

omit h in
theorem lifetime_afterTurn {reader : Reader} {lifetime : ℕ} {event : Option DataChangeEvent}
    (hconfined : ∀ seen, reader.seen = some seen → seen.lifetime ≠ lifetime → ¬ AsIfSeen event)
    {seen : Seen} (hseen : (reader.afterTurn lifetime event).seen = some seen) :
    seen.lifetime = lifetime := by
  have hkept : AsIfSeen event → ∀ old, reader.seen = some old → old.lifetime = lifetime := by
    intro hasIf old hold
    by_contra hlifetime
    exact hconfined old hold hlifetime hasIf
  cases event with
  | none => exact hkept trivial seen hseen
  | some event =>
    cases event with
    | snapshot cursor identity records state =>
      cases hseen
      rfl
    | changed cursor identity records removed =>
      obtain ⟨old, hold, rfl⟩ := map_eq_some_iff.mp hseen
      exact hkept trivial old hold
    | state cursor state =>
      obtain ⟨old, hold, rfl⟩ := map_eq_some_iff.mp hseen
      exact hkept trivial old hold
    | timeout cursor =>
      obtain ⟨old, hold, rfl⟩ := map_eq_some_iff.mp hseen
      exact hkept trivial old hold
    | _ => cases hseen

theorem Sound.nothingLost (hconfined : Confined streams subscription sys action) :
    NothingLost streams subscription sys action := by
  cases action with
  | poll r now sessionId identity records refresh =>
    intro seen stream hseen hstream hcursor
    refine (h.step _).caughtUp hseen hstream ?_ hcursor
    have hpresent : ¬ ((sys.at (subscription r)).1.isSome = true ∧
      ((StreamReaders.step streams subscription sys
          (.poll r now sessionId identity records refresh)).at (subscription r)).1.isNone =
            true) := by
      rintro ⟨-, hnone⟩
      rw [System.at, hstream] at hnone
      cases hnone
    rw [lifetime_step, if_neg hpresent]
    dsimp only [StreamReaders.step, System.withReader] at hseen
    rw [Function.update_self] at hseen
    exact lifetime_afterTurn hconfined hseen
  | _ => trivial

theorem Sound.confined_of_recognizable (hwaits : WaitsOnOwn sys)
    (hknown : Recognizable subscription sys action) : Confined streams subscription sys action := by
  cases action with
  | poll r now sessionId identity records refresh => exact (h.confined_poll_iff ..).mpr hknown
  | timeout r => exact hwaits r
  | _ => trivial

theorem Sound.recognizable_of_confined (hconfined : Confined streams subscription sys action) :
    Recognizable subscription sys action := by
  cases action with
  | poll r now sessionId identity records refresh => exact (h.confined_poll_iff ..).mp hconfined
  | _ => trivial

end

/-- **Cursors stay within a lifetime exactly in the runs in which every stream can tell.** In these
runs no record change is lost. -/
theorem cursors_confined_iff (streams : DataChangeStreams) (subscription : Fin n → String)
    (steps : List (Step n)) :
    (Along (step streams subscription) (Confined streams subscription) (.init n) steps ↔
      Along (step streams subscription) (Recognizable subscription) (.init n) steps) ∧
    (Along (step streams subscription) (Recognizable subscription) (.init n) steps →
      Along (step streams subscription) (NothingLost streams subscription) (.init n) steps) := by
  have hinit : Sound streams subscription (.init n) ∧ WaitsOnOwn (.init n) :=
    ⟨sound_init, fun _ _ _ hseen => by (cases hseen)⟩
  have hkeeps : ∀ (sys : System n) action, Sound streams subscription sys ∧ WaitsOnOwn sys →
      Recognizable subscription sys action → Sound streams subscription
        (step streams subscription sys action) ∧
          WaitsOnOwn (step streams subscription sys action) :=
    fun sys action h hknown =>
      ⟨h.1.step action, h.2.step (h.1.confined_of_recognizable h.2 hknown)⟩
  refine ⟨⟨fun h => ?_, fun h => ?_⟩, fun h => ?_⟩
  · exact h.of_invariant (I := Sound streams subscription) (fun _ action hs _ => hs.step action)
      (fun _ _ hs hconfined => hs.recognizable_of_confined hconfined) sound_init
  · exact h.of_invariant hkeeps
      (fun _ _ hs hknown => hs.1.confined_of_recognizable hs.2 hknown) hinit
  · exact h.of_invariant hkeeps
      (fun _ _ hs hknown => hs.1.nothingLost (hs.1.confined_of_recognizable hs.2 hknown)) hinit

/-! ### A reader that waits for another stream -/

/-- A first reader takes a snapshot, and the stream is evicted. A second reader's poll creates the
stream again, with the records as they are then. The first reader polls with its cursor. -/
def evictedSteps : List (Step 2) :=
  [.poll 0 0 "session" "alice.jolt" [note "one"] .loading, .evict 100,
    .poll 1 101 "session" "alice.jolt" [note "two"] .loading,
    .poll 0 102 "session" "alice.jolt" [note "two"] .loading]

theorem cursor_crosses_eviction : ¬ Along (step shortStreams fun _ => "sub")
    (Confined shortStreams fun _ => "sub") (.init 2) evictedSteps := by
  intro h
  exact h.2.2.2.1 _ rfl (by decide) trivial

end Jolt.Server.StreamReaders

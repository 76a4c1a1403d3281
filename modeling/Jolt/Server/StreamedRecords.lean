import Jolt.Server.SubscriptionTasks

/-! # What the stream of a subscription carries

All records that the tasks of a subscription hold, that its stream has and that its events bring
come from the answers of the daemon. So what holds of every record in these answers holds of every
record that a poll is answered (`answered_within`). And every poll that gets an answer with records
was let in at the beginning of paths of the subscription: its session passed the check for it. -/

namespace Jolt.Server.StreamedRecords

open Lib Calls Diffs Journals.Journal Core.Types Sessions Recipients ChangeStreams StreamReaders
  SubscriptionTasks List Option

/-! ### What holds of the records -/

def carried : DataChangeEvent → List MaterializedRecordInfo
  | .snapshot _ _ records _ | .changed _ _ records _ => records
  | _ => []

def Task.brought : Task → List MaterializedRecordInfo
  | .begin _ records | .deliver _ records | .findAgain _ records | .discard _ records => records
  | _ => []

/-- The poll that a task belongs to, from when it is let in. -/
def Task.poll? : Task → Option Poll
  | .read (.poll poll) | .begin poll _ | .deliver
      (.poll poll) _ | .findAgain poll _ | .discard poll _ =>
    some poll
  | _ => none

section

variable (Q : MaterializedRecordInfo → Prop) (A : Poll → Prop)

/-- `Q` holds of the records of the stream and of its events. -/
structure StreamWithin (stream : StreamState) : Prop where
  records : ∀ record ∈ values stream.records, Q record
  journal : ∀ entry ∈ stream.journal.entries, ∀ record ∈ carried entry.2, Q record

/-- `Q` holds of the records that the task holds, and `A` of its poll. -/
structure TaskWithin (task : Task) : Prop where
  records : ∀ record ∈ Task.brought task, Q record
  poll : ∀ poll, Task.poll? task = some poll → A poll

/-- `Q` holds of all records of the subscription, and `A` of its polls. -/
structure Within (sub : Subscription) (s : Service) : Prop where
  records : ∀ record ∈ s.records, Q record
  tasks : ∀ task ∈ s.tasks, TaskWithin Q A task
  stream : ∀ stream, s.registry.active sub.id = some stream → StreamWithin Q stream

/-- `Q` holds of what the daemon has after a step. -/
def Answers : Step → Prop
  | .write records _ | .refreshed records _ => ∀ record ∈ records, Q record
  | _ => True

end

variable {Q : MaterializedRecordInfo → Prop} {A : Poll → Prop} {P : Primitives} {readers : Readers}
  {limits : StoreLimits} {streams : DataChangeStreams} {sub : Subscription} {s : Service}
  {records : List MaterializedRecordInfo} {stream : StreamState} {event : DataChangeEvent}
  {registry : StreamRegistry} {task : Task}

/-! ### Streams -/

theorem streamWithin_new (h : ∀ record ∈ records, Q record) (sessionId identity : String)
    (refresh : DataSubscriptionRefresh) (now : ℕ) :
    StreamWithin Q (.new sessionId identity records refresh now) :=
  ⟨fun record hrecord => h record (mem_of_mem_values_byKey hrecord), forall_mem_nil _⟩

section

variable (h : StreamWithin Q stream)
include h

theorem StreamWithin.push (hevent : ∀ record ∈ carried event, Q record) :
    StreamWithin Q (streams.pushEvent stream event) := by
  refine ⟨h.records, fun entry hentry => ?_⟩
  rcases mem_of_mem_push hentry with hold | hnew
  · exact h.journal entry hold
  · rw [hnew]
    exact hevent

theorem StreamWithin.publishRecords {next : Records} (hnext : ∀ record ∈ values next, Q record)
    (identity : String) :
    StreamWithin Q (streams.publishRecords identity next stream) := by
  have hmoved : StreamWithin Q { stream with records := next } := ⟨hnext, h.journal⟩
  unfold DataChangeStreams.publishRecords
  dsimp only
  split_ifs
  · exact hmoved.push fun record hrecord => hnext record (mem_values_of_mem_changed hrecord)
  · exact hmoved

theorem StreamWithin.publishRefresh (refresh : DataSubscriptionRefresh) :
    StreamWithin Q (streams.publishRefresh refresh stream) := by
  unfold DataChangeStreams.publishRefresh
  split_ifs
  · have hpopped : StreamWithin Q
        { stream with refresh, journal := stream.journal.popIf DataChangeEvent.isState } :=
      ⟨h.records, fun entry hentry => h.journal entry (mem_of_mem_popIf hentry)⟩
    exact hpopped.push (forall_mem_nil _)
  · exact ⟨h.records, h.journal⟩

theorem StreamWithin.answer {requested : Option ℕ}
    (hevent : streams.answer stream requested = some event) :
    ∀ record ∈ carried event, Q record := by
  unfold DataChangeStreams.answer at hevent
  split at hevent
  · cases hevent
    exact h.records
  · split_ifs at hevent
    · cases hevent
      exact forall_mem_nil _
    · cases hevent
      exact h.records
    · obtain ⟨entry, hentry, rfl⟩ := map_eq_some_iff.mp hevent
      exact h.journal entry (mem_of_find?_eq_some hentry)

end

theorem streamWithin_publishInner (h : ∀ stream, registry.active sub.id = some stream →
    StreamWithin Q stream)
    (hrecords : ∀ record ∈ records, Q record) (now : ℕ) (refresh : DataSubscriptionRefresh)
    (registerIfMissing : Bool) {stream' : StreamState}
    (hstream' : (streams.publishInner now sub.sessionId sub.id sub.identity records refresh
      registerIfMissing registry).active sub.id = some stream') : StreamWithin Q stream' := by
  unfold DataChangeStreams.publishInner at hstream'
  by_cases hterminal : (registry.terminal sub.id).isSome = true
  · rw [if_pos hterminal] at hstream'
    exact h stream' hstream'
  rw [if_neg hterminal] at hstream'
  cases hactive : registry.active sub.id with
  | none =>
    simp only [hactive] at hstream'
    split_ifs at hstream'
    · rw [insertActive_self, Option.some.injEq] at hstream'
      rw [← hstream']
      exact streamWithin_new hrecords _ _ _ _
    · exact h stream' hstream'
  | some stream =>
    simp only [hactive] at hstream'
    split_ifs at hstream'
    · exact h stream' hstream'
    · rw [insertActive_self, Option.some.injEq] at hstream'
      rw [← hstream']
      refine ((h stream hactive).publishRecords ?_ _).publishRefresh _
      exact fun record hrecord => hrecords record (mem_of_mem_values_byKey hrecord)

theorem pollTurn_within (hkept : Kept sub s.registry)
    (h : ∀ stream, s.registry.active sub.id = some stream → StreamWithin Q stream)
    (c : Circumstances) (poll : Poll) (hrecords : ∀ record ∈ records, Q record) :
    (∀ event, (pollTurn streams sub c poll records s.registry).1 = some event →
      ∀ record ∈ carried event, Q record) ∧
      ∀ stream, (pollTurn streams sub c poll records s.registry).2.active sub.id = some stream →
        StreamWithin Q stream := by
  cases hregisters : (Job.poll poll).registers streams with
  | false =>
    rw [pollTurn_of_not_registers c records hregisters]
    exact ⟨fun event hevent => by cases hevent; exact forall_mem_nil _, h⟩
  | true =>
    obtain ⟨requestedSequence, hturn⟩ := @pollTurn_eq_turn streams sub s.registry c poll
      records hregisters
    rw [hturn]
    obtain ⟨terminal, hterminal, hresult⟩ | ⟨-, -, hresult⟩ | ⟨stream, -, -, -, hresult⟩ |
      ⟨stream, -, hactive, -, hresult⟩ := turn_cases streams c.instant sub.sessionId sub.id
        sub.identity records poll.refresh requestedSequence s.registry
    · rw [hresult]
      refine ⟨fun event hevent => ?_, h⟩
      cases hevent
      obtain hcancelled | hrevoked := (hkept.tombstoned _ _ hterminal).2
      · rw [hcancelled]
        split_ifs <;> exact forall_mem_nil _
      · rw [hrevoked]
        split_ifs <;> exact forall_mem_nil _
    · have hnew := streamWithin_new hrecords sub.sessionId sub.identity poll.refresh c.instant
      rw [hresult]
      refine ⟨fun event hevent => ?_, fun stream hstream => ?_⟩
      · cases hevent
        exact hnew.records
      · rw [insertActive_self, Option.some.injEq] at hstream
        rw [← hstream]
        exact hnew
    · rw [hresult]
      exact ⟨fun event hevent => by cases hevent; exact forall_mem_nil _, h⟩
    · rw [hresult]
      refine ⟨fun event hevent => (h stream hactive).answer hevent, fun stream' hstream' => ?_⟩
      rw [insertActive_self, Option.some.injEq] at hstream'
      rw [← hstream']
      exact ⟨(h stream hactive).records, (h stream hactive).journal⟩

/-! ### Tasks -/

theorem taskWithin_of_bare (hbrought : Task.brought task = []) (hpoll : Task.poll? task = none) :
    TaskWithin Q A task :=
  ⟨hbrought ▸ forall_mem_nil _, fun poll h => by rw [hpoll] at h; cases h⟩

section

variable (h : Within Q A sub s)
include h

theorem Within.add (htask : TaskWithin Q A task) : Within Q A sub (s.add task) := by
  refine ⟨h.records, fun other hother => ?_, h.stream⟩
  rcases mem_cons.mp hother with rfl | hold
  · exact htask
  · exact h.tasks other hold

theorem Within.without (task : Task) : Within Q A sub (s.without task) :=
  ⟨h.records, fun other hother => h.tasks other (mem_of_mem_erase hother), h.stream⟩

theorem Within.withStore (store : AppSessionStore) : Within Q A sub { s with store } :=
    ⟨h.records, h.tasks, h.stream⟩

theorem Within.withRegistry (hregistry : ∀ stream, registry.active sub.id = some stream →
    StreamWithin Q stream) :
    Within Q A sub (s.withRegistry registry) := ⟨h.records, h.tasks, hregistry⟩

theorem Within.call {ε α : Type} (request : Call AppSessionStore ε α)
    {go : α → Service → Service} (hgo : ∀ a s, Within Q A sub s → Within Q A sub (go a s)) :
    Within Q A sub (s.call request go) := by
  unfold Service.call
  split
  · exact hgo _ _ (h.withStore _)
  · exact h.withStore _

theorem Within.take {go : Service → Service}
    (hgo : TaskWithin Q A task → Within Q A sub (s.without task) →
      Within Q A sub (go (s.without task))) :
    Within Q A sub (s.take task go) := by
  unfold Service.take
  split_ifs with hmem
  · exact hgo (h.tasks task hmem) (h.without task)
  · exact h

theorem Within.terminate (now : ℕ) (sessionId : String) (event : DataChangeEvent)
    (ends : String → StreamState → Bool) :
    Within Q A sub (s.withRegistry (streams.terminate now sessionId event ends s.registry)) :=
  h.withRegistry fun stream hstream => h.stream stream (filter_eq_some_iff.mp hstream).1

theorem Within.beginBackgroundRefresh (c : Circumstances)
    {go : Service → Service} (hgo : ∀ s, Within Q A sub s → Within Q A sub (go s)) :
    Within Q A sub (beginBackgroundRefresh limits sub c s go) := by
  refine h.call _ fun started s hs => hgo _ ?_
  split_ifs
  · exact hs.add (taskWithin_of_bare rfl rfl)
  · exact hs

theorem Within.deliver (hkept : Kept sub s.registry) (c : Circumstances)
    {job : Job} {records : List MaterializedRecordInfo}
    (htask : TaskWithin Q A (.deliver job records)) :
    Within Q A sub (deliver streams sub c records s job) := by
  cases job with
  | poll poll =>
    have hturn := (@pollTurn_within Q streams sub s _ hkept h.stream c poll htask.records).2
    dsimp only [SubscriptionTasks.deliver]
    split_ifs
    · exact (h.withRegistry hturn).add htask
    · exact h.withRegistry hturn
  | _ => exact h.withRegistry fun _ => streamWithin_publishInner h.stream htask.records _ _ _

end

section

variable (P readers limits) (h : Within Q A sub s) (hkept : Kept sub s.registry)
  (hfind : ∀ session cursor record, dataSubscription s.store.state sub.sessionId sub.id =
    .ok record →
    allows P readers session record = true → A ⟨session, record.refresh, cursor⟩)
include h hkept hfind

/-- The next action of a task. A poll is let in only if its session passes the check for the record
of the subscription. -/
theorem Within.proceed (c : Circumstances) {task : Task} (htask : TaskWithin Q A task) :
    Within Q A sub (proceed P readers limits streams sub c s task) := by
  cases task with
  | announce identity path =>
    dsimp only [SubscriptionTasks.proceed]
    split
    · exact h.add (taskWithin_of_bare rfl rfl)
    · exact h
  | check refresh =>
    dsimp only [SubscriptionTasks.proceed]
    split_ifs
    · exact h.add (taskWithin_of_bare rfl rfl)
    · exact h
  | refresh => exact h.add (taskWithin_of_bare rfl rfl)
  | complete refresh => exact h.call _ fun _ s hs => hs.add (taskWithin_of_bare rfl rfl)
  | find session cursor =>
    dsimp only [SubscriptionTasks.proceed]
    split
    · rename_i record hrecord
      split_ifs with hallowed
      · refine h.add ⟨forall_mem_nil _, fun poll hpoll => ?_⟩
        cases hpoll
        exact hfind session cursor record hrecord hallowed
      · exact h
    · exact h
  | read job =>
    cases job with
    | poll poll => exact h.add ⟨h.records, htask.poll⟩
    | _ => exact h.add ⟨h.records, fun poll hpoll => by cases hpoll⟩
  | begin poll records =>
    dsimp only [SubscriptionTasks.proceed]
    exact h.beginBackgroundRefresh c fun s hs => hs.add ⟨htask.records, htask.poll⟩
  | deliver job records => exact h.deliver hkept c htask
  | findAgain poll records =>
    dsimp only [SubscriptionTasks.proceed]
    split
    · split
      · exact h.add ⟨htask.records, htask.poll⟩
      · exact h
    · exact h.add ⟨htask.records, htask.poll⟩
  | discard poll records => exact (h.terminate _ _ _ _).add ⟨htask.records, htask.poll⟩
  | _ => exact h.terminate _ _ _ _

/-- **A step brings in no records but the daemon's**, and lets in no polls but those that pass the
check. -/
theorem Within.step {next : Step} (hnext : Answers Q next) :
    Within Q A sub (step P readers limits streams sub s next) := by
  cases next with
  | write records announced =>
    have hwritten : Within Q A sub { s with records } := ⟨hnext, h.tasks, h.stream⟩
    cases announced with
    | none => exact hwritten
    | some row => exact hwritten.add (taskWithin_of_bare rfl rfl)
  | call next hreopen => exact h.withStore _
  | beginRefresh c => exact h.beginBackgroundRefresh c fun s hs => hs
  | authenticate c authorization cursor =>
    dsimp only [SubscriptionTasks.step]
    refine h.call _ fun session s hs => ?_
    split_ifs
    · exact hs.add (taskWithin_of_bare rfl rfl)
    · exact hs
  | finish c ending =>
    cases ending with
    | deviceRevocation deviceId =>
      dsimp only [SubscriptionTasks.step, finish]
      refine h.call _ fun revoked s hs => ?_
      split_ifs
      · exact hs.add (taskWithin_of_bare rfl rfl)
      · exact hs
    | _ => exact h.call _ fun _ s hs => hs.add (taskWithin_of_bare rfl rfl)
  | evict now held =>
    exact h.withRegistry fun stream hstream => h.stream stream (filter_eq_some_iff.mp hstream).1
  | refreshed records refresh =>
    dsimp only [SubscriptionTasks.step]
    refine h.take fun _ hs => ?_
    have hrefreshed : Within Q A sub { s.without .refresh with records } :=
      ⟨hnext, hs.tasks, hs.stream⟩
    exact hrefreshed.add (taskWithin_of_bare rfl rfl)
  | proceed c task =>
    dsimp only [SubscriptionTasks.step]
    exact h.take fun htask hs => hs.proceed P readers limits hkept hfind c htask
  | interval c poll records =>
    dsimp only [SubscriptionTasks.step]
    refine h.take fun htask hs => hs.add ?_
    split_ifs
    · exact ⟨htask.records, htask.poll⟩
    · exact taskWithin_of_bare rfl rfl
  | expire c poll records =>
    dsimp only [SubscriptionTasks.step]
    split_ifs
    · exact h.take fun _ hs => hs.terminate _ _ _ _
    · exact h
  | timeout poll records => exact h.take fun _ hs => hs
  | abandon task =>
    dsimp only [SubscriptionTasks.step]
    split_ifs
    · exact h.take fun _ hs => hs
    · exact h

end

/-! ### Answers -/

/-- The poll that ends with a step, if it does. -/
def answeredPoll : Step → Option Poll
  | .proceed _ (.deliver (.poll poll) _) | .expire _ poll _ | .timeout poll _ => some poll
  | _ => none

/-- **What a poll is answered comes from the daemon**, and the poll was let in. -/
theorem answered_within (h : Within Q A sub s) (hkept : Kept sub s.registry) {next : Step}
    {event : DataChangeEvent} (hevent : answered streams sub s next = some event)
    {record : MaterializedRecordInfo} (hrecord : record ∈ carried event) :
    Q record ∧ ∃ poll, answeredPoll next = some poll ∧ A poll := by
  unfold answered at hevent
  split at hevent
  · rename_i c poll records
    split_ifs at hevent with hmem
    have htask := h.tasks _ hmem
    exact ⟨(pollTurn_within hkept h.stream c poll htask.records).1 event hevent record hrecord,
      poll, rfl, htask.poll poll rfl⟩
  · split_ifs at hevent
    cases hevent
    cases hrecord
  · split_ifs at hevent
    cases hevent
    cases hrecord
  · split_ifs at hevent
    obtain ⟨cursor, -, rfl⟩ := map_eq_some_iff.mp hevent
    cases hrecord
  · cases hevent

end Jolt.Server.StreamedRecords

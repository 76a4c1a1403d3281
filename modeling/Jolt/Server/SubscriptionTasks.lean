import Jolt.Server.Recipients
import Jolt.Server.SessionRuns
import Jolt.Server.StreamReaders

/-! # The tasks of a data subscription

What goes on at the same time for one data subscription (`app_api.rs`): writes that are announced to
its stream (`publish_local_record_change`), background refreshes
(`begin_background_data_subscription_refresh`), polls (`next_data_subscription_change`), and the
requests that end the subscription, first in the session store and then in the change streams. Each
of these takes locks or asks the daemon several times, and the others may act in between. A step is
one such action: a task is what is left to do before the next action.

The daemon's answer for the identity and the paths of the subscription is the field `records`;
refresh states come from the store and from the daemon, and are inputs of the steps. -/

namespace Jolt.Server.SubscriptionTasks

open Lib.Calls Core.Types Sessions SessionRuns AppApi Recipients ChangeStreams StreamReaders

/-! ### Tasks -/

deriving instance DecidableEq for AppSessionView

/-- What never changes in the record of the subscription. -/
structure Subscription where
  sessionId : String
  id : String
  identity : String

/-- A poll, with its session and the refresh state of the subscription as they were when it
began. -/
structure Poll where
  session : AppSessionView
  refresh : DataSubscriptionRefresh
  cursor : Option Cursor
deriving DecidableEq

inductive Job where
  | announcement (refresh : DataSubscriptionRefresh)
  | refreshed (refresh : DataSubscriptionRefresh)
  | poll (poll : Poll)
deriving DecidableEq

inductive Task where
  /-- A record was written, and the subscriptions for its path are to be looked up. -/
  | announce (identity path : String)
  /-- Whether there is a stream to announce it to. -/
  | check (refresh : DataSubscriptionRefresh)
  /-- The daemon is refreshing its view. -/
  | refresh
  /-- The refresh is to be recorded in the store. -/
  | complete (refresh : DataSubscriptionRefresh)
  /-- A poll is authenticated, and its subscription is to be looked up. -/
  | find (session : AppSessionView) (cursor : Option Cursor)
  /-- The records are to be read. -/
  | read (job : Job)
  /-- A poll is to begin a refresh. -/
  | begin (poll : Poll) (records : List MaterializedRecordInfo)
  /-- The records that were read are brought to the stream; a poll stays here while it waits. -/
  | deliver (job : Job) (records : List MaterializedRecordInfo)
  /-- A poll has waited for an interval and found its session active. -/
  | findAgain (poll : Poll) (records : List MaterializedRecordInfo)
  /-- A poll did not find its subscription any more. -/
  | discard (poll : Poll) (records : List MaterializedRecordInfo)
  /-- A poll did not find its session active any more. -/
  | expel
  /-- The subscription was removed from the store. -/
  | cancelStream
  /-- The session was revoked in the store. -/
  | revokeStreams
deriving DecidableEq

/-- The tasks that may end before they are done: reading the records may fail, and with the
connection of the client its request is gone. Background refreshes belong to no request. -/
def Task.mayEnd : Task → Bool
  | refresh | complete _ | deliver (.refreshed _) _ => false
  | _ => true

/-! ### The service -/

structure Service where
  store : AppSessionStore
  registry : StreamRegistry
  records : List MaterializedRecordInfo
  tasks : List Task

def Service.init (store : AppSessionStore) (records : List MaterializedRecordInfo) : Service :=
  ⟨store, .default, records, []⟩

namespace Service

def add (s : Service) (task : Task) : Service := { s with tasks := task :: s.tasks }

def without (s : Service) (task : Task) : Service := { s with tasks := s.tasks.erase task }

def take (s : Service) (task : Task) (go : Service → Service) : Service :=
  if task ∈ s.tasks then go (s.without task) else s

def call {ε α : Type} (s : Service) (request : Call AppSessionStore ε α)
    (go : α → Service → Service) : Service :=
  match request s.store with
  | (.ok a, store) => go a { s with store }
  | (.error _, store) => { s with store }

def withRegistry (s : Service) (registry : StreamRegistry) : Service := { s with registry }

end Service

inductive Ending where
  | removal
  | revocation (identity : String)
  | deviceRevocation (deviceId : String)

inductive Step where
  /-- The records change, by a write of an app to the path, which announces it, or in any other
  way. -/
  | write (records : List MaterializedRecordInfo) (announced : Option (String × String))
  /-- Any other request calls the store. -/
  | call (next : StoreStep) (h : next ≠ .reopen)
  /-- A request that is no poll begins a refresh. -/
  | beginRefresh (c : Circumstances)
  /-- A poll arrives. -/
  | authenticate (c : Circumstances) (authorization : Option (Option String))
      (cursor : Option Cursor)
  /-- The subscription ends in the store. -/
  | finish (c : Circumstances) (ending : Ending)
  /-- Idle streams are evicted; `held` says whether a poll waits on the stream. -/
  | evict (now : ℕ) (held : Bool)
  /-- The daemon has refreshed its view. -/
  | refreshed (records : List MaterializedRecordInfo) (refresh : DataSubscriptionRefresh)
  | proceed (c : Circumstances) (task : Task)
  /-- A poll has waited for an interval. -/
  | interval (c : Circumstances) (poll : Poll) (records : List MaterializedRecordInfo)
  /-- The session of a waiting poll has expired. -/
  | expire (c : Circumstances) (poll : Poll) (records : List MaterializedRecordInfo)
  | timeout (poll : Poll) (records : List MaterializedRecordInfo)
  | abandon (task : Task)

section

variable (P : Primitives) (readers : Readers) (limits : StoreLimits) (streams : DataChangeStreams)
  (sub : Subscription)

/-! ### Actions -/

/-- `data_subscriptions_matching_record`, of which this subscription may be one. -/
def matching (s : Service) (identity path : String) : Option DataSubscriptionRecord :=
  (dataSubscriptionsMatchingRecord s.store.state identity path).find? (·.isAt sub.sessionId sub.id)

/-- `recipient_identity` and `require_data_subscription_capability`. -/
def allows (session : AppSessionView) (record : DataSubscriptionRecord) : Bool :=
  match recipientIdentity P readers record.identity with
  | .ok identity => session.allowsDataSubscription P identity record.start
  | .error _ => false

def pollTurn (c : Circumstances) (poll : Poll) (records : List MaterializedRecordInfo)
    (registry : StreamRegistry) : Option DataChangeEvent × StreamRegistry :=
  streams.nextTurn c.instant sub.sessionId sub.id sub.identity records poll.refresh
    poll.cursor registry

/-- The records that were read are published, or answer a poll. -/
def deliver (c : Circumstances) (records : List MaterializedRecordInfo) (s : Service) :
    Job → Service
  | .announcement refresh =>
    s.withRegistry (streams.publishIfActive c.instant sub.sessionId sub.id sub.identity records
      refresh s.registry)
  | .refreshed refresh =>
    s.withRegistry
      (streams.publish c.instant sub.sessionId sub.id sub.identity records refresh s.registry)
  | .poll poll =>
    let result := pollTurn streams sub c poll records s.registry
    if result.1.isNone then (s.withRegistry result.2).add (.deliver (.poll poll) records)
    else s.withRegistry result.2

/-- `begin_background_data_subscription_refresh`: the refresh becomes a task of its own. -/
def beginBackgroundRefresh (c : Circumstances) (s : Service) (go : Service → Service) : Service :=
  s.call (beginDataSubscriptionRefresh c limits sub.sessionId sub.id) fun started s =>
    go (if started then s.add .refresh else s)

def proceed (c : Circumstances) (s : Service) : Task → Service
  | .announce identity path =>
    match matching sub s identity path with
    | some record => s.add (.check record.refresh)
    | none => s
  | .check refresh =>
    if s.registry.isActive sub.sessionId sub.id then s.add (.read (.announcement refresh)) else s
  | .refresh => s.add .refresh
  | .complete refresh =>
    s.call (completeDataSubscriptionRefresh c sub.sessionId sub.id refresh) fun _ s =>
      s.add (.read (.refreshed refresh))
  | .find session cursor =>
    match dataSubscription s.store.state sub.sessionId sub.id with
    | .ok record =>
      if allows P readers session record then s.add
        (.read (.poll ⟨session, record.refresh, cursor⟩)) else s
    | .error _ => s
  | .read (.poll poll) => s.add (.begin poll s.records)
  | .read job => s.add (.deliver job s.records)
  | .begin poll records =>
    beginBackgroundRefresh limits sub c s (·.add (.deliver (.poll poll) records))
  | .deliver job records => deliver streams sub c records s job
  | .findAgain poll records =>
    match dataSubscription s.store.state sub.sessionId sub.id with
    | .ok record =>
      match recipientIdentity P readers record.identity with
      | .ok _ => s.add (.begin poll records)
      | .error _ => s
    | .error _ => s.add (.discard poll records)
  | .discard poll records =>
    (s.withRegistry (streams.cancelSubscription c.instant sub.sessionId sub.id s.registry)).add
      (.deliver (.poll poll) records)
  | .expel => s.withRegistry (streams.revokeSession c.instant sub.sessionId s.registry)
  | .cancelStream =>
    s.withRegistry (streams.cancelSubscription c.instant sub.sessionId sub.id s.registry)
  | .revokeStreams => s.withRegistry (streams.revokeSession c.instant sub.sessionId s.registry)

/-- The end of the subscription in the store. The streams follow if the call succeeds and, for a
device, if the session was one of its sessions. -/
def finish (c : Circumstances) (s : Service) : Ending → Service
  | .removal =>
    s.call (removeDataSubscription c sub.sessionId sub.id) fun _ s => s.add .cancelStream
  | .revocation identity =>
    s.call (revokeSessionForIdentity c sub.sessionId identity) fun _ s => s.add .revokeStreams
  | .deviceRevocation deviceId =>
    s.call (revokeSessionsForDevice c deviceId) fun revoked s =>
      if some sub.sessionId ∈ revoked.map (·.sessionId) then s.add .revokeStreams else s

def step (s : Service) : Step → Service
  | .write records announced =>
    match announced with
    | some (identity, path) => { s with records }.add (.announce identity path)
    | none => { s with records }
  | .call next _ => { s with store := SessionRuns.step P limits s.store next }
  | .beginRefresh c => beginBackgroundRefresh limits sub c s id
  | .authenticate c authorization cursor =>
    s.call (authenticatedSession P c authorization) fun session s =>
      if session.sessionId = some sub.sessionId then s.add (.find session cursor) else s
  | .finish c ending => finish sub c s ending
  | .evict now held => s.withRegistry (streams.evictIdle now (fun _ => held) s.registry)
  | .refreshed records refresh =>
    s.take .refresh fun s => { s with records }.add (.complete refresh)
  | .proceed c task => s.take task fun s => proceed P readers limits streams sub c s task
  | .interval c poll records =>
    s.take (.deliver (.poll poll) records) fun s =>
      s.add (if dataSubscriptionSessionIsActive c s.store.state sub.sessionId then
        .findAgain poll records else .expel)
  | .expire c poll records =>
    if poll.session.expiresAt.any (· ≤ c.now) then
      s.take (.deliver (.poll poll) records) fun s =>
        s.withRegistry (streams.revokeSession c.instant sub.sessionId s.registry)
    else s
  | .timeout poll records => s.take (.deliver (.poll poll) records) id
  | .abandon task => if task.mayEnd then s.take task id else s

def answered (s : Service) : Step → Option DataChangeEvent
  | .proceed c (.deliver (.poll poll) records) =>
    if .deliver (.poll poll) records ∈
      s.tasks then (pollTurn streams sub c poll records s.registry).1
    else none
  | .proceed _ .expel => if .expel ∈ s.tasks then some .revoked else none
  | .expire c poll records =>
    if poll.session.expiresAt.any (· ≤ c.now) ∧ .deliver (.poll poll) records ∈
      s.tasks then some .revoked
    else none
  | .timeout poll records =>
    if .deliver (.poll poll) records ∈ s.tasks then poll.cursor.map .timeout else none
  | _ => none

def run (s : Service) (steps : List Step) :
    Service := steps.foldl (step P readers limits streams sub) s

end

/-! ### What happens to the stream -/

section

variable (streams : DataChangeStreams) (sub : Subscription)

def Job.registers : Job → Bool
  | announcement _ => false
  | refreshed _ => true
  | poll request => request.cursor.all fun cursor => (streams.parseCursor cursor).isSome

def Job.installs (registry : StreamRegistry) (job : Job) : Bool :=
  (registry.terminal sub.id).isNone &&
    match job with
    | poll _ => (registry.active sub.id).isNone && job.registers streams
    | _ => (registry.active sub.id).isSome || job.registers streams

/-- The step puts the records into the stream. -/
def Installs (s : Service) (next : Step) (job : Job) (records : List MaterializedRecordInfo) :
    Prop :=
  ∃ c, next = .proceed c (.deliver job records) ∧ .deliver job records ∈ s.tasks ∧
    job.installs streams sub s.registry = true

def Subscription.Owns (stream : StreamState) : Prop :=
  stream.sessionId = sub.sessionId ∧ stream.identity = sub.identity

/-- What is known of the registry in every run: the stream is that of the subscription, and a
tombstone stands in the place of a stream. -/
structure Kept (registry : StreamRegistry) : Prop where
  owned : ∀ stream, registry.active sub.id = some stream → sub.Owns stream
  tombstoned : Tombstoned registry

end

/-- If there is a stream afterwards, there was one with the same records. -/
def Retains (before after : Option StreamState) : Prop :=
  ∀ stream', after = some stream' → ∃ stream, before = some stream ∧
    stream'.records = stream.records ∧
    stream'.sessionId = stream.sessionId ∧ stream'.identity = stream.identity

theorem retains_refl (stream : Option StreamState) : Retains stream stream :=
  fun stream' h => ⟨stream', h, rfl, rfl, rfl⟩

theorem retains_filter (stream : Option StreamState) (p : StreamState → Bool) :
    Retains stream (stream.filter p) :=
  fun stream' h => ⟨stream', (Option.filter_eq_some_iff.mp h).1, rfl, rfl, rfl⟩

theorem Retains.eq_none {before after : Option StreamState} (h : Retains before after)
    (hbefore : before = none) : after = none := by
  by_contra hafter
  obtain ⟨stream', hstream'⟩ := Option.ne_none_iff_exists'.mp hafter
  obtain ⟨stream, hstream, -⟩ := h stream' hstream'
  exact absurd (hbefore.symm.trans hstream) (by simp)

section

variable {P : Primitives} {readers : Readers} {limits : StoreLimits} {streams : DataChangeStreams}
  {sub : Subscription} {s : Service} {registry : StreamRegistry}

theorem Kept.retains (h : Kept sub registry) {registry' : StreamRegistry}
    (hretains : Retains (registry.active sub.id) (registry'.active sub.id))
    (htombstoned : Tombstoned registry') : Kept sub registry' := by
  refine ⟨fun stream' hstream' => ?_, htombstoned⟩
  obtain ⟨stream, hstream, -, hsession, hidentity⟩ := hretains stream' hstream'
  obtain ⟨hsession', hidentity'⟩ := h.owned stream hstream
  exact ⟨hsession.trans hsession', hidentity.trans hidentity'⟩

variable (streams) in
theorem published_stream (identity : String) (records : Records) (refresh : DataSubscriptionRefresh)
    (stream : StreamState) :
    let stream' := streams.publishRefresh refresh (streams.publishRecords identity records stream)
    stream'.records = records ∧ stream'.sessionId = stream.sessionId ∧
      stream'.identity = stream.identity := by
  dsimp only [DataChangeStreams.publishRefresh, DataChangeStreams.publishRecords,
    DataChangeStreams.pushEvent]
  split_ifs <;> exact ⟨rfl, rfl, rfl⟩

theorem active_publishInner (howned : ∀ stream, registry.active sub.id = some stream →
    sub.Owns stream)
    (now : ℕ) (records : List MaterializedRecordInfo) (refresh : DataSubscriptionRefresh)
    {registerIfMissing : Bool} (hterminal : registry.terminal sub.id = none)
    (hreaches : registry.active sub.id = none → registerIfMissing = true) :
    ∃ stream, (streams.publishInner now sub.sessionId sub.id sub.identity records refresh
        registerIfMissing registry).active sub.id = some stream ∧
      stream.records = byPath records ∧ sub.Owns stream := by
  unfold DataChangeStreams.publishInner
  rw [hterminal, if_neg (by simp)]
  cases hactive : registry.active sub.id with
  | none =>
    rw [hreaches hactive]
    exact ⟨_, insertActive_self _ _ _, rfl, rfl, rfl⟩
  | some stream =>
    obtain ⟨hsession, hidentity⟩ := howned stream hactive
    obtain ⟨hrecords, hsession', hidentity'⟩ :=
      published_stream streams sub.identity (byPath records) refresh stream
    simp only [hsession, hidentity, ne_eq, not_true, or_self, if_false]
    exact ⟨_, insertActive_self _ _ _, hrecords, hsession'.trans hsession,
      hidentity'.trans hidentity⟩

theorem publishInner_of_not_reaches (now : ℕ) (records : List MaterializedRecordInfo)
    (refresh : DataSubscriptionRefresh) {registerIfMissing : Bool}
    (h : (registry.terminal sub.id).isSome = true ∨
      registry.active sub.id = none ∧ registerIfMissing = false) :
    streams.publishInner now sub.sessionId sub.id sub.identity records refresh
      registerIfMissing registry =
      registry := by
  unfold DataChangeStreams.publishInner
  by_cases hterminal : (registry.terminal sub.id).isSome = true
  · rw [if_pos hterminal]
  · obtain ⟨hactive, hregister⟩ := h.resolve_left hterminal
    rw [if_neg hterminal, hactive, hregister]
    simp

section

variable (c : Circumstances) {poll : Poll} (records : List MaterializedRecordInfo)

theorem pollTurn_eq_turn (h : (Job.poll poll).registers streams = true) : ∃ requestedSequence,
      pollTurn streams sub c poll records registry = streams.turn c.instant sub.sessionId sub.id
        sub.identity records poll.refresh requestedSequence registry := by
  unfold pollTurn DataChangeStreams.nextTurn
  cases hcursor : poll.cursor with
  | none => exact ⟨none, rfl⟩
  | some cursor =>
    rw [Job.registers, hcursor, Option.all_some, Option.isSome_iff_exists] at h
    obtain ⟨sequence, hsequence⟩ := h
    simp only [hsequence]
    exact ⟨some sequence, rfl⟩

theorem pollTurn_of_not_registers (h : (Job.poll poll).registers streams = false) :
    pollTurn streams sub c poll records registry = (some .resyncRequired, registry) := by
  unfold pollTurn DataChangeStreams.nextTurn
  cases hcursor : poll.cursor with
  | none => simp [Job.registers, hcursor] at h
  | some cursor =>
    rw [Job.registers, hcursor, Option.all_some, Option.isSome_eq_false_iff,
      Option.isNone_iff_eq_none] at h
    simp only [h]

end

variable (streams) in
/-- A poll creates the stream if nothing stands in its place, and else leaves its records. -/
theorem pollTurn_cases (h : Kept sub registry) (c : Circumstances) (poll : Poll)
    (records : List MaterializedRecordInfo) :
    let result := pollTurn streams sub c poll records registry
    ((Job.poll poll).registers streams = false ∧ result = (some .resyncRequired, registry)) ∨
    (∃ terminal, registry.terminal sub.id = some terminal ∧
      result =
        (some (if terminal.sessionId = sub.sessionId then terminal.event else .resyncRequired),
        registry)) ∨
    ((Job.poll poll).registers streams = true ∧ registry.terminal sub.id = none ∧
      registry.active sub.id = none ∧
      result =
        (some (streams.snapshot (.new sub.sessionId sub.identity records poll.refresh c.instant)),
        registry.insertActive sub.id
          (.new sub.sessionId sub.identity records poll.refresh c.instant))) ∨
    (∃ stream, registry.terminal sub.id = none ∧ registry.active sub.id = some stream ∧
      result.2 = registry.insertActive sub.id { stream with lastPolledAt := c.instant }) := by
  cases hregisters : (Job.poll poll).registers streams with
  | false => exact .inl ⟨rfl, pollTurn_of_not_registers c records hregisters⟩
  | true =>
    obtain ⟨requestedSequence, hturn⟩ := pollTurn_eq_turn c records hregisters
    rw [hturn]
    obtain hended | ⟨hterminal, hactive, hresult⟩ | ⟨stream, -, hactive, hother, -⟩ |
      ⟨stream, hterminal, hactive, -, hresult⟩ := turn_cases streams c.instant sub.sessionId sub.id
        sub.identity records poll.refresh requestedSequence registry
    · exact .inr (.inl hended)
    · exact .inr (.inr (.inl ⟨rfl, hterminal, hactive, hresult⟩))
    · obtain ⟨hsession, hidentity⟩ := h.owned stream hactive
      exact absurd hother (by simp [hsession, hidentity])
    · exact .inr (.inr (.inr ⟨stream, hterminal, hactive, by rw [hresult]⟩))

theorem deliver_poll_registry (c : Circumstances) (records : List MaterializedRecordInfo)
    (poll : Poll) :
    (deliver streams sub c records s (.poll poll)).registry =
    (pollTurn streams sub c poll records s.registry).2 := by
  dsimp only [deliver]
  split_ifs <;> rfl

section

variable (h : Kept sub s.registry) (c : Circumstances) (records : List MaterializedRecordInfo)
include h

/-- **A delivery that installs its records puts them into the stream.** -/
theorem active_deliver {job : Job} (hinstalls : job.installs streams sub s.registry = true) :
    ∃ stream, (deliver streams sub c records s job).registry.active sub.id = some stream ∧
      stream.records = byPath records ∧ sub.Owns stream := by
  obtain ⟨hterminal, hinstalls⟩ := (Bool.and_eq_true _ _).mp hinstalls
  rw [Option.isNone_iff_eq_none] at hterminal
  cases job with
  | announcement refresh =>
    refine active_publishInner h.owned c.instant records refresh hterminal fun hactive => ?_
    simp [hactive, Job.registers] at hinstalls
  | refreshed refresh =>
    exact active_publishInner h.owned c.instant records refresh hterminal fun _ => rfl
  | poll request =>
    have hinstalls : ((s.registry.active sub.id).isNone && (Job.poll request).registers streams) =
      true := hinstalls
    rw [Bool.and_eq_true, Option.isNone_iff_eq_none] at hinstalls
    obtain ⟨hactive, hregisters⟩ := hinstalls
    rw [deliver_poll_registry]
    obtain ⟨hno, -⟩ | ⟨terminal, hsome, -⟩ | ⟨-, -, -, hresult⟩ | ⟨stream, -, hsome, -⟩ :=
      pollTurn_cases streams h c request records
    · exact absurd (hno.symm.trans hregisters) (by simp)
    · exact absurd (hsome.symm.trans hterminal) (by simp)
    · rw [hresult]
      exact ⟨_, insertActive_self _ _ _, rfl, rfl, rfl⟩
    · exact absurd (hsome.symm.trans hactive) (by simp)

/-- **Any other delivery leaves the records of the stream.** -/
theorem retains_deliver {job : Job} (hinstalls : job.installs streams sub s.registry = false) :
    Retains (s.registry.active sub.id)
      ((deliver streams sub c records s job).registry.active sub.id) := by
  -- a publication that is not installed found a tombstone, or no stream
  have hpublish : ∀ refresh registerIfMissing, ((s.registry.terminal sub.id).isNone &&
        ((s.registry.active sub.id).isSome || registerIfMissing)) = false →
      Retains (s.registry.active sub.id)
        ((streams.publishInner c.instant sub.sessionId sub.id sub.identity records refresh
          registerIfMissing s.registry).active sub.id) := by
    intro refresh registerIfMissing hfalse
    rw [publishInner_of_not_reaches]
    · exact retains_refl _
    · rcases Bool.and_eq_false_iff.mp hfalse with hterminal | hrest
      · exact .inl (by simpa using hterminal)
      · exact .inr (by simpa using hrest)
  cases job with
  | announcement refresh => exact hpublish refresh false hinstalls
  | refreshed refresh => exact hpublish refresh true hinstalls
  | poll request =>
    rw [deliver_poll_registry]
    obtain ⟨-, hresult⟩ | ⟨terminal, -, hresult⟩ | ⟨hregisters, hterminal, hactive, -⟩ |
      ⟨stream, -, hactive, hresult⟩ := pollTurn_cases streams h c request records
    · rw [hresult]
      exact retains_refl _
    · rw [hresult]
      exact retains_refl _
    · simp [Job.installs, hterminal, hactive, hregisters] at hinstalls
    · rw [hresult, insertActive_self]
      rintro stream' ⟨⟩
      exact ⟨stream, hactive, rfl, rfl, rfl⟩

theorem tombstoned_deliver (job : Job) :
    Tombstoned (deliver streams sub c records s job).registry := by
  cases job with
  | poll request =>
    rw [deliver_poll_registry]
    obtain ⟨-, hresult⟩ | ⟨terminal, -, hresult⟩ | ⟨-, hterminal, -, hresult⟩ |
      ⟨stream, hterminal, -, hresult⟩ := pollTurn_cases streams h c request records
    · rw [hresult]
      exact h.tombstoned
    · rw [hresult]
      exact h.tombstoned
    · rw [hresult]
      exact h.tombstoned.insertActive hterminal _
    · rw [hresult]
      exact h.tombstoned.insertActive hterminal _
  | _ => exact h.tombstoned.publishInner _ _ _ _ _ _ _

end

/-! ### What a step does to the stream -/

theorem registry_call {ε α : Type} (request : Call AppSessionStore ε α) {go : α → Service → Service}
    (hgo : ∀ a s, (go a s).registry = s.registry) : (s.call request go).registry = s.registry := by
  unfold Service.call
  split
  · exact hgo _ _
  · rfl

theorem registry_beginBackgroundRefresh (c : Circumstances) {go : Service → Service}
    (hgo : ∀ s, (go s).registry = s.registry) :
    (beginBackgroundRefresh limits sub c s go).registry = s.registry :=
  registry_call _ fun started s => by
    rw [hgo]
    split_ifs <;> rfl

/-- A change of the registry after which the stream is as it was or gone, as in every run. -/
def Harmless (sub : Subscription) (registry registry' : StreamRegistry) : Prop :=
  Retains (registry.active sub.id) (registry'.active sub.id) ∧ Tombstoned registry'

theorem harmless_of_eq (h : Kept sub registry) {registry' : StreamRegistry}
    (heq : registry' = registry) : Harmless sub registry registry' := by
  rw [heq]
  exact ⟨retains_refl _, h.tombstoned⟩

theorem harmless_cancelSubscription (h : Kept sub registry) (now : ℕ) :
    Harmless sub registry (streams.cancelSubscription now sub.sessionId sub.id registry) :=
  ⟨retains_filter _ _, h.tombstoned.terminate _ _ (.inl rfl) _⟩

theorem harmless_revokeSession (h : Kept sub registry) (now : ℕ) :
    Harmless sub registry (streams.revokeSession now sub.sessionId registry) :=
  ⟨retains_filter _ _, h.tombstoned.terminate _ _ (.inr rfl) _⟩

variable (P readers limits) in
theorem harmless_proceed (h : Kept sub s.registry) (c : Circumstances) {task : Task}
    (htask : ∀ job records, task ≠ .deliver job records) :
    Harmless sub s.registry (proceed P readers limits streams sub c s task).registry := by
  cases task with
  | announce identity path =>
    refine harmless_of_eq h ?_
    dsimp only [proceed]
    split <;> rfl
  | check refresh =>
    refine harmless_of_eq h ?_
    dsimp only [proceed]
    split_ifs <;> rfl
  | refresh => exact harmless_of_eq h rfl
  | complete refresh => exact harmless_of_eq h (registry_call _ fun _ _ => rfl)
  | find session cursor =>
    refine harmless_of_eq h ?_
    dsimp only [proceed]
    split
    · split_ifs <;> rfl
    · rfl
  | read job => cases job <;> exact harmless_of_eq h rfl
  | begin poll records =>
    exact harmless_of_eq h (registry_beginBackgroundRefresh c fun _ => rfl)
  | deliver job records => exact absurd rfl (htask job records)
  | findAgain poll records =>
    refine harmless_of_eq h ?_
    dsimp only [proceed]
    split
    · split <;> rfl
    · rfl
  | expel => exact harmless_revokeSession h c.instant
  | revokeStreams => exact harmless_revokeSession h c.instant
  | _ => exact harmless_cancelSubscription h c.instant

theorem harmless_take (h : Kept sub s.registry) {task : Task} {go : Service → Service}
    (hgo : ∀ s', s'.registry = s.registry → Harmless sub s.registry (go s').registry) :
    Harmless sub s.registry (s.take task go).registry := by
  unfold Service.take
  split_ifs
  · exact hgo _ rfl
  · exact harmless_of_eq h rfl

variable (P readers limits) in
/-- **Only a delivery that installs its records brings records into the stream.** -/
theorem harmless_step (h : Kept sub s.registry) {next : Step}
    (hnext : ∀ job records, ¬ Installs streams sub s next job records) :
    Harmless sub s.registry (step P readers limits streams sub s next).registry := by
  cases next with
  | write records announced =>
    refine harmless_of_eq h ?_
    dsimp only [step]
    split <;> rfl
  | call next hreopen => exact harmless_of_eq h rfl
  | beginRefresh c => exact harmless_of_eq h (registry_beginBackgroundRefresh c fun _ => rfl)
  | authenticate c authorization cursor =>
    refine harmless_of_eq h (registry_call _ fun session s => ?_)
    split_ifs <;> rfl
  | finish c ending =>
    refine harmless_of_eq h ?_
    cases ending with
    | deviceRevocation deviceId =>
      refine registry_call _ fun revoked s => ?_
      split_ifs <;> rfl
    | _ => exact registry_call _ fun _ _ => rfl
  | evict now held => exact ⟨retains_filter _ _, h.tombstoned.evictIdle _ _⟩
  | proceed c task =>
    dsimp only [step, Service.take]
    split_ifs with hmem
    · by_cases hdeliver : ∃ job records, task = .deliver job records
      · obtain ⟨job, records, rfl⟩ := hdeliver
        have hinstalls : job.installs streams sub s.registry = false := by
          rw [Bool.eq_false_iff]
          exact fun hinstalls => hnext job records ⟨c, rfl, hmem, hinstalls⟩
        exact ⟨retains_deliver (s := s.without _) h c records hinstalls,
          tombstoned_deliver (s := s.without _) h c records job⟩
      · exact harmless_proceed P readers limits (s := s.without _) h c
          fun job records htask => hdeliver ⟨job, records, htask⟩
    · exact harmless_of_eq h rfl
  | expire c poll records =>
    dsimp only [step]
    split_ifs
    · refine harmless_take h fun s' hs' => ?_
      rw [← hs'] at h ⊢
      exact harmless_revokeSession h c.instant
    · exact harmless_of_eq h rfl
  | abandon task =>
    dsimp only [step]
    split_ifs
    · exact harmless_take h fun s' hs' => harmless_of_eq h hs'
    · exact harmless_of_eq h rfl
  | _ => exact harmless_take h fun s' hs' => harmless_of_eq h hs'

variable (P readers limits) in
theorem active_step_of_installs (h : Kept sub s.registry) {next : Step} {job : Job}
    {records : List MaterializedRecordInfo} (hnext : Installs streams sub s next job records) :
    ∃ stream, (step P readers limits streams sub s next).registry.active sub.id = some stream ∧
      stream.records = byPath records ∧ sub.Owns stream := by
  obtain ⟨c, rfl, hmem, hinstalls⟩ := hnext
  dsimp only [step, Service.take]
  rw [if_pos hmem]
  exact active_deliver (s := s.without _) h c records hinstalls

variable (P readers limits) in
/-- **A step keeps what is known of the registry.** -/
theorem Kept.step (h : Kept sub s.registry) (next : Step) :
    Kept sub (step P readers limits streams sub s next).registry := by
  by_cases hnext : ∃ job records, Installs streams sub s next job records
  · obtain ⟨job, records, hinstalls⟩ := hnext
    obtain ⟨stream, hactive, -, howns⟩ := active_step_of_installs P readers limits h hinstalls
    refine ⟨fun stream' hstream' => ?_, ?_⟩
    · cases hactive.symm.trans hstream'
      exact howns
    · obtain ⟨c, rfl, hmem, -⟩ := hinstalls
      dsimp only [SubscriptionTasks.step, Service.take]
      rw [if_pos hmem]
      exact tombstoned_deliver (s := s.without _) h c records job
  · have hharmless := harmless_step P readers limits h fun job records hinstalls =>
      hnext ⟨job, records, hinstalls⟩
    exact h.retains hharmless.1 hharmless.2

theorem kept_init (sub : Subscription) (store : AppSessionStore)
    (records : List MaterializedRecordInfo) : Kept sub (Service.init store records).registry :=
  ⟨nofun, nofun⟩

end

end Jolt.Server.SubscriptionTasks

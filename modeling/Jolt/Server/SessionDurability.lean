import Jolt.Core.Sample
import Jolt.Server.SessionRuns

/-! # Durable changes of sessions

A call of the session store checks first, then changes the state in memory and then saves it. A call
whose own write succeeds, whatever has happened before, either saves what is in memory or changes
nothing; and if it fails, it has changed neither sessions nor subscriptions
(`durable_or_unchanged`). There is one exception, which is meant so: a token that is used after the
time of its session is refused, and the session is marked as expired and its subscriptions are
dropped on that occasion. -/

namespace Jolt.Server.SessionDurability

open Lib Checks Calls.Call Jolt.Core Jolt.Core.Types Sessions SessionRuns

/-! ### Outcomes -/

def Unchanged (store store' : AppSessionStore) : Prop :=
  store'.state.records = store.state.records ∧ store'.state.dataSubscriptions =
    store.state.dataSubscriptions

/-- A restart loads the sessions and subscriptions that are in memory. -/
def Durable (store : AppSessionStore) : Prop :=
  store.readable = true ∧ Unchanged store (.open store.file)

/-- Neither memory nor the file has changed. -/
def Untouched (store store' : AppSessionStore) : Prop :=
  Unchanged store store' ∧ store'.file = store.file ∧ store'.readable = store.readable

section

variable (P : Primitives) (limits : StoreLimits)

def succeeds (store : AppSessionStore) : StoreStep → Bool
  | .createRequest c request => (Sessions.createRequest c request store).1.isOk
  | .approveRequest c requestId approval localDeviceId =>
    (Sessions.approveRequest P c requestId approval localDeviceId store).1.isOk
  | .rejectRequest c requestId => (Sessions.rejectRequest c requestId store).1.isOk
  | .revokeSession c sessionId => (Sessions.revokeSession c sessionId store).1.isOk
  | .revokeSessionForIdentity c sessionId identity =>
    (Sessions.revokeSessionForIdentity c sessionId identity store).1.isOk
  | .revokeSessionsForDevice c deviceId =>
      (Sessions.revokeSessionsForDevice c deviceId store).1.isOk
  | .sessionForToken c token => (Sessions.sessionForToken P c token store).1.isOk
  | .registerDataSubscription c sessionId identity start =>
    (Sessions.registerDataSubscription c limits sessionId identity start store).1.isOk
  | .beginDataSubscriptionRefresh c sessionId subscriptionId =>
    (Sessions.beginDataSubscriptionRefresh c limits sessionId subscriptionId store).1.isOk
  | .completeDataSubscriptionRefresh c sessionId subscriptionId refresh =>
    (Sessions.completeDataSubscriptionRefresh c sessionId subscriptionId refresh store).1.isOk
  | .removeDataSubscription c sessionId subscriptionId =>
    (Sessions.removeDataSubscription c sessionId subscriptionId store).1.isOk
  | .reopen => true

/-- The step uses the token of an active session after its time. -/
def UsesAfterExpiry (store : AppSessionStore) : StoreStep → Prop
  | .sessionForToken c token =>
    ∃ record, store.state.records.find? (·.tokenHash = some (hashToken P token)) = some record ∧
      record.status = .active ∧ record.expiresAt.any (· ≤ c.now) = true
  | _ => False

end

/-! ### Calls that fail before they change anything -/

/-- A call that leaves sessions, subscriptions and the file, whatever it returns. -/
abbrev Quiet {α : Type} (call : StoreCall α) : Prop := Keeps Untouched call

/-- A call that does not fail and saves at its end. -/
def Commits {α : Type} (call : StoreCall α) : Prop := ∀ store, (call store).1.isOk = true ∧ Durable
    (call store).2

/-- A call that changes nothing if it fails, and saves what it changes. -/
def Safe {α : Type} (call : StoreCall α) : Prop :=
  ∀ store, ((call store).1.isOk = false → Unchanged store (call store).2) ∧
    (Durable (call store).2 ∨ Untouched store (call store).2)

section

variable {α β : Type} {c : Circumstances} {call : StoreCall α}

theorem Commits.safe (h : Commits call) : Safe call :=
  fun store => ⟨fun hfails => absurd ((h store).1.symm.trans hfails) (by simp), .inl (h store).2⟩

theorem Quiet.safe (h : Quiet call) :
    Safe call := fun store => ⟨fun _ => (h store).1, .inr (h store)⟩

theorem Unchanged.trans {s s' s'' : AppSessionStore} (h : Unchanged s s') (h' : Unchanged s' s'') :
    Unchanged s s'' :=
  ⟨h'.1.trans h.1, h'.2.trans h.2⟩

theorem Quiet.bind_safe {rest : α → StoreCall β} (hcall : Quiet call) (hrest : ∀ a, Safe (rest a)) :
    Safe (call >>= rest) := by
  intro store
  have hquiet := hcall store
  rw [run_bind]
  rcases hresult : call store with ⟨e | a, store'⟩ <;> rw [hresult] at hquiet
  · exact ⟨fun _ => hquiet.1, .inr hquiet⟩
  · obtain ⟨hunchanged, hfile, hreadable⟩ := hquiet
    obtain ⟨hfails, hsaves⟩ := hrest a store'
    refine ⟨fun h => hunchanged.trans (hfails h), hsaves.imp_right fun h => ?_⟩
    exact ⟨hunchanged.trans h.1, h.2.1.trans hfile, h.2.2.trans hreadable⟩

theorem untouched_refl (store : AppSessionStore) : Untouched store store := ⟨⟨rfl, rfl⟩, rfl, rfl⟩

theorem quiet_check (x : Except AppSessionStoreError α) : Quiet (check x : StoreCall α) :=
  untouched_refl

theorem quiet_state : Quiet state := untouched_refl

theorem quiet_pure (a : α) : Quiet (pure a : StoreCall α) := untouched_refl

theorem quiet_modifyState {change : AppSessionState → AppSessionState}
    (hrecords : ∀ state, (change state).records = state.records)
    (hsubscriptions : ∀ state, (change state).dataSubscriptions = state.dataSubscriptions) :
    Quiet (modifyState change) :=
  fun store => ⟨⟨hrecords store.state, hsubscriptions store.state⟩, rfl, rfl⟩

theorem commits_saveState (hc : c.saved = .ok ()) : Commits (saveState c) := by
  intro store
  unfold saveState
  rw [hc]
  exact ⟨rfl, rfl, rfl, rfl⟩

theorem Commits.return (h : Commits call) (b : β) : Commits (call >>= fun _ => pure b) := by
  intro store
  obtain ⟨hok, hdurable⟩ := h store
  obtain ⟨a, store', hresult⟩ := exists_of_isOk hok
  rw [run_bind, hresult]
  rw [hresult] at hdurable
  exact ⟨rfl, hdurable⟩

theorem Commits.modifyState {call : StoreCall α} (h : Commits call)
    (change : AppSessionState → AppSessionState) : Commits (modifyState change >>= fun _ => call) :=
  fun _ => h _

theorem Commits.modifyRecord {call : StoreCall α} (h : Commits call)
    (fits : AppSessionRecord → Bool) (change : AppSessionRecord → AppSessionRecord) :
    Commits (modifyRecord fits change >>= fun _ => call) :=
  h.modifyState _

end

/-! ### The calls of the store -/

section

variable {P : Primitives} {limits : StoreLimits} {c : Circumstances}

section

variable (hc : c.saved = .ok ())
include hc

theorem commits_createRequest (request : AppSessionRequest) : Commits (createRequest c request) :=
  Commits.modifyState ((commits_saveState hc).return _) _

theorem safe_approveRequest (requestId : String) (approval : ApproveAppSessionRequest)
    (localDeviceId : String) :
    Safe (approveRequest P c requestId approval localDeviceId) :=
  quiet_state.bind_safe fun _ => (quiet_check _).bind_safe fun _ =>
    (quiet_check _).bind_safe fun _ =>
    (quiet_check _).bind_safe fun _ =>
      (Commits.modifyRecord ((commits_saveState hc).return _) _ _).safe

theorem safe_rejectRequest (requestId : String) : Safe (rejectRequest c requestId) :=
  quiet_state.bind_safe fun _ => (quiet_check _).bind_safe fun _ =>
    (Commits.modifyRecord (commits_saveState hc) _ _).safe

theorem safe_revokeSession (sessionId : String) : Safe (revokeSession c sessionId) :=
  quiet_state.bind_safe fun _ => (quiet_check _).bind_safe fun _ =>
    (Commits.modifyRecord (Commits.modifyState (commits_saveState hc) _) _ _).safe

theorem safe_revokeSessionForIdentity (sessionId identity : String) :
    Safe (revokeSessionForIdentity c sessionId identity) :=
  quiet_state.bind_safe fun _ => (quiet_check _).bind_safe fun _ =>
    (Commits.modifyRecord (Commits.modifyState (commits_saveState hc) _) _ _).safe

theorem safe_revokeSessionsForDevice (deviceId : String) :
    Safe (revokeSessionsForDevice c deviceId) := by
  refine quiet_state.bind_safe fun current => ?_
  dsimp only
  split_ifs
  · exact (quiet_pure _).safe
  · exact (Commits.modifyState (Commits.modifyState ((commits_saveState hc).return _) _) _).safe

theorem commits_expireSession (fits : AppSessionRecord → Bool)
    (sessionId : Option String) : Commits (expireSession c fits sessionId) := by
  cases sessionId with
  | none => exact Commits.modifyRecord (commits_saveState hc) _ _
  | some sessionId =>
    exact Commits.modifyRecord (Commits.modifyState (commits_saveState hc) _) _ _

/-- A token that is used in time. -/
theorem safe_sessionForToken (token : String) (store : AppSessionStore) :
    ((sessionForToken P c token store).1.isOk = false →
      Unchanged store (sessionForToken P c token store).2 ∨
        UsesAfterExpiry P store (.sessionForToken c token)) ∧
    (Durable (sessionForToken P c token store).2 ∨
      Untouched store (sessionForToken P c token store).2) := by
  unfold sessionForToken
  simp only [state, read_bind]
  cases hfind : store.state.records.find? (·.tokenHash = some (hashToken P token)) with
  | none => exact ⟨fun _ => .inl ⟨rfl, rfl⟩, .inr (untouched_refl store)⟩
  | some record =>
    simp only [okOr, check_ok_bind]
    by_cases hactive : record.status = .active
    · have hensure : ensure (record.status = .active) AppSessionStoreError.invalidToken = .ok () :=
        ensure_eq_ok.mpr hactive
      rw [hensure, check_ok_bind]
      split_ifs with hexpired
      · refine ⟨fun _ => .inr ⟨record, hfind, hactive, hexpired⟩, .inl ?_⟩
        obtain ⟨hok, hdurable⟩ := commits_expireSession hc
          (fun record => decide (record.tokenHash = some (hashToken P token)))
            record.sessionId store
        obtain ⟨_, store', hresult⟩ := exists_of_isOk hok
        rw [hresult] at hdurable
        rw [run_bind, hresult]
        exact hdurable
      · have hcommits := Commits.modifyRecord ((commits_saveState hc).return
          { record.toAppSessionView with lastUsedAt := some c.now })
          (fun record => decide (record.tokenHash = some (hashToken P token)))
          (fun record => { record with lastUsedAt := some c.now }) store
        refine ⟨fun hfails => ?_, .inl hcommits.2⟩
        exact absurd (hcommits.1.symm.trans hfails) (by simp)
    · have hensure : ensure (record.status = .active) AppSessionStoreError.invalidToken =
          .error .invalidToken := if_neg hactive
      rw [hensure]
      exact ⟨fun _ => .inl ⟨rfl, rfl⟩, .inr (untouched_refl store)⟩

theorem safe_registerDataSubscription (sessionId identity start : String) :
    Safe (registerDataSubscription c limits sessionId identity start) := by
  refine quiet_state.bind_safe fun current => ?_
  split
  · exact (quiet_pure _).safe
  · exact (quiet_check _).bind_safe fun _ =>
      (Commits.modifyState ((commits_saveState hc).return _) _).safe

end

theorem safe_beginDataSubscriptionRefresh (sessionId subscriptionId : String) :
    Safe (beginDataSubscriptionRefresh c limits sessionId subscriptionId) := by
  refine quiet_state.bind_safe fun _ => (quiet_check _).bind_safe fun _ =>
    Quiet.bind_safe (quiet_modifyState (fun _ => rfl) fun _ => rfl) fun _ =>
      quiet_state.bind_safe fun current => ?_
  split_ifs
  · exact (quiet_pure _).safe
  · exact Quiet.bind_safe (quiet_modifyState (fun _ => rfl) fun _ => rfl) fun _ =>
      (quiet_pure _).safe

theorem safe_completeDataSubscriptionRefresh (hc : c.saved = .ok ())
    (sessionId subscriptionId : String) (refresh : DataSubscriptionRefresh) :
    Safe (completeDataSubscriptionRefresh c sessionId subscriptionId refresh) :=
  Quiet.bind_safe (quiet_modifyState (fun _ => rfl) fun _ => rfl) fun _ =>
    quiet_state.bind_safe fun _ => (quiet_check _).bind_safe fun _ =>
      (Commits.modifyState ((commits_saveState hc).return _) _).safe

theorem safe_removeDataSubscription (hc : c.saved = .ok ()) (sessionId subscriptionId : String) :
    Safe (removeDataSubscription c sessionId subscriptionId) :=
  quiet_state.bind_safe fun _ => (quiet_check _).bind_safe fun _ =>
    (Commits.modifyState (commits_saveState hc) _).safe

/-- **Changes are durable or not made.** After a call whose write of the file succeeds or is not
reached, at any state of the store, memory has what a restart loads, or neither memory nor the file
has changed; and if the call fails, no session and no subscription in memory has changed, except for
the expiry of a session whose token is used too late. -/
theorem durable_or_unchanged (store : AppSessionStore) {next : StoreStep}
    (hnext : saved next = .ok ()) :
    (succeeds P limits store next = false →
      Unchanged store (step P limits store next) ∨ UsesAfterExpiry P store next) ∧
    (Durable (step P limits store next) ∨ Untouched store (step P limits store next)) := by
  have hsafe {α : Type} {call : StoreCall α} (h : Safe call) :
      ((call store).1.isOk = false →
        Unchanged store (call store).2 ∨ UsesAfterExpiry P store next) ∧
        (Durable (call store).2 ∨ Untouched store (call store).2) :=
    ⟨fun hfails => .inl ((h store).1 hfails), (h store).2⟩
  cases next with
  | createRequest c request => exact hsafe (commits_createRequest hnext request).safe
  | approveRequest c requestId approval localDeviceId =>
    exact hsafe (safe_approveRequest hnext requestId approval localDeviceId)
  | rejectRequest c requestId => exact hsafe (safe_rejectRequest hnext requestId)
  | revokeSession c sessionId => exact hsafe (safe_revokeSession hnext sessionId)
  | revokeSessionForIdentity c sessionId identity =>
    exact hsafe (safe_revokeSessionForIdentity hnext sessionId identity)
  | revokeSessionsForDevice c deviceId => exact hsafe (safe_revokeSessionsForDevice hnext deviceId)
  | sessionForToken c token => exact safe_sessionForToken hnext token store
  | registerDataSubscription c sessionId identity start =>
    exact hsafe (safe_registerDataSubscription hnext sessionId identity start)
  | beginDataSubscriptionRefresh c sessionId subscriptionId =>
    exact hsafe (safe_beginDataSubscriptionRefresh sessionId subscriptionId)
  | completeDataSubscriptionRefresh c sessionId subscriptionId refresh =>
    exact hsafe (safe_completeDataSubscriptionRefresh hnext sessionId subscriptionId refresh)
  | removeDataSubscription c sessionId subscriptionId =>
    exact hsafe (safe_removeDataSubscription hnext sessionId subscriptionId)
  | reopen =>
    refine ⟨fun h => by (cases h), ?_⟩
    rcases reopen_cases store with hreopen | hreopen <;> rw [step, hreopen]
    · exact .inl ⟨rfl, rfl, rfl⟩
    · exact .inr (untouched_refl store)

end

/-! ### A token that is used too late -/

/-- A call at a time, whose file write succeeds. -/
def savedAt (now : UInt64) : Circumstances := ⟨now, 0, "id", "token", .ok ()⟩

/-- A session is requested and approved until the time 5. -/
def approvedSteps : List StoreStep :=
  [.createRequest (savedAt 1) ⟨"app", "App", none, some "alice", []⟩,
    .approveRequest (savedAt 2) "id" ⟨none, [], some 5⟩ "device"]

def noSubscriptions : StoreLimits := ⟨0, 30⟩

/-- The approval is not written, and then a session that does not exist is revoked and the one that
does. -/
theorem revocation_saves_approval :
    let store := step Sample.primitives noSubscriptions
      (run Sample.primitives noSubscriptions (approvedSteps.take 1))
      (.approveRequest { savedAt 2 with saved := .error ⟨"permission denied", false⟩ } "id"
        ⟨none, [], some 5⟩ "device")
    ¬ Durable store ∧
      Unchanged store (step Sample.primitives noSubscriptions store
        (.revokeSession (savedAt 3) "other")) ∧
      (Durable (step Sample.primitives noSubscriptions store (.revokeSession (savedAt 3) "id")) ∨
        Untouched store (step Sample.primitives noSubscriptions store
          (.revokeSession (savedAt 3) "id"))) := by
  intro store
  refine ⟨fun h => ?_, ?_, (durable_or_unchanged store rfl).2⟩
  · have hstatus := congrArg (List.map (·.status)) h.2.1
    exact absurd hstatus (by decide)
  · exact ((durable_or_unchanged store rfl).1 rfl).resolve_right id

/-- The token is refused, and its session is not as it was. -/
theorem late_token_changes_session :
    let store := run Sample.primitives noSubscriptions approvedSteps
    succeeds Sample.primitives noSubscriptions store
      (.sessionForToken (savedAt 10) "token") = false ∧
      ¬ Unchanged store
        (step Sample.primitives noSubscriptions store (.sessionForToken (savedAt 10) "token")) := by
  refine ⟨rfl, fun h => ?_⟩
  have hstatus := congrArg (List.map (·.status)) h.1
  exact absurd hstatus (by decide)

end Jolt.Server.SessionDurability

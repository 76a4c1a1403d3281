import Jolt.Server.Sessions

/-! # Runs of the session store

Every way in which the store changes, as one step, and runs of such steps from an empty file. What a
step can do to the records and to the file is said once (`changes_step`). A property of records that
holds of new ones, that an approval gives and that the other changes keep, holds of every record in
every run (`RecordInvariant.run`), also after the daemon has been started again and when saving has
failed in between. -/

namespace Jolt.Server.SessionRuns

open Lib Checks Calls.Call FirstMatch Core.Types Capabilities Sessions List

/-! ### Steps and runs -/

inductive StoreStep where
  | createRequest (c : Circumstances) (request : AppSessionRequest)
  | approveRequest (c : Circumstances) (requestId : String) (approval : ApproveAppSessionRequest)
      (localDeviceId : String)
  | rejectRequest (c : Circumstances) (requestId : String)
  | revokeSession (c : Circumstances) (sessionId : String)
  | revokeSessionForIdentity (c : Circumstances) (sessionId identity : String)
  | revokeSessionsForDevice (c : Circumstances) (deviceId : String)
  | sessionForToken (c : Circumstances) (token : String)
  | registerDataSubscription (c : Circumstances) (sessionId identity start : String)
  | beginDataSubscriptionRefresh (c : Circumstances) (sessionId subscriptionId : String)
  | completeDataSubscriptionRefresh (c : Circumstances) (sessionId subscriptionId : String)
      (refresh : DataSubscriptionRefresh)
  | removeDataSubscription (c : Circumstances) (sessionId subscriptionId : String)
  | reopen

section

variable (P : Primitives) (limits : StoreLimits)

/-- The store after a step, whatever the call returns. -/
def step (store : AppSessionStore) : StoreStep → AppSessionStore
  | .createRequest c request => (Sessions.createRequest c request store).2
  | .approveRequest c requestId approval localDeviceId =>
    (Sessions.approveRequest P c requestId approval localDeviceId store).2
  | .rejectRequest c requestId => (Sessions.rejectRequest c requestId store).2
  | .revokeSession c sessionId => (Sessions.revokeSession c sessionId store).2
  | .revokeSessionForIdentity c sessionId identity =>
    (Sessions.revokeSessionForIdentity c sessionId identity store).2
  | .revokeSessionsForDevice c deviceId => (Sessions.revokeSessionsForDevice c deviceId store).2
  | .sessionForToken c token => (Sessions.sessionForToken P c token store).2
  | .registerDataSubscription c sessionId identity start =>
    (Sessions.registerDataSubscription c limits sessionId identity start store).2
  | .beginDataSubscriptionRefresh c sessionId subscriptionId =>
    (Sessions.beginDataSubscriptionRefresh c limits sessionId subscriptionId store).2
  | .completeDataSubscriptionRefresh c sessionId subscriptionId refresh =>
    (Sessions.completeDataSubscriptionRefresh c sessionId subscriptionId refresh store).2
  | .removeDataSubscription c sessionId subscriptionId =>
    (Sessions.removeDataSubscription c sessionId subscriptionId store).2
  | .reopen => store.reopen

def run (steps : List StoreStep) : AppSessionStore := steps.foldl (step P limits) (.open ⟨[], []⟩)

end

/-- How the file write of a step ends, if the step gets to it. -/
def saved : StoreStep → Except FailedWrite Unit
  | .createRequest c _ => c.saved
  | .approveRequest c _ _ _ => c.saved
  | .rejectRequest c _ => c.saved
  | .revokeSession c _ => c.saved
  | .revokeSessionForIdentity c _ _ => c.saved
  | .revokeSessionsForDevice c _ => c.saved
  | .sessionForToken c _ => c.saved
  | .registerDataSubscription c _ _ _ => c.saved
  | .beginDataSubscriptionRefresh c _ _ => c.saved
  | .completeDataSubscriptionRefresh c _ _ _ => c.saved
  | .removeDataSubscription c _ _ => c.saved
  | .reopen => .ok ()

theorem saveState_eq_ok {c : Circumstances} {store store' : AppSessionStore} {u : Unit} :
    saveState c store = (.ok u, store') ↔ c.saved = .ok () ∧
      { store with
        file := ⟨store.state.records, store.state.dataSubscriptions⟩,
        readable := true } = store' := by
  unfold saveState
  cases c.saved <;> simp

theorem reopen_cases (store : AppSessionStore) :
    store.reopen = .open store.file ∨ store.reopen = store := by
  unfold AppSessionStore.reopen
  split_ifs
  · exact .inl rfl
  · exact .inr rfl

/-! ### What a step does -/

def savedState (state : AppSessionState) :
    SavedSessionState := ⟨state.records, state.dataSubscriptions⟩

inductive EndsSession : (AppSessionRecord → AppSessionRecord) → Prop
  | revoked (c : Circumstances) : EndsSession (·.revoke c)
  | expired : EndsSession fun record => { record with status := .expired }

/-- **What a step does to the sessions and subscriptions in memory**, if it does anything. The
subscriptions of a session that ends are dropped, and no step but a registration adds one. -/
inductive Change (P : Primitives) (next : StoreStep) (s : SavedSessionState) :
    SavedSessionState → Prop
  | same : Change P next s s
  | created (record : AppSessionRecord) (hgranted : record.grantedCapabilities = []) :
      Change P next s { s with records := s.records ++ [record] }
  | approved (c : Circumstances) (requestId identity localDeviceId : String)
      (capabilities : List String) (expiresAt : Option UInt64) (record : AppSessionRecord)
      (hfind : s.records.find? (·.requestId = requestId) = some record)
      (hpending : record.status = .pending)
      (hgrants : ∀ capability ∈ capabilities, isGrantableAppCapability P capability = true ∧
        capabilityWasRequested P capability record.requestedCapabilities = true) :
      Change P next s
        { s with
          records := updateFirst (·.requestId = requestId)
            (·.approve P c identity localDeviceId capabilities expiresAt) s.records }
  | rejected (c : Circumstances) (requestId : String) (record : AppSessionRecord)
      (hfind : s.records.find? (·.requestId = requestId) = some record)
      (hpending : record.status = .pending) :
      Change P next s
        { s with
          records := updateFirst (·.requestId = requestId)
            (fun record => { record with status := .rejected, rejectedAt := some c.now })
              s.records }
  | used (fits : AppSessionRecord → Bool) (now : UInt64) : Change P next s
        { s with
          records := updateFirst fits
            (fun record => { record with lastUsedAt := some now }) s.records }
  | ended (fits : AppSessionRecord → Bool) {change : AppSessionRecord → AppSessionRecord}
      (hchange : EndsSession change) (record : AppSessionRecord)
      (hfind : s.records.find? fits = some record) {subscriptions : List DataSubscriptionRecord}
      (hkept : ∀ subscription ∈ subscriptions, subscription ∈ s.dataSubscriptions ∧
        record.sessionId ≠ some subscription.sessionId) :
      Change P next s ⟨updateFirst fits change s.records, subscriptions⟩
  | endedOn (c : Circumstances) (deviceId : String) {subscriptions : List DataSubscriptionRecord}
      (hkept : ∀ subscription ∈ subscriptions, subscription ∈ s.dataSubscriptions ∧
        ∀ record ∈ s.records, record.isActiveOn deviceId = true →
          record.sessionId ≠ some subscription.sessionId) :
      Change P next s
        ⟨s.records.map fun record => if record.isActiveOn deviceId then record.revoke c else record,
          subscriptions⟩
  | subscribed {subscriptions : List DataSubscriptionRecord}
      (hfrom : ∀ subscription ∈ subscriptions,
        (∃ old ∈ s.dataSubscriptions, old.sessionId = subscription.sessionId) ∨
        ∃ c identity start, next = .registerDataSubscription c subscription.sessionId
          identity start) :
      Change P next s { s with dataSubscriptions := subscriptions }

/-- Nothing is saved because nothing has changed, or because the write fails before it opens the
file. -/
def Unsaved (next : StoreStep) (store store' : AppSessionStore) : Prop :=
  savedState store'.state = savedState store.state ∨
    ∃ failure, saved next = .error failure ∧ failure.truncated = false

/-- The state is changed in memory, and the file stays or is brought to it. -/
structure Changes (P : Primitives) (next : StoreStep) (store store' : AppSessionStore) : Prop where
  memory : Change P next (savedState store.state) (savedState store'.state)
  file : store'.file = store.file ∨ store'.file = savedState store'.state
  written : store'.readable = true → store'.file = savedState store'.state ∨
    store.readable = true ∧ store'.file = store.file ∧ Unsaved next store store'

section

variable {P : Primitives} {limits : StoreLimits} {next : StoreStep} {store : AppSessionStore}
  {α : Type} {state : AppSessionState} {record : AppSessionRecord} (c : Circumstances)
  (requestId sessionId subscriptionId : String)

theorem changes_of_same (h : savedState state = savedState store.state) :
    Changes P next store ⟨state, store.file, store.readable⟩ :=
  ⟨h ▸ .same, .inl rfl, fun hreadable => .inr ⟨hreadable, rfl, .inl h⟩⟩

theorem Changes.refl : Changes P next store store := changes_of_same rfl

theorem changes_saveState (hc : saved next = c.saved)
    (h : Change P next (savedState store.state) (savedState state)) :
    Changes P next store (saveState c ⟨state, store.file, store.readable⟩).2 := by
  unfold saveState
  cases hsaved : c.saved with
  | ok => exact ⟨h, .inr rfl, fun _ => .inl rfl⟩
  | error failure =>
    refine ⟨h, .inl rfl, fun hreadable => .inr ?_⟩
    obtain ⟨hbefore, hopened⟩ := (Bool.and_eq_true _ _).mp hreadable
    exact ⟨hbefore, rfl, .inr ⟨failure, hc.trans hsaved, by simpa using hopened⟩⟩

theorem changes_saveState_bind (hc : saved next = c.saved)
    (result : Except AppSessionStoreError α)
    (h : Change P next (savedState store.state) (savedState state)) :
    Changes P next store
      ((saveState c >>= fun _ => check result) ⟨state, store.file, store.readable⟩).2 := by
  have hsaved := changes_saveState c hc h
  rw [run_bind]
  split <;> simp_all

theorem pendingRequest_eq_ok {requestId : String} : state.pendingRequest requestId = .ok record ↔
      state.records.find? (·.requestId = requestId) = some record ∧ record.status = .pending := by
  unfold AppSessionState.pendingRequest
  simp only [bind_eq_ok, okOr_eq_ok, ensure_eq_ok, pure_eq_ok]
  constructor
  · rintro ⟨_, hfind, _, hpending, rfl⟩
    exact ⟨hfind, hpending⟩
  · rintro ⟨hfind, hpending⟩
    exact ⟨record, hfind, (), hpending, rfl⟩

theorem changes_approveRequest (approval : ApproveAppSessionRequest) (localDeviceId : String) :
    Changes P (.approveRequest c requestId approval localDeviceId) store
      (approveRequest P c requestId approval localDeviceId store).2 := by
  unfold approveRequest
  simp only [state, read_bind]
  cases hrecord : store.state.pendingRequest requestId with
  | error e => exact .refl
  | ok record =>
    obtain ⟨hfind, hpending⟩ := pendingRequest_eq_ok.mp hrecord
    rw [check_ok_bind]
    cases okOr (approval.identity <|> record.requestedIdentity)
      AppSessionStoreError.missingIdentity with
    | error e => exact .refl
    | ok identity =>
      rw [check_ok_bind]
      generalize (if approval.capabilities = [] then record.requestedCapabilities
        else approval.capabilities) = capabilities
      cases hgrants : capabilities.forM (ensureGrantable P record.requestedCapabilities) with
      | error e => exact .refl
      | ok _ =>
        have hgrantable := forM_eq_ok_iff.mp hgrants
        simp only [ensureGrantable, bind_eq_ok, ensure_eq_ok] at hgrantable
        refine changes_saveState_bind c rfl (.ok _) ?_
        refine .approved c requestId identity localDeviceId capabilities approval.expiresAt
          record hfind hpending fun capability hmem => ?_
        obtain ⟨_, hgranted⟩ := hgrantable capability hmem
        exact hgranted

theorem changes_rejectRequest :
    Changes P (.rejectRequest c requestId) store (rejectRequest c requestId store).2 := by
  unfold rejectRequest
  simp only [state, read_bind]
  cases hrecord : store.state.pendingRequest requestId with
  | error e => exact .refl
  | ok record =>
    obtain ⟨hfind, hpending⟩ := pendingRequest_eq_ok.mp hrecord
    refine changes_saveState c rfl ?_
    exact .rejected c requestId record hfind hpending

theorem change_ended {fits : AppSessionRecord → Bool} {change : AppSessionRecord → AppSessionRecord}
    (hchange : EndsSession change) (hfind : store.state.records.find? fits = some record)
    {sessionId : String} (hid : record.sessionId = some sessionId) :
    Change P next (savedState store.state) ⟨updateFirst fits change store.state.records,
      store.state.dataSubscriptions.filter fun subscription =>
        !decide (subscription.sessionId = sessionId)⟩ := by
  refine .ended fits hchange record hfind fun subscription hmem => ?_
  obtain ⟨hmem, hne⟩ := mem_filter.mp hmem
  exact ⟨hmem, fun h => by simp_all⟩

theorem changes_revokeSession :
    Changes P (.revokeSession c sessionId) store (revokeSession c sessionId store).2 := by
  unfold revokeSession
  simp only [state, read_bind]
  cases hfind : store.state.records.find? (·.sessionId = some sessionId) with
  | none => exact .refl
  | some record =>
    have hid : record.sessionId = some sessionId := by simpa using find?_some hfind
    refine changes_saveState c rfl ?_
    exact change_ended (.revoked c) hfind hid

theorem changes_revokeSessionForIdentity (identity : String) :
    Changes P (.revokeSessionForIdentity c sessionId identity) store
      (revokeSessionForIdentity c sessionId identity store).2 := by
  unfold revokeSessionForIdentity
  simp only [state, read_bind]
  cases hfind : store.state.records.find? fun record =>
      decide (record.sessionId = some sessionId ∧ record.identity = some identity) with
  | none => exact .refl
  | some record =>
    have hfits := find?_some hfind
    refine changes_saveState c rfl ?_
    exact change_ended (.revoked c) hfind (of_decide_eq_true hfits).1

theorem changes_revokeSessionsForDevice (deviceId : String) :
    Changes P (.revokeSessionsForDevice c deviceId) store
      (revokeSessionsForDevice c deviceId store).2 := by
  unfold revokeSessionsForDevice
  simp only [state, read_bind]
  split_ifs
  · exact .refl
  · refine changes_saveState_bind c rfl (.ok _) ?_
    refine .endedOn c deviceId fun subscription hmem => ?_
    obtain ⟨hmem, hother⟩ := mem_filter.mp hmem
    refine ⟨hmem, fun record hrecord hon hid => ?_⟩
    simp only [Bool.not_eq_true', decide_eq_false_iff_not] at hother
    refine hother (mem_filterMap.mpr ⟨record.revoke c, mem_map_of_mem ?_, hid⟩)
    exact mem_filter.mpr ⟨hrecord, hon⟩

theorem changes_sessionForToken (token : String) :
    Changes P (.sessionForToken c token) store (sessionForToken P c token store).2 := by
  unfold sessionForToken
  simp only [state, read_bind]
  cases hfind : store.state.records.find? fun record =>
      decide (record.tokenHash = some (hashToken P token)) with
  | none => exact .refl
  | some record =>
    simp only [okOr, check_bind]
    split
    · exact .refl
    · split_ifs
      · unfold expireSession
        cases hid : record.sessionId with
        | none =>
          refine changes_saveState_bind c rfl _ ?_
          refine .ended _ .expired record hfind fun subscription hmem => ?_
          exact ⟨hmem, by simp [hid]⟩
        | some sessionId =>
          refine changes_saveState_bind c rfl _ ?_
          exact change_ended .expired hfind hid
      · refine changes_saveState_bind c rfl (.ok _) ?_
        exact .used _ c.now

theorem changes_registerDataSubscription (identity start : String) :
    Changes P (.registerDataSubscription c sessionId identity start) store
      (registerDataSubscription c limits sessionId identity start store).2 := by
  unfold registerDataSubscription
  simp only [state, read_bind]
  cases store.state.dataSubscriptions.find? fun subscription =>
      decide (subscription.sessionId = sessionId ∧ subscription.identity = identity ∧
        subscription.start = start) with
  | some existing => exact .refl
  | none =>
    dsimp only
    rw [check_bind]
    split
    · exact .refl
    · refine changes_saveState_bind c rfl (.ok _) ?_
      refine .subscribed fun subscription hmem => ?_
      rcases mem_append.mp hmem with hmem | hmem
      · exact .inl ⟨subscription, hmem, rfl⟩
      · rw [mem_singleton.mp hmem]
        exact .inr ⟨c, identity, start, rfl⟩

theorem changes_beginDataSubscriptionRefresh :
    Changes P next store
      (beginDataSubscriptionRefresh c limits sessionId subscriptionId store).2 := by
  unfold beginDataSubscriptionRefresh
  simp only [state, read_bind, check_bind]
  split
  · exact .refl
  · simp only [modifyState, write_bind, read_bind]
    split_ifs <;> exact changes_of_same rfl

theorem changes_completeDataSubscriptionRefresh (refresh : DataSubscriptionRefresh) :
    Changes P (.completeDataSubscriptionRefresh c sessionId subscriptionId refresh) store
      (completeDataSubscriptionRefresh c sessionId subscriptionId refresh store).2 := by
  unfold completeDataSubscriptionRefresh
  simp only [state, modifyState, write_bind, read_bind, check_bind]
  split
  · exact changes_of_same rfl
  · refine changes_saveState_bind c rfl (.ok _) ?_
    refine .subscribed fun subscription hmem => .inl ?_
    rcases mem_updateFirst hmem with hmem | ⟨old, hfind, rfl⟩
    · exact ⟨subscription, hmem, rfl⟩
    · exact ⟨old, mem_of_find?_eq_some hfind, rfl⟩

theorem changes_removeDataSubscription :
    Changes P (.removeDataSubscription c sessionId subscriptionId) store
      (removeDataSubscription c sessionId subscriptionId store).2 := by
  unfold removeDataSubscription
  simp only [state, read_bind, check_bind]
  split
  · exact .refl
  · refine changes_saveState c rfl ?_
    refine .subscribed fun subscription hmem => .inl ?_
    exact ⟨subscription, mem_of_mem_eraseP hmem, rfl⟩

/-- **What a step does**, unless it is a restart. -/
theorem changes_step (store : AppSessionStore) (hnext : next ≠ .reopen) :
    Changes P next store (step P limits store next) := by
  cases next with
  | createRequest c request =>
    refine changes_saveState_bind c rfl (.ok _) ?_
    exact .created _ rfl
  | approveRequest c requestId approval localDeviceId =>
    exact changes_approveRequest c requestId approval localDeviceId
  | rejectRequest c requestId => exact changes_rejectRequest c requestId
  | revokeSession c sessionId => exact changes_revokeSession c sessionId
  | revokeSessionForIdentity c sessionId identity =>
    exact changes_revokeSessionForIdentity c sessionId identity
  | revokeSessionsForDevice c deviceId => exact changes_revokeSessionsForDevice c deviceId
  | sessionForToken c token => exact changes_sessionForToken c token
  | registerDataSubscription c sessionId identity start =>
    exact changes_registerDataSubscription c sessionId identity start
  | beginDataSubscriptionRefresh c sessionId subscriptionId =>
    exact changes_beginDataSubscriptionRefresh c sessionId subscriptionId
  | completeDataSubscriptionRefresh c sessionId subscriptionId refresh =>
    exact changes_completeDataSubscriptionRefresh c sessionId subscriptionId refresh
  | removeDataSubscription c sessionId subscriptionId =>
    exact changes_removeDataSubscription c sessionId subscriptionId
  | reopen => exact absurd rfl hnext

end

/-! ### What holds of every record -/

/-- All records, in memory and in the file. -/
def OnRecords (G : AppSessionRecord → Prop) (store : AppSessionStore) : Prop :=
  (∀ record ∈ store.state.records, G record) ∧ ∀ record ∈ store.file.records, G record

/-- **A property of records that holds along every run.** The changes that are not an approval leave
the requested and the granted capabilities as they are. -/
structure RecordInvariant (P : Primitives) (G : AppSessionRecord → Prop) : Prop where
  created : ∀ record : AppSessionRecord, record.grantedCapabilities = [] → G record
  approved : ∀ c (record : AppSessionRecord) identity localDeviceId capabilities expiresAt,
    (∀ capability ∈ capabilities, isGrantableAppCapability P capability = true ∧
      capabilityWasRequested P capability record.requestedCapabilities = true) →
    G (record.approve P c identity localDeviceId capabilities expiresAt)
  same : ∀ record record' : AppSessionRecord, record'.requestedCapabilities =
    record.requestedCapabilities →
    record'.grantedCapabilities = record.grantedCapabilities → G record → G record'

section

variable {P : Primitives} {limits : StoreLimits} {G : AppSessionRecord → Prop}

theorem mem_updateFirst_forall {fits : AppSessionRecord → Bool}
    {change : AppSessionRecord → AppSessionRecord} {records : List AppSessionRecord}
    (h : ∀ record ∈ records, G record)
    (hchange : ∀ record, records.find? fits = some record → G record → G (change record)) :
    ∀ record ∈ updateFirst fits change records, G record := by
  intro record hrecord
  rcases mem_updateFirst hrecord with hmem | ⟨old, hfind, rfl⟩
  · exact h record hmem
  · exact hchange old hfind (h old (mem_of_find?_eq_some hfind))

theorem RecordInvariant.change (hG : RecordInvariant P G) {next : StoreStep}
    {s s' : SavedSessionState} (hchange : Change P next s s') (h : ∀ record ∈ s.records, G record) :
    ∀ record ∈ s'.records, G record := by
  cases hchange with
  | same => exact h
  | created record hgranted =>
    intro record' hmem
    rcases mem_append.mp hmem with hmem | hmem
    · exact h record' hmem
    · rw [mem_singleton.mp hmem]
      exact hG.created record hgranted
  | approved c requestId identity localDeviceId capabilities expiresAt record hfind
    hpending hgrants =>
    -- the checks of the approval are made on the record that it changes
    refine mem_updateFirst_forall h fun found hfound _ => ?_
    obtain rfl : record = found := Option.some.inj (hfind.symm.trans hfound)
    exact hG.approved c record identity localDeviceId capabilities expiresAt hgrants
  | rejected => exact mem_updateFirst_forall h fun record _ => hG.same record _ rfl rfl
  | used => exact mem_updateFirst_forall h fun record _ => hG.same record _ rfl rfl
  | ended fits hends =>
    refine mem_updateFirst_forall h fun record _ => hG.same record _ ?_ ?_
    · cases hends <;> rfl
    · cases hends <;> rfl
  | endedOn c deviceId =>
    intro record' hmem
    obtain ⟨record, hrecord, rfl⟩ := mem_map.mp hmem
    split_ifs
    · exact hG.same record _ rfl rfl (h record hrecord)
    · exact h record hrecord
  | subscribed => exact h

theorem RecordInvariant.step (hG : RecordInvariant P G) {store : AppSessionStore}
    (hstore : OnRecords G store) (next : StoreStep) : OnRecords G (step P limits store next) := by
  by_cases hnext : next = .reopen
  · subst hnext
    rcases reopen_cases store with hreopen | hreopen <;> rw [SessionRuns.step, hreopen]
    · exact ⟨hstore.2, hstore.2⟩
    · exact hstore
  · obtain ⟨hmemory, hfile, -⟩ := changes_step (P := P) store hnext
    have hchanged := hG.change hmemory hstore.1
    refine ⟨hchanged, ?_⟩
    rcases hfile with hfile | hfile <;> rw [hfile]
    · exact hstore.2
    · exact hchanged

/-- **An invariant of records holds along every run.** -/
theorem RecordInvariant.run (hG : RecordInvariant P G) (limits : StoreLimits)
    (steps : List StoreStep) :
    OnRecords G (run P limits steps) := by
  unfold SessionRuns.run
  have hempty : OnRecords G (.open ⟨[], []⟩) :=
    ⟨fun _ hmem => (not_mem_nil hmem).elim, fun _ hmem => (not_mem_nil hmem).elim⟩
  generalize AppSessionStore.open ⟨[], []⟩ = store at hempty ⊢
  induction steps generalizing store with
  | nil => exact hempty
  | cons next steps ih => exact ih _ (hG.step hempty next)

end

end Jolt.Server.SessionRuns

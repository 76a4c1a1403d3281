import Jolt.Server.ReadScopes
import Jolt.Server.SessionLifecycle

/-! # The sessions of data subscriptions

`create_data_subscription` of `app_api.rs` takes the lock of the session store twice: first it
authenticates the session, and then, in a call of its own, it registers the subscription. What ends
a session drops the subscriptions of the session, but a request that was authenticated before
registers its subscription afterwards, without looking at the session again. As long as each
registration finds its session still active, every subscription in the store belongs to an active
session (`live_run`); without that, the subscription of a revoked session stays and counts against
the capacity that all sessions share (`revoked_session_keeps_subscription`). -/

namespace Jolt.Server.LiveSubscriptions

open Lib Checks Calls Call FirstMatch Lib.Runs Jolt.Core Jolt.Core.Types Sessions SessionRuns AppApi
  Recipients RecordReads List

/-! ### Requests and the store -/

structure Registration where
  sessionId : String
  identity : String
  start : String
deriving DecidableEq

/-- The store, and the requests that are authenticated and have not registered their subscription
yet. -/
structure Service where
  store : AppSessionStore
  creating : List Registration

def Service.init : Service := ⟨.open ⟨[], []⟩, []⟩

def registers : StoreStep → Bool
  | .registerDataSubscription .. => true
  | _ => false

inductive Event where
  /-- `create_data_subscription` up to the registration. -/
  | create (c : Circumstances) (authorization : Option (Option String))
      (identity pathStart : String)
  /-- A request goes on and registers its subscription. -/
  | register (c : Circumstances) (request : Registration)
  /-- Any other call of the store, or a restart, in which the requests are lost. -/
  | call (next : StoreStep) (h : registers next = false)

section

variable (P : Primitives) (readers : Readers) (limits : StoreLimits)

/-- What `create_data_subscription` does before it registers the subscription. -/
def authorizeCreation (c : Circumstances) (authorization : Option (Option String))
    (identity pathStart : String) : Call AppSessionStore AppApiError Registration := do
  let session ← authenticatedSession P c authorization
  let identity ← check (recipientIdentity P readers identity)
  let start ← check (normalizePath pathStart)
  check (requireDataSubscriptionCapability P session identity start)
  let sessionId ← check (okOr session.sessionId (.forbidden "app session has no active session id"))
  return ⟨sessionId, s!"{P.identityToString identity}.jolt", start⟩

def serve (s : Service) : Event → Service
  | .create c authorization identity pathStart =>
    match authorizeCreation P readers c authorization identity pathStart s.store with
    | (.ok request, store) => ⟨store, request :: s.creating⟩
    | (.error _, store) => ⟨store, s.creating⟩
  | .register c request =>
    if request ∈ s.creating then
      ⟨(registerDataSubscription c limits request.sessionId request.identity
        request.start s.store).2,
        s.creating.erase request⟩
    else s
  | .call .reopen _ => ⟨step P limits s.store .reopen, []⟩
  | .call next _ => { s with store := step P limits s.store next }

def serveAll (events : List Event) : Service := events.foldl (serve P readers limits) .init

end

/-! ### Active sessions -/

def IsActive (records : List AppSessionRecord) (sessionId : String) : Prop :=
  ∃ record ∈ records, record.sessionId = some sessionId ∧ record.status = .active

instance (records : List AppSessionRecord) (sessionId : String) :
    Decidable (IsActive records sessionId) :=
  inferInstanceAs (Decidable (∃ record ∈ records, _))

def Live (records : List AppSessionRecord) (subscriptions : List DataSubscriptionRecord) : Prop :=
  ∀ subscription ∈ subscriptions, IsActive records subscription.sessionId

instance (records : List AppSessionRecord) (subscriptions : List DataSubscriptionRecord) :
    Decidable (Live records subscriptions) :=
  inferInstanceAs (Decidable (∀ subscription ∈ subscriptions, _))

structure LiveStore (store : AppSessionStore) : Prop where
  inMemory : Live store.state.records store.state.dataSubscriptions
  inFile : Live store.file.records store.file.dataSubscriptions

/-- The registration finds the session of its request still active. -/
def FindsActive (s : Service) : Event → Prop
  | .register _ request => request ∈ s.creating → IsActive s.store.state.records request.sessionId
  | _ => True

instance (s : Service) : ∀ event, Decidable (FindsActive s event)
  | .register _ request =>
    inferInstanceAs
      (Decidable (request ∈ s.creating → IsActive s.store.state.records request.sessionId))
  | .create .. | .call .. => inferInstanceAs (Decidable True)

section

variable {records : List AppSessionRecord}
  {subscriptions subscriptions' : List DataSubscriptionRecord}

theorem Live.subset (h : Live records subscriptions) (hsub : subscriptions' ⊆ subscriptions) :
    Live records subscriptions' :=
  fun subscription hmem => h subscription (hsub hmem)

section

variable (h : Live records subscriptions) {fits : AppSessionRecord → Bool}
  {change : AppSessionRecord → AppSessionRecord}
include h

theorem Live.updateFirst (hchange : ∀ record, records.find? fits = some record →
    record.status = .active →
      (change record).sessionId = record.sessionId ∧ (change record).status = .active ∨
        ∀ subscription ∈ subscriptions, record.sessionId ≠ some subscription.sessionId) :
    Live (updateFirst fits change records) subscriptions := by
  intro subscription hmem
  obtain ⟨record, hrecord, hid, hactive⟩ := h subscription hmem
  rcases mem_or_mem_updateFirst hrecord with hstays | ⟨hfind, hchanged⟩
  · exact ⟨record, hstays, hid, hactive⟩
  · rcases hchange record hfind hactive with ⟨hid', hactive'⟩ | hother
    · exact ⟨change record, hchanged, hid'.trans hid, hactive'⟩
    · exact absurd hid (hother subscription hmem)

theorem Live.updatePending {record : AppSessionRecord}
    (hfind : records.find? fits = some record) (hpending : record.status = .pending) :
    Live (FirstMatch.updateFirst fits change records) subscriptions := by
  refine h.updateFirst fun found hfound hactive => ?_
  obtain rfl : record = found := Option.some.inj (hfind.symm.trans hfound)
  rw [hpending] at hactive
  cases hactive

end

/-- What one step does, if the session of a registration is active. -/
theorem Live.change {P : Primitives} {next : StoreStep} {s s' : SavedSessionState}
    (h : Live s.records s.dataSubscriptions) (hchange : Change P next s s')
    (hregisters : ∀ c sessionId identity start,
      next = .registerDataSubscription c sessionId identity start → IsActive s.records sessionId) :
    Live s'.records s'.dataSubscriptions := by
  cases hchange with
  | same => exact h
  | created record =>
    intro subscription hmem
    obtain ⟨found, hfound, hactive⟩ := h subscription hmem
    exact ⟨found, mem_append_left _ hfound, hactive⟩
  | approved c requestId identity localDeviceId capabilities expiresAt record hfind hpending =>
    exact h.updatePending hfind hpending
  | rejected c requestId record hfind hpending => exact h.updatePending hfind hpending
  | used fits now => exact h.updateFirst fun record _ hactive => .inl ⟨rfl, hactive⟩
  | ended fits hends record hfind hkept =>
    refine Live.updateFirst (h.subset fun subscription hmem => (hkept subscription hmem).1)
      fun found hfound _ => .inr fun subscription hmem => ?_
    obtain rfl : record = found := Option.some.inj (hfind.symm.trans hfound)
    exact (hkept subscription hmem).2
  | endedOn c deviceId hkept =>
    intro subscription hmem
    obtain ⟨hmem, hother⟩ := hkept subscription hmem
    obtain ⟨record, hrecord, hid, hactive⟩ := h subscription hmem
    exact ⟨record, mem_map.mpr ⟨record, hrecord, if_neg fun hon => hother record hrecord hon hid⟩,
      hid, hactive⟩
  | subscribed hfrom =>
    intro subscription hmem
    rcases hfrom subscription hmem with ⟨old, hold, hid⟩ | ⟨c, identity, start, hnext⟩
    · exact hid ▸ h old hold
    · exact hregisters c _ identity start hnext

end

theorem LiveStore.step {P : Primitives} {limits : StoreLimits} {store : AppSessionStore}
    (h : LiveStore store)
    {next : StoreStep} (hregisters : ∀ c sessionId identity start,
      next = .registerDataSubscription c sessionId identity start →
        IsActive store.state.records sessionId) :
    LiveStore (step P limits store next) := by
  by_cases hnext : next = .reopen
  · subst hnext
    rcases reopen_cases store with hreopen | hreopen <;> rw [SessionRuns.step, hreopen]
    · exact ⟨h.inFile, h.inFile⟩
    · exact h
  · have hchanges : Changes P next store (SessionRuns.step P limits store next) :=
      changes_step store hnext
    have hchanged := h.inMemory.change hchanges.memory hregisters
    refine ⟨hchanged, ?_⟩
    rcases hchanges.file with hfile | hfile <;> rw [hfile]
    · exact h.inFile
    · exact hchanged

section

variable {P : Primitives} {limits : StoreLimits} {readers : Readers}

/-! ### Runs -/

variable (P readers) in
theorem LiveStore.authorizeCreation {store : AppSessionStore} (h : LiveStore store)
    (c : Circumstances) (authorization : Option (Option String)) (identity pathStart : String) :
    LiveStore (authorizeCreation P readers c authorization identity pathStart store).2 := by
  have hkeeps : Keeps (fun store store' => LiveStore store → LiveStore store')
      (LiveSubscriptions.authorizeCreation P readers c authorization identity pathStart) := by
    have hcheck : ∀ {α : Type} (x : Except AppApiError α),
        Keeps (fun store store' => LiveStore store → LiveStore store') (check x) :=
      fun x => keeps_check (fun _ h => h) x
    have htrans : ∀ {s t u : AppSessionStore}, (LiveStore s → LiveStore t) →
        (LiveStore t → LiveStore u) → LiveStore s → LiveStore u := fun h h' hs => h' (h hs)
    refine Keeps.bind htrans (Keeps.bind htrans (hcheck _) fun token => ?_) fun session =>
      Keeps.bind htrans (hcheck _) fun _ => Keeps.bind htrans (hcheck _) fun _ =>
        Keeps.bind htrans (hcheck _) fun _ => Keeps.bind htrans (hcheck _) fun _ =>
          keeps_pure (fun _ h => h) _
    intro store h
    have hstep : LiveStore (SessionRuns.step P ⟨0, 0⟩ store (.sessionForToken c token)) :=
      h.step fun _ _ _ _ => nofun
    exact hstep
  exact hkeeps store h

theorem LiveStore.serve {s : Service} (h : LiveStore s.store) {event : Event}
    (hevent : FindsActive s event) : LiveStore (serve P readers limits s event).store := by
  cases event with
  | create c authorization identity pathStart =>
    have hkept := h.authorizeCreation P readers c authorization identity pathStart
    unfold LiveSubscriptions.serve
    dsimp only
    split <;> simp_all
  | register c request =>
    unfold LiveSubscriptions.serve
    dsimp only
    split_ifs with hmem
    · have hstep : LiveStore (SessionRuns.step P limits s.store
          (.registerDataSubscription c request.sessionId request.identity request.start)) := by
        refine h.step ?_
        rintro _ _ _ _ ⟨⟩
        exact hevent hmem
      exact hstep
    · exact h
  | call next hnext =>
    have hstep : LiveStore (SessionRuns.step P limits s.store next) := h.step fun _ _ _ _ heq => by
      rw [heq] at hnext
      cases hnext
    cases next <;> exact hstep

end

/-- **Every subscription belongs to an active session**, in memory and in the file, in every
interleaving of requests, revocations and expiries in which each registration finds the session of
its request still active. -/
theorem live_run (P : Primitives) (readers : Readers) (limits : StoreLimits) (events : List Event)
    (h : Along (serve P readers limits) FindsActive .init events) :
    LiveStore (serveAll P readers limits events).store :=
  Along.invariant (I := fun s => LiveStore s.store) (fun _ _ hs hevent => hs.serve hevent) h
    ⟨fun _ hmem => absurd hmem not_mem_nil, fun _ hmem => absurd hmem not_mem_nil⟩

/-- A session that may subscribe to everything is requested and approved, and a request of it is
authenticated; `between` happens before the request registers its subscription. -/
def interleaved (between : List Event) : List Event :=
  let c : Circumstances := ⟨7, 0, "id", "token", .ok ()⟩
  [.call (.createRequest c ⟨"notes", "Notes", none, some "owner.jolt", ["subscribe:any:/notes/*"]⟩)
    rfl,
    .call (.approveRequest c "id" ⟨none, [], none⟩ "laptop") rfl,
    .create c (some (some "Bearer token"))
      (Sample.primitives.identityToString Sample.owner) "/notes/"] ++
  between ++
  [.register c ⟨"id", s!"{Sample.primitives.identityToString Sample.owner}.jolt", "/notes/"⟩]

def revokesSession : Event := .call (.revokeSession ⟨7, 0, "id", "token", .ok ()⟩ "id") rfl

/-- The subscription is registered, and ends with its session. -/
theorem subscription_of_active_session :
    (serveAll Sample.primitives ReadScopes.noReaders ⟨1, 30⟩
      (interleaved [])).store.state.dataSubscriptions.length = 1 ∧
    (serveAll Sample.primitives ReadScopes.noReaders ⟨1, 30⟩
      (interleaved [] ++ [revokesSession])).store.state.dataSubscriptions = [] ∧
    LiveStore (serveAll Sample.primitives ReadScopes.noReaders ⟨1, 30⟩
      (interleaved [] ++ [revokesSession])).store :=
  ⟨by decide +kernel, by decide +kernel, live_run _ _ _ _ (by decide +kernel)⟩

/-- The session is revoked between the authentication and the registration. -/
theorem revoked_session_keeps_subscription :
    ∃ events, ¬ LiveStore
      (serveAll Sample.primitives ReadScopes.noReaders ⟨1, 30⟩ events).store := by
  refine ⟨interleaved [revokesSession], fun h => ?_⟩
  have hlive := h.inMemory
  revert hlive
  decide +kernel

end Jolt.Server.LiveSubscriptions

import Jolt.Core.Sample
import Jolt.Lib.Runs
import Jolt.Server.SessionRuns

/-! # The life of a session

A request is pending until it is approved or rejected, and a session is active from then on until it
is revoked or expires. Every call moves the records on in this order (`StoreAdvances`), in memory; a
call that saves also brings the file up to there. When the daemon starts again, it goes on with what
the file has, so the end of a session whose write is refused is forgotten (`revocation_forgotten`).
The order holds in the runs in which the writes of calls that end a session are not refused
(`session_lifecycle`).

The tokens that were issued stand in memory only, for the app to fetch them by `request_status`. -/

namespace Jolt.Server.SessionLifecycle

open Lib Checks Calls.Call FirstMatch Lib.Runs Jolt.Core Jolt.Core.Types Sessions SessionRuns List

variable {record : AppSessionRecord} (records : List AppSessionRecord)

/-! ### Records that move on -/

def ended : AppSessionStatus → Bool
  | .pending | .active => false
  | .rejected | .revoked | .expired => true

def requestAt (requestId : String) : Option AppSessionRecord := records.find?
    (·.requestId = requestId)

/-- `record'` comes later in the life of the same request. -/
structure Moves (record record' : AppSessionRecord) : Prop where
  requestId_eq : record'.requestId = record.requestId
  ended_of_ended : ended record.status = true → ended record'.status = true
  settled : record.status ≠ .pending →
    record'.status ≠ .pending ∧ record'.tokenHash = record.tokenHash ∧
      record'.sessionId = record.sessionId

theorem Moves.refl (record : AppSessionRecord) :
    Moves record record := ⟨rfl, id, fun h => ⟨h, rfl, rfl⟩⟩

/-- Every request is still there, and may have moved on. -/
def Advances (records' : List AppSessionRecord) : Prop :=
  ∀ requestId record, requestAt records requestId = some record →
    ∃ record', requestAt records' requestId = some record' ∧ Moves record record'

theorem Advances.refl (records : List AppSessionRecord) : Advances records records :=
  fun _ record h => ⟨record, h, Moves.refl record⟩

theorem advances_append (added : List AppSessionRecord) : Advances records (records ++ added) := by
  intro requestId record hrecord
  refine ⟨record, ?_, Moves.refl record⟩
  rw [requestAt, find?_append, ← requestAt, hrecord]
  rfl

theorem requestAt_cons_of_ne {requestId : String} (h : record.requestId ≠ requestId)
    (records : List AppSessionRecord) :
    requestAt (record :: records) requestId = requestAt records requestId :=
  find?_cons_of_neg (by simpa using h)

theorem requestAt_cons_of_eq {requestId : String} (h : record.requestId = requestId)
    (records : List AppSessionRecord) : requestAt (record :: records) requestId = some record :=
  find?_cons_of_pos (by simpa using h)

theorem Advances.cons {record' : AppSessionRecord} {records records' : List AppSessionRecord}
    (hhead : Moves record record') (htail : Advances records records') :
    Advances (record :: records) (record' :: records') := by
  intro requestId found hfound
  by_cases hid : record.requestId = requestId
  · rw [requestAt_cons_of_eq hid] at hfound
    cases hfound
    exact ⟨record', requestAt_cons_of_eq (hhead.requestId_eq.trans hid) _, hhead⟩
  · rw [requestAt_cons_of_ne hid] at hfound
    obtain ⟨found', hfound', hmoves⟩ := htail requestId found hfound
    have hid' : record'.requestId ≠ requestId := by rwa [hhead.requestId_eq]
    exact ⟨found', by rwa [requestAt_cons_of_ne hid'], hmoves⟩

theorem advances_updateFirst {fits : AppSessionRecord → Bool}
    {change : AppSessionRecord → AppSessionRecord} {records : List AppSessionRecord}
    (h : ∀ record, records.find? fits = some record → Moves record (change record)) :
    Advances records (updateFirst fits change records) := by
  induction records with
  | nil => exact Advances.refl _
  | cons record records ih =>
    unfold updateFirst
    split_ifs with hfits
    · exact (Advances.refl records).cons (h record (find?_cons_of_pos hfits))
    · refine Advances.cons (Moves.refl record) (ih fun found hfound => h found ?_)
      rwa [find?_cons_of_neg hfits]

theorem advances_map {change : AppSessionRecord → AppSessionRecord}
    (h : ∀ record, Moves record (change record)) (records : List AppSessionRecord) :
    Advances records (records.map change) := by
  induction records with
  | nil => exact Advances.refl _
  | cons record records ih => exact Advances.cons (h record) ih

/-! ### Calls move the records on -/

/-- The records in memory have moved on, and those in the file have stayed or come to where those in
memory were or are. -/
structure StoreAdvances (store store' : AppSessionStore) : Prop where
  memory : Advances store.state.records store'.state.records
  file : store'.file.records = store.file.records ∨ Advances store.state.records store'.file.records

section

variable {P : Primitives} {limits : StoreLimits}

theorem moves_of_ended {record record' : AppSessionRecord}
    (hid : record'.requestId = record.requestId) (hstatus : ended record'.status = true)
    (htoken : record'.tokenHash = record.tokenHash)
    (hsession : record'.sessionId = record.sessionId) : Moves record record' := by
  refine ⟨hid, fun _ => hstatus, fun _ => ⟨fun hpending => ?_, htoken, hsession⟩⟩
  rw [hpending] at hstatus
  cases hstatus

theorem moves_approve {record : AppSessionRecord} (hpending : record.status = .pending)
    (c : Circumstances) (identity localDeviceId : String) (capabilities : List String)
    (expiresAt : Option UInt64) :
    Moves record (record.approve P c identity localDeviceId capabilities expiresAt) where
  requestId_eq := rfl
  ended_of_ended := fun h => by rw [hpending] at h; cases h
  settled := fun h => absurd hpending h

/-- What an approval does before it saves: nothing, or the record that it finds pending is
approved. -/
theorem approveRequest_cases (c : Circumstances) (requestId : String)
    (approval : ApproveAppSessionRequest) (localDeviceId : String) (store : AppSessionStore) :
    (∃ e, approveRequest P c requestId approval localDeviceId store = (.error e, store)) ∨
    ∃ record identity capabilities, requestAt store.state.records requestId = some record ∧
      record.status = .pending ∧
      ∃ response : ApproveAppSessionResponse, response.sessionToken = c.newToken ∧
        approveRequest P c requestId approval localDeviceId store = (do
            modifyRecord (·.requestId = requestId)
              (·.approve P c identity localDeviceId capabilities approval.expiresAt)
            saveState c
            return response : StoreCall ApproveAppSessionResponse) store := by
  unfold approveRequest
  simp only [state, read_bind]
  cases hrecord : store.state.pendingRequest requestId with
  | error e => exact .inl ⟨e, rfl⟩
  | ok record =>
    obtain ⟨hfind, hpending⟩ := pendingRequest_eq_ok.mp hrecord
    rw [check_ok_bind]
    cases hidentity : okOr (approval.identity <|> record.requestedIdentity)
      AppSessionStoreError.missingIdentity with
    | error e => exact .inl ⟨e, rfl⟩
    | ok identity =>
      rw [check_ok_bind]
      generalize (if approval.capabilities = [] then record.requestedCapabilities
        else approval.capabilities) = capabilities
      cases hgrants : capabilities.forM (ensureGrantable P record.requestedCapabilities) with
      | error e => exact .inl ⟨e, rfl⟩
      | ok _ => exact .inr ⟨record, identity, capabilities, hfind, hpending, _, rfl, rfl⟩

theorem Advances.change {next : StoreStep} {s s' : SavedSessionState} (h : Change P next s s') :
    Advances s.records s'.records := by
  cases h with
  | same => exact .refl _
  | created record => exact advances_append _ _
  | approved c requestId identity localDeviceId capabilities expiresAt record hfind hpending =>
    refine advances_updateFirst fun found hfound => ?_
    obtain rfl : record = found := Option.some.inj (hfind.symm.trans hfound)
    exact moves_approve hpending c identity localDeviceId capabilities expiresAt
  | rejected => exact advances_updateFirst fun _ _ => moves_of_ended rfl rfl rfl rfl
  | used => exact advances_updateFirst fun _ _ => ⟨rfl, id, fun h => ⟨h, rfl, rfl⟩⟩
  | ended fits hends =>
    refine advances_updateFirst fun _ _ => ?_
    cases hends <;> exact moves_of_ended rfl rfl rfl rfl
  | endedOn c deviceId =>
    refine advances_map (fun record => ?_) _
    split_ifs
    · exact moves_of_ended rfl rfl rfl rfl
    · exact Moves.refl record
  | subscribed => exact .refl _

variable (P limits) in
/-- **Every step but a restart moves the records on.** -/
theorem storeAdvances_step (store : AppSessionStore) {next : StoreStep} (hnext : next ≠ .reopen) :
    StoreAdvances store (step P limits store next) := by
  have hchanges : Changes P next store (step P limits store next) := changes_step store hnext
  obtain ⟨hmemory, hfile, -⟩ := hchanges
  refine ⟨.change hmemory, hfile.imp (fun hfile => by rw [hfile]) fun hfile => ?_⟩
  rw [hfile]
  exact .change hmemory

end

/-! ### Issued tokens -/

/-- The store with the tokens that the process has issued, by request. -/
structure SessionService where
  store : AppSessionStore
  issuedTokens : String → Option String

structure AppSessionStatusResponse where
  requestId : String
  sessionId : Option String
  sessionToken : Option String
  status : AppSessionStatus
  identity : Option String
  capabilities : List String
  expiresAt : Option UInt64

def requestStatus (service : SessionService) (requestId : String) :
    Except AppSessionStoreError AppSessionStatusResponse := do
  let record ← okOr (requestAt service.store.state.records requestId) (.requestNotFound requestId)
  return { requestId := record.requestId
           sessionId := record.sessionId
           sessionToken :=
             if record.status = .active then service.issuedTokens requestId else none
           status := record.status
           identity := record.identity
           capabilities := record.grantedCapabilities
           expiresAt := record.expiresAt }

section

variable (P : Primitives) (limits : StoreLimits)

/-- A token is kept when its approval has been saved, and forgotten when the process ends. -/
def issuedAfter (service : SessionService) : StoreStep → String → Option String
  | .approveRequest c requestId approval localDeviceId =>
    match (Sessions.approveRequest P c requestId approval localDeviceId service.store).1 with
    | .ok response => Function.update service.issuedTokens requestId (some response.sessionToken)
    | .error _ => service.issuedTokens
  | .reopen => fun _ => none
  | _ => service.issuedTokens

def serve (service : SessionService) (next : StoreStep) : SessionService :=
  ⟨step P limits service.store next, issuedAfter P service next⟩

def SessionService.init : SessionService := ⟨.open ⟨[], []⟩, fun _ => none⟩

def serveAll (steps : List StoreStep) : SessionService := steps.foldl (serve P limits) .init

end

/-! ### Ended for good -/

/-- The request has been rejected, or its session has ended. -/
def EndedAt (requestId : String) (records : List AppSessionRecord) : Prop :=
  ∃ record, requestAt records requestId = some record ∧ ended record.status = true

def SettledAt (requestId : String) (records : List AppSessionRecord) : Prop :=
  ∃ record, requestAt records requestId = some record ∧ record.status ≠ .pending

/-- If the step ends a request or a session, its write does not fail before it opens the file. -/
def WritesEnds (P : Primitives) (limits : StoreLimits) (service : SessionService)
    (next : StoreStep) : Prop :=
  ∀ requestId, ¬ EndedAt requestId service.store.state.records →
    EndedAt requestId (step P limits service.store next).state.records →
    ∀ failure, saved next = .error failure → failure.truncated = true

/-- What has ended in memory has ended in the file, if that can be read. -/
def EndsInFile (service : SessionService) : Prop :=
  service.store.readable = true → ∀ requestId, EndedAt requestId service.store.state.records →
    EndedAt requestId service.store.file.records

section

variable {records records' : List AppSessionRecord} (h : Advances records records')
  {requestId : String}
include h

theorem Advances.endedAt (hended : EndedAt requestId records) : EndedAt requestId records' := by
  obtain ⟨record, hrecord, hstatus⟩ := hended
  obtain ⟨record', hrecord', hmoves⟩ := h requestId record hrecord
  exact ⟨record', hrecord', hmoves.ended_of_ended hstatus⟩

theorem Advances.settledAt (hsettled : SettledAt requestId records) :
    SettledAt requestId records' := by
  obtain ⟨record, hrecord, hstatus⟩ := hsettled
  obtain ⟨record', hrecord', hmoves⟩ := h requestId record hrecord
  exact ⟨record', hrecord', (hmoves.settled hstatus).1⟩

end

section

variable {P : Primitives} {limits : StoreLimits} {service : SessionService} {next : StoreStep}
  {requestId : String} {c : Circumstances} {approval : ApproveAppSessionRequest}
  {localDeviceId : String} {store : AppSessionStore}

theorem endsInFile_serve (h : EndsInFile service) (hnext : WritesEnds P limits service next) :
    EndsInFile (serve P limits service next) := by
  by_cases hreopen : next = .reopen
  · subst hreopen
    unfold serve
    rcases reopen_cases service.store with hstore | hstore <;> rw [step, hstore]
    · exact fun _ _ => id
    · exact h
  · intro hreadable requestId hended
    rcases (changes_step (P := P) service.store hreopen).written hreadable with
      hfile | ⟨hbefore, hfile, hunsaved⟩
    · exact hfile ▸ hended
    · -- the file is the one from before, so the request has not ended in this step
      refine hfile ▸ h hbefore requestId ?_
      by_contra hnew
      rcases hunsaved with hsame | ⟨failure, hfailure, hrefused⟩
      · have hrecords : (step P limits service.store next).state.records =
            service.store.state.records := congrArg SavedSessionState.records hsame
        exact hnew (hrecords ▸ hended)
      · rw [hnext requestId hnew hended failure hfailure] at hrefused
        cases hrefused

theorem endedAt_serve (hfile : EndsInFile service)
    (hended : EndedAt requestId service.store.state.records) :
    EndedAt requestId (serve P limits service next).store.state.records := by
  by_cases hreopen : next = .reopen
  · subst hreopen
    unfold serve step AppSessionStore.reopen
    dsimp only
    split_ifs with hreadable
    · exact hfile hreadable requestId hended
    · exact hended
  · exact (storeAdvances_step P limits service.store hreopen).memory.endedAt hended

theorem settledAt_serve (h : SettledAt requestId service.store.state.records ∧
      SettledAt requestId service.store.file.records) :
    SettledAt requestId (serve P limits service next).store.state.records ∧
      SettledAt requestId (serve P limits service next).store.file.records := by
  by_cases hreopen : next = .reopen
  · subst hreopen
    unfold serve
    rcases reopen_cases service.store with hstore | hstore <;> rw [step, hstore]
    · exact ⟨h.2, h.2⟩
    · exact h
  · have hadvances := storeAdvances_step P limits service.store hreopen
    refine ⟨hadvances.memory.settledAt h.1, ?_⟩
    rcases hadvances.file with hfile | hfile
    · unfold serve
      rw [hfile]
      exact h.2
    · exact hfile.settledAt h.1

theorem requestStatus_of_endedAt (h : EndedAt requestId service.store.state.records) :
    ∃ response, requestStatus service requestId = .ok response ∧ ended response.status = true ∧
      response.sessionToken = none := by
  obtain ⟨record, hrecord, hended⟩ := h
  refine ⟨_, by rw [requestStatus, hrecord]; rfl, hended, if_neg fun hactive => ?_⟩
  rw [hactive] at hended
  cases hended

/-! ### Approvals -/

/-- **What a successful approval did.** -/
theorem approveRequest_eq_ok {store' : AppSessionStore} {response : ApproveAppSessionResponse}
    (h : approveRequest P c requestId approval localDeviceId store = (.ok response, store')) :
    (∃ record, requestAt store.state.records requestId = some record ∧ record.status = .pending) ∧
    response.sessionToken = c.newToken ∧
    (∃ record, requestAt store'.state.records requestId = some record ∧ record.status = .active ∧
      record.tokenHash = some (hashToken P c.newToken)) ∧
    store'.file.records = store'.state.records := by
  obtain ⟨e, he⟩ | ⟨record, identity, capabilities, hfind, hpending, response', htoken, heq⟩ :=
    approveRequest_cases (P := P) c requestId approval localDeviceId store
  · rw [he] at h
    cases h
  · rw [heq] at h
    simp only [modifyRecord, modifyState, write_bind, run_bind_eq_ok, saveState_eq_ok, pure_apply,
      Prod.mk.injEq, Except.ok.injEq] at h
    obtain ⟨_, _, ⟨-, rfl⟩, rfl, rfl⟩ := h
    refine ⟨⟨record, hfind, hpending⟩, htoken,
      ⟨record.approve P c identity localDeviceId capabilities approval.expiresAt, ?_,
        rfl, rfl⟩, rfl⟩
    have hid : record.requestId = requestId := by simpa using find?_some hfind
    refine find?_updateFirst_self ?_ hfind
    exact decide_eq_true hid

theorem settledAt_of_approve_ok
    (h : (approveRequest P c requestId approval localDeviceId store).1.isOk = true) :
    let store' := (approveRequest P c requestId approval localDeviceId store).2
    SettledAt requestId store'.state.records ∧ SettledAt requestId store'.file.records := by
  obtain ⟨response, store', heq⟩ := exists_of_isOk h
  obtain ⟨-, -, ⟨record, hrecord, hactive, -⟩, hfile⟩ := approveRequest_eq_ok heq
  rw [heq]
  have hsettled : SettledAt requestId store'.state.records := ⟨record, hrecord, by simp [hactive]⟩
  exact ⟨hsettled, by rwa [hfile]⟩

theorem approve_error_of_settledAt (h : SettledAt requestId store.state.records) :
    (approveRequest P c requestId approval localDeviceId store).1.isOk = false := by
  by_contra hok
  obtain ⟨response, store', heq⟩ := exists_of_isOk (by simpa using hok)
  obtain ⟨⟨record, hrecord, hpending⟩, -⟩ := approveRequest_eq_ok heq
  obtain ⟨record', hrecord', hsettled⟩ := h
  rw [hrecord] at hrecord'
  cases hrecord'
  exact hsettled hpending

/-! ### Issued tokens are of the request's session -/

/-- An issued token is the one of the session that was made for the request. -/
def IssuedFor (P : Primitives) (service : SessionService) : Prop :=
  ∀ requestId token, service.issuedTokens requestId = some token →
    ∃ record, requestAt service.store.state.records requestId = some record ∧
      record.status ≠ .pending ∧ record.tokenHash = some (hashToken P token)

theorem IssuedFor.advance (h : IssuedFor P service) (hstore : StoreAdvances service.store store) :
    IssuedFor P ⟨store, service.issuedTokens⟩ := by
  intro requestId token htoken
  obtain ⟨record, hrecord, hstatus, hhash⟩ := h requestId token htoken
  obtain ⟨record', hrecord', hmoves⟩ := hstore.memory requestId record hrecord
  obtain ⟨hstatus', hhash', -⟩ := hmoves.settled hstatus
  exact ⟨record', hrecord', hstatus', hhash'.trans hhash⟩

theorem IssuedFor.serve (h : IssuedFor P service) (next : StoreStep) :
    IssuedFor P (serve P limits service next) := by
  have hsame (hnext : next ≠ .reopen) (hissued : issuedAfter P service next =
    service.issuedTokens) :
      IssuedFor P (SessionLifecycle.serve P limits service next) := by
    have hadvanced := h.advance (storeAdvances_step P limits service.store hnext)
    unfold SessionLifecycle.serve
    rwa [hissued]
  cases next with
  | reopen => exact fun _ _ htoken => by (cases htoken)
  | approveRequest c requestId approval localDeviceId =>
    cases hresult : (approveRequest P c requestId approval localDeviceId service.store).1 with
    | error e =>
      refine hsame (by simp) ?_
      simp only [issuedAfter, hresult]
    | ok response =>
      have hnext : StoreStep.approveRequest c requestId approval localDeviceId ≠ .reopen := by simp
      have hadvanced := h.advance (storeAdvances_step P limits service.store hnext)
      obtain ⟨-, htoken, ⟨record, hrecord, hactive, hhash⟩, -⟩ :=
        approveRequest_eq_ok (Prod.ext hresult rfl)
      intro requestId' token htoken'
      simp only [SessionLifecycle.serve, issuedAfter, hresult] at htoken' ⊢
      by_cases hid : requestId' = requestId
      · subst hid
        rw [Function.update_self, htoken] at htoken'
        cases htoken'
        exact ⟨record, hrecord, by simp [hactive], hhash⟩
      · rw [Function.update_of_ne hid] at htoken'
        exact hadvanced requestId' token htoken'
  | _ => exact hsame (by simp) rfl

theorem issuedFor_serveAll (steps : List StoreStep) : IssuedFor P (serveAll P limits steps) :=
  (along_true steps).invariant (fun _ next h _ => h.serve next) fun _ _ h => by (cases h)

/-! ### Tokens in use -/

/-- A token authenticates a session that is active and not expired. -/
def TokenOfActive (P : Primitives) (service : SessionService) : StoreStep → Prop
  | .sessionForToken c token =>
    ∀ view, (sessionForToken P c token service.store).1 = .ok view →
      ∃ record, service.store.state.records.find? (·.tokenHash = some (hashToken P token)) =
        some record ∧
        record.status = .active ∧ record.expiresAt.all (c.now < ·) = true ∧
        view.sessionId = record.sessionId ∧ view.requestId = record.requestId
  | _ => True

theorem tokenOfActive (service : SessionService) (next : StoreStep) :
    TokenOfActive P service next := by
  cases next with
  | sessionForToken c token =>
    intro view hview
    obtain ⟨store', heq⟩ : ∃ store', sessionForToken P c token service.store = (.ok view, store') :=
      ⟨_, Prod.ext hview rfl⟩
    simp only [sessionForToken, state, read_bind, run_bind_eq_ok, check_eq_ok, okOr_eq_ok,
      ensure_eq_ok] at heq
    obtain ⟨record, _, ⟨hfind, rfl⟩, -, _, ⟨hactive, rfl⟩, heq⟩ := heq
    refine ⟨record, hfind, hactive, ?_⟩
    split_ifs at heq with hexpired
    · simp [run_bind_eq_ok] at heq
    · simp only [run_bind_eq_ok, pure_apply, Prod.mk.injEq, Except.ok.injEq] at heq
      obtain ⟨_, _, -, _, _, -, rfl, -⟩ := heq
      refine ⟨?_, rfl, rfl⟩
      cases hexpires : record.expiresAt with
      | none => rfl
      | some expiresAt => simpa [hexpires, UInt64.not_le] using hexpired
  | _ => trivial

def ApprovesPending (P : Primitives) (service : SessionService) : StoreStep → Prop
  | .approveRequest c requestId approval localDeviceId =>
    (approveRequest P c requestId approval localDeviceId service.store).1.isOk = true →
      ∃ record, requestAt service.store.state.records requestId = some record ∧
        record.status = .pending
  | _ => True

theorem approvesPending (service : SessionService) (next : StoreStep) :
    ApprovesPending P service next := by
  cases next with
  | approveRequest c requestId approval localDeviceId =>
    intro hok
    obtain ⟨response, store', heq⟩ := exists_of_isOk hok
    exact (approveRequest_eq_ok heq).1
  | _ => trivial

end

/-! ### The lifecycle -/

section

variable (P : Primitives) (limits : StoreLimits) (steps : List StoreStep)

/-- What has been rejected, revoked or has expired stays so, and its token is not given out. -/
def EndsForGood : Prop :=
  ∀ before after, steps = before ++ after → ∀ requestId,
    EndedAt requestId (serveAll P limits before).store.state.records →
      ∃ response, requestStatus (serveAll P limits steps) requestId = .ok response ∧
        ended response.status = true ∧ response.sessionToken = none

/-- A token that is given out is the one of the request's session, which is active. -/
def GivesOwnToken : Prop :=
  ∀ requestId response token, requestStatus (serveAll P limits steps) requestId = .ok response →
    response.sessionToken = some token → response.status = .active ∧
      ∃ record, requestAt (serveAll P limits steps).store.state.records requestId = some record ∧
        record.tokenHash = some (hashToken P token)

/-- Of two approvals of one request, the second one fails if the first one succeeds. -/
def ApprovedOnce : Prop :=
  ∀ before middle after c c' requestId approval approval' localDeviceId localDeviceId',
    steps = before ++ .approveRequest c requestId approval localDeviceId :: middle ++
      .approveRequest c' requestId approval' localDeviceId' :: after →
    (approveRequest P c requestId approval localDeviceId (serveAll P limits before).store).1.isOk =
      true →
    (approveRequest P c' requestId approval' localDeviceId' (serveAll P limits
      (before ++ .approveRequest c requestId approval localDeviceId :: middle)).store).1.isOk =
        false

end

variable {P : Primitives} {limits : StoreLimits} (steps : List StoreStep)

theorem endsForGood {steps : List StoreStep}
    (h : Along (serve P limits) (WritesEnds P limits) .init steps) :
    EndsForGood P limits steps := by
  rintro before after rfl requestId hended
  refine requestStatus_of_endedAt ?_
  obtain ⟨hbefore, hafter⟩ := along_append.mp h
  have hfile : EndsInFile (serveAll P limits before) :=
    hbefore.invariant (fun _ _ hfile hnext => endsInFile_serve hfile hnext) fun _ _ => id
  rw [serveAll, foldl_append]
  exact (hafter.invariant (I := fun service =>
    EndsInFile service ∧ EndedAt requestId service.store.state.records)
    (fun _ _ hI hnext => ⟨endsInFile_serve hI.1 hnext, endedAt_serve hI.1 hI.2⟩)
    ⟨hfile, hended⟩).2

theorem givesOwnToken : GivesOwnToken P limits steps := by
  intro requestId response token hresponse htoken
  simp only [requestStatus, bind_eq_ok, okOr_eq_ok, pure_eq_ok] at hresponse
  obtain ⟨record, hrecord, rfl⟩ := hresponse
  dsimp only at htoken
  split_ifs at htoken with hactive
  obtain ⟨record', hrecord', -, hhash⟩ := issuedFor_serveAll steps requestId token htoken
  exact ⟨hactive, record', hrecord', hhash⟩

theorem approvedOnce : ApprovedOnce P limits steps := by
  rintro before middle after c c' requestId approval approval' localDeviceId localDeviceId' - hok
  refine approve_error_of_settledAt ?_
  rw [serveAll, foldl_append, foldl_cons]
  refine ((along_true middle).invariant (I := fun service : SessionService =>
    SettledAt requestId service.store.state.records ∧
      SettledAt requestId service.store.file.records) (fun _ _ hsettled _ =>
        settledAt_serve hsettled) ?_).1
  exact settledAt_of_approve_ok hok

/-- **The life of a session.** In the runs in which the writes of calls that end a session are not
refused, a token authenticates only an active session that has not expired, an ended one is never
active again and its token is not given out, and only a pending request is approved, once. -/
theorem session_lifecycle (P : Primitives) (limits : StoreLimits) (steps : List StoreStep)
    (h : Along (serve P limits) (WritesEnds P limits) .init steps) :
    Along (serve P limits) (TokenOfActive P) .init steps ∧ EndsForGood P limits steps ∧
      GivesOwnToken P limits steps ∧ Along (serve P limits) (ApprovesPending P) .init steps ∧
      ApprovedOnce P limits steps :=
  ⟨h.of_invariant (I := fun _ => True) (fun _ _ _ _ => trivial)
      (fun service next _ _ => tokenOfActive service next) trivial,
    endsForGood h, givesOwnToken steps,
    h.of_invariant (I := fun _ => True) (fun _ _ _ _ => trivial)
      (fun service next _ _ => approvesPending service next) trivial,
    approvedOnce steps⟩

/-! ### A revocation that is forgotten -/

/-- A call at a time, with the outcome of saving. -/
def callAt (now : UInt64) (saved : Except FailedWrite Unit) : Circumstances :=
  ⟨now, 0, "id", "token", saved⟩

/-- A session is requested, approved and revoked, and the daemon restarts. -/
def revokedSteps (saved : Except FailedWrite Unit) : List StoreStep :=
  [.createRequest (callAt 1 (.ok ())) ⟨"app", "App", none, some "alice", []⟩,
    .approveRequest (callAt 2 (.ok ())) "id" ⟨none, [], none⟩ "device",
    .revokeSession (callAt 3 saved) "id",
    .reopen]

def fewSubscriptions : StoreLimits := ⟨8, 30⟩

theorem revoked_session_stays_revoked :
    ∃ response, requestStatus (serveAll Sample.primitives fewSubscriptions
        (revokedSteps (.ok ()))) "id" = .ok response ∧
      ended response.status = true ∧ response.sessionToken = none := by
  have hwrites : Along (serve Sample.primitives fewSubscriptions)
      (WritesEnds Sample.primitives fewSubscriptions) .init (revokedSteps (.ok ())) := by
    refine ⟨?_, ?_, ?_, ?_, trivial⟩ <;> exact fun _ _ _ _ hfailure => by cases hfailure
  exact (session_lifecycle Sample.primitives fewSubscriptions _ hwrites).2.1
    ((revokedSteps (.ok ())).take 3) [.reopen] rfl "id" ⟨_, rfl, rfl⟩

/-- The file cannot be opened when the session is revoked. -/
def unopened : Except FailedWrite Unit := .error ⟨"too many open files", false⟩

theorem revocation_forgotten :
    ¬ EndsForGood Sample.primitives fewSubscriptions (revokedSteps unopened) := by
  intro h
  obtain ⟨response, hresponse, hended, -⟩ :=
    h ((revokedSteps unopened).take 3) [.reopen] rfl "id" ⟨_, rfl, rfl⟩
  cases hresponse
  cases hended

end Jolt.Server.SessionLifecycle

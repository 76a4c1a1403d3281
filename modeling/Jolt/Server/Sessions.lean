import Jolt.Lib.Calls
import Jolt.Lib.FirstMatch
import Jolt.Network.DeviceWriterCache
import Jolt.Server.Capabilities

/-! # App sessions and data subscriptions

The session store of `session_store.rs`. An app asks for a session with the capabilities it wants;
the owner approves the request with these or fewer, rejects it, and may revoke the session later. A
session is found by its token, and expires when it is used after its time. A session can register
data subscriptions, each for one identity and the paths with one beginning; their refreshes run in
the background, one at a time for each subscription.

A call changes the state in memory and then saves it; if saving fails, the change in memory stays.
`save_state` writes the file in place, so a write that fails after it has opened the file leaves one
that cannot be read, and with such a file the daemon does not start. -/

namespace Jolt.Server.Sessions

open Std Lib Checks Text Calls Call FirstMatch Core.Types Capabilities

/-! ### Records -/

inductive AppSessionStatus where
  | pending
  | active
  | rejected
  | revoked
  | expired
deriving DecidableEq

structure AppSessionView where
  requestId : String
  sessionId : Option String
  appId : String
  appName : String
  appOrigin : Option String
  requestedIdentity : Option String
  identity : Option String
  deviceId : Option String
  requestedCapabilities : List String
  grantedCapabilities : List String
  status : AppSessionStatus
  createdAt : UInt64
  approvedAt : Option UInt64
  rejectedAt : Option UInt64
  revokedAt : Option UInt64
  expiresAt : Option UInt64
  lastUsedAt : Option UInt64

/-- The record of the store also has the hash of the token. -/
structure AppSessionRecord extends AppSessionView where
  tokenHash : Option String

/-- Whether one parsed subscription grant covers the identity and the beginning of paths. -/
def AppSessionView.allowsDataSubscription (P : Primitives) (session : AppSessionView)
    (identity : IdentityId) (start : String) : Bool :=
  (session.grantedCapabilities.filterMap (AppCapability.parse P)).any
  (·.allowsDataSubscription identity start)

structure AppSessionRequest where
  appId : String
  appName : String
  appOrigin : Option String
  requestedIdentity : Option String
  requestedCapabilities : List String

structure ApproveAppSessionRequest where
  identity : Option String
  capabilities : List String
  expiresAt : Option UInt64

structure ApproveAppSessionResponse where
  requestId : String
  sessionId : String
  sessionToken : String
  appId : String
  appName : String
  identity : String
  deviceId : String
  capabilities : List String
  status : AppSessionStatus
  expiresAt : Option UInt64

inductive DataSubscriptionLifecycle where
  | active
  | dormant
deriving DecidableEq

inductive DataSubscriptionRefresh where
  | loading
  | updating (lastVerifiedAt : Option UInt64)
  | ready (lastVerifiedAt : UInt64)
  | stale (lastVerifiedAt : UInt64) (reason : String)
  | unavailable (reason : String)
deriving DecidableEq

/-- The subscription's `prefix` is called `start`. -/
structure DataSubscriptionRecord where
  id : String
  sessionId : String
  identity : String
  start : String
  lifecycle : DataSubscriptionLifecycle
  refresh : DataSubscriptionRefresh
  createdAt : UInt64
deriving DecidableEq

inductive AppSessionStoreError where
  | missingBearerToken
  | invalidToken
  | requestNotFound (requestId : String)
  | sessionNotFound (sessionId : String)
  | requestNotPending (requestId : String)
  | missingIdentity
  | capabilityNotGrantable (capability : String)
  | capabilityNotRequested (capability : String)
  | dataSubscriptionCapacityExceeded
  | dataSubscriptionNotFound (subscriptionId : String)
  | io (message : String)
deriving DecidableEq

structure AppSessionState where
  records : List AppSessionRecord
  dataSubscriptions : List DataSubscriptionRecord
  activeDataSubscriptionRefreshes : List String
  dataSubscriptionRefreshAfter : ExtTreeMap String ℕ

/-- What is written to the file: the refreshes in progress are not. -/
structure SavedSessionState where
  records : List AppSessionRecord
  dataSubscriptions : List DataSubscriptionRecord

/-- The state in memory and the file it was last saved to, which can be read unless the last write
has failed after truncating it. -/
structure AppSessionStore where
  state : AppSessionState
  file : SavedSessionState
  readable : Bool

def AppSessionStore.open (file : SavedSessionState) : AppSessionStore :=
  ⟨⟨file.records, file.dataSubscriptions, [], ∅⟩, file, true⟩

/-- A restart. A start that cannot read the file panics, so no run goes on from it. -/
def AppSessionStore.reopen (store : AppSessionStore) : AppSessionStore :=
  if store.readable then .open store.file else store

/-- How a write fails: before it opens the file, or after it has truncated it. -/
structure FailedWrite where
  message : String
  truncated : Bool

/-- What a call gets from outside: the time in seconds and as an instant, the identifier and the
token it draws, and how saving the state ends. -/
structure Circumstances where
  now : UInt64
  instant : ℕ
  newId : String
  newToken : String
  saved : Except FailedWrite Unit

/-- How many subscriptions there may be, and how long a refresh is not repeated. -/
structure StoreLimits where
  maxDataSubscriptions : ℕ
  dataSubscriptionRefreshInterval : ℕ

abbrev StoreCall := Call AppSessionStore AppSessionStoreError

def state : StoreCall AppSessionState := read (·.state)

def modifyState (change : AppSessionState → AppSessionState) : StoreCall Unit :=
  write fun store => { store with state := change store.state }

def modifyRecord (fits : AppSessionRecord → Bool) (change : AppSessionRecord → AppSessionRecord) :
    StoreCall Unit :=
  modifyState fun state => { state with records := updateFirst fits change state.records }

def saveState (c : Circumstances) : StoreCall Unit :=
  match c.saved with
  | .ok () =>
    write fun store =>
      { store with file := ⟨store.state.records, store.state.dataSubscriptions⟩, readable := true }
  | .error failure => do
    write fun store => { store with readable := store.readable && !failure.truncated }
    check (.error (.io failure.message))

def hashToken (P : Primitives) (token : String) : String := hexText (P.blake3 (asBytes token)).bytes

/-! ### Requests and sessions -/

section

variable (P : Primitives) (c : Circumstances)

def createRequest (request : AppSessionRequest) : StoreCall (String × AppSessionStatus) := do
  let record : AppSessionRecord :=
    { requestId := c.newId
      sessionId := none
      appId := request.appId
      appName := request.appName
      appOrigin := request.appOrigin
      requestedIdentity := request.requestedIdentity
      identity := none
      deviceId := none
      requestedCapabilities := request.requestedCapabilities
      grantedCapabilities := []
      status := .pending
      createdAt := c.now
      approvedAt := none
      rejectedAt := none
      revokedAt := none
      expiresAt := none
      lastUsedAt := none
      tokenHash := none }
  modifyState fun state => { state with records := state.records ++ [record] }
  saveState c
  return (record.requestId, record.status)

def ensureGrantable (requestedCapabilities : List String) (capability : String) :
    Except AppSessionStoreError Unit := do
  ensure (isGrantableAppCapability P capability = true) (.capabilityNotGrantable capability)
  ensure (capabilityWasRequested P capability requestedCapabilities = true)
    (.capabilityNotRequested capability)

def AppSessionRecord.approve (record : AppSessionRecord) (identity localDeviceId : String)
    (capabilities : List String) (expiresAt : Option UInt64) : AppSessionRecord :=
  { record with
    sessionId := some c.newId
    identity := some identity
    deviceId := some localDeviceId
    grantedCapabilities := capabilities
    status := .active
    approvedAt := some c.now
    expiresAt := expiresAt
    tokenHash := some (hashToken P c.newToken) }

def AppSessionState.pendingRequest (state : AppSessionState) (requestId : String) :
    Except AppSessionStoreError AppSessionRecord := do
  let record ← okOr (state.records.find? (·.requestId = requestId)) (.requestNotFound requestId)
  ensure (record.status = .pending) (.requestNotPending requestId)
  return record

/-- An approval without capabilities grants what was requested. -/
def approveRequest (requestId : String) (approval : ApproveAppSessionRequest)
    (localDeviceId : String) : StoreCall ApproveAppSessionResponse := do
  let record ← check ((← state).pendingRequest requestId)
  let identity ← check (okOr (approval.identity <|> record.requestedIdentity) .missingIdentity)
  let capabilities :=
    if approval.capabilities = [] then record.requestedCapabilities else approval.capabilities
  check (capabilities.forM (ensureGrantable P record.requestedCapabilities))
  modifyRecord (·.requestId = requestId)
    (·.approve P c identity localDeviceId capabilities approval.expiresAt)
  saveState c
  return { requestId := record.requestId
           sessionId := c.newId
           sessionToken := c.newToken
           appId := record.appId
           appName := record.appName
           identity
           deviceId := localDeviceId
           capabilities
           status := .active
           expiresAt := approval.expiresAt }

def rejectRequest (requestId : String) : StoreCall Unit := do
  let _ ← check ((← state).pendingRequest requestId)
  modifyRecord (·.requestId = requestId) fun record =>
    { record with status := .rejected, rejectedAt := some c.now }
  saveState c

/-- `retain_active_data_subscription_refreshes`. -/
def retainActiveDataSubscriptionRefreshes (state : AppSessionState) : AppSessionState :=
  let retainedIds := state.dataSubscriptions.map (·.id)
  { state with
    activeDataSubscriptionRefreshes := state.activeDataSubscriptionRefreshes.filter
      (· ∈ retainedIds)
    dataSubscriptionRefreshAfter := state.dataSubscriptionRefreshAfter.filter fun id _ =>
      id ∈ retainedIds }

/-- The state without the subscriptions of the given sessions. -/
def dropSubscriptions (ended : String → Bool) (state : AppSessionState) : AppSessionState :=
  { state with dataSubscriptions := state.dataSubscriptions.filter (!ended ·.sessionId) }

def AppSessionRecord.revoke (record : AppSessionRecord) : AppSessionRecord :=
  { record with status := .revoked, revokedAt := some c.now }

def revokeSession (sessionId : String) : StoreCall Unit := do
  let _ ← check (okOr ((← state).records.find? (·.sessionId = some sessionId))
    (.sessionNotFound sessionId))
  modifyRecord (·.sessionId = some sessionId) (·.revoke c)
  modifyState fun state =>
    retainActiveDataSubscriptionRefreshes (dropSubscriptions (· = sessionId) state)
  saveState c

/-- Unlike `revokeSession`, this leaves the refreshes of the dropped subscriptions. -/
def revokeSessionForIdentity (sessionId identity : String) : StoreCall Unit := do
  let fits := fun record : AppSessionRecord =>
    decide (record.sessionId = some sessionId ∧ record.identity = some identity)
  let _ ← check (okOr ((← state).records.find? fits) (.sessionNotFound sessionId))
  modifyRecord fits (·.revoke c)
  modifyState (dropSubscriptions (· = sessionId))
  saveState c

def AppSessionRecord.isActiveOn (deviceId : String) (record : AppSessionRecord) : Bool :=
  record.sessionId.isSome ∧ record.deviceId = some deviceId ∧ record.status = .active

def revokeSessionsForDevice (deviceId : String) : StoreCall (List AppSessionView) := do
  let revoked := ((← state).records.filter (·.isActiveOn deviceId)).map (·.revoke c)
  if revoked.isEmpty then return []
  else do
    modifyState fun state =>
      { state with
        records := state.records.map fun record =>
          if record.isActiveOn deviceId then record.revoke c else record }
    modifyState fun state => retainActiveDataSubscriptionRefreshes
      (dropSubscriptions (· ∈ revoked.filterMap (·.sessionId)) state)
    saveState c
    return revoked.map (·.toAppSessionView)

/-- The subscriptions of a session that has expired go with it. -/
def expireSession (fits : AppSessionRecord → Bool) (sessionId : Option String) :
    StoreCall Unit := do
  modifyRecord fits fun record => { record with status := .expired }
  match sessionId with
  | some sessionId =>
    modifyState fun state =>
      retainActiveDataSubscriptionRefreshes (dropSubscriptions (· = sessionId) state)
  | none => pure ()
  saveState c

/-- The session a token stands for; an active one whose time has come expires here. -/
def sessionForToken (token : String) : StoreCall AppSessionView := do
  let fits := fun record : AppSessionRecord => decide (record.tokenHash = some (hashToken P token))
  let record ← check (okOr ((← state).records.find? fits) .invalidToken)
  check (ensure (record.status = .active) .invalidToken)
  if record.expiresAt.any (· ≤ c.now) then do
    expireSession c fits record.sessionId
    check (.error .invalidToken)
  else do
    modifyRecord fits fun record => { record with lastUsedAt := some c.now }
    saveState c
    return { record.toAppSessionView with lastUsedAt := some c.now }

end

/-! ### Data subscriptions -/

/-- The refresh of a subscription as it shows while one is running. -/
def DataSubscriptionRefresh.running : DataSubscriptionRefresh → DataSubscriptionRefresh
  | .ready lastVerifiedAt => .updating (some lastVerifiedAt)
  | .stale lastVerifiedAt _ => .updating (some lastVerifiedAt)
  | .updating lastVerifiedAt => .updating lastVerifiedAt
  | .loading => .loading
  | .unavailable _ => .loading

def withRuntimeDataSubscriptionState (subscription : DataSubscriptionRecord)
    (activeRefreshes : List String) : DataSubscriptionRecord :=
  if subscription.id ∈ activeRefreshes then
    { subscription with lifecycle := .active, refresh := subscription.refresh.running }
  else subscription

section

variable (c : Circumstances) (limits : StoreLimits)

def registerDataSubscription (sessionId identity start : String) :
    StoreCall DataSubscriptionRecord := do
  let current ← state
  match current.dataSubscriptions.find? fun subscription =>
      subscription.sessionId = sessionId ∧ subscription.identity = identity ∧
        subscription.start = start with
  | some existing =>
    return withRuntimeDataSubscriptionState existing current.activeDataSubscriptionRefreshes
  | none => do
    check (ensure (current.dataSubscriptions.length < limits.maxDataSubscriptions)
      .dataSubscriptionCapacityExceeded)
    let subscription : DataSubscriptionRecord :=
      { id := c.newId, sessionId, identity, start, lifecycle := .dormant, refresh := .loading
        createdAt := c.now }
    modifyState fun state =>
      { state with dataSubscriptions := state.dataSubscriptions ++ [subscription] }
    saveState c
    return subscription

/-- Whether it is the subscription of the session with the identifier. -/
def DataSubscriptionRecord.isAt (sessionId subscriptionId : String)
    (subscription : DataSubscriptionRecord) : Bool :=
  subscription.sessionId = sessionId ∧ subscription.id = subscriptionId

def AppSessionState.findSubscription (state : AppSessionState) (sessionId subscriptionId : String) :
    Except AppSessionStoreError DataSubscriptionRecord :=
  okOr (state.dataSubscriptions.find? (·.isAt sessionId subscriptionId))
    (.dataSubscriptionNotFound subscriptionId)

def dataSubscription (state : AppSessionState) (sessionId subscriptionId : String) :
    Except AppSessionStoreError DataSubscriptionRecord := do
  let subscription ← state.findSubscription sessionId subscriptionId
  return withRuntimeDataSubscriptionState subscription state.activeDataSubscriptionRefreshes

def dataSubscriptionsMatchingRecord (state : AppSessionState) (identity path : String) :
    List DataSubscriptionRecord :=
  (state.dataSubscriptions.filter fun subscription =>
      subscription.identity = identity ∧ startsWith path subscription.start = true).map
    (withRuntimeDataSubscriptionState · state.activeDataSubscriptionRefreshes)

def dataSubscriptionSessionIsActive (state : AppSessionState) (sessionId : String) : Bool :=
  state.records.any fun record =>
    record.sessionId = some sessionId ∧ record.status = .active ∧ record.expiresAt.all
      (c.now < ·) = true

/-- Whether the caller is to start the refresh: one runs at a time, and none soon after another. -/
def beginDataSubscriptionRefresh (sessionId subscriptionId : String) : StoreCall Bool := do
  let _ ← check ((← state).findSubscription sessionId subscriptionId)
  modifyState fun state =>
    { state with
      dataSubscriptionRefreshAfter :=
        state.dataSubscriptionRefreshAfter.filter fun _ refreshAfter => c.instant < refreshAfter }
  let current ← state
  if subscriptionId ∈ current.activeDataSubscriptionRefreshes ∨
      subscriptionId ∈ current.dataSubscriptionRefreshAfter then
    return false
  else do
    modifyState fun state =>
      { state with
        dataSubscriptionRefreshAfter := state.dataSubscriptionRefreshAfter.insert subscriptionId
          (c.instant + limits.dataSubscriptionRefreshInterval)
        activeDataSubscriptionRefreshes := subscriptionId :: state.activeDataSubscriptionRefreshes }
    return true

def completeDataSubscriptionRefresh (sessionId subscriptionId : String)
    (refresh : DataSubscriptionRefresh) : StoreCall DataSubscriptionRecord := do
  modifyState fun state =>
    { state with
      activeDataSubscriptionRefreshes := state.activeDataSubscriptionRefreshes.filter
        (· ≠ subscriptionId) }
  let subscription ← check ((← state).findSubscription sessionId subscriptionId)
  modifyState fun state =>
    { state with
      dataSubscriptions := updateFirst (·.isAt sessionId subscriptionId)
        (fun subscription => { subscription with lifecycle := .dormant, refresh })
        state.dataSubscriptions }
  saveState c
  return { subscription with lifecycle := .dormant, refresh }

def removeDataSubscription (sessionId subscriptionId : String) : StoreCall Unit := do
  let _ ← check ((← state).findSubscription sessionId subscriptionId)
  modifyState fun state =>
    { state with
      dataSubscriptions := state.dataSubscriptions.eraseP (·.isAt sessionId subscriptionId)
      activeDataSubscriptionRefreshes := state.activeDataSubscriptionRefreshes.filter
        (· ≠ subscriptionId)
      dataSubscriptionRefreshAfter := state.dataSubscriptionRefreshAfter.erase subscriptionId }
  saveState c

end

end Jolt.Server.Sessions

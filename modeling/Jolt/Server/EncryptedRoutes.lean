import Jolt.Server.Recipients

/-! # The routes for encrypted objects

Three routes of `app_api.rs` name an encrypted object, by its address or by its content identifier,
check what the session may do at its path, and fetch it. `decrypt_encrypted` returns its plaintext,
`open_encrypted` returns the plaintext or the ciphertext, and `rewrap_encrypted` encrypts the
plaintext again and publishes the new object at the path. -/

namespace Jolt.Server.EncryptedRoutes

open Lib Checks Text Calls Call Jolt.Core Jolt.Core.Types Address EncryptedObject
  Network.DeviceWriterCache Sessions AppApi Recipients

/-! ### Requests and responses -/

structure EncryptedDecryptRequest where
  target : String
  path : Option String
deriving DecidableEq

structure EncryptedDecryptResponse where
  contentId : String
  path : String
  plaintext : Bytes
  size : UInt64
  contentType : String
deriving DecidableEq

inductive EncryptedOpenStatus where
  | decrypted
  | ciphertext
deriving DecidableEq

structure EncryptedOpenResponse where
  contentId : String
  path : String
  status : EncryptedOpenStatus
  accessStatus : EncryptedAccessStatus
  plaintext : Option Bytes
  ciphertext : Option Bytes
  size : UInt64
  contentType : Option String
  decryptError : Option String
deriving DecidableEq

/-- The fields of `PublishResponse` that are read here. -/
structure PublishResponse where
  contentId : String
  size : UInt64
  path : Option String
  address : Option String
  latestSequence : Option UInt64
deriving DecidableEq

structure EncryptedPublishResponse extends PublishResponse where
  recipientCount : ℕ
deriving DecidableEq

/-! ### The node -/

structure EncryptedObjectResponse where
  data : Bytes
  size : UInt64
  recipientCount : ℕ
deriving DecidableEq

structure DecryptedObjectResponse where
  plaintext : Bytes
  size : UInt64
  contentType : String
deriving DecidableEq

section

variable (P : Primitives) (C : Ciphers) (json : EnvelopeJson)

/-- `signingKey` is the key of the node's identity. -/
def encryptObject (drawn : Drawn) (signingKey : Bytes32) (now : UInt64) (plaintext : Bytes)
    (contentType : String) (recipients : List EncryptedObjectRecipient) :
    Except NetworkError EncryptedObjectResponse := do
  let envelope ← (EncryptedObjectEnvelope.encrypt P C drawn (P.verifyingKey signingKey).bytes
      ⟨P.verifyingKey signingKey⟩ plaintext contentType none recipients now
      (P.sign signingKey)).mapError fun error => .protocol error.toString
  let data ← (envelope.toBytes json).mapError fun error => .protocol error.toString
  return { size := data.length.toUInt64, data, recipientCount := envelope.body.recipients.length }

def decryptObject (keys : NodeKeys) (encryptedObject : Bytes) :
    Except NetworkError DecryptedObjectResponse := do
  let (_, privateKey) ← okOr keys.localEncryptionKey
    (.protocol "local identity encryption key is not available")
  let envelope ← (EncryptedObjectEnvelope.fromBytes json encryptedObject).mapError fun error =>
    .invalidInput error.toString
  let plaintext ← (decryptEncryptedObjectForRecipient P C envelope privateKey).mapError fun error =>
    .invalidInput error.toString
  return {
    size := plaintext.length.toUInt64, plaintext,
    contentType := envelope.body.plaintext.mediaType }

end

/-! ### The state and the circumstances of a request -/

structure AppState where
  sessions : AppSessionStore
  keys : NodeKeys
  /-- What the routes have published, with its path. -/
  published : List (String × Bytes)

/-- What a request gets from outside: what the calls on the session store and on the node's keys
get, what encryption draws, how writing the temporary file ends, and what the daemon answers when it
publishes bytes at a path. -/
structure RouteCircumstances where
  sessions : Circumstances
  keys : KeyCircumstances
  drawn : Drawn
  stored : Except AppApiError Unit
  publish : String → Bytes → Except NetworkError PublishResponse

abbrev RouteCall := Call AppState AppApiError

def onSessionStore {α : Type} (call : Call AppSessionStore AppApiError α) :
    RouteCall α := fun state =>
  ((call state.sessions).1, { state with sessions := (call state.sessions).2 })

def onNodeKeys {α : Type} (call : Call NodeKeys AppApiError α) : RouteCall α := fun state =>
  ((call state.keys).1, { state with keys := (call state.keys).2 })

/-! ### The object a request is about -/

def requireLocalIdentity (daemon : Daemon) (session : AppSessionView) :
    Except AppApiError Unit := do
  let granted ← okOr session.identity (.forbidden "app session has no granted identity")
  ensure (granted = daemon.identityAddress)
    (.forbidden
      s!"session identity {granted} does not match local daemon identity {daemon.identityAddress}")

/-- The path in a request for an address, if there is one, must be the path that was resolved. -/
def requireSamePath (operation : String) (path : Option String) (resolvedPath : String) :
    Except AppApiError Unit :=
  match path with
  | none => .ok ()
  | some rawPath => do
    let requestedPath ← normalizePath rawPath
    ensure (requestedPath = resolvedPath) (.network (.invalidInput
      s!"encrypted {operation} path {requestedPath} does not match target path {resolvedPath}"))

def encryptedTarget (P : Primitives) (readers : Readers) (daemon : Daemon)
    (request : EncryptedDecryptRequest) (operation : String) :
    Except AppApiError (String × String) :=
  match JoltAddress.fromStr P readers.labelError request.target with
  | .ok address => do
    let resolved ← (daemon.resolve (address.toString P)).mapError .network
    requireSamePath operation request.path resolved.path
    return (resolved.contentId, resolved.path)
  | .error error => do
    ensure (containsText request.target ".jolt" = false) (.network (.invalidInput
      s!"encrypted {operation} target must be a valid .jolt address or content id: {error.toString}"))
    let rawPath ← okOr request.path
      (.network (.invalidInput s!"encrypted {operation} by content id requires a path"))
    let path ← normalizePath rawPath
    return (request.target, path)

def fetchTarget (daemon : Daemon) (contentId : String) : Except AppApiError FetchResult :=
  (daemon.fetch contentId).mapError fun error => .network (fetchErrorForTarget error contentId)

structure Target where
  contentId : String
  path : String
  fetched : FetchResult
deriving DecidableEq

/-! ### The routes -/

section

variable (P : Primitives) (C : Ciphers) (json : EnvelopeJson) (readers : Readers) (daemon : Daemon)
  (c : RouteCircumstances) (signingKey : Bytes32) (authorization : Option (Option String))
  (request : EncryptedDecryptRequest)

/-- The content, if the session has all capabilities for the path. -/
def grantedTarget (session : AppSessionView) (capabilities : List String)
    (contentId path : String) :
    Except AppApiError Target := do
  capabilities.forM fun capability => requirePathCapability session capability path
  let fetched ← fetchTarget daemon contentId
  return { contentId, path, fetched }

/-- What a session may get at: the object that the request names, if the session has all
capabilities for its path. -/
def targetFor (session : AppSessionView) (operation : String) (capabilities : List String) :
    Except AppApiError Target := do
  requireLocalIdentity daemon session
  let (contentId, path) ← encryptedTarget P readers daemon request operation
  grantedTarget daemon session capabilities contentId path

def authorizedTarget (operation : String) (capabilities : List String) : RouteCall Target := do
  let session ← onSessionStore (authenticatedSession P c.sessions authorization)
  check (targetFor P readers daemon request session operation capabilities)

def onDecryptObject (encryptedObject : Bytes) :
    RouteCall (Except NetworkError DecryptedObjectResponse) :=
  read fun state => decryptObject P C json state.keys encryptedObject

def decryptEncrypted : RouteCall EncryptedDecryptResponse := do
  let target ← authorizedTarget P readers daemon c authorization request "decrypt" ["decrypt:"]
  let result ← onDecryptObject P C json target.fetched.data
  let decrypted ← check (result.mapError .network)
  return { contentId := target.contentId, path := target.path, plaintext := decrypted.plaintext
           size := decrypted.size, contentType := decrypted.contentType }

/-- What is said about an object that could be opened, or not. -/
def openResponse (target : Target) (accessStatus : EncryptedAccessStatus) :
    Except NetworkError DecryptedObjectResponse → EncryptedOpenResponse
  | .ok decrypted =>
    { contentId := target.contentId, path := target.path, status := .decrypted, accessStatus
      plaintext := some decrypted.plaintext, ciphertext := none, size := decrypted.size
      contentType := some decrypted.contentType, decryptError := none }
  | .error error =>
    { contentId := target.contentId, path := target.path, status := .ciphertext
      accessStatus := .notAccessible, plaintext := none, ciphertext := some target.fetched.data
      size := target.fetched.size, contentType := none, decryptError := some error.toString }

def openEncrypted : RouteCall EncryptedOpenResponse := do
  let target ← authorizedTarget P readers daemon c authorization request "open" ["decrypt:"]
  let accessStatus ← check (encryptedAccessStatus P json daemon target.fetched.data)
  let result ← onDecryptObject P C json target.fetched.data
  return openResponse target accessStatus result

/-- Without `publish_local_record_change`, which tells the change streams of the write. -/
def publishAppBytes (data : Bytes) (path : String) : RouteCall PublishResponse := do
  check c.stored
  let published ← check ((c.publish path data).mapError .network)
  write fun state => { state with published := state.published ++ [(path, data)] }
  return published

/-- The recipients of the new object are those that are found for an empty list. -/
def rewrapEncrypted : RouteCall EncryptedPublishResponse := do
  let target ← authorizedTarget P readers daemon c authorization request "rewrap"
    ["decrypt:", "encrypt:", "publish:encrypted:"]
  let result ← onDecryptObject P C json target.fetched.data
  let decrypted ← check (result.mapError .network)
  let recipientKeys ← onNodeKeys
    (resolveAppEncryptionRecipients P C readers daemon c.keys ⟨P.verifyingKey signingKey⟩ [])
  let encrypted ← check ((encryptObject P C json c.drawn signingKey c.keys.now decrypted.plaintext
    decrypted.contentType recipientKeys).mapError .network)
  let published ← publishAppBytes c encrypted.data target.path
  return { toPublishResponse := published, recipientCount := encrypted.recipientCount }

end

/-! ### What a route has done when it succeeds -/

section

variable {P : Primitives} {C : Ciphers} {json : EnvelopeJson} {readers : Readers} {daemon : Daemon}
  {c : RouteCircumstances} {signingKey : Bytes32} {authorization : Option (Option String)}
  {request : EncryptedDecryptRequest} {state state' : AppState} {sessions : AppSessionStore}
  {keys : NodeKeys} {capabilities : List String} {target : Target} {session : AppSessionView}
  {decrypted : DecryptedObjectResponse} {published : PublishResponse}

theorem onSessionStore_eq_ok {α : Type} {call : Call AppSessionStore AppApiError α} {a : α}
    (h : call state.sessions = (.ok a, sessions)) :
    onSessionStore call state = (.ok a, { state with sessions }) := by rw [onSessionStore, h]

theorem onNodeKeys_eq_ok {α : Type} {call : Call NodeKeys AppApiError α} {a : α}
    (h : call state.keys = (.ok a, keys)) :
    onNodeKeys call state = (.ok a, { state with keys }) := by
  rw [onNodeKeys, h]

theorem authorizedTarget_eq_ok {operation : String}
    (h : authorizedTarget P readers daemon c authorization request operation capabilities state =
      (.ok target, state')) : state'.keys = state.keys ∧ state'.published = state.published ∧
      ∃ session, (authenticatedSession P c.sessions authorization state.sessions).1 = .ok session ∧
        targetFor P readers daemon request session operation capabilities = .ok target := by
  rw [authorizedTarget, run_bind_eq_ok] at h
  obtain ⟨session, state₁, hsession, htarget⟩ := h
  obtain ⟨hfound, rfl⟩ := Prod.mk.inj hsession
  obtain ⟨hok, rfl⟩ := Prod.mk.inj htarget
  exact ⟨rfl, rfl, session, hfound, hok⟩

theorem targetFor_eq_ok {operation : String} :
    targetFor P readers daemon request session operation capabilities = .ok target ↔
      requireLocalIdentity daemon session = .ok () ∧
        encryptedTarget P readers daemon request operation = .ok (target.contentId, target.path) ∧
        (∀ capability ∈ capabilities, requirePathCapability session capability target.path =
          .ok ()) ∧
        daemon.fetch target.contentId = .ok target.fetched := by
  simp only [targetFor, grantedTarget, bind_eq_ok, fetchTarget, mapError_eq_ok, pure_eq_ok]
  constructor
  · rintro ⟨_, hlocal, ⟨contentId, path⟩, htarget, _, hgranted, fetched, hfetch, rfl⟩
    exact ⟨hlocal, htarget, forM_eq_ok_iff.mp hgranted, hfetch⟩
  · obtain ⟨contentId, path, fetched⟩ := target
    rintro ⟨hlocal, htarget, hgranted, hfetch⟩
    exact ⟨(), hlocal, (contentId, path), htarget, (), forM_eq_ok_iff.mpr hgranted,
      fetched, hfetch, rfl⟩

theorem decryptObject_eq_ok {bytes : Bytes}
    (h : decryptObject P C json keys bytes = .ok decrypted) :
    ∃ publicKey privateKey envelope, keys.localEncryptionKey = some (publicKey, privateKey) ∧
      EncryptedObjectEnvelope.fromBytes json bytes = .ok envelope ∧
      decryptEncryptedObjectForRecipient P C envelope privateKey = .ok decrypted.plaintext ∧
      decrypted.contentType = envelope.body.plaintext.mediaType := by
  simp only [decryptObject, bind_eq_ok, okOr_eq_ok, mapError_eq_ok, pure_eq_ok] at h
  obtain ⟨⟨publicKey, privateKey⟩, hkeys, envelope, henvelope, plaintext, hplaintext, rfl⟩ := h
  exact ⟨publicKey, privateKey, envelope, hkeys, henvelope, hplaintext, rfl⟩

theorem published_of_publishAppBytes {data : Bytes} {path : String}
    (h : publishAppBytes c data path state = (.ok published, state')) :
    state'.published = state.published ++ [(path, data)] := by
  simp only [publishAppBytes, run_bind_eq_ok, check_eq_ok] at h
  obtain ⟨_, _, ⟨-, rfl⟩, _, _, ⟨-, rfl⟩, _, _, hwrite, h⟩ := h
  cases hwrite
  cases h
  rfl

/-- A session was found, and the object that it may get at was decrypted. -/
def Decrypted (P : Primitives) (C : Ciphers) (json : EnvelopeJson) (readers : Readers)
    (daemon : Daemon) (c : RouteCircumstances) (authorization : Option (Option String))
    (request : EncryptedDecryptRequest) (state : AppState) (operation : String)
    (capabilities : List String) (target : Target) (decrypted : DecryptedObjectResponse) : Prop :=
  (∃ session, (authenticatedSession P c.sessions authorization state.sessions).1 = .ok session ∧
    targetFor P readers daemon request session operation capabilities = .ok target) ∧
  decryptObject P C json state.keys target.fetched.data = .ok decrypted

theorem decryptEncrypted_eq_ok {response : EncryptedDecryptResponse}
    (h : decryptEncrypted P C json readers daemon c authorization request state =
      (.ok response, state')) :
    ∃ target decrypted, Decrypted P C json readers daemon c authorization request state "decrypt"
      ["decrypt:"] target
        decrypted ∧
      response = ⟨target.contentId, target.path, decrypted.plaintext, decrypted.size,
        decrypted.contentType⟩ := by
  simp only [decryptEncrypted, run_bind_eq_ok, onDecryptObject, read_bind, check_eq_ok,
    mapError_eq_ok] at h
  obtain ⟨target, state₁, htarget, decrypted, _, ⟨hdecrypted, rfl⟩, h⟩ := h
  cases h
  obtain ⟨hkeys, -, hsession⟩ := authorizedTarget_eq_ok htarget
  rw [hkeys] at hdecrypted
  exact ⟨target, decrypted, ⟨hsession, hdecrypted⟩, rfl⟩

theorem openEncrypted_eq_ok {response : EncryptedOpenResponse} {plaintext : Bytes}
    (h : openEncrypted P C json readers daemon c authorization request state =
      (.ok response, state'))
    (hplaintext : response.plaintext = some plaintext) :
    ∃ target decrypted, Decrypted P C json readers daemon c authorization request state "open"
      ["decrypt:"] target
        decrypted ∧ response.path = target.path ∧ decrypted.plaintext = plaintext := by
  simp only [openEncrypted, run_bind_eq_ok, onDecryptObject, read_bind, check_eq_ok] at h
  obtain ⟨target, state₁, htarget, accessStatus, _, ⟨-, rfl⟩, h⟩ := h
  obtain ⟨hkeys, -, hsession⟩ := authorizedTarget_eq_ok htarget
  obtain ⟨hresponse, -⟩ := Prod.mk.inj h
  rw [← Except.ok.inj hresponse, hkeys] at hplaintext ⊢
  cases hdecrypted : decryptObject P C json state.keys target.fetched.data with
  | error error =>
    rw [hdecrypted] at hplaintext
    cases hplaintext
  | ok decrypted =>
    rw [hdecrypted] at hplaintext
    exact ⟨target, decrypted, ⟨hsession, hdecrypted⟩, rfl, Option.some.inj hplaintext⟩

theorem rewrapEncrypted_eq_ok {response : EncryptedPublishResponse}
    (h : rewrapEncrypted P C json readers daemon c signingKey authorization request state =
      (.ok response, state')) :
    ∃ target decrypted recipientKeys encrypted keys,
      Decrypted P C json readers daemon c authorization request state "rewrap"
        ["decrypt:", "encrypt:", "publish:encrypted:"] target decrypted ∧
      resolveAppEncryptionRecipients P C readers daemon c.keys ⟨P.verifyingKey signingKey⟩ []
        state.keys = (.ok recipientKeys, keys) ∧
      encryptObject P C json c.drawn signingKey c.keys.now decrypted.plaintext decrypted.contentType
        recipientKeys = .ok encrypted ∧
      state'.published = state.published ++ [(target.path, encrypted.data)] := by
  simp only [rewrapEncrypted, run_bind_eq_ok, onDecryptObject, read_bind, check_eq_ok,
    mapError_eq_ok] at h
  obtain ⟨target, state₁, htarget, decrypted, _, ⟨hdecrypted, rfl⟩, recipientKeys,
    state₂, hrecipients,
    encrypted, _, ⟨hencrypted, rfl⟩, published, state₃, hpublish, h⟩ := h
  cases h
  obtain ⟨hkeys, hpublished, hsession⟩ := authorizedTarget_eq_ok htarget
  obtain ⟨hresolved, rfl⟩ := Prod.mk.inj hrecipients
  rw [hkeys] at hdecrypted hresolved
  refine ⟨target, decrypted, recipientKeys, encrypted, _, ⟨hsession, hdecrypted⟩,
    Prod.ext hresolved rfl, hencrypted, ?_⟩
  rw [published_of_publishAppBytes hpublish]
  exact congrArg (· ++ _) hpublished

/-- Rewrapping succeeds if all its steps do. -/
theorem rewrapEncrypted_of_steps {recipientKeys : List EncryptedObjectRecipient}
    {encrypted : EncryptedObjectResponse}
    (hsession : authenticatedSession P c.sessions authorization state.sessions =
      (.ok session, sessions))
    (htarget : targetFor P readers daemon request session "rewrap"
      ["decrypt:", "encrypt:", "publish:encrypted:"] = .ok target)
    (hdecrypted : decryptObject P C json state.keys target.fetched.data = .ok decrypted)
    (hrecipients : resolveAppEncryptionRecipients P C readers daemon c.keys
      ⟨P.verifyingKey signingKey⟩ [] state.keys = (.ok recipientKeys, keys))
    (hencrypted : encryptObject P C json c.drawn signingKey c.keys.now decrypted.plaintext
      decrypted.contentType recipientKeys = .ok encrypted) (hstored : c.stored = .ok ())
    (hpublished : c.publish target.path encrypted.data = .ok published) :
    rewrapEncrypted P C json readers daemon c signingKey authorization request state =
      (.ok { toPublishResponse := published, recipientCount := encrypted.recipientCount },
        { sessions, keys, published := state.published ++ [(target.path, encrypted.data)] }) := by
  simp only [rewrapEncrypted, authorizedTarget, publishAppBytes, run_bind_eq_ok, onDecryptObject,
    read_bind, check_eq_ok, mapError_eq_ok]
  exact ⟨target, _, ⟨session, _, onSessionStore_eq_ok hsession, htarget, rfl⟩, decrypted, _,
    ⟨hdecrypted, rfl⟩, recipientKeys, _, onNodeKeys_eq_ok hrecipients, encrypted, _,
      ⟨hencrypted, rfl⟩,
    published, _, ⟨(), _, ⟨hstored, rfl⟩, published, _, ⟨hpublished, rfl⟩, (), _, rfl, rfl⟩, rfl⟩

end

end Jolt.Server.EncryptedRoutes

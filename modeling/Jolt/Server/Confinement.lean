import Jolt.Server.PathCapabilities
import Jolt.Server.Rewrap

/-! # What a session can have decrypted

A plaintext that leaves the routes for encrypted objects is that of an object which the request
names: the content that the daemon finds bound at a path, for an address, or the content with the
given identifier. In either case the session has a grant to decrypt at the path, the one that was
resolved or the one that the app gives along with the identifier; that the content is bound there is
not checked in the second case (`decryption_confined`). What is not named in this way has no
influence on the answers: two daemons that agree on the rest give the same (`targetFor_congr`). -/

namespace Jolt.Server.Confinement

open Lib.Checks Lib.Calls.Call Jolt.Core Jolt.Core.Types Address EncryptedObject Encryption
  Envelopes Capabilities Sessions AppApi Recipients PathCapabilities EncryptedRoutes
  RecipientSelection Rewrap List
open Sample (key primitives)
open SampleCiphers (ciphers)

variable {P : Primitives} {C : Ciphers} {json : EnvelopeJson} {readers : Readers}
  {daemon daemon' : Daemon} {c : RouteCircumstances} {signingKey : Bytes32}
  {authorization : Option (Option String)} {request : EncryptedDecryptRequest}
  {state state' : AppState} {session : AppSessionView}

/-! ### What a request names -/

/-- The session has a grant to decrypt at the path. -/
def Covers (session : AppSessionView) (path : String) : Prop :=
  ∃ granted ∈ session.grantedCapabilities, ∃ pattern, granted = "decrypt:" ++ pattern ∧
    pathMatches pattern path = true

theorem covers_iff {path : String} :
    Covers session path ↔ requirePathCapability session "decrypt:" path = .ok () :=
  requirePathCapability_eq_ok.symm

/-- The request has an address, and the daemon finds the content bound at the path. -/
def Bound (P : Primitives) (readers : Readers) (daemon : Daemon) (request : EncryptedDecryptRequest)
    (contentId path : String) : Prop :=
  ∃ address, JoltAddress.fromStr P readers.labelError request.target = .ok address ∧
    daemon.resolve (address.toString P) = .ok ⟨path, contentId⟩

/-- The request has no address but the identifier of the content, and a path of its own. -/
def Given (P : Primitives) (readers : Readers) (request : EncryptedDecryptRequest)
    (contentId path : String) : Prop :=
  (∃ error, JoltAddress.fromStr P readers.labelError request.target = .error error) ∧
    contentId = request.target ∧ ∃ raw, request.path = some raw ∧
      AppApi.normalizePath raw = .ok path

theorem encryptedTarget_eq_ok {operation contentId path : String}
    (h : encryptedTarget P readers daemon request operation = .ok (contentId, path)) :
    Bound P readers daemon request contentId path ∨ Given P readers request contentId path := by
  unfold encryptedTarget at h
  cases haddress : JoltAddress.fromStr P readers.labelError request.target with
  | ok address =>
    simp only [haddress, bind_eq_ok, mapError_eq_ok, pure_eq_ok] at h
    obtain ⟨⟨resolvedPath, resolvedId⟩, hresolved, _, -, h⟩ := h
    cases h
    exact .inl ⟨address, haddress, hresolved⟩
  | error error =>
    simp only [haddress, bind_eq_ok, okOr_eq_ok, pure_eq_ok] at h
    obtain ⟨_, -, raw, hraw, path', hpath, h⟩ := h
    cases h
    exact .inr ⟨⟨error, haddress⟩, rfl, raw, hraw, hpath⟩

/-! ### What is disclosed -/

/-- The plaintext is that of the content which the request names, and a session that may decrypt at
the path was found for the request. -/
def Discloses (P : Primitives) (C : Ciphers) (json : EnvelopeJson) (readers : Readers)
    (daemon : Daemon) (c : RouteCircumstances) (authorization : Option (Option String))
    (request : EncryptedDecryptRequest) (state : AppState) (path : String) (plaintext : Bytes) :
    Prop :=
  ∃ session contentId fetched decrypted,
    (authenticatedSession P c.sessions authorization state.sessions).1 = .ok session ∧
      Covers session path ∧
      (Bound P readers daemon request contentId path ∨ Given P readers request contentId path) ∧
      daemon.fetch contentId = .ok fetched ∧
      decryptObject P C json state.keys fetched.data = .ok decrypted ∧
        decrypted.plaintext = plaintext

theorem discloses_of_decrypted {operation : String} {capabilities : List String} {target : Target}
    {decrypted : DecryptedObjectResponse}
    (h : Decrypted P C json readers daemon c authorization request state operation
      ("decrypt:" :: capabilities) target decrypted) :
    Discloses P C json readers daemon c authorization request state target.path
      decrypted.plaintext := by
  obtain ⟨⟨session, hsession, htarget⟩, hdecrypted⟩ := h
  obtain ⟨-, hnamed, hgranted, hfetch⟩ := targetFor_eq_ok.mp htarget
  exact ⟨session, target.contentId, target.fetched, decrypted, hsession,
    covers_iff.mpr (hgranted _ mem_cons_self), encryptedTarget_eq_ok hnamed, hfetch,
      hdecrypted, rfl⟩

/-! ### What has no influence -/

/-- Two daemons that differ at most in contents which are neither bound at a path where the session
may decrypt, nor given by the request with such a path. -/
structure SameWithin (P : Primitives) (readers : Readers) (request : EncryptedDecryptRequest)
    (session : AppSessionView) (daemon daemon' : Daemon) : Prop where
  identityAddress : daemon'.identityAddress = daemon.identityAddress
  localDeviceAuthority : daemon'.localDeviceAuthority = daemon.localDeviceAuthority
  resolved : ∀ address, (∃ error, daemon.resolve address = .error error ∧ daemon'.resolve address =
    .error error) ∨
      ∃ path contentId contentId', daemon.resolve address = .ok ⟨path, contentId⟩ ∧
        daemon'.resolve address = .ok ⟨path, contentId'⟩ ∧
        (Covers session path → contentId' = contentId ∧ daemon'.fetch contentId =
          daemon.fetch contentId)
  given : ∀ contentId path, Given P readers request contentId path → Covers session path →
    daemon'.fetch contentId = daemon.fetch contentId

theorem grantedTarget_congr {contentId contentId' path : String} (h : Covers session path →
      contentId' = contentId ∧ daemon'.fetch contentId = daemon.fetch contentId)
    (capabilities : List String) :
    grantedTarget daemon' session ("decrypt:" :: capabilities) contentId' path =
      grantedTarget daemon session ("decrypt:" :: capabilities) contentId path := by
  by_cases hcovers : Covers session path
  · obtain ⟨rfl, hfetch⟩ := h hcovers
    rw [grantedTarget, grantedTarget, fetchTarget, fetchTarget, hfetch]
  · cases hrequired : requirePathCapability session "decrypt:" path with
    | ok _ => exact absurd (covers_iff.mpr hrequired) hcovers
    | error error =>
      rw [grantedTarget, grantedTarget, List.forM, hrequired]
      rfl

section

variable (h : SameWithin P readers request session daemon daemon') (operation : String)
include h

/-- What two such daemons make of the request. -/
theorem encryptedTarget_cases :
    (∃ error, encryptedTarget P readers daemon request operation = .error error ∧
        encryptedTarget P readers daemon' request operation = .error error) ∨
      ∃ path contentId contentId', encryptedTarget P readers daemon request operation = .ok
        (contentId, path) ∧
        encryptedTarget P readers daemon' request operation = .ok (contentId', path) ∧
        (Covers session path → contentId' = contentId ∧ daemon'.fetch contentId =
          daemon.fetch contentId) := by
  cases haddress : JoltAddress.fromStr P readers.labelError request.target with
  | ok address =>
    simp only [encryptedTarget, haddress]
    rcases h.resolved (address.toString P) with ⟨error, hresolved, hresolved'⟩ |
      ⟨path, contentId, contentId', hresolved, hresolved', hcontent⟩
    · rw [hresolved, hresolved']
      exact .inl ⟨.network error, rfl, rfl⟩
    · rw [hresolved, hresolved']
      simp only [Except.mapError, ok_bind]
      cases hpath : requireSamePath operation request.path path with
      | error error => exact .inl ⟨error, rfl, rfl⟩
      | ok _ => exact .inr ⟨path, contentId, contentId', rfl, rfl, hcontent⟩
  | error error =>
    -- the daemon is not asked
    have hsame : encryptedTarget P readers daemon' request operation =
        encryptedTarget P readers daemon request operation := by
          rw [encryptedTarget, encryptedTarget, haddress]
    rw [hsame]
    cases htarget : encryptedTarget P readers daemon request operation with
    | error error => exact .inl ⟨error, rfl, rfl⟩
    | ok target =>
      obtain ⟨contentId, path⟩ := target
      refine .inr ⟨path, contentId, contentId, rfl, rfl, fun hcovers => ⟨rfl, ?_⟩⟩
      rcases encryptedTarget_eq_ok htarget with ⟨address, hbound, -⟩ | hgiven
      · cases haddress.symm.trans hbound
      · exact h.given contentId path hgiven hcovers

theorem targetFor_congr (capabilities : List String) :
    targetFor P readers daemon' request session operation ("decrypt:" :: capabilities) =
      targetFor P readers daemon request session operation ("decrypt:" :: capabilities) := by
  have hlocal : requireLocalIdentity daemon' session = requireLocalIdentity daemon session := by
    rw [requireLocalIdentity, requireLocalIdentity, h.identityAddress]
  rw [targetFor, targetFor, hlocal]
  rcases encryptedTarget_cases h operation with ⟨error, htarget, htarget'⟩ |
    ⟨path, contentId, contentId', htarget, htarget', hcontent⟩
  · rw [htarget, htarget']
    rfl
  · rw [htarget, htarget']
    exact bind_congr fun _ => grantedTarget_congr hcontent capabilities

end

section

variable (h : ∀ session, (authenticatedSession P c.sessions authorization state.sessions).1 =
  .ok session →
  SameWithin P readers request session daemon daemon')
include h

theorem authorizedTarget_congr (operation : String) (capabilities : List String) :
    authorizedTarget P readers daemon' c authorization request operation
      ("decrypt:" :: capabilities)
        state = authorizedTarget P readers daemon c authorization request operation
          ("decrypt:" :: capabilities)
        state := by
  rw [authorizedTarget, authorizedTarget, run_bind, run_bind, onSessionStore]
  cases hsession : (authenticatedSession P c.sessions authorization state.sessions).1 with
  | error error => rfl
  | ok session =>
    simp only [check_apply, targetFor_congr (h session hsession)]

theorem same_of_authorizedTarget {operation : String} {capabilities : List String} {target : Target}
    (htarget : authorizedTarget P readers daemon c authorization request operation
      capabilities state =
      (.ok target, state')) : daemon'.identityAddress = daemon.identityAddress ∧
      daemon'.localDeviceAuthority = daemon.localDeviceAuthority := by
  obtain ⟨-, -, session, hsession, -⟩ := authorizedTarget_eq_ok htarget
  exact ⟨(h session hsession).identityAddress, (h session hsession).localDeviceAuthority⟩

theorem decryptEncrypted_congr :
    decryptEncrypted P C json readers daemon' c authorization request state =
      decryptEncrypted P C json readers daemon c authorization request state :=
  run_bind_congr (authorizedTarget_congr h "decrypt" []) fun _ _ _ => rfl

theorem openEncrypted_congr : openEncrypted P C json readers daemon' c authorization request state =
      openEncrypted P C json readers daemon c authorization request state := by
  refine run_bind_congr (authorizedTarget_congr h "open" []) fun target state₁ htarget => ?_
  rw [encryptedAccessStatus, encryptedAccessStatus, (same_of_authorizedTarget h htarget).2]

theorem rewrapEncrypted_congr :
    rewrapEncrypted P C json readers daemon' c signingKey authorization request state =
      rewrapEncrypted P C json readers daemon c signingKey authorization request state := by
  refine run_bind_congr (authorizedTarget_congr h "rewrap" ["encrypt:", "publish:encrypted:"])
    fun target state₁ htarget => ?_
  have hrecipients : resolveAppEncryptionRecipients P C readers daemon' c.keys
    ⟨P.verifyingKey signingKey⟩ [] =
        resolveAppEncryptionRecipients P C readers daemon c.keys ⟨P.verifyingKey signingKey⟩
          [] := by
    obtain ⟨hidentity, hauthority⟩ := same_of_authorizedTarget h htarget
    rw [resolveAppEncryptionRecipients, resolveAppEncryptionRecipients, hidentity, hauthority]
    rfl
  rw [hrecipients]

end

variable (plaintext : Bytes)

/-! ### Confinement -/

/-- **Decryption is confined.** A plaintext that `decrypt_encrypted` or `open_encrypted` returns,
and one that `rewrap_encrypted` encrypts again and publishes, is that of the content which the
request names, and the session may decrypt at the path where this content is bound or, for a content
identifier, at the path that the request gives. Daemons that differ only in other contents lead to
the same answers and to the same state. -/
theorem decryption_confined (P : Primitives) (C : Ciphers) (json : EnvelopeJson) (readers : Readers)
    (daemon : Daemon) (c : RouteCircumstances) (signingKey : Bytes32)
    (authorization : Option (Option String)) (request : EncryptedDecryptRequest)
    (state : AppState) :
    (∀ response state', decryptEncrypted P C json readers daemon c authorization request state =
        (.ok response, state') →
      Discloses P C json readers daemon c authorization request state response.path
        response.plaintext) ∧
    (∀ response state' plaintext, openEncrypted P C json readers daemon c authorization
      request state =
        (.ok response, state') → response.plaintext = some plaintext →
      Discloses P C json readers daemon c authorization request state response.path plaintext) ∧
    (∀ response state', rewrapEncrypted P C json readers daemon c signingKey authorization
      request state =
          (.ok response, state') →
      ∃ path plaintext contentType recipients encrypted,
        Discloses P C json readers daemon c authorization request state path plaintext ∧
        encryptObject P C json c.drawn signingKey c.keys.now plaintext contentType recipients =
          .ok encrypted ∧
        state'.published = state.published ++ [(path, encrypted.data)]) ∧
    ∀ daemon', (∀ session, (authenticatedSession P c.sessions authorization state.sessions).1 =
      .ok session →
        SameWithin P readers request session daemon daemon') →
      decryptEncrypted P C json readers daemon' c authorization request state =
          decryptEncrypted P C json readers daemon c authorization request state ∧
        openEncrypted P C json readers daemon' c authorization request state =
          openEncrypted P C json readers daemon c authorization request state ∧
        rewrapEncrypted P C json readers daemon' c signingKey authorization request state =
          rewrapEncrypted P C json readers daemon c signingKey authorization request state := by
  refine ⟨fun response state' h => ?_, fun response state' plaintext h hplaintext => ?_,
    fun response state' h => ?_, fun daemon' h =>
      ⟨decryptEncrypted_congr h, openEncrypted_congr h, rewrapEncrypted_congr h⟩⟩
  · obtain ⟨target, decrypted, hdecrypted, rfl⟩ := decryptEncrypted_eq_ok h
    exact discloses_of_decrypted hdecrypted
  · obtain ⟨target, decrypted, hdecrypted, hpath, rfl⟩ := openEncrypted_eq_ok h hplaintext
    rw [hpath]
    exact discloses_of_decrypted hdecrypted
  · obtain ⟨target, decrypted, recipients, encrypted, _, hdecrypted, -, hencrypted, hpublished⟩ :=
      rewrapEncrypted_eq_ok h
    exact ⟨target.path, decrypted.plaintext, decrypted.contentType, recipients, encrypted,
      discloses_of_decrypted hdecrypted, hencrypted, hpublished⟩

/-! ### Samples -/

def diary : EncryptedObjectEnvelope :=
  match encryptAs primitives ciphers sampleDrawn (key 0) plaintext "text/plain"
      none [ownRecipient] 5 with
  | .ok envelope => envelope
  | .error _ => ⟨sealedBody (key 0) sampleDrawn [] "" none 0 [] [], []⟩

theorem diary_eq : encryptAs primitives ciphers sampleDrawn (key 0) plaintext "text/plain"
      none [ownRecipient] 5 = .ok (diary plaintext) := by
  obtain ⟨envelope, henvelope⟩ : ∃ envelope, encryptAs primitives ciphers sampleDrawn
      (key 0) plaintext "text/plain" none [ownRecipient] 5 = .ok envelope :=
    exists_encryptAs (forall_mem_singleton.mpr (recipients_held _ mem_cons_self))
  rw [diary, henvelope]

/-- A node whose only content is the diary, bound at `/private/diary`. -/
def diaryDaemon : Daemon :=
  { identityAddress := ownerAddress
    resolve := fun address =>
      if address = ownerAddress ++ "/private/diary" then .ok ⟨"/private/diary", "diary"⟩
      else .error .timeout
    fetch := fun contentId =>
      if contentId = "diary" then .ok ⟨SampleCiphers.json.toVec (diary plaintext), 0⟩
      else .error (.contentNotFound contentId)
    localDeviceAuthority := [] }

/-- The app asks for the content of the diary, as if it were a note. -/
def readDiary : Except AppApiError EncryptedDecryptResponse × AppState :=
  decryptEncrypted primitives ciphers SampleCiphers.json friendReaders
    (diaryDaemon plaintext) rewrapCircumstances (some (some "Bearer jolt_app_1"))
    ⟨"diary", some "/notes/a"⟩ ownerState

theorem readDiary_eq : ∃ state', readDiary plaintext =
      (.ok ⟨"diary", "/notes/a", plaintext, plaintext.length.toUInt64, "text/plain"⟩, state') := by
  obtain ⟨session, sessions, hsession, hidentity, hgranted⟩ := notesSession_found
  have htarget : targetFor primitives friendReaders (diaryDaemon plaintext)
      ⟨"diary", some "/notes/a"⟩ session "decrypt" ["decrypt:"] =
        .ok ⟨"diary", "/notes/a", SampleCiphers.json.toVec (diary plaintext), 0⟩ :=
    targetFor_eq_ok.mpr ⟨requireLocalIdentity_owner hidentity rfl, rfl, forall_mem_singleton.mpr
      (requirePathCapability_notes hgranted _ mem_cons_self), rfl⟩
  have hdistinct : ([ownRecipient].map pairOf).Nodup := nodup_singleton _
  have hdecrypted : decryptObject primitives ciphers SampleCiphers.json ownerState.keys
      (SampleCiphers.json.toVec (diary plaintext)) = .ok ⟨plaintext, plaintext.length.toUInt64,
        "text/plain"⟩ := by
    simp only [decryptObject, bind_eq_ok, okOr_eq_ok, mapError_eq_ok, pure_eq_ok]
    refine ⟨nodeKey, rfl, diary plaintext, fromBytes_toVec (diary_eq plaintext), plaintext,
      decrypt_encryptAs (diary_eq plaintext) hdistinct mem_cons_self ⟨rfl, rfl, rfl, rfl, rfl⟩, ?_⟩
    rw [mediaType_of_encryptAs (diary_eq plaintext)]
  refine ⟨{ ownerState with sessions }, ?_⟩
  simp only [readDiary, decryptEncrypted, authorizedTarget, run_bind_eq_ok,
    onDecryptObject, read_bind,
    check_eq_ok, mapError_eq_ok]
  exact ⟨_, _, ⟨session, _, onSessionStore_eq_ok hsession, htarget, rfl⟩, _, _,
    ⟨hdecrypted, rfl⟩, rfl⟩

/-- An app with a grant for notes alone reads the diary by its content identifier, and what it gets
depends on what is in the diary. -/
theorem diary_read_as_note :
    ∃ session sessions, authenticatedSession primitives rewrapCircumstances.sessions
        (some (some "Bearer jolt_app_1")) ownerState.sessions = (.ok session, sessions) ∧
      (∀ plaintext address resolved, (diaryDaemon plaintext).resolve address = .ok resolved →
        ¬ Covers session resolved.path) ∧
      (∀ plaintext, (readDiary plaintext).1 =
        .ok ⟨"diary", "/notes/a", plaintext, plaintext.length.toUInt64, "text/plain"⟩) ∧
      (readDiary [1]).1 ≠ (readDiary [2]).1 := by
  obtain ⟨session, sessions, hsession, -, hgranted⟩ := notesSession_found
  have hread : ∀ plaintext, (readDiary plaintext).1 =
      .ok ⟨"diary", "/notes/a", plaintext, plaintext.length.toUInt64, "text/plain"⟩ := by
    intro plaintext
    obtain ⟨state', h⟩ := readDiary_eq plaintext
    rw [h]
  refine ⟨session, sessions, hsession, fun plaintext address resolved hresolved => ?_, hread, ?_⟩
  · have hpath : resolved.path = "/private/diary" := by
      rw [diaryDaemon] at hresolved
      dsimp only at hresolved
      split_ifs at hresolved
      cases hresolved
      rfl
    rw [hpath, covers_iff, requirePathCapability, hgranted, ensure_eq_ok]
    decide
  · rw [hread, hread]
    decide

/-- The same node with other contents besides the diary. -/
def otherDaemon : Daemon :=
  { diaryDaemon plaintext with
    fetch := fun contentId =>
      if contentId = "diary" then (diaryDaemon plaintext).fetch contentId else .ok ⟨[7], 0⟩ }

theorem otherDaemon_fetch :
    (otherDaemon plaintext).fetch "diary" = (diaryDaemon plaintext).fetch "diary" := by
  dsimp only [otherDaemon]
  rw [if_pos rfl]

/-- The diary is disclosed with the grant for the path that the request gives, and other contents
have no influence. -/
theorem diary_given_by_content : Discloses primitives ciphers SampleCiphers.json friendReaders
    (diaryDaemon [1])
        rewrapCircumstances (some (some "Bearer jolt_app_1")) ⟨"diary", some "/notes/a"⟩ ownerState
        "/notes/a" [1] ∧
      decryptEncrypted primitives ciphers SampleCiphers.json friendReaders
          (otherDaemon [1]) rewrapCircumstances (some (some "Bearer jolt_app_1"))
          ⟨"diary", some "/notes/a"⟩ ownerState = readDiary [1] := by
  obtain ⟨hdecrypt, -, -, hsame⟩ := decryption_confined primitives ciphers
    SampleCiphers.json friendReaders (diaryDaemon [1]) rewrapCircumstances (key 0)
    (some (some "Bearer jolt_app_1")) ⟨"diary", some "/notes/a"⟩ ownerState
  obtain ⟨state', hread⟩ := readDiary_eq [1]
  refine ⟨hdecrypt _ _ hread, (hsame (otherDaemon [1]) fun session _ => ?_).1⟩
  refine ⟨rfl, rfl, fun address => ?_, ?_⟩
  · by_cases haddress : address = ownerAddress ++ "/private/diary"
    · exact .inr ⟨"/private/diary", "diary", "diary", if_pos haddress, if_pos haddress, fun _ =>
        ⟨rfl, otherDaemon_fetch [1]⟩⟩
    · exact .inl ⟨.timeout, if_neg haddress, if_neg haddress⟩
  · rintro _ _ ⟨-, rfl, -⟩ -
    exact otherDaemon_fetch [1]

end Jolt.Server.Confinement

import Jolt.Server.EncryptedRoutes
import Jolt.Server.RecipientSelection
import Jolt.Server.SessionRuns

/-! # What rewrapping keeps

The object that `rewrap_encrypted` publishes has the plaintext and the content type of the old one,
is opened by the key of the node, and is encrypted for no key that only revoked devices have. But it
is made for the recipients of an empty list, the keys of the local identity: the other recipients of
the old object have no wrap in the new one (`rewrap_keeps_access_iff`). -/

namespace Jolt.Server.Rewrap

open Lib.Checks Lib.Calls.Call Jolt.Core Jolt.Core.Types Address IdentityAuthority SignedRecords
  EncryptedObject Authority.Chain Encryption Envelopes Sessions AppApi Recipients RecipientSelection
  EncryptedRoutes List EncryptedObjectEnvelope
open Sample (authorityOf owner primitives)
open SampleCiphers (bound ciphers)

variable {P : Primitives} {C : Ciphers} {json : EnvelopeJson} {readers : Readers} {daemon : Daemon}
  {c : RouteCircumstances} {signingKey : Bytes32} {authorization : Option (Option String)}
  {request : EncryptedDecryptRequest} {state state' : AppState} {identity : IdentityId}
  {authority : VerifiedIdentityAuthority} {address : JoltAddress}

/-! ### What the route does -/

def nodeIdentity (P : Primitives) (signingKey : Bytes32) : IdentityId := ⟨P.verifyingKey signingKey⟩

theorem encryptObject_eq_ok {drawn : Drawn} {now : UInt64} {plaintext : Bytes}
    {contentType : String} {recipients : List EncryptedObjectRecipient}
    {encrypted : EncryptedObjectResponse}
    (h : encryptObject P C json drawn signingKey now plaintext contentType recipients =
      .ok encrypted) :
    ∃ envelope, encryptAs P C drawn signingKey plaintext contentType none recipients now =
      .ok envelope ∧ encrypted.data = json.toVec envelope := by
  simp only [encryptObject, bind_eq_ok, mapError_eq_ok, pure_eq_ok, toBytes, Except.ok.injEq] at h
  obtain ⟨envelope, henvelope, _, rfl, rfl⟩ := h
  exact ⟨envelope, henvelope, rfl⟩

variable {privateKey : IdentityEncryptionPrivateKey}

theorem ensureLocalIdentityEncryptionKey_eq_ok {keys keys' : NodeKeys} {k : KeyCircumstances}
    {publicKey key : IdentityEncryptionKey}
    (hkeys : keys.localEncryptionKey = some (publicKey, privateKey))
    (h : ensureLocalIdentityEncryptionKey C k identity keys = (.ok key, keys')) :
    key = publicKey := by
  unfold ensureLocalIdentityEncryptionKey at h
  rw [read_bind, id, hkeys, run_bind_eq_ok] at h
  obtain ⟨_, _, hkey, h⟩ := h
  cases hkey
  split_ifs at h
  · cases h
    rfl
  · rw [run_bind_eq_ok] at h
    obtain ⟨_, _, -, h⟩ := h
    cases h
    rfl

section

variable (haddress : JoltAddress.fromStr P readers.labelError daemon.identityAddress = .ok address)
  (hchain : verifyIdentityAuthorityChain P address.identity daemon.localDeviceAuthority =
    .ok authority)
include haddress hchain

theorem resolveAppEncryptionRecipients_eq_ok {keys keys' : NodeKeys} {k : KeyCircumstances}
    {recipients : List String} {recipientKeys : List EncryptedObjectRecipient}
    (h : resolveAppEncryptionRecipients P C readers daemon k identity recipients keys =
      (.ok recipientKeys, keys')) :
    ∃ key keys₁, ensureLocalIdentityEncryptionKey C k identity keys = (.ok key, keys₁) ∧
      resolveRecipientKeys P readers daemon k.now recipients address.identity key
        (deviceRecipients address.identity authority) = .ok recipientKeys := by
  unfold resolveAppEncryptionRecipients at h
  rw [haddress, activeAuthorizedDeviceEncryptionRecipients_eq hchain, run_bind_eq_ok] at h
  obtain ⟨key, keys₁, hkey, h⟩ := h
  obtain ⟨hok, -⟩ := Prod.mk.inj hkey
  refine ⟨key, _, Prod.ext (mapError_eq_ok.mp hok) rfl, ?_⟩
  simp only [Except.mapError, check_ok_bind, check_apply] at h
  exact (Prod.mk.inj h).1

/-- **What rewrapping does, when it succeeds.** -/
theorem exists_new_of_rewrap {response : EncryptedPublishResponse}
    (h : rewrapEncrypted P C json readers daemon c signingKey authorization request state =
      (.ok response, state')) : ∃ target publicKey privateKey old plaintext recipientKeys new,
      (∃ session, targetFor P readers daemon request session "rewrap"
        ["decrypt:", "encrypt:", "publish:encrypted:"] = .ok target) ∧
      state.keys.localEncryptionKey = some (publicKey, privateKey) ∧
      fromBytes json target.fetched.data = .ok old ∧
      decryptEncryptedObjectForRecipient P C old privateKey = .ok plaintext ∧
      resolveRecipientKeys P readers daemon c.keys.now [] address.identity publicKey
        (deviceRecipients address.identity authority) = .ok recipientKeys ∧
      encryptAs P C c.drawn signingKey plaintext old.body.plaintext.mediaType none recipientKeys
        c.keys.now = .ok new ∧
      state'.published = state.published ++ [(target.path, json.toVec new)] := by
  obtain ⟨target, decrypted, recipientKeys, encrypted, keys, ⟨⟨session, -, htarget⟩, hdecrypted⟩,
    hrecipients, hencrypted, hpublished⟩ := rewrapEncrypted_eq_ok h
  obtain ⟨publicKey, privateKey, old, hkey, hold, hplaintext, htype⟩ :=
    decryptObject_eq_ok hdecrypted
  obtain ⟨key, _, hensured, hselected⟩ := resolveAppEncryptionRecipients_eq_ok haddress
    hchain hrecipients
  obtain rfl := ensureLocalIdentityEncryptionKey_eq_ok hkey hensured
  obtain ⟨new, hnew, hdata⟩ := encryptObject_eq_ok hencrypted
  rw [htype] at hnew
  rw [hdata] at hpublished
  exact ⟨target, key, privateKey, old, _, recipientKeys, new, ⟨session, htarget⟩, hkey,
    hold, hplaintext,
    hselected, hnew, hpublished⟩

end

/-! ### The recipients of the new object -/

section

variable {recipients : List String} {localIdentity : IdentityId} {localKey : IdentityEncryptionKey}
  {authority : VerifiedIdentityAuthority} {now : UInt64} {keys : List EncryptedObjectRecipient}
  (h : resolveRecipientKeys P readers daemon now [] localIdentity localKey
    (deviceRecipients localIdentity authority) = .ok keys)
include h

theorem mem_keys_iff {recipient : EncryptedObjectRecipient} :
    recipient ∈ keys ↔ recipient ∈ localKeys localIdentity localKey
      (deviceRecipients localIdentity authority) := by
  rw [← mem_local_iff h]
  refine (and_iff_left_of_imp fun hmem => ?_).symm
  by_contra hne
  exact not_mem_nil ((mem_other_iff h).mp ⟨hmem, hne⟩)

theorem nodup_pairs : (keys.map pairOf).Nodup :=
  (nodup_pairs_iff h).mpr ⟨nodup_nil, fun _ hmem => (not_mem_nil hmem).elim⟩

end

/-! ### The wraps of the new object -/

theorem exists_wrap_of_decrypt {envelope : EncryptedObjectEnvelope} {plaintext : Bytes}
    (h : decryptEncryptedObjectForRecipient P C envelope privateKey = .ok plaintext) :
    ∃ wrap ∈ envelope.body.recipients, wrap.recipientIdentity = privateKey.identity := by
  simp only [decryptEncryptedObjectForRecipient, bind_eq_ok, okOr_eq_ok] at h
  obtain ⟨_, -, _, -, wrap, hfind, -⟩ := h
  have hfor := find?_some hfind
  exact ⟨wrap, mem_of_find?_eq_some hfind, (of_decide_eq_true hfor).1⟩

/-! ### What is kept -/

/-- The daemon shows the address of the node's identity, its authority records verify for this
identity, and the private key the node has is that of its public key. -/
structure OwnNode (P : Primitives) (C : Ciphers) (readers : Readers) (daemon : Daemon)
    (signingKey : Bytes32) (keys : NodeKeys) (authority : VerifiedIdentityAuthority) : Prop where
  address : ∃ address, JoltAddress.fromStr P readers.labelError daemon.identityAddress =
    .ok address ∧
    address.identity = nodeIdentity P signingKey
  chain : verifyIdentityAuthorityChain P (nodeIdentity P signingKey) daemon.localDeviceAuthority =
    .ok authority
  keyPair : ∀ publicKey privateKey, keys.localEncryptionKey = some (publicKey, privateKey) →
    HoldsKey C privateKey ⟨nodeIdentity P signingKey, publicKey⟩

/-- Only the access of devices changes from the old object to the new one, which is encrypted for
`keys`. -/
structure KeepsAccess (P : Primitives) (C : Ciphers) (identity : IdentityId)
    (nodeKey : IdentityEncryptionKey × IdentityEncryptionPrivateKey)
    (authority : VerifiedIdentityAuthority) (old new : EncryptedObjectEnvelope)
    (keys : List EncryptedObjectRecipient) : Prop where
  plaintext : ∀ plaintext, decryptEncryptedObjectForRecipient P C old nodeKey.2 = .ok plaintext →
    decryptEncryptedObjectForRecipient P C new nodeKey.2 = .ok plaintext
  contentType : new.body.plaintext.mediaType = old.body.plaintext.mediaType
  recipients : ∀ wrap ∈ old.body.recipients, ∃ privateKey plaintext, privateKey.identity =
    wrap.recipientIdentity ∧
      decryptEncryptedObjectForRecipient P C new privateKey = .ok plaintext
  devices : ∀ active ∈ deviceRecipients identity authority, ∃ recipient ∈ keys,
    pairOf recipient = pairOf active ∧ recipient.key.publicKey = active.key.publicKey
  notRevoked : ∀ key, OnlyRevoked nodeKey.1 authority key → ∀ recipient ∈ keys,
    recipient.key.publicKey ≠ key.publicKey

section

variable {localIdentity : IdentityId} {localKey : IdentityEncryptionKey}
  {authority : VerifiedIdentityAuthority} {now : UInt64} {keys : List EncryptedObjectRecipient}
  {drawn : Drawn} {plaintext : Bytes} {mediaType : String} {schema : Option String}
  {createdAt : UInt64} {new : EncryptedObjectEnvelope}

theorem mediaType_of_encryptAs
    (hnew : encryptAs P C drawn signingKey plaintext mediaType schema keys createdAt = .ok new) :
    new.body.plaintext.mediaType = mediaType := by
  obtain ⟨_, _, -, -, hbody, -⟩ := encryptAs_eq_ok.mp hnew
  rw [hbody]
  rfl

variable (hselected : resolveRecipientKeys P readers daemon now [] localIdentity localKey
    (deviceRecipients localIdentity authority) = .ok keys)
include hselected

theorem identity_of_mem
    (hnew : encryptAs P C drawn signingKey plaintext mediaType schema keys createdAt = .ok new)
    {wrap : EncryptedObjectRecipientWrap} (hwrap : wrap ∈ new.body.recipients) :
    wrap.recipientIdentity = localIdentity := by
  obtain ⟨recipient, hmem, hidentity, -⟩ := exists_recipient_of_mem hnew hwrap
  rw [hidentity]
  exact ((mem_local_iff hselected).mpr ((mem_keys_iff hselected).mp hmem)).2

theorem devices_selected_iff :
    (∀ active ∈ deviceRecipients localIdentity authority, ∃ recipient ∈ keys,
      pairOf recipient = pairOf active ∧ recipient.key.publicKey = active.key.publicKey) ↔
      IdentifiersDetermine localKey authority := by
  rw [← @deviceKeys_selected_iff localIdentity, deviceRecipients, forall_mem_map]
  refine forall₂_congr fun key _ => ?_
  constructor
  · rintro ⟨recipient, hrecipient, hpair, hpublic⟩
    exact ⟨recipient, (mem_keys_iff hselected).mp hrecipient, congrArg Prod.snd hpair, hpublic⟩
  · rintro ⟨recipient, hrecipient, hkeyId, hpublic⟩
    have hidentity := ((mem_local_iff hselected).mpr hrecipient).2
    exact ⟨recipient, (mem_keys_iff hselected).mpr hrecipient, Prod.ext hidentity hkeyId, hpublic⟩

theorem notRevoked_of_rewrap (key : DeviceEncryptionPublicKey)
    (hkey : OnlyRevoked localKey authority key) (recipient : EncryptedObjectRecipient)
    (hrecipient : recipient ∈ keys) : recipient.key.publicKey ≠ key.publicKey := by
  have hlocal := (mem_local_iff hselected).mpr ((mem_keys_iff hselected).mp hrecipient)
  exact notRevoked_of_resolve hselected hkey hlocal.1 hlocal.2

end

variable {recipients : List EncryptedObjectRecipient} {session : AppSessionView}

/-- **What rewrapping keeps.** A rewrap that succeeds publishes at the path of the old object a new
one that the holders of the keys it is encrypted for, the node among them, open to the same
plaintext. That only the access of devices changes holds exactly if all recipients of the old object
are keys of the local identity, and the local key and the keys of the active devices do not share an
identifier. -/
theorem rewrap_keeps_access_iff {response : EncryptedPublishResponse}
    {authority : VerifiedIdentityAuthority}
    (hnode : OwnNode P C readers daemon signingKey state.keys authority)
    (h : rewrapEncrypted P C json readers daemon c signingKey authorization request state =
      (.ok response, state')) :
    ∃ target nodeKey old plaintext keys new,
      (∃ session, targetFor P readers daemon request session "rewrap"
        ["decrypt:", "encrypt:", "publish:encrypted:"] = .ok target) ∧
      state.keys.localEncryptionKey = some nodeKey ∧
      EncryptedObjectEnvelope.fromBytes json target.fetched.data = .ok old ∧
      decryptEncryptedObjectForRecipient P C old nodeKey.2 = .ok plaintext ∧
      encryptAs P C c.drawn signingKey plaintext old.body.plaintext.mediaType none keys
        c.keys.now = .ok new ∧
      state'.published = state.published ++ [(target.path, json.toVec new)] ∧
      EncryptedObjectEnvelope.fromBytes json (json.toVec new) = .ok new ∧
      (∀ recipient ∈ keys, ∀ privateKey, HoldsKey C privateKey recipient →
        decryptEncryptedObjectForRecipient P C new privateKey = .ok plaintext) ∧
      (KeepsAccess P C (nodeIdentity P signingKey) nodeKey authority old new keys ↔
        (∀ wrap ∈ old.body.recipients, wrap.recipientIdentity = nodeIdentity P signingKey) ∧
          IdentifiersDetermine nodeKey.1 authority) := by
  obtain ⟨address, haddress, hidentity⟩ := hnode.address
  have hchain := hnode.chain
  rw [← hidentity] at hchain
  obtain ⟨target, publicKey, privateKey, old, plaintext, keys, new, htarget, hkey, hold, hplaintext,
    hselected, hnew, hpublished⟩ := exists_new_of_rewrap haddress hchain h
  rw [hidentity] at hselected
  have hholds := hnode.keyPair publicKey privateKey hkey
  have hall : ∀ recipient ∈ keys, ∀ privateKey, HoldsKey C privateKey recipient →
      decryptEncryptedObjectForRecipient P C new privateKey = .ok plaintext :=
    fun recipient hmem privateKey => decrypt_encryptAs hnew (nodup_pairs hselected) hmem
  have hopens := hall _ ((mem_keys_iff hselected).mpr localKey_mem_localKeys) privateKey hholds
  refine ⟨target, (publicKey, privateKey), old, plaintext, keys, new, htarget, hkey, hold,
    hplaintext, hnew, hpublished, fromBytes_toVec hnew, hall, ?_⟩
  constructor
  · intro hkeeps
    refine ⟨fun wrap hwrap => ?_, (devices_selected_iff hselected).mp hkeeps.devices⟩
    obtain ⟨privateKey', _, hsame, hopens'⟩ := hkeeps.recipients wrap hwrap
    obtain ⟨wrap', hwrap', hidentity'⟩ := exists_wrap_of_decrypt hopens'
    rw [← hsame, ← hidentity', identity_of_mem hselected hnew hwrap']
  · rintro ⟨hlocal, hdetermine⟩
    exact
      { plaintext := fun plaintext' hplaintext' => by
          cases hplaintext.symm.trans hplaintext'
          exact hopens
        contentType := mediaType_of_encryptAs hnew
        recipients := fun wrap hwrap =>
          ⟨privateKey, plaintext, hholds.identity.trans (hlocal wrap hwrap).symm, hopens⟩
        devices := (devices_selected_iff hselected).mpr hdetermine
        notRevoked := notRevoked_of_rewrap hselected }

/-! ### Samples -/

def ownerAddress : String := primitives.identityText.text owner ++ ".jolt"

/-- Everything that rewrapping needs below `/notes/`. -/
def notesCapabilities : List String :=
  ["decrypt:/notes/*", "encrypt:/notes/*", "publish:encrypted:/notes/*"]

def notesSession : AppSessionStore :=
  let c : Circumstances := ⟨7, 0, "req_1", "", .ok ()⟩
  SessionRuns.run primitives ⟨8, 30⟩
    [.createRequest c ⟨"notes", "Notes", none, some ownerAddress, notesCapabilities⟩,
      .approveRequest { c with newId := "sess_1", newToken := "jolt_app_1" } "req_1"
        ⟨none, notesCapabilities, none⟩ "laptop"]

/-- A node with a phone, where the content `"old"` is an object for `recipients`. -/
def daemonWithObject (recipients : List EncryptedObjectRecipient) : Daemon :=
  { daemonWith "enc_phone" with
    identityAddress := ownerAddress
    fetch := fun _ => .ok ⟨SampleCiphers.json.toVec (objectFor recipients), 0⟩ }

def ownerState : AppState := ⟨notesSession, ⟨some nodeKey, true⟩, []⟩

def rewrapCircumstances : RouteCircumstances :=
  { sessions := ⟨8, 1, "", "", .ok ()⟩
    keys := ⟨8, Sample.key 0, .ok (), .ok ()⟩
    drawn := sampleDrawn
    stored := .ok ()
    publish := fun path _ => .ok ⟨"new", 0, some path, none, none⟩ }

def rewrapped (recipients : List EncryptedObjectRecipient) :
    Except AppApiError EncryptedPublishResponse × AppState :=
  rewrapEncrypted primitives ciphers SampleCiphers.json friendReaders
    (daemonWithObject recipients) rewrapCircumstances (Sample.key 0)
    (some (some "Bearer jolt_app_1"))
    ⟨"old", some "/notes/a"⟩ ownerState

theorem eq_of_fromBytes_toVec {envelope read : EncryptedObjectEnvelope}
    (h : fromBytes json (json.toVec envelope) = .ok read) : read = envelope := by
  simp only [fromBytes, bind_eq_ok, okOr_eq_ok, pure_eq_ok] at h
  obtain ⟨_, hread, _, -, _, -, rfl⟩ := h
  rw [json.fromSlice_toVec] at hread
  exact (Option.some.inj hread).symm

theorem ownNode_owner (recipients : List EncryptedObjectRecipient) :
    OwnNode primitives ciphers friendReaders (daemonWithObject recipients)
      (Sample.key 0) ownerState.keys (authorityOf [phoneWithKey "enc_phone"]) where
  address := by
    have haddress : ((JoltAddress.fromStr primitives friendReaders.labelError
        ownerAddress).toOption.map (·.identity)) = some owner := by decide +kernel
    exact exists_eq_ok_of_toOption_map haddress
  chain := phone_chain "enc_phone" (by decide +kernel)
  keyPair publicKey privateKey hkey := by
    cases hkey
    exact ⟨rfl, rfl, rfl, rfl, rfl⟩

theorem old_eq {target : Target} {old : EncryptedObjectEnvelope} {capabilities : List String}
    (htarget : ∃ session, targetFor primitives friendReaders (daemonWithObject recipients)
      ⟨"old", some "/notes/a"⟩ session "rewrap" capabilities = .ok target)
    (hold : fromBytes SampleCiphers.json target.fetched.data = .ok old) :
    old = objectFor recipients := by
  obtain ⟨session, htarget⟩ := htarget
  obtain ⟨-, -, -, hfetch⟩ := targetFor_eq_ok.mp htarget
  rw [← Except.ok.inj hfetch] at hold
  exact eq_of_fromBytes_toVec hold

def friendKey : IdentityEncryptionKey × IdentityEncryptionPrivateKey :=
  generateIdentityEncryptionKeypair ciphers (Sample.key 10).bytes friend "enc_1" 5

def ownRecipient : EncryptedObjectRecipient := ⟨owner, nodeKey.1⟩

def friendRecipient : EncryptedObjectRecipient := ⟨friend, friendKey.1⟩

theorem objectFor_eq (h : ∀ recipient ∈ recipients, isSupportedKey recipient.key ∧
      ∃ privateKey, HoldsKey ciphers privateKey recipient) :
    encryptAs primitives ciphers sampleDrawn (Sample.key 0) [1, 2, 3] "text/plain"
      none recipients 5 = .ok (objectFor recipients) := by
  obtain ⟨envelope, henvelope⟩ := exists_encryptAs (P := primitives) h
  rw [objectFor, henvelope]

theorem recipients_held : ∀ recipient ∈ [ownRecipient, friendRecipient],
    isSupportedKey recipient.key ∧ ∃ privateKey, HoldsKey ciphers privateKey recipient := by
  simp only [forall_mem_cons, not_mem_nil, false_imp_iff, implies_true, and_true]
  exact ⟨⟨by decide, nodeKey.2, ⟨rfl, rfl, rfl, rfl, rfl⟩⟩, by decide, friendKey.2,
    ⟨rfl, rfl, rfl, rfl, rfl⟩⟩

theorem notesSession_found :
    ∃ session sessions, authenticatedSession primitives rewrapCircumstances.sessions
        (some (some "Bearer jolt_app_1")) notesSession = (.ok session, sessions) ∧
      session.identity = some ownerAddress ∧ session.grantedCapabilities = notesCapabilities := by
  have hfacts : ((authenticatedSession primitives rewrapCircumstances.sessions
      (some (some "Bearer jolt_app_1")) notesSession).1.toOption.map fun session =>
        (session.identity, session.grantedCapabilities)) = some (some ownerAddress,
          notesCapabilities) := by
    decide +kernel
  obtain ⟨session, hsession, hallowed⟩ := exists_eq_ok_of_toOption_map hfacts
  exact ⟨session, _, Prod.ext hsession rfl, Prod.mk.inj hallowed⟩

theorem requireLocalIdentity_owner (h : session.identity = some ownerAddress)
    (hdaemon : daemon.identityAddress = ownerAddress) :
    requireLocalIdentity daemon session = .ok () := by
  simp only [requireLocalIdentity, bind_eq_ok, okOr_eq_ok, ensure_eq_ok]
  exact ⟨ownerAddress, h, hdaemon.symm⟩

theorem requirePathCapability_notes (h : session.grantedCapabilities = notesCapabilities) :
    ∀ capability ∈ ["decrypt:", "encrypt:", "publish:encrypted:"],
      requirePathCapability session capability "/notes/a" = .ok () := by
  simp only [requirePathCapability, ensure_eq_ok, h]
  decide

def phoneRecipient : EncryptedObjectRecipient :=
  ⟨owner, identityEncryptionKey ⟨"enc_phone", keySuiteFamily, (Sample.key 7).bytes, 5⟩⟩

theorem owner_recipients (recipients : List EncryptedObjectRecipient) :
    resolveAppEncryptionRecipients primitives ciphers friendReaders
      (daemonWithObject recipients) rewrapCircumstances.keys owner [] ownerState.keys =
        (.ok [ownRecipient, phoneRecipient], ownerState.keys) := by
  have hnode := ownNode_owner recipients
  obtain ⟨address, haddress, hidentity⟩ := hnode.address
  have hkeys : deviceRecipients owner (authorityOf [phoneWithKey "enc_phone"]) =
    [phoneRecipient] := by decide +kernel
  unfold resolveAppEncryptionRecipients
  rw [haddress, activeAuthorizedDeviceEncryptionRecipients_eq hnode.chain]
  simp only [run_bind_eq_ok, check_eq_ok, mapError_eq_ok]
  refine ⟨nodeKey.1, ownerState.keys, rfl, address, _, ⟨rfl, rfl⟩, _, _, ⟨rfl, rfl⟩, ?_, rfl⟩
  rw [hidentity]
  exact congrArg (resolveRecipientKeys _ _ _ _ _ _ _) hkeys

theorem rewrapped_eq_ok (hheld : ∀ recipient ∈ recipients, isSupportedKey recipient.key ∧
      ∃ privateKey, HoldsKey ciphers privateKey recipient)
    (hdistinct : (recipients.map pairOf).Nodup)
    (hown : ownRecipient ∈ recipients) :
    ∃ response state', rewrapped recipients = (.ok response, state') := by
  have hold := objectFor_eq hheld
  obtain ⟨session, sessions, hsession, hidentity, hgranted⟩ := notesSession_found
  have htarget : targetFor primitives friendReaders (daemonWithObject recipients)
      ⟨"old", some "/notes/a"⟩ session "rewrap" ["decrypt:", "encrypt:", "publish:encrypted:"] =
        .ok ⟨"old", "/notes/a", SampleCiphers.json.toVec (objectFor recipients), 0⟩ :=
    targetFor_eq_ok.mpr ⟨requireLocalIdentity_owner hidentity rfl, rfl,
      requirePathCapability_notes hgranted, rfl⟩
  obtain ⟨decrypted, hdecrypted⟩ : ∃ decrypted, decryptObject primitives ciphers SampleCiphers.json
    ownerState.keys
        (SampleCiphers.json.toVec (objectFor recipients)) = .ok decrypted := by
    simp only [decryptObject, bind_eq_ok, okOr_eq_ok, mapError_eq_ok]
    exact ⟨_, nodeKey, rfl, _, fromBytes_toVec hold, _, decrypt_encryptAs hold hdistinct hown
      ⟨rfl, rfl, rfl, rfl, rfl⟩, rfl⟩
  obtain ⟨new, hnew⟩ : ∃ new, encryptAs primitives ciphers sampleDrawn (Sample.key 0)
      decrypted.plaintext decrypted.contentType none [ownRecipient, phoneRecipient] 8 = .ok new :=
    exists_encryptAs (forall_mem_cons.mpr ⟨recipients_held _ mem_cons_self,
      forall_mem_singleton.mpr ⟨by decide, phonePrivateKey "enc_phone", ⟨rfl, rfl, rfl, rfl, rfl⟩⟩⟩)
  obtain ⟨encrypted, hencrypted⟩ : ∃ encrypted,
      encryptObject primitives ciphers SampleCiphers.json sampleDrawn (Sample.key 0) 8
        decrypted.plaintext decrypted.contentType [ownRecipient, phoneRecipient] =
          .ok encrypted := by
    simp only [encryptObject, bind_eq_ok, mapError_eq_ok]
    exact ⟨_, new, hnew, _, rfl, rfl⟩
  exact ⟨_, _, rewrapEncrypted_of_steps hsession htarget hdecrypted (owner_recipients recipients)
    hencrypted rfl rfl⟩

/-- An object for the node alone: the phone gets access. -/
theorem rewrap_own_object :
    ∃ response state' path new keys, rewrapped [ownRecipient] = (.ok response, state') ∧
      state'.published = [(path, SampleCiphers.json.toVec new)] ∧
      KeepsAccess primitives ciphers owner nodeKey
        (authorityOf [phoneWithKey "enc_phone"]) (objectFor [ownRecipient]) new keys := by
  have hfacts : (∀ wrap ∈ (objectFor [ownRecipient]).body.recipients,
    wrap.recipientIdentity = owner) ∧
      ∀ a ∈ nodeKey.1 :: (activeDeviceKeys (authorityOf [phoneWithKey "enc_phone"])).map
          identityEncryptionKey,
        ∀ b ∈ nodeKey.1 :: (activeDeviceKeys (authorityOf [phoneWithKey "enc_phone"])).map
            identityEncryptionKey, a.keyId = b.keyId → a.publicKey = b.publicKey := by
    decide +kernel
  obtain ⟨response, state', h⟩ := rewrapped_eq_ok
    (forall_mem_singleton.mpr (recipients_held _ mem_cons_self)) (nodup_singleton _)
    mem_cons_self
  obtain ⟨target, key, old, plaintext, keys, new, htarget, hkey, hold, -, -, hpublished, -, -,
    hkeeps⟩ := rewrap_keeps_access_iff (ownNode_owner _) h
  cases hkey
  obtain rfl := old_eq htarget hold
  exact ⟨response, state', target.path, new, keys, h, hpublished, hkeeps.mpr hfacts⟩

/-- An object for the node and the friend: the friend opens the old object, but nobody with a key of
the friend opens the new one. -/
theorem rewrap_drops_friend :
    ∃ response state' path new, rewrapped [ownRecipient, friendRecipient] = (.ok response, state') ∧
      state'.published = [(path, SampleCiphers.json.toVec new)] ∧
      decryptEncryptedObjectForRecipient primitives ciphers
        (objectFor [ownRecipient, friendRecipient]) friendKey.2 = .ok [1, 2, 3] ∧
      ∀ privateKey plaintext, privateKey.identity = friend →
        decryptEncryptedObjectForRecipient primitives ciphers new privateKey ≠
          .ok plaintext := by
  have hdistinct : ([ownRecipient, friendRecipient].map pairOf).Nodup := by decide
  obtain ⟨response, state', h⟩ := rewrapped_eq_ok recipients_held hdistinct mem_cons_self
  have hopens := decrypt_encryptAs (objectFor_eq recipients_held) hdistinct
    (mem_cons_of_mem _ mem_cons_self)
    (show HoldsKey ciphers friendKey.2 friendRecipient from ⟨rfl, rfl, rfl, rfl, rfl⟩)
  have hnode := ownNode_owner [ownRecipient, friendRecipient]
  obtain ⟨address, haddress, hidentity⟩ := hnode.address
  have hchain := hnode.chain
  rw [← hidentity] at hchain
  obtain ⟨target, publicKey, privateKey, old, plaintext, keys, new, -, -, -, -, hselected, hnew,
    hpublished⟩ := exists_new_of_rewrap haddress hchain h
  refine ⟨response, state', target.path, new, h, hpublished, hopens,
    fun key plaintext hkey hopened => ?_⟩
  obtain ⟨wrap, hwrap, hsame⟩ := exists_wrap_of_decrypt hopened
  have hne : owner ≠ friend := by decide
  exact hne (hidentity.symm.trans ((identity_of_mem hselected hnew hwrap).symm.trans
    (hsame.trans hkey)))

end Jolt.Server.Rewrap

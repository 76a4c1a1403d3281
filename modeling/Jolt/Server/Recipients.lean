import Jolt.Core.EncryptedObject
import Jolt.Core.EncryptionKeys
import Jolt.Server.AppApi

/-! # The recipients of an encrypted object

Which keys `app_api.rs` encrypts an object for: those the listed identities have published, the key
of the local identity, and the encryption keys of the devices that are active in its authority chain
(`device_authority.rs`); and what it says about an object that is already there, by comparing the
keys it was encrypted for with those of the active devices. -/

namespace Jolt.Server.Recipients

open Lib Checks Text Calls Call Jolt.Core Jolt.Core.Types Address IdentityAuthority SignedRecords
  EncryptedObject EncryptionKeys Network.DeviceWriterCache AppApi

/-! ### What the daemon answers -/

/-- The fields of `ResolveResponse` that are read here. -/
structure ResolveResponse where
  path : String
  contentId : String
deriving DecidableEq

/-- The fields of `FetchResult` that are read here. -/
structure FetchResult where
  data : Bytes
  size : UInt64
deriving DecidableEq

structure Daemon where
  /-- `status().identity_address`. -/
  identityAddress : String
  resolve : String → Except NetworkError ResolveResponse
  fetch : String → Except NetworkError FetchResult
  localDeviceAuthority : List DeviceAuthorizationRecord

/-- The texts and the errors of third-party parsers: of the label of an identity, and of the JSON of
a key record. -/
structure Readers where
  labelError : String → String
  keyRecord : Bytes → Except String IdentityEncryptionKeyRecord

def fetchErrorForTarget (error : NetworkError) (contentId : String) : NetworkError :=
  match error with
  | .providerNotFound id =>
    .discoveryFailed .contentProviderNotFound s!"No content provider found for {id}"
  | .timeout =>
      .discoveryFailed .contentFetchFailed s!"Timed out while fetching content {contentId}"
  | .verificationFailed =>
    .discoveryFailed .contentHashMismatch
      s!"Fetched content did not match requested hash {contentId}"
  | other => other

/-! ### The keys of the active devices -/

inductive DeviceAuthorityError where
  | missingLocalIdentity
  | authority (error : IdentityAuthorityError)
deriving DecidableEq

def DeviceAuthorityError.toString : DeviceAuthorityError → String
  | missingLocalIdentity => "daemon has no local identity"
  | authority error => s!"device authority verification failed: {error.toString}"

def identityEncryptionKey (key : DeviceEncryptionPublicKey) : IdentityEncryptionKey :=
  { keyId := key.keyId
    suiteFamily := key.suiteFamily
    keyType := "OKP"
    curve := "X25519"
    publicKey := key.publicKey
    createdAt := key.createdAt
    notBefore := key.createdAt
    expiresAt := none
    status := "active" }

def activeDeviceKeys (authority : VerifiedIdentityAuthority) : List DeviceEncryptionPublicKey :=
  (authority.devices.toList.filter fun row => row.2.status = .active).flatMap fun row =>
    row.2.encryptionKeys

def activeAuthorizedDeviceEncryptionRecipients (P : Primitives)
    (records : List DeviceAuthorizationRecord) :
    Except DeviceAuthorityError (List EncryptedObjectRecipient) := do
  let first ← okOr records.head? .missingLocalIdentity
  let identity := first.body.identity
  let verified ← (verifyIdentityAuthorityChain P identity records).mapError .authority
  return (activeDeviceKeys verified).map fun key => ⟨identity, identityEncryptionKey key⟩

/-! ### The keys for a list of recipients -/

/-- A recipient is given as an address or as the label of the identity. -/
def recipientIdentity (P : Primitives) (readers : Readers) (raw : String) :
    Except AppApiError IdentityId :=
  match JoltAddress.fromStr P readers.labelError raw with
  | .ok address => .ok address.identity
  | .error _ =>
    let label := (stripSuffix ".jolt" raw).getD raw
    okOr (P.identityText.parse label) (.network (.invalidInput
        s!"invalid recipient identity {raw}: {(JoltError.invalidIdentityAddress (readers.labelError label)).toString}"))

def pushUniqueRecipient (keys : List EncryptedObjectRecipient)
    (recipient : EncryptedObjectRecipient) :
    List EncryptedObjectRecipient :=
  if keys.any fun existing =>
      existing.identity = recipient.identity ∧ existing.key.keyId = recipient.key.keyId then keys
  else keys ++ [recipient]

def pushLocalRecipientKeys (keys : List EncryptedObjectRecipient) (localIdentity : IdentityId)
    (localKey : IdentityEncryptionKey) (localDeviceKeys : List EncryptedObjectRecipient) :
    List EncryptedObjectRecipient :=
  localDeviceKeys.foldl pushUniqueRecipient (pushUniqueRecipient keys ⟨localIdentity, localKey⟩)

section

variable (P : Primitives) (readers : Readers) (daemon : Daemon) (now : UInt64)

def publishedKeys (identity : IdentityId) : Except AppApiError VerifiedIdentityEncryptionKeys := do
  let address ← (JoltAddress.new identity identityEncryptionKeysPath).mapError fun error =>
    .network (.invalidInput error.toString)
  let resolved ← (daemon.resolve (address.toString P)).mapError .network
  let fetched ← (daemon.fetch resolved.contentId).mapError fun error =>
    .network (fetchErrorForTarget error resolved.contentId)
  let record ← (readers.keyRecord fetched.data).mapError fun error => .network (.invalidInput error)
  (verifyIdentityEncryptionKeyRecordForIdentity P identity record now).mapError fun error =>
    .network (.invalidInput error.toString)

/-- One turn of the loop over the recipients: the keys so far, and whether the local identity was
among the recipients. -/
def resolveRecipient (localIdentity : IdentityId) (localKey : IdentityEncryptionKey)
    (localDeviceKeys : List EncryptedObjectRecipient) (found : List EncryptedObjectRecipient × Bool)
    (recipient : String) : Except AppApiError (List EncryptedObjectRecipient × Bool) := do
  let identity ← recipientIdentity P readers recipient
  if identity = localIdentity then
    return (pushLocalRecipientKeys found.1 localIdentity localKey localDeviceKeys, true)
  else do
    let verified ← publishedKeys P readers daemon now identity
    return (found.1 ++ verified.keys.map fun key => ⟨identity, key⟩, found.2)

def resolveRecipientKeys (recipients : List String) (localIdentity : IdentityId)
    (localKey : IdentityEncryptionKey) (localDeviceKeys : List EncryptedObjectRecipient) :
    Except AppApiError (List EncryptedObjectRecipient) := do
  let (keys, includesLocalIdentity) ← recipients.foldlM
    (resolveRecipient P readers daemon now localIdentity localKey localDeviceKeys) ([], false)
  return if includesLocalIdentity then keys
    else pushLocalRecipientKeys keys localIdentity localKey localDeviceKeys

end

/-! ### The key of the local identity -/

structure NodeKeys where
  localEncryptionKey : Option (IdentityEncryptionKey × IdentityEncryptionPrivateKey)
  localEncryptionKeyPublished : Bool

/-- What a call gets from outside: the time, the private key it draws, how saving the key pair ends,
and how publishing the record of the key ends. -/
structure KeyCircumstances where
  now : UInt64
  drawn : Bytes32
  saved : Except NetworkError Unit
  published : Except NetworkError Unit

def localKeyId : String := "enc_x25519_local_v0"

/-- The key pair is made, saved and published once. -/
def ensureLocalIdentityEncryptionKey (C : Ciphers) (c : KeyCircumstances) (identity : IdentityId) :
    Call NodeKeys NetworkError IdentityEncryptionKey := do
  let keys ← read id
  let publicKey ← match keys.localEncryptionKey with
    | some (publicKey, _) => pure publicKey
    | none => do
      let pair := generateIdentityEncryptionKeypair C c.drawn.bytes identity localKeyId c.now
      check c.saved
      write fun keys => { keys with localEncryptionKey := some pair }
      pure pair.1
  if keys.localEncryptionKeyPublished then return publicKey
  else do
    check c.published
    write fun keys => { keys with localEncryptionKeyPublished := true }
    return publicKey

/-- The failure of a call on the node is the failure of the route. -/
def onNode {α : Type} (call : Call NodeKeys NetworkError α) :
    Call NodeKeys AppApiError α := fun keys =>
  ((call keys).1.mapError .network, (call keys).2)

/-- `identity` is the identity of the node. -/
def resolveAppEncryptionRecipients (P : Primitives) (C : Ciphers) (readers : Readers)
    (daemon : Daemon) (c : KeyCircumstances) (identity : IdentityId) (recipients : List String) :
    Call NodeKeys AppApiError (List EncryptedObjectRecipient) := do
  let localKey ← onNode (ensureLocalIdentityEncryptionKey C c identity)
  let localAddress ← check
    ((JoltAddress.fromStr P readers.labelError daemon.identityAddress).mapError
    fun error => .network (.protocol error.toString))
  let localDeviceKeys ← check
    ((activeAuthorizedDeviceEncryptionRecipients P daemon.localDeviceAuthority).mapError
      fun error =>
      .network (.protocol error.toString))
  check (resolveRecipientKeys P readers daemon c.now recipients localAddress.identity localKey
    localDeviceKeys)

/-! ### The status of an object -/

inductive EncryptedAccessStatus where
  | available
  | needsRewrap
  | notAccessible
deriving DecidableEq

/-- Whether the object has a wrap under the identity and the key identifier. -/
def hasWrapFor (envelope : EncryptedObjectEnvelope) (active : EncryptedObjectRecipient) : Bool :=
  envelope.body.recipients.any fun recipient =>
    recipient.recipientIdentity = active.identity ∧ recipient.recipientKeyId = active.key.keyId

def encryptedAccessStatus (P : Primitives) (json : EnvelopeJson) (daemon : Daemon)
    (encryptedObject : Bytes) : Except AppApiError EncryptedAccessStatus := do
  let envelope ← (EncryptedObjectEnvelope.fromBytes json encryptedObject).mapError fun error =>
    .network (.invalidInput error.toString)
  let activeDeviceRecipients ←
    (activeAuthorizedDeviceEncryptionRecipients P daemon.localDeviceAuthority).mapError fun error =>
      .network (.protocol error.toString)
  return if activeDeviceRecipients.any (!hasWrapFor envelope ·) then .needsRewrap else .available

end Jolt.Server.Recipients

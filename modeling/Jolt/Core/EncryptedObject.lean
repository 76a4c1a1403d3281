import Jolt.Core.SignedRecords

/-! # Encrypted objects

The envelope of `encrypted_object.rs`. The content is sealed once under a fresh key with
ChaCha20-Poly1305, and this key is wrapped for every recipient with HPKE; the author signs the whole
body. A recipient verifies the signature, looks for its wrap, opens it, and opens the content. What
is bound as associated data is written out by two functions that both sides call. -/

namespace Jolt.Core.EncryptedObject

open Lib.Checks Jolt.Core.Types Encoding SignedRecords

/-! ### Third-party functions -/

/-- The ciphers: ChaCha20-Poly1305, and HPKE in base mode over X25519. Opening gives back what was
sealed under the same key, nonce and associated data; sealing does not fail for keys of the right
length. -/
structure Ciphers where
  /-- `ChaCha20Poly1305::encrypt`: key, nonce, associated data, message. -/
  aeadEncrypt : Bytes → Bytes → Bytes → Bytes → Option Bytes
  /-- `ChaCha20Poly1305::decrypt`: key, nonce, associated data, ciphertext. -/
  aeadDecrypt : Bytes → Bytes → Bytes → Bytes → Option Bytes
  /-- Whether `PublicKey::from_bytes` accepts the bytes. -/
  publicKeyFromBytes : Bytes → Bool
  /-- Whether `PrivateKey::from_bytes` accepts the bytes. -/
  privateKeyFromBytes : Bytes → Bool
  /-- Whether `EncappedKey::from_bytes` accepts the bytes. -/
  encappedKeyFromBytes : Bytes → Bool
  /-- The public key of a private key. -/
  publicKeyOf : Bytes → Bytes
  /-- `single_shot_seal`: randomness, public key, info, message, associated data. -/
  hpkeSeal : Bytes → Bytes → Bytes → Bytes → Bytes → Option (Bytes × Bytes)
  /-- `single_shot_open`: private key, encapped key, info, ciphertext, associated data. -/
  hpkeOpen : Bytes → Bytes → Bytes → Bytes → Bytes → Option Bytes
  encrypt_isSome : ∀ key nonce aad message, key.length = 32 → nonce.length = 12 →
    (aeadEncrypt key nonce aad message).isSome = true
  decrypt_encrypt : ∀ key nonce aad message ciphertext,
    aeadEncrypt key nonce aad message = some ciphertext →
      aeadDecrypt key nonce aad ciphertext = some message
  length_publicKeyOf : ∀ privateKey, privateKey.length = 32 → (publicKeyOf privateKey).length = 32
  publicKeyFromBytes_publicKeyOf : ∀ privateKey, privateKey.length = 32 →
    publicKeyFromBytes (publicKeyOf privateKey) = true
  privateKeyFromBytes_of_length : ∀ privateKey, privateKey.length = 32 →
    privateKeyFromBytes privateKey = true
  hpkeSeal_isSome : ∀ seed privateKey info message aad, privateKey.length = 32 →
    (hpkeSeal seed (publicKeyOf privateKey) info message aad).isSome = true
  hpkeOpen_hpkeSeal : ∀ seed privateKey info message aad encappedKey ciphertext,
    privateKey.length = 32 →
    hpkeSeal seed (publicKeyOf privateKey) info message aad = some (encappedKey, ciphertext) →
    encappedKeyFromBytes encappedKey = true ∧ hpkeOpen privateKey encappedKey info ciphertext aad =
      some message

/-! ### Constants and errors -/

def suiteId : String := "jolt.enc.v1.x25519-hkdf-sha256-chacha20poly1305.ed25519"
def recordType : String := "jolt.encrypted_object"
def recordVersion : UInt16 := 1
def contentAlg : String := "CHACHA20-POLY1305"
def wrapAlg : String := "HPKE-BASE-X25519-HKDF-SHA256-CHACHA20POLY1305"
def keySuiteFamily : String := "x25519-hkdf-sha256"
def keyType : String := "OKP"
def keyCurve : String := "X25519"
def keyStatusActive : String := "active"
def contentAadDomain : Bytes := asBytes "jolt:encrypted-object-content-aad:v1\x00"
def wrapAadDomain : Bytes := asBytes "jolt:recipient-content-key-wrap-aad:v1\x00"
def hpkeInfo : Bytes := asBytes "jolt:hpke-content-key-wrap:v1"
def publicKeyLen : ℕ := 32
def privateKeyLen : ℕ := 32
def signatureLen : ℕ := 64
def contentNonceLen : ℕ := 12

inductive EncryptedObjectError where
  | invalidAuthorPublicKey
  | authorIdentityMismatch
  | invalidSignatureLength
  | invalidSignature
  | unsupportedSuite
  | unsupportedRecordType
  | unsupportedVersion
  | unsupportedRecipientKey
  | recipientNotFound
  | invalidRecipientPrivateKey
  | decryptionFailed
  | encryptionFailed
  | invalidContentNonce
  | invalidEncoding
deriving DecidableEq

def EncryptedObjectError.toString : EncryptedObjectError → String
  | invalidAuthorPublicKey => "author public key must be 32 bytes"
  | authorIdentityMismatch => "author identity does not match author public key"
  | invalidSignatureLength => "signature must be 64 bytes"
  | invalidSignature => "invalid signature"
  | unsupportedSuite => "encrypted object suite is not supported"
  | unsupportedRecordType => "encrypted object record type is not supported"
  | unsupportedVersion => "encrypted object version is not supported"
  | unsupportedRecipientKey => "recipient encryption key is not supported"
  | recipientNotFound => "recipient private key does not match a recipient wrap"
  | invalidRecipientPrivateKey => "recipient private key must be 32 bytes"
  | decryptionFailed => "encrypted object decryption failed"
  | encryptionFailed => "encrypted object encryption failed"
  | invalidContentNonce => "encrypted object content nonce is invalid"
  | invalidEncoding => "encrypted object encoding is invalid"

/-! ### Keys and envelopes -/

structure IdentityEncryptionPrivateKey where
  identity : IdentityId
  keyId : String
  suiteFamily : String
  privateKey : Bytes
deriving DecidableEq

structure EncryptedObjectRecipient where
  identity : IdentityId
  key : IdentityEncryptionKey
deriving DecidableEq

structure EncryptedObjectEnvelope where
  body : EncryptedObjectBody
  signature : Bytes
deriving DecidableEq

/-- `serde_json` on envelopes: what is written is read back. -/
structure EnvelopeJson where
  toVec : EncryptedObjectEnvelope → Bytes
  fromSlice : Bytes → Option EncryptedObjectEnvelope
  fromSlice_toVec : ∀ envelope, fromSlice (toVec envelope) = some envelope

/-- `generate_identity_encryption_keypair`, for the private key that is drawn. -/
def generateIdentityEncryptionKeypair (C : Ciphers) (privateKey : Bytes) (identity : IdentityId)
    (keyId : String) (createdAt : UInt64) : IdentityEncryptionKey × IdentityEncryptionPrivateKey :=
  ({ keyId
     suiteFamily := keySuiteFamily
     keyType := keyType
     curve := keyCurve
     publicKey := C.publicKeyOf privateKey
     createdAt
     notBefore := createdAt
     expiresAt := none
     status := keyStatusActive },
    { identity, keyId, suiteFamily := keySuiteFamily, privateKey })

/-! ### Associated data -/

section

variable (P : Primitives)

def contentAad (authorIdentity : IdentityId) (plaintext : EncryptedObjectPlaintext)
    (contentEncryption : EncryptedObjectContentEncryption) (createdAt : UInt64) : Bytes :=
  contentAadDomain ++ putString suiteId ++ putString (P.identityToString authorIdentity) ++
    putString plaintext.mediaType ++ putOptional putString plaintext.schema ++
    u64Bytes plaintext.declaredSize ++ putString contentEncryption.alg ++ u64Bytes createdAt

def wrapAad (authorIdentity recipientIdentity : IdentityId) (recipientKeyId : String) : Bytes :=
  wrapAadDomain ++ putString suiteId ++ putString (P.identityToString authorIdentity) ++
    putString (P.identityToString recipientIdentity) ++ putString recipientKeyId ++
      putString wrapAlg

/-! ### Checks -/

def validateAuthorIdentity (authorPublicKey : Bytes) (authorIdentity : IdentityId) :
    Except EncryptedObjectError Unit := do
  ensure (authorPublicKey.length = publicKeyLen) .invalidAuthorPublicKey
  let publicKey ← okOr (Bytes32.ofBytes? authorPublicKey) .invalidAuthorPublicKey
  ensure (IdentityId.fromPublicKey publicKey = authorIdentity) .authorIdentityMismatch

def validateBody (body : EncryptedObjectBody) : Except EncryptedObjectError Unit := do
  ensure (body.recordType = recordType) .unsupportedRecordType
  ensure (body.version = recordVersion) .unsupportedVersion
  ensure (body.suiteId = suiteId) .unsupportedSuite
  ensure (body.contentEncryption.alg = contentAlg) .unsupportedSuite
  ensure (body.contentEncryption.nonce.length = contentNonceLen) .invalidContentNonce
  validateAuthorIdentity body.author.publicKey body.author.identity

def isSupportedKey (key : IdentityEncryptionKey) : Prop :=
  key.suiteFamily = keySuiteFamily ∧ key.keyType = keyType ∧ key.curve = keyCurve ∧
    key.publicKey.length = publicKeyLen ∧ key.status = keyStatusActive

instance (key : IdentityEncryptionKey) : Decidable (isSupportedKey key) := by
  unfold isSupportedKey
  infer_instance

def validateRecipientKey (key : IdentityEncryptionKey) : Except EncryptedObjectError Unit :=
  ensure (isSupportedKey key) .unsupportedRecipientKey

def validatePrivateKey (key : IdentityEncryptionPrivateKey) : Except EncryptedObjectError Unit := do
  ensure (key.suiteFamily = keySuiteFamily) .unsupportedRecipientKey
  ensure (key.privateKey.length = privateKeyLen) .invalidRecipientPrivateKey

def validateSignatureLen (signature : Bytes) : Except EncryptedObjectError Unit :=
  ensure (signature.length = signatureLen) .invalidSignatureLength

def verifySignature (publicKey payload signature : Bytes) : Except EncryptedObjectError Unit := do
  ensure (publicKey.length = publicKeyLen) .invalidAuthorPublicKey
  validateSignatureLen signature
  ensure (P.keyFromBytes publicKey = true) .invalidAuthorPublicKey
  ensure (P.verifyStrict publicKey payload signature = true) .invalidSignature

def EncryptedObjectEnvelope.verifySignature (envelope : EncryptedObjectEnvelope) :
    Except EncryptedObjectError Unit := do
  validateBody envelope.body
  EncryptedObject.verifySignature P envelope.body.author.publicKey
    (envelope.body.canonicalBytes P) envelope.signature

/-! ### Encryption -/

/-- What encryption draws: the content key, the nonce, and the randomness of each wrap. -/
structure Drawn where
  contentKey : Bytes32
  nonce : Bytes
  length_nonce : nonce.length = contentNonceLen
  seeds : ℕ → Bytes

variable (C : Ciphers)

/-- One turn of the loop over the recipients. -/
def wrapContentKey (authorIdentity : IdentityId) (contentKey seed : Bytes)
    (recipient : EncryptedObjectRecipient) :
    Except EncryptedObjectError EncryptedObjectRecipientWrap := do
  validateRecipientKey recipient.key
  ensure (C.publicKeyFromBytes recipient.key.publicKey = true) .unsupportedRecipientKey
  let (encappedKey, wrappedKey) ← okOr
    (C.hpkeSeal seed recipient.key.publicKey hpkeInfo contentKey
      (wrapAad P authorIdentity recipient.identity recipient.key.keyId)) .encryptionFailed
  return { recipientIdentity := recipient.identity
           recipientKeyId := recipient.key.keyId
           wrapAlg := wrapAlg
           encappedKey
           wrappedKey }

/-- The loop over the recipients; the seeds are used in turn. -/
def wrapAll (authorIdentity : IdentityId) (contentKey : Bytes) :
    (ℕ → Bytes) → List EncryptedObjectRecipient → Except EncryptedObjectError
    (List EncryptedObjectRecipientWrap)
  | _, [] => .ok []
  | seeds, recipient :: recipients => do
    let wrap ← wrapContentKey P C authorIdentity contentKey (seeds 0) recipient
    let wraps ← wrapAll authorIdentity contentKey (fun i => seeds (i + 1)) recipients
    return wrap :: wraps

def EncryptedObjectEnvelope.encrypt (drawn : Drawn) (authorPublicKey : Bytes)
    (authorIdentity : IdentityId) (plaintext : Bytes) (mediaType : String) (schema : Option String)
    (recipients : List EncryptedObjectRecipient) (createdAt : UInt64) (signer : Bytes → Bytes) :
    Except EncryptedObjectError EncryptedObjectEnvelope := do
  validateAuthorIdentity authorPublicKey authorIdentity
  let plaintextMeta : EncryptedObjectPlaintext :=
    { mediaType, schema, declaredSize := plaintext.length.toUInt64 }
  let contentEncryption : EncryptedObjectContentEncryption := ⟨contentAlg, drawn.nonce⟩
  let ciphertext ← okOr
    (C.aeadEncrypt drawn.contentKey.bytes drawn.nonce
      (contentAad P authorIdentity plaintextMeta contentEncryption createdAt) plaintext)
    .encryptionFailed
  let wraps ← wrapAll P C authorIdentity drawn.contentKey.bytes drawn.seeds recipients
  let body : EncryptedObjectBody :=
    { recordType := recordType
      version := recordVersion
      suiteId := suiteId
      author := ⟨authorIdentity, authorPublicKey⟩
      plaintext := plaintextMeta
      contentEncryption
      ciphertext
      recipients := wraps
      createdAt }
  let signature := signer (body.canonicalBytes P)
  validateSignatureLen signature
  return ⟨body, signature⟩

/-! ### Decryption -/

def EncryptedObjectRecipientWrap.isFor (key : IdentityEncryptionPrivateKey)
    (wrap : EncryptedObjectRecipientWrap) : Bool :=
  wrap.recipientIdentity = key.identity ∧ wrap.recipientKeyId = key.keyId

def decryptEncryptedObjectForRecipient (envelope : EncryptedObjectEnvelope)
    (recipientKey : IdentityEncryptionPrivateKey) : Except EncryptedObjectError Bytes := do
  envelope.verifySignature P
  validatePrivateKey recipientKey
  let recipient ← okOr
    (envelope.body.recipients.find? (EncryptedObjectRecipientWrap.isFor recipientKey))
    .recipientNotFound
  ensure (C.privateKeyFromBytes recipientKey.privateKey = true) .invalidRecipientPrivateKey
  ensure (C.encappedKeyFromBytes recipient.encappedKey = true) .decryptionFailed
  let contentKey ← okOr
    (C.hpkeOpen recipientKey.privateKey recipient.encappedKey hpkeInfo recipient.wrappedKey
      (wrapAad P envelope.body.author.identity recipient.recipientIdentity
        recipient.recipientKeyId))
    .decryptionFailed
  ensure (contentKey.length = 32) .decryptionFailed
  okOr (C.aeadDecrypt contentKey envelope.body.contentEncryption.nonce
      (contentAad P envelope.body.author.identity envelope.body.plaintext
        envelope.body.contentEncryption envelope.body.createdAt) envelope.body.ciphertext)
    .decryptionFailed

end

/-! ### Serialization -/

def EncryptedObjectEnvelope.toBytes (json : EnvelopeJson) (envelope : EncryptedObjectEnvelope) :
    Except EncryptedObjectError Bytes :=
  .ok (json.toVec envelope)

def EncryptedObjectEnvelope.fromBytes (json : EnvelopeJson) (bytes : Bytes) :
    Except EncryptedObjectError EncryptedObjectEnvelope := do
  let envelope ← okOr (json.fromSlice bytes) .invalidEncoding
  validateBody envelope.body
  validateSignatureLen envelope.signature
  return envelope

end Jolt.Core.EncryptedObject

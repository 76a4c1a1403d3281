import Jolt.Core.SignedRecords

/-! # Records of encryption keys

`identity_encryption_key.rs`: an identity publishes its encryption keys in a record that it signs. A
reader takes the keys of the record that it supports and that are valid at the time. -/

namespace Jolt.Core.EncryptionKeys

open Lib.Checks Jolt.Core.Types SignedRecords

def identityEncryptionKeysPath : String := "/.well-known/jolt/encryption-keys"
def recordType : String := "jolt.identity_encryption_keys"
def recordVersion : UInt16 := 1
def supportedSuiteFamily : String := "x25519-hkdf-sha256"
def supportedKeyType : String := "OKP"
def supportedCurve : String := "X25519"
def activeStatus : String := "active"
def publicKeyLen : ℕ := 32
def signatureLen : ℕ := 64

inductive IdentityEncryptionKeyRecordError where
  | invalidOwnerPublicKey
  | invalidSignatureLength
  | invalidSignature
  | identityMismatch
  | unsupportedRecordType
  | unsupportedRecordVersion
  | invalidEncryptionPublicKey
  | invalidKeyValidityRange
  | noUsableKeys
deriving DecidableEq

def IdentityEncryptionKeyRecordError.toString : IdentityEncryptionKeyRecordError → String
  | invalidOwnerPublicKey => "owner public key must be 32 bytes"
  | invalidSignatureLength => "signature must be 64 bytes"
  | invalidSignature => "invalid signature"
  | identityMismatch => "record identity does not match owner public key"
  | unsupportedRecordType => "record type is not supported"
  | unsupportedRecordVersion => "record version is not supported"
  | invalidEncryptionPublicKey => "encryption key public key must be 32 bytes"
  | invalidKeyValidityRange => "encryption key validity range is invalid"
  | noUsableKeys => "record has no usable encryption keys"

structure IdentityEncryptionKeyRecord where
  body : IdentityEncryptionKeyRecordBody
  signature : Bytes
deriving DecidableEq

structure VerifiedIdentityEncryptionKeys where
  identity : IdentityId
  latestSequence : UInt64
  keys : List IdentityEncryptionKey
deriving DecidableEq

variable (P : Primitives)

def validateOwnerPublicKey (publicKey : Bytes) : Except IdentityEncryptionKeyRecordError Unit :=
  ensure (publicKey.length = publicKeyLen) .invalidOwnerPublicKey

def validateSignatureLen (signature : Bytes) : Except IdentityEncryptionKeyRecordError Unit :=
  ensure (signature.length = signatureLen) .invalidSignatureLength

def validateKeyShape (key : IdentityEncryptionKey) :
    Except IdentityEncryptionKeyRecordError Unit := do
  ensure (key.publicKey.length = publicKeyLen) .invalidEncryptionPublicKey
  ensure (key.expiresAt.all (key.notBefore < ·) = true) .invalidKeyValidityRange

def validateBody (body : IdentityEncryptionKeyRecordBody) :
    Except IdentityEncryptionKeyRecordError Unit := do
  ensure (body.recordType = recordType) .unsupportedRecordType
  ensure (body.version = recordVersion) .unsupportedRecordVersion
  validateOwnerPublicKey body.ownerPublicKey
  let ownerPublicKey ← okOr (Bytes32.ofBytes? body.ownerPublicKey) .invalidOwnerPublicKey
  ensure (IdentityId.fromPublicKey ownerPublicKey = body.identity) .identityMismatch
  body.keys.forM validateKeyShape

def isUsableKey (key : IdentityEncryptionKey) (now : UInt64) : Bool :=
  key.suiteFamily = supportedSuiteFamily ∧ key.keyType = supportedKeyType ∧
    key.curve = supportedCurve ∧ key.publicKey.length = publicKeyLen ∧ key.status = activeStatus ∧
    key.notBefore ≤ now ∧ key.expiresAt.all (now < ·) = true

def verifySignature (ownerPublicKey payload signature : Bytes) :
    Except IdentityEncryptionKeyRecordError Unit := do
  validateOwnerPublicKey ownerPublicKey
  validateSignatureLen signature
  ensure (P.keyFromBytes ownerPublicKey = true) .invalidOwnerPublicKey
  ensure (P.verifyStrict ownerPublicKey payload signature = true) .invalidSignature

def verifyIdentityEncryptionKeyRecordForIdentity (identity : IdentityId)
    (record : IdentityEncryptionKeyRecord) (now : UInt64) :
    Except IdentityEncryptionKeyRecordError VerifiedIdentityEncryptionKeys := do
  validateBody record.body
  ensure (record.body.identity = identity) .identityMismatch
  verifySignature P record.body.ownerPublicKey (record.body.canonicalBytes P) record.signature
  let keys := record.body.keys.filter (isUsableKey · now)
  ensure (keys ≠ []) .noUsableKeys
  return { identity := record.body.identity, latestSequence := record.body.sequence, keys }

theorem keys_ne_nil_of_verify {P : Primitives} {identity : IdentityId}
    {record : IdentityEncryptionKeyRecord} {now : UInt64}
    {verified : VerifiedIdentityEncryptionKeys}
    (h : verifyIdentityEncryptionKeyRecordForIdentity P identity record now = .ok verified) :
    verified.keys ≠ [] := by
  simp only [verifyIdentityEncryptionKeyRecordForIdentity, bind_eq_ok, ensure_eq_ok,
    pure_eq_ok] at h
  obtain ⟨_, -, _, -, _, -, _, hne, rfl⟩ := h
  exact hne

end Jolt.Core.EncryptionKeys

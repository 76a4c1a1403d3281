import Jolt.Core.Encoding
import Jolt.Lib.Checks

/-! # Device authority chains

The root-signed chain of `identity_authority.rs` that says which devices may write for an identity.
A record authorizes a device with its keys or revokes it, optionally with the last device sequence
that stays accepted. `verifyIdentityAuthorityChain` checks a whole chain and folds its operations
into the table of devices. -/

namespace Jolt.Core.IdentityAuthority

open Std Lib.Checks Jolt.Core.Types Encoding

def domainSeparator : Bytes := asBytes "jolt:identity-authority-record:v1\x00"

def recordType : String := "jolt.identity_authority_record"

def identityAuthorityPath : String := "/.well-known/jolt/device-authority"

def recordVersion : UInt16 := 1

def publicKeyLen : ℕ := 32

def signatureLen : ℕ := 64

inductive IdentityAuthorityError where
  | emptyChain
  | invalidRootPublicKey
  | invalidDeviceSigningPublicKey
  | invalidDeviceEncryptionPublicKey
  | invalidSignatureLength
  | invalidSignature
  | identityMismatch
  | unsupportedRecordType
  | unsupportedRecordVersion
  | invalidGenesisSequence
  | genesisHasPreviousHash
  | outOfOrderSequence (index : ℕ) (expected : ℕ) (actual : UInt64)
  | rootChanged (index : ℕ)
  | brokenPreviousHash (index : ℕ)
  | emptyDeviceId
  | unknownDeviceRevocation (deviceId : String)
deriving DecidableEq, Repr

def IdentityAuthorityError.toString : IdentityAuthorityError → String
  | emptyChain => "authority chain is empty"
  | invalidRootPublicKey => "root public key must be 32 bytes"
  | invalidDeviceSigningPublicKey => "device signing public key must be 32 bytes"
  | invalidDeviceEncryptionPublicKey => "device encryption public key must be 32 bytes"
  | invalidSignatureLength => "signature must be 64 bytes"
  | invalidSignature => "invalid signature"
  | identityMismatch => "record identity does not match root public key"
  | unsupportedRecordType => "record type is not supported"
  | unsupportedRecordVersion => "record version is not supported"
  | invalidGenesisSequence => "genesis authority record must have sequence 0"
  | genesisHasPreviousHash => "genesis authority record must not have a previous record hash"
  | outOfOrderSequence index expected actual =>
    s!"authority record at index {index} has sequence {actual}, expected {expected}"
  | rootChanged index => s!"authority record at index {index} changes root public key"
  | brokenPreviousHash index =>
    s!"authority record at index {index} has a broken previous-record hash"
  | emptyDeviceId => "device id is required"
  | unknownDeviceRevocation deviceId => s!"cannot revoke unknown device {deviceId}"

structure DeviceAuthorizationRecordHash where
  bytes : Bytes32
deriving DecidableEq

structure DeviceEncryptionPublicKey where
  keyId : String
  suiteFamily : String
  publicKey : Bytes
  createdAt : UInt64
deriving DecidableEq

inductive DeviceAuthorizationOperation where
  | authorizeDevice (deviceId : String) (deviceSigningPublicKey : Bytes)
      (deviceEncryptionKeys : List DeviceEncryptionPublicKey) (capabilities : List String)
      (label : Option String) (createdAt : UInt64)
  | revokeDevice (deviceId : String) (acceptedThroughDeviceSequence : Option UInt64)
      (reason : Option String) (createdAt : UInt64)
deriving DecidableEq

structure DeviceAuthorizationRecordBody where
  recordType : String
  version : UInt16
  rootPublicKey : Bytes
  identity : IdentityId
  sequence : UInt64
  previousRecordHash : Option DeviceAuthorizationRecordHash
  operation : DeviceAuthorizationOperation
  issuedAt : UInt64
deriving DecidableEq

structure DeviceAuthorizationRecord where
  body : DeviceAuthorizationRecordBody
  signature : Bytes
deriving DecidableEq

inductive AuthorizedDeviceStatus where
  | active
  | revoked
deriving DecidableEq, Repr

structure AuthorizedDevice where
  deviceId : String
  signingPublicKey : Bytes
  encryptionKeys : List DeviceEncryptionPublicKey
  capabilities : List String
  label : Option String
  status : AuthorizedDeviceStatus
  authorizedAt : UInt64
  revokedAt : Option UInt64
  revocationReason : Option String
  acceptedThroughDeviceSequence : Option UInt64
deriving DecidableEq

structure VerifiedIdentityAuthority where
  identity : IdentityId
  latestSequence : UInt64
  devices : ExtTreeMap String AuthorizedDevice

/-! ### Canonical bytes -/

def DeviceEncryptionPublicKey.encode (key : DeviceEncryptionPublicKey) : Bytes :=
  putString key.keyId ++ putString key.suiteFamily ++ putBytes key.publicKey ++
    u64Bytes key.createdAt

def DeviceAuthorizationOperation.encode : DeviceAuthorizationOperation → Bytes
  | authorizeDevice deviceId deviceSigningPublicKey deviceEncryptionKeys capabilities
      label createdAt =>
    [0] ++ putString deviceId ++ putBytes deviceSigningPublicKey ++
      putVec DeviceEncryptionPublicKey.encode deviceEncryptionKeys ++
        putVec putString capabilities ++
      putOptionalString label ++ u64Bytes createdAt
  | revokeDevice deviceId acceptedThroughDeviceSequence reason createdAt =>
    [1] ++ putString deviceId ++ putOptional u64Bytes acceptedThroughDeviceSequence ++
      putOptionalString reason ++ u64Bytes createdAt

section

variable (P : Primitives) (rootPublicKey : Bytes) (identity : IdentityId)
  (record : DeviceAuthorizationRecord) (body : DeviceAuthorizationRecordBody)

def DeviceAuthorizationRecordBody.canonicalBytes : Bytes :=
  domainSeparator ++ putString body.recordType ++ u16Bytes body.version ++
    putBytes body.rootPublicKey ++ putString (P.identityToString body.identity) ++
    u64Bytes body.sequence ++ putOptional (·.bytes.bytes) body.previousRecordHash ++
    body.operation.encode ++ u64Bytes body.issuedAt

def DeviceAuthorizationRecord.recordHash : DeviceAuthorizationRecordHash :=
    ⟨P.blake3 (record.body.canonicalBytes P)⟩

/-! ### Checks -/

def validateDeviceId (deviceId : String) : Except IdentityAuthorityError Unit :=
  ensure (trimIsEmpty deviceId = false) .emptyDeviceId

def validateRootPublicKey (publicKey : Bytes) : Except IdentityAuthorityError Unit :=
  ensure (publicKey.length = publicKeyLen) .invalidRootPublicKey

def validateDeviceSigningPublicKey (publicKey : Bytes) : Except IdentityAuthorityError Unit :=
  ensure (publicKey.length = publicKeyLen) .invalidDeviceSigningPublicKey

def validateDeviceEncryptionKey (key : DeviceEncryptionPublicKey) :
    Except IdentityAuthorityError Unit :=
  ensure (key.publicKey.length = publicKeyLen) .invalidDeviceEncryptionPublicKey

def validateSignatureLen (signature : Bytes) : Except IdentityAuthorityError Unit :=
  ensure (signature.length = signatureLen) .invalidSignatureLength

def validateOperation : DeviceAuthorizationOperation → Except IdentityAuthorityError Unit
  | .authorizeDevice deviceId deviceSigningPublicKey deviceEncryptionKeys _ _ _ => do
    validateDeviceId deviceId
    validateDeviceSigningPublicKey deviceSigningPublicKey
    deviceEncryptionKeys.forM validateDeviceEncryptionKey
  | .revokeDevice deviceId _ _ _ => validateDeviceId deviceId

def validateBody : Except IdentityAuthorityError Unit := do
  ensure (body.recordType = recordType) .unsupportedRecordType
  ensure (body.version = recordVersion) .unsupportedRecordVersion
  validateRootPublicKey body.rootPublicKey
  let rootPublicKey ← okOr (Bytes32.ofBytes? body.rootPublicKey) .invalidRootPublicKey
  ensure (IdentityId.fromPublicKey rootPublicKey = body.identity) .identityMismatch
  validateOperation body.operation

def verifySignature (payload signature : Bytes) : Except IdentityAuthorityError Unit := do
  validateRootPublicKey rootPublicKey
  validateSignatureLen signature
  ensure (P.keyFromBytes rootPublicKey) .invalidRootPublicKey
  ensure (P.verifyStrict rootPublicKey payload signature) .invalidSignature

def DeviceAuthorizationRecord.verifySignature (record : DeviceAuthorizationRecord) :
    Except IdentityAuthorityError Unit :=
  IdentityAuthority.verifySignature P record.body.rootPublicKey
    (record.body.canonicalBytes P) record.signature

/-! ### Making records -/

def DeviceAuthorizationRecord.signBody (signer : Bytes → Bytes) :
    Except IdentityAuthorityError DeviceAuthorizationRecord := do
  validateBody body
  let signature := signer (body.canonicalBytes P)
  validateSignatureLen signature
  return ⟨body, signature⟩

def DeviceAuthorizationRecord.genesis (operation : DeviceAuthorizationOperation) (issuedAt : UInt64)
    (signer : Bytes → Bytes) : Except IdentityAuthorityError DeviceAuthorizationRecord :=
  signBody P
    { recordType
      version := recordVersion
      rootPublicKey
      identity
      sequence := 0
      previousRecordHash := none
      operation
      issuedAt } signer

def DeviceAuthorizationRecord.append (operation : DeviceAuthorizationOperation) (issuedAt : UInt64)
    (signer : Bytes → Bytes) : Except IdentityAuthorityError DeviceAuthorizationRecord :=
  signBody P
    { recordType
      version := recordVersion
      rootPublicKey := record.body.rootPublicKey
      identity := record.body.identity
      sequence := record.body.sequence + 1
      previousRecordHash := some (record.recordHash P)
      operation
      issuedAt } signer

/-! ### Chains -/

def applyOperation (devices : ExtTreeMap String AuthorizedDevice) :
    DeviceAuthorizationOperation → Except IdentityAuthorityError
      (ExtTreeMap String AuthorizedDevice)
  | .authorizeDevice deviceId deviceSigningPublicKey deviceEncryptionKeys capabilities label
      createdAt => do
    validateDeviceId deviceId
    validateDeviceSigningPublicKey deviceSigningPublicKey
    deviceEncryptionKeys.forM validateDeviceEncryptionKey
    return devices.insert deviceId
      { deviceId
        signingPublicKey := deviceSigningPublicKey
        encryptionKeys := deviceEncryptionKeys
        capabilities
        label
        status := .active
        authorizedAt := createdAt
        revokedAt := none
        revocationReason := none
        acceptedThroughDeviceSequence := none }
  | .revokeDevice deviceId acceptedThroughDeviceSequence reason createdAt => do
    validateDeviceId deviceId
    let device ← okOr devices[deviceId]? (.unknownDeviceRevocation deviceId)
    return devices.insert deviceId
      { device with
        status := .revoked
        revokedAt := some createdAt
        revocationReason := reason
        acceptedThroughDeviceSequence }

/-- What the loop over the records carries: the devices and the hash of the record before. -/
structure ChainState where
  devices : ExtTreeMap String AuthorizedDevice
  previousHash : Option DeviceAuthorizationRecordHash

/-- The place of a record in the chain: its sequence and the hash of the record before. -/
def verifyPosition (s : ChainState) (index : ℕ) (record : DeviceAuthorizationRecord) :
    Except IdentityAuthorityError Unit :=
  if index = 0 then do
    ensure (record.body.sequence = 0) .invalidGenesisSequence
    ensure (record.body.previousRecordHash = none) .genesisHasPreviousHash
  else do
    ensure (record.body.sequence.toNat = index)
      (.outOfOrderSequence index index record.body.sequence)
    ensure (record.body.previousRecordHash = s.previousHash) (.brokenPreviousHash index)

/-- One turn of the loop, at record `index`. -/
def verifyRecord (rootPublicKey : Bytes) (s : ChainState) (index : ℕ)
    (record : DeviceAuthorizationRecord) :
    Except IdentityAuthorityError ChainState := do
  validateBody record.body
  ensure (record.body.identity = identity) .identityMismatch
  ensure (record.body.rootPublicKey = rootPublicKey) (.rootChanged index)
  record.verifySignature P
  verifyPosition s index record
  let devices ← applyOperation s.devices record.body.operation
  return { devices, previousHash := some (record.recordHash P) }

/-- The loop over the records from `index` on. -/
def verifyRecords (identity : IdentityId) (rootPublicKey : Bytes) :
    ChainState → ℕ → List DeviceAuthorizationRecord → Except IdentityAuthorityError ChainState
  | s, _, [] => .ok s
  | s, index, record :: records => do
    let s ← verifyRecord P identity rootPublicKey s index record
    verifyRecords identity rootPublicKey s (index + 1) records

def verifyIdentityAuthorityChain (records : List DeviceAuthorizationRecord) :
    Except IdentityAuthorityError VerifiedIdentityAuthority :=
  match records with
  | [] => .error .emptyChain
  | first :: rest => do
    let s ← verifyRecords P identity first.body.rootPublicKey ⟨∅, none⟩ 0 (first :: rest)
    return { identity
             latestSequence := ((first :: rest).getLast (by simp)).body.sequence
             devices := s.devices }

def VerifiedIdentityAuthority.deviceCanWrite (authority : VerifiedIdentityAuthority)
    (deviceId : String) (deviceSequence : UInt64) : Bool :=
  match authority.devices[deviceId]? with
  | none => false
  | some device =>
    match device.status with
    | .active => true
    | .revoked =>
      match device.acceptedThroughDeviceSequence with
      | some accepted => deviceSequence ≤ accepted
      | none => false

end

end Jolt.Core.IdentityAuthority

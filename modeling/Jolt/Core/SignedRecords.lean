import Jolt.Core.UpdateLog

/-! # The other signed records

What is signed of an encrypted object (`encrypted_object.rs`), of the records an identity publishes
about itself, reachability (`reachability.rs`), encryption keys (`identity_encryption_key.rs`) and
head hints (`identity_head_hint.rs`), and of the messages around relays, pin requests
(`pin_request.rs`) and relay records (`relay_record.rs`): the body of each, and the bytes that are
signed. -/

namespace Jolt.Core.SignedRecords

open Jolt.Core.Types Encoding UpdateLog

variable (P : Primitives)

/-! ### Encrypted objects -/

structure EncryptedObjectAuthor where
  identity : IdentityId
  publicKey : Bytes
deriving DecidableEq

structure EncryptedObjectPlaintext where
  mediaType : String
  schema : Option String
  declaredSize : UInt64
deriving DecidableEq

structure EncryptedObjectContentEncryption where
  alg : String
  nonce : Bytes
deriving DecidableEq

structure EncryptedObjectRecipientWrap where
  recipientIdentity : IdentityId
  recipientKeyId : String
  wrapAlg : String
  encappedKey : Bytes
  wrappedKey : Bytes
deriving DecidableEq

structure EncryptedObjectBody where
  recordType : String
  version : UInt16
  suiteId : String
  author : EncryptedObjectAuthor
  plaintext : EncryptedObjectPlaintext
  contentEncryption : EncryptedObjectContentEncryption
  ciphertext : Bytes
  recipients : List EncryptedObjectRecipientWrap
  createdAt : UInt64
deriving DecidableEq

def EncryptedObjectBody.domainSeparator : Bytes := asBytes "jolt:encrypted-object-envelope:v1\x00"

def EncryptedObjectRecipientWrap.encode (recipient : EncryptedObjectRecipientWrap) : Bytes :=
  putString (P.identityToString recipient.recipientIdentity) ++
    putString recipient.recipientKeyId ++
    putString recipient.wrapAlg ++ putBytes recipient.encappedKey ++ putBytes recipient.wrappedKey

def EncryptedObjectBody.canonicalBytes (body : EncryptedObjectBody) : Bytes :=
  domainSeparator ++ putString body.recordType ++ u16Bytes body.version ++ putString body.suiteId ++
    putString (P.identityToString body.author.identity) ++ putBytes body.author.publicKey ++
    putString body.plaintext.mediaType ++ putOptional putString body.plaintext.schema ++
    u64Bytes body.plaintext.declaredSize ++ putString body.contentEncryption.alg ++
    putBytes body.contentEncryption.nonce ++ putBytes body.ciphertext ++
    putVec (EncryptedObjectRecipientWrap.encode P) body.recipients ++ u64Bytes body.createdAt

/-! ### Reachability -/

structure LiveReachabilityEndpoint where
  transport : String
  peerId : String
  addresses : List String
  relayHints : List String
  protocols : List String
  maxPayloadBytes : UInt64
deriving DecidableEq

structure OfflineIngressEndpoint where
  transport : String
  relay : String
  endpoint : String
  requiresInviteToken : Bool
  maxObjectBytes : UInt64
  maxObjectsPerSenderPerHour : UInt64
deriving DecidableEq

structure ReachabilityRecordBody where
  recordType : String
  version : UInt16
  ownerPublicKey : Bytes
  identity : IdentityId
  sequenceHint : UInt64
  issuedAt : UInt64
  expiresAt : UInt64
  live : List LiveReachabilityEndpoint
  offlineIngress : List OfflineIngressEndpoint
deriving DecidableEq

def ReachabilityRecordBody.domainSeparator : Bytes := asBytes "jolt:reachability-record:v1\x00"

def LiveReachabilityEndpoint.encode (endpoint : LiveReachabilityEndpoint) : Bytes :=
  putString endpoint.transport ++ putString endpoint.peerId ++ putStringVec endpoint.addresses ++
    putStringVec endpoint.relayHints ++ putStringVec endpoint.protocols ++
    u64Bytes endpoint.maxPayloadBytes

def OfflineIngressEndpoint.encode (endpoint : OfflineIngressEndpoint) : Bytes :=
  putString endpoint.transport ++ putString endpoint.relay ++ putString endpoint.endpoint ++
    [endpoint.requiresInviteToken.toUInt8] ++ u64Bytes endpoint.maxObjectBytes ++
    u64Bytes endpoint.maxObjectsPerSenderPerHour

def ReachabilityRecordBody.canonicalBytes (body : ReachabilityRecordBody) : Bytes :=
  domainSeparator ++ putString body.recordType ++ u16Bytes body.version ++
    putBytes body.ownerPublicKey ++ putString (P.identityToString body.identity) ++
    u64Bytes body.sequenceHint ++ u64Bytes body.issuedAt ++ u64Bytes body.expiresAt ++
    putVec LiveReachabilityEndpoint.encode body.live ++
    putVec OfflineIngressEndpoint.encode body.offlineIngress

/-! ### Encryption keys -/

structure IdentityEncryptionKey where
  keyId : String
  suiteFamily : String
  keyType : String
  curve : String
  publicKey : Bytes
  createdAt : UInt64
  notBefore : UInt64
  expiresAt : Option UInt64
  status : String
deriving DecidableEq

structure IdentityEncryptionKeyRecordBody where
  recordType : String
  version : UInt16
  ownerPublicKey : Bytes
  identity : IdentityId
  keys : List IdentityEncryptionKey
  sequence : UInt64
  issuedAt : UInt64
deriving DecidableEq

def IdentityEncryptionKeyRecordBody.domainSeparator : Bytes :=
  asBytes "jolt:identity-encryption-key-record:v1\x00"

def IdentityEncryptionKey.encode (key : IdentityEncryptionKey) : Bytes :=
  putString key.keyId ++ putString key.suiteFamily ++ putString key.keyType ++
    putString key.curve ++
    putBytes key.publicKey ++ u64Bytes key.createdAt ++ u64Bytes key.notBefore ++
    putOptional u64Bytes key.expiresAt ++ putString key.status

def IdentityEncryptionKeyRecordBody.canonicalBytes (body : IdentityEncryptionKeyRecordBody) :
    Bytes :=
  domainSeparator ++ putString body.recordType ++ u16Bytes body.version ++
    putBytes body.ownerPublicKey ++ putString (P.identityToString body.identity) ++
    putVec IdentityEncryptionKey.encode body.keys ++ u64Bytes body.sequence ++
      u64Bytes body.issuedAt

/-! ### Head hints -/

structure IdentityHeadHintBody where
  ownerPublicKey : Bytes
  identity : IdentityId
  providerPeerId : String
  providerAddrs : List String
  relayHint : Option String
  latestSequence : UInt64
  updateLogHead : UpdateLogEntryHash
  observedAt : UInt64
  expiresAt : UInt64
deriving DecidableEq

def IdentityHeadHintBody.domainSeparator : Bytes := asBytes "jolt:identity-head-hint:v1\x00"

def IdentityHeadHintBody.canonicalBytes (body : IdentityHeadHintBody) : Bytes :=
  domainSeparator ++ putBytes body.ownerPublicKey ++ putString (P.identityToString body.identity) ++
    putString body.providerPeerId ++ putVec putString body.providerAddrs ++
    putOptional putString body.relayHint ++ u64Bytes body.latestSequence ++
    body.updateLogHead.bytes.bytes ++ u64Bytes body.observedAt ++ u64Bytes body.expiresAt

/-! ### Pin requests -/

structure PinRequestBody where
  ownerPublicKey : Bytes
  contentId : ContentId
  updateLogContentId : Option ContentId
deriving DecidableEq

def PinRequestBody.domainSeparator : Bytes := asBytes "jolt:pin-request:v1\x00"

def PinRequestBody.canonicalBytes (body : PinRequestBody) : Bytes :=
  domainSeparator ++ putBytes body.ownerPublicKey ++ putString
    (P.contentIdToString body.contentId) ++
    putOptional (fun contentId => putString (P.contentIdToString contentId)) body.updateLogContentId

/-! ### Relay records -/

inductive RelayRecordCapability where
  | bootstrap
  | discovery
  | pinning
deriving DecidableEq, Repr

def RelayRecordCapability.encode : RelayRecordCapability → UInt8
  | bootstrap => 0
  | discovery => 1
  | pinning => 2

structure RelayRecordBody where
  relayId : IdentityId
  relayPublicKey : Bytes
  peerId : String
  addrs : List String
  capabilities : List RelayRecordCapability
  observedAt : UInt64
  expiresAt : UInt64
deriving DecidableEq

def RelayRecordBody.domainSeparator : Bytes := asBytes "jolt:relay-record:v1\x00"

def RelayRecordBody.canonicalBytes (body : RelayRecordBody) : Bytes :=
  domainSeparator ++ putString (P.identityToString body.relayId) ++ putBytes body.relayPublicKey ++
    putString body.peerId ++ putVec putString body.addrs ++
    putVec (fun capability => [capability.encode]) body.capabilities ++ u64Bytes body.observedAt ++
    u64Bytes body.expiresAt

end Jolt.Core.SignedRecords

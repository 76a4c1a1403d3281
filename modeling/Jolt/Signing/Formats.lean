import Jolt.Core.DeviceWriterLog
import Jolt.Core.SignedRecords
import Jolt.Signing.Fields

/-! # The formats of the signed bodies

For each signed record: that the lengths its encoder writes fit in a `u64` (`AuthorizationFits` and
its like), and what stands behind the domain separator as an encoding (`authorizationFields`) that
writes what the encoder of the source writes and reads back every body whose lengths fit.

The entry of a device writer log is the only body that is not self-delimiting. Its observed heads
come last and are left out when there are none. -/

namespace Jolt.Signing.Formats

open Lib.Encodings Lib.Encodings.Encoding Jolt.Core Jolt.Core.Types Encoding IdentityAuthority
  DeviceWriterLog UpdateLog SignedRecords Fields

variable (P : Primitives)

/-! ### Device authorizations -/

def EncryptionKeyFits (key : DeviceEncryptionPublicKey) : Prop :=
  StringFits key.keyId ∧ StringFits key.suiteFamily ∧ BytesFit key.publicKey

def OperationFits : DeviceAuthorizationOperation → Prop
  | .authorizeDevice deviceId deviceSigningPublicKey deviceEncryptionKeys capabilities label _ =>
    StringFits deviceId ∧ BytesFit deviceSigningPublicKey ∧
      VecFits EncryptionKeyFits deviceEncryptionKeys ∧
      VecFits StringFits capabilities ∧ ∀ text ∈ label, StringFits text
  | .revokeDevice deviceId _ reason _ => StringFits deviceId ∧ ∀ text ∈ reason, StringFits text

def AuthorizationFits (body : DeviceAuthorizationRecordBody) : Prop :=
  StringFits body.recordType ∧ BytesFit body.rootPublicKey ∧
    StringFits (P.identityToString body.identity) ∧ OperationFits body.operation

def encryptionKeyFields : Codec UInt8 DeviceEncryptionPublicKey :=
  (pair stringField <| pair stringField <| pair bytesField u64Field).iso
    (fun key => (key.keyId, key.suiteFamily, key.publicKey, key.createdAt))
    (fun (a, b, c, d) => ⟨a, b, c, d⟩) (fun _ => rfl) (fun _ => rfl)

theorem encode_encryptionKeyFields :
    encryptionKeyFields.encode = DeviceEncryptionPublicKey.encode := by
  funext key
  simp [encryptionKeyFields, DeviceEncryptionPublicKey.encode]

theorem fits_encryptionKeyFields : encryptionKeyFields.Fits = EncryptionKeyFits := by
  funext key
  simp [encryptionKeyFields, EncryptionKeyFits]

def operationTag : DeviceAuthorizationOperation → UInt8
  | .authorizeDevice .. => 0
  | .revokeDevice .. => 1

def authorizeFields : Codec UInt8 DeviceAuthorizationOperation :=
  (pair stringField <| pair bytesField <| pair (vecField encryptionKeyFields) <|
      pair (vecField stringField) <| pair (optionalField stringField) u64Field).variant
    (fun (a, b, c, d, e, f) => .authorizeDevice a b c d e f)
    (fun | .authorizeDevice a b c d e f => some (a, b, c, d, e, f) | .revokeDevice .. => none)
    (fun _ => rfl) (by rintro (_ | _) _ ⟨⟩; rfl)

def revokeFields : Codec UInt8 DeviceAuthorizationOperation :=
  (pair stringField <| pair (optionalField u64Field) <| pair (optionalField stringField)
    u64Field).variant
    (fun (a, b, c, d) => .revokeDevice a b c d)
    (fun | .authorizeDevice .. => none | .revokeDevice a b c d => some (a, b, c, d))
    (fun _ => rfl) (by rintro (_ | _) _ ⟨⟩; rfl)

def operationFields : Codec UInt8 DeviceAuthorizationOperation :=
  dispatch one operationTag
    (fun tag => if tag = 0 then authorizeFields else if tag = 1 then revokeFields else fail) <| by
      intro tag operation h
      split_ifs at h with h0 h1
      · obtain ⟨_, rfl⟩ := variant_fits_mk h
        exact h0.symm
      · obtain ⟨_, rfl⟩ := variant_fits_mk h
        exact h1.symm
      · exact h.elim

theorem encode_operationFields : operationFields.encode = DeviceAuthorizationOperation.encode := by
  funext operation
  cases operation <;> simp [operationFields, operationTag, DeviceAuthorizationOperation.encode,
    authorizeFields,
      revokeFields, encode_encryptionKeyFields, putOptionalString]

theorem fits_operationFields : operationFields.Fits = OperationFits := by
  funext operation
  cases operation <;>
    simp [operationFields, operationTag, OperationFits, authorizeFields, revokeFields,
      fits_encryptionKeyFields]

def recordHashField : Codec UInt8 DeviceAuthorizationRecordHash :=
  bytes32Field.iso (·.bytes) (⟨·⟩) (fun _ => rfl) (fun _ => rfl)

theorem encode_recordHashField : recordHashField.encode = (·.bytes.bytes) := rfl

theorem fits_recordHashField (hash : DeviceAuthorizationRecordHash) :
    recordHashField.Fits hash := trivial

def authorizationFields : Codec UInt8 DeviceAuthorizationRecordBody :=
  (pair stringField <| pair u16Field <| pair bytesField <| pair (identityField P) <|
    pair u64Field <|
      pair (optionalField recordHashField) <| pair operationFields u64Field).iso
    (fun body => (body.recordType, body.version, body.rootPublicKey, body.identity, body.sequence,
      body.previousRecordHash, body.operation, body.issuedAt))
    (fun (a, b, c, d, e, f, g, h) => ⟨a, b, c, d, e, f, g, h⟩) (fun _ => rfl) (fun _ => rfl)

theorem encode_authorizationFields (body : DeviceAuthorizationRecordBody) :
    body.canonicalBytes P = Core.IdentityAuthority.domainSeparator ++
      (authorizationFields P).encode body := by
  simp [DeviceAuthorizationRecordBody.canonicalBytes, authorizationFields, encode_operationFields,
    encode_recordHashField]

theorem fits_authorizationFields : (authorizationFields P).Fits = AuthorizationFits P := by
  funext body
  simp [AuthorizationFits, authorizationFields, fits_operationFields, fits_recordHashField]

/-! ### Device writer entries -/

def WriterOperationFits : DeviceWriterOperation → Prop
  | .setPath path contentId _ => StringFits path ∧ StringFits (P.contentIdToString contentId)
  | .tombstonePath path => StringFits path

def WriterEntryFits (body : DeviceWriterLogEntryBody) : Prop :=
  StringFits body.recordType ∧ StringFits (P.identityToString body.identity) ∧
    StringFits body.deviceId ∧ WriterOperationFits P body.operation ∧
    body.observedHeads.length < 2 ^ 64

def modeByte : DeviceWriterPathMode → UInt8
  | .singleton => 0
  | .append => 1

def modeField : Codec UInt8 DeviceWriterPathMode :=
  (one.enum modeByte (by rintro (_ | _) (_ | _) h <;> simp_all [modeByte]) [.singleton, .append]
    (by rintro (_ | _) <;> simp)).total fun _ => trivial

theorem encode_modeField : modeField.encode = fun mode => [modeByte mode] := rfl

theorem fits_modeField (mode : DeviceWriterPathMode) : modeField.Fits mode := trivial

def writerOperationTag : DeviceWriterOperation → UInt8
  | .setPath .. => 0
  | .tombstonePath .. => 1

def writerSetPathFields : Codec UInt8 DeviceWriterOperation :=
  (pair stringField <| pair (contentIdField P) modeField).variant (fun (a, b, c) => .setPath a b c)
    (fun | .setPath a b c => some (a, b, c) | .tombstonePath .. => none)
    (fun _ => rfl) (by rintro (_ | _) _ ⟨⟩; rfl)

def writerTombstoneFields : Codec UInt8 DeviceWriterOperation :=
  stringField.variant .tombstonePath (fun | .setPath .. => none | .tombstonePath a => some a)
    (fun _ => rfl) (by rintro (_ | _) _ ⟨⟩; rfl)

def writerOperationFields : Codec UInt8 DeviceWriterOperation :=
  dispatch one writerOperationTag (fun tag =>
      if tag = 0 then writerSetPathFields P else if tag = 1 then writerTombstoneFields
        else fail) <| by
      intro tag operation h
      split_ifs at h with h0 h1
      · obtain ⟨_, rfl⟩ := variant_fits_mk h
        exact h0.symm
      · obtain ⟨_, rfl⟩ := variant_fits_mk h
        exact h1.symm
      · exact h.elim

theorem encode_writerOperationFields :
    (writerOperationFields P).encode = DeviceWriterOperation.encode P := by
  funext operation
  cases operation with
  | setPath path contentId mode =>
    cases mode <;> simp [writerOperationFields, writerOperationTag, DeviceWriterOperation.encode,
        writerSetPathFields, encode_modeField, modeByte]
  | tombstonePath path =>
    simp [writerOperationFields, writerOperationTag, DeviceWriterOperation.encode,
      writerTombstoneFields]

theorem fits_writerOperationFields : (writerOperationFields P).Fits = WriterOperationFits P := by
  funext operation
  cases operation <;> simp [writerOperationFields, writerOperationTag, WriterOperationFits,
    writerSetPathFields,
      writerTombstoneFields, fits_modeField]

def entryHashField : Codec UInt8 DeviceWriterLogEntryHash :=
  bytes32Field.iso (·.bytes) (⟨·⟩) (fun _ => rfl) (fun _ => rfl)

theorem encode_entryHashField : entryHashField.encode = (·.bytes.bytes) := rfl

theorem fits_entryHashField (hash : DeviceWriterLogEntryHash) : entryHashField.Fits hash := trivial

def literal (word : Bytes) : Codec UInt8 Unit :=
  (take word.length).comap (fun _ => word)
  (fun w => if w = word then some () else none) fun w u => by
    simp [eq_comm]

/-- The extension with the observed heads, when it is there. -/
def extensionFields : Codec UInt8 (List DeviceWriterLogEntryHash) :=
  (pair (literal observedHeadsSeparator) (vecField entryHashField)).iso (fun heads => ((), heads))
    (·.2) (fun _ => rfl) (fun _ => rfl)

theorem encode_extensionFields_ne_nil (heads : List DeviceWriterLogEntryHash) :
    extensionFields.encode heads ≠ [] := by
  have hlen : ((vecField entryHashField).encode heads).length ≠ 0 := by simp [putVec, lenBytes]
  intro h
  have happend : observedHeadsSeparator ++ (vecField entryHashField).encode heads = [] := h
  rw [List.append_eq_nil_iff] at happend
  exact hlen (by rw [happend.2]; rfl)

def writerEntryFields : Format UInt8 DeviceWriterLogEntryBody :=
  (pair stringField <| pair u16Field <| pair (identityField P) <| pair stringField <|
    pair u64Field <|
      pair (optionalField entryHashField) <| pair (writerOperationFields P) <| pair u64Field <|
      omitted extensionFields [] fun heads _ => encode_extensionFields_ne_nil heads).iso
    (fun body => (body.recordType, body.version, body.identity, body.deviceId, body.deviceSequence,
      body.previousEntryHash, body.operation, body.createdAt, body.observedHeads))
    (fun (a, b, c, d, e, f, g, h, i) => ⟨a, b, c, d, e, f, g, h, i⟩) (fun _ => rfl) (fun _ => rfl)

theorem encode_writerEntryFields (body : DeviceWriterLogEntryBody) :
    body.canonicalBytes P = Core.DeviceWriterLog.domainSeparator ++
      (writerEntryFields P).encode body := by
  simp [DeviceWriterLogEntryBody.canonicalBytes, writerEntryFields, encode_writerOperationFields,
    encode_entryHashField, observedHeadsBytes, extensionFields, literal, take]

theorem fits_writerEntryFields : (writerEntryFields P).Fits = WriterEntryFits P := by
  funext body
  have hheads : (body.observedHeads ≠ [] → extensionFields.Fits body.observedHeads) ↔
      body.observedHeads.length < 2 ^ 64 := by
    by_cases hnil : body.observedHeads = []
    · simp [hnil]
    · simp [hnil, extensionFields, literal, take, VecFits, fits_entryHashField]
  rw [WriterEntryFits, ← hheads]
  simp [writerEntryFields, fits_writerOperationFields, fits_entryHashField]

/-! ### Update log entries -/

def RelayHintFits (relay : RelayHint) : Prop :=
  StringFits (P.identityToString relay.identity) ∧ StringFits relay.peerId ∧
    VecFits StringFits relay.addresses ∧ relay.capabilities.length < 2 ^ 64

def ActionFits : UpdateAction → Prop
  | .publishContent contentId => StringFits (P.contentIdToString contentId)
  | .updateRoot contentId => StringFits (P.contentIdToString contentId)
  | .updateProfile profile =>
    (∀ text ∈ profile.displayName, StringFits text) ∧ (∀ text ∈ profile.bio, StringFits text) ∧
      ∀ contentId ∈ profile.avatar, StringFits (P.contentIdToString contentId)
  | .setPath path contentId => StringFits path ∧ StringFits (P.contentIdToString contentId)
  | .removePath path => StringFits path
  | .setReachability relays => VecFits (RelayHintFits P) relays

def UpdateFits (body : UpdateLogEntryBody) : Prop := BytesFit body.ownerPublicKey ∧
    ActionFits P body.action

def capabilityField : Codec UInt8 RelayCapability :=
  (one.enum RelayCapability.toByte (by rintro (_ | _ | _) (_ | _ | _) h <;>
    simp_all [RelayCapability.toByte])
    [.discovery, .pinning, .serving] (by rintro (_ | _ | _) <;> simp)).total fun _ => trivial

theorem encode_capabilityField : capabilityField.encode = fun capability =>
    [capability.toByte] := rfl

theorem fits_capabilityField (capability : RelayCapability) :
    capabilityField.Fits capability := trivial

def relayHintFields : Codec UInt8 RelayHint :=
  (pair (identityField P) <| pair stringField <| pair (vecField stringField) <|
      pair (vecField capabilityField) (optionalField u64Field)).iso
    (fun relay => (relay.identity, relay.peerId, relay.addresses, relay.capabilities,
      relay.expiresAt))
    (fun (a, b, c, d, e) => ⟨a, b, c, d, e⟩) (fun _ => rfl) (fun _ => rfl)

theorem encode_relayHintFields : (relayHintFields P).encode = RelayHint.encode P := by
  funext relay
  simp [relayHintFields, RelayHint.encode, encode_capabilityField]

theorem fits_relayHintFields : (relayHintFields P).Fits = RelayHintFits P := by
  funext relay
  simp [relayHintFields, RelayHintFits, fits_capabilityField, VecFits]

def profileFields : Codec UInt8 UpdateProfile :=
  (pair (optionalField stringField) <| pair (optionalField stringField)
    (optionalField (contentIdField P))).iso
    (fun profile => (profile.displayName, profile.bio, profile.avatar))
    (fun (a, b, c) => ⟨a, b, c⟩) (fun _ => rfl) (fun _ => rfl)

def actionTag : UpdateAction → UInt8
  | .publishContent .. => 0
  | .updateRoot .. => 1
  | .updateProfile .. => 2
  | .setPath .. => 3
  | .removePath .. => 4
  | .setReachability .. => 5

def actionVariant (tag : UInt8) : Codec UInt8 UpdateAction :=
  if tag = 0 then (contentIdField P).variant .publishContent
    (fun | .publishContent a => some a | _ => none) (fun _ => rfl) (by rintro (_ | _) _ ⟨⟩; rfl)
  else if tag = 1 then (contentIdField P).variant .updateRoot
    (fun | .updateRoot a => some a | _ => none) (fun _ => rfl) (by rintro (_ | _) _ ⟨⟩; rfl)
  else if tag = 2 then (profileFields P).variant .updateProfile
    (fun | .updateProfile a => some a | _ => none) (fun _ => rfl) (by rintro (_ | _) _ ⟨⟩; rfl)
  else if tag = 3 then (pair stringField (contentIdField P)).variant (fun (a, b) => .setPath a b)
    (fun | .setPath a b => some (a, b) | _ => none) (fun _ => rfl) (by rintro (_ | _) _ ⟨⟩; rfl)
  else if tag = 4 then stringField.variant .removePath
    (fun | .removePath a => some a | _ => none) (fun _ => rfl) (by rintro (_ | _) _ ⟨⟩; rfl)
  else if tag = 5 then (vecField (relayHintFields P)).variant .setReachability
    (fun | .setReachability a => some a | _ => none) (fun _ => rfl) (by rintro (_ | _) _ ⟨⟩; rfl)
  else fail

theorem actionTag_of_fits {tag : UInt8} {action : UpdateAction}
    (h : (actionVariant P tag).Fits action) : actionTag action = tag := by
  unfold actionVariant at h
  split_ifs at h with h0 h1 h2 h3 h4 h5
  all_goals first
    | exact h.elim
    | obtain ⟨_, rfl⟩ := variant_fits_mk h
      exact Eq.symm ‹_›

def actionFields : Codec UInt8 UpdateAction :=
  dispatch one actionTag (actionVariant P) fun _ _ => actionTag_of_fits P

theorem encode_actionFields : (actionFields P).encode = UpdateAction.encode P := by
  funext action
  cases action with
  | updateProfile profile =>
    cases h : profile.avatar <;> simp [actionFields, actionVariant, actionTag, UpdateAction.encode,
      profileFields,
        putOptionalString, putOptional, h]
  | _ =>
    simp [actionFields, actionVariant, actionTag, UpdateAction.encode, encode_relayHintFields]

theorem fits_actionFields : (actionFields P).Fits = ActionFits P := by
  funext action
  cases action <;> simp [actionFields, actionVariant, actionTag, ActionFits, profileFields,
    fits_relayHintFields]

def updateHashField : Codec UInt8 UpdateLogEntryHash :=
  bytes32Field.iso (·.bytes) (⟨·⟩) (fun _ => rfl) (fun _ => rfl)

theorem encode_updateHashField : updateHashField.encode = (·.bytes.bytes) := rfl

theorem fits_updateHashField (hash : UpdateLogEntryHash) : updateHashField.Fits hash := trivial

def updateFields : Codec UInt8 UpdateLogEntryBody :=
  (pair bytesField <| pair u64Field <| pair (optionalField updateHashField) (actionFields P)).iso
    (fun body => (body.ownerPublicKey, body.sequence, body.previousEntryHash, body.action))
    (fun (a, b, c, d) => ⟨a, b, c, d⟩) (fun _ => rfl) (fun _ => rfl)

theorem encode_updateFields (body : UpdateLogEntryBody) :
    body.canonicalBytes P = Core.UpdateLog.domainSeparator ++ (updateFields P).encode body := by
  simp [UpdateLogEntryBody.canonicalBytes, updateFields, encode_actionFields,
    encode_updateHashField]

theorem fits_updateFields : (updateFields P).Fits = UpdateFits P := by
  funext body
  simp [UpdateFits, updateFields, fits_actionFields, fits_updateHashField]

/-! ### Encrypted objects -/

def RecipientFits (recipient : EncryptedObjectRecipientWrap) : Prop :=
  StringFits (P.identityToString recipient.recipientIdentity) ∧
    StringFits recipient.recipientKeyId ∧
    StringFits recipient.wrapAlg ∧ BytesFit recipient.encappedKey ∧ BytesFit recipient.wrappedKey

def EncryptedObjectFits (body : EncryptedObjectBody) : Prop :=
  StringFits body.recordType ∧ StringFits body.suiteId ∧
    StringFits (P.identityToString body.author.identity) ∧ BytesFit body.author.publicKey ∧
    StringFits body.plaintext.mediaType ∧ (∀ text ∈ body.plaintext.schema, StringFits text) ∧
    StringFits body.contentEncryption.alg ∧ BytesFit body.contentEncryption.nonce ∧
    BytesFit body.ciphertext ∧ VecFits (RecipientFits P) body.recipients

def recipientFields : Codec UInt8 EncryptedObjectRecipientWrap :=
  (pair (identityField P) <| pair stringField <| pair stringField <| pair bytesField bytesField).iso
    (fun r => (r.recipientIdentity, r.recipientKeyId, r.wrapAlg, r.encappedKey, r.wrappedKey))
    (fun (a, b, c, d, e) => ⟨a, b, c, d, e⟩) (fun _ => rfl) (fun _ => rfl)

theorem encode_recipientFields :
    (recipientFields P).encode = EncryptedObjectRecipientWrap.encode P := by
  funext recipient
  simp [recipientFields, EncryptedObjectRecipientWrap.encode]

theorem fits_recipientFields : (recipientFields P).Fits = RecipientFits P := by
  funext recipient
  simp [recipientFields, RecipientFits]

def encryptedObjectFields : Codec UInt8 EncryptedObjectBody :=
  (pair stringField <| pair u16Field <| pair stringField <| pair (identityField P) <|
      pair bytesField <| pair stringField <| pair (optionalField stringField) <| pair u64Field <|
      pair stringField <| pair bytesField <| pair bytesField <| pair (vecField (recipientFields P))
      u64Field).iso
    (fun body => (body.recordType, body.version, body.suiteId, body.author.identity,
      body.author.publicKey, body.plaintext.mediaType, body.plaintext.schema,
      body.plaintext.declaredSize, body.contentEncryption.alg, body.contentEncryption.nonce,
      body.ciphertext, body.recipients, body.createdAt))
    (fun (a, b, c, d, e, f, g, h, i, j, k, l, m) => ⟨a, b, c, ⟨d, e⟩, ⟨f, g, h⟩, ⟨i, j⟩, k, l, m⟩)
    (fun _ => rfl) (fun _ => rfl)

theorem encode_encryptedObjectFields (body : EncryptedObjectBody) :
    body.canonicalBytes P = EncryptedObjectBody.domainSeparator ++
      (encryptedObjectFields P).encode body := by
  simp [EncryptedObjectBody.canonicalBytes, encryptedObjectFields, encode_recipientFields]

theorem fits_encryptedObjectFields : (encryptedObjectFields P).Fits = EncryptedObjectFits P := by
  funext body
  simp [EncryptedObjectFits, encryptedObjectFields, fits_recipientFields]

/-! ### Reachability records -/

def LiveEndpointFits (endpoint : LiveReachabilityEndpoint) : Prop :=
  StringFits endpoint.transport ∧ StringFits endpoint.peerId ∧
    VecFits StringFits endpoint.addresses ∧ VecFits StringFits endpoint.relayHints ∧
    VecFits StringFits endpoint.protocols

def IngressEndpointFits (endpoint : OfflineIngressEndpoint) : Prop :=
  StringFits endpoint.transport ∧ StringFits endpoint.relay ∧ StringFits endpoint.endpoint

def ReachabilityFits (body : ReachabilityRecordBody) : Prop :=
  StringFits body.recordType ∧ BytesFit body.ownerPublicKey ∧
    StringFits (P.identityToString body.identity) ∧ VecFits LiveEndpointFits body.live ∧
    VecFits IngressEndpointFits body.offlineIngress

def liveEndpointFields : Codec UInt8 LiveReachabilityEndpoint :=
  (pair stringField <| pair stringField <| pair (vecField stringField) <|
      pair (vecField stringField) <| pair (vecField stringField) u64Field).iso
    (fun e => (e.transport, e.peerId, e.addresses, e.relayHints, e.protocols, e.maxPayloadBytes))
    (fun (a, b, c, d, e, f) => ⟨a, b, c, d, e, f⟩) (fun _ => rfl) (fun _ => rfl)

theorem encode_liveEndpointFields :
    liveEndpointFields.encode = LiveReachabilityEndpoint.encode := by
  funext endpoint
  simp [liveEndpointFields, LiveReachabilityEndpoint.encode, putStringVec]

theorem fits_liveEndpointFields : liveEndpointFields.Fits = LiveEndpointFits := by
  funext endpoint
  simp [liveEndpointFields, LiveEndpointFits]

def boolField : Codec UInt8 Bool :=
  (one.enum Bool.toUInt8 (by rintro (_ | _) (_ | _) h <;> simp_all [Bool.toUInt8]) [true, false]
    (by rintro (_ | _) <;> simp)).total fun _ => trivial

theorem encode_boolField : boolField.encode = fun b => [Bool.toUInt8 b] := rfl

theorem fits_boolField (b : Bool) : boolField.Fits b := trivial

def ingressEndpointFields : Codec UInt8 OfflineIngressEndpoint :=
  (pair stringField <| pair stringField <| pair stringField <| pair boolField <|
    pair u64Field u64Field).iso
    (fun e => (e.transport, e.relay, e.endpoint, e.requiresInviteToken, e.maxObjectBytes,
      e.maxObjectsPerSenderPerHour))
    (fun (a, b, c, d, e, f) => ⟨a, b, c, d, e, f⟩) (fun _ => rfl) (fun _ => rfl)

theorem encode_ingressEndpointFields :
    ingressEndpointFields.encode = OfflineIngressEndpoint.encode := by
  funext endpoint
  simp [ingressEndpointFields, OfflineIngressEndpoint.encode, encode_boolField]

theorem fits_ingressEndpointFields : ingressEndpointFields.Fits = IngressEndpointFits := by
  funext endpoint
  simp [ingressEndpointFields, IngressEndpointFits, fits_boolField]

def reachabilityFields : Codec UInt8 ReachabilityRecordBody :=
  (pair stringField <| pair u16Field <| pair bytesField <| pair (identityField P) <|
    pair u64Field <|
      pair u64Field <| pair u64Field <| pair (vecField liveEndpointFields)
      (vecField ingressEndpointFields)).iso
    (fun body => (body.recordType, body.version, body.ownerPublicKey, body.identity,
      body.sequenceHint, body.issuedAt, body.expiresAt, body.live, body.offlineIngress))
    (fun (a, b, c, d, e, f, g, h, i) => ⟨a, b, c, d, e, f, g, h, i⟩) (fun _ => rfl) (fun _ => rfl)

theorem encode_reachabilityFields (body : ReachabilityRecordBody) :
    body.canonicalBytes P = ReachabilityRecordBody.domainSeparator ++
      (reachabilityFields P).encode body := by
  simp [ReachabilityRecordBody.canonicalBytes, reachabilityFields, encode_liveEndpointFields,
    encode_ingressEndpointFields]

theorem fits_reachabilityFields : (reachabilityFields P).Fits = ReachabilityFits P := by
  funext body
  simp [ReachabilityFits, reachabilityFields, fits_liveEndpointFields, fits_ingressEndpointFields]

/-! ### Encryption key records -/

def IdentityKeyFits (key : IdentityEncryptionKey) : Prop :=
  StringFits key.keyId ∧ StringFits key.suiteFamily ∧ StringFits key.keyType ∧
    StringFits key.curve ∧
    BytesFit key.publicKey ∧ StringFits key.status

def KeyRecordFits (body : IdentityEncryptionKeyRecordBody) : Prop :=
  StringFits body.recordType ∧ BytesFit body.ownerPublicKey ∧
    StringFits (P.identityToString body.identity) ∧ VecFits IdentityKeyFits body.keys

def identityKeyFields : Codec UInt8 IdentityEncryptionKey :=
  (pair stringField <| pair stringField <| pair stringField <| pair stringField <|
    pair bytesField <|
      pair u64Field <| pair u64Field <| pair (optionalField u64Field) stringField).iso
    (fun key => (key.keyId, key.suiteFamily, key.keyType, key.curve, key.publicKey, key.createdAt,
      key.notBefore, key.expiresAt, key.status))
    (fun (a, b, c, d, e, f, g, h, i) => ⟨a, b, c, d, e, f, g, h, i⟩) (fun _ => rfl) (fun _ => rfl)

theorem encode_identityKeyFields : identityKeyFields.encode = IdentityEncryptionKey.encode := by
  funext key
  simp [identityKeyFields, IdentityEncryptionKey.encode]

theorem fits_identityKeyFields : identityKeyFields.Fits = IdentityKeyFits := by
  funext key
  simp [identityKeyFields, IdentityKeyFits]

def keyRecordFields : Codec UInt8 IdentityEncryptionKeyRecordBody :=
  (pair stringField <| pair u16Field <| pair bytesField <| pair (identityField P) <|
      pair (vecField identityKeyFields) <| pair u64Field u64Field).iso
    (fun body => (body.recordType, body.version, body.ownerPublicKey, body.identity, body.keys,
      body.sequence, body.issuedAt))
    (fun (a, b, c, d, e, f, g) => ⟨a, b, c, d, e, f, g⟩) (fun _ => rfl) (fun _ => rfl)

theorem encode_keyRecordFields (body : IdentityEncryptionKeyRecordBody) :
    body.canonicalBytes P = IdentityEncryptionKeyRecordBody.domainSeparator ++
      (keyRecordFields P).encode body := by
  simp [IdentityEncryptionKeyRecordBody.canonicalBytes, keyRecordFields, encode_identityKeyFields]

theorem fits_keyRecordFields : (keyRecordFields P).Fits = KeyRecordFits P := by
  funext body
  simp [KeyRecordFits, keyRecordFields, fits_identityKeyFields]

/-! ### Head hints -/

def HeadHintFits (body : IdentityHeadHintBody) : Prop :=
  BytesFit body.ownerPublicKey ∧ StringFits (P.identityToString body.identity) ∧
    StringFits body.providerPeerId ∧ VecFits StringFits body.providerAddrs ∧
    ∀ text ∈ body.relayHint, StringFits text

def headHintFields : Codec UInt8 IdentityHeadHintBody :=
  (pair bytesField <| pair (identityField P) <| pair stringField <| pair (vecField stringField) <|
      pair (optionalField stringField) <| pair u64Field <| pair updateHashField <|
      pair u64Field u64Field).iso
    (fun body => (body.ownerPublicKey, body.identity, body.providerPeerId, body.providerAddrs,
      body.relayHint, body.latestSequence, body.updateLogHead, body.observedAt, body.expiresAt))
    (fun (a, b, c, d, e, f, g, h, i) => ⟨a, b, c, d, e, f, g, h, i⟩) (fun _ => rfl) (fun _ => rfl)

theorem encode_headHintFields (body : IdentityHeadHintBody) :
    body.canonicalBytes P = IdentityHeadHintBody.domainSeparator ++
      (headHintFields P).encode body := by
  simp [IdentityHeadHintBody.canonicalBytes, headHintFields, encode_updateHashField]

theorem fits_headHintFields : (headHintFields P).Fits = HeadHintFits P := by
  funext body
  simp [HeadHintFits, headHintFields, fits_updateHashField]

/-! ### Pin requests and relay records -/

def PinRequestFits (body : PinRequestBody) : Prop :=
  BytesFit body.ownerPublicKey ∧ StringFits (P.contentIdToString body.contentId) ∧
    ∀ contentId ∈ body.updateLogContentId, StringFits (P.contentIdToString contentId)

def pinRequestFields : Codec UInt8 PinRequestBody :=
  (pair bytesField <| pair (contentIdField P) (optionalField (contentIdField P))).iso
    (fun body => (body.ownerPublicKey, body.contentId, body.updateLogContentId))
    (fun (a, b, c) => ⟨a, b, c⟩) (fun _ => rfl) (fun _ => rfl)

theorem encode_pinRequestFields (body : PinRequestBody) :
    body.canonicalBytes P = PinRequestBody.domainSeparator ++ (pinRequestFields P).encode body := by
  cases h : body.updateLogContentId <;> simp [PinRequestBody.canonicalBytes, pinRequestFields,
    putOptional, h]

theorem fits_pinRequestFields : (pinRequestFields P).Fits = PinRequestFits P := by
  funext body
  simp [PinRequestFits, pinRequestFields]

def RelayRecordFits (body : RelayRecordBody) : Prop :=
  StringFits (P.identityToString body.relayId) ∧ BytesFit body.relayPublicKey ∧
    StringFits body.peerId ∧ VecFits StringFits body.addrs ∧ body.capabilities.length < 2 ^ 64

def recordCapabilityField : Codec UInt8 RelayRecordCapability :=
  (one.enum RelayRecordCapability.encode
    (by rintro (_ | _ | _) (_ | _ | _) h <;> simp_all [RelayRecordCapability.encode])
    [.bootstrap, .discovery, .pinning] (by rintro (_ | _ | _) <;> simp)).total fun _ => trivial

theorem encode_recordCapabilityField : recordCapabilityField.encode = fun capability =>
    [capability.encode] := rfl

theorem fits_recordCapabilityField (capability : RelayRecordCapability) :
    recordCapabilityField.Fits capability := trivial

def relayRecordFields : Codec UInt8 RelayRecordBody :=
  (pair (identityField P) <| pair bytesField <| pair stringField <| pair (vecField stringField) <|
      pair (vecField recordCapabilityField) <| pair u64Field u64Field).iso
    (fun body => (body.relayId, body.relayPublicKey, body.peerId, body.addrs, body.capabilities,
      body.observedAt, body.expiresAt))
    (fun (a, b, c, d, e, f, g) => ⟨a, b, c, d, e, f, g⟩) (fun _ => rfl) (fun _ => rfl)

theorem encode_relayRecordFields (body : RelayRecordBody) :
    body.canonicalBytes P = RelayRecordBody.domainSeparator ++
      (relayRecordFields P).encode body := by
  simp [RelayRecordBody.canonicalBytes, relayRecordFields, encode_recordCapabilityField]

theorem fits_relayRecordFields : (relayRecordFields P).Fits = RelayRecordFits P := by
  funext body
  simp [RelayRecordFits, relayRecordFields, fits_recordCapabilityField, VecFits]

end Jolt.Signing.Formats

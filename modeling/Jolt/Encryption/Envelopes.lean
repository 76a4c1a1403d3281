import Jolt.Encryption.SampleCiphers
import Jolt.Signing.Injective

/-! # Encrypted objects can be opened, and only as they were signed

What encryption produces is opened by the private key of every recipient: both sides derive the same
associated data, and the wrap that is found for a key is the one that was made for it, since the
pairs of identity and key identifier are distinct (`decrypt_encryptAs`). A body is determined by the
bytes that are signed of it, so an envelope that is accepted as an author's has a body that the
author signed (`mem_of_verifySignature`). -/

namespace Jolt.Encryption.Envelopes

open Lib.Checks Jolt.Core Jolt.Core.Types SignedRecords EncryptedObject Signing Formats Injective
  List
open Sample (owner primitives)

variable {P : Primitives} {C : Ciphers} {json : EnvelopeJson}

/-! ### Wraps -/

section

variable {authorIdentity : IdentityId} {contentKey seed : Bytes} {seeds : ℕ → Bytes}
  {recipient : EncryptedObjectRecipient} {recipients : List EncryptedObjectRecipient}
  {wrap : EncryptedObjectRecipientWrap} {wraps : List EncryptedObjectRecipientWrap}

/-- The private key of the key that a recipient is listed with. -/
structure HoldsKey (C : Ciphers) (privateKey : IdentityEncryptionPrivateKey)
    (recipient : EncryptedObjectRecipient) : Prop where
  identity : privateKey.identity = recipient.identity
  keyId : privateKey.keyId = recipient.key.keyId
  suiteFamily : privateKey.suiteFamily = recipient.key.suiteFamily
  length : privateKey.privateKey.length = privateKeyLen
  publicKey : C.publicKeyOf privateKey.privateKey = recipient.key.publicKey

/-- What the wrap of a recipient is. -/
theorem wrapContentKey_eq_ok :
    wrapContentKey P C authorIdentity contentKey seed recipient = .ok wrap ↔
      isSupportedKey recipient.key ∧ C.publicKeyFromBytes recipient.key.publicKey = true ∧
        wrap.recipientIdentity = recipient.identity ∧ wrap.recipientKeyId = recipient.key.keyId ∧
        wrap.wrapAlg = wrapAlg ∧
        C.hpkeSeal seed recipient.key.publicKey hpkeInfo contentKey
          (wrapAad P authorIdentity recipient.identity recipient.key.keyId) =
            some (wrap.encappedKey, wrap.wrappedKey) := by
  unfold wrapContentKey
  simp only [validateRecipientKey, bind_eq_ok, ensure_eq_ok, okOr_eq_ok, pure_eq_ok]
  constructor
  · rintro ⟨_, hkey, _, hpublic, ⟨encappedKey, wrappedKey⟩, hseal, rfl⟩
    exact ⟨hkey, hpublic, rfl, rfl, rfl, hseal⟩
  · obtain ⟨identity, keyId, alg, encappedKey, wrappedKey⟩ := wrap
    rintro ⟨hkey, hpublic, rfl, rfl, rfl, hseal⟩
    exact ⟨(), hkey, (), hpublic, ⟨encappedKey, wrappedKey⟩, hseal, rfl⟩

theorem exists_recipient_of_wrapAll : ∀ {recipients : List EncryptedObjectRecipient}
    {seeds : ℕ → Bytes}
      {wraps : List EncryptedObjectRecipientWrap},
      wrapAll P C authorIdentity contentKey seeds recipients = .ok wraps → ∀ wrap ∈ wraps,
        ∃ recipient ∈ recipients, ∃ seed, wrapContentKey P C authorIdentity contentKey seed
          recipient = .ok wrap
  | [], _, _, h, wrap, hmem => by
    cases h
    cases hmem
  | recipient :: recipients, seeds, _, h, wrap, hmem => by
    simp only [wrapAll, bind_eq_ok, pure_eq_ok] at h
    obtain ⟨first, hfirst, rest, hrest, rfl⟩ := h
    rcases mem_cons.mp hmem with rfl | hmem
    · exact ⟨recipient, mem_cons_self, seeds 0, hfirst⟩
    · obtain ⟨recipient', hmem', hwrap⟩ := exists_recipient_of_wrapAll hrest wrap hmem
      exact ⟨recipient', mem_cons_of_mem _ hmem', hwrap⟩

theorem exists_wrap_of_wrapAll : ∀ {recipients : List EncryptedObjectRecipient} {seeds : ℕ → Bytes}
      {wraps : List EncryptedObjectRecipientWrap},
      wrapAll P C authorIdentity contentKey seeds recipients = .ok wraps → ∀ recipient ∈ recipients,
        ∃ wrap ∈ wraps, ∃ seed, wrapContentKey P C authorIdentity contentKey seed recipient =
          .ok wrap
  | [], _, _, _, _, hmem => by cases hmem
  | first :: recipients, seeds, _, h, recipient, hmem => by
    simp only [wrapAll, bind_eq_ok, pure_eq_ok] at h
    obtain ⟨wrap, hwrap, rest, hrest, rfl⟩ := h
    rcases mem_cons.mp hmem with rfl | hmem
    · exact ⟨wrap, mem_cons_self, seeds 0, hwrap⟩
    · obtain ⟨wrap', hmem', hwrap'⟩ := exists_wrap_of_wrapAll hrest recipient hmem
      exact ⟨wrap', mem_cons_of_mem _ hmem', hwrap'⟩

theorem exists_wrapAll : ∀ {recipients : List EncryptedObjectRecipient} (seeds : ℕ → Bytes),
      (∀ recipient ∈ recipients, isSupportedKey recipient.key ∧ ∃ privateKey,
        HoldsKey C privateKey recipient) →
      ∃ wraps, wrapAll P C authorIdentity contentKey seeds recipients = .ok wraps
  | [], _, _ => ⟨[], rfl⟩
  | recipient :: recipients, seeds, h => by
    obtain ⟨⟨hkey, privateKey, hholds⟩, hrest⟩ := forall_mem_cons.mp h
    have hseal := C.hpkeSeal_isSome (seeds 0) privateKey.privateKey hpkeInfo contentKey
      (wrapAad P authorIdentity recipient.identity recipient.key.keyId) hholds.length
    rw [hholds.publicKey] at hseal
    obtain ⟨⟨encappedKey, wrappedKey⟩, hseal⟩ := Option.isSome_iff_exists.mp hseal
    have hpublic : C.publicKeyFromBytes recipient.key.publicKey = true := by
      rw [← hholds.publicKey]
      exact C.publicKeyFromBytes_publicKeyOf _ hholds.length
    have hwrap : wrapContentKey P C authorIdentity contentKey (seeds 0) recipient =
        .ok ⟨recipient.identity, recipient.key.keyId, wrapAlg, encappedKey, wrappedKey⟩ :=
      wrapContentKey_eq_ok.mpr ⟨hkey, hpublic, rfl, rfl, rfl, hseal⟩
    obtain ⟨wraps, hwraps⟩ := exists_wrapAll (fun i => seeds (i + 1)) hrest
    refine ⟨⟨recipient.identity, recipient.key.keyId, wrapAlg, encappedKey, wrappedKey⟩ ::
      wraps, ?_⟩
    rw [wrapAll, hwrap, ok_bind, hwraps]
    rfl

variable (hwraps : wrapAll P C authorIdentity contentKey seeds recipients = .ok wraps)
  (hdistinct : (recipients.map fun recipient => (recipient.identity, recipient.key.keyId)).Nodup)
  (hrecipient : recipient ∈ recipients)
include hwraps hdistinct hrecipient

/-- **The wrap found for a pair is the one made for its recipient.** -/
theorem find?_wrap_pair :
    ∃ wrap seed, wraps.find? (fun wrap => wrap.recipientIdentity = recipient.identity ∧
        wrap.recipientKeyId = recipient.key.keyId) = some wrap ∧
      wrapContentKey P C authorIdentity contentKey seed recipient = .ok wrap := by
  obtain ⟨own, hown, _, howned⟩ := exists_wrap_of_wrapAll hwraps recipient hrecipient
  obtain ⟨-, -, hidentity, hkeyId, -⟩ := wrapContentKey_eq_ok.mp howned
  have hsome : (wraps.find? fun wrap => decide (wrap.recipientIdentity = recipient.identity ∧
      wrap.recipientKeyId = recipient.key.keyId)).isSome = true := by
    rw [find?_isSome]
    exact ⟨own, hown, decide_eq_true ⟨hidentity, hkeyId⟩⟩
  obtain ⟨wrap, hfind⟩ := Option.isSome_iff_exists.mp hsome
  obtain ⟨recipient', hrecipient', seed, hwrap⟩ :=
    exists_recipient_of_wrapAll hwraps wrap (mem_of_find?_eq_some hfind)
  -- the recipient of the wrap that was found has the identity and the key identifier of this one
  have hsame : recipient' = recipient := by
    obtain ⟨-, -, hidentity', hkeyId', -⟩ := wrapContentKey_eq_ok.mp hwrap
    have hfound := find?_some hfind
    rw [decide_eq_true_eq, hidentity', hkeyId'] at hfound
    exact inj_on_of_nodup_map hdistinct hrecipient' hrecipient (Prod.ext hfound.1 hfound.2)
  exact ⟨wrap, seed, hfind, hsame ▸ hwrap⟩

theorem find?_wrap {privateKey : IdentityEncryptionPrivateKey}
    (hholds : HoldsKey C privateKey recipient) :
    ∃ wrap seed, wraps.find? (EncryptedObjectRecipientWrap.isFor privateKey) = some wrap ∧
      wrapContentKey P C authorIdentity contentKey seed recipient = .ok wrap := by
  have hfor : EncryptedObjectRecipientWrap.isFor privateKey = fun wrap =>
      decide (wrap.recipientIdentity = recipient.identity ∧ wrap.recipientKeyId =
        recipient.key.keyId) := by
    funext wrap
    rw [EncryptedObjectRecipientWrap.isFor, hholds.identity, hholds.keyId]
  rw [hfor]
  exact find?_wrap_pair hwraps hdistinct hrecipient

end

/-! ### Envelopes -/

section

variable {drawn : Drawn} {signingKey : Bytes32} {plaintext : Bytes} {mediaType : String}
  {schema : Option String} {recipients : List EncryptedObjectRecipient} {createdAt : UInt64}
  {envelope : EncryptedObjectEnvelope}

def encryptAs (P : Primitives) (C : Ciphers) (drawn : Drawn) (signingKey : Bytes32)
    (plaintext : Bytes) (mediaType : String) (schema : Option String)
    (recipients : List EncryptedObjectRecipient) (createdAt : UInt64) :
    Except EncryptedObjectError EncryptedObjectEnvelope :=
  EncryptedObjectEnvelope.encrypt P C drawn (P.verifyingKey signingKey).bytes
    ⟨P.verifyingKey signingKey⟩ plaintext mediaType schema recipients createdAt (P.sign signingKey)

def sealedBody (author : Bytes32) (drawn : Drawn) (plaintext : Bytes) (mediaType : String)
    (schema : Option String) (createdAt : UInt64) (ciphertext : Bytes)
    (wraps : List EncryptedObjectRecipientWrap) : EncryptedObjectBody :=
  { recordType := recordType
    version := recordVersion
    suiteId := suiteId
    author := ⟨⟨author⟩, author.bytes⟩
    plaintext := ⟨mediaType, schema, plaintext.length.toUInt64⟩
    contentEncryption := ⟨contentAlg, drawn.nonce⟩
    ciphertext
    recipients := wraps
    createdAt }

theorem validateAuthorIdentity_self (author : Bytes32) :
    validateAuthorIdentity author.bytes ⟨author⟩ = .ok () := by
  simp only [validateAuthorIdentity, bind_eq_ok, ensure_eq_ok, okOr_eq_ok]
  exact ⟨(), author.length_bytes, author, dif_pos author.length_bytes, rfl⟩

theorem encryptAs_eq_ok :
    encryptAs P C drawn signingKey plaintext mediaType schema recipients createdAt = .ok envelope ↔
      ∃ ciphertext wraps, C.aeadEncrypt drawn.contentKey.bytes drawn.nonce
          (contentAad P ⟨P.verifyingKey signingKey⟩ ⟨mediaType, schema, plaintext.length.toUInt64⟩
            ⟨contentAlg, drawn.nonce⟩ createdAt) plaintext = some ciphertext ∧
        wrapAll P C ⟨P.verifyingKey signingKey⟩ drawn.contentKey.bytes drawn.seeds recipients =
          .ok wraps ∧
        envelope.body = sealedBody (P.verifyingKey signingKey) drawn plaintext mediaType schema
          createdAt ciphertext wraps ∧
        envelope.signature = P.sign signingKey (envelope.body.canonicalBytes P) := by
  unfold encryptAs EncryptedObjectEnvelope.encrypt
  simp only [validateSignatureLen, bind_eq_ok, ensure_eq_ok, okOr_eq_ok, pure_eq_ok]
  constructor
  · rintro ⟨_, -, ciphertext, hciphertext, wraps, hwraps, _, -, rfl⟩
    exact ⟨ciphertext, wraps, hciphertext, hwraps, rfl, rfl⟩
  · obtain ⟨body, signature⟩ := envelope
    rintro ⟨ciphertext, wraps, hciphertext, hwraps, hbody, hsignature⟩
    dsimp only at hbody hsignature
    subst hbody hsignature
    exact ⟨(), validateAuthorIdentity_self _, ciphertext, hciphertext, wraps, hwraps, (),
      P.length_sign _ _, rfl⟩

theorem validateBody_sealedBody (author : Bytes32) (ciphertext : Bytes)
    (wraps : List EncryptedObjectRecipientWrap) :
    validateBody (sealedBody author drawn plaintext mediaType schema createdAt ciphertext wraps) =
      .ok () := by
  simp only [validateBody, bind_eq_ok, ensure_eq_ok]
  exact ⟨(), rfl, (), rfl, (), rfl, (), rfl, (), drawn.length_nonce,
    validateAuthorIdentity_self author⟩

theorem exists_encryptAs (hkeys : ∀ recipient ∈ recipients, isSupportedKey recipient.key ∧
      ∃ privateKey, HoldsKey C privateKey recipient) :
    ∃ envelope, encryptAs P C drawn signingKey plaintext mediaType schema recipients createdAt =
      .ok envelope := by
  obtain ⟨ciphertext, hciphertext⟩ :=
    Option.isSome_iff_exists.mp (C.encrypt_isSome drawn.contentKey.bytes drawn.nonce
      (contentAad P ⟨P.verifyingKey signingKey⟩ ⟨mediaType, schema, plaintext.length.toUInt64⟩
        ⟨contentAlg, drawn.nonce⟩ createdAt) plaintext drawn.contentKey.length_bytes
          drawn.length_nonce)
  obtain ⟨wraps, hwraps⟩ := exists_wrapAll drawn.seeds hkeys
  let body := sealedBody (P.verifyingKey signingKey) drawn plaintext mediaType schema
    createdAt ciphertext
    wraps
  exact ⟨⟨body, P.sign signingKey (body.canonicalBytes P)⟩,
    encryptAs_eq_ok.mpr ⟨ciphertext, wraps, hciphertext, hwraps, rfl, rfl⟩⟩

variable (h : encryptAs P C drawn signingKey plaintext mediaType schema recipients createdAt =
  .ok envelope)
include h

theorem verifySignature_encryptAs : envelope.verifySignature P = .ok () := by
  obtain ⟨ciphertext, wraps, -, -, hbody, hsignature⟩ := encryptAs_eq_ok.mp h
  simp only [EncryptedObjectEnvelope.verifySignature, EncryptedObject.verifySignature,
    validateSignatureLen, bind_eq_ok, ensure_eq_ok]
  refine ⟨(), hbody ▸ validateBody_sealedBody _ ciphertext wraps, ?_⟩
  have hkey : envelope.body.author.publicKey = (P.verifyingKey signingKey).bytes := by
    rw [hbody]; rfl
  rw [hkey, hsignature]
  exact ⟨(), (P.verifyingKey signingKey).length_bytes, (), P.length_sign _ _, (),
    P.keyFromBytes_verifyingKey _, P.verifyStrict_sign _ _⟩

/-- **Every recipient can open what was encrypted.** -/
theorem decrypt_encryptAs
    (hdistinct : (recipients.map fun recipient => (recipient.identity, recipient.key.keyId)).Nodup)
    {recipient : EncryptedObjectRecipient} (hrecipient : recipient ∈ recipients)
    {privateKey : IdentityEncryptionPrivateKey} (hholds : HoldsKey C privateKey recipient) :
    decryptEncryptedObjectForRecipient P C envelope privateKey = .ok plaintext := by
  have hverified := verifySignature_encryptAs h
  obtain ⟨ciphertext, wraps, hciphertext, hwraps, hbody, -⟩ := encryptAs_eq_ok.mp h
  obtain ⟨wrap, seed, hfind, hwrap⟩ := find?_wrap hwraps hdistinct hrecipient hholds
  obtain ⟨hsupported, -, hidentity, hkeyId, -, hseal⟩ := wrapContentKey_eq_ok.mp hwrap
  rw [← hholds.publicKey] at hseal
  obtain ⟨hencapped, hopen⟩ := C.hpkeOpen_hpkeSeal _ _ _ _ _ _ _ hholds.length hseal
  simp only [decryptEncryptedObjectForRecipient, validatePrivateKey, bind_eq_ok,
    ensure_eq_ok, okOr_eq_ok]
  rw [hbody]
  refine ⟨(), hverified, (), ⟨(), hholds.suiteFamily.trans hsupported.1, hholds.length⟩,
    wrap, hfind, (),
    C.privateKeyFromBytes_of_length _ hholds.length, (), hencapped, drawn.contentKey.bytes, ?_, (),
    drawn.contentKey.length_bytes, C.decrypt_encrypt _ _ _ _ _ hciphertext⟩
  rw [hidentity, hkeyId]
  exact hopen

theorem fromBytes_toVec : EncryptedObjectEnvelope.fromBytes json (json.toVec envelope) =
    .ok envelope := by
  obtain ⟨ciphertext, wraps, -, -, hbody, hsignature⟩ := encryptAs_eq_ok.mp h
  simp only [EncryptedObjectEnvelope.fromBytes, validateSignatureLen, bind_eq_ok, okOr_eq_ok,
    ensure_eq_ok, pure_eq_ok]
  exact ⟨envelope, json.fromSlice_toVec envelope, (), hbody ▸ validateBody_sealedBody _
    ciphertext wraps,
    (), hsignature ▸ P.length_sign _ _, rfl⟩

end

/-! ### Tampering -/

theorem publicKey_eq_of_validateBody {body : EncryptedObjectBody} {key : Bytes32}
    (h : validateBody body = .ok ()) (hauthor : body.author.identity = ⟨key⟩) :
    body.author.publicKey = key.bytes := by
  simp only [validateBody, validateAuthorIdentity, bind_eq_ok, ensure_eq_ok, okOr_eq_ok] at h
  obtain ⟨_, -, _, -, _, -, _, -, _, -, _, -, publicKey, hkey, hidentity⟩ := h
  rw [hauthor] at hidentity
  cases hidentity
  unfold Bytes32.ofBytes? at hkey
  split_ifs at hkey
  cases hkey
  rfl

theorem canonicalBytes_inj {body body' : EncryptedObjectBody} (h : EncryptedObjectFits P body)
    (h' : EncryptedObjectFits P body') (heq : body.canonicalBytes P = body'.canonicalBytes P) :
    body = body' := by
  have hread : parseSigned P (body.canonicalBytes P) = some (.encryptedObject body) :=
    (parseSigned_eq_some_iff P).mpr ⟨h, rfl⟩
  have hread' : parseSigned P (body'.canonicalBytes P) = some (.encryptedObject body') :=
    (parseSigned_eq_some_iff P).mpr ⟨h', rfl⟩
  rw [heq, hread'] at hread
  exact (SignedBody.encryptedObject.inj (Option.some.inj hread)).symm

/-- **An accepted envelope is one the author signed.** With Ed25519 ideal, the signature of the
envelope verifies only if the author signed these bytes; then the body is one of those the author
signed, if all that the author signs under the domain separator of encrypted objects are such
bodies. -/
theorem mem_of_verifySignature {key : Bytes32} {signed : Set Bytes}
    {bodies : Set EncryptedObjectBody}
    (hsigned : ∀ payload ∈ signed, EncryptedObjectBody.domainSeparator <+: payload →
      ∃ body ∈ bodies, EncryptedObjectFits P body ∧ body.canonicalBytes P = payload)
    {envelope : EncryptedObjectEnvelope} (hfits : EncryptedObjectFits P envelope.body)
    (hideal : P.verifyStrict key.bytes (envelope.body.canonicalBytes P) envelope.signature = true →
      envelope.body.canonicalBytes P ∈ signed)
    (h : envelope.verifySignature P = .ok ()) (hauthor : envelope.body.author.identity = ⟨key⟩) :
    envelope.body ∈ bodies := by
  simp only [EncryptedObjectEnvelope.verifySignature, EncryptedObject.verifySignature,
    validateSignatureLen, bind_eq_ok, ensure_eq_ok] at h
  obtain ⟨_, hbody, _, -, _, -, _, -, hverify⟩ := h
  rw [publicKey_eq_of_validateBody hbody hauthor] at hverify
  have hdomain : EncryptedObjectBody.domainSeparator <+: envelope.body.canonicalBytes P := by
    rw [encode_encryptedObjectFields]
    exact prefix_append _ _
  obtain ⟨body, hmem, hfits', heq⟩ := hsigned _ (hideal hverify) hdomain
  rwa [canonicalBytes_inj hfits hfits' heq.symm]

/-! ### The contract -/

/-- **Encrypted objects.** For recipients with distinct pairs of identity and key identifier,
encryption succeeds if their keys are supported, and then every recipient's private key opens the
envelope, also after it was written and read back, to the plaintext, with the content type it was
given. An envelope that is accepted as the author's has a body that the author signed. -/
theorem encrypted_object_contract (P : Primitives) (C : Ciphers) (json : EnvelopeJson)
    (drawn : Drawn) (signingKey : Bytes32) (plaintext : Bytes) (mediaType : String)
    (schema : Option String) (createdAt : UInt64) {recipients : List EncryptedObjectRecipient}
    (hdistinct : (recipients.map fun recipient =>
      (recipient.identity, recipient.key.keyId)).Nodup) :
    ((∀ recipient ∈ recipients, isSupportedKey recipient.key ∧
          ∃ privateKey, HoldsKey C privateKey recipient) →
        ∃ envelope, encryptAs P C drawn signingKey plaintext mediaType schema recipients createdAt =
          .ok envelope) ∧
      (∀ envelope, encryptAs P C drawn signingKey plaintext mediaType schema recipients createdAt =
        .ok envelope →
          envelope.body.plaintext.mediaType = mediaType ∧ envelope.body.plaintext.schema = schema ∧
          (∃ bytes, envelope.toBytes json = .ok bytes ∧
            EncryptedObjectEnvelope.fromBytes json bytes = .ok envelope) ∧
          ∀ recipient ∈ recipients, ∀ privateKey, HoldsKey C privateKey recipient →
            decryptEncryptedObjectForRecipient P C envelope privateKey = .ok plaintext) ∧
      ∀ (signed : Set Bytes) (bodies : Set EncryptedObjectBody),
        (∀ payload ∈ signed, EncryptedObjectBody.domainSeparator <+: payload →
          ∃ body ∈ bodies, EncryptedObjectFits P body ∧ body.canonicalBytes P = payload) →
        ∀ envelope : EncryptedObjectEnvelope, EncryptedObjectFits P envelope.body →
          (P.verifyStrict (P.verifyingKey signingKey).bytes (envelope.body.canonicalBytes P)
              envelope.signature = true → envelope.body.canonicalBytes P ∈ signed) →
          envelope.body.author.identity = ⟨P.verifyingKey signingKey⟩ → envelope.body ∉ bodies →
          envelope.verifySignature P ≠ .ok () ∧
            ∀ privateKey plaintext',
              decryptEncryptedObjectForRecipient P C envelope privateKey ≠ .ok plaintext' := by
  refine ⟨exists_encryptAs, fun envelope h => ?_, fun signed bodies hsigned envelope hfits
    hideal hauthor
    hnot => ?_⟩
  · obtain ⟨ciphertext, wraps, -, -, hbody, -⟩ := encryptAs_eq_ok.mp h
    refine ⟨by rw [hbody]; rfl, by rw [hbody]; rfl, ⟨_, rfl, fromBytes_toVec h⟩, ?_⟩
    exact fun recipient hrecipient privateKey hholds =>
      decrypt_encryptAs h hdistinct hrecipient hholds
  · have hrefused : envelope.verifySignature P ≠ .ok () := fun h =>
      hnot (mem_of_verifySignature hsigned hfits hideal h hauthor)
    refine ⟨hrefused, fun privateKey plaintext' h => ?_⟩
    rw [decryptEncryptedObjectForRecipient, bind_eq_ok] at h
    obtain ⟨_, hverified, -⟩ := h
    exact hrefused hverified

/-! ### A sample -/

/-- The key pairs of sample recipients, and what encryption draws. -/
def reader (seed : UInt8) (keyId : String) :
    EncryptedObjectRecipient × IdentityEncryptionPrivateKey :=
  let pair := generateIdentityEncryptionKeypair SampleCiphers.ciphers (Sample.key seed).bytes owner
    keyId 5
  (⟨owner, pair.1⟩, pair.2)

def readers : List EncryptedObjectRecipient := [(reader 9 "enc_1").1, (reader 11 "enc_2").1]

def sampleDrawn : Drawn := ⟨Sample.key 8, List.replicate 12 7, rfl, fun _ => []⟩

theorem holdsKey_reader (seed : UInt8) (keyId : String) :
    HoldsKey SampleCiphers.ciphers (reader seed keyId).2 (reader seed keyId).1 :=
  ⟨rfl, rfl, rfl, rfl, rfl⟩

/-- What the owner writes for the readers; without wraps if encryption fails. -/
def sampleEnvelope : EncryptedObjectEnvelope :=
  match encryptAs primitives SampleCiphers.ciphers sampleDrawn (Sample.key 0) [1, 2, 3] "text/plain"
      none readers 5 with
  | .ok envelope => envelope
  | .error _ => ⟨sealedBody (Sample.key 0) sampleDrawn [] "" none 0 [] [], []⟩

def tamperedEnvelope : EncryptedObjectEnvelope :=
  ⟨{ sampleEnvelope.body with createdAt := 6 }, sampleEnvelope.signature⟩

theorem sample_facts : EncryptedObjectFits primitives sampleEnvelope.body ∧
      EncryptedObjectFits primitives tamperedEnvelope.body ∧
      primitives.verifyStrict (Sample.key 0).bytes
        (tamperedEnvelope.body.canonicalBytes primitives) tamperedEnvelope.signature = false ∧
      tamperedEnvelope.body.author.identity = ⟨Sample.key 0⟩ := by
  unfold EncryptedObjectFits Fields.VecFits RecipientFits Fields.StringFits Fields.BytesFit
  decide +kernel

/-- Both readers open what was written for them, and the changed envelope is refused. -/
theorem encrypted_object_sample :
    decryptEncryptedObjectForRecipient primitives SampleCiphers.ciphers sampleEnvelope
      (reader 9 "enc_1").2 = .ok [1, 2, 3] ∧
    decryptEncryptedObjectForRecipient primitives SampleCiphers.ciphers sampleEnvelope
      (reader 11 "enc_2").2 = .ok [1, 2, 3] ∧
    tamperedEnvelope.verifySignature primitives ≠ .ok () := by
  have hdistinct : (readers.map fun recipient =>
    (recipient.identity, recipient.key.keyId)).Nodup := by
    decide
  obtain ⟨hencrypts, hopens, hrefuses⟩ := encrypted_object_contract primitives
    SampleCiphers.ciphers SampleCiphers.json sampleDrawn (Sample.key 0) [1, 2,
      3] "text/plain" none 5
    hdistinct
  obtain ⟨hfits, hfits', hforged, hauthor⟩ := sample_facts
  obtain ⟨envelope, henvelope⟩ := hencrypts fun recipient hmem => by
    rcases mem_pair.mp hmem with rfl | rfl
    · exact ⟨⟨rfl, rfl, rfl, rfl, rfl⟩, _, holdsKey_reader 9 "enc_1"⟩
    · exact ⟨⟨rfl, rfl, rfl, rfl, rfl⟩, _, holdsKey_reader 11 "enc_2"⟩
  obtain rfl : sampleEnvelope = envelope := by rw [sampleEnvelope, henvelope]
  obtain ⟨-, -, -, hopens⟩ := hopens sampleEnvelope henvelope
  refine ⟨hopens _ mem_cons_self _ (holdsKey_reader 9 "enc_1"),
    hopens _ (mem_cons_of_mem _ mem_cons_self) _ (holdsKey_reader 11 "enc_2"), ?_⟩
  refine (hrefuses {sampleEnvelope.body.canonicalBytes primitives} {sampleEnvelope.body} ?_
    tamperedEnvelope hfits' ?_ hauthor ?_).1
  · rintro payload rfl -
    exact ⟨_, rfl, hfits, rfl⟩
  · intro hverify
    exact absurd (hforged.symm.trans hverify) Bool.false_ne_true
  · intro hsame
    have htime := congrArg EncryptedObjectBody.createdAt (Set.mem_singleton_iff.mp hsame)
    have hother : sampleEnvelope.body.createdAt = 5 := by decide +kernel
    rw [hother] at htime
    exact absurd htime (by decide)

end Jolt.Encryption.Envelopes

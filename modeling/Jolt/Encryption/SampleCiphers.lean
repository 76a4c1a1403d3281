import Jolt.Core.EncryptedObject
import Jolt.Signing.Fields

/-! # A computable instance of the ciphers

Stand-ins for the ciphers and the serializer that can be evaluated. They hide nothing, but satisfy
everything `Ciphers` and `EnvelopeJson` ask for: a sealed message is the message behind the key, the
nonce and the associated data, and a private key is its own public key. -/

namespace Jolt.Encryption.SampleCiphers

open Lib.Encodings Lib.Encodings.Encoding Jolt.Core Jolt.Core.Types Encoding SignedRecords
  EncryptedObject Signing.Fields List

/-! ### Ciphers -/

/-- The message behind the bytes it is bound to. -/
def bound (parts : List Bytes) (message : Bytes) : Bytes := parts.flatMap putBytes ++ message

/-- The message, if it is bound to these bytes. -/
def unbound (parts : List Bytes) (ciphertext : Bytes) : Option Bytes :=
  if (parts.flatMap putBytes).isPrefixOf ciphertext then
    some (ciphertext.drop (parts.flatMap putBytes).length)
  else none

theorem unbound_bound (parts : List Bytes) (message : Bytes) :
    unbound parts (bound parts message) = some message := by
  rw [unbound, bound, if_pos (List.isPrefixOf_iff_prefix.mpr (prefix_append _ _)), drop_left]

def ciphers : Ciphers where
  aeadEncrypt key nonce aad message := some (bound [key, nonce, aad] message)
  aeadDecrypt key nonce aad ciphertext := unbound [key, nonce, aad] ciphertext
  publicKeyFromBytes _ := true
  privateKeyFromBytes _ := true
  encappedKeyFromBytes _ := true
  publicKeyOf privateKey := privateKey
  hpkeSeal seed publicKey info message aad := some (seed, bound [publicKey, info, aad] message)
  hpkeOpen privateKey _ info ciphertext aad := unbound [privateKey, info, aad] ciphertext
  encrypt_isSome _ _ _ _ _ _ := rfl
  decrypt_encrypt key nonce aad message ciphertext h := by
    rw [← Option.some.inj h]
    exact unbound_bound _ _
  length_publicKeyOf _ h := h
  publicKeyFromBytes_publicKeyOf _ _ := rfl
  privateKeyFromBytes_of_length _ _ := rfl
  hpkeSeal_isSome _ _ _ _ _ _ := rfl
  hpkeOpen_hpkeSeal seed privateKey info message aad encappedKey ciphertext _ h := by
    obtain ⟨-, rfl⟩ := Prod.mk.inj (Option.some.inj h)
    exact ⟨rfl, unbound_bound _ _⟩

/-! ### Serialization -/

section

variable {α : Type}

def unaryField : Codec UInt8 ℕ :=
  ((terminated 0).comap (fun n => List.replicate n 1)
    (fun ones => if ones = List.replicate ones.length 1 then some ones.length else none)
    fun ones n => by
      constructor
      · intro h
        split_ifs at h with hones
        rw [← Option.some.inj h, ← hones]
      · rintro rfl
        simp).total
    fun n hmem => absurd (eq_of_mem_replicate hmem) (by decide)

def anyBytes : Codec UInt8 Bytes :=
  (dispatch unaryField List.length take fun _ _ h => h).total fun _ => ⟨trivial, rfl⟩

def anyString : Codec UInt8 String := (anyBytes.comap asBytes ofUtf8? ofUtf8?_eq_some_iff).total
    fun _ => trivial

theorem length_of_fits_listOf (c : Codec UInt8 α) (n : ℕ) (l : List α) (h : (listOf c n).Fits l) :
    l.length = n := h.1

def anyList (c : Codec UInt8 α) (hc : ∀ a, c.Fits a) : Codec UInt8 (List α) :=
  (dispatch unaryField List.length (listOf c) (length_of_fits_listOf c)).total fun _ =>
    ⟨trivial, rfl, fun a _ => hc a⟩

theorem mk_publicKey (identity : IdentityId) : ⟨identity.publicKey⟩ = identity := rfl

theorem publicKey_mk (key : Bytes32) : (IdentityId.mk key).publicKey = key := rfl

def anyIdentity : Codec UInt8 IdentityId :=
  bytes32Field.iso (fun identity => identity.publicKey) (fun key => ⟨key⟩) mk_publicKey publicKey_mk

def wrapField : Codec UInt8 EncryptedObjectRecipientWrap :=
  ((pair anyIdentity <| pair anyString <| pair anyString <| pair anyBytes anyBytes).iso
    (fun r => (r.recipientIdentity, r.recipientKeyId, r.wrapAlg, r.encappedKey, r.wrappedKey))
    (fun r => ⟨r.1, r.2.1, r.2.2.1, r.2.2.2.1, r.2.2.2.2⟩) (fun _ => rfl) (fun _ => rfl)).total
    fun _ => ⟨trivial, trivial, trivial, trivial, trivial⟩

def envelopeField : Codec UInt8 EncryptedObjectEnvelope :=
  ((pair anyString <| pair u16Field <| pair anyString <| pair anyIdentity <| pair anyBytes <|
      pair anyString <| pair (optionalField anyString) <| pair u64Field <| pair anyString <|
      pair anyBytes <| pair anyBytes <| pair (anyList wrapField fun _ => trivial) <|
      pair u64Field anyBytes).iso
    (fun envelope => (envelope.body.recordType, envelope.body.version, envelope.body.suiteId,
      envelope.body.author.identity, envelope.body.author.publicKey,
        envelope.body.plaintext.mediaType,
      envelope.body.plaintext.schema, envelope.body.plaintext.declaredSize,
      envelope.body.contentEncryption.alg, envelope.body.contentEncryption.nonce,
      envelope.body.ciphertext, envelope.body.recipients, envelope.body.createdAt,
        envelope.signature))
    (fun (a, b, c, d, e, f, g, h, i, j, k, l, m, n) =>
      ⟨⟨a, b, c, ⟨d, e⟩, ⟨f, g, h⟩, ⟨i, j⟩, k, l, m⟩, n⟩)
    (fun _ => rfl) (fun _ => rfl)).total
    fun _ => ⟨trivial, trivial, trivial, trivial, trivial, trivial, fun _ _ =>
      trivial, trivial, trivial,
      trivial, trivial, trivial, trivial, trivial⟩

end

def json : EnvelopeJson where
  toVec := envelopeField.encode
  fromSlice := envelopeField.whole.decodeAll
  fromSlice_toVec _ := decodeAll_eq_some_iff.mpr ⟨trivial, rfl⟩

end Jolt.Encryption.SampleCiphers

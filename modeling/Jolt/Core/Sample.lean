import Jolt.Core.DeviceWriterLog
import Jolt.Lib.Base32

/-! # A computable instance of the primitives

Third-party functions that can be evaluated: the base32 text forms, and as stand-ins for BLAKE3 and
Ed25519 a polynomial digest and signatures that are the key followed by the digest of the payload.
They satisfy everything `Primitives` asks for, and records built with them run through the checks of
the model. -/

namespace Jolt.Core.Sample

open Lib BigEndian Jolt.Core.Types IdentityAuthority DeviceWriterLog

/-! ### Text forms -/

/-- The base32 text, behind the letters `lead`, of the bytes `head` and 32 bytes more. -/
def base32Text {α : Type} (lead : List Char) (head : Bytes) (toBytes : α → Bytes32)
    (ofBytes : Bytes32 → α) (h : ∀ a, ofBytes (toBytes a) = a) : TextForm α where
  text a := String.ofList (lead ++ Base32.encode (head ++ (toBytes a).bytes))
  parse s :=
    (Bytes32.ofBytes? ((Base32.decode (s.toList.drop lead.length)).drop head.length)).bind fun bs =>
      if lead ++ Base32.encode (head ++ bs.bytes) = s.toList then some (ofBytes bs) else none
  parse_text a := by
    rw [String.toList_ofList, List.drop_left, Base32.decode_encode, List.drop_left,
      Bytes32.ofBytes?,
      dif_pos (toBytes a).length_bytes, Option.bind_some, if_pos rfl, h]

def identityText : TextForm IdentityId := base32Text [] [] (·.publicKey) (⟨·⟩) fun _ => rfl

/-- CIDv1 in base32 (`b`): version, raw codec, BLAKE3 and the digest length, then the digest. -/
def contentIdText : TextForm ContentId := base32Text ['b'] [0x01, 0x55, 0x1e, 0x20] (·.digest)
    (⟨·⟩) fun _ => rfl

/-! ### Digests and signatures -/

/-- The value of the bytes modulo a prime below `2 ^ 256`. -/
def digest (bs : Bytes) : Bytes32 := ⟨beBytes 32 (ofBeBytes bs % (2 ^ 256 - 189)), by simp⟩

def sign (key : Bytes32) (payload : Bytes) : Bytes := key.bytes ++ (digest payload).bytes

def primitives : Primitives where
  blake3 := digest
  identityText := identityText
  contentIdText := contentIdText
  keyFromBytes key := key.length = 32
  verifyStrict key payload signature := signature = key ++ (digest payload).bytes
  verify key payload signature := signature = key ++ (digest payload).bytes
  verifyingKey key := key
  sign := sign
  keyFromBytes_verifyingKey key := by simp [key.length_bytes]
  length_sign key payload := by simp [sign, key.length_bytes, (digest payload).length_bytes]
  verifyStrict_sign key payload := by simp [sign]
  verify_sign key payload := by simp [sign]

/-! ### Records -/

def key (n : UInt8) : Bytes32 := ⟨List.replicate 32 n, by simp⟩

def owner : IdentityId := ⟨key 0⟩

/-- The entry of `deviceId` with the given content, signed with `deviceKey`. -/
def entry (deviceKey : Bytes32) (deviceId : String) (deviceSequence : UInt64)
    (previous : Option DeviceWriterLogEntry) (operation : DeviceWriterOperation)
    (observed : List DeviceWriterLogEntry) : DeviceWriterLogEntry :=
  let body : DeviceWriterLogEntryBody :=
    { recordType := DeviceWriterLog.recordType
      version := DeviceWriterLog.recordVersion
      identity := owner
      deviceId
      deviceSequence
      previousEntryHash := previous.map (·.entryHash primitives)
      operation
      createdAt := 1700000000
      observedHeads := observed.map (·.entryHash primitives) }
  ⟨body, sign deviceKey (body.canonicalBytes primitives)⟩

def content (n : UInt8) : ContentId := ⟨key n⟩

def setSingleton (path : String) (n : UInt8) : DeviceWriterOperation := .setPath path
    (content n) .singleton

/-- The record of the owner's authority chain with the given content. -/
def record (sequence : UInt64) (previous : Option DeviceAuthorizationRecord)
    (operation : DeviceAuthorizationOperation) : DeviceAuthorizationRecord :=
  let body : DeviceAuthorizationRecordBody :=
    { recordType := IdentityAuthority.recordType
      version := IdentityAuthority.recordVersion
      rootPublicKey := owner.publicKey.bytes
      identity := owner
      sequence
      previousRecordHash := previous.map (·.recordHash primitives)
      operation
      issuedAt := 1700000000 }
  ⟨body, sign owner.publicKey (body.canonicalBytes primitives)⟩

/-- The operation that authorizes `deviceId` with the key `key n`. -/
def authorize (deviceId : String) (n : UInt8) : DeviceAuthorizationOperation :=
  .authorizeDevice deviceId (key n).bytes [] [] none 1700000000

def revoke (deviceId : String) (cutoff : Option UInt64) : DeviceAuthorizationOperation :=
  .revokeDevice deviceId cutoff none 1700000000

/-- The authority a chain of the owner verifies to; without devices if it does not verify. -/
def authorityOf (records : List DeviceAuthorizationRecord) : VerifiedIdentityAuthority :=
  match verifyIdentityAuthorityChain primitives owner records with
  | .ok authority => authority
  | .error _ => ⟨owner, 0, ∅⟩

theorem authorityOf_eq {records : List DeviceAuthorizationRecord}
    {authority : VerifiedIdentityAuthority}
    (h : verifyIdentityAuthorityChain primitives owner records = .ok authority) :
    authorityOf records = authority := by rw [authorityOf, h]

/-! ### Two devices -/

def authorizeLaptop : DeviceAuthorizationRecord := record 0 none (authorize "laptop" 1)

def authorizePhone : DeviceAuthorizationRecord := record 1 (some authorizeLaptop)
    (authorize "phone" 2)

def twoDevices : VerifiedIdentityAuthority := authorityOf [authorizeLaptop, authorizePhone]

def laptopNote : DeviceWriterLogEntry := entry (key 1) "laptop" 0 none (setSingleton "/note" 1) []

/-- The phone has seen the laptop's note and replaces it. -/
def phoneNote : DeviceWriterLogEntry := entry (key 2) "phone" 0 none (setSingleton "/note" 2)
    [laptopNote]

/-! ### A revoked third device -/

def authorizeTablet : DeviceAuthorizationRecord := record 2 (some authorizePhone)
    (authorize "tablet" 3)

/-- Nothing the tablet wrote stays accepted. -/
def revokeTablet : DeviceAuthorizationRecord := record 3 (some authorizeTablet)
    (revoke "tablet" none)

def tabletRevoked : VerifiedIdentityAuthority :=
  authorityOf [authorizeLaptop, authorizePhone, authorizeTablet, revokeTablet]

/-- The tablet replaces the laptop's note. -/
def tabletNote : DeviceWriterLogEntry := entry (key 3) "tablet" 0 none (setSingleton "/note" 3)
    [laptopNote]

def phoneReply : DeviceWriterLogEntry := entry (key 2) "phone" 0 none (setSingleton "/note" 4)
    [tabletNote]

end Jolt.Core.Sample

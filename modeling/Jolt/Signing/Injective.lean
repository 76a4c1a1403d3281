import Jolt.Core.Sample
import Jolt.Signing.Formats

/-! # Canonical bytes determine the body

A signature is over the canonical bytes of a body, so it speaks for one body only if no two bodies,
of one record type or of two, have the same bytes. The nine domain separators are words ended by
their only zero byte, so the bytes say which record they are of; behind the separator the fields can
be read back (`Formats`). Together the nine formats are one (`signedFormat`), and its reader is the
inverse of `canonicalBytes` on the bodies whose lengths fit. -/

namespace Jolt.Signing.Injective

open Lib.Encodings Lib.Encodings.Encoding Jolt.Core Jolt.Core.Types IdentityAuthority
  DeviceWriterLog UpdateLog SignedRecords Fields Formats

inductive SignedKind where
  | deviceWriterLogEntry
  | deviceAuthorizationRecord
  | updateLogEntry
  | encryptedObject
  | reachabilityRecord
  | identityEncryptionKeyRecord
  | identityHeadHint
  | pinRequest
  | relayRecord
deriving DecidableEq

inductive SignedBody where
  | deviceWriterLogEntry (body : DeviceWriterLogEntryBody)
  | deviceAuthorizationRecord (body : DeviceAuthorizationRecordBody)
  | updateLogEntry (body : UpdateLogEntryBody)
  | encryptedObject (body : EncryptedObjectBody)
  | reachabilityRecord (body : ReachabilityRecordBody)
  | identityEncryptionKeyRecord (body : IdentityEncryptionKeyRecordBody)
  | identityHeadHint (body : IdentityHeadHintBody)
  | pinRequest (body : PinRequestBody)
  | relayRecord (body : RelayRecordBody)
deriving DecidableEq

namespace SignedBody

def kind : SignedBody → SignedKind
  | deviceWriterLogEntry _ => .deviceWriterLogEntry
  | deviceAuthorizationRecord _ => .deviceAuthorizationRecord
  | updateLogEntry _ => .updateLogEntry
  | encryptedObject _ => .encryptedObject
  | reachabilityRecord _ => .reachabilityRecord
  | identityEncryptionKeyRecord _ => .identityEncryptionKeyRecord
  | identityHeadHint _ => .identityHeadHint
  | pinRequest _ => .pinRequest
  | relayRecord _ => .relayRecord

variable (P : Primitives)

def canonicalBytes : SignedBody → Bytes
  | deviceWriterLogEntry body => body.canonicalBytes P
  | deviceAuthorizationRecord body => body.canonicalBytes P
  | updateLogEntry body => body.canonicalBytes P
  | encryptedObject body => body.canonicalBytes P
  | reachabilityRecord body => body.canonicalBytes P
  | identityEncryptionKeyRecord body => body.canonicalBytes P
  | identityHeadHint body => body.canonicalBytes P
  | pinRequest body => body.canonicalBytes P
  | relayRecord body => body.canonicalBytes P

/-- The lengths the encoder writes fit in a `u64`. -/
def LengthsFit : SignedBody → Prop
  | deviceWriterLogEntry body => WriterEntryFits P body
  | deviceAuthorizationRecord body => AuthorizationFits P body
  | updateLogEntry body => UpdateFits P body
  | encryptedObject body => EncryptedObjectFits P body
  | reachabilityRecord body => ReachabilityFits P body
  | identityEncryptionKeyRecord body => KeyRecordFits P body
  | identityHeadHint body => HeadHintFits P body
  | pinRequest body => PinRequestFits P body
  | relayRecord body => RelayRecordFits P body

end SignedBody

/-! ### Domain separators -/

namespace SignedKind

def name : SignedKind → String
  | deviceWriterLogEntry => "jolt:device-writer-log-entry:v1"
  | deviceAuthorizationRecord => "jolt:identity-authority-record:v1"
  | updateLogEntry => "jolt:update-log-entry:v1"
  | encryptedObject => "jolt:encrypted-object-envelope:v1"
  | reachabilityRecord => "jolt:reachability-record:v1"
  | identityEncryptionKeyRecord => "jolt:identity-encryption-key-record:v1"
  | identityHeadHint => "jolt:identity-head-hint:v1"
  | pinRequest => "jolt:pin-request:v1"
  | relayRecord => "jolt:relay-record:v1"

def domainSeparator : SignedKind → Bytes
  | deviceWriterLogEntry => Core.DeviceWriterLog.domainSeparator
  | deviceAuthorizationRecord => Core.IdentityAuthority.domainSeparator
  | updateLogEntry => Core.UpdateLog.domainSeparator
  | encryptedObject => EncryptedObjectBody.domainSeparator
  | reachabilityRecord => ReachabilityRecordBody.domainSeparator
  | identityEncryptionKeyRecord => IdentityEncryptionKeyRecordBody.domainSeparator
  | identityHeadHint => IdentityHeadHintBody.domainSeparator
  | pinRequest => PinRequestBody.domainSeparator
  | relayRecord => RelayRecordBody.domainSeparator

theorem domainSeparator_eq (kind : SignedKind) :
    kind.domainSeparator = asBytes kind.name ++ [0] := by
  cases kind <;> decide +kernel

theorem zero_notMem_name (kind : SignedKind) : 0 ∉ asBytes kind.name := by
  cases kind <;> decide +kernel

theorem name_injective : Function.Injective name := by
  intro a b h
  cases a <;> cases b <;> first | rfl | (revert h; decide)

/-- The record type, read from the domain separator. -/
def kindField : Codec UInt8 SignedKind :=
  ((terminated 0).enum (fun kind : SignedKind => asBytes kind.name)
    (asBytes_injective.comp name_injective)
    [deviceWriterLogEntry, deviceAuthorizationRecord, updateLogEntry, encryptedObject,
      reachabilityRecord, identityEncryptionKeyRecord, identityHeadHint, pinRequest, relayRecord]
    (by rintro (_ | _) <;> simp)).total zero_notMem_name

theorem encode_kindField (kind : SignedKind) : kindField.encode kind = kind.domainSeparator :=
  (domainSeparator_eq kind).symm

end SignedKind

/-! ### One format for all -/

section

variable (P : Primitives)

/-- What stands behind the domain separator of the given kind. -/
def bodyFormat : SignedKind → Format UInt8 SignedBody
  | .deviceWriterLogEntry => (writerEntryFields P).variant .deviceWriterLogEntry
      (fun | .deviceWriterLogEntry body => some body | _ => none) (fun _ => rfl)
      (by rintro (_ | _) _ ⟨⟩; rfl)
  | .deviceAuthorizationRecord => (authorizationFields P).whole.variant .deviceAuthorizationRecord
      (fun | .deviceAuthorizationRecord body => some body | _ => none) (fun _ => rfl)
      (by rintro (_ | _) _ ⟨⟩; rfl)
  | .updateLogEntry => (updateFields P).whole.variant .updateLogEntry
      (fun | .updateLogEntry body => some body | _ => none) (fun _ => rfl)
      (by rintro (_ | _) _ ⟨⟩; rfl)
  | .encryptedObject => (encryptedObjectFields P).whole.variant .encryptedObject
      (fun | .encryptedObject body => some body | _ => none) (fun _ => rfl)
      (by rintro (_ | _) _ ⟨⟩; rfl)
  | .reachabilityRecord => (reachabilityFields P).whole.variant .reachabilityRecord
      (fun | .reachabilityRecord body => some body | _ => none) (fun _ => rfl)
      (by rintro (_ | _) _ ⟨⟩; rfl)
  | .identityEncryptionKeyRecord => (keyRecordFields P).whole.variant .identityEncryptionKeyRecord
      (fun | .identityEncryptionKeyRecord body => some body | _ => none) (fun _ => rfl)
      (by rintro (_ | _) _ ⟨⟩; rfl)
  | .identityHeadHint => (headHintFields P).whole.variant .identityHeadHint
      (fun | .identityHeadHint body => some body | _ => none) (fun _ => rfl)
      (by rintro (_ | _) _ ⟨⟩; rfl)
  | .pinRequest => (pinRequestFields P).whole.variant .pinRequest
      (fun | .pinRequest body => some body | _ => none) (fun _ => rfl)
      (by rintro (_ | _) _ ⟨⟩; rfl)
  | .relayRecord => (relayRecordFields P).whole.variant .relayRecord
      (fun | .relayRecord body => some body | _ => none) (fun _ => rfl)
      (by rintro (_ | _) _ ⟨⟩; rfl)

theorem kind_of_fits (kind : SignedKind) (body : SignedBody) (h : (bodyFormat P kind).Fits body) :
    body.kind = kind := by
  cases kind <;>
    · rw [bodyFormat] at h
      obtain ⟨_, rfl⟩ := variant_fits_mk h
      rfl

/-- The canonical bytes of all signed bodies. -/
def signedFormat : Format UInt8 SignedBody :=
  dispatch SignedKind.kindField SignedBody.kind (bodyFormat P) (kind_of_fits P)

theorem encode_signedFormat (body : SignedBody) :
    (signedFormat P).encode body = body.canonicalBytes P := by
  rw [signedFormat, encode_dispatch, SignedKind.encode_kindField]
  cases body with
  | deviceWriterLogEntry body => exact (encode_writerEntryFields P body).symm
  | deviceAuthorizationRecord body => exact (encode_authorizationFields P body).symm
  | updateLogEntry body => exact (encode_updateFields P body).symm
  | encryptedObject body => exact (encode_encryptedObjectFields P body).symm
  | reachabilityRecord body => exact (encode_reachabilityFields P body).symm
  | identityEncryptionKeyRecord body => exact (encode_keyRecordFields P body).symm
  | identityHeadHint body => exact (encode_headHintFields P body).symm
  | pinRequest body => exact (encode_pinRequestFields P body).symm
  | relayRecord body => exact (encode_relayRecordFields P body).symm

theorem fits_signedFormat (body : SignedBody) : (signedFormat P).Fits body ↔ body.LengthsFit P := by
  rw [signedFormat, fits_dispatch, and_iff_right (show SignedKind.kindField.Fits _ from trivial)]
  cases body <;> simp [bodyFormat, SignedBody.kind, SignedBody.LengthsFit, whole,
    fits_writerEntryFields,
      fits_authorizationFields, fits_updateFields, fits_encryptedObjectFields,
      fits_reachabilityFields, fits_keyRecordFields, fits_headHintFields, fits_pinRequestFields,
      fits_relayRecordFields]

/-- The body bytes are the canonical bytes of, if they are those of a body whose lengths fit. -/
def parseSigned (bytes : Bytes) : Option SignedBody := (signedFormat P).decodeAll bytes

theorem parseSigned_eq_some_iff {bytes : Bytes} {body : SignedBody} :
    parseSigned P bytes = some body ↔ body.LengthsFit P ∧ body.canonicalBytes P = bytes := by
  rw [parseSigned, decodeAll_eq_some_iff, fits_signedFormat, encode_signedFormat]

/-- **Canonical bytes determine the body.** Two signed bodies, of the same record type or not, whose
canonical bytes are equal are of one type and equal in every field. -/
theorem canonicalBytes_injective {a b : SignedBody} (ha : a.LengthsFit P) (hb : b.LengthsFit P)
    (h : a.canonicalBytes P = b.canonicalBytes P) : a = b := by
  have hparse := (parseSigned_eq_some_iff P).mpr ⟨ha, rfl⟩
  rw [h, (parseSigned_eq_some_iff P).mpr ⟨hb, rfl⟩] at hparse
  exact (Option.some.inj hparse).symm

end

/-- A request of the owner to pin the content `n`. -/
def samplePinRequest (n : UInt8) : SignedBody :=
  .pinRequest
    { ownerPublicKey := Core.Sample.owner.publicKey.bytes
      contentId := Core.Sample.content n
      updateLogContentId := some (Core.Sample.content 0) }

theorem stringFits_sample_content :
    ∀ n ∈ [(0 : UInt8), 1, 2], StringFits
      (Core.Sample.primitives.contentIdToString (Core.Sample.content n)) := by
  unfold StringFits BytesFit
  decide +kernel

theorem samplePinRequest_fits {n : UInt8} (hn : n ∈ [(0 : UInt8), 1, 2]) :
    (samplePinRequest n).LengthsFit Core.Sample.primitives := by
  refine ⟨?_, stringFits_sample_content n hn, ?_⟩
  · show 32 < 2 ^ 64
    decide
  · rintro _ ⟨⟩
    exact stringFits_sample_content 0 (by decide)

/-- Two pin requests have the same bytes only if they are the same. -/
theorem canonicalBytes_injective_pinRequest :
    (samplePinRequest 1).canonicalBytes Core.Sample.primitives ≠
      (samplePinRequest 2).canonicalBytes Core.Sample.primitives := by
  have h1 := samplePinRequest_fits (n := 1) (by decide)
  have h2 := samplePinRequest_fits (n := 2) (by decide)
  intro h
  exact absurd (canonicalBytes_injective Core.Sample.primitives h1 h2 h) (by decide)

end Jolt.Signing.Injective

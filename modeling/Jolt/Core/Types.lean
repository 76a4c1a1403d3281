import Jolt.Lib.BigEndian
import Mathlib.Data.List.Sort

/-! # Identifiers, digests and the primitives the crates import

`IdentityId` and `ContentId` of `jolt-core`, 32-byte digests, and the third-party functions the code
is built on, gathered in `Primitives`: BLAKE3, Ed25519, and the text forms of identities (lowercase
unpadded base32) and content identifiers (CIDv1). What is known of these is what their crates
document: a text form parses back, a signature has 64 bytes and verifies under the key that made it.

Unsigned integers of the source are `UInt64` and `UInt16`; a string is a Lean `String`, its bytes
are its UTF-8 bytes. -/

namespace Jolt.Core.Types

open Std

abbrev Bytes := List UInt8

structure Bytes32 where
  bytes : Bytes
  length_bytes : bytes.length = 32
deriving DecidableEq

namespace Bytes32

theorem ext {a b : Bytes32} (h : a.bytes = b.bytes) : a = b := by
  cases a; cases b; simp_all

instance : Ord Bytes32 := ⟨compareOn bytes⟩

instance : TransOrd Bytes32 := inferInstanceAs (TransCmp (compareOn bytes))

instance : LawfulEqOrd Bytes32 where
  eq_of_compare h := ext (LawfulEqOrd.compare_eq_iff_eq.mp h)

def ofBytes? (bs : Bytes) : Option Bytes32 :=
  if h : bs.length = 32 then some ⟨bs, h⟩ else none

end Bytes32

/-- The identity of an owner is its root public key. -/
structure IdentityId where
  publicKey : Bytes32
deriving DecidableEq

namespace IdentityId

def fromPublicKey (publicKey : Bytes32) : IdentityId := ⟨publicKey⟩

end IdentityId

/-- Every `ContentId` is a CIDv1 with the raw codec over a BLAKE3-256 digest (`from_bytes` builds no
other and `from_str` refuses the rest), so it is determined by the digest. -/
structure ContentId where
  digest : Bytes32
deriving DecidableEq

/-- A text form (`Display`) with its parser (`FromStr`). -/
structure TextForm (α : Type) where
  text : α → String
  parse : String → Option α
  parse_text : ∀ a, parse (text a) = some a

theorem TextForm.text_injective {α : Type} (t : TextForm α) : Function.Injective t.text := by
  intro a b h
  have := t.parse_text a
  rw [h, t.parse_text b] at this
  exact (Option.some.inj this).symm

/-- The third-party functions the crates call. -/
structure Primitives where
  /-- `blake3::hash`. -/
  blake3 : Bytes → Bytes32
  identityText : TextForm IdentityId
  contentIdText : TextForm ContentId
  /-- Whether `VerifyingKey::from_bytes` accepts the key. -/
  keyFromBytes : Bytes → Bool
  /-- `VerifyingKey::verify_strict`: key, payload, signature. -/
  verifyStrict : Bytes → Bytes → Bytes → Bool
  /-- `Verifier::verify`, which does not exclude weak keys: key, payload, signature. -/
  verify : Bytes → Bytes → Bytes → Bool
  /-- `SigningKey::verifying_key`. -/
  verifyingKey : Bytes32 → Bytes32
  /-- `SigningKey::sign`. -/
  sign : Bytes32 → Bytes → Bytes
  keyFromBytes_verifyingKey : ∀ key, keyFromBytes (verifyingKey key).bytes = true
  length_sign : ∀ key payload, (sign key payload).length = 64
  verifyStrict_sign : ∀ key payload, verifyStrict (verifyingKey key).bytes payload
    (sign key payload) = true
  verify_sign : ∀ key payload, verify (verifyingKey key).bytes payload (sign key payload) = true

def ContentId.fromBytes (P : Primitives) (data : Bytes) : ContentId := ⟨P.blake3 data⟩

/-- The text of an identity (`to_string`). -/
def Primitives.identityToString (P : Primitives) (identity : IdentityId) : String :=
  P.identityText.text identity

def Primitives.contentIdToString (P : Primitives) (contentId : ContentId) : String :=
  P.contentIdText.text contentId

/-- How a call can end other than by returning a value: with an error of the function's error type,
or with a panic. -/
inductive Fault (ε : Type) where
  | err (error : ε)
  | panicked (message : String)
deriving DecidableEq, Repr

/-- `.ok()` of a result: an error is dropped, a panic is not. -/
def dropError {ε ε' α : Type} : Except (Fault ε) α → Except (Fault ε') (Option α)
  | .ok a => .ok (some a)
  | .error (.err _) => .ok none
  | .error (.panicked message) => .error (.panicked message)

/-- The UTF-8 bytes of a string (`as_bytes`). -/
def asBytes (s : String) : Bytes := s.toUTF8.data.toList

theorem asBytes_injective : Function.Injective asBytes := by
  intro a b h
  have h' : a.toUTF8.data = b.toUTF8.data := Array.toList_inj.mp h
  exact String.toByteArray_inj.mp (ByteArray.ext h')

def hexDigits (b : UInt8) : List Char :=
  [Nat.digitChar (b.toNat / 16), Nat.digitChar (b.toNat % 16)]

/-- Lowercase hexadecimal text (`to_hex`). -/
def hexText (bs : Bytes) : String := String.ofList (bs.flatMap hexDigits)

theorem hexDigits_injective : Function.Injective hexDigits := by
  have hdigit : ∀ i j : Fin 16, Nat.digitChar i = Nat.digitChar j → i = j := by decide
  intro a b h
  simp only [hexDigits, List.cons.injEq, and_true] at h
  have ha := a.toNat_lt
  have hb := b.toNat_lt
  have hhigh := congrArg Fin.val (hdigit ⟨a.toNat / 16, by omega⟩ ⟨b.toNat / 16, by omega⟩ h.1)
  have hlow := congrArg Fin.val (hdigit ⟨a.toNat % 16, by omega⟩ ⟨b.toNat % 16, by omega⟩ h.2)
  refine UInt8.toNat_inj.mp ?_
  simp only at hhigh hlow
  omega

theorem hexText_injective : Function.Injective hexText := by
  intro a b h
  have h' : a.flatMap hexDigits = b.flatMap hexDigits := String.ofList_injective h
  clear h
  -- Every byte has two digits, so the texts are cut at the same places.
  induction a generalizing b with
  | nil =>
    cases b with
    | nil => rfl
    | cons y b => simp [hexDigits] at h'
  | cons x a ih =>
    cases b with
    | nil => simp [hexDigits] at h'
    | cons y b =>
      rw [List.flatMap_cons, List.flatMap_cons] at h'
      obtain ⟨hx, hrest⟩ := List.append_inj h' rfl
      rw [hexDigits_injective hx, ih hrest]

/-- `char::is_whitespace`: the Unicode property `White_Space`. -/
def isWhitespace (c : Char) : Bool :=
  let n := c.toNat
  (0x9 ≤ n && n ≤ 0xD) || n == 0x20 || n == 0x85 || n == 0xA0 || n == 0x1680 ||
    (0x2000 ≤ n && n ≤ 0x200A) || n == 0x2028 || n == 0x2029 || n == 0x202F || n == 0x205F ||
    n == 0x3000

def trimIsEmpty (s : String) : Bool := s.toList.all isWhitespace

end Jolt.Core.Types

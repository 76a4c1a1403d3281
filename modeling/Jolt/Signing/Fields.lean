import Jolt.Core.Encoding
import Jolt.Lib.Encodings

/-! # The fields of the canonical encodings

Each writer of `Encoding` as an encoding that can be read back. A length is written in 8 bytes, so
what can be read back are the values whose lengths are below `2 ^ 64`: `BytesFit`, `StringFits` and
`VecFits` say so of the three writers that write a length. -/

namespace Jolt.Signing.Fields

open Lib.Encodings Lib.Encodings.Encoding Core.Types Core.Encoding

variable {α : Type} (P : Primitives) (contentId : ContentId) (identity : IdentityId)
  (c : Codec UInt8 α) (o : Option α)

/-! ### Lengths -/

/-- The length `putBytes` writes fits in a `u64`. -/
def BytesFit (value : Bytes) : Prop := value.length < 2 ^ 64

/-- The length `putString` writes fits in a `u64`. -/
def StringFits (value : String) : Prop := BytesFit (asBytes value)

/-- The length `putVec` writes fits in a `u64`, and so do those of the elements. -/
def VecFits (fits : α → Prop) (values : List α) : Prop := values.length < 2 ^ 64 ∧
    ∀ value ∈ values, fits value

/-! ### Numbers and bytes -/

def u16Field : Codec UInt8 UInt16 :=
  ((bigEndian 2).comap UInt16.toNat (fun n => if n < 2 ^ 16 then some (.ofNat n) else none)
    fun n m => by
      constructor
      · intro h
        split_ifs at h with hn
        rw [← Option.some.inj h, UInt16.toNat_ofNat', Nat.mod_eq_of_lt hn]
      · rintro rfl
        rw [if_pos m.toNat_lt, UInt16.ofNat_toNat]).total
    fun n => n.toNat_lt

def u64Field : Codec UInt8 UInt64 :=
  ((bigEndian 8).comap UInt64.toNat (fun n => if n < 2 ^ 64 then some (.ofNat n) else none)
    fun n m => by
      constructor
      · intro h
        split_ifs at h with hn
        rw [← Option.some.inj h, UInt64.toNat_ofNat', Nat.mod_eq_of_lt hn]
      · rintro rfl
        rw [if_pos m.toNat_lt, UInt64.ofNat_toNat]).total
    fun n => n.toNat_lt

def bytesField : Codec UInt8 Bytes := counted 8

def bytes32Field : Codec UInt8 Bytes32 :=
  ((take 32).comap Bytes32.bytes Bytes32.ofBytes? fun bs a => by
    constructor
    · intro h
      unfold Bytes32.ofBytes? at h
      split_ifs at h with hbs
      rw [← Option.some.inj h]
    · rintro rfl
      rw [Bytes32.ofBytes?, dif_pos a.length_bytes]).total
    fun a => a.length_bytes

/-! ### Text -/

def ofUtf8? (bs : Bytes) : Option String := String.fromUTF8? ⟨bs.toArray⟩

theorem ofUtf8?_eq_some_iff (bs : Bytes) (s : String) : ofUtf8? bs = some s ↔ asBytes s = bs := by
  unfold ofUtf8? String.fromUTF8?
  constructor
  · intro h
    split_ifs at h with hvalid
    rw [← Option.some.inj h]
    rfl
  · rintro rfl
    exact dif_pos s.isValidUTF8

def stringField : Codec UInt8 String := bytesField.comap asBytes ofUtf8? ofUtf8?_eq_some_iff

/-- A text form of `α`, when it is the text the value is written as. -/
def textField (form : TextForm α) : Codec UInt8 α :=
  stringField.comap form.text (fun s => (form.parse s).filter fun a =>
    form.text a = s) fun s a => by
    simp only [Option.filter_eq_some_iff, decide_eq_true_eq, and_iff_right_iff_imp]
    rintro rfl
    exact form.parse_text a

def identityField : Codec UInt8 IdentityId := textField P.identityText

def contentIdField : Codec UInt8 ContentId := textField P.contentIdText

/-! ### Optional values and lists -/

def optionalField : Codec UInt8 (Option α) := optional 1 0 (by decide) c

def vecField : Codec UInt8 (List α) := countedList 8 c

/-! ### What is written, and what fits -/

@[simp] theorem encode_u16Field : u16Field.encode = u16Bytes := rfl

@[simp] theorem encode_u64Field : u64Field.encode = u64Bytes := rfl

@[simp] theorem encode_bytesField : bytesField.encode = putBytes := rfl

@[simp] theorem encode_bytes32Field : bytes32Field.encode = Bytes32.bytes := rfl

@[simp] theorem encode_stringField : stringField.encode = putString := rfl

@[simp] theorem encode_identityField :
    (identityField P).encode identity = putString (P.identityToString identity) := rfl

@[simp] theorem encode_contentIdField :
    (contentIdField P).encode contentId = putString (P.contentIdToString contentId) := rfl

@[simp] theorem encode_optionalField : (optionalField c).encode o = putOptional c.encode o := by
  cases o <;> rfl

@[simp] theorem encode_vecField : (vecField c).encode = putVec c.encode := rfl

@[simp] theorem fits_u16Field (n : UInt16) : u16Field.Fits n := trivial

@[simp] theorem fits_u64Field (n : UInt64) : u64Field.Fits n := trivial

@[simp] theorem fits_bytes32Field (a : Bytes32) : bytes32Field.Fits a := trivial

@[simp] theorem fits_bytesField : bytesField.Fits = BytesFit := funext fun _ => propext
    (and_iff_left rfl)

@[simp] theorem fits_stringField : stringField.Fits = StringFits := by
  funext value
  exact congrFun fits_bytesField (asBytes value)

@[simp] theorem fits_identityField : (identityField P).Fits identity ↔ StringFits
    (P.identityToString identity) :=
  iff_of_eq (congrFun fits_stringField _)

@[simp] theorem fits_contentIdField : (contentIdField P).Fits contentId ↔ StringFits
    (P.contentIdToString contentId) :=
  iff_of_eq (congrFun fits_stringField _)

@[simp] theorem fits_optionalField : (optionalField c).Fits o ↔ ∀ value ∈ o, c.Fits value := Iff.rfl

@[simp] theorem fits_vecField (values : List α) : (vecField c).Fits values ↔
    VecFits c.Fits values :=
  and_congr_right fun _ => and_iff_right rfl

end Jolt.Signing.Fields

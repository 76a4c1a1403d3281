import Jolt.Core.Types

/-! # The writers of the canonical encodings

Every signed record of `jolt-core` is serialized by hand into the bytes that are signed and hashed.
The encoders push fixed-width big-endian integers, length-prefixed byte strings, optional values
behind a presence byte and counted lists. A writer `put_x(out, value)` of the source is the function
giving the bytes it pushes. -/

namespace Jolt.Core.Encoding

open Lib.BigEndian Jolt.Core.Types

def u16Bytes (n : UInt16) : Bytes := beBytes 2 n.toNat

def u64Bytes (n : UInt64) : Bytes := beBytes 8 n.toNat

def lenBytes (n : ℕ) : Bytes := beBytes 8 n

def putBytes (value : Bytes) : Bytes := lenBytes value.length ++ value

def putString (value : String) : Bytes := putBytes (asBytes value)

/-- A presence byte, followed by the value if there is one. -/
def putOptional {α : Type} (put : α → Bytes) : Option α → Bytes
  | some value => 1 :: put value
  | none => [0]

def putOptionalString (value : Option String) : Bytes := putOptional putString value

def putVec {α : Type} (put : α → Bytes) (values : List α) : Bytes :=
  lenBytes values.length ++ values.flatMap put

def putStringVec (values : List String) : Bytes := putVec putString values

end Jolt.Core.Encoding

import Jolt.Core.Types
import Jolt.Lib.Checks
import Jolt.Lib.Text

/-! # Identity addresses

`JoltAddress`, its text and the path normalization of `identity_address.rs`. A path is stored with a
leading slash; queries, fragments, whitespace and dot segments are refused. The text of an address
is the label of the identity, `.jolt` and the path, which is left out if it is `/`. -/

namespace Jolt.Core.Address

open Lib.Checks Lib.Text Jolt.Core.Types

def joltSuffix : String := ".jolt"

/-- The error of the address parser, with its text. -/
inductive JoltError where
  | invalidIdentityAddress (message : String)
deriving DecidableEq, Repr

def JoltError.toString : JoltError → String
  | invalidIdentityAddress message => s!"Invalid identity address: {message}"

structure JoltAddress where
  identity : IdentityId
  path : String
deriving DecidableEq

def segments (path : String) : List (List Char) := path.toList.splitOn '/'

def normalizePath (path : String) : Except JoltError String :=
  if path = "" ∨ path = "/" then
    .ok "/"
  else if '?' ∈ path.toList ∨ '#' ∈ path.toList ∨ path.toList.any isWhitespace then
    .error (.invalidIdentityAddress "path must not contain whitespace, query, or fragment")
  else
    let normalized := if path.toList.head? = some '/' then path else "/" ++ path
    if (segments normalized).any fun segment => segment = ['.'] ∨ segment = ['.', '.'] then
      .error (.invalidIdentityAddress "path must not contain . or .. segments")
    else
      .ok normalized

def JoltAddress.new (identity : IdentityId) (path : String) : Except JoltError JoltAddress :=
  (normalizePath path).map fun path => ⟨identity, path⟩

def JoltAddress.toString (P : Primitives) (address : JoltAddress) : String :=
  if address.path = "/" then P.identityToString address.identity ++ joltSuffix
  else P.identityToString address.identity ++ joltSuffix ++ address.path

/-- `JoltAddress::from_str`. The parser of the label is the one of the identity's text form; the
text of its errors is `labelError`, as the decoder gives it. -/
def JoltAddress.fromStr (P : Primitives) (labelError : String → String) (s : String) :
    Except JoltError JoltAddress := do
  ensure (trimMatches isWhitespace s = s ∧ '?' ∉ s.toList ∧ '#' ∉ s.toList)
    (.invalidIdentityAddress "address must not contain whitespace, query, or fragment")
  let (host, rawPath) := (splitOnce '/' s).getD (s, "")
  let identityLabel ← okOr (stripSuffix joltSuffix host)
    (.invalidIdentityAddress "address must end with .jolt")
  ensure (identityLabel ≠ "" ∧ '.' ∉ identityLabel.toList)
    (.invalidIdentityAddress "address must contain exactly one identity label before .jolt")
  let identity ← okOr (P.identityText.parse identityLabel)
    (.invalidIdentityAddress (labelError identityLabel))
  JoltAddress.new identity rawPath

end Jolt.Core.Address

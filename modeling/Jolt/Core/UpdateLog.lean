import Jolt.Core.Address
import Jolt.Core.Encoding

/-! # Update logs

The root-signed log of `update_log.rs`. Every entry carries one action of the owner, its sequence
and the hash of the entry before, and is signed with the owner's identity key.
`verifyUpdateLogForIdentity` checks a whole log; on an empty one it indexes the first entry and
panics. `resolveLatestRecord` replays the actions of a log, and `selectNewestVerifiedUpdateLog`
picks the longest of several. -/

namespace Jolt.Core.UpdateLog

open Std Lib.Checks Jolt.Core.Types Encoding

def domainSeparator : Bytes := asBytes "jolt:update-log-entry:v1\x00"

def publicKeyLen : ℕ := 32

def signatureLen : ℕ := 64

inductive UpdateLogError where
  | invalidOwnerPublicKey
  | invalidSignatureLength
  | invalidSignature
  | invalidGenesisSequence
  | genesisHasPreviousHash
  | outOfOrderSequence (index : ℕ) (expected : ℕ) (actual : UInt64)
  | brokenPreviousHash (index : ℕ)
  | ownerChanged (index : ℕ)
  | emptyLog
  | identityMismatch
  | pathNotFound (path : String)
deriving DecidableEq, Repr

def UpdateLogError.toString : UpdateLogError → String
  | invalidOwnerPublicKey => "owner public key must be 32 bytes"
  | invalidSignatureLength => "signature must be 64 bytes"
  | invalidSignature => "invalid signature"
  | invalidGenesisSequence => "genesis entry must have sequence 0"
  | genesisHasPreviousHash => "genesis entry must not have a previous entry hash"
  | outOfOrderSequence index expected actual =>
    s!"entry at index {index} has sequence {actual}, expected {expected}"
  | brokenPreviousHash index => s!"entry at index {index} has a broken previous-entry hash"
  | ownerChanged index => s!"entry at index {index} changes owner public key"
  | emptyLog => "cannot resolve latest state from an empty update log"
  | identityMismatch => "requested address identity does not match update log owner"
  | pathNotFound path => s!"no content path found for {path}"

structure UpdateLogEntryHash where
  bytes : Bytes32
deriving DecidableEq

structure UpdateProfile where
  displayName : Option String
  bio : Option String
  avatar : Option ContentId
deriving DecidableEq

inductive RelayCapability where
  | discovery
  | pinning
  | serving
deriving DecidableEq, Repr

structure RelayHint where
  identity : IdentityId
  peerId : String
  addresses : List String
  capabilities : List RelayCapability
  expiresAt : Option UInt64
deriving DecidableEq

inductive UpdateAction where
  | publishContent (contentId : ContentId)
  | updateRoot (contentId : ContentId)
  | updateProfile (profile : UpdateProfile)
  | setPath (path : String) (contentId : ContentId)
  | removePath (path : String)
  | setReachability (relays : List RelayHint)
deriving DecidableEq

structure UpdateLogEntryBody where
  ownerPublicKey : Bytes
  sequence : UInt64
  previousEntryHash : Option UpdateLogEntryHash
  action : UpdateAction
deriving DecidableEq

structure UpdateLogEntry where
  body : UpdateLogEntryBody
  signature : Bytes
deriving DecidableEq

structure ResolvedLatestRecord where
  ownerPublicKey : Bytes
  latestSequence : UInt64
  latestRoot : Option ContentId
  profile : Option UpdateProfile
  paths : ExtTreeMap String ContentId
  reachability : List RelayHint

structure ResolvedJoltTarget where
  identity : IdentityId
  path : String
  contentId : ContentId
  reachability : List RelayHint
deriving DecidableEq

structure VerifiedUpdateLog where
  entries : List UpdateLogEntry
  latestSequence : UInt64
deriving DecidableEq

section

variable (P : Primitives) (entry : UpdateLogEntry) (identity : IdentityId)
  (entries : List UpdateLogEntry) (ownerPublicKey : Bytes)

/-! ### Canonical bytes -/

def RelayCapability.toByte : RelayCapability → UInt8
  | discovery => 0
  | pinning => 1
  | serving => 2

def RelayHint.encode (relay : RelayHint) : Bytes :=
  putString (P.identityToString relay.identity) ++ putString relay.peerId ++
    putVec putString relay.addresses ++ putVec (fun capability => [capability.toByte])
    relay.capabilities ++ putOptional u64Bytes relay.expiresAt

def UpdateAction.encode : UpdateAction → Bytes
  | publishContent contentId => [0] ++ putString (P.contentIdToString contentId)
  | updateRoot contentId => [1] ++ putString (P.contentIdToString contentId)
  | updateProfile profile =>
    [2] ++ putOptionalString profile.displayName ++ putOptionalString profile.bio ++
      putOptionalString (profile.avatar.map P.contentIdToString)
  | setPath path contentId => [3] ++ putString path ++ putString (P.contentIdToString contentId)
  | removePath path => [4] ++ putString path
  | setReachability relays => [5] ++ putVec (RelayHint.encode P) relays

def UpdateLogEntryBody.canonicalBytes (body : UpdateLogEntryBody) : Bytes :=
  domainSeparator ++ putBytes body.ownerPublicKey ++ u64Bytes body.sequence ++
    putOptional (·.bytes.bytes) body.previousEntryHash ++ body.action.encode P

def UpdateLogEntry.entryHash : UpdateLogEntryHash := ⟨P.blake3 (entry.body.canonicalBytes P)⟩

/-! ### Checks -/

def validateOwnerPublicKey : Except UpdateLogError Unit :=
  ensure (ownerPublicKey.length = publicKeyLen) .invalidOwnerPublicKey

def validateSignatureLen (signature : Bytes) : Except UpdateLogError Unit :=
  ensure (signature.length = signatureLen) .invalidSignatureLength

def identityFromPublicKeyBytes (publicKey : Bytes) : Except UpdateLogError IdentityId := do
  let publicKey ← okOr (Bytes32.ofBytes? publicKey) .invalidOwnerPublicKey
  return IdentityId.fromPublicKey publicKey

def verifySignature (payload signature : Bytes) : Except UpdateLogError Unit := do
  validateOwnerPublicKey ownerPublicKey
  validateSignatureLen signature
  ensure (P.keyFromBytes ownerPublicKey) .invalidOwnerPublicKey
  ensure (P.verify ownerPublicKey payload signature) .invalidSignature

def UpdateLogEntry.verifySignature (entry : UpdateLogEntry) : Except UpdateLogError Unit :=
  UpdateLog.verifySignature P entry.body.ownerPublicKey
    (entry.body.canonicalBytes P) entry.signature

/-! ### Making entries -/

def UpdateLogEntry.signBody (body : UpdateLogEntryBody) (signer : Bytes → Bytes) :
    Except UpdateLogError UpdateLogEntry := do
  validateOwnerPublicKey body.ownerPublicKey
  let signature := signer (body.canonicalBytes P)
  validateSignatureLen signature
  return ⟨body, signature⟩

def UpdateLogEntry.genesis (action : UpdateAction) (signer : Bytes → Bytes) :
    Except UpdateLogError UpdateLogEntry :=
  signBody P { ownerPublicKey, sequence := 0, previousEntryHash := none, action } signer

def UpdateLogEntry.append (action : UpdateAction) (signer : Bytes → Bytes) :
    Except UpdateLogError UpdateLogEntry :=
  signBody P
    { ownerPublicKey := entry.body.ownerPublicKey
      sequence := entry.body.sequence + 1
      previousEntryHash := some (entry.entryHash P)
      action } signer

/-! ### Logs -/

/-- One turn of the loop, at `index` of the log whose first entry has the key `ownerPublicKey`. The
sum cannot overflow: the entry before carries its own index. -/
def verifyEntry (index : ℕ) (previous : Option UpdateLogEntry) (entry : UpdateLogEntry) :
    Except UpdateLogError Unit := do
  entry.verifySignature P
  match previous with
  | none =>
    ensure (entry.body.sequence = 0) .invalidGenesisSequence
    ensure (entry.body.previousEntryHash = none) .genesisHasPreviousHash
  | some previous =>
    ensure (entry.body.ownerPublicKey = ownerPublicKey) (.ownerChanged index)
    let expected := previous.body.sequence.toNat + 1
    ensure (entry.body.sequence.toNat = expected)
      (.outOfOrderSequence index expected entry.body.sequence)
    ensure (entry.body.previousEntryHash = some (previous.entryHash P)) (.brokenPreviousHash index)

/-- The loop over the entries from `index` on. -/
def verifyEntries (ownerPublicKey : Bytes) :
    ℕ → Option UpdateLogEntry → List UpdateLogEntry → Except UpdateLogError Unit
  | _, _, [] => .ok ()
  | index, previous, entry :: rest => do
    verifyEntry P ownerPublicKey index previous entry
    verifyEntries ownerPublicKey (index + 1) (some entry) rest

def verifyUpdateLog : Except UpdateLogError Unit :=
  match entries with
  | [] => .ok ()
  | first :: rest => verifyEntries P first.body.ownerPublicKey 0 none (first :: rest)

def verifyUpdateLogForIdentity : Except (Fault UpdateLogError) UInt64 := do
  (verifyUpdateLog P entries).mapError .err
  match entries with
  | [] => .error (.panicked "index out of bounds: the len is 0 but the index is 0")
  | first :: rest =>
    let owner ← (identityFromPublicKeyBytes first.body.ownerPublicKey).mapError .err
    ensure (owner = identity) (.err .identityMismatch)
    return ((first :: rest).getLast (by simp)).body.sequence

/-! ### The latest state -/

/-- One turn of the loop of `resolve_latest_record`. -/
def ResolvedLatestRecord.apply (resolved : ResolvedLatestRecord) (entry : UpdateLogEntry) :
    ResolvedLatestRecord :=
  let resolved := { resolved with latestSequence := entry.body.sequence }
  match entry.body.action with
  | .publishContent _ => resolved
  | .updateRoot contentId => { resolved with latestRoot := some contentId }
  | .updateProfile profile => { resolved with profile := some profile }
  | .setPath path contentId => { resolved with paths := resolved.paths.insert path contentId }
  | .removePath path => { resolved with paths := resolved.paths.erase path }
  | .setReachability relays => { resolved with reachability := relays }

def resolveLatestRecord : Except UpdateLogError ResolvedLatestRecord := do
  verifyUpdateLog P entries
  let first ← okOr entries.head? .emptyLog
  return entries.foldl ResolvedLatestRecord.apply
    { ownerPublicKey := first.body.ownerPublicKey
      latestSequence := first.body.sequence
      latestRoot := none
      profile := none
      paths := ∅
      reachability := [] }

/-! ### The newest of several logs -/

/-- One turn of `filter_map` and `max_by_key`: of two equally new logs the later one stays. -/
def newerVerified (best : Option VerifiedUpdateLog) (entries : List UpdateLogEntry) :
    Except (Fault Empty) (Option VerifiedUpdateLog) := do
  let verified ← dropError (verifyUpdateLogForIdentity P identity entries)
  match verified with
  | none => return best
  | some latestSequence =>
    if best.all (·.latestSequence ≤ latestSequence) then return some { entries, latestSequence }
    else return best

def selectNewestVerifiedUpdateLog (candidates : List (List UpdateLogEntry)) :
    Except (Fault Empty) (Option VerifiedUpdateLog) :=
  candidates.foldlM (newerVerified P identity) none

end

end Jolt.Core.UpdateLog

import Jolt.Core.Address

/-! # Capabilities of app sessions

The capabilities an app asks for and is granted, as `session_store.rs` parses them when a request is
approved, and as the routes of `app_api.rs` check them when they are used. The parser reads a
capability into an action or a kind of read with a *scope*, which is one path or all paths below
one. The routes work on the raw text: they cut off the name of the action and compare the rest with
the path, up to a final star.

On capabilities that the parser accepts, the two agree (`pathMatches_iff_allows`). -/

namespace Jolt.Server.Capabilities

open Lib.Text Core.Types

/-! ### Scopes and capabilities -/

inductive EnumerateIdentityScope where
  | selfIdentity
  | anyIdentity
deriving DecidableEq

inductive SubscriptionIdentityScope where
  | anyIdentity
  | exact (identity : IdentityId)
deriving DecidableEq

inductive PathCapabilityAction where
  | publish
  | delete
  | publishEncrypted
  | inventory
  | pinOwn
  | encrypt
  | decrypt
deriving DecidableEq

/-- One path, or all paths that start with a text. -/
inductive PathScope where
  | exact (path : String)
  | below (start : String)
deriving DecidableEq

inductive AppCapability where
  | resolvePublic
  | fetchPublic
  | ingressSend
  | ingressRead
  | ingressDecide
  | enumerate (identityScope : EnumerateIdentityScope) (scope : PathScope)
  | subscribe (identityScope : SubscriptionIdentityScope) (scope : PathScope)
  | path (action : PathCapabilityAction) (scope : PathScope)
deriving DecidableEq

namespace PathScope

def isValidExactScopeBase (scope : String) : Bool :=
  scope ≠ "/" && ((scope.toList.splitOn '/').filter (· ≠ [])).all fun segment =>
    segment ≠ ['.'] && segment ≠ ['.', '.']

def parse (raw : String) : Option PathScope :=
  if !startsWith raw "/" || '?' ∈ raw.toList || '#' ∈ raw.toList ||
    raw.toList.any isWhitespace then none
  else if 1 < raw.toList.count '*' then none
  else if raw.toList.count '*' = 1 then do
    let base ← stripSuffix "/*" raw
    if isValidExactScopeBase base then some (.below (base ++ "/")) else none
  else if isValidExactScopeBase raw then some (.exact raw)
  else none

/-- Whether everything the scope `granted` allows was asked for. -/
def contains : PathScope → PathScope → Bool
  | .exact requested, .exact granted => requested = granted
  | .below start, .exact granted => startsWith granted start
  | .below requested, .below granted => startsWith granted requested
  | .exact _, .below _ => false

def allowsPath : PathScope → String → Bool
  | .exact only, path => path = only
  | .below start, path => startsWith path start

end PathScope

def PathCapabilityAction.text : PathCapabilityAction → String
  | publishEncrypted => "publish:encrypted:"
  | publish => "publish:"
  | delete => "delete:"
  | inventory => "inventory:"
  | pinOwn => "pin:own:"
  | encrypt => "encrypt:"
  | decrypt => "decrypt:"

/-- The actions in the order in which they are tried; `publish:encrypted:` comes before
`publish:`. -/
def pathActions : List PathCapabilityAction :=
  [.publishEncrypted, .publish, .delete, .inventory, .pinOwn, .encrypt, .decrypt]

/-- The first action whose text starts the capability decides. -/
def parsePathCapability (raw : String) : Option AppCapability := do
  let (action, scope) ← pathActions.findSome? fun action =>
    (stripPrefix action.text raw).map fun scope => (action, scope)
  let scope ← PathScope.parse scope
  return .path action scope

/-- The identity of a subscription is named as in its address, with or without `.jolt`. -/
def SubscriptionIdentityScope.parse (P : Primitives) (identity : String) :
    Option SubscriptionIdentityScope :=
  if identity = "any" then some .anyIdentity
  else (P.identityText.parse (trimEndMatches ".jolt" identity)).map .exact

namespace AppCapability

variable (P : Primitives)

def parse (raw : String) : Option AppCapability :=
  if raw = "resolve:public" then some .resolvePublic
  else if raw = "fetch:public" then some .fetchPublic
  else if raw = "ingress:send" then some .ingressSend
  else if raw = "ingress:read" then some .ingressRead
  else if raw = "ingress:decide" then some .ingressDecide
  else if startsWith raw "enumerate:self:" then do
    let scope ← PathScope.parse (← stripPrefix "enumerate:self:" raw)
    return .enumerate .selfIdentity scope
  else if startsWith raw "enumerate:any:" then do
    let scope ← PathScope.parse (← stripPrefix "enumerate:any:" raw)
    return .enumerate .anyIdentity scope
  else if startsWith raw "subscribe:" then do
    let (identity, scope) ← splitOnce ':' (← stripPrefix "subscribe:" raw)
    let identityScope ← SubscriptionIdentityScope.parse P identity
    let scope ← PathScope.parse scope
    return .subscribe identityScope scope
  else parsePathCapability raw

def contains : AppCapability → AppCapability → Bool
  | resolvePublic, resolvePublic => true
  | fetchPublic, fetchPublic => true
  | ingressSend, ingressSend => true
  | ingressRead, ingressRead => true
  | ingressDecide, ingressDecide => true
  | enumerate requestedIdentity requested, enumerate grantedIdentity granted =>
    (requestedIdentity = grantedIdentity || requestedIdentity = .anyIdentity) &&
      requested.contains granted
  | subscribe requestedIdentity requested, subscribe grantedIdentity granted =>
    (requestedIdentity = grantedIdentity || requestedIdentity = .anyIdentity) &&
      requested.contains granted
  | path requestedAction requested, path grantedAction granted =>
    requestedAction = grantedAction && requested.contains granted
  | _, _ => false

def allowsDataSubscription : AppCapability → IdentityId → String → Bool
  | subscribe identityScope scope, identity, start =>
    (identityScope = .anyIdentity || identityScope = .exact identity) && scope.allowsPath start
  | _, _, _ => false

end AppCapability

def isGrantableAppCapability (P : Primitives) (capability : String) : Bool :=
  (AppCapability.parse P capability).isSome

def capabilityWasRequested (P : Primitives) (capability : String) (requested : List String) :
    Bool :=
  match AppCapability.parse P capability with
  | none => false
  | some granted => (requested.filterMap (AppCapability.parse P)).any (·.contains granted)

/-! ### The checks of the routes -/

/-- `capability_patterns`: what follows the given text in the granted capabilities. -/
def capabilityPatterns (grantedCapabilities : List String) (start : String) : List String :=
  grantedCapabilities.filterMap (stripPrefix start)

def pathMatches (pattern path : String) : Bool :=
  match stripSuffix "*" pattern with
  | some start => startsWith path start
  | none => path = pattern

/-! ### Scopes -/

namespace PathScope

variable {raw path : String} {scope : PathScope}

theorem pathMatches_iff_allows (h : parse raw = some scope) :
    pathMatches raw path = scope.allowsPath path := by
  unfold parse at h
  split_ifs at h with hbad hmany hone hexact
  · obtain ⟨base, hbase, h⟩ := Option.bind_eq_some_iff.mp h
    split_ifs at h with hvalid
    cases h
    obtain rfl := stripSuffix_eq_some_iff.mp hbase
    have hstar : stripSuffix "*" (base ++ "/*") = some (base ++ "/") := by
      rw [stripSuffix_eq_some_iff, String.append_assoc]
      rfl
    rw [pathMatches, hstar]
    rfl
  · cases h
    have hnone : stripSuffix "*" raw = none := by
      rw [Option.eq_none_iff_forall_not_mem]
      intro rest hrest
      rw [Option.mem_def, stripSuffix_eq_some_iff] at hrest
      have hcount : raw.toList.count '*' = rest.toList.count '*' + 1 := by
        rw [hrest, String.toList_append, List.count_append]
        rfl
      omega
    rw [pathMatches, hnone]
    rfl

theorem allowsPath_of_contains {requested granted : PathScope}
    (h : requested.contains granted = true) (hpath : granted.allowsPath path = true) :
    requested.allowsPath path = true := by
  cases requested with
  | exact requested =>
    cases granted with
    | exact granted =>
      simp only [contains, allowsPath, decide_eq_true_eq] at h hpath ⊢
      rw [hpath, h]
    | below start => cases h
  | below requested =>
    cases granted with
    | exact granted =>
      simp only [contains, allowsPath, decide_eq_true_eq] at h hpath ⊢
      rwa [hpath]
    | below start => exact startsWith_trans hpath h

/-- **The check of scopes is exact**: a scope contains another if and only if it allows every path
that the other does. -/
theorem contains_iff_allowsPath (requested granted : PathScope) :
    requested.contains granted = true ↔
    ∀ path, granted.allowsPath path = true → requested.allowsPath path = true := by
  refine ⟨fun h path => allowsPath_of_contains h, fun h => ?_⟩
  cases granted with
  | exact granted =>
    have hgranted := h granted (decide_eq_true rfl)
    cases requested with
    | exact requested => exact decide_eq_true (of_decide_eq_true hgranted).symm
    | below start => exact hgranted
  | below start =>
    have hstart := h start (startsWith_refl start)
    cases requested with
    | below requested => exact hstart
    | exact requested =>
      -- Two paths below `start` cannot both be the only one that was asked for.
      have hlonger := h (start ++ "/") (startsWith_append start "/")
      have heq := (of_decide_eq_true hlonger).trans (of_decide_eq_true hstart).symm
      simpa using congrArg String.length heq

theorem startsWith_slash_of_parse (h : parse raw = some scope) : startsWith raw "/" = true := by
  unfold parse at h
  split_ifs at h with hbad <;> simp_all

end PathScope

end Jolt.Server.Capabilities

import Jolt.Server.Sessions

/-! # What the routes of apps check

The checks that the routes of `app_api.rs` share: which session a request belongs to, whether one of
its granted capabilities covers what is asked for, and which paths are taken at all. -/

namespace Jolt.Server.AppApi

open Lib Checks Text Calls Call Core.Types Network.DeviceWriterCache Capabilities Sessions

inductive AppApiError where
  | session (error : AppSessionStoreError)
  | forbidden (message : String)
  | network (error : NetworkError)
deriving DecidableEq

/-- The failure of a call on the store is the failure of the route (`?`). -/
def onSessions {α : Type} (call : StoreCall α) : Call AppSessionStore AppApiError α := fun store =>
  ((call store).1.mapError .session, (call store).2)

/-- The header `authorization`, if there is one, and its text, if it is a text. -/
def bearerToken (authorization : Option (Option String)) : Except AppSessionStoreError String := do
  let value ← okOr authorization .missingBearerToken
  let raw ← okOr value .invalidToken
  let token ← okOr (stripPrefix "Bearer " raw) .invalidToken
  ensure (token ≠ "") .invalidToken
  return token

def authenticatedSession (P : Primitives) (c : Circumstances)
    (authorization : Option (Option String)) :
    Call AppSessionStore AppApiError AppSessionView := do
  let token ← check ((bearerToken authorization).mapError .session)
  onSessions (sessionForToken P c token)

/-- The name of the action is given as the text before the path, as `"publish:"`. -/
def requirePathCapability (session : AppSessionView) (capability path : String) :
    Except AppApiError Unit :=
  ensure
    ((capabilityPatterns session.grantedCapabilities capability).any (pathMatches · path) = true)
    (.forbidden s!"path {path} is outside granted capability {capability}<path>")

/-- A path gets a slash before it if it has none. -/
def normalizePath (path : String) : Except AppApiError String := do
  let path := trimMatches isWhitespace path
  ensure (path ≠ "") (.network (.invalidInput "path must not be empty"))
  ensure (¬ ('?' ∈ path.toList ∨ '#' ∈ path.toList ∨ path.toList.any isWhitespace = true))
    (.network (.invalidInput "path must not contain whitespace, query, or fragment"))
  let normalized := if startsWith path "/" then path else "/" ++ path
  ensure (((normalized.toList.splitOn '/').all fun segment =>
      segment ≠ ['.'] && segment ≠ ['.', '.']) = true)
    (.network (.invalidInput "path must not contain . or .. segments"))
  return normalized

theorem startsWith_slash_of_normalizePath {raw path : String} (h : normalizePath raw = .ok path) :
    startsWith path "/" = true := by
  unfold normalizePath at h
  simp only [bind_eq_ok, ensure_eq_ok, pure_eq_ok] at h
  obtain ⟨_, -, _, -, _, -, rfl⟩ := h
  split_ifs with hslash
  · exact hslash
  · exact startsWith_append _ _

end Jolt.Server.AppApi

import Jolt.Core.Sample
import Jolt.Server.AppApi
import Jolt.Server.SessionRuns

/-! # Path capabilities

A capability for an action on paths is the name of the action followed by a scope, and parses to
just that (`parse_eq_path_iff`), although one action's name begins with another's. So the check of
the routes, which cuts off the name and compares texts, agrees with the parser on everything an
approval can grant, and what is granted was asked for: in every run of the store, a session can act
on a path exactly if the owner granted this, and only if the app asked for it
(`requirePathCapability_iff`). -/

namespace Jolt.Server.PathCapabilities

open Lib.Checks Lib.Text Jolt.Core Jolt.Core.Types Capabilities AppCapability Sessions AppApi
  SessionRuns List Option

variable {P : Primitives} {action : PathCapabilityAction} {scope : PathScope}
  {raw rest path : String}

/-! ### Parsing a capability for an action -/

/-- The texts that one of the two begins with. -/
def comparable (a b : String) : Bool := startsWith a b || startsWith b a

theorem comparable_of_startsWith {a b r : String} (h : startsWith (a ++ r) b = true) :
    comparable a b = true := by
  obtain ⟨r', hr⟩ := startsWith_iff.mp h
  have ha : a.toList <+: (a ++ r).toList := by
    rw [String.toList_append]
    exact prefix_append _ _
  have hb : b.toList <+: (a ++ r).toList := by
    rw [hr, String.toList_append]
    exact prefix_append _ _
  rw [comparable, Bool.or_eq_true, startsWith, startsWith, isPrefixOf_iff_prefix,
    isPrefixOf_iff_prefix]
  exact (List.prefix_or_prefix_of_prefix ha hb).symm

theorem startsWith_append_of_not_comparable {a b : String} (h : comparable a b = false)
    (r : String) :
    startsWith (a ++ r) b = false := by
  by_contra hstarts
  rw [comparable_of_startsWith (by simpa using hstarts)] at h
  cases h

theorem stripPrefix_eq_none {p s : String} (h : startsWith s p = false) :
    stripPrefix p s = none := by
  rw [stripPrefix, if_neg (by simp [h])]

/-- Behind the name of an action and a slash, everything is read as a scope. -/
theorem parse_append (P : Primitives) (action : PathCapabilityAction)
    (hrest : startsWith rest "/" = true) :
    AppCapability.parse P (action.text ++ rest) = (PathScope.parse rest).map (.path action) := by
  obtain ⟨r, rfl⟩ := startsWith_iff.mp hrest
  -- no other text the parser looks for can begin the capability
  have hother : ∀ text, comparable (action.text ++ "/") text = false →
      startsWith (action.text ++ ("/" ++ r)) text = false := by
    intro text htext
    rw [← String.append_assoc]
    exact startsWith_append_of_not_comparable htext r
  have hne : ∀ text, comparable (action.text ++ "/") text = false →
    ¬ action.text ++ ("/" ++ r) = text := by
    intro text htext heq
    have h := hother text htext
    rw [heq, startsWith_refl] at h
    cases h
  have hfind : (pathActions.findSome? fun action' =>
      (stripPrefix action'.text (action.text ++ ("/" ++ r))).map fun scope => (action', scope)) =
        some (action, "/" ++ r) := by
    rw [findSome?_eq_some_iff]
    refine ⟨pathActions.takeWhile (· ≠ action), action, (pathActions.dropWhile (· ≠ action)).drop 1,
      by cases action <;> rfl, ?_, fun earlier hearlier => ?_⟩
    · rw [stripPrefix_eq_some_iff.mpr rfl]
      rfl
    · have htext : comparable (action.text ++ "/") earlier.text = false := by
        cases action <;> revert earlier <;> decide
      rw [stripPrefix_eq_none (hother _ htext)]
      rfl
  have htexts : ∀ text ∈ ["resolve:public", "fetch:public", "ingress:send", "ingress:read",
      "ingress:decide", "enumerate:self:", "enumerate:any:", "subscribe:"],
      comparable (action.text ++ "/") text = false := by
    cases action <;> decide
  simp only [forall_mem_cons] at htexts
  obtain ⟨h₁, h₂, h₃, h₄, h₅, h₆, h₇, h₈, -⟩ := htexts
  rw [AppCapability.parse, if_neg (hne _ h₁), if_neg (hne _ h₂), if_neg (hne _ h₃),
    if_neg (hne _ h₄),
    if_neg (hne _ h₅), if_neg (by rw [hother _ h₆]; exact Bool.false_ne_true),
    if_neg (by rw [hother _ h₇]; exact Bool.false_ne_true),
    if_neg (by rw [hother _ h₈]; exact Bool.false_ne_true), parsePathCapability, hfind]
  exact map_eq_bind.symm

/-- **The capabilities for an action**: its name followed by a scope. -/
theorem parse_eq_path_iff : AppCapability.parse P raw = some (.path action scope) ↔
      ∃ rest, raw = action.text ++ rest ∧ PathScope.parse rest = some scope := by
  constructor
  · intro h
    unfold AppCapability.parse at h
    split_ifs at h
    case neg =>
      obtain ⟨⟨action', rest⟩, hfind, h⟩ := bind_eq_some_iff.mp h
      obtain ⟨scope', hscope, h⟩ := bind_eq_some_iff.mp h
      cases h
      obtain ⟨found, -, hfound⟩ := exists_of_findSome?_eq_some hfind
      obtain ⟨rest', hstrip, heq⟩ := map_eq_some_iff.mp hfound
      cases heq
      exact ⟨rest, stripPrefix_eq_some_iff.mp hstrip, hscope⟩
    all_goals simp [bind_eq_some_iff] at h
  · rintro ⟨rest, rfl, hscope⟩
    rw [parse_append P action (PathScope.startsWith_slash_of_parse hscope), hscope]
    rfl

/-- A scope text that fits a path begins with a slash, or is only a star. -/
theorem startsWith_slash_of_pathMatches {pattern : String} (h : pathMatches pattern path = true)
    (hpath : startsWith path "/" = true) : startsWith pattern "/" = true ∨ pattern = "*" := by
  unfold pathMatches at h
  split at h
  case h_1 start hstart =>
    obtain rfl := stripSuffix_eq_some_iff.mp hstart
    obtain ⟨r, rfl⟩ := startsWith_iff.mp hpath
    rcases Bool.or_eq_true_iff.mp (comparable_of_startsWith h) with hshort | hlong
    · have hstart : start.toList <+: ['/'] := isPrefixOf_iff_prefix.mp hshort
      rcases prefix_cons_iff.mp hstart with hnil | ⟨rest, hcons, -⟩
      · obtain rfl : start = "" := toList_inj hnil
        exact .inr rfl
      · have hslash : startsWith start "/" = true := by
          rw [startsWith, hcons]
          exact isPrefixOf_iff_prefix.mpr (prefix_append ['/'] rest)
        exact .inl (startsWith_trans (startsWith_append _ _) hslash)
    · exact .inl (startsWith_trans (startsWith_append _ _) hlong)
  case h_2 => rw [decide_eq_true_eq] at h; exact .inl (h ▸ hpath)

theorem parse_star_eq_none (P : Primitives) (action : PathCapabilityAction) :
    AppCapability.parse P (action.text ++ "*") = none := by
  cases action <;> rfl

/-! ### The check of the routes -/

/-- One of the capabilities parses to the action with a scope that allows the path. -/
def Allows (P : Primitives) (capabilities : List String) (action : PathCapabilityAction)
    (path : String) : Prop :=
  ∃ capability ∈ capabilities, ∃ scope,
    AppCapability.parse P capability = some (.path action scope) ∧ scope.allowsPath path = true

theorem requirePathCapability_eq_ok {session : AppSessionView} {capability : String} :
    requirePathCapability session capability path = .ok () ↔
      ∃ granted ∈ session.grantedCapabilities, ∃ pattern,
        granted = capability ++ pattern ∧ pathMatches pattern path = true := by
  rw [requirePathCapability, ensure_eq_ok, List.any_eq_true]
  simp only [capabilityPatterns, mem_filterMap, stripPrefix_eq_some_iff]
  constructor
  · rintro ⟨pattern, ⟨granted, hmem, heq⟩, hmatches⟩
    exact ⟨granted, hmem, pattern, heq, hmatches⟩
  · rintro ⟨granted, hmem, pattern, heq, hmatches⟩
    exact ⟨pattern, ⟨granted, hmem, heq⟩, hmatches⟩

theorem exists_scope_of_pathMatches {pattern : String}
    (hgrantable : isGrantableAppCapability P (action.text ++ pattern) = true)
    (hmatches : pathMatches pattern path = true) (hpath : startsWith path "/" = true) :
    ∃ scope, AppCapability.parse P (action.text ++ pattern) = some (.path action scope) ∧
      scope.allowsPath path = true := by
  rcases startsWith_slash_of_pathMatches hmatches hpath with hslash | rfl
  · have hparse := parse_append P action hslash
    rw [isGrantableAppCapability, hparse, isSome_map] at hgrantable
    obtain ⟨scope, hscope⟩ := isSome_iff_exists.mp hgrantable
    refine ⟨scope, by rw [hparse, hscope]; rfl, ?_⟩
    rw [← PathScope.pathMatches_iff_allows hscope, hmatches]
  · rw [isGrantableAppCapability, parse_star_eq_none] at hgrantable
    cases hgrantable

theorem requirePathCapability_iff {session : AppSessionView}
    (hgrantable : ∀ capability ∈ session.grantedCapabilities,
      isGrantableAppCapability P capability = true)
    (hpath : startsWith path "/" = true) :
    requirePathCapability session action.text path = .ok () ↔
      Allows P session.grantedCapabilities action path := by
  rw [requirePathCapability_eq_ok]
  constructor
  · rintro ⟨_, hmem, pattern, rfl, hmatches⟩
    obtain ⟨scope, hparse, hallows⟩ := exists_scope_of_pathMatches (hgrantable _ hmem)
      hmatches hpath
    exact ⟨_, hmem, scope, hparse, hallows⟩
  · rintro ⟨capability, hmem, scope, hparse, hallows⟩
    obtain ⟨pattern, rfl, hscope⟩ := parse_eq_path_iff.mp hparse
    exact ⟨_, hmem, pattern, rfl, by rwa [PathScope.pathMatches_iff_allows hscope]⟩

theorem Allows.of_requested {capability : String} {requested : List String}
    (hrequested : capabilityWasRequested P capability requested = true)
    (hparse : AppCapability.parse P capability = some (.path action scope))
    (hallows : scope.allowsPath path = true) : Allows P requested action path := by
  rw [capabilityWasRequested, hparse] at hrequested
  obtain ⟨wider, hmem, hcontains⟩ := any_eq_true.mp hrequested
  obtain ⟨raw, hraw, hwider⟩ := mem_filterMap.mp hmem
  cases wider with
  | path requestedAction requestedScope =>
    rw [AppCapability.contains, Bool.and_eq_true, decide_eq_true_eq] at hcontains
    obtain ⟨rfl, hscopes⟩ := hcontains
    exact ⟨raw, hraw, requestedScope, hwider, PathScope.allowsPath_of_contains hscopes hallows⟩
  | _ => cases hcontains

/-! ### Along every run of the store -/

/-- Everything granted can be granted and was requested. -/
def Approved (P : Primitives) (record : AppSessionRecord) : Prop :=
  ∀ capability ∈ record.grantedCapabilities, isGrantableAppCapability P capability = true ∧
    capabilityWasRequested P capability record.requestedCapabilities = true

theorem approved_invariant (P : Primitives) : RecordInvariant P (Approved P) where
  created record hnone capability hmem := by
    rw [hnone] at hmem
    cases hmem
  approved _ _ _ _ _ _ hchecked := hchecked
  same record record' hrequested hgranted happroved capability hmem := by
    rw [hgranted] at hmem
    rw [hrequested]
    exact happroved capability hmem

/-- **Path capabilities from request to route.** In every run of the store and for every session in
it, the routes allow an action on a path exactly if a granted capability parses to the action with a
scope that allows the path, and then a requested one does too. -/
theorem path_capability_granted_and_requested (P : Primitives) (limits : StoreLimits)
    (steps : List StoreStep) {record : AppSessionRecord}
    (hrecord : record ∈ (run P limits steps).state.records) {raw path : String}
    (hpath : normalizePath raw = .ok path) (action : PathCapabilityAction) :
    (requirePathCapability record.toAppSessionView action.text path = .ok () ↔
        Allows P record.grantedCapabilities action path) ∧
      (Allows P record.grantedCapabilities action path →
        Allows P record.requestedCapabilities action path) := by
  have happroved := ((approved_invariant P).run limits steps).1 record hrecord
  refine ⟨requirePathCapability_iff (fun capability hmem => (happroved capability hmem).1)
    (startsWith_slash_of_normalizePath hpath), ?_⟩
  rintro ⟨capability, hmem, scope, hparse, hallows⟩
  exact .of_requested (happroved capability hmem).2 hparse hallows

/-- A request for everything below a path, approved for one path there. -/
def oneNoteSteps : List StoreStep :=
  let c : Circumstances := ⟨7, 0, "req_1", "", .ok ()⟩
  [.createRequest c ⟨"notes", "Notes", none, some "owner.jolt", ["publish:/notes/*"]⟩,
    .approveRequest { c with newId := "sess_1", newToken := "jolt_app_1" } "req_1"
      ⟨none, ["publish:/notes/a"], none⟩ "laptop"]

theorem path_capability_one_note :
    ∃ record ∈ (run Sample.primitives ⟨8, 30⟩ oneNoteSteps).state.records,
      requirePathCapability record.toAppSessionView "publish:" "/notes/a" = .ok () ∧
        Allows Sample.primitives record.requestedCapabilities .publish "/notes/a" := by
  have hallowed : ((run Sample.primitives ⟨8, 30⟩ oneNoteSteps).state.records[0]?.map fun record =>
      (requirePathCapability record.toAppSessionView "publish:" "/notes/a").isOk) = some true := by
    decide +kernel
  obtain ⟨record, hget, hok⟩ := map_eq_some_iff.mp hallowed
  obtain ⟨_, hok⟩ := exists_eq_ok_of_isOk hok
  obtain ⟨hiff, hrequested⟩ := path_capability_granted_and_requested Sample.primitives ⟨8, 30⟩
    oneNoteSteps (mem_of_getElem? hget) (show normalizePath " notes/a" = .ok "/notes/a" from rfl)
    .publish
  exact ⟨record, mem_of_getElem? hget, hok, hrequested (hiff.mp hok)⟩

/-! ### Subscriptions -/

theorem allowsDataSubscription_of_contains {requested granted : AppCapability}
    {identity : IdentityId} {start : String} (hcontains : requested.contains granted = true)
    (h : granted.allowsDataSubscription identity start = true) :
    requested.allowsDataSubscription identity start = true := by
  cases granted with
  | subscribe grantedIdentity scope =>
    cases requested with
    | subscribe requestedIdentity wider =>
      simp only [AppCapability.contains, AppCapability.allowsDataSubscription, Bool.and_eq_true,
        Bool.or_eq_true,
        decide_eq_true_eq] at hcontains h ⊢
      exact ⟨by grind, PathScope.allowsPath_of_contains hcontains.2 h.2⟩
    | _ => cases hcontains
  | _ => cases h

/-- What the session may subscribe to, it asked for. -/
def AsksToSubscribe (P : Primitives) (record : AppSessionRecord) : Prop :=
  ∀ identity start, record.allowsDataSubscription P identity start = true →
    (record.requestedCapabilities.filterMap (parse P)).any
    (·.allowsDataSubscription identity start) = true

theorem Approved.asksToSubscribe {record : AppSessionRecord} (h : Approved P record) :
    AsksToSubscribe P record := by
  intro identity start hallows
  obtain ⟨granted, hgranted, hallows⟩ := any_eq_true.mp hallows
  obtain ⟨raw, hraw, hparse⟩ := mem_filterMap.mp hgranted
  have hrequested := (h raw hraw).2
  rw [capabilityWasRequested, hparse] at hrequested
  obtain ⟨wider, hwider, hcontains⟩ := any_eq_true.mp hrequested
  exact any_eq_true.mpr ⟨wider, hwider, allowsDataSubscription_of_contains hcontains hallows⟩

/-- **Subscriptions from request to route**, in every run of the store and for every session in it
or in its file. -/
theorem subscriptions_requested (P : Primitives) (limits : StoreLimits) (steps : List StoreStep) :
    OnRecords (AsksToSubscribe P) (run P limits steps) := by
  obtain ⟨hmemory, hfile⟩ := (approved_invariant P).run limits steps
  exact ⟨fun record hrecord => (hmemory record hrecord).asksToSubscribe,
    fun record hrecord => (hfile record hrecord).asksToSubscribe⟩

end Jolt.Server.PathCapabilities

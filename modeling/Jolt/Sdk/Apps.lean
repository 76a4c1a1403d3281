import Jolt.Sdk.Items
import Jolt.Server.PathCapabilities

/-! # Apps and the capabilities they ask for

An app is a namespace with named resources, which `App.create` of `data.ts` binds to paths and turns
into a plan of access; `capabilitiesForDataApp` of `data-host.ts` writes the plan as the
capabilities that the session requests. The server reads each of them as an action with a scope.

What is requested for a resource is granted for exactly its paths, unless the resource asks for
something and its name or the namespace contains a star or a next-line character
(`matchesDataModel_iff`): these pass the check of names, but a star is a wildcard to the server, and
the next-line character is whitespace. -/

namespace Jolt.Sdk.Apps

open Lib.Checks Lib.Text Jolt.Core Jolt.Core.Types Schemas Items Server.Capabilities
  Server.PathCapabilities List

variable (resource : BoundResource)

/-! ### Apps -/

inductive ResourceKind where
  | collection
  | document
deriving DecidableEq

inductive Read where
  | ownIdentity
  | anyIdentity
deriving DecidableEq

structure DeclaredAccess extends ResourceAccess where
  read : Read
  create : Bool

structure ResourceDeclaration where
  kind : ResourceKind
  access : DeclaredAccess

/-- What `App.create` is given. The resources are the entries of an object, so their names are
distinct. -/
structure AppOptions where
  appNamespace : String
  data : List (String × ResourceDeclaration)
  distinct : (data.map (·.1)).Nodup

structure BoundResource extends ResourceDeclaration where
  name : String
  path : String

structure ResourceRequirement where
  resource : String
  kind : ResourceKind
  access : DeclaredAccess

structure ResourceGrantPlan where
  resource : String
  path : String
  access : DeclaredAccess

structure ResourceSubscriptionPlan where
  resource : String
  path : String

structure AppAccessPlan where
  requirements : List ResourceRequirement
  grants : List ResourceGrantPlan
  subscriptions : List ResourceSubscriptionPlan

structure AppDefinition where
  appNamespace : String
  data : List BoundResource
  accessPlan : AppAccessPlan

def isJsWhitespace (c : Char) : Bool :=
  let n := c.toNat
  (0x9 ≤ n && n ≤ 0xD) || n == 0x20 || n == 0xA0 || n == 0x1680 || (0x2000 ≤ n && n ≤ 0x200A) ||
    n == 0x2028 || n == 0x2029 || n == 0x202F || n == 0x205F || n == 0x3000 || n == 0xFEFF

structure IsSegment (value : String) : Prop where
  ne_empty : value ≠ ""
  ne_dot : value ≠ "."
  ne_dots : value ≠ ".."
  chars : ∀ c ∈ value.toList, c ≠ '/' ∧ isJsWhitespace c = false ∧ c ≠ '?' ∧ c ≠ '#'

instance (value : String) : Decidable (IsSegment value) :=
  haveI := @List.decidableBAll Char
  decidable_of_iff (value ≠ "" ∧ value ≠ "." ∧ value ≠ ".." ∧
      ∀ c ∈ value.toList, c ≠ '/' ∧ isJsWhitespace c = false ∧ c ≠ '?' ∧ c ≠ '#')
    ⟨fun ⟨h₁, h₂, h₃, h₄⟩ => ⟨h₁, h₂, h₃, h₄⟩, fun ⟨h₁, h₂, h₃, h₄⟩ => ⟨h₁, h₂, h₃, h₄⟩⟩

def requirePathSegment (value label : String) : Except DataError Unit :=
  ensure (IsSegment value) (.type s!"{label} must be one valid path segment: {value}")

def bindResource (appNamespace name : String) (resource : ResourceDeclaration) : BoundResource :=
  ⟨resource, name, "/" ++ (appNamespace ++ ("/" ++ name))⟩

/-- One turn of the loop over the resources. -/
def bindEntry (appNamespace : String) (entry : String × ResourceDeclaration) :
    Except DataError BoundResource := do
  requirePathSegment entry.1 "Resource name"
  return bindResource appNamespace entry.1 entry.2

def grantPath : String :=
  match resource.kind with
  | .collection => resource.path ++ "/*"
  | .document => resource.path

/-- The collections that can be subscribed to at other identities. -/
def subscribable : Bool := resource.kind = .collection && resource.access.read = .anyIdentity

def accessPlanOf (data : List BoundResource) : AppAccessPlan where
  requirements := data.map fun resource => ⟨resource.name, resource.kind, resource.access⟩
  grants := data.map fun resource => ⟨resource.name, grantPath resource, resource.access⟩
  subscriptions := (data.filter subscribable).map fun resource =>
    ⟨resource.name, resource.path ++ "/*"⟩

def create (options : AppOptions) : Except DataError AppDefinition := do
  requirePathSegment options.appNamespace "App namespace"
  ensure ("identity" ∉ options.data.map (·.1)) (.type "Resource name is reserved: identity")
  let data ← options.data.mapM (bindEntry options.appNamespace)
  return ⟨options.appNamespace, data, accessPlanOf data⟩

def DeclaredAccess.publishes (access : DeclaredAccess) : Bool :=
  access.create || access.update || access.restore

def capabilitiesForDataApp (accessPlan : AppAccessPlan) : List String :=
  (["resolve:public", "fetch:public"] ++ (accessPlan.grants.flatMap fun grant =>
      (if grant.access.publishes then ["publish:" ++ grant.path] else []) ++
        if grant.access.delete then ["delete:" ++ grant.path] else []) ++
    accessPlan.subscriptions.map fun subscription => "subscribe:any:" ++
      subscription.path).eraseDups

/-! ### What the capabilities are for -/

/-- **The paths of a resource**: the one of a document, or those below the one of a collection. -/
def BoundResource.Has (path : String) : Prop :=
  match resource.kind with
  | .collection => startsWith path (resource.path ++ "/") = true
  | .document => path = resource.path

/-- What is requested for a resource: the text of each capability, and what it is meant as for a
scope. -/
def requests : List (String × (PathScope → AppCapability)) :=
  (if resource.access.publishes then [("publish:" ++ grantPath resource, .path .publish)]
    else []) ++
    ((if resource.access.delete then [("delete:" ++ grantPath resource, .path .delete)] else []) ++
      if subscribable resource then [("subscribe:any:" ++ grantPath resource,
        .subscribe .anyIdentity)]
      else [])

/-- The scope allows the paths of the resource, and no others. -/
def Exactly (scope : PathScope) (resource : BoundResource) : Prop :=
  ∀ path, scope.allowsPath path = true ↔ resource.Has path

/-- **The capabilities match the data model.** The server accepts each; for each resource, each
action is granted for exactly the paths of the resource, and for no path of another one. -/
structure MatchesDataModel (P : Primitives) (app : AppDefinition) : Prop where
  accepted : ∀ capability ∈ capabilitiesForDataApp app.accessPlan,
    (AppCapability.parse P capability).isSome = true
  confined : ∀ resource ∈ app.data, ∀ request ∈ requests resource, ∃ scope,
    AppCapability.parse P request.1 = some (request.2 scope) ∧ Exactly scope resource ∧
      ∀ other ∈ app.data, other.name ≠ resource.name → ∀ path, scope.allowsPath path = true →
        ¬ other.Has path

/-- The resource asks for more than public reads. -/
def BoundResource.Asks : Prop :=
  resource.access.publishes = true ∨ resource.access.delete = true ∨ subscribable resource = true

/-- **No star and no next line.** -/
def Plain (text : String) : Prop := '*' ∉ text.toList ∧ '\u0085' ∉ text.toList

variable {P : Primitives} {appNamespace name : String} {resource : BoundResource} {c : Char}
  {request : String × (PathScope → AppCapability)}

/-! ### What is created -/

structure BoundIn (appNamespace : String) (resource : BoundResource) : Prop where
  isNamespace : IsSegment appNamespace
  isName : IsSegment resource.name
  path : resource.path = "/" ++ (appNamespace ++ ("/" ++ resource.name))

theorem bindEntry_eq_ok (entry : String × ResourceDeclaration) (bound : BoundResource) :
    bindEntry appNamespace entry = .ok bound ↔
      IsSegment entry.1 ∧ bound = bindResource appNamespace entry.1 entry.2 := by
  simp only [bindEntry, requirePathSegment, bind_eq_ok, ensure_eq_ok, pure_eq_ok, exists_const,
    eq_comm (a := bound)]

theorem create_eq_ok {options : AppOptions} {app : AppDefinition} (h : create options = .ok app) :
    app.accessPlan = accessPlanOf app.data ∧ ∀ resource ∈ app.data,
      BoundIn app.appNamespace resource := by
  unfold create requirePathSegment at h
  simp only [bind_eq_ok, ensure_eq_ok, pure_eq_ok, exists_const] at h
  obtain ⟨hnamespace, -, data, hdata, rfl⟩ := h
  refine ⟨rfl, fun resource hresource => ?_⟩
  obtain ⟨hnames, rfl⟩ := (mapM_eq_ok_iff bindEntry_eq_ok).mp hdata
  obtain ⟨entry, hentry, rfl⟩ := mem_map.mp hresource
  exact ⟨hnamespace, hnames entry hentry, rfl⟩

theorem mem_requests : request ∈ requests resource ↔
      resource.access.publishes = true ∧ request = ("publish:" ++ grantPath resource,
        .path .publish) ∨
      resource.access.delete = true ∧ request = ("delete:" ++ grantPath resource, .path .delete) ∨
      subscribable resource = true ∧ request = ("subscribe:any:" ++ grantPath resource,
        .subscribe .anyIdentity) := by
  simp only [requests, mem_append, mem_ite_nil_right, mem_singleton]

theorem grantPath_of_subscribable (h : subscribable resource = true) :
    grantPath resource = resource.path ++ "/*" := by
  simp only [subscribable, Bool.and_eq_true, decide_eq_true_eq] at h
  rw [grantPath, h.1]

/-- What a session requests: public reads, and what is requested for each resource. -/
theorem mem_capabilities {data : List BoundResource} {capability : String} :
    capability ∈ capabilitiesForDataApp (accessPlanOf data) ↔
      capability ∈ ["resolve:public", "fetch:public"] ∨
        ∃ resource ∈ data, ∃ request ∈ requests resource, request.1 = capability := by
  unfold capabilitiesForDataApp accessPlanOf
  simp only [mem_eraseDups, mem_append, mem_flatMap, mem_map, mem_filter,
    mem_ite_nil_right, mem_singleton, mem_requests]
  constructor
  · rintro ((hread | ⟨_, ⟨resource, hresource, rfl⟩, ⟨hasks, rfl⟩ | ⟨hasks, rfl⟩⟩) |
      ⟨_, ⟨resource, ⟨hresource, hasks⟩, rfl⟩, rfl⟩)
    · exact .inl hread
    · exact .inr ⟨resource, hresource, _, .inl ⟨hasks, rfl⟩, rfl⟩
    · exact .inr ⟨resource, hresource, _, .inr (.inl ⟨hasks, rfl⟩), rfl⟩
    · refine .inr ⟨resource, hresource, _, .inr (.inr ⟨hasks, rfl⟩), ?_⟩
      rw [grantPath_of_subscribable hasks]
  · rintro (hread | ⟨resource, hresource, _, ⟨hasks, rfl⟩ | ⟨hasks, rfl⟩ | ⟨hasks, rfl⟩, rfl⟩)
    · exact .inl (.inl hread)
    · exact .inl (.inr ⟨_, ⟨resource, hresource, rfl⟩, .inl ⟨hasks, rfl⟩⟩)
    · exact .inl (.inr ⟨_, ⟨resource, hresource, rfl⟩, .inr ⟨hasks, rfl⟩⟩)
    · refine .inr ⟨_, ⟨resource, ⟨hresource, hasks⟩, rfl⟩, ?_⟩
      rw [grantPath_of_subscribable hasks]

/-! ### Paths of names -/

theorem isWhitespace_iff_of_segment (h : IsSegment name) (hc : c ∈ name.toList) :
    isWhitespace c = true ↔ c = '\u0085' := by
  constructor
  · intro hspace
    have hjs := (h.chars c hc).2.1
    have hcode : c.toNat = 0x85 := by
      unfold isWhitespace at hspace
      unfold isJsWhitespace at hjs
      simp only [Bool.or_eq_true, Bool.or_eq_false_iff, Bool.and_eq_true, Bool.and_eq_false_iff,
        beq_iff_eq,
        decide_eq_true_eq, decide_eq_false_iff_not, beq_eq_false_iff_ne] at hspace hjs
      omega
    exact Char.toNat_inj.mp hcode
  · rintro rfl
    rfl

/-- What follows the path in the scope that is asked for. -/
def tail : ResourceKind → List Char
  | .collection => ['/', '*']
  | .document => []

section

variable (h : BoundIn appNamespace resource)
include h

theorem BoundIn.toList_path :
    resource.path.toList = '/' :: (appNamespace.toList ++ '/' :: resource.name.toList) := by
  rw [h.path]
  simp

theorem BoundIn.toList_grantPath : (grantPath resource).toList =
      '/' :: (appNamespace.toList ++ '/' :: (resource.name.toList ++ tail resource.kind)) := by
  unfold grantPath
  cases resource.kind with
  | collection => simp [h.toList_path, tail]
  | document => simp [h.toList_path, tail]

theorem BoundIn.startsWith_grantPath : startsWith (grantPath resource) "/" = true := by
  have hslash : startsWith (grantPath resource) (String.singleton '/') = true := by
    rw [startsWith_singleton_iff, h.toList_grantPath]
    rfl
  exact hslash

/-- **The first check of the parser** refuses only next lines. -/
theorem BoundIn.guard_iff :
    (!startsWith (grantPath resource) "/" || '?' ∈ (grantPath resource).toList ||
        '#' ∈ (grantPath resource).toList || (grantPath resource).toList.any isWhitespace) = true ↔
      '\u0085' ∈ appNamespace.toList ∨ '\u0085' ∈ resource.name.toList := by
  have hmem : ∀ c ∈ (grantPath resource).toList,
      c = '/' ∨ c = '*' ∨ c ∈ appNamespace.toList ∨ c ∈ resource.name.toList := by
    intro c hc
    rw [h.toList_grantPath] at hc
    cases hkind : resource.kind <;> simp [hkind, tail] at hc <;> tauto
  have hplain : ∀ c ∈ (grantPath resource).toList, c ≠ '?' ∧ c ≠ '#' := by
    intro c hc
    rcases hmem c hc with rfl | rfl | hc | hc
    · decide
    · decide
    · exact (h.isNamespace.chars c hc).2.2
    · exact (h.isName.chars c hc).2.2
  have hquestion : '?' ∉ (grantPath resource).toList := fun hc => (hplain _ hc).1 rfl
  have hhash : '#' ∉ (grantPath resource).toList := fun hc => (hplain _ hc).2 rfl
  rw [h.startsWith_grantPath, decide_eq_false hquestion, decide_eq_false hhash]
  simp only [Bool.not_true, Bool.false_or, any_eq_true]
  constructor
  · rintro ⟨c, hc, hspace⟩
    rcases hmem c hc with rfl | rfl | hc | hc
    · exact absurd hspace (by decide)
    · exact absurd hspace (by decide)
    · exact .inl ((isWhitespace_iff_of_segment h.isNamespace hc).mp hspace ▸ hc)
    · exact .inr ((isWhitespace_iff_of_segment h.isName hc).mp hspace ▸ hc)
  · intro hc
    refine ⟨'\u0085', ?_, rfl⟩
    rw [h.toList_grantPath]
    rcases hc with hc | hc <;> simp [hc]

theorem BoundIn.count_star : (grantPath resource).toList.count '*' = appNamespace.toList.count '*' +
      resource.name.toList.count '*' + (tail resource.kind).count '*' := by
  rw [h.toList_grantPath]
  simp only [count_cons, count_append]
  simp [Nat.add_assoc]

/-- The path has no segments that the parser refuses. -/
theorem BoundIn.isValidExactScopeBase : PathScope.isValidExactScopeBase resource.path = true := by
  have hslash : ∀ {name}, IsSegment name → '/' ∉ name.toList := fun hname hc =>
    (hname.chars _ hc).1 rfl
  have hsplit : resource.path.toList.splitOn '/' = [[], appNamespace.toList,
    resource.name.toList] := by
    have hlist : resource.path.toList = ['/'].intercalate [[], appNamespace.toList,
      resource.name.toList] := by
      rw [h.toList_path]
      simp [List.intercalate]
    rw [hlist]
    refine splitOn_intercalate '/' ?_ (by simp)
    simp [hslash h.isNamespace, hslash h.isName]
  have hne : ∀ {name}, IsSegment name → name.toList ≠ ['.'] ∧ name.toList ≠ ['.', '.'] := by
    intro name hname
    exact ⟨fun heq => hname.ne_dot (toList_inj heq), fun heq => hname.ne_dots (toList_inj heq)⟩
  have hpath : resource.path ≠ "/" := by
    intro heq
    have hlength := congrArg (fun text => text.toList.length) heq
    rw [h.toList_path] at hlength
    simp at hlength
  unfold PathScope.isValidExactScopeBase
  rw [hsplit]
  simp only [Bool.and_eq_true, decide_eq_true_eq, all_eq_true, mem_filter]
  refine ⟨hpath, fun segment hsegment => ?_⟩
  simp only [mem_cons, not_mem_nil, or_false] at hsegment
  rcases hsegment with ⟨rfl | rfl | rfl, hnonempty⟩
  · exact absurd rfl hnonempty
  · exact hne h.isNamespace
  · exact hne h.isName

end

/-! ### Scopes -/

def scopeOf (resource : BoundResource) : PathScope :=
  match resource.kind with
  | .collection => .below (resource.path ++ "/")
  | .document => .exact resource.path

theorem exactly_scopeOf (resource : BoundResource) : Exactly (scopeOf resource) resource := by
  intro path
  unfold scopeOf BoundResource.Has
  cases resource.kind with
  | collection => exact Iff.rfl
  | document => exact decide_eq_true_iff

/-- **What is asked for under plain names** is the scope of the resource. -/
theorem BoundIn.parse_grantPath (h : BoundIn appNamespace resource)
    (hplain : Plain appNamespace ∧ Plain resource.name) :
    PathScope.parse (grantPath resource) = some (scopeOf resource) := by
  have hguard := h.guard_iff.not.mpr (not_or.mpr ⟨hplain.1.2, hplain.2.2⟩)
  have hcount := h.count_star
  rw [count_eq_zero_of_not_mem hplain.1.1, count_eq_zero_of_not_mem hplain.2.1] at hcount
  rw [PathScope.parse, if_neg hguard, if_neg, hcount]
  · unfold scopeOf
    cases hkind : resource.kind with
    | collection =>
      have hstrip : stripSuffix "/*" (grantPath resource) = some resource.path := by
        rw [stripSuffix_eq_some_iff, grantPath, hkind]
      rw [if_pos (by decide), hstrip]
      simp [h.isValidExactScopeBase]
    | document =>
      have hpath : grantPath resource = resource.path := by rw [grantPath, hkind]
      rw [if_neg (by decide), hpath, if_pos h.isValidExactScopeBase]
  · rw [hcount]
    cases resource.kind <;> decide

/-- **Only plain names are granted their paths.** -/
theorem BoundIn.plain_of_exactly (h : BoundIn appNamespace resource) {scope : PathScope}
    (hparse : PathScope.parse (grantPath resource) = some scope)
    (hexactly : Exactly scope resource) :
    Plain appNamespace ∧ Plain resource.name := by
  have hcount := h.count_star
  have hplain : ¬ ('\u0085' ∈ appNamespace.toList ∨ '\u0085' ∈ resource.name.toList) →
      appNamespace.toList.count '*' + resource.name.toList.count '*' = 0 →
      Plain appNamespace ∧ Plain resource.name := by
    intro hlines hstars
    rw [not_or] at hlines
    rw [Nat.add_eq_zero_iff, count_eq_zero, count_eq_zero] at hstars
    exact ⟨⟨hstars.1, hlines.1⟩, hstars.2, hlines.2⟩
  unfold PathScope.parse at hparse
  split_ifs at hparse with hguard htwo hone hvalid
  · cases hkind : resource.kind with
    | collection =>
      have htail : (tail resource.kind).count '*' = 1 := by rw [hkind]; rfl
      exact hplain (h.guard_iff.not.mp hguard) (by omega)
    | document =>
      -- the star ends the name of a document, which is granted more than its path
      simp only [Option.bind_eq_bind, Option.bind_eq_some_iff] at hparse
      obtain ⟨base, hbase, hscope⟩ := hparse
      split_ifs at hscope
      cases hscope
      rw [stripSuffix_eq_some_iff, grantPath, hkind] at hbase
      have hmore := (hexactly (base ++ "/")).mp (startsWith_refl _)
      rw [BoundResource.Has, hkind] at hmore
      dsimp only at hmore hbase
      rw [hbase] at hmore
      exact absurd (append_left_cancel hmore) (by decide)
  · exact hplain (h.guard_iff.not.mp hguard) (by omega)

/-! ### Requests -/

theorem parse_subscribe_any (P : Primitives) (rest : String) :
    AppCapability.parse P ("subscribe:any:" ++ rest) = (PathScope.parse rest).map
      (.subscribe .anyIdentity) := by
  have hother : ∀ text, comparable "subscribe:any:" text = false →
    startsWith ("subscribe:any:" ++ rest) text = false :=
    fun text htext => startsWith_append_of_not_comparable htext rest
  have hne : ∀ text, comparable "subscribe:any:" text = false → ¬ "subscribe:any:" ++
    rest = text := by
    intro text htext heq
    have h := hother text htext
    rw [heq, startsWith_refl] at h
    cases h
  have hsplit : stripPrefix "subscribe:" ("subscribe:any:" ++ rest) =
    some ("any" ++ (":" ++ rest)) := by
    rw [stripPrefix_eq_some_iff, ← String.append_assoc, ← String.append_assoc]
    rfl
  have honce : splitOnce ':' ("any" ++ (":" ++ rest)) = some ("any", rest) :=
    splitOnce_append (by decide) rest
  have hstart : startsWith ("subscribe:any:" ++ rest) "subscribe:" = true := by
    rw [startsWith_iff]
    exact ⟨_, stripPrefix_eq_some_iff.mp hsplit⟩
  rw [AppCapability.parse, if_neg (hne _ (by decide)), if_neg (hne _ (by decide)),
    if_neg (hne _ (by decide)), if_neg (hne _ (by decide)), if_neg (hne _ (by decide)),
    if_neg (by rw [hother _ (by decide)]; exact Bool.false_ne_true),
    if_neg (by rw [hother _ (by decide)]; exact Bool.false_ne_true), if_pos hstart, hsplit]
  simp only [Option.bind_eq_bind, Option.bind_some, honce]
  exact Option.map_eq_bind.symm

theorem BoundIn.parse_request (h : BoundIn appNamespace resource) (P : Primitives)
    (hrequest : request ∈ requests resource) :
    AppCapability.parse P request.1 = (PathScope.parse (grantPath resource)).map request.2 := by
  rcases mem_requests.mp hrequest with ⟨-, rfl⟩ | ⟨-, rfl⟩ | ⟨-, rfl⟩
  · exact parse_append P .publish h.startsWith_grantPath
  · exact parse_append P .delete h.startsWith_grantPath
  · exact parse_subscribe_any P _

theorem asks_iff : resource.Asks ↔ ∃ request, request ∈ requests resource := by
  simp only [mem_requests]
  constructor
  · rintro (h | h | h)
    · exact ⟨_, .inl ⟨h, rfl⟩⟩
    · exact ⟨_, .inr (.inl ⟨h, rfl⟩)⟩
    · exact ⟨_, .inr (.inr ⟨h, rfl⟩)⟩
  · rintro ⟨_, ⟨h, -⟩ | ⟨h, -⟩ | ⟨h, -⟩⟩
    · exact .inl h
    · exact .inr (.inl h)
    · exact .inr (.inr h)

/-- The name of a resource is the second segment of its paths. -/
theorem BoundIn.segment_of_has (h : BoundIn appNamespace resource) {path : String}
    (hpath : resource.Has path) :
    (path.toList.drop (appNamespace.toList.length + 2)).takeWhile
    (· ≠ '/') = resource.name.toList := by
  have hname : ∀ c ∈ resource.name.toList, decide (c ≠ '/') = true :=
    fun c hc => decide_eq_true (h.isName.chars c hc).1
  have hdrop : ∀ rest : List Char,
    ((resource.path.toList ++ rest).drop (appNamespace.toList.length + 2)) =
      resource.name.toList ++ rest := by
    intro rest
    rw [h.toList_path]
    simp [drop_append]
  unfold BoundResource.Has at hpath
  cases hkind : resource.kind with
  | collection =>
    rw [hkind] at hpath
    obtain ⟨rest, rfl⟩ := startsWith_iff.mp hpath
    rw [String.append_assoc, String.toList_append, hdrop, takeWhile_append_of_pos hname]
    simp
  | document =>
    rw [hkind] at hpath
    dsimp only at hpath
    rw [hpath]
    have hall := hdrop []
    rw [append_nil] at hall
    rw [hall, takeWhile_append_of_pos hname]
    simp

/-! ### Apps that match their data model -/

/-- **Derived capabilities match the data model** exactly if each resource that asks for something
has a plain name in a plain namespace. -/
theorem matchesDataModel_iff (P : Primitives) {options : AppOptions} {app : AppDefinition}
    (hcreate : create options = .ok app) : MatchesDataModel P app ↔
      ∀ resource ∈ app.data, resource.Asks → Plain app.appNamespace ∧ Plain resource.name := by
  obtain ⟨hplan, hbound⟩ := create_eq_ok hcreate
  constructor
  · intro h resource hresource hasks
    obtain ⟨request, hrequest⟩ := asks_iff.mp hasks
    obtain ⟨scope, hparse, hexactly, -⟩ := h.confined resource hresource request hrequest
    have hbound := hbound resource hresource
    rw [hbound.parse_request P hrequest] at hparse
    obtain ⟨scope', hscope', heq⟩ := Option.map_eq_some_iff.mp hparse
    have hsame : scope' = scope := by
      rcases mem_requests.mp hrequest with ⟨-, rfl⟩ | ⟨-, rfl⟩ | ⟨-, rfl⟩ <;> cases heq <;> rfl
    subst hsame
    exact hbound.plain_of_exactly hscope' hexactly
  · intro h
    have hparse : ∀ resource ∈ app.data, ∀ request ∈ requests resource,
        AppCapability.parse P request.1 = some (request.2 (scopeOf resource)) := by
      intro resource hresource request hrequest
      have hbound := hbound resource hresource
      rw [hbound.parse_request P hrequest,
        hbound.parse_grantPath (h resource hresource (asks_iff.mpr ⟨request, hrequest⟩))]
      rfl
    refine ⟨fun capability hcapability => ?_, fun resource hresource request hrequest => ?_⟩
    · rw [hplan, mem_capabilities] at hcapability
      rcases hcapability with hread | ⟨resource, hresource, request, hrequest, rfl⟩
      · simp only [mem_cons, not_mem_nil, or_false] at hread
        rcases hread with rfl | rfl <;> rfl
      · rw [hparse resource hresource request hrequest]
        rfl
    · refine ⟨scopeOf resource, hparse resource hresource request hrequest,
        exactly_scopeOf resource, ?_⟩
      intro other hother hname path hallowed hhas
      have hown := (hbound resource hresource).segment_of_has
        ((exactly_scopeOf resource path).mp hallowed)
      have hothers := (hbound other hother).segment_of_has hhas
      exact hname (toList_inj (hothers.symm.trans hown))

/-! ### A document named by a star -/

/-- A document that can be updated and read at the own identity. -/
def editable : ResourceDeclaration := ⟨.document, ⟨⟨true, false, false⟩, .ownIdentity, false⟩⟩

/-- A collection that can be changed in all ways and read at any identity. -/
def shared : ResourceDeclaration := ⟨.collection, ⟨⟨true, true, true⟩, .anyIdentity, true⟩⟩

def diaryOptions : AppOptions := ⟨"notes", [("diary", editable), ("dia", shared)], by decide⟩

def starredOptions : AppOptions := ⟨"notes", [("*", editable), ("diary", editable)], by decide⟩

def starredApp : AppDefinition :=
  let data := [bindResource "notes" "*" editable, bindResource "notes" "diary" editable]
  ⟨"notes", data, accessPlanOf data⟩

/-- Plain names, one of which begins with the other. -/
theorem diary_matchesDataModel : ∃ app, create diaryOptions = .ok app ∧
    capabilitiesForDataApp app.accessPlan = ["resolve:public", "fetch:public",
      "publish:/notes/diary",
      "publish:/notes/dia/*", "delete:/notes/dia/*", "subscribe:any:/notes/dia/*"] ∧
    MatchesDataModel Sample.primitives app := by
  have hcreate : create diaryOptions = .ok
      (let data := [bindResource "notes" "diary" editable, bindResource "notes" "dia" shared]
      ⟨"notes", data, accessPlanOf data⟩) := by rfl
  refine ⟨_, hcreate, by decide +kernel, (matchesDataModel_iff Sample.primitives hcreate).mpr ?_⟩
  intro resource hresource _
  simp only [mem_cons, not_mem_nil, or_false] at hresource
  rcases hresource with rfl | rfl <;> exact ⟨⟨by decide, by decide⟩, by decide, by decide⟩

/-- **A document named by a star is granted the whole namespace.** -/
theorem starred_document_grants_namespace : create starredOptions = .ok starredApp ∧
      "publish:/notes/*" ∈ capabilitiesForDataApp starredApp.accessPlan ∧
      AppCapability.parse Sample.primitives "publish:/notes/*" =
        some (.path .publish (.below "/notes/")) ∧
      PathScope.allowsPath (.below "/notes/") "/notes/diary" = true ∧
      ¬ MatchesDataModel Sample.primitives starredApp := by
  have hparse : AppCapability.parse Sample.primitives "publish:/notes/*" =
      some (.path .publish (.below "/notes/")) := by decide +kernel
  have hallows : PathScope.allowsPath (.below "/notes/") "/notes/diary" = true := by decide +kernel
  refine ⟨rfl, by decide +kernel, hparse, hallows, fun h => ?_⟩
  obtain ⟨scope, hscope, -, hothers⟩ := h.confined (bindResource "notes" "*" editable) mem_cons_self
    ("publish:/notes/*", .path .publish) mem_cons_self
  have hsame : scope = .below "/notes/" := by
    have heq := hscope.symm.trans hparse
    cases heq
    rfl
  subst hsame
  exact hothers (bindResource "notes" "diary" editable) (mem_cons_of_mem _ mem_cons_self)
    (by decide) "/notes/diary" hallows rfl

end Jolt.Sdk.Apps

import Jolt.Server.RecordReads
import Jolt.Server.StreamedRecords
import Jolt.Core.Sample

/-! # Reads and the scope of a session

A session may read where its granted `enumerate` and `subscribe` capabilities allow it. The routes
check the capabilities for the beginning of the paths that are asked for, and the node selects all
records whose paths start with it. If a wildcard capability allows the beginning, it allows every
path that goes on from it; one for a single path does not. So what a session is given stays inside
its scope exactly if every beginning it is admitted at is allowed by a wildcard
(`reads_inside_iff`). -/

namespace Jolt.Server.ReadScopes

open Std Lib.Text Lib.Runs Jolt.Core Jolt.Core.Types DeviceWriterLog List Option ExtTreeMap Sample
open Network.Node (NetworkNode)
open Capabilities Sessions Recipients
open SessionRuns (StoreStep)
open ChangeStreams SubscriptionTasks StreamedRecords RecordReads

/-! ### Scopes -/

/-- The scope in which a capability lets a session of the identity `own` read records of
`identity`. -/
def readScope (own : Option IdentityId) (identity : IdentityId) : AppCapability → Option PathScope
  | .enumerate .anyIdentity scope => some scope
  | .enumerate .selfIdentity scope => if own = some identity then some scope else none
  | .subscribe .anyIdentity scope => some scope
  | .subscribe (.exact granted) scope => if granted = identity then some scope else none
  | _ => none

section

variable (P : Primitives) (readers : Readers) (session : AppSessionView) (identity : IdentityId)

/-- The scopes in which the session may read records of the identity. -/
def scopes : List PathScope :=
  (session.grantedCapabilities.filterMap (AppCapability.parse P)).filterMap
    (readScope (session.identity.bind fun raw => (recipientIdentity P readers raw).toOption)
      identity)

def InScope (path : String) : Prop := ∃ scope ∈ scopes P readers session identity,
    scope.allowsPath path = true

/-- A granted wildcard allows the identity and the beginning of paths. -/
def WildcardAllows (start : String) : Prop :=
  ∃ base, .below base ∈ scopes P readers session identity ∧ startsWith start base = true

/-- The routes admit the session at the beginning of paths. -/
def Admitted (start : String) : Prop :=
  requireEnumerateCapability P readers session identity start = .ok () ∨
    session.allowsDataSubscription P identity start = true

end

variable {P : Primitives} {readers : Readers} {limits : StoreLimits} {streams : DataChangeStreams}
  {session : AppSessionView} {identity : IdentityId} {start path : String}

theorem mem_scopes {scope : PathScope} : scope ∈ scopes P readers session identity ↔
    ∃ capability ∈ session.grantedCapabilities, ∃ parsed, AppCapability.parse P capability =
      some parsed ∧
      readScope (session.identity.bind fun raw => (recipientIdentity P readers raw).toOption)
        identity
        parsed = some scope := by
  simp only [scopes, mem_filterMap]
  constructor
  · rintro ⟨parsed, ⟨capability, hmem, hparse⟩, hscope⟩
    exact ⟨capability, hmem, parsed, hparse, hscope⟩
  · rintro ⟨capability, hmem, parsed, hparse, hscope⟩
    exact ⟨parsed, ⟨capability, hmem, hparse⟩, hscope⟩

theorem inScope_of_wildcard (h : WildcardAllows P readers session identity start)
    (hpath : startsWith path start = true) : InScope P readers session identity path := by
  obtain ⟨base, hmem, hstart⟩ := h
  exact ⟨.below base, hmem, startsWith_trans hpath hstart⟩

/-! ### A path outside -/

/-- A scope of a capability was parsed from a text. -/
theorem exists_parse_of_readScope {own : Option IdentityId} {capability : String}
    {parsed : AppCapability} {scope : PathScope}
    (h : AppCapability.parse P capability = some parsed)
    (hscope : readScope own identity parsed = some scope) :
    ∃ raw, PathScope.parse raw = some scope := by
  have hof : ∀ raw (f : PathScope → AppCapability), (PathScope.parse raw).bind (fun scope =>
    some (f scope)) = some parsed →
      (∀ s s', readScope own identity (f s) = some s' → s = s') →
      ∃ raw, PathScope.parse raw = some scope := by
    intro raw f hraw hf
    obtain ⟨found, hfound, heq⟩ := bind_eq_some_iff.mp hraw
    cases heq
    exact ⟨raw, by rw [hfound, hf _ _ hscope]⟩
  unfold AppCapability.parse at h
  split_ifs at h
  · cases h; cases hscope
  · cases h; cases hscope
  · cases h; cases hscope
  · cases h; cases hscope
  · cases h; cases hscope
  · obtain ⟨raw, -, h⟩ := bind_eq_some_iff.mp h
    refine hof raw (.enumerate .selfIdentity) h fun s s' hs => ?_
    simp only [readScope, ite_none_right_eq_some, Option.some.injEq] at hs
    exact hs.2
  · obtain ⟨raw, -, h⟩ := bind_eq_some_iff.mp h
    exact hof raw (.enumerate .anyIdentity) h fun s s' hs => Option.some.inj hs
  · obtain ⟨parts, -, h⟩ := bind_eq_some_iff.mp h
    obtain ⟨⟨_, raw⟩, -, h⟩ := bind_eq_some_iff.mp h
    obtain ⟨identityScope, -, h⟩ := bind_eq_some_iff.mp h
    refine hof raw (.subscribe identityScope) h fun s s' hs => ?_
    cases identityScope with
    | anyIdentity => exact Option.some.inj hs
    | exact granted =>
      simp only [readScope, ite_none_right_eq_some, Option.some.injEq] at hs
      exact hs.2
  · obtain ⟨_, -, h⟩ := bind_eq_some_iff.mp h
    obtain ⟨_, -, h⟩ := bind_eq_some_iff.mp h
    cases h
    cases hscope

theorem slash_of_below {base : String} (h : .below base ∈ scopes P readers session identity) :
    ∃ raw, base = raw ++ "/" := by
  obtain ⟨capability, -, parsed, hparse, hscope⟩ := mem_scopes.mp h
  obtain ⟨raw, hraw⟩ := exists_parse_of_readScope hparse hscope
  unfold PathScope.parse at hraw
  split_ifs at hraw
  · obtain ⟨stripped, -, hstripped⟩ := bind_eq_some_iff.mp hraw
    split_ifs at hstripped
    cases hstripped
    exact ⟨stripped, rfl⟩
  · cases hraw

/-- A text that ends with a slash begins another one already without what is added behind, if that
has no slash. -/
theorem startsWith_of_append {raw added : String} (hadded : '/' ∉ added.toList)
    (h : startsWith (start ++ added) (raw ++ "/") = true) :
    startsWith start (raw ++ "/") = true := by
  rw [startsWith, isPrefixOf_iff_prefix, String.toList_append, String.toList_append] at h
  rw [startsWith, isPrefixOf_iff_prefix, String.toList_append]
  rcases prefix_or_prefix_of_prefix h (prefix_append start.toList added.toList) with hshort | hlong
  · exact hshort
  · obtain ⟨rest, hrest⟩ := hlong
    rcases eq_nil_or_concat rest with rfl | ⟨init, last, rfl⟩
    · rw [← hrest, append_nil]
    · -- the slash at the end is one of the added characters
      rw [← hrest, prefix_append_right_inj] at h
      have hlast : last = '/' := by
        have := congrArg List.getLast? hrest
        simpa using this
      exact absurd (h.subset (by simp [hlast])) hadded

/-- The length of the path of an exact scope. -/
def exactLength : PathScope → ℕ
  | .exact path => path.toList.length
  | .below _ => 0

def extended (start : String) (n : ℕ) : String := start ++ String.ofList (List.replicate n 'x')

/-- **Outside the wildcards there is a path that no scope allows.** -/
theorem exists_not_inScope (h : ¬ WildcardAllows P readers session identity start) :
    ∃ n, ¬ InScope P readers session identity (extended start n) := by
  refine ⟨((scopes P readers session identity).map exactLength).sum + 1, ?_⟩
  rintro ⟨scope, hmem, hallows⟩
  cases scope with
  | exact only =>
    -- the path is longer than all exact ones
    have hlength : only.toList.length ≤ ((scopes P readers session identity).map exactLength).sum :=
      single_le_sum (by simp) _ (mem_map.mpr ⟨_, hmem, rfl⟩)
    rw [PathScope.allowsPath, decide_eq_true_eq] at hallows
    have hcount := congrArg (fun s : String => s.toList.length) hallows
    simp only [extended, String.toList_append, String.toList_ofList, length_append,
      length_replicate] at hcount
    omega
  | below base =>
    obtain ⟨raw, rfl⟩ := slash_of_below hmem
    exact h ⟨_, hmem, startsWith_of_append (by simp) hallows⟩

/-! ### What a session is given -/

section

variable (P readers)

/-- The records are what a node selects for the identity and the beginning of paths. -/
def IsSnapshot (identity : IdentityId) (start : String) (records : List MaterializedRecordInfo) :
    Prop :=
  ∃ now node, (NetworkNode.materializedRecordSnapshot P now node identity start).records = records

/-- The daemon answers with what its node selects. -/
def AnswersSnapshots (identity : IdentityId) (start : String) : Step → Prop
  | .write records _ | .refreshed records _ => IsSnapshot P identity start records
  | _ => True

/-- The record of the subscription is for the beginning of paths, as it was registered. -/
def RegisteredAt (sub : Subscription) (start : String) (s : Service) : Prop :=
  ∀ record, dataSubscription s.store.state sub.sessionId sub.id = .ok record →
    record.identity = sub.identity ∧ record.start = start

variable (limits streams)

/-- The session is given a record with the path, as it reads records of the identity at a beginning
of paths: by enumerating, in the view of a subscription, or from its stream. -/
inductive Given (session : AppSessionView) (identity : IdentityId) (start : String) : String → Prop
  | enumerated {node : NetworkNode} {rows : List AppendRecordInfo} {row : AppendRecordInfo}
      (h : enumerateFor P readers session node identity start = .ok rows) (hrow : row ∈ rows) :
      Given session identity start row.path
  | viewed {now : UInt64} {node : NetworkNode} {snapshot : MaterializedRecordSnapshot}
      {record : MaterializedRecordInfo}
      (h : snapshotFor P session now node identity start = .ok snapshot)
      (hrecord : record ∈ snapshot.records) : Given session identity start record.path
  | streamed {sub : Subscription} {store : AppSessionStore} {records : List MaterializedRecordInfo}
      {steps : List Step} {next : Step} {event : DataChangeEvent} {poll : Poll}
      {record : MaterializedRecordInfo}
      (hidentity : recipientIdentity P readers sub.identity = .ok identity)
      (hrecords : IsSnapshot P identity start records)
      (hsteps : Along (step P readers limits streams sub)
        (fun s next => RegisteredAt sub start s ∧ AnswersSnapshots P identity start next)
        (Service.init store records) steps)
      (hevent : answered streams sub (run P readers limits streams sub (.init store records) steps)
        next =
        some event)
      (hpoll : answeredPoll next = some poll) (hsession : poll.session = session)
      (hrecord : record ∈ carried event) : Given session identity start record.path

end

/-- A stream gives only records that start as registered, to sessions that are admitted there. -/
theorem within_run {sub : Subscription} {records : List MaterializedRecordInfo} {steps : List Step}
    (hidentity : recipientIdentity P readers sub.identity = .ok identity)
    (hrecords : IsSnapshot P identity start records)
    (hsteps : Along (step P readers limits streams sub)
      (fun s next => RegisteredAt sub start s ∧ AnswersSnapshots P identity start next)
      (Service.init store records) steps) :
      Within (fun record => startsWith record.path start = true)
        (fun poll => poll.session.allowsDataSubscription P identity start = true) sub
        (run P readers limits streams sub (.init store records) steps) ∧
      Kept sub (run P readers limits streams sub (.init store records) steps).registry := by
  have hsnapshot : ∀ {records}, IsSnapshot P identity start records →
      ∀ record ∈ records, startsWith record.path start = true := by
    rintro _ ⟨now, node, rfl⟩ record hrecord
    exact startsWith_of_mem_snapshot hrecord
  refine hsteps.invariant (I := fun s => Within _ _ sub s ∧ Kept sub s.registry) ?_
    ⟨⟨hsnapshot hrecords, forall_mem_nil _, nofun⟩, kept_init sub store records⟩
  rintro s next ⟨hwithin, hkept⟩ ⟨hregistered, hanswers⟩
  refine ⟨hwithin.step P readers limits hkept ?_ ?_, hkept.step P readers limits next⟩
  · intro session cursor record hrecord hallowed
    obtain ⟨hid, hstart⟩ := hregistered record hrecord
    rw [allows, hid, hidentity, hstart] at hallowed
    exact hallowed
  · cases next with
    | write records announced => exact hsnapshot hanswers
    | refreshed records refresh => exact hsnapshot hanswers
    | _ => trivial

/-- **What a session is given starts as it asked for, where it is admitted.** -/
theorem Given.admitted (h : Given P readers limits streams session identity start path) :
    Admitted P readers session identity start ∧ startsWith path start = true := by
  cases h with
  | enumerated h hrow =>
    obtain ⟨hadmitted, rfl⟩ := enumerateFor_eq_ok.mp h
    exact ⟨.inl hadmitted, startsWith_of_mem_enumerate hrow⟩
  | viewed h hrecord =>
    obtain ⟨hadmitted, rfl⟩ := snapshotFor_eq_ok.mp h
    exact ⟨.inr hadmitted, startsWith_of_mem_snapshot hrecord⟩
  | streamed hidentity hrecords hsteps hevent hpoll hsession hrecord =>
    obtain ⟨hwithin, hkept⟩ := within_run hidentity hrecords hsteps
    obtain ⟨hstarts, poll', hpoll', hallowed⟩ := answered_within hwithin hkept hevent hrecord
    cases hpoll.symm.trans hpoll'
    exact ⟨.inr (hsession ▸ hallowed), hstarts⟩

/-! ### Nodes that hold a record -/

/-- A node that holds one append record and one present record of the identity, at the path. -/
def holding (identity : IdentityId) (path : String) : NetworkNode :=
  (Jolt.Network.Node.NetworkNode.fresh identity "" 1 1).insertState identity
    { authoritySequence := 0
      merged :=
        { identity
          singletonPaths :=
            (∅ : ExtTreeMap String MergedDeviceWriterEntry).insert path
              ⟨identity, "", 0, ⟨identity.publicKey⟩, 0, .present ⟨identity.publicKey⟩⟩
          singletonConflicts := ∅
          appendRecords :=
            (∅ : ExtTreeMap String (List MergedAppendRecord)).insert path
              [⟨identity, "", 0, ⟨identity.publicKey⟩, 0, ⟨identity.publicKey⟩⟩]
          rejectedEntries := [] }
      lastVerifiedAt := 0
      sourcePeer := none
      authorityRecords := []
      deviceLogs := ∅ }

theorem cached_holding (identity : IdentityId) (path : String) :
    ∃ state, (holding identity path).cached identity = some state ∧
      (∃ entry, state.merged.appendRecords[path]? = some [entry]) ∧
      ∃ entry contentId, state.merged.singletonPaths[path]? = some entry ∧
        entry.state = .present contentId := by
  refine ⟨_, by simp [holding, Jolt.Network.Node.NetworkNode.cached,
    Jolt.Network.Node.NetworkNode.insertState, Jolt.Lib.SharedCell.Cell.put,
    Jolt.Lib.SharedCell.Cell.value?]; rfl, ⟨_, getElem?_insert_self⟩,
    _, _, getElem?_insert_self, rfl⟩

/-- Where a session is admitted, it is given every path that goes on from there, if the node holds
it. -/
theorem given_of_admitted (h : Admitted P readers session identity start)
    (hpath : startsWith path start = true) :
    Given P readers limits streams session identity start path := by
  obtain ⟨state, hcached, ⟨appended, happended⟩, entry, contentId, hentry, hpresent⟩ :=
    cached_holding identity path
  rcases h with h | h
  · have hrow : (path, appended) ∈ appendRecordsUnder state.merged start :=
      mem_appendRecordsUnder.mpr ⟨hpath, _, happended, mem_singleton_self _⟩
    have hrows : ∃ row ∈ NetworkNode.enumerateAppendRecords P (holding identity path)
      identity start,
        row.path = path := by
      unfold NetworkNode.enumerateAppendRecords
      rw [hcached]
      exact ⟨_, mem_map_of_mem hrow, rfl⟩
    obtain ⟨row, hmem, rfl⟩ := hrows
    exact .enumerated (enumerateFor_eq_ok.mpr ⟨h, rfl⟩) hmem
  · have hmaterialized : materialized P start (path, entry) =
        some ⟨path, P.contentIdToString contentId, entry.entryHash.toHex, entry.createdAt⟩ := by
      simp only [materialized, hpresent, hpath, if_true]
    have hrecords : ∃ record ∈ (NetworkNode.materializedRecordSnapshot P 0 (holding identity path)
        identity start).records, record.path = path := by
      unfold NetworkNode.materializedRecordSnapshot
      rw [hcached]
      exact ⟨_, mem_filterMap.mpr ⟨_, mem_toList_iff_getElem?_eq_some.mpr hentry, hmaterialized⟩,
        rfl⟩
    obtain ⟨record, hmem, rfl⟩ := hrecords
    exact .viewed (snapshotFor_eq_ok.mpr ⟨h, rfl⟩) hmem

/-! ### Staying inside -/

/-- **Reads stay inside the granted scope exactly where a wildcard admits them.** All records that a
session is given at a beginning of paths, by whichever route, have paths that its capabilities
allow, if and only if a wildcard capability of the session allows the beginning, or the session is
not admitted there. -/
theorem reads_inside_iff (P : Primitives) (readers : Readers) (limits : StoreLimits)
    (streams : DataChangeStreams) (session : AppSessionView) (identity : IdentityId)
    (start : String) :
    (∀ path, Given P readers limits streams session identity start path →
        InScope P readers session identity path) ↔
      (Admitted P readers session identity start →
        WildcardAllows P readers session identity start) := by
  constructor
  · intro hinside hadmitted
    by_contra hwildcard
    obtain ⟨n, houtside⟩ := exists_not_inScope hwildcard
    exact houtside (hinside _ (given_of_admitted hadmitted (startsWith_append _ _)))
  · intro hwildcard path hgiven
    obtain ⟨hadmitted, hstarts⟩ := hgiven.admitted
    exact inScope_of_wildcard (hwildcard hadmitted) hstarts

/-- A session with one capability, as it is approved. -/
def approvedSession (capability : String) : Option AppSessionView :=
  let c : Circumstances := ⟨7, 0, "req_1", "", .ok ()⟩
  (SessionRuns.run primitives ⟨8, 30⟩ [.createRequest c ⟨"notes", "Notes", none, some "owner.jolt",
    [capability]⟩,
      .approveRequest { c with newId := "sess_1", newToken := "jolt_app_1" } "req_1"
        ⟨none, [capability], none⟩ "laptop"]).state.records[0]?.map (·.toAppSessionView)

def noReaders : Readers := ⟨id, fun _ => .error ""⟩

theorem approved_checks (capability start : String) {scope : PathScope}
    (h : (approvedSession capability).map (fun session =>
      (session.allowsDataSubscription primitives owner start,
        scopes primitives noReaders session owner)) = some (true, [scope])) :
    ∃ session, approvedSession capability = some session ∧
      Admitted primitives noReaders session owner start ∧
      scopes primitives noReaders session owner = [scope] := by
  obtain ⟨session, hsession, hchecks⟩ := map_eq_some_iff.mp h
  obtain ⟨hallows, hscopes⟩ := Prod.mk.inj hchecks
  exact ⟨session, hsession, .inr hallows, hscopes⟩

/-- With a wildcard, all that the session is given below it is in its scope. -/
theorem notes_inside : ∃ session, approvedSession "subscribe:any:/notes/*" = some session ∧
      Admitted Sample.primitives noReaders session Sample.owner "/notes/" ∧
      ∀ path, Given Sample.primitives noReaders ⟨8, 30⟩ StreamReaders.shortStreams
        session Sample.owner
        "/notes/" path → InScope Sample.primitives noReaders session Sample.owner path := by
  obtain ⟨session, hsession, hadmitted, hscopes⟩ :=
    @approved_checks "subscribe:any:/notes/*" "/notes/" (.below "/notes/") (by decide +kernel)
  refine ⟨session, hsession, hadmitted, (reads_inside_iff _ _ _ _ _ _ _).mpr fun _ => ?_⟩
  exact ⟨"/notes/", by rw [hscopes]; exact mem_singleton_self _, by decide⟩

/-- With a capability for one path, the session is given a record at another path that begins so. -/
theorem neighbour_given : ∃ session, approvedSession "subscribe:any:/notes" = some session ∧
      Given Sample.primitives noReaders ⟨8, 30⟩ StreamReaders.shortStreams session
        Sample.owner "/notes"
        "/notes-private" ∧
      ¬ InScope Sample.primitives noReaders session Sample.owner "/notes-private" := by
  obtain ⟨session, hsession, hadmitted, hscopes⟩ :=
    @approved_checks "subscribe:any:/notes" "/notes" (.exact "/notes") (by decide +kernel)
  refine ⟨session, hsession, given_of_admitted hadmitted (by decide), ?_⟩
  rintro ⟨scope, hmem, hallows⟩
  rw [hscopes, mem_singleton] at hmem
  rw [hmem] at hallows
  revert hallows
  decide

end Jolt.Server.ReadScopes

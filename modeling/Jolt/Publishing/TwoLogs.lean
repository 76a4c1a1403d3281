import Jolt.Publishing.Visibility
import Jolt.Publishing.NamedRuns

/-! # The two logs of one device

A node keeps what it publishes in two logs: the update log, whose entries bind paths one after the
other (`current_local_paths`), and the device-writer log, whose entries observe the heads they
replace and are merged. On a new identity with one device, as long as every request returns and no
logs come from elsewhere, the two say the same (`logs_agree`): the content at every path is that of
the last request to write it, and a path that was deleted last has a tombstone.

The invariant (`Agree`) says of each path what the last request has left there, in both logs. A
request that is answered from the table of mutations writes nothing, so it is not the last one to
write. -/

namespace Jolt.Publishing.TwoLogs

open Std Lib Checks Calls.Call Jolt.Core Jolt.Core.Types IdentityAuthority DeviceWriterLog UpdateLog
  Authority.Chain Merge Spec Refine Overwrite Network DeviceWriterCache CacheSpec List Option
  ExtTreeMap
open Node hiding Event step run construct
open Writing LocalNode Outcomes Requests Publishing.Alignment AlignedRuns Visibility NamedRuns

variable {P : Primitives} {node node' : LocalNode} {st st' : CachedDeviceWriterState}
  {outside : Outside} {last : String → Option Request} {request : Request} {entry : UpdateLogEntry}
  {action : UpdateAction} {path revision : String} {sequence : UInt64} {content : Option Bytes}
  {intent : Option RecordMutationIntent} {keys : Keys} {boot : Boot}

/-! ### What was written last -/

/-- The path that the request writes, unless it appends or is answered from the table. -/
def target (node : LocalNode) : Request → Option String
  | .publish _ path => (node.addressOf path).toOption.map (·.path)
  | .append _ _ => none
  | .mutate m =>
    if m.mutationId ∈ node.localRecordMutations then none
    else (m.request node).toOption.map (·.path)

/-- The last request to write each path, after one more request. -/
def noteLast (node : LocalNode) (request : Request) (last : String → Option Request) :
    String → Option Request :=
  fun path => if target node request = some path then some request else last path

/-- The node serves requests that all return, from `start` on; each path has the last request to
write it. -/
inductive Served (P : Primitives) (start : LocalNode) : LocalNode → (String → Option Request) → Prop
  | start : Served P start start fun _ => none
  | serve {node node' : LocalNode} {last : String → Option Request} {outside : Outside}
      {request : Request} {reply : Reply} (h : Served P start node last)
      (hcall : call P outside request node = (.ok reply, node')) :
      Served P start node' (noteLast node request last)

def IsDelete : Request → Prop
  | .mutate m => m.kind = .delete
  | _ => False

def leaves (P : Primitives) : Request → Option DeviceWriterPathState
  | .publish data _ => some (.present (.fromBytes P data))
  | .append _ _ => none
  | .mutate m => some (stateOf P m.kind.content)

theorem leaves_eq_tombstone_iff : leaves P request = some .tombstone ↔ IsDelete request := by
  cases request with
  | publish data path => simp [leaves, IsDelete]
  | append data path => simp [leaves, IsDelete]
  | mutate m =>
    obtain ⟨kind, _, _, _, _⟩ := m
    cases kind <;> simp [leaves, IsDelete, stateOf, MutationKind.content]

def contentOf : DeviceWriterPathState → Option ContentId
  | .present contentId => some contentId
  | .tombstone => none

def presentAt (st : CachedDeviceWriterState) (path : String) : Option ContentId :=
  (st.merged.singletonPaths[path]?.map (·.state)).bind contentOf

/-! ### The update log -/

/-- How an entry changes what the path is bound to. -/
def bind (action : UpdateAction) (path : String) (before : Option ContentId) : Option ContentId :=
  match action with
  | .setPath p contentId => if p = path then some contentId else before
  | .removePath p => if p = path then none else before
  | _ => before

def boundAt (node : LocalNode) (path : String) : Option ContentId :=
  node.currentLocalPaths[path]?.map (·.1)

theorem boundAt_eq_foldl (node : LocalNode) (path : String) : boundAt node path =
      (node.updateLog.getD []).foldl
      (fun before entry => bind entry.body.action path before) none := by
  unfold boundAt currentLocalPaths
  have hempty : (∅ : ExtTreeMap String (ContentId × UInt64))[path]?.map Prod.fst = none := by simp
  rw [← hempty]
  generalize (∅ : ExtTreeMap String (ContentId × UInt64)) = paths
  induction node.updateLog.getD [] generalizing paths with
  | nil => rfl
  | cons entry entries ih =>
    rw [foldl_cons, foldl_cons, ih]
    congr 1
    cases entry.body.action with
    | setPath p contentId =>
      simp only [bind, ExtTreeMap.getElem?_insert, LawfulEqCmp.compare_eq_iff_eq]
      split_ifs <;> rfl
    | removePath p =>
      simp only [bind, getElem?_erase, LawfulEqCmp.compare_eq_iff_eq]
      split_ifs <;> rfl
    | _ => rfl

theorem boundAt_concat {entries : List UpdateLogEntry} (path : String)
    (h : node.updateLog.getD [] = entries) (h' : node'.updateLog.getD [] = entries ++ [entry]) :
    boundAt node' path = bind entry.body.action path (boundAt node path) := by
  rw [boundAt_eq_foldl, boundAt_eq_foldl, h, h', foldl_append, foldl_cons, foldl_nil]

theorem action_next (h : node.nextUpdateLogEntry P action = .ok entry) :
    entry.body.action = action := by
  unfold nextUpdateLogEntry at h
  split at h
  all_goals
    simp only [UpdateLogEntry.append, UpdateLogEntry.genesis, UpdateLogEntry.signBody, bind_eq_ok,
      pure_eq_ok] at h
    obtain ⟨_, -, _, -, rfl⟩ := h
    rfl

/-! ### The merged state -/

theorem heads_of_unconflicted {authority : VerifiedIdentityAuthority} {logs : Logs}
    {merged : MergedDeviceIdentityState}
    (hmerge : mergeDeviceWriterLogs P authority logs = .ok merged)
    (h : merged.singletonConflicts[path]? = none) :
    heads P authority logs path = merged.singletonPaths[path]?.toList := by
  obtain ⟨-, -, hst⟩ := merge_eq_ok_iff.mp hmerge
  rw [hst.conflicts] at h
  rw [hst.winner]
  generalize heads P authority logs path = found at h ⊢
  rcases eq_nil_or_concat found with rfl | ⟨rest, c, rfl⟩
  · rfl
  · rw [concat_eq_append, dropLast_concat] at h
    obtain rfl : rest = [] := by
      by_contra hne
      rw [Families.row_eq_some.mpr ⟨rfl, hne⟩] at h
      cases h
    rfl

/-- **An entry leaves the other paths alone**, if the device was in the chain before. -/
theorem others_stay (ha : Aligned P node st) (hnamed : Named node)
    (hun : ∀ path : String, st.merged.singletonConflicts[path]? = none) {target : String}
    {operation : DeviceWriterOperation} {mutation : Option RecordMutationIntent}
    (h : publishLocalDeviceWriterOperation P outside target operation mutation node =
      (.ok (sequence, revision), node')) :
    ∃ st', Aligned P node' st' ∧ ∀ path : String, singletonAt path operation = none →
      st'.merged.singletonPaths[path]? = st.merged.singletonPaths[path]? ∧
        st'.merged.singletonConflicts[path]? = none := by
  obtain ⟨e, observed, record, network', st', hp, -, rfl, hid, -, -, -, hw⟩ := publish_eq_ok ha h
  refine ⟨st', hw.aligned, fun path hop => ?_⟩
  obtain ⟨authority, iteration, hverify, -, hmerge⟩ := ha.ok.backed
  obtain ⟨authority', iteration', hverify', -, hmerge'⟩ := hw.aligned.ok.backed
  -- the chain is the same, since it names the device
  have hchain : st'.authorityRecords = st.authorityRecords := by
    obtain ⟨-, _, -, -, hrecords, -⟩ := prepareDeviceWriterOperation_eq_ok.mp hp
    rw [hw.aligned.records, ha.records]
    rcases authorityRecords_cases hrecords with ⟨_, _, -, -, -, -, heq⟩ | ⟨hunknown, -⟩
    · exact heq
    · rw [ha.records] at hverify
      have hnone := hunknown authority hverify
      rw [getElem?_devices_of_verify hverify] at hnone
      unfold Named at hnamed
      rw [hnone] at hnamed
      cases hnamed
  obtain rfl : authority = authority' := by
    rw [hchain, show (published node record network').identity = node.identity from
      hid, hverify] at hverify'
    exact Except.ok.inj hverify'
  have hcand : ¬ Candidate authority path e := by
    rintro ⟨-, hsome⟩
    rw [hw.next.operation, hop] at hsome
    cases hsome
  have hperm : (heads P authority (iteration'.values st'.deviceLogs) path).Perm
      (heads P authority (iteration.values st.deviceLogs) path) :=
    heads_perm_of_not_candidate hw.table.flatten_perm hw.table.continued
      (fun _ hlog => hw.table.exists_of_mem_values hlog) hcand
  rw [heads_of_unconflicted hmerge (hun path)] at hperm
  obtain ⟨-, -, hst'⟩ := merge_eq_ok_iff.mp hmerge'
  rw [hst'.winner, hst'.conflicts]
  cases hwinner : st.merged.singletonPaths[path]? with
  | none =>
    rw [hwinner] at hperm
    rw [hperm.eq_nil]
    exact ⟨rfl, rfl⟩
  | some c =>
    rw [hwinner] at hperm
    rw [perm_singleton.mp hperm]
    exact ⟨rfl, rfl⟩

/-! ### The invariant -/

/-- **Both logs say what the last request has left** at each path, and no path has conflicts. -/
structure Agree (P : Primitives) (node : LocalNode) (st : CachedDeviceWriterState)
    (last : String → Option Request) : Prop where
  aligned : Aligned P node st
  named : Named node
  unconflicted : ∀ path : String, st.merged.singletonConflicts[path]? = none
  winner : ∀ path : String, st.merged.singletonPaths[path]?.map (·.state) = (last path).bind
    (leaves P)
  bound : ∀ path : String, boundAt node path = ((last path).bind (leaves P)).bind contentOf

theorem updateLog_carryOut {w : Write}
    (h : carryOut P outside w node = (.ok (sequence, revision), node')) :
    (w.action = none ∧ node'.updateLog = node.updateLog) ∨
      ∃ action entry, w.action = some action ∧ entry.body.action = action ∧
        node'.updateLog.getD [] = node.updateLog.getD [] ++ [entry] := by
  obtain ⟨mid, deviceSequence, hmid, hpublish⟩ := carryOut_eq_ok h
  obtain ⟨e, record, stored, network', -, hn, -, -, rfl⟩ :=
    publishLocalDeviceWriterOperation_eq_ok hpublish
  obtain ⟨merged, -, -, rfl⟩ := storeVerified_eq_ok hn
  have hcontent : (afterContent P w node).updateLogs = node.updateLogs ∧
      (afterContent P w node).network = node.network := by
    unfold afterContent
    cases w.content <;> exact ⟨rfl, rfl⟩
  have hafter : (afterContent P w node).updateLog = node.updateLog := by
    unfold updateLog LocalNode.identity
    rw [hcontent.1, hcontent.2]
  rcases hmid with ⟨haction, rfl, -⟩ | ⟨action, entry, haction, hentry, rfl, -⟩
  · exact .inl ⟨haction, hafter⟩
  · refine .inr ⟨action, entry, haction, action_next hentry, ?_⟩
    rw [← hafter]
    exact congrArg (Option.getD · []) (updateLog_withEntry (afterContent P w node) entry)

theorem singletonAt_write_of_ne {other : String} (h : path ≠ other) (content : Option Bytes)
    (intent : Option RecordMutationIntent) :
    singletonAt other (Write.at P path content intent).operation = none := by
  cases content <;> simp [Write.at, singletonAt, h]

theorem bind_action_write (h : (Write.at P path content intent).action = some action)
    (other : String) (before : Option ContentId) :
    bind action other before = if path = other then contentOf (stateOf P content) else before := by
  cases content with
  | none =>
    cases h
    rfl
  | some data =>
    cases h
    rfl

theorem Agree.stages (h : Agree P node st last) {w : Write}
    (hcarry : carryOut P outside w node = (.ok (sequence, revision), node')) :
    ∃ st', Aligned P node' st' ∧ Named node' ∧
      ∀ path : String, singletonAt path w.operation = none →
      st'.merged.singletonPaths[path]? = st.merged.singletonPaths[path]? ∧
        st'.merged.singletonConflicts[path]? = none := by
  have hnamed := stagewise_named.carryOut (P := P) outside w node h.named
  rw [hcarry] at hnamed
  obtain ⟨mid, _, hmid, hpublish⟩ := carryOut_eq_ok hcarry
  obtain ⟨updateLogs, store, rfl⟩ := mid_frame hmid
  have hmidAligned : Aligned P { node with updateLogs, store } st :=
    aligned_of_network h.aligned rfl rfl
  have hmidNamed : Named { node with updateLogs, store } := h.named
  obtain ⟨st', hst', hothers⟩ := others_stay hmidAligned hmidNamed h.unconflicted hpublish
  exact ⟨st', hst', hnamed, hothers⟩

theorem Agree.write (h : Agree P node st last)
    (hcarry : carryOut P outside (.at P path content intent) node =
      (.ok (sequence, revision), node'))
    (hwins : WinsAlone node' path revision (stateOf P content))
    (hleaves : leaves P request = some (stateOf P content)) :
    ∃ st', Agree P node' st' fun p => if some path = some p then some request else last p := by
  obtain ⟨st', hst', hnamed, hothers⟩ := h.stages hcarry
  obtain ⟨_, winner, hstate, hwinner, -, hwinnerState, hconflicts⟩ := hwins
  cases hst'.state.symm.trans hstate
  refine ⟨st', hst', hnamed, fun p => ?_, fun p => ?_, fun p => ?_⟩
  · by_cases hp : path = p
    · exact hp ▸ hconflicts
    · exact (hothers p (singletonAt_write_of_ne hp content intent)).2
  · by_cases hp : path = p
    · subst hp
      rw [if_pos rfl, hwinner, bind_some, hleaves, map_some, hwinnerState]
    · rw [if_neg (fun heq => hp (Option.some.inj heq)),
        (hothers p (singletonAt_write_of_ne hp content intent)).1, h.winner]
  · rcases updateLog_carryOut hcarry with ⟨haction, -⟩ | ⟨action, entry, haction, hentry, hlog⟩
    · cases content <;> cases haction
    · rw [boundAt_concat p rfl hlog, hentry, bind_action_write haction, h.bound]
      by_cases hp : path = p
      · rw [if_pos hp, if_pos (congrArg some hp), bind_some, hleaves, bind_some]
      · rw [if_neg hp, if_neg fun heq => hp (Option.some.inj heq)]

theorem Agree.append (h : Agree P node st last) {data : Bytes}
    (hcarry : carryOut P outside ⟨some data, none, path,
      .setPath path (.fromBytes P data) .append, none⟩ node = (.ok (sequence, revision), node')) :
    ∃ st', Agree P node' st' last := by
  obtain ⟨st', hst', hnamed, hothers⟩ := h.stages hcarry
  refine ⟨st', hst', hnamed, fun p => (hothers p rfl).2, fun p => ?_, fun p => ?_⟩
  · rw [(hothers p rfl).1, h.winner]
  · rcases updateLog_carryOut hcarry with ⟨-, hlog⟩ | ⟨_, _, haction, -⟩
    · rw [← h.bound, boundAt, boundAt, currentLocalPaths, currentLocalPaths, hlog]
    · cases haction

theorem call_of_replayed {reply : Reply} (hreplayed : Replayed node request)
    (h : call P outside request node = (.ok reply, node')) :
    node' = node ∧ target node request = none := by
  cases request with
  | publish data path => exact hreplayed.elim
  | append data path => exact hreplayed.elim
  | mutate m =>
    refine ⟨?_, if_pos hreplayed⟩
    rw [call_apply] at h
    rcases hplan : plan P node (.mutate m) with e | answer | w
    · simp [hplan] at h
    · simp only [hplan, Prod.mk.injEq] at h
      exact h.2.symm
    · rcases plan_eq_inr hplan with ⟨_, _, _, hm, -⟩ | ⟨_, _, _, hm, -⟩ | ⟨_, _, hm, -, hnone, -⟩
      · cases hm
      · cases hm
      · cases hm
        have hsome := mem_iff_isSome_getElem?.mp hreplayed
        rw [hnone] at hsome
        cases hsome

/-- **Every request that returns keeps the two logs in agreement.** -/
theorem Agree.serve (h : Agree P node st last) {reply : Reply}
    (hcall : call P outside request node = (.ok reply, node')) :
    ∃ st', Agree P node' st' (noteLast node request last) := by
  unfold noteLast
  by_cases hreplayed : Replayed node request
  · obtain ⟨rfl, htarget⟩ := call_of_replayed hreplayed hcall
    simp only [htarget]
    exact ⟨st, h⟩
  have hshown := shown_of_inLine ⟨st, h.aligned⟩ hreplayed hcall
  obtain ⟨w, sequence, revision, hplan, hcarry, rfl⟩ := call_eq_ok_of_fresh hreplayed hcall
  rcases plan_eq_inr hplan with ⟨data, path, address, rfl, haddress, rfl⟩ |
    ⟨data, path, address, rfl, haddress, rfl⟩ | ⟨m, r, rfl, hr, -, -, rfl⟩
  · have htarget : target node (.publish data path) = some address.path := by
      show (node.addressOf path).toOption.map (·.path) = _
      rw [haddress]
      rfl
    rw [htarget]
    exact h.write hcarry hshown rfl
  · exact h.append hcarry
  · have htarget : target node (.mutate m) = some r.path := by
      show (if m.mutationId ∈ node.localRecordMutations then none
        else (m.request node).toOption.map (·.path)) = _
      rw [hr]
      exact if_neg hreplayed
    rw [htarget]
    refine h.write hcarry ?_ rfl
    unfold Request.reply Mutation.write at hshown
    rw [path_at] at hshown
    dsimp only at hshown
    cases hcontent : m.kind.content with
    | none =>
      rw [hcontent] at hshown
      exact hshown
    | some data =>
      rw [hcontent] at hshown
      obtain ⟨contentId, htext, hwins⟩ := hshown
      cases P.contentIdText.text_injective htext
      exact hwins

/-! ### A new node -/

theorem construct_empty (h : construct P keys boot .empty = (.ok (), node)) :
    node.updateLog = none ∧ ∃ st, node.state = some st ∧ st.deviceLogs = ∅ := by
  unfold construct load at h
  simp only [run_bind_eq_ok, write_apply, Prod.mk.injEq] at h
  obtain ⟨_, updates, hupdates, _, logs, hlogs, _, restored, ⟨-, rfl⟩, hensure⟩ := h
  obtain rfl : updates = fresh P keys .empty := by
    rcases loadPersistedLocalUpdateLog_eq_ok hupdates with ⟨-, rfl⟩ | ⟨_, _, hnone, -⟩
    · rfl
    · cases hnone
  obtain rfl : logs = fresh P keys .empty := by
    rcases loadPersistedLocalDeviceWriterLog_eq_ok hlogs with ⟨-, rfl⟩ | ⟨_, _, _, hnone, -⟩
    · rfl
    · cases hnone
  obtain ⟨hid, -, hstate, hlocal, hworks⟩ :=
    restoreRemote_frame (P := P) (fresh P keys .empty).network boot.remote
  generalize boot.remote.foldl (fun network s =>
    network.restorePersistedRemoteIdentityState P s.1 s.2)
    (fresh P keys .empty).network = network' at hensure hid hstate hlocal hworks
  have hblank : Blank ((fresh P keys .empty).setNetwork network') := by
    refine ⟨?_, rfl, ?_, hworks⟩
    · show network'.cached network'.identity = none
      rw [hid, hstate]
      rfl
    · show network'.localDeviceWriterLogs network'.identity = []
      rw [hid, hlocal]
      rfl
  obtain ⟨records, -, htake⟩ := ensureLocalDeviceAuthority_eq_ok hensure
  obtain ⟨sequence, network'', hn, rfl⟩ := takeOver_eq_ok htake
  obtain ⟨st, hcached, -, -, hid', -, -, -, hfold⟩ := aligned_of_blank hblank hn
  simp only [foldlM_nil, pure_eq_ok] at hfold
  refine ⟨rfl, st, ?_, hfold.symm⟩
  show network''.cached network''.identity = some st
  rw [hid']
  exact hcached

theorem agree_construct (h : construct P keys boot .empty = (.ok (), node)) :
    ∃ st, Agree P node st fun _ => none := by
  obtain ⟨hupdates, st, hstate, hempty⟩ := construct_empty h
  have happart : Apart (keys.localDeviceId P) .empty := by rintro record ⟨⟩
  obtain ⟨st', hst⟩ := inLine_construct happart h
  cases hstate.symm.trans hst.state
  obtain ⟨authority, iteration, -, -, hmerge⟩ := hst.ok.backed
  obtain ⟨-, -, hmerged⟩ := merge_eq_ok_iff.mp hmerge
  have hvalues : iteration.values st.deviceLogs = [] := by
    rw [eq_nil_iff_forall_not_mem]
    intro log hlog
    obtain ⟨d, hd⟩ := mem_values.mp hlog
    simp [hempty] at hd
  have hheads : ∀ path, heads P authority (iteration.values st.deviceLogs) path = [] := by
    intro path
    rw [eq_nil_iff_forall_not_mem]
    intro c hc
    obtain ⟨log, hlog, -⟩ := mem_candidatesAt.mp (mem_heads.mp hc).1
    rw [hvalues] at hlog
    cases hlog
  refine ⟨st, hst, named_construct h, fun path => ?_, fun path => ?_, fun path => ?_⟩
  · rw [hmerged.conflicts, hheads]
    rfl
  · rw [hmerged.winner, hheads]
    rfl
  · rw [boundAt, currentLocalPaths, hupdates]
    simp

theorem agree_of_served {start : LocalNode}
    (hstart : construct P keys boot .empty = (.ok (), start)) (h : Served P start node last) :
    ∃ st, Agree P node st last := by
  induction h with
  | start => exact agree_construct hstart
  | serve _ hcall ih =>
    obtain ⟨st, hst⟩ := ih
    exact hst.serve hcall

/-! ### The two logs agree -/

/-- **The update log and the merged state agree**: they have the same content at every path, and a
path has a tombstone if and only if the last request to write it was a deletion. -/
theorem logs_agree {start : LocalNode} {keys : Keys} {boot : Boot}
    (hstart : construct P keys boot .empty = (.ok (), start)) (h : Served P start node last) :
    ∃ st, node.state = some st ∧
      (∀ path : String, node.currentLocalPaths[path]?.map (·.1) = presentAt st path) ∧
      ∀ path : String, (∃ winner, st.merged.singletonPaths[path]? = some winner ∧
          winner.state = .tombstone) ↔
        ∃ request, last path = some request ∧ IsDelete request := by
  obtain ⟨st, hst⟩ := agree_of_served hstart h
  refine ⟨st, hst.aligned.state, fun path => ?_, fun path => ?_⟩
  · unfold presentAt
    rw [hst.winner]
    exact hst.bound path
  · have hwinner : (∃ winner, st.merged.singletonPaths[path]? = some winner ∧
        winner.state = .tombstone) ↔ (last path).bind (leaves P) = some .tombstone := by
      rw [← hst.winner, map_eq_some_iff]
    rw [hwinner, bind_eq_some_iff]
    simp only [leaves_eq_tombstone_iff]

/-! ### A note that is deleted -/

/-- The revision of the first note of the node. -/
def noteRevision : String :=
  match (call SampleNode.primitives default (.publish [1] "/note") SampleNode.node).1 with
  | .ok (.published _ _ _ revision) => revision
  | _ => ""

def deletion : Mutation := ⟨.delete, "/note", noteRevision, [], "first"⟩

/-- A note is published and deleted. -/
theorem logs_agree_note : ∃ node last, Served SampleNode.primitives SampleNode.node node last ∧
      last "/note" = some (.mutate deletion) ∧
      ∃ st, node.state = some st ∧ node.currentLocalPaths["/note"]?.map (·.1) = none ∧
        ∃ winner, st.merged.singletonPaths["/note"]? = some winner ∧ winner.state = .tombstone := by
  have hok : (call SampleNode.primitives default (.publish [1] "/note") SampleNode.node).1.isOk =
      true ∧
      (call SampleNode.primitives default (.mutate deletion)
        (call SampleNode.primitives default (.publish [1] "/note") SampleNode.node).2).1.isOk =
      true ∧
      target (call SampleNode.primitives default (.publish [1] "/note") SampleNode.node).2
        (.mutate deletion) = some "/note" := by
    decide +kernel
  obtain ⟨reply, node, hcall⟩ := exists_of_isOk hok.1
  rw [hcall] at hok
  obtain ⟨reply', node', hcall'⟩ := exists_of_isOk hok.2.1
  have hserved := (Served.start.serve hcall).serve hcall'
  have hlast : noteLast node (.mutate deletion) (noteLast SampleNode.node (.publish [1] "/note")
      fun _ => none) "/note" = some (.mutate deletion) := if_pos hok.2.2
  obtain ⟨st, hstate, hpaths, htombstone⟩ := logs_agree SampleNode.construct_eq hserved
  obtain ⟨winner, hwinner, hdeleted⟩ := (htombstone "/note").mpr ⟨_, hlast, rfl⟩
  refine ⟨node', _, hserved, hlast, st, hstate, ?_, winner, hwinner, hdeleted⟩
  rw [hpaths, presentAt, hwinner, map_some, hdeleted]
  rfl

end Jolt.Publishing.TwoLogs

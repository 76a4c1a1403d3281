import Jolt.Lib.Diffs
import Jolt.Network.PageSpec
import Jolt.Network.HeldLogs

/-! # Delta sync against full sync

The loop of a sync of another's identity: the requester sends cursors at the last entries it has,
merges the page it gets into its cache, and asks for the continuation until there is none
(`syncLoop`). While the requester is behind the provider (`Behind`), every page extends its logs by
the runs of the page (`deviceLogs_afterPage`) and the continuation names the ends of the extended
logs (`cursorsOf_continuation`). So the loop ends, with the provider's logs (`syncLoop_eq`), and the
merged state is the one a single full response gives. -/

namespace Jolt.Network.DeltaSync

open Std Lib Checks Sorting Cutting List ExtTreeMap
open Diffs (nodup_map_fst_toList)
open Jolt.Core Jolt.Core.Types IdentityAuthority DeviceWriterLog Authority.Chain Merge Spec Shape
  Refine Causality Determinism DeviceWriterCache CacheSpec Node SyncPages PageSpec HeldLogs
open Sample (authorizeLaptop authorizePhone laptopNote owner phoneNote primitives)

/-! ### The loop -/

section

variable (P : Primitives) (M : Platform)

def deviceWriterSyncCursors (iteration : Iteration) : Option CachedDeviceWriterState →
    List DeviceWriterCursor
  | none => []
  | some state =>
    sortBy (compareOn (·.deviceId)) ((iteration.values state.deviceLogs).filterMap (headCursor P))

def identityHeadInvalidFailure (identity : IdentityId) (detail : String) : NetworkError :=
  .discoveryFailed .identityHeadInvalid
    (s!"Invalid identity head for {P.identityToString identity}: {detail}. The relay mesh found an "
      ++
      "update-log provider, but the returned signed identity state could not be verified.")

/-- What the requester does with a page: the checks when it arrives, then the merge. -/
def receivePage (ambient : Ambient) (provider : PeerId) (identity : IdentityId)
    (existing : Option CachedDeviceWriterState) (response : DeviceWriterSyncResponse) :
    Except (Fault NetworkError) CachedDeviceWriterState := do
  match response.ensureSupported causalHeadsDeviceWriterOperationVersion
      deltaDeviceWriterSyncVersion with
  | .error error => .error (.err error)
  | .ok () => do
    ensure (response.authorityRecords ≠ []) (.err (identityHeadInvalidFailure P identity
      "provider returned no device-authority records"))
    let state ← mergeVerifiedDeviceWriterState P ambient.iteration identity existing
      response.authorityRecords response.deviceLogs response.syncVersion response.heads
      response.continuation.isNone
    return { state with lastVerifiedAt := ambient.now, sourcePeer := some provider }

/-- **The sync of an identity with a provider** that holds `records` and `logs`, for at most `fuel`
pages; `ambient n` is what page `n` gets from outside. `none` if there are more pages. -/
def syncLoop (limits : Limits) (ambient : ℕ → Ambient) (provider : PeerId) (identity : IdentityId)
    (records : List DeviceAuthorizationRecord) (logs : List (List DeviceWriterLogEntry)) :
    ℕ → ℕ → Option CachedDeviceWriterState → List DeviceWriterCursor →
      Option (Except (Fault NetworkError) CachedDeviceWriterState)
  | 0, _, _, _ => none
  | fuel + 1, n, existing, cursors =>
    match forSyncRequestWithLimits P M ((SyncRequest.new identity).withCursors cursors) records logs
        limits with
    | .error fault => some (.error fault)
    | .ok response =>
      match receivePage P (ambient n) provider identity existing response with
      | .error fault => some (.error fault)
      | .ok state =>
        match response.continuation with
        | none => some (.ok state)
        | some continuation =>
          syncLoop limits ambient provider identity records logs fuel (n + 1)
            (some state) continuation.cursors

end

variable {P : Primitives} {M : Platform} {limits : Limits} {identity : IdentityId} {logs : Logs}
  {existing : Option CachedDeviceWriterState} {records : List DeviceAuthorizationRecord}
  {accumulated : DeviceLogs} {cursors : List DeviceWriterCursor}

/-! ### Requesters and their cursors -/

/-- **The requester is behind the provider**: of every log it holds a prefix, and no other logs. -/
structure Behind (logs : Logs) (accumulated : DeviceLogs) : Prop where
  wellKeyed : WellKeyed accumulated
  isPrefix : ∀ whole ∈ logs, held accumulated (firstDeviceId whole) <+: whole
  other : ∀ d, d ∉ logs.map firstDeviceId → held accumulated d = []

def CaughtUp (logs : Logs) (accumulated : DeviceLogs) : Prop :=
  ∀ whole ∈ logs, held accumulated (firstDeviceId whole) = whole

/-- The cursors name the last entries of the logs that are held. -/
structure CursorsOf (P : Primitives) (accumulated : DeviceLogs)
    (cursors : List DeviceWriterCursor) :
    Prop where
  nodup : (cursors.map (·.deviceId)).Nodup
  mem_iff : ∀ cursor, cursor ∈ cursors ↔ ∃ d, headCursor P (held accumulated d) = some cursor

theorem Behind.exists_whole (hb : Behind logs accumulated) {d : String}
    (hne : held accumulated d ≠ []) :
    ∃ whole ∈ logs, firstDeviceId whole = d ∧ held accumulated d <+: whole := by
  have hmem : d ∈ logs.map firstDeviceId := by
    by_contra hd
    exact hne (hb.other d hd)
  obtain ⟨whole, hw, rfl⟩ := mem_map.mp hmem
  exact ⟨whole, hw, rfl, hb.isPrefix whole hw⟩

section

variable (h : Serves P M identity logs)
include h

/-- The cursor at the end of a log that is held. -/
theorem headCursor_held (hb : Behind logs accumulated) {d : String}
    {cursor : DeviceWriterCursor} (hcursor : headCursor P (held accumulated d) = some cursor) :
    cursor.deviceId = d ∧ cursor.deviceSequence.toNat + 1 = (held accumulated d).length ∧
      PointsInto P logs cursor := by
  obtain ⟨e, he, rfl⟩ := Option.map_eq_some_iff.mp hcursor
  have hne : held accumulated d ≠ [] := by
    rintro hnil
    simp [hnil] at he
  obtain ⟨whole, hw, hd, hpre⟩ := hb.exists_whole hne
  have hlog : DeviceLog P identity d (held accumulated d) := by
    have hwhole := h.deviceLog whole hw
    rw [hd] at hwhole
    exact hwhole.of_isPrefix hpre
  have hpos : 0 < (held accumulated d).length := length_pos_iff.mpr hne
  rw [getLast?_eq_getElem?] at he
  obtain ⟨hi, hget⟩ := List.getElem?_eq_some_iff.mp he
  have hseq : e.body.deviceSequence.toNat = (held accumulated d).length - 1 := by
    rw [← hget]
    exact hlog.toNat_deviceSequence _ hi
  have hid : e.body.deviceId = d := (hlog.valid e (hget ▸ getElem_mem hi)).deviceId
  refine ⟨hid, ?_, whole, hw, hd.trans hid.symm, e, ?_, rfl, rfl⟩
  · show e.body.deviceSequence.toNat + 1 = (held accumulated d).length
    omega
  · show whole[e.body.deviceSequence.toNat]? = some e
    rw [hseq]
    exact (prefix_iff_getElem?.mp hpre _ hi).trans (congrArg some hget)

omit h in
theorem headCursor_append (a b : List DeviceWriterLogEntry) :
    headCursor P (a ++ b) = (headCursor P b).or (headCursor P a) := by
  unfold headCursor
  rw [getLast?_append]
  cases b.getLast? <;> rfl

/-- At most one cursor names a device: the end of the log that is held. -/
theorem filter_cursorsOf (hb : Behind logs accumulated) (hc : CursorsOf P accumulated cursors)
    (d : String) :
    cursors.filter (·.deviceId = d) = (headCursor P (held accumulated d)).toList := by
  have hmem : ∀ c, c ∈ cursors.filter (·.deviceId = d) ↔
    headCursor P (held accumulated d) = some c := by
    intro c
    rw [mem_filter, decide_eq_true_eq, hc.mem_iff]
    constructor
    · rintro ⟨⟨d', hd'⟩, hid⟩
      rw [← hid, (headCursor_held h hb hd').1, hd']
    · intro hd
      exact ⟨⟨d, hd⟩, (headCursor_held h hb hd).1⟩
  have hnodup : ((cursors.filter (·.deviceId = d)).map (·.deviceId)).Nodup :=
    hc.nodup.sublist (filter_sublist.map _)
  cases hf : cursors.filter (·.deviceId = d) with
  | nil =>
    cases hd : headCursor P (held accumulated d) with
    | none => rfl
    | some c =>
      have hc' := (hmem c).mpr hd
      rw [hf] at hc'
      cases hc'
  | cons c rest =>
    rw [(hmem c).mp (hf ▸ mem_cons_self)]
    cases rest with
    | nil => rfl
    | cons c' rest =>
      have hc := mem_filter.mp (hf ▸ mem_cons_self : c ∈ cursors.filter (·.deviceId = d))
      have hc' := mem_filter.mp (hf ▸ mem_cons_of_mem c mem_cons_self : c' ∈
        cursors.filter (·.deviceId = d))
      rw [decide_eq_true_eq] at hc hc'
      rw [hf, map_cons, map_cons, nodup_cons, hc.2, hc'.2] at hnodup
      exact absurd mem_cons_self hnodup.1

theorem heldUpTo_eq (hb : Behind logs accumulated)
    (hc : CursorsOf P accumulated cursors) (whole : List DeviceWriterLogEntry) :
    heldUpTo cursors whole = (held accumulated (firstDeviceId whole)).length := by
  have hfilter := filter_cursorsOf h hb hc (firstDeviceId whole)
  unfold heldUpTo
  rw [← head?_filter, hfilter]
  cases hd : headCursor P (held accumulated (firstDeviceId whole)) with
  | none =>
    have hnil : held accumulated (firstDeviceId whole) = [] := by simpa [headCursor] using hd
    rw [hnil]
    rfl
  | some cursor => exact (headCursor_held h hb hd).2.1

/-! ### The first cursors -/

theorem map_deviceId_filterMap (hb : Behind logs accumulated) :
    ∀ (rows : List (String × List DeviceWriterLogEntry)),
      (∀ row ∈ rows, accumulated[row.1]? = some row.2) →
      ((rows.map (·.2)).filterMap (headCursor P)).map (·.deviceId) = rows.map (·.1)
  | [], _ => rfl
  | row :: rows, hrows => by
    have hrow := hrows row mem_cons_self
    obtain ⟨hheld, hne⟩ := (getElem?_eq_some_iff_held hb.wellKeyed).mp hrow
    have hcursor : headCursor P row.2 = some (cursorFromEntry P (row.2.getLast hne)) := by
      rw [headCursor, getLast?_eq_getLast_of_ne_nil hne]
      rfl
    have hid := (headCursor_held h hb (d := row.1) (by rw [hheld]; exact hcursor)).1
    rw [map_cons, filterMap_cons_some hcursor, map_cons, map_cons, hid,
      map_deviceId_filterMap hb rows fun row' hr => hrows row' (mem_cons_of_mem row hr)]

theorem cursorsOf_sync (hb : Behind logs (cachedLogs existing)) (iteration : Iteration) :
    CursorsOf P (cachedLogs existing) (deviceWriterSyncCursors P iteration existing) := by
  cases existing with
  | none =>
    refine ⟨by simp [deviceWriterSyncCursors], fun cursor => ?_⟩
    simp [deviceWriterSyncCursors, cachedLogs, held, headCursor]
  | some state =>
    have hcached : cachedLogs (some state) = state.deviceLogs := rfl
    rw [hcached] at hb ⊢
    unfold deviceWriterSyncCursors
    constructor
    · have hperm : (iteration.rows state.deviceLogs).Perm state.deviceLogs.toList :=
        iteration.perm _
      rw [((perm_sortBy _ _).map _).nodup_iff, Iteration.values,
        map_deviceId_filterMap h hb _ fun row hrow => mem_rows.mp hrow, (hperm.map _).nodup_iff]
      exact nodup_map_fst_toList _
    · intro cursor
      rw [mem_sortBy, mem_filterMap]
      constructor
      · rintro ⟨log, hlog, hcursor⟩
        obtain ⟨d, hd⟩ := mem_values.mp hlog
        exact ⟨d, ((getElem?_eq_some_iff_held hb.wellKeyed).mp hd).1 ▸ hcursor⟩
      · rintro ⟨d, hd⟩
        have hne : held state.deviceLogs d ≠ [] := by
          rintro hnil
          simp [hnil, headCursor] at hd
        exact ⟨_, mem_values.mpr ⟨d, (getElem?_eq_some_iff_held hb.wellKeyed).mpr ⟨rfl, hne⟩⟩, hd⟩

end

/-! ### A page -/

theorem filter_flatten_of_pairs : ∀ (pairs : List (List DeviceWriterLogEntry × String)),
    (∀ p ∈ pairs, ∀ e ∈ p.1, e.body.deviceId = p.2) → (pairs.map (·.2)).Nodup →
    (∀ p ∈ pairs, (pairs.map (·.1)).flatten.filter (·.body.deviceId = p.2) = p.1) ∧
      ∀ d, d ∉ pairs.map (·.2) → (pairs.map (·.1)).flatten.filter (·.body.deviceId = d) = []
  | [], _, _ => ⟨by simp, by simp⟩
  | q :: pairs, hdevice, hnodup => by
    rw [map_cons, nodup_cons] at hnodup
    obtain ⟨ih, ih'⟩ := filter_flatten_of_pairs pairs (fun p hp => hdevice p (mem_cons_of_mem q hp))
      hnodup.2
    have hnone : ∀ d, q.2 ≠ d → q.1.filter (·.body.deviceId = d) = [] := by
      intro d hd
      rw [filter_eq_nil_iff]
      intro e he
      rw [decide_eq_true_eq, hdevice q mem_cons_self e he]
      exact hd
    refine ⟨fun p hp => ?_, fun d hd => ?_⟩
    · rw [map_cons, flatten_cons, filter_append]
      rcases mem_cons.mp hp with rfl | hp
      · rw [ih' _ hnodup.1, append_nil, filter_eq_self]
        exact fun e he => decide_eq_true (hdevice p mem_cons_self e he)
      · rw [hnone _ fun heq => hnodup.1 (heq ▸ mem_map_of_mem hp), ih p hp, nil_append]
    · rw [map_cons, mem_cons, not_or] at hd
      rw [map_cons, flatten_cons, filter_append, hnone d (Ne.symm hd.1), ih' d hd.2, nil_append]

section

variable {runs : Logs} {cut : Bool} {response : DeviceWriterSyncResponse}

section

variable (h : Serves P M identity logs)
include h

theorem nodup_served : ((served logs).map firstDeviceId).Nodup :=
  ((perm_sortBy _ logs).map firstDeviceId).nodup_iff.mpr h.distinct

theorem append_drop_heldUpTo (hb : Behind logs accumulated)
    (hc : CursorsOf P accumulated cursors) {whole : List DeviceWriterLogEntry} (hw : whole ∈ logs) :
    held accumulated (firstDeviceId whole) ++ whole.drop (heldUpTo cursors whole) = whole := by
  rw [heldUpTo_eq h hb hc]
  exact prefix_iff_eq_append.mp (hb.isPrefix whole hw)

section

variable (hb : Behind logs accumulated) (hc : CursorsOf P accumulated cursors)
  (hpage : Cut ((served logs).map fun log => log.drop (heldUpTo cursors log)) runs cut)
include hb hc hpage

theorem append_isPrefix : runs.length = (served logs).length ∧
      ∀ p ∈ runs.zip (served logs), held accumulated (firstDeviceId p.2) ++ p.1 <+: p.2 := by
  have hpre := hpage.forall₂_isPrefix
  rw [forall₂_map_right_iff] at hpre
  obtain ⟨hlen, hzip⟩ := forall₂_iff_zip.mp hpre
  refine ⟨hlen, fun p hp => ?_⟩
  have hmem : p.2 ∈ logs := mem_served.mp (of_mem_zip hp).2
  obtain ⟨left, hleft⟩ := hzip hp
  refine ⟨left, ?_⟩
  rw [append_assoc, hleft, append_drop_heldUpTo h hb hc hmem]

/-- **A page extends what is held** by its runs, to everything if it was not cut. -/
theorem deviceLogs_afterPage :
    ∃ accumulated', (runs.filter (· ≠ [])).foldlM (accumulateLog P) accumulated = .ok accumulated' ∧
      Behind logs accumulated' ∧
      (∀ d, held accumulated' d = held accumulated d ++ runs.flatten.filter (·.body.deviceId = d)) ∧
      (cut = false → CaughtUp logs accumulated') := by
  obtain ⟨hlen, hpre⟩ := append_isPrefix h hb hc hpage
  have hfst : (runs.zip (served logs)).map (·.1) = runs := map_fst_zip hlen.le
  have hsnd : (runs.zip (served logs)).map (fun p => firstDeviceId p.2) =
    (served logs).map firstDeviceId := by
    have hmap := congrArg (List.map firstDeviceId) (map_snd_zip hlen.ge)
    rwa [List.map_map] at hmap
  have hnodup := nodup_served h
  obtain ⟨acc, hacc, hk, hset, hkeep⟩ := foldlM_accumulateLog_of_forall (P := P) (·.1)
    (fun p => held accumulated (firstDeviceId p.2) ++ p.1) (fun p => firstDeviceId p.2)
    (runs.zip (served logs)) hb.wellKeyed (hsnd ▸ hnodup) (by
      intro p hp acc hk heq
      have hlog := h.deviceLog p.2 (mem_served.mp (of_mem_zip hp).2)
      obtain ⟨acc', hacc', hheld⟩ := accumulateLog_run hk hlog (heq ▸ hpre p hp)
      exact ⟨acc', hacc', fun d => by rw [hheld d, heq]⟩)
  rw [hfst] at hacc
  rw [hsnd] at hkeep
  -- the runs as pairs of a run and its device
  obtain ⟨hrun, hnorun⟩ := filter_flatten_of_pairs ((runs.zip (served logs)).map fun p =>
    (p.1, firstDeviceId p.2)) (by
      intro q hq e he
      obtain ⟨p, hp, rfl⟩ := mem_map.mp hq
      have hlog := h.deviceLog p.2 (mem_served.mp (of_mem_zip hp).2)
      exact (hlog.valid e ((hpre p hp).subset (List.mem_append_right _ he))).deviceId) (by
      rw [List.map_map]
      exact hsnd ▸ hnodup)
  simp only [List.map_map, Function.comp_def, hfst, hsnd] at hrun hnorun
  have hdevices : ∀ d, d ∈ (served logs).map firstDeviceId ↔ d ∈ logs.map firstDeviceId :=
    fun d => ((perm_sortBy _ logs).map firstDeviceId).mem_iff
  refine ⟨acc, (foldlM_filter_ne_nil runs accumulated).trans hacc, ⟨hk, ?_, ?_⟩, fun d =>
    ?_, fun hcut whole hw => ?_⟩
  · intro whole hw
    have hw' := mem_served.mpr hw
    rw [← map_snd_zip hlen.ge] at hw'
    obtain ⟨p, hp, rfl⟩ := mem_map.mp hw'
    rw [hset p hp]
    exact hpre p hp
  · intro d hd
    rw [hkeep d fun hmem => hd ((hdevices d).mp hmem), hb.other d hd]
  · by_cases hd : d ∈ (served logs).map firstDeviceId
    · rw [← hsnd] at hd
      obtain ⟨p, hp, rfl⟩ := mem_map.mp hd
      rw [hset p hp, hrun _ (mem_map_of_mem hp)]
    · rw [hkeep d hd, hnorun d hd, append_nil]
  · have hp : (whole.drop (heldUpTo cursors whole), whole) ∈ runs.zip (served logs) := by
      rw [hpage.eq_of_not_cut hcut, ← map_prod_right_eq_zip]
      exact mem_map_of_mem (mem_served.mpr hw)
    exact (hset _ hp).trans (append_drop_heldUpTo h hb hc hw)

end

end

/-! ### The continuation -/

theorem getElem?_foldl_insert (d : String) : ∀ (l : List DeviceWriterCursor)
    (t : ExtTreeMap String DeviceWriterCursor),
      (l.foldl (fun t cursor => t.insert cursor.deviceId cursor) t)[d]? =
        ((l.filter (·.deviceId = d)).getLast?).or t[d]?
  | [], t => by simp
  | cursor :: l, t => by
    rw [List.foldl_cons, getElem?_foldl_insert d l, ExtTreeMap.getElem?_insert]
    by_cases hd : cursor.deviceId = d
    · rw [filter_cons_of_pos (by simpa using hd), getLast?_cons]
      cases (l.filter (·.deviceId = d)).getLast? <;> simp [hd]
    · have hcmp : compare cursor.deviceId d ≠ .eq :=
        fun hc => hd (LawfulEqOrd.compare_eq_iff_eq.mp hc)
      rw [filter_cons_of_neg (by simpa using hd), if_neg hcmp]

theorem mem_of_foldl_insert {l : List DeviceWriterCursor} {row : String × DeviceWriterCursor}
    (h : row ∈ (l.foldl (fun (t : ExtTreeMap String DeviceWriterCursor) cursor =>
      t.insert cursor.deviceId cursor) ∅).toList) : row.2 ∈ l ∧ row.2.deviceId = row.1 := by
  have hget := mem_toList_iff_getElem?_eq_some.mp h
  rw [getElem?_foldl_insert] at hget
  have hlast : (l.filter (·.deviceId = row.1)).getLast? = some row.2 := by simpa using hget
  obtain ⟨hmem, hid⟩ := mem_filter.mp (mem_of_getLast? hlast)
  exact ⟨hmem, of_decide_eq_true hid⟩

/-- **The continuation names the ends of the extended logs.** -/
theorem cursorsOf_continuation (h : Serves P M identity logs) (hb : Behind logs accumulated)
    (hc : CursorsOf P accumulated cursors) {accumulated' : DeviceLogs}
    (hheld : ∀ d, held accumulated' d = held accumulated d ++
      runs.flatten.filter (·.body.deviceId = d)) :
    CursorsOf P accumulated' (continuationCursors P cursors (runs.filter (· ≠ []))) := by
  have hflat : (runs.filter (· ≠ [])).flatten = runs.flatten := flatten_filter_ne_nil
  unfold continuationCursors
  rw [hflat]
  set moved := (cursors ++ runs.flatten.map (cursorFromEntry P)).foldl
    (fun (t : ExtTreeMap String DeviceWriterCursor) cursor => t.insert cursor.deviceId cursor) ∅
    with hmoved
  have hlookup : ∀ d, moved[d]? = headCursor P (held accumulated' d) := by
    intro d
    have hsent : ((runs.flatten.map (cursorFromEntry P)).filter (·.deviceId = d)).getLast? =
        headCursor P (runs.flatten.filter (·.body.deviceId = d)) := by
      rw [filter_map, getLast?_map]
      rfl
    rw [hmoved, getElem?_foldl_insert, filter_append, getLast?_append, hsent,
      filter_cursorsOf h hb hc d, hheld d, headCursor_append]
    cases headCursor P (held accumulated d) <;> simp
  have hkey : ∀ row ∈ moved.toList, row.2.deviceId = row.1 := fun row hrow =>
    (mem_of_foldl_insert hrow).2
  constructor
  · have hnames : (moved.toList.map (·.2)).map (·.deviceId) = moved.toList.map (·.1) := by
      rw [List.map_map]
      exact map_congr_left hkey
    rw [((perm_sortBy _ _).map _).nodup_iff, hnames]
    exact nodup_map_fst_toList moved
  · intro cursor
    rw [mem_sortBy, List.mem_map]
    constructor
    · rintro ⟨row, hrow, rfl⟩
      exact ⟨row.1, (hlookup row.1) ▸ mem_toList_iff_getElem?_eq_some.mp hrow⟩
    · rintro ⟨d, hd⟩
      exact ⟨(d, cursor), mem_toList_iff_getElem?_eq_some.mpr ((hlookup d).trans hd), rfl⟩

end

variable {authority : VerifiedIdentityAuthority}

/-! ### The last page -/

section

variable (h : Serves P M identity logs) (hb : Behind logs accumulated)
  (hall : CaughtUp logs accumulated)
include h hb hall

/-- The heads of the provider are the cursors of a requester that has caught up. -/
theorem cursorsOf_heads : CursorsOf P accumulated ((served logs).filterMap (headCursor P)) ∧
      ((served logs).filterMap (headCursor P)).map
      (·.deviceId) = (served logs).map firstDeviceId := by
  have hnames := map_deviceId_filterMap h hb ((served logs).map fun whole =>
    (firstDeviceId whole, whole)) (by
      intro row hrow
      obtain ⟨whole, hw, rfl⟩ := mem_map.mp hrow
      exact (getElem?_eq_some_iff_held hb.wellKeyed).mpr
        ⟨hall whole (mem_served.mp hw), h.ne_nil whole (mem_served.mp hw)⟩)
  simp only [List.map_map, Function.comp_def, List.map_id'] at hnames
  refine ⟨⟨hnames ▸ nodup_served h, fun cursor => ?_⟩, hnames⟩
  rw [mem_filterMap]
  constructor
  · rintro ⟨whole, hw, hcursor⟩
    exact ⟨firstDeviceId whole, (hall whole (mem_served.mp hw)).symm ▸ hcursor⟩
  · rintro ⟨d, hd⟩
    have hne : held accumulated d ≠ [] := by
      rintro hnil
      simp [hnil, headCursor] at hd
    obtain ⟨whole, hw, rfl, -⟩ := hb.exists_whole hne
    exact ⟨whole, mem_served.mpr hw, hall whole hw ▸ hd⟩

theorem size_of_caughtUp : accumulated.size = (served logs).length := by
  have hperm : (accumulated.toList.map (·.1)).Perm ((served logs).map firstDeviceId) := by
    rw [perm_ext_iff_of_nodup (nodup_map_fst_toList _) (nodup_served h)]
    intro d
    simp only [mem_map, mem_served]
    constructor
    · rintro ⟨row, hrow, rfl⟩
      have hget := mem_toList_iff_getElem?_eq_some.mp hrow
      obtain ⟨hheld, hne⟩ := (getElem?_eq_some_iff_held hb.wellKeyed).mp hget
      obtain ⟨whole, hw, hd, -⟩ := hb.exists_whole (hheld ▸ hne)
      exact ⟨whole, hw, hd⟩
    · rintro ⟨whole, hw, rfl⟩
      exact ⟨(firstDeviceId whole, whole), mem_toList_iff_getElem?_eq_some.mpr
        ((getElem?_eq_some_iff_held hb.wellKeyed).mpr ⟨hall whole hw, h.ne_nil whole hw⟩), rfl⟩
  have hlen := hperm.length_eq
  rwa [length_map, length_map, length_toList] at hlen

/-- **The check of the heads passes** once the requester has everything. -/
theorem checkHeads_of_caughtUp (iteration : Iteration) (syncVersion : UInt16) (complete : Bool) :
    checkHeads P iteration syncVersion ((served logs).filterMap (headCursor P)) complete
      accumulated = .ok () := by
  obtain ⟨hc, hnames⟩ := cursorsOf_heads h hb hall
  have hlen : ((served logs).filterMap (headCursor P)).length = (served logs).length := by
    have hl := congrArg List.length hnames
    rwa [length_map, length_map] at hl
  unfold checkHeads
  split_ifs with hversion
  · rw [hc.nodup.dedup, length_map, size_of_caughtUp h hb hall, bind_eq_ok]
    refine ⟨(), ensure_eq_ok.mpr ⟨rfl, hlen⟩, forM_eq_ok_iff.mpr fun row hrow => ?_⟩
    obtain ⟨hheld, hne⟩ := (getElem?_eq_some_iff_held hb.wellKeyed).mp (mem_rows.mp hrow)
    have hlast := getLast?_eq_getLast_of_ne_nil hne
    have hcursor : headCursor P (held accumulated row.1) =
      some (cursorFromEntry P (row.2.getLast hne)) := by
      rw [hheld, headCursor, hlast]
      rfl
    have hfind : ((served logs).filterMap (headCursor P)).reverse.find? (·.deviceId = row.1) =
        some (cursorFromEntry P (row.2.getLast hne)) := by
      rw [← head?_filter, filter_reverse, head?_reverse, filter_cursorsOf h hb hc row.1, hcursor]
      rfl
    unfold checkHead
    rw [hfind, hlast]
    simp [okOr, cursorFromEntry]
  · rfl

end

/-! ### Merging while behind -/

theorem logVerified_of_isPrefix {short log : List DeviceWriterLogEntry}
    (h : LogVerified P authority log) (hpre : short <+: log) : LogVerified P authority short := by
  obtain ⟨deviceId, hlog⟩ := verifyDeviceLogShape_iff_exists.mp h.1
  exact ⟨verifyDeviceLogShape_iff_exists.mpr ⟨deviceId, hlog.of_isPrefix hpre⟩, fun e he =>
    h.2 e (hpre.subset he)⟩

theorem exists_whole_of_mem_values (hb : Behind logs accumulated) {iteration : Iteration}
    {log : List DeviceWriterLogEntry} (hlog : log ∈ iteration.values accumulated) :
    ∃ whole ∈ logs, log <+: whole := by
  obtain ⟨d, hd⟩ := mem_values.mp hlog
  obtain ⟨hheld, hne⟩ := (getElem?_eq_some_iff_held hb.wellKeyed).mp hd
  obtain ⟨whole, hw, -, hpre⟩ := hb.exists_whole (hheld ▸ hne)
  exact ⟨whole, hw, hheld ▸ hpre⟩

theorem exists_merge_of_behind (hvalid : ∀ log ∈ logs, LogVerified P authority log)
    (hacyc : Acyclic P logs) (hb : Behind logs accumulated) (iteration : Iteration) :
    ∃ merged, mergeDeviceWriterLogs P authority (iteration.values accumulated) = .ok merged := by
  have hentries : ∀ log ∈ iteration.values accumulated, ∀ e ∈ log, ∃ log' ∈ logs, e ∈ log' := by
    intro log hlog e he
    obtain ⟨whole, hw, hpre⟩ := exists_whole_of_mem_values hb hlog
    exact ⟨whole, hw, hpre.subset he⟩
  obtain ⟨merged, hmerged, -⟩ := (merge_not_panicked (hacyc.of_entries hentries)).2 (by
    intro log hlog
    obtain ⟨whole, hw, hpre⟩ := exists_whole_of_mem_values hb hlog
    exact logVerified_of_isPrefix (hvalid whole hw) hpre)
  exact ⟨merged, hmerged⟩

theorem chooseRecords_chosen {candidate : VerifiedIdentityAuthority}
    (hok : ∀ st ∈ existing, CacheOk P identity st)
    (hrecords : verifyIdentityAuthorityChain P identity records = .ok candidate)
    (hforce : verifyIdentityAuthorityChain P identity (chooseRecords existing candidate records) =
      .ok authority) {st : CachedDeviceWriterState}
    (hst : st.authorityRecords = chooseRecords existing candidate records)
    (hseq : st.authoritySequence = authority.latestSequence) :
    chooseRecords (some st) candidate records = chooseRecords existing candidate records := by
  have hsame : chooseRecords existing candidate records = records → candidate = authority := by
    intro heq
    rw [heq] at hforce
    exact Except.ok.inj (hrecords.symm.trans hforce)
  show (if st.authoritySequence ≤ candidate.latestSequence then records else st.authorityRecords) =
    _
  cases existing with
  | none =>
    have heq : chooseRecords none candidate records = records := rfl
    rw [hseq, ← hsame heq, if_pos (UInt64.le_refl _), heq]
  | some old =>
    by_cases hle : old.authoritySequence ≤ candidate.latestSequence
    · have heq : chooseRecords (some old) candidate records = records := if_pos hle
      rw [hseq, ← hsame heq, if_pos (UInt64.le_refl _), heq]
    · -- the requester has a later chain, and keeps it
      have heq : chooseRecords (some old) candidate records = old.authorityRecords := if_neg hle
      obtain ⟨held, -, hverify, hold, -⟩ := (hok old rfl).backed
      rw [heq, hverify] at hforce
      rw [hseq, ← Except.ok.inj hforce, ← hold, if_neg hle, hst]

/-! ### The loop ends -/

def lacking (logs : Logs) (accumulated : DeviceLogs) : ℕ :=
  (logs.map fun whole => whole.length - (held accumulated (firstDeviceId whole)).length).sum

theorem lacking_le (logs : Logs) (accumulated : DeviceLogs) :
    lacking logs accumulated ≤ logs.flatten.length := by
  rw [length_flatten]
  exact sum_le_sum fun whole _ => Nat.sub_le _ _

/-- A page with entries is progress. -/
theorem lacking_lt {runs : Logs} {accumulated' : DeviceLogs} (hb' : Behind logs accumulated')
    (hheld : ∀ d, held accumulated' d = held accumulated d ++
      runs.flatten.filter (·.body.deviceId = d))
    (hruns : runs.flatten ≠ []) : lacking logs accumulated' < lacking logs accumulated := by
  have hlen : ∀ d, (held accumulated' d).length = (held accumulated d).length +
      (runs.flatten.filter (·.body.deviceId = d)).length := by
    intro d
    rw [hheld d, length_append]
  refine sum_lt_sum _ _ (fun whole _ => ?_) ?_
  · have hl := hlen (firstDeviceId whole)
    omega
  · obtain ⟨e, he⟩ := exists_mem_of_ne_nil _ hruns
    have hmem : e ∈ runs.flatten.filter (·.body.deviceId = e.body.deviceId) := by simpa using he
    have hpos : 0 < (runs.flatten.filter (·.body.deviceId = e.body.deviceId)).length :=
      length_pos_of_mem hmem
    have hne : held accumulated' e.body.deviceId ≠ [] := by
      rw [hheld]
      exact append_ne_nil_of_right_ne_nil _ (ne_nil_of_mem hmem)
    obtain ⟨whole, hw, hd, hpre⟩ := hb'.exists_whole hne
    have hle := hpre.length_le
    have hl := hlen e.body.deviceId
    refine ⟨whole, hw, ?_⟩
    rw [hd]
    omega

theorem requiredOperationVersion_le_causalHeads (logs : Logs) :
    requiredOperationVersion logs ≤ causalHeadsDeviceWriterOperationVersion := by
  by_cases hne : logs.flatten = []
  · unfold requiredOperationVersion
    rw [hne]
    decide
  · rw [requiredOperationVersion_le_iff hne]
    intro e _
    unfold operationVersion
    split_ifs
    · decide
    · cases e.body.operation with
      | setPath path contentId mode =>
        show legacyDeviceWriterOperationVersion ≤ causalHeadsDeviceWriterOperationVersion
        decide
      | tombstonePath path =>
        show tombstoneDeviceWriterOperationVersion ≤ causalHeadsDeviceWriterOperationVersion
        decide

section

variable {candidate authority : VerifiedIdentityAuthority} {ambient : Ambient} {provider : PeerId}
  {response : DeviceWriterSyncResponse}

section

variable (hok : ∀ st ∈ existing, CacheOk P identity st)
  (hrecords : verifyIdentityAuthorityChain P identity records = .ok candidate)
  (hforce : verifyIdentityAuthorityChain P identity (chooseRecords existing candidate records) =
    .ok authority)
  (hvalid : ∀ log ∈ logs, LogVerified P authority log) (hacyc : Acyclic P logs)
include hok hrecords hforce hvalid hacyc

/-- **Receiving a page** that extends what is held and whose heads are right. -/
theorem receivePage_eq_ok (ambient : Ambient) (provider : PeerId)
    (response : DeviceWriterSyncResponse) (hresponse : response.authorityRecords = records)
    (hsupported : response.requiredOperationVersion ≤ causalHeadsDeviceWriterOperationVersion ∧
      response.syncVersion ≤ deltaDeviceWriterSyncVersion)
    (hfold : response.deviceLogs.foldlM (accumulateLog P) (cachedLogs existing) = .ok accumulated)
    (hb : Behind logs accumulated)
    (hheads : checkHeads P ambient.iteration response.syncVersion response.heads
      response.continuation.isNone accumulated = .ok ()) :
    ∃ st, receivePage P ambient provider identity existing response = .ok st ∧
      st.deviceLogs = accumulated ∧
      st.authorityRecords = chooseRecords existing candidate records ∧
      st.authoritySequence = authority.latestSequence ∧ CacheOk P identity st := by
  obtain ⟨merged, hmerged⟩ := exists_merge_of_behind hvalid hacyc hb ambient.iteration
  have hmerge : mergeVerifiedDeviceWriterState P ambient.iteration identity existing
      response.authorityRecords response.deviceLogs response.syncVersion response.heads
      response.continuation.isNone =
      .ok ⟨authority.latestSequence, merged, (existing.map (·.lastVerifiedAt)).getD 0,
        existing.bind (·.sourcePeer), chooseRecords existing candidate records, accumulated⟩ := by
    rw [mergeVerified_eq_ok_iff, hresponse]
    exact ⟨candidate, authority, hrecords, rfl, hforce, rfl, hfold, hheads, hmerged, rfl, rfl⟩
  have hne : response.authorityRecords ≠ [] := by
    have hlen := latestSequence_of_verify hrecords
    rintro hnil
    rw [← hresponse, hnil, length_nil] at hlen
    omega
  have hcache := cacheOk_of_mergeVerified hok hmerge
  have hens : response.ensureSupported causalHeadsDeviceWriterOperationVersion
      deltaDeviceWriterSyncVersion = .ok () := by
    unfold DeviceWriterSyncResponse.ensureSupported
    rw [bind_eq_ok]
    exact ⟨(), ensure_eq_ok.mpr hsupported.1, ensure_eq_ok.mpr hsupported.2⟩
  refine ⟨⟨authority.latestSequence, merged, ambient.now, some provider,
    chooseRecords existing candidate records, accumulated⟩, ?_, rfl, rfl, rfl,
    ⟨hcache.wellKeyed, hcache.backed⟩⟩
  unfold receivePage
  rw [hens, hmerge]
  simp [ensure, hne, Bind.bind, Except.bind, pure, Except.pure]

theorem receiveFull_eq_ok (ambient : Ambient) (provider : PeerId) (h : Serves P M identity logs)
    (hb : Behind logs (cachedLogs existing)) {all : Logs} (hall : all.Perm logs) :
    ∃ st, receivePage P ambient provider identity existing (complete records logs all) = .ok st ∧
      st.authorityRecords = chooseRecords existing candidate records ∧
      st.authoritySequence = authority.latestSequence ∧ CacheOk P identity st ∧
      Behind logs st.deviceLogs ∧ CaughtUp logs st.deviceLogs := by
  obtain ⟨acc, hacc, hk, hset, hkeep⟩ := foldlM_accumulateLog_of_forall (P := P) id id firstDeviceId
    all hb.wellKeyed
    ((hall.map firstDeviceId).nodup_iff.mpr h.distinct) (by
      intro whole hw acc hk heq
      have hmem := hall.mem_iff.mp hw
      exact accumulateLog_whole hk (h.deviceLog whole hmem) (h.ne_nil whole hmem) (heq ▸
        hb.isPrefix whole hmem))
  rw [List.map_id] at hacc
  have hcaught : CaughtUp logs acc := fun whole hw => hset whole (hall.mem_iff.mpr hw)
  have hb' : Behind logs acc := by
    refine ⟨hk, fun whole hw => (hcaught whole hw).symm ▸ prefix_rfl, fun d hd => ?_⟩
    rw [hkeep d fun hmem => hd ((hall.map firstDeviceId).mem_iff.mp hmem), hb.other d hd]
  have hlegacy : legacyDeviceWriterSyncVersion ≤ deltaDeviceWriterSyncVersion := by decide
  obtain ⟨st, hst, hlogs, hr, hs, hcache⟩ :=
    receivePage_eq_ok hok hrecords hforce hvalid hacyc ambient
    provider (complete records logs all) rfl ⟨requiredOperationVersion_le_causalHeads logs,
      hlegacy⟩ hacc hb' rfl
  exact ⟨st, hst, hr, hs, hcache, hlogs.symm ▸ hb', hlogs.symm ▸ hcaught⟩

/-- **One turn of the loop.** The page is received; it either brings everything or leaves the
requester closer to the provider, with a continuation at the ends of what it then has. -/
theorem turn (h : Serves P M identity logs) (hroom : Roomy M limits)
    (hb : Behind logs (cachedLogs existing)) (hc : CursorsOf P (cachedLogs existing) cursors)
    (ambient : Ambient) (provider : PeerId) :
    ∃ response st, forSyncRequestWithLimits P M
      ((SyncRequest.new identity).withCursors cursors) records logs
        limits = .ok response ∧
      receivePage P ambient provider identity existing response = .ok st ∧
      st.authorityRecords = chooseRecords existing candidate records ∧
      st.authoritySequence = authority.latestSequence ∧ CacheOk P identity st ∧
      Behind logs st.deviceLogs ∧
      (response.continuation = none ∧ CaughtUp logs st.deviceLogs ∨
        ∃ continuation, response.continuation = some continuation ∧
          CursorsOf P st.deviceLogs continuation.cursors ∧
          lacking logs st.deviceLogs < lacking logs (cachedLogs existing)) := by
  have hversion := requiredOperationVersion_le_causalHeads logs
  have hdeltaVersion := UInt16.le_refl deltaDeviceWriterSyncVersion
  obtain ⟨response, hanswer, hcases⟩ :=
    answer_cases h hroom ((SyncRequest.new identity).withCursors cursors) records
  rcases hcases with ⟨hlt, -⟩ | ⟨-, ⟨all, hall, rfl⟩ | ⟨runs, cut, hdelta⟩⟩
  · exact absurd hlt (UInt16.not_lt.mpr hversion)
  · obtain ⟨st, hst, hr, hs, hcache, hb', hcaught⟩ := receiveFull_eq_ok hok hrecords hforce hvalid
      hacyc ambient provider h hb hall
    exact ⟨_, st, hanswer, hst, hr, hs, hcache, hb', .inl ⟨rfl, hcaught⟩⟩
  · obtain ⟨acc, hacc, hb', hheld, hwhole⟩ := deviceLogs_afterPage h hb hc hdelta.page
    have heq := hdelta.response_eq
    cases cut with
    | true =>
      obtain ⟨st, hst, hlogs, hr, hs, hcache⟩ := receivePage_eq_ok hok hrecords hforce hvalid hacyc
        ambient provider response (by rw [heq])
        (by rw [heq]; exact ⟨hversion, hdeltaVersion⟩) (by rw [heq]; exact hacc) hb'
          (by rw [heq]; rfl)
      refine ⟨response, st, hanswer, hst, hr, hs, hcache, hlogs.symm ▸ hb',
        .inr ⟨_, by rw [heq]; rfl, ?_, ?_⟩⟩
      · rw [hlogs]
        exact cursorsOf_continuation h hb hc hheld
      · rw [hlogs]
        exact lacking_lt hb' hheld (hdelta.progress rfl)
    | false =>
      have hcaught := hwhole rfl
      obtain ⟨st, hst, hlogs, hr, hs, hcache⟩ := receivePage_eq_ok hok hrecords hforce hvalid hacyc
        ambient provider response (by rw [heq])
        (by rw [heq]; exact ⟨hversion, hdeltaVersion⟩) (by rw [heq]; exact hacc) hb'
        (by rw [heq]; exact checkHeads_of_caughtUp h hb' hcaught _ _ _)
      exact ⟨response, st, hanswer, hst, hr, hs, hcache, hlogs.symm ▸ hb',
        .inl ⟨by rw [heq]; rfl, hlogs.symm ▸ hcaught⟩⟩

end

/-- **The loop ends**, with everything the provider has. -/
theorem syncLoop_eq (h : Serves P M identity logs) (hroom : Roomy M limits)
    (hrecords : verifyIdentityAuthorityChain P identity records = .ok candidate)
    {chosen : List DeviceAuthorizationRecord}
    (hforce : verifyIdentityAuthorityChain P identity chosen = .ok authority)
    (hvalid : ∀ log ∈ logs, LogVerified P authority log) (hacyc : Acyclic P logs)
    (ambient : ℕ → Ambient) (provider : PeerId) :
    ∀ {fuel n : ℕ} {existing : Option CachedDeviceWriterState} {cursors : List DeviceWriterCursor},
      lacking logs (cachedLogs existing) < fuel → (∀ st ∈ existing, CacheOk P identity st) →
      chooseRecords existing candidate records = chosen → Behind logs (cachedLogs existing) →
      CursorsOf P (cachedLogs existing) cursors →
      ∃ st, syncLoop P M limits ambient provider identity records logs fuel n existing cursors =
        some (.ok st) ∧
        st.authorityRecords = chosen ∧ CacheOk P identity st ∧ Behind logs st.deviceLogs ∧
        CaughtUp logs st.deviceLogs
  | 0, _, _, _, hfuel, _, _, _, _ => by omega
  | fuel + 1, n, existing, cursors, hfuel, hok, hchosen, hb, hc => by
    obtain ⟨response, st, hanswer, hst, hr, hs, hcache, hb', hcases⟩ := turn hok hrecords
      (hchosen ▸ hforce) hvalid hacyc h hroom hb hc (ambient n) provider
    rw [syncLoop, hanswer]
    simp only [hst]
    rcases hcases with ⟨hnone, hcaught⟩ | ⟨continuation, hsome, hcursors, hless⟩
    · rw [hnone]
      exact ⟨st, rfl, hr.trans hchosen, hcache, hb', hcaught⟩
    · rw [hsome]
      have hstay := chooseRecords_chosen hok hrecords (hchosen ▸ hforce) hr hs
      have hfuel' : lacking logs (cachedLogs (some st)) < fuel := by
        show lacking logs st.deviceLogs < fuel
        omega
      exact syncLoop_eq h hroom hrecords hforce hvalid hacyc ambient provider hfuel'
        (fun st' hst' => Option.some.inj hst' ▸ hcache) (hstay.trans hchosen) hb' hcursors

/-- **Delta sync refines full sync.** A provider holds one valid log for each device; the requester
holds a prefix of some of them. For all limits of a page and whatever the orders of iteration, the
loop ends after at most one page more than there are entries, and leaves the requester with the logs
of the provider and with the merged state that a single full response gives.

The logs are valid under the chain that is in force at the requester. Equal hashes mean equal
entries and no entry refers to itself: BLAKE3 has no collisions here. -/
theorem syncLoop_refines_fullResponse (h : Serves P M identity logs) (hroom : Roomy M limits)
    (hrecords : verifyIdentityAuthorityChain P identity records = .ok candidate)
    (hok : ∀ st ∈ existing, CacheOk P identity st)
    (hpre : ∀ (d : String) (log), (cachedLogs existing)[d]? = some log →
      ∃ whole ∈ logs, firstDeviceId whole = d ∧ log <+: whole)
    (hforce : verifyIdentityAuthorityChain P identity (chooseRecords existing candidate records) =
      .ok authority)
    (hvalid : ∀ log ∈ logs, LogVerified P authority log)
    (hcf : CollisionFree P logs.flatten) (hacyc : Acyclic P logs)
    (ambient : ℕ → Ambient) (iteration : Iteration) (single : Ambient) (provider : PeerId) :
    ∃ st full, syncLoop P M limits ambient provider identity records logs
      (logs.flatten.length + 1) 0 existing
        (deviceWriterSyncCursors P iteration existing) = some (.ok st) ∧
      receivePage P single provider identity existing (fullResponse (requiredOperationVersion logs)
        causalHeadsDeviceWriterOperationVersion records logs) = .ok full ∧
      (∀ whole ∈ logs, st.deviceLogs[firstDeviceId whole]? = some whole) ∧
      (∀ (d : String) (log), st.deviceLogs[d]? = some log → log ∈ logs) ∧
      st.authorityRecords = full.authorityRecords ∧ st.deviceLogs = full.deviceLogs ∧
      st.merged = full.merged := by
  have hk : WellKeyed (cachedLogs existing) := wellKeyed_existing hok
  have hb : Behind logs (cachedLogs existing) := by
    refine ⟨hk, fun whole hw => ?_, fun d hd => ?_⟩
    · by_cases hnil : held (cachedLogs existing) (firstDeviceId whole) = []
      · rw [hnil]
        exact nil_prefix
      · obtain ⟨whole', hw', hid, hp⟩ := hpre _ _
          ((getElem?_eq_some_iff_held hk).mpr ⟨rfl, hnil⟩)
        rwa [h.eq_of_firstDeviceId hw' hw hid] at hp
    · by_contra hnil
      obtain ⟨whole, hw, hid, -⟩ := hpre _ _ ((getElem?_eq_some_iff_held hk).mpr ⟨rfl, hnil⟩)
      exact hd (hid ▸ mem_map_of_mem hw)
  have hfuel : lacking logs (cachedLogs existing) < logs.flatten.length + 1 :=
    Nat.lt_succ_of_le (lacking_le _ _)
  obtain ⟨st, hloop, hr, hcache, hbst, hcaught⟩ := syncLoop_eq h hroom hrecords hforce hvalid hacyc
    ambient provider (n := 0) hfuel hok rfl hb (cursorsOf_sync h hb iteration)
  obtain ⟨full, hfull, hr', -, hcache', hbfull, hcaught'⟩ :=
    receiveFull_eq_ok hok hrecords hforce hvalid
    hacyc single provider h hb (.refl logs)
  have hlogs : st.deviceLogs = full.deviceLogs := by
    refine eq_of_held hbst.wellKeyed hbfull.wellKeyed fun d => ?_
    by_cases hd : d ∈ logs.map firstDeviceId
    · obtain ⟨whole, hw, rfl⟩ := mem_map.mp hd
      rw [hcaught whole hw, hcaught' whole hw]
    · rw [hbst.other d hd, hbfull.other d hd]
  have hentries : ((default : Iteration).values st.deviceLogs).flatten ⊆ logs.flatten := by
    intro e he
    obtain ⟨log, hlog, he⟩ := mem_flatten.mp he
    obtain ⟨whole, hw, hp⟩ := exists_whole_of_mem_values hbst hlog
    exact mem_flatten.mpr ⟨whole, hw, hp.subset he⟩
  have hmerged := merged_eq_of_cacheOk hcache hcache' (hr.trans hr'.symm) hlogs (hcf.mono hentries)
  refine ⟨st, full, hloop, ?_, fun whole hw => ?_, fun d log hd => ?_, hr.trans hr'.symm,
    hlogs, hmerged.2⟩
  · rwa [fullResponse, if_neg (UInt16.not_lt.mpr (requiredOperationVersion_le_causalHeads logs))]
  · exact (getElem?_eq_some_iff_held hbst.wellKeyed).mpr ⟨hcaught whole hw, h.ne_nil whole hw⟩
  · obtain ⟨hheld, hne⟩ := (getElem?_eq_some_iff_held hbst.wellKeyed).mp hd
    obtain ⟨whole, hw, hid, -⟩ := hbst.exists_whole (hheld ▸ hne)
    rw [← hheld, ← hid, hcaught whole hw]
    exact hw

end

/-- A requester that has nothing gets the two notes on a page each. -/
theorem syncLoop_refines_fullResponse_notes :
    ∃ st full, syncLoop primitives checkedBuild ⟨1, 1000⟩ (fun _ => default) "provider" owner
        [authorizeLaptop, authorizePhone] noteLogs 3 0 none [] = some (.ok st) ∧
      receivePage primitives default "provider" owner none
        (fullResponse (requiredOperationVersion noteLogs) causalHeadsDeviceWriterOperationVersion
          [authorizeLaptop, authorizePhone] noteLogs) = .ok full ∧
      st.merged = full.merged := by
  obtain ⟨authority, hchain⟩ := exists_eq_ok_of_isOk (x := verifyIdentityAuthorityChain
    primitives owner [authorizeLaptop, authorizePhone]) (by decide +kernel)
  have hmerge : (mergeDeviceWriterLogs primitives authority noteLogs).isOk = true := by
    have hsame : Sample.twoDevices = authority := Sample.authorityOf_eq hchain
    rw [← hsame]
    decide +kernel
  obtain ⟨_, hmerge⟩ := exists_eq_ok_of_isOk hmerge
  have hacyc : Acyclic primitives noteLogs :=
    acyclic_of_rank (fun h => if h = phoneNote.entryHash primitives then 1 else 0)
      (show ∀ log ∈ [[laptopNote], [phoneNote]], _ by decide +kernel)
  have hcf : CollisionFree primitives noteLogs.flatten := by
    change CollisionFree primitives [laptopNote, phoneNote]
    decide +kernel
  obtain ⟨st, full, hloop, hfull, -, -, -, -, hmerged⟩ := syncLoop_refines_fullResponse
    serves_noteLogs (show Roomy checkedBuild ⟨1, 1000⟩ from fun _ => by decide) hchain
    (show ∀ st ∈ none, CacheOk primitives owner st by simp)
    (by simp [cachedLogs]) hchain (merge_eq_ok_iff.mp hmerge).1 hcf hacyc (fun _ => default) default
    default "provider"
  exact ⟨st, full, hloop, hfull, hmerged⟩

end Jolt.Network.DeltaSync

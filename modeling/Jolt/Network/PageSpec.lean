import Jolt.Network.SyncPages
import Jolt.Merge.Shape
import Jolt.Merge.Spec
import Jolt.Core.Sample
import Jolt.Lib.Cutting

/-! # What a sync response holds

For a provider with one valid log for each device, every request is answered (`answer_cases`): with
nothing but a version number if the requester cannot read some entry, with every log, or with a
delta. A delta is a `Cut` of what the requester lacks of each log (`IsDelta`). -/

namespace Jolt.Network.PageSpec

open Std Lib Checks Sorting Cutting Jolt.Core Jolt.Core.Types IdentityAuthority DeviceWriterLog
  Merge.Spec Merge.Shape DeviceWriterCache Node SyncPages List Nat
open Sample (laptopNote owner phoneNote primitives)

variable {P : Primitives} {M : Platform} {identity : IdentityId} {logs : Logs} {limits : Limits}
  {cursors : List DeviceWriterCursor} {log : List DeviceWriterLogEntry} {request : SyncRequest}

/-! ### Providers and cursors -/

/-- **A provider** holds one valid log for each device; the length of a `Vec` is a `usize`. -/
structure Serves (P : Primitives) (M : Platform) (identity : IdentityId) (logs : Logs) : Prop where
  ne_nil : ∀ log ∈ logs, log ≠ []
  deviceLog : ∀ log ∈ logs, DeviceLog P identity (firstDeviceId log) log
  distinct : (logs.map firstDeviceId).Nodup
  length_lt : ∀ log ∈ logs, log.length < 2 ^ M.usizeBits

/-- The cursor names an entry of the log of its device. -/
def PointsInto (P : Primitives) (logs : Logs) (cursor : DeviceWriterCursor) : Prop :=
  ∃ log ∈ logs, firstDeviceId log = cursor.deviceId ∧ ∃ e, log[cursor.deviceSequence.toNat]? =
    some e ∧
      e.body.deviceSequence = cursor.deviceSequence ∧ e.entryHash P = cursor.entryHash

/-- The cursors name entries of distinct devices. -/
structure CursorsMatch (P : Primitives) (cursors : List DeviceWriterCursor) (logs : Logs) :
    Prop where
  nodup : (cursors.map (·.deviceId)).Nodup
  pointsInto : ∀ cursor ∈ cursors, PointsInto P logs cursor

/-- How many entries of the log the requester has, by its cursors. -/
def heldUpTo (cursors : List DeviceWriterCursor) (log : List DeviceWriterLogEntry) : ℕ :=
  match cursors.find? (·.deviceId = firstDeviceId log) with
  | none => 0
  | some cursor => cursor.deviceSequence.toNat + 1

/-- The logs in the order they are served in. -/
def served (logs : Logs) : Logs := sortBy (compareOn firstDeviceId) logs

theorem mem_served : log ∈ served logs ↔ log ∈ logs := by
  unfold served
  rw [mem_sortBy]

theorem head?_eq_some_iff_firstDeviceId (hne : log ≠ []) (deviceId : String) :
    log.head?.map (·.body.deviceId) = some deviceId ↔ firstDeviceId log = deviceId := by
  obtain ⟨first, rest, rfl⟩ := exists_cons_of_ne_nil hne
  simp [firstDeviceId]

theorem Serves.eq_of_firstDeviceId (h : Serves P M identity logs) {a b : List DeviceWriterLogEntry}
    (ha : a ∈ logs) (hb : b ∈ logs) (hid : firstDeviceId a = firstDeviceId b) : a = b :=
  inj_on_of_nodup_map h.distinct ha hb hid

/-- **What the cursor check accepts.** The index is cast to `usize`, but the entry there has to have
the sequence of the cursor, and the entry at an index has the index as its sequence. -/
theorem cursorKnown_iff (h : Serves P M identity logs) (cursor : DeviceWriterCursor) :
    cursorKnown P M logs cursor = true ↔ PointsInto P logs cursor := by
  unfold cursorKnown
  constructor
  · intro hk
    split at hk
    · cases hk
    · rename_i log hfind
      have hmem : log ∈ logs := mem_reverse.mp (mem_of_find?_eq_some hfind)
      have hid := find?_some hfind
      rw [decide_eq_true_eq, head?_eq_some_iff_firstDeviceId (h.ne_nil log hmem)] at hid
      split at hk
      · cases hk
      · rename_i e hget
        rw [Bool.and_eq_true, decide_eq_true_eq, decide_eq_true_eq] at hk
        obtain ⟨hi, hge⟩ := List.getElem?_eq_some_iff.mp hget
        have hindex := (h.deviceLog log hmem).toNat_deviceSequence _ hi
        rw [hge, hk.1] at hindex
        exact ⟨log, hmem, hid, e, hindex ▸ hget, hk.1, hk.2⟩
  · rintro ⟨log, hmem, hid, e, hget, hseq, hhash⟩
    have hfind : logs.reverse.find? (fun l => l.head?.map (·.body.deviceId) =
      some cursor.deviceId) = some log := by
      cases hf : logs.reverse.find? fun l => l.head?.map (·.body.deviceId) =
        some cursor.deviceId with
      | none =>
        have hnone := find?_eq_none.mp hf log (mem_reverse.mpr hmem)
        rw [decide_eq_true_eq, head?_eq_some_iff_firstDeviceId (h.ne_nil log hmem)] at hnone
        exact absurd hid hnone
      | some found =>
        have hfmem : found ∈ logs := mem_reverse.mp (mem_of_find?_eq_some hf)
        have hfid := find?_some hf
        rw [decide_eq_true_eq, head?_eq_some_iff_firstDeviceId (h.ne_nil found hfmem)] at hfid
        rw [h.eq_of_firstDeviceId hfmem hmem (hfid.trans hid.symm)]
    have hlt : cursor.deviceSequence.toNat < 2 ^ M.usizeBits :=
      (List.getElem?_eq_some_iff.mp hget).1.trans (h.length_lt log hmem)
    have hcast : M.asUsize cursor.deviceSequence = cursor.deviceSequence.toNat := mod_eq_of_lt hlt
    rw [hfind]
    simp only [hcast, hget, hseq, hhash, decide_true, Bool.and_self]

section

variable (hc : CursorsMatch P cursors logs) (h : Serves P M identity logs) (hmem : log ∈ logs)
include hc h hmem

theorem heldUpTo_cases :
    (cursors.find? (·.deviceId = firstDeviceId log) = none ∧ heldUpTo cursors log = 0) ∨
      ∃ cursor, cursors.find? (·.deviceId = firstDeviceId log) = some cursor ∧
        heldUpTo cursors log = cursor.deviceSequence.toNat + 1 ∧
        cursor.deviceSequence.toNat < log.length := by
  unfold heldUpTo
  cases hf : cursors.find? (·.deviceId = firstDeviceId log) with
  | none => exact .inl ⟨rfl, rfl⟩
  | some cursor =>
    have hid := find?_some hf
    rw [decide_eq_true_eq] at hid
    obtain ⟨log', hmem', hid', e, hget, -, -⟩ := hc.pointsInto cursor (mem_of_find?_eq_some hf)
    rw [h.eq_of_firstDeviceId hmem' hmem (hid'.trans hid)] at hget
    exact .inr ⟨cursor, rfl, rfl, (List.getElem?_eq_some_iff.mp hget).1⟩

theorem heldUpTo_le : heldUpTo cursors log ≤ log.length := by
  rcases heldUpTo_cases hc h hmem with ⟨-, h0⟩ | ⟨cursor, -, hs, hlt⟩
  · omega
  · omega

theorem startOf_eq : startOf M cursors log = .ok (heldUpTo cursors log) := by
  have hlast := getLast?_eq_getLast_of_ne_nil (h.ne_nil log hmem)
  have hid := ((h.deviceLog log hmem).valid _ (getLast_mem (h.ne_nil log hmem))).deviceId
  unfold startOf
  simp only [hlast, hid]
  rcases heldUpTo_cases hc h hmem with ⟨hf, h0⟩ | ⟨cursor, hf, hs, hlt⟩
  · rw [hf, h0]
  · have hlen := h.length_lt log hmem
    have hcast : M.asUsize cursor.deviceSequence = cursor.deviceSequence.toNat :=
      mod_eq_of_lt (hlt.trans hlen)
    rw [hf, hs]
    simp only [hcast, Platform.add]
    rw [if_pos (by omega)]

end

/-! ### Filling a page -/

/-- The byte limit leaves room to add up to it: where an overflow panics, it is not `usize::MAX`. -/
def Roomy (M : Platform) (limits : Limits) : Prop := M.overflowChecks = true → limits.maxBytes + 1 <
    2 ^ M.usizeBits

theorem cborArrayHeaderLen_mono {a b : ℕ} (h : a ≤ b) :
    cborArrayHeaderLen a ≤ cborArrayHeaderLen b := by
  unfold cborArrayHeaderLen
  split_ifs <;> omega

theorem cborArrayHeaderLen_le (n : ℕ) : cborArrayHeaderLen n ≤ 9 := by
  unfold cborArrayHeaderLen
  split_ifs <;> omega

theorem two_pow_32_le (M : Platform) : 2 ^ 32 ≤ 2 ^ M.usizeBits := Nat.pow_le_pow_right
    (by omega) M.le_usizeBits

theorem exists_collectionOverhead (M : Platform) (outer inner : ℕ) :
    ∃ n, collectionOverhead M outer inner = .ok n := by
  have houter : cborArrayHeaderLen outer ≤ cborArrayHeaderLen (outer + 1) :=
    cborArrayHeaderLen_mono (by omega)
  have hinner : cborArrayHeaderLen inner ≤ cborArrayHeaderLen (inner + 1) :=
    cborArrayHeaderLen_mono (by omega)
  have hsub : M.sub (cborArrayHeaderLen (outer + 1)) (cborArrayHeaderLen outer) =
      .ok (cborArrayHeaderLen (outer + 1) - cborArrayHeaderLen outer) := if_pos houter
  unfold collectionOverhead
  by_cases h0 : inner = 0
  · have h1 := cborArrayHeaderLen_le (outer + 1)
    have h2 := cborArrayHeaderLen_le (inner + 1)
    have h3 := two_pow_32_le M
    rw [if_pos h0, hsub]
    exact ⟨_, if_pos (by omega)⟩
  · rw [if_neg h0]
    exact ⟨_, if_pos hinner⟩

theorem exists_add (hroom : Roomy M limits) {a b : ℕ}
    (hfits : ¬ limits.maxBytes < M.saturatingAdd a b) : ∃ n, M.add a b = .ok n := by
  unfold Platform.add
  split_ifs with hlt hchecks
  · exact ⟨_, rfl⟩
  · have hmax := hroom hchecks
    unfold Platform.saturatingAdd at hfits
    omega
  · exact ⟨_, rfl⟩

/-- **The loop over the entries of a log** takes the beginning of what it is given, all of it unless
the page is full. -/
theorem takeEntries_eq (hroom : Roomy M limits) (outer : ℕ) :
    ∀ (rest delta : List DeviceWriterLogEntry) (entries bytes : ℕ), ∃ taken left bytes',
      rest = taken ++ left ∧ takeEntries M limits outer rest delta entries bytes =
        .ok ⟨delta ++ taken, entries + taken.length, bytes', decide (left ≠ [])⟩
  | [], delta, entries, bytes => ⟨[], [], bytes, rfl, by simp [takeEntries]⟩
  | entry :: rest, delta, entries, bytes => by
    obtain ⟨overhead, hoverhead⟩ := exists_collectionOverhead M outer delta.length
    simp only [takeEntries, hoverhead, Bind.bind, Except.bind]
    split_ifs with hfull
    · exact ⟨[], entry :: rest, bytes, rfl, by simp [pure, Except.pure]⟩
    · rw [not_or] at hfull
      obtain ⟨sum, hsum⟩ := exists_add hroom hfull.2
      obtain ⟨taken, left, bytes', hrest, heq⟩ :=
        takeEntries_eq hroom outer rest (delta ++ [entry]) (entries + 1) sum
      refine ⟨entry :: taken, left, bytes', by rw [hrest]; rfl, ?_⟩
      simp only [hsum, heq, append_assoc, cons_append, nil_append, length_cons]
      congr 2
      omega

/-- **The loop over the logs** cuts what is left of them. -/
theorem takeLogs_eq (hroom : Roomy M limits) : ∀ (items : List (List DeviceWriterLogEntry × ℕ))
    (page : Page),
      (∀ item ∈ items, item.2 ≤ item.1.length) → page.truncated = false →
      ∃ runs cut bytes, Cut (items.map fun item => item.1.drop item.2) runs cut ∧
        takeLogs M limits items page = .ok ⟨page.deltaLogs ++ runs.filter (· ≠ []),
          page.transferredEntries + runs.flatten.length, bytes, cut⟩
  | [], page, _, hpage => by
    refine ⟨[], false, page.transferredBytes, Cut.nil, ?_⟩
    cases page
    simp_all [takeLogs]
  | (log, start) :: items, page, hstart, hpage => by
    have hslice : sliceFrom log start = .ok (log.drop start) := if_pos (hstart _ mem_cons_self)
    obtain ⟨taken, left, bytes, hrest, htake⟩ := takeEntries_eq hroom page.deltaLogs.length
      (log.drop start) [] page.transferredEntries page.transferredBytes
    rw [nil_append] at htake
    have hkept : (if taken = [] then page.deltaLogs else page.deltaLogs ++ [taken]) =
        page.deltaLogs ++ [taken].filter (· ≠ []) := by by_cases h0 : taken = [] <;> simp [h0]
    simp only [takeLogs, hslice, htake, Bind.bind, Except.bind, hkept, map_cons]
    by_cases hleft : left = []
    · -- the log is taken as a whole, and the loop goes on
      obtain ⟨runs, cut, bytes', hcut, hrec⟩ := takeLogs_eq hroom items
        ⟨page.deltaLogs ++ [taken].filter (· ≠ []), page.transferredEntries + taken.length, bytes,
          decide (left ≠ [])⟩ (fun item hi => hstart item (mem_cons_of_mem _ hi)) (by simp [hleft])
      refine ⟨taken :: runs, cut, bytes', ?_, ?_⟩
      · rw [hrest, hleft, append_nil]
        exact Cut.whole hcut
      · rw [if_neg (by simp [hleft]), hrec, append_assoc, ← filter_append,
          singleton_append, flatten_cons, length_append, add_assoc]
    · refine ⟨taken :: items.map fun _ => [], true, bytes, ?_, ?_⟩
      · have hcut : Cut ((taken ++ left) :: items.map fun item => item.1.drop item.2) _ true :=
          Cut.here hleft
        rwa [map_map, ← hrest] at hcut
      · have hfilter : (taken :: items.map fun _ => []).filter (· ≠ []) =
          [taken].filter (· ≠ []) := by
          rw [filter_cons, filter_singleton]
          simp
        have hflat : (taken :: items.map fun _ => []).flatten = taken := by simp
        rw [if_pos (by simpa using hleft), hfilter, hflat, decide_eq_true hleft]
        rfl

/-! ### The response -/

/-- **A delta**: what the requester lacks of each log, cut to the page. A cut page has entries. -/
structure IsDelta (P : Primitives) (request : SyncRequest)
    (records : List DeviceAuthorizationRecord) (logs : Logs) (runs : Logs) (cut : Bool)
    (response : DeviceWriterSyncResponse) : Prop where
  cursorsMatch : CursorsMatch P request.cursors logs
  page : Cut ((served logs).map fun log => log.drop (heldUpTo request.cursors log)) runs cut
  progress : cut = true → runs.flatten ≠ []
  response_eq : response =
    { requiredOperationVersion := requiredOperationVersion logs
      syncVersion := deltaDeviceWriterSyncVersion
      heads := (served logs).filterMap (headCursor P)
      continuation :=
        if cut then some ⟨continuationCursors P request.cursors (runs.filter (· ≠ []))⟩ else none
      authorityRecords := records
      deviceLogs := runs.filter (· ≠ []) }

def complete (records : List DeviceAuthorizationRecord) (logs all : Logs) :
    DeviceWriterSyncResponse where
  requiredOperationVersion := requiredOperationVersion logs
  syncVersion := legacyDeviceWriterSyncVersion
  heads := []
  continuation := none
  authorityRecords := records
  deviceLogs := all

theorem mapM_startOf (hc : CursorsMatch P cursors logs) (h : Serves P M identity logs) :
    ∀ {l : Logs}, (∀ log ∈ l, log ∈ logs) → l.mapM (startOf M cursors) = .ok
      (l.map (heldUpTo cursors))
  | [], _ => rfl
  | log :: l, hl => by
    rw [mapM_cons, startOf_eq hc h (hl log mem_cons_self),
      mapM_startOf hc h fun log' hl' => hl log' (mem_cons_of_mem log hl')]
    rfl

/-- **Every request is answered.** -/
theorem answer_cases (h : Serves P M identity logs) (hroom : Roomy M limits) (request : SyncRequest)
    (records : List DeviceAuthorizationRecord) :
    ∃ response, forSyncRequestWithLimits P M request records logs limits = .ok response ∧
      (request.maxOperationVersion < requiredOperationVersion logs ∧
          response = unsupportedOperationVersion (requiredOperationVersion logs) ∨
        ¬ request.maxOperationVersion < requiredOperationVersion logs ∧
          ((∃ all, all.Perm logs ∧ response = complete records logs all) ∨
            ∃ runs cut, IsDelta P request records logs runs cut response)) := by
  unfold forSyncRequestWithLimits
  by_cases hversion : request.maxOperationVersion < requiredOperationVersion logs
  · refine ⟨_, if_pos (.inr hversion), .inl ⟨hversion, ?_⟩⟩
    simp only [fullResponse, if_pos hversion]
  have hfull : ∀ all, fullResponse (requiredOperationVersion logs)
    request.maxOperationVersion records
      all = complete records logs all := fun all => if_neg hversion
  simp only [hfull, hversion, or_false, false_and, false_or, not_false_eq_true, true_and]
  by_cases hsync : request.maxSyncVersion < deltaDeviceWriterSyncVersion
  · exact ⟨_, if_pos hsync, .inl ⟨logs, .refl _, rfl⟩⟩
  rw [if_neg hsync]
  by_cases hnodup : (request.cursors.map (·.deviceId)).Nodup
  swap
  · exact ⟨_, if_pos hnodup, .inl ⟨logs, .refl _, rfl⟩⟩
  rw [if_neg (not_not.mpr hnodup)]
  by_cases hknown : request.cursors.all (cursorKnown P M logs) = true
  swap
  · exact ⟨_, if_pos hknown, .inl ⟨logs, .refl _, rfl⟩⟩
  rw [if_neg (not_not.mpr hknown)]
  have hc : CursorsMatch P request.cursors logs := by
    refine ⟨hnodup, fun cursor hcursor => ?_⟩
    exact (cursorKnown_iff h cursor).mp (all_eq_true.mp hknown cursor hcursor)
  have hmap := mapM_startOf (l := served logs) hc h fun log hl => mem_served.mp hl
  have hzip : (served logs).zip ((served logs).map (heldUpTo request.cursors)) =
      (served logs).map fun log => (log, heldUpTo request.cursors log) := by
        rw [map_prod_left_eq_zip]
  obtain ⟨runs, cut, bytes, hcut, hpage⟩ := takeLogs_eq (M := M) hroom
    ((served logs).map fun log => (log, heldUpTo request.cursors log))
    ⟨[], 0, M.responseLen (envelope (requiredOperationVersion logs) request.cursors
      ((served logs).filterMap (headCursor P)) records), false⟩ (by
      intro item hitem
      obtain ⟨log, hl, rfl⟩ := mem_map.mp hitem
      exact heldUpTo_le hc h (mem_served.mp hl)) rfl
  rw [map_map] at hcut
  rw [show sortBy (compareOn firstDeviceId) logs = served logs from rfl, hmap]
  simp only [Bind.bind, Except.bind, hzip, hpage, nil_append, zero_add]
  split_ifs with hempty hc'
  · exact ⟨_, rfl, .inl ⟨served logs, perm_sortBy _ _, rfl⟩⟩
  all_goals
    refine ⟨_, rfl, .inr ⟨runs, cut, hc, hcut, fun htrue hnil => hempty ⟨htrue, ?_⟩, ?_⟩⟩
    · rw [hnil, length_nil]
    · simp [hc']

/-! ### Every answer is safe -/

instance lawfulOrderSup : LawfulOrderSup UInt16 where
  max_le_iff a b c := by
    simp only [show max a b = if a ≤ b then b else a from rfl, UInt16.le_iff_toNat_le]
    split_ifs <;> omega

/-- Some entry needs a version the requester does not know. -/
def TooNew (request : SyncRequest) (logs : Logs) : Prop :=
  ∃ log ∈ logs, ∃ e ∈ log, request.maxOperationVersion < operationVersion e

theorem requiredOperationVersion_le_iff {n : UInt16} (hne : logs.flatten ≠ []) :
    requiredOperationVersion logs ≤ n ↔ ∀ e ∈ logs.flatten, operationVersion e ≤ n := by
  unfold requiredOperationVersion
  cases hmax : (logs.flatten.map operationVersion).max? with
  | none =>
    rw [max?_eq_none_iff, map_eq_nil_iff] at hmax
    exact absurd hmax hne
  | some m =>
    rw [Option.getD_some, max?_le_iff hmax]
    exact forall_mem_map

theorem lt_requiredOperationVersion_iff (hne : logs.flatten ≠ []) :
    request.maxOperationVersion < requiredOperationVersion logs ↔ TooNew request logs := by
  rw [← UInt16.not_le, requiredOperationVersion_le_iff hne]
  simp only [not_forall, UInt16.not_le, mem_flatten, TooNew]
  constructor
  · rintro ⟨e, ⟨log, hl, he⟩, hlt⟩
    exact ⟨log, hl, e, he, hlt⟩
  · rintro ⟨log, hl, e, he, hlt⟩
    exact ⟨e, ⟨log, hl, he⟩, hlt⟩

theorem flatten_ne_nil_of_tooNew (h : TooNew request logs) : logs.flatten ≠ [] := by
  obtain ⟨log, hl, e, he, -⟩ := h
  exact ne_nil_of_mem (mem_flatten.mpr ⟨log, hl, he⟩)

theorem Serves.flatten_eq_nil (h : Serves P M identity logs) (hnil : logs.flatten = []) :
    logs = [] := by
  cases logs with
  | nil => rfl
  | cons log rest =>
    rw [flatten_cons, append_eq_nil_iff] at hnil
    exact absurd hnil.1 (h.ne_nil log mem_cons_self)

theorem IsDelta.exists_of_mem {records : List DeviceAuthorizationRecord} {runs : Logs} {cut : Bool}
    {response : DeviceWriterSyncResponse} (h : IsDelta P request records logs runs cut response)
    {run : List DeviceWriterLogEntry} (hrun : run ∈ response.deviceLogs) :
    run ≠ [] ∧ ∃ log ∈ logs, run <+: log.drop (heldUpTo request.cursors log) := by
  rw [h.response_eq, mem_filter, decide_eq_true_eq] at hrun
  refine ⟨hrun.2, ?_⟩
  obtain ⟨i, hi, rfl⟩ := mem_iff_getElem.mp hrun.1
  have hpre := h.page.forall₂_isPrefix
  have hlen := hpre.length_eq
  have hget := forall₂_iff_get.mp hpre |>.2 i hi (hlen ▸ hi)
  rw [length_map] at hlen
  simp only [get_eq_getElem, getElem_map] at hget
  exact ⟨_, mem_served.mp (getElem_mem (hlen ▸ hi)), hget⟩

/-- **Answering a sync request.** Whatever the request holds, a provider with one valid log for each
device answers without a panic. It sends nothing if the requester cannot read some entry. It sends a
delta only if the cursors name entries of distinct devices; then each log that is sent continues the
provider's log right after the cursor of its device, and the heads are the last entries of all logs.
Else it sends every log. -/
theorem forSyncRequest_answers (h : Serves P M identity logs) (request : SyncRequest)
    (records : List DeviceAuthorizationRecord) :
    ∃ response, forSyncRequest P M request records logs = .ok response ∧
      (TooNew request logs → response.authorityRecords = [] ∧ response.deviceLogs = []) ∧
      (response.syncVersion = deltaDeviceWriterSyncVersion →
        CursorsMatch P request.cursors logs ∧
        (∀ run ∈ response.deviceLogs, run ≠ [] ∧
          ∃ log ∈ logs, run <+: log.drop (heldUpTo request.cursors log)) ∧
        response.heads.Perm (logs.filterMap (headCursor P)) ∧
        response.authorityRecords = records) ∧
      (response.syncVersion ≠ deltaDeviceWriterSyncVersion → ¬ TooNew request logs →
        response.deviceLogs.Perm logs) := by
  have hroom : Roomy M ⟨deviceWriterDeltaMaxEntries, deviceWriterDeltaMaxResponseBytes⟩ := by
    intro _
    have h32 := two_pow_32_le M
    show 1024 * 1024 + 1 < 2 ^ M.usizeBits
    omega
  have hlegacy : legacyDeviceWriterSyncVersion ≠ deltaDeviceWriterSyncVersion := by decide
  obtain ⟨response, hresponse, hcases⟩ := answer_cases h hroom request records
  refine ⟨response, hresponse, ?_⟩
  rcases hcases with ⟨hlt, rfl⟩ | ⟨hle, ⟨all, hall, rfl⟩ | ⟨runs, cut, hdelta⟩⟩
  · refine ⟨fun _ => ⟨rfl, rfl⟩, fun hd => absurd hd hlegacy, fun _ hnew => ?_⟩
    -- without entries the required version is the default one, which the requester may not know
    have hnil : logs.flatten = [] := by
      by_contra hne
      exact hnew ((lt_requiredOperationVersion_iff hne).mp hlt)
    rw [h.flatten_eq_nil hnil]
    exact .refl _
  · refine ⟨fun hnew => ?_, fun hd => absurd hd hlegacy, fun _ _ => hall⟩
    exact absurd ((lt_requiredOperationVersion_iff (flatten_ne_nil_of_tooNew hnew)).mpr hnew) hle
  · refine ⟨fun hnew => ?_, fun _ => ⟨hdelta.cursorsMatch, fun run hrun =>
      hdelta.exists_of_mem hrun,
      ?_, by rw [hdelta.response_eq]⟩, fun hd => absurd (by rw [hdelta.response_eq]) hd⟩
    · exact absurd ((lt_requiredOperationVersion_iff (flatten_ne_nil_of_tooNew hnew)).mpr hnew) hle
    · rw [hdelta.response_eq]
      exact (perm_sortBy _ _).filterMap _

/-- A 64-bit build with overflow checks, on which every entry takes 100 bytes. -/
def checkedBuild : Platform := ⟨64, by decide, true, fun _ => 100, fun _ => 200⟩

def noteLogs : Logs := [[laptopNote], [phoneNote]]

theorem serves_noteLogs : Serves primitives checkedBuild owner noteLogs where
  ne_nil := by decide
  deviceLog log hl := by
    obtain ⟨_, hlaptop⟩ := exists_eq_ok_of_isOk (x := verifyDeviceLogShape primitives
      owner [laptopNote]) (by decide +kernel)
    obtain ⟨_, hphone⟩ := exists_eq_ok_of_isOk (x := verifyDeviceLogShape primitives
      owner [phoneNote]) (by decide +kernel)
    simp only [noteLogs, mem_cons, not_mem_nil, or_false] at hl
    rcases hl with rfl | rfl
    · exact verifyDeviceLogShape_eq_ok_iff.mp hlaptop
    · exact verifyDeviceLogShape_eq_ok_iff.mp hphone
  distinct := by decide
  length_lt := by decide

/-- A requester that has the laptop's note gets the phone's. -/
theorem forSyncRequest_answers_notes :
    ∃ response, forSyncRequest primitives checkedBuild ((SyncRequest.new owner).withCursors
        [cursorFromEntry primitives laptopNote]) [Sample.authorizeLaptop] noteLogs = .ok response ∧
      (∀ run ∈ response.deviceLogs, run ≠ []) := by
  obtain ⟨response, hresponse, -, hdelta, hall⟩ := forSyncRequest_answers serves_noteLogs
    ((SyncRequest.new owner).withCursors [cursorFromEntry primitives laptopNote])
      [Sample.authorizeLaptop]
  refine ⟨response, hresponse, fun run hrun => ?_⟩
  by_cases hd : response.syncVersion = deltaDeviceWriterSyncVersion
  · exact ((hdelta hd).2.1 run hrun).1
  · have hnew : ¬ TooNew ((SyncRequest.new owner).withCursors
        [cursorFromEntry primitives laptopNote]) noteLogs := by
      unfold TooNew
      decide
    exact serves_noteLogs.ne_nil run ((hall hd hnew).mem_iff.mp hrun)

end Jolt.Network.PageSpec

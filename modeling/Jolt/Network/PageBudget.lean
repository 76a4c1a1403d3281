import Jolt.Network.DeltaSync

/-! # The budget of a delta page

While a delta response is filled, its length is counted: that of a response without logs and with
the longest cursors a continuation can have, and for each entry its length and what the headers of
the arrays around it grow. Against it stands the length of the CBOR encoding, with the shortest
headers. The count is never below it (`Counted`), so a delta response with entries keeps both limits
(`delta_within_limits`). -/

namespace Jolt.Network.PageBudget

open Std Lib.Checks Lib.Sorting Jolt.Core Jolt.Core.Types IdentityAuthority DeviceWriterLog
  Merge.Spec List Nat
open Sample (owner primitives)
open DeviceWriterCache Node SyncPages PageSpec DeltaSync

/-! ### Lengths of encodings -/

/-- A number has the length of the header of an array with so many elements. -/
def uintLen (n : ℕ) : ℕ := cborArrayHeaderLen n

def textLen (text : String) : ℕ := cborArrayHeaderLen text.utf8ByteSize + text.utf8ByteSize

def arrayLen {α : Type} (len : α → ℕ) (l : List α) : ℕ :=
  cborArrayHeaderLen l.length + (l.map len).sum

/-- A map of three fields; the hash is an array of numbers. -/
def cursorLen (cursor : DeviceWriterCursor) : ℕ :=
  cborArrayHeaderLen 3 + textLen "device_id" + textLen cursor.deviceId +
    textLen "device_sequence" + uintLen cursor.deviceSequence.toNat +
    textLen "entry_hash" + arrayLen (fun byte => uintLen byte.toNat) cursor.entryHash.bytes.bytes

def continuationLen (continuation : DeviceWriterSyncContinuation) : ℕ :=
  cborArrayHeaderLen 1 + textLen "cursors" + arrayLen cursorLen continuation.cursors

/-- A map; empty heads and a missing continuation are left out of it. -/
def syncResponseLen (recordLen : DeviceAuthorizationRecord → ℕ)
    (entryLen : DeviceWriterLogEntry → ℕ) (response : DeviceWriterSyncResponse) : ℕ :=
  cborArrayHeaderLen
    (4 + (if response.heads = [] then 0 else 1) + response.continuation.toList.length) +
    textLen "required_operation_version" + uintLen response.requiredOperationVersion.toNat +
    textLen "sync_version" + uintLen response.syncVersion.toNat +
    (if response.heads = [] then 0 else textLen "heads" + arrayLen cursorLen response.heads) +
    (response.continuation.toList.map fun continuation =>
      textLen "continuation" + continuationLen continuation).sum +
    textLen "authority_records" + arrayLen recordLen response.authorityRecords +
    textLen "device_logs" + arrayLen (arrayLen entryLen) response.deviceLogs

variable {P : Primitives} {M : Platform} {limits : Limits}
  {recordLen : DeviceAuthorizationRecord → ℕ} {cursors heads : List DeviceWriterCursor}
  {logs deltaLogs : Logs}

/-! ### Counting while a page is filled -/

/-- The logs of a page with the entries of the log that is being cut. -/
def withDelta (deltaLogs : Logs) (delta : List DeviceWriterLogEntry) : Logs :=
  if delta = [] then deltaLogs else deltaLogs ++ [delta]

/-- The byte limit is not `usize::MAX`, so that what is counted up to it does not wrap around. -/
def Below (M : Platform) (limits : Limits) : Prop := limits.maxBytes + 1 < 2 ^ M.usizeBits

/-- The count of a page: `start` is the length without logs. -/
structure Counted (M : Platform) (limits : Limits) (start : ℕ) (deltaLogs : Logs)
    (entries bytes : ℕ) : Prop where
  bytes_eq : Below M limits → bytes + cborArrayHeaderLen 0 = start + arrayLen
    (arrayLen M.entryLen) deltaLogs
  bytes_le : Below M limits → deltaLogs.flatten ≠ [] → bytes ≤ limits.maxBytes
  entries_eq : entries = deltaLogs.flatten.length
  entries_le : deltaLogs.flatten ≠ [] → entries ≤ limits.maxEntries

theorem collectionOverhead_eq {outer inner overhead : ℕ}
    (h : collectionOverhead M outer inner = .ok overhead) :
    if inner = 0 then overhead + cborArrayHeaderLen outer = cborArrayHeaderLen
      (outer + 1) + cborArrayHeaderLen 1
    else overhead + cborArrayHeaderLen inner = cborArrayHeaderLen (inner + 1) := by
  have houter := cborArrayHeaderLen_mono (le_add_right outer 1)
  have hinner := cborArrayHeaderLen_mono (le_add_right inner 1)
  have hle := cborArrayHeaderLen_le (outer + 1)
  have hone := cborArrayHeaderLen_le 1
  have hbits := two_pow_32_le M
  unfold collectionOverhead at h
  split_ifs at h ⊢ with h0
  · simp only [bind_eq_ok, Platform.sub, if_pos houter, Platform.add, Except.ok.injEq,
      exists_eq_left', h0,
      zero_add] at h
    rw [if_pos (by omega)] at h
    obtain rfl := Except.ok.inj h
    omega
  · rw [Platform.sub, if_pos hinner] at h
    obtain rfl := Except.ok.inj h
    omega

theorem arrayLen_withDelta {overhead : ℕ} {delta : List DeviceWriterLogEntry}
    {entry : DeviceWriterLogEntry}
    (h : collectionOverhead M deltaLogs.length delta.length = .ok overhead) :
    arrayLen (arrayLen M.entryLen) (withDelta deltaLogs (delta ++ [entry])) =
      arrayLen (arrayLen M.entryLen) (withDelta deltaLogs delta) +
        (overhead + M.entryLen entry) := by
  have hoverhead := collectionOverhead_eq h
  by_cases hnil : delta = []
  · subst hnil
    simp only [length_nil, if_pos] at hoverhead
    simp [withDelta, arrayLen]
    omega
  · rw [if_neg (by simpa using hnil)] at hoverhead
    simp [withDelta, arrayLen, hnil]
    omega

theorem flatten_withDelta (deltaLogs : Logs) (delta : List DeviceWriterLogEntry) :
    (withDelta deltaLogs delta).flatten = deltaLogs.flatten ++ delta := by
  unfold withDelta
  split_ifs with h <;> simp [h]

/-- **The loop over the entries of a log** keeps the count. -/
theorem takeEntries_counted {start : ℕ} :
    ∀ (rest delta : List DeviceWriterLogEntry) (entries bytes : ℕ) {taken : Taken},
    Counted M limits start (withDelta deltaLogs delta) entries bytes →
    takeEntries M limits deltaLogs.length rest delta entries bytes = .ok taken →
      Counted M limits start (withDelta deltaLogs taken.delta) taken.transferredEntries
        taken.transferredBytes ∧
        taken.delta ⊆ delta ++ rest
  | [], delta, entries, bytes, taken, h, htake => by
    obtain rfl := Except.ok.inj htake
    exact ⟨h, by simp⟩
  | entry :: rest, delta, entries, bytes, taken, h, htake => by
    simp only [takeEntries, bind_eq_ok] at htake
    obtain ⟨overhead, hoverhead, htake⟩ := htake
    split_ifs at htake with hfull
    · obtain rfl := Except.ok.inj htake
      exact ⟨h, by simp⟩
    · rw [not_or] at hfull
      simp only [bind_eq_ok] at htake
      obtain ⟨sum, hsum, htake⟩ := htake
      -- below the limit, neither the saturation nor the overflow is reached
      have hbytes : Below M limits → sum = bytes + (overhead + M.entryLen entry) ∧
        sum ≤ limits.maxBytes := by
        intro hbelow
        have hfits := hfull.2
        unfold Below at hbelow
        unfold Platform.saturatingAdd at hfits hsum
        rw [Platform.add, if_pos (by omega)] at hsum
        obtain rfl := Except.ok.inj hsum
        omega
      have hcounted : Counted M limits start (withDelta deltaLogs (delta ++ [entry]))
        (entries + 1) sum := by
        refine ⟨fun hbelow => ?_, fun hbelow _ => (hbytes hbelow).2, ?_, fun _ => by omega⟩
        · rw [arrayLen_withDelta hoverhead, ← add_assoc, ← h.bytes_eq hbelow, (hbytes hbelow).1]
          omega
        · rw [h.entries_eq, flatten_withDelta, flatten_withDelta]
          simp [add_assoc]
      obtain ⟨htaken, hsub⟩ := takeEntries_counted rest (delta ++ [entry]) (entries + 1) sum
        hcounted htake
      exact ⟨htaken, by simpa using hsub⟩

/-- **The loop over the logs** keeps the count. -/
theorem takeLogs_counted {start : ℕ} : ∀ (items : List (List DeviceWriterLogEntry × ℕ))
    (page : Page) {page' : Page},
    Counted M limits start page.deltaLogs page.transferredEntries page.transferredBytes →
    takeLogs M limits items page = .ok page' →
      Counted M limits start page'.deltaLogs page'.transferredEntries page'.transferredBytes ∧
        ∀ e ∈ page'.deltaLogs.flatten, e ∈ page.deltaLogs.flatten ∨ ∃ item ∈ items, e ∈ item.1
  | [], page, page', h, htake => by
    obtain rfl := Except.ok.inj htake
    exact ⟨h, fun e he => .inl he⟩
  | (log, first) :: items, page, page', h, htake => by
    simp only [takeLogs, bind_eq_ok] at htake
    obtain ⟨rest, hrest, taken, htaken, htake⟩ := htake
    have hsub : rest ⊆ log := by
      unfold sliceFrom at hrest
      split_ifs at hrest
      obtain rfl := Except.ok.inj hrest
      exact drop_subset first log
    obtain ⟨hcounted, hdelta⟩ :=
      takeEntries_counted rest [] _ _ (by simpa [withDelta] using h) htaken
    have hnew : ∀ e ∈ (withDelta page.deltaLogs taken.delta).flatten,
        e ∈ page.deltaLogs.flatten ∨ ∃ item ∈ (log, first) :: items, e ∈ item.1 := by
      intro e he
      rw [flatten_withDelta, mem_append] at he
      exact he.imp_right fun he => ⟨_, mem_cons_self, hsub (hdelta he)⟩
    by_cases hfull : taken.truncated = true
    · rw [if_pos hfull] at htake
      obtain rfl := Except.ok.inj htake
      exact ⟨hcounted, hnew⟩
    · rw [if_neg hfull] at htake
      obtain ⟨hpage, hfrom⟩ := takeLogs_counted items _ hcounted htake
      refine ⟨hpage, fun e he => ?_⟩
      rcases hfrom e he with he | ⟨item, hitem, he⟩
      · exact hnew e he
      · exact .inr ⟨item, mem_cons_of_mem _ hitem, he⟩

/-! ### Continuations -/

theorem length_highest : (List.replicate 32 0xff : Bytes).length = 32 := by simp

def longestCursor (deviceId : String) : DeviceWriterCursor :=
  ⟨deviceId, UInt64.ofNat (2 ^ 64 - 1), ⟨⟨List.replicate 32 0xff, length_highest⟩⟩⟩

/-- The cursors that a continuation is counted with. -/
def longestCursors (cursors heads : List DeviceWriterCursor) : List DeviceWriterCursor :=
  (sortBy compare ((cursors ++ heads).map (·.deviceId)).dedup).map longestCursor

theorem cursorLen_le (cursor : DeviceWriterCursor) : cursorLen cursor ≤ cursorLen
    (longestCursor cursor.deviceId) := by
  have hsequence : uintLen cursor.deviceSequence.toNat ≤
      uintLen (longestCursor cursor.deviceId).deviceSequence.toNat := by
    refine cborArrayHeaderLen_mono ?_
    have hlt := cursor.deviceSequence.toNat_lt
    change _ ≤ 2 ^ 64 - 1
    omega
  have hhash : arrayLen (fun byte : UInt8 => uintLen byte.toNat) cursor.entryHash.bytes.bytes ≤
      arrayLen (fun byte : UInt8 => uintLen byte.toNat)
        (longestCursor cursor.deviceId).entryHash.bytes.bytes := by
    have hsum : (cursor.entryHash.bytes.bytes.map fun byte : UInt8 => uintLen byte.toNat).sum ≤
      32 * 2 := by
      have hle := sum_le_card_nsmul (cursor.entryHash.bytes.bytes.map fun byte : UInt8 =>
        uintLen byte.toNat) 2
        fun n hn => by
          obtain ⟨byte, -, rfl⟩ := mem_map.mp hn
          exact (cborArrayHeaderLen_mono (le_of_lt_succ byte.toNat_lt)).trans (by decide)
      simpa [cursor.entryHash.bytes.length_bytes] using hle
    have hlongest : arrayLen (fun byte : UInt8 => uintLen byte.toNat)
        (longestCursor cursor.deviceId).entryHash.bytes.bytes = cborArrayHeaderLen 32 + 32 *
          2 := rfl
    rw [hlongest, arrayLen, cursor.entryHash.bytes.length_bytes]
    exact Nat.add_le_add_left hsum _
  have hid : (longestCursor cursor.deviceId).deviceId = cursor.deviceId := rfl
  unfold cursorLen
  rw [hid]
  omega

/-- Cursors of distinct devices of a list are not longer than the longest cursors of all of them. -/
theorem arrayLen_cursors_le {ids : List String} (hnodup : (cursors.map (·.deviceId)).Nodup)
    (hsub : cursors.map (·.deviceId) ⊆ ids) :
    arrayLen cursorLen cursors ≤ arrayLen cursorLen (ids.map longestCursor) := by
  have hsubperm := subperm_of_subset hnodup hsub
  have hlength : cursors.length ≤ ids.length := by simpa using hsubperm.length_le
  obtain ⟨kept, hperm, hsublist⟩ := hsubperm
  have hsum : (cursors.map cursorLen).sum ≤ ((ids.map longestCursor).map cursorLen).sum :=
    calc (cursors.map cursorLen).sum
        ≤ (cursors.map fun cursor => cursorLen (longestCursor cursor.deviceId)).sum :=
          sum_le_sum fun cursor _ => cursorLen_le cursor
      _ = (kept.map fun deviceId => cursorLen (longestCursor deviceId)).sum := by
          rw [(hperm.map _).sum_eq, map_map]
          rfl
      _ ≤ ((ids.map longestCursor).map cursorLen).sum := by
          rw [map_map]
          exact (hsublist.map _).sum_le_sum fun _ _ => zero_le _
  unfold arrayLen
  rw [length_map]
  exact Nat.add_le_add (cborArrayHeaderLen_mono hlength) hsum

theorem arrayLen_continuationCursors_le
    (hsent : ∀ e ∈ deltaLogs.flatten, e.body.deviceId ∈ heads.map (·.deviceId)) :
    arrayLen cursorLen (continuationCursors P cursors deltaLogs) ≤
      arrayLen cursorLen (longestCursors cursors heads) := by
  unfold continuationCursors
  set moved := (cursors ++ deltaLogs.flatten.map (cursorFromEntry P)).foldl
    (fun (t : ExtTreeMap String DeviceWriterCursor) cursor => t.insert cursor.deviceId cursor) ∅
  have hrow : ∀ row ∈ moved.toList, row.2 ∈ cursors ++ deltaLogs.flatten.map (cursorFromEntry P) ∧
      row.2.deviceId = row.1 := fun row hrow => mem_of_foldl_insert hrow
  have hperm := (perm_sortBy (compareOn (·.deviceId)) (moved.toList.map (·.2))).map (·.deviceId)
  refine arrayLen_cursors_le ?_ fun deviceId hid => ?_
  · rw [hperm.nodup_iff, map_map, List.Nodup, pairwise_map]
    refine ExtTreeMap.distinct_keys_toList.imp_of_mem fun {a b} ha hb hne heq => hne ?_
    rw [← (hrow a ha).2, ← (hrow b hb).2]
    exact Std.compare_eq_iff_eq.mpr heq
  · rw [mem_sortBy, mem_dedup, map_append, mem_append]
    obtain ⟨row, hmem, rfl⟩ := mem_map.mp (map_map ▸ hperm.mem_iff.mp hid)
    rcases mem_append.mp (hrow row hmem).1 with hcursor | hentry
    · exact .inl (mem_map_of_mem hcursor)
    · obtain ⟨e, he, heq⟩ := mem_map.mp hentry
      refine .inr ?_
      change row.2.deviceId ∈ _
      rw [← heq]
      exact hsent e he

/-! ### The response -/

theorem syncVersion_fullResponse (required version : UInt16)
    (records : List DeviceAuthorizationRecord) (logs : Logs) :
    (fullResponse required version records logs).syncVersion = legacyDeviceWriterSyncVersion := by
  unfold fullResponse
  split_ifs <;> rfl

/-- The count covers the encoding of a response whose continuation is not longer than the one it
starts with. -/
theorem syncResponseLen_le (recordLen : DeviceAuthorizationRecord → ℕ)
    (entryLen : DeviceWriterLogEntry → ℕ) (required : UInt16)
    (records : List DeviceAuthorizationRecord) (deltaLogs : Logs)
    {continuation : Option DeviceWriterSyncContinuation}
    (h : ∀ c ∈ continuation, arrayLen cursorLen c.cursors ≤
      arrayLen cursorLen (longestCursors cursors heads)) :
    syncResponseLen recordLen entryLen
        ⟨required, deltaDeviceWriterSyncVersion, heads, continuation, records, deltaLogs⟩ +
          cborArrayHeaderLen 0 ≤
      syncResponseLen recordLen entryLen (envelope required cursors heads records) +
        arrayLen (arrayLen entryLen) deltaLogs := by
  have hfields : continuation.toList.length ≤ 1 := by cases continuation <;> simp
  have hheader :=
    cborArrayHeaderLen_mono (Nat.add_le_add_left hfields (4 + if heads = [] then 0 else 1))
  have hcontinuation : (continuation.toList.map fun c => textLen "continuation" +
    continuationLen c).sum ≤
      textLen "continuation" + continuationLen ⟨longestCursors cursors heads⟩ := by
    cases continuation with
    | none => simp
    | some c =>
      have hc := h c rfl
      simp only [Option.toList_some, List.map_cons, List.map_nil, List.sum_cons, List.sum_nil,
        continuationLen]
      omega
  have henvelope : syncResponseLen recordLen entryLen (envelope required cursors heads records) =
      syncResponseLen recordLen entryLen
        ⟨required, deltaDeviceWriterSyncVersion, heads, some ⟨longestCursors cursors heads⟩,
          records, []⟩ := rfl
  rw [henvelope]
  simp only [syncResponseLen, Option.toList_some, List.length_singleton, List.map_cons,
    List.map_nil, List.sum_cons,
    List.sum_nil, arrayLen, List.length_nil] at hheader hcontinuation ⊢
  omega

/-- **A delta response with entries keeps the limits.** It has at most `maxEntries` entries, and its
encoding at most `maxBytes` bytes. -/
theorem delta_within_limits {request : SyncRequest} {records : List DeviceAuthorizationRecord}
    {response : DeviceWriterSyncResponse}
    (hlen : ∀ response, M.responseLen response = syncResponseLen recordLen M.entryLen response)
    (hlogs : ∀ log ∈ logs, ∀ e ∈ log, e.body.deviceId = firstDeviceId log)
    (hmax : limits.maxBytes < 2 ^ M.usizeBits) (hmemory : M.responseLen response < 2 ^ M.usizeBits)
    (hok : forSyncRequestWithLimits P M request records logs limits = .ok response)
    (hdelta : response.syncVersion = deltaDeviceWriterSyncVersion)
    (hentries : response.deviceLogs.flatten ≠ []) :
    response.deviceLogs.flatten.length ≤ limits.maxEntries ∧ M.responseLen response ≤
      limits.maxBytes := by
  have hlegacy : legacyDeviceWriterSyncVersion ≠ deltaDeviceWriterSyncVersion := by decide
  unfold forSyncRequestWithLimits at hok
  dsimp only at hok
  have hfull : ∀ {required version logs}, (Except.ok (fullResponse required version records logs) :
      Except (Fault NetworkError) _) ≠ .ok response := by
    rintro required version logs heq
    rw [← Except.ok.inj heq, syncVersion_fullResponse] at hdelta
    exact hlegacy hdelta
  split at hok
  · exact absurd hok hfull
  split at hok
  · exact absurd hok hfull
  split at hok
  · exact absurd hok hfull
  simp only [bind_eq_ok] at hok
  obtain ⟨starts, -, page, hpage, hok⟩ := hok
  by_cases hempty : page.truncated = true ∧ page.transferredEntries = 0
  · rw [if_pos hempty] at hok
    exact absurd hok hfull
  rw [if_neg hempty] at hok
  have hstart (start : ℕ) : Counted M limits start [] 0 start :=
    ⟨fun _ => rfl, fun _ h => absurd rfl h, rfl, fun h => absurd rfl h⟩
  obtain ⟨hcounted, hfrom⟩ := takeLogs_counted _ _ (hstart _) hpage
  obtain rfl := Except.ok.inj hok
  dsimp only at hentries ⊢
  refine ⟨hcounted.entries_eq ▸ hcounted.entries_le hentries, ?_⟩
  by_cases hbelow : Below M limits
  swap
  · unfold Below at hbelow
    omega
  set heads := (served logs).filterMap (headCursor P)
  have hsent : ∀ e ∈ page.deltaLogs.flatten, e.body.deviceId ∈ heads.map (·.deviceId) := by
    intro e he
    rcases hfrom e he with he | ⟨item, hitem, he⟩
    · cases he
    have hlog : item.1 ∈ served logs := (of_mem_zip hitem).1
    obtain ⟨last, hlast⟩ := Option.isSome_iff_exists.mp (getLast?_isSome.mpr (ne_nil_of_mem he))
    refine mem_map.mpr ⟨cursorFromEntry P last, mem_filterMap.mpr ⟨item.1, hlog, ?_⟩, ?_⟩
    · rw [headCursor, hlast]
      rfl
    · change last.body.deviceId = _
      rw [hlogs _ (mem_served.mp hlog) e he, hlogs _ (mem_served.mp hlog) last
        (mem_of_getLast? hlast)]
  have hcontinuation : ∀ c ∈ (if page.truncated then
      some (⟨continuationCursors P request.cursors page.deltaLogs⟩ : DeviceWriterSyncContinuation)
        else none),
      arrayLen cursorLen c.cursors ≤ arrayLen cursorLen (longestCursors request.cursors heads) := by
    intro c hc
    split at hc
    · obtain rfl := Option.some.inj hc
      exact arrayLen_continuationCursors_le hsent
    · cases hc
  have hle := syncResponseLen_le recordLen M.entryLen (requiredOperationVersion logs) records
    page.deltaLogs
    hcontinuation
  have heq := hcounted.bytes_eq hbelow
  rw [hlen] at heq ⊢
  exact Nat.le_trans (Nat.le_of_add_le_add_right (hle.trans_eq heq.symm))
    (hcounted.bytes_le hbelow hentries)

/-- A provider whose records and entries take a hundred bytes each. -/
def cborBuild :
    Platform := ⟨64, checkedBuild.2, true, fun _ => 100, syncResponseLen (fun _ =>
    100) fun _ => 100⟩

theorem note_within_limits : ∃ response,
    forSyncRequestWithLimits primitives cborBuild ⟨owner, 3, 2, []⟩ [] noteLogs ⟨1, 1200⟩ =
      .ok response ∧
      response.deviceLogs.flatten.length ≤ 1 ∧ cborBuild.responseLen response ≤ 1200 := by
  have hanswer : (forSyncRequestWithLimits primitives cborBuild ⟨owner, 3, 2, []⟩ [] noteLogs ⟨1,
    1200⟩).toOption.any
      (fun response => response.syncVersion = deltaDeviceWriterSyncVersion ∧
        response.deviceLogs.flatten ≠ [] ∧
        cborBuild.responseLen response < 2 ^ 64) = true := by decide +kernel
  cases hok : forSyncRequestWithLimits primitives cborBuild ⟨owner, 3, 2, []⟩ [] noteLogs
    ⟨1, 1200⟩ with
  | error e => simp [hok, Except.toOption] at hanswer
  | ok response =>
    rw [hok] at hanswer
    obtain ⟨hdelta, hentries, hmemory⟩ := of_decide_eq_true hanswer
    refine ⟨response, rfl, delta_within_limits (fun _ => rfl) ?_ (by decide) hmemory hok
      hdelta hentries⟩
    decide +kernel

end Jolt.Network.PageBudget

import Jolt.Network.DeviceWriterCache
import Jolt.Authority.Chain
import Jolt.Merge.Determinism
import Jolt.Merge.Causality
import Jolt.Lib.Newest

/-! # What a merge into the cache does

The steps of `mergeVerifiedDeviceWriterState` as facts about a call that succeeds
(`mergeVerified_eq_ok_iff`), and the states it can lead to: a cached state is always backed by a
chain that verifies and by non-empty logs under the names of their devices, whose merge under that
chain it holds (`CacheOk`, `cacheOk_of_mergeVerified`).

Which log is kept for a device is decided by `logOrder`: the longer one, then the one whose last
entry is greater (`deviceLogIsNewer_eq`). -/

namespace Jolt.Network.CacheSpec

open Std Lib.Checks Lib.Newest Jolt.Core Jolt.Core.Types IdentityAuthority DeviceWriterLog
  Authority.Chain Merge.Spec Merge.Determinism Network DeviceWriterCache List ExtTreeMap

variable {P : Primitives} {iteration : Iteration} {identity : IdentityId}
  {existing : Option CachedDeviceWriterState} {records : List DeviceAuthorizationRecord}
  {logs : Logs} {syncVersion : UInt16} {heads : List DeviceWriterCursor} {complete : Bool}
  {st : CachedDeviceWriterState} {accumulated accumulated' : DeviceLogs}
  {log : List DeviceWriterLogEntry}

@[simp] theorem asProtocol_eq_ok {ε α : Type} {text : ε → String} {x : Except ε α} {a : α} :
    asProtocol text x = .ok a ↔ x = .ok a := by
  cases x <;> simp [asProtocol]

@[simp] theorem asProtocolFault_eq_ok {ε α : Type} {text : ε → String} {x : Except (Fault ε) α}
    {a : α} : asProtocolFault text x = .ok a ↔ x = .ok a := by
  rcases x with (e | message) | a <;> simp [asProtocolFault]

/-- **A merge into the cache that succeeds.** -/
theorem mergeVerified_eq_ok_iff :
    mergeVerifiedDeviceWriterState P iteration identity existing records logs syncVersion heads
      complete = .ok st ↔
      ∃ candidate authority, verifyIdentityAuthorityChain P identity records = .ok candidate ∧
        st.authorityRecords = chooseRecords existing candidate records ∧
        verifyIdentityAuthorityChain P identity st.authorityRecords = .ok authority ∧
        st.authoritySequence = authority.latestSequence ∧
        logs.foldlM (accumulateLog P) ((existing.map (·.deviceLogs)).getD ∅) = .ok st.deviceLogs ∧
        checkHeads P iteration syncVersion heads complete st.deviceLogs = .ok () ∧
        mergeDeviceWriterLogs P authority (iteration.values st.deviceLogs) = .ok st.merged ∧
        st.lastVerifiedAt = (existing.map (·.lastVerifiedAt)).getD 0 ∧
        st.sourcePeer = existing.bind (·.sourcePeer) := by
  simp only [mergeVerifiedDeviceWriterState, bind_eq_ok, pure_eq_ok, asProtocol_eq_ok,
    asProtocolFault_eq_ok]
  constructor
  · rintro ⟨candidate, hc, authority, ha, accumulated, hl, _, hh, merged, hm, rfl⟩
    exact ⟨candidate, authority, hc, rfl, ha, rfl, hl, hh, hm, rfl, rfl⟩
  · rintro ⟨candidate, authority, hc, hr, ha, hs, hl, hh, hm, hv, hp⟩
    refine ⟨candidate, hc, authority, hr ▸ ha, st.deviceLogs, hl, (), hh, st.merged, hm, ?_⟩
    cases st
    simp_all

/-! ### Which log is kept -/

/-- Logs by length, then by the last entry. -/
def logOrder (P : Primitives) : List DeviceWriterLogEntry → List DeviceWriterLogEntry → Ordering :=
  compareLex (compareOn List.length)
    (compareLex (compareOn fun log => log.getLast?.map (·.body.createdAt))
      (compareLex (compareOn fun log => log.getLast?.map (·.body.deviceSequence))
        (compareLex (compareOn fun log => log.getLast?.map (·.body.deviceId))
          (compareOn fun log => log.getLast?.map (·.entryHash P)))))

instance : TransCmp (logOrder P) := by unfold logOrder; infer_instance

theorem deviceLogIsNewer_eq {a b : List DeviceWriterLogEntry} (ha : a ≠ []) (hb : b ≠ []) :
    deviceLogIsNewer P a b = .ok (logOrder P a b = .gt) := by
  have hla := getLast?_eq_getLast_of_ne_nil ha
  have hlb := getLast?_eq_getLast_of_ne_nil hb
  unfold deviceLogIsNewer logOrder
  rw [compareLex, compareOn]
  cases hc : compare a.length b.length with
  | lt => rfl
  | gt => rfl
  | eq =>
    simp only [headOrder, compareLex, compareOn, hla, hlb, Ordering.eq_then, Option.map_some]
    rfl

/-- The logs of the table are not empty and stand under the device that wrote them. -/
def WellKeyed (accumulated : DeviceLogs) : Prop :=
  ∀ (deviceId : String) (log : List DeviceWriterLogEntry), accumulated[deviceId]? = some log →
    ∃ first, log.head? = some first ∧ first.body.deviceId = deviceId

theorem wellKeyed_empty : WellKeyed ∅ := by
  intro deviceId log h
  simp at h

theorem WellKeyed.ne_nil (h : WellKeyed accumulated) {deviceId : String}
    (hl : accumulated[deviceId]? = some log) :
    log ≠ [] := by
  rintro rfl
  obtain ⟨first, hf, -⟩ := h deviceId [] hl
  simp at hf

theorem keepLog_eq_ok (hk : WellKeyed accumulated) (deviceId : String) (hlog : log ≠ []) :
    ∃ accumulated', keepLog P accumulated deviceId log = .ok accumulated' ∧
      ∀ d : String, accumulated'[d]? =
        if deviceId = d then keepNewer (logOrder P) accumulated[d]? log else accumulated[d]? := by
  unfold keepLog
  cases hknown : accumulated[deviceId]? with
  | none =>
    refine ⟨_, rfl, fun d => ?_⟩
    by_cases hd : deviceId = d
    · subst hd
      simp [keepNewer, hknown]
    · simp [hd, ExtTreeMap.getElem?_insert]
  | some known =>
    simp only [deviceLogIsNewer_eq hlog (hk.ne_nil hknown)]
    refine ⟨_, rfl, fun d => ?_⟩
    by_cases hd : deviceId = d
    · subst hd
      by_cases hgt : logOrder P log known = .gt <;> simp [keepNewer, hknown, hgt]
    · by_cases hgt : logOrder P log known = .gt <;> simp [hgt, hd, ExtTreeMap.getElem?_insert]

section

variable (hk : WellKeyed accumulated) (h : accumulateLog P accumulated log = .ok accumulated')
include hk h

/-- **A turn of the loop over the received logs.** The received log stands for itself if it starts
at sequence `0`, else it extends the known one; the newer of what it stands for and what is known
stays. -/
theorem accumulateLog_cases : (log = [] ∧ accumulated' = accumulated) ∨
    ∃ first full, log.head? = some first ∧ (full = log ∧ first.body.deviceSequence = 0 ∨
        ∃ known, accumulated[first.body.deviceId]? = some known ∧ full = known ++ log) ∧
      ∀ d : String, accumulated'[d]? =
        if first.body.deviceId = d then keepNewer (logOrder P) accumulated[d]? full
        else accumulated[d]? := by
  cases log with
  | nil =>
    cases h
    exact .inl ⟨rfl, rfl⟩
  | cons first rest =>
    right
    simp only [accumulateLog, bind_eq_ok] at h
    obtain ⟨full, hfull, hkeep⟩ := h
    have hcases : full = first :: rest ∧ first.body.deviceSequence = 0 ∨
        ∃ known, accumulated[first.body.deviceId]? = some known ∧
          full = known ++ first :: rest := by
      unfold extendKnown at hfull
      split_ifs at hfull with h0
      · cases hfull
        exact .inl ⟨rfl, h0⟩
      · cases hknown : accumulated[first.body.deviceId]? with
        | none => simp [hknown] at hfull
        | some known =>
          simp only [hknown] at hfull
          split at hfull
          · cases hfull
          · split_ifs at hfull
            cases hfull
            exact .inr ⟨known, rfl, rfl⟩
    have hne : full ≠ [] := by rcases hcases with ⟨rfl, -⟩ | ⟨known, -, rfl⟩ <;> simp
    obtain ⟨kept, hkept, hlookup⟩ := keepLog_eq_ok (P := P) hk first.body.deviceId hne
    rw [hkept] at hkeep
    cases hkeep
    exact ⟨first, full, rfl, hcases, hlookup⟩

theorem WellKeyed.accumulateLog : WellKeyed accumulated' := by
  rcases accumulateLog_cases hk h with ⟨-, rfl⟩ | ⟨first, full, hf, hfull, hlookup⟩
  · exact hk
  · intro d l hl
    rw [hlookup d] at hl
    split_ifs at hl with hd
    · rcases keepNewer_eq_some hl with rfl | hl
      · rcases hfull with ⟨rfl, -⟩ | ⟨known, hknown, rfl⟩
        · exact ⟨first, hf, hd⟩
        · obtain ⟨first', hf', hd'⟩ := hk _ known hknown
          exact ⟨first', by simp [head?_append, hf'], hd'.trans hd⟩
      · exact hk d l hl
    · exact hk d l hl

end

theorem WellKeyed.foldlM_accumulateLog : ∀ {logs : Logs} {accumulated accumulated' : DeviceLogs},
    WellKeyed accumulated → logs.foldlM (DeviceWriterCache.accumulateLog P) accumulated =
      .ok accumulated' → WellKeyed accumulated'
  | [], _, _, hk, h => by
    simp only [foldlM_nil, pure_eq_ok] at h
    exact h ▸ hk
  | log :: logs, _, _, hk, h => by
    rw [foldlM_cons, bind_eq_ok] at h
    obtain ⟨acc, h₁, h₂⟩ := h
    exact (hk.accumulateLog h₁).foldlM_accumulateLog h₂

/-! ### Full logs -/

/-- The log is empty or starts at sequence `0`. -/
def FullLog (log : List DeviceWriterLogEntry) : Prop :=
  ∀ first ∈ log.head?, first.body.deviceSequence = 0

def logsOf (logs : Logs) (deviceId : String) : Set (List DeviceWriterLogEntry) :=
  {log | log ∈ logs ∧ ∃ first, log.head? = some first ∧ first.body.deviceId = deviceId}

def ofDevice (deviceId : String) (logs : Logs) : Logs :=
  logs.filter fun log => log.head?.map (·.body.deviceId) = some deviceId

theorem mem_ofDevice {deviceId : String} : log ∈ ofDevice deviceId logs ↔
    log ∈ logsOf logs deviceId := by
  simp [ofDevice, logsOf]

theorem ofDevice_cons (first : DeviceWriterLogEntry) (rest : List DeviceWriterLogEntry)
    (logs : Logs) (deviceId : String) : ofDevice deviceId ((first :: rest) :: logs) =
      if first.body.deviceId = deviceId then (first :: rest) :: ofDevice deviceId logs
      else ofDevice deviceId logs := by
        by_cases h : first.body.deviceId = deviceId <;> simp [ofDevice, h]

/-- **Full logs compete device by device**, in the order they come. -/
theorem foldlM_accumulateLog_full : ∀ {logs : Logs} {accumulated : DeviceLogs},
    (∀ log ∈ logs, FullLog log) → WellKeyed accumulated →
      ∃ accumulated', logs.foldlM (accumulateLog P) accumulated = .ok accumulated' ∧
        ∀ d : String, accumulated'[d]? = (ofDevice d logs).foldl
          (keepNewer (logOrder P)) accumulated[d]?
  | [], accumulated, _, _ => ⟨accumulated, rfl, fun d => rfl⟩
  | [] :: logs, accumulated, hfull, hk => by
    obtain ⟨acc, hacc, hfold⟩ := foldlM_accumulateLog_full (fun log hl =>
      hfull log (mem_cons_of_mem _ hl)) hk
    exact ⟨acc, hacc, hfold⟩
  | (first :: rest) :: logs, accumulated, hfull, hk => by
    have h0 : first.body.deviceSequence = 0 := hfull _ mem_cons_self first rfl
    obtain ⟨acc₁, hacc₁, hlookup⟩ := keepLog_eq_ok (P := P) hk first.body.deviceId
      (cons_ne_nil first rest)
    have hstep : accumulateLog P accumulated (first :: rest) = .ok acc₁ := by
      simp only [accumulateLog, bind_eq_ok]
      exact ⟨first :: rest, by simp [extendKnown, h0], hacc₁⟩
    obtain ⟨acc, hacc, hfold⟩ := foldlM_accumulateLog_full
      (fun log hl => hfull log (mem_cons_of_mem _ hl)) (hk.accumulateLog hstep)
    refine ⟨acc, ?_, fun d => ?_⟩
    · rw [foldlM_cons, bind_eq_ok]
      exact ⟨acc₁, hstep, hacc⟩
    · rw [hfold d, hlookup d, ofDevice_cons]
      split_ifs with hd
      · rw [foldl_cons]
      · rfl

/-- **Full logs accumulate to the newest ones.** -/
theorem isNewest_of_foldl {held : Option (List DeviceWriterLogEntry)}
    {s : Set (List DeviceWriterLogEntry)} (h : IsNewest (logOrder P) s held) (d : String) :
    IsNewest (logOrder P) (s ∪ logsOf logs d)
      ((ofDevice d logs).foldl (keepNewer (logOrder P)) held) := by
  have hset : logsOf logs d = {log | log ∈ ofDevice d logs} := by
    ext log
    exact mem_ofDevice.symm
  rw [hset]
  exact h.foldl

variable {Q : DeviceWriterLogEntry → Prop}

theorem forall_mem_of_accumulateLog (hk : WellKeyed accumulated)
    (hknown : ∀ (d : String) (log), accumulated[d]? = some log → ∀ e ∈ log, Q e)
    (hlog : ∀ e ∈ log, Q e) (h : accumulateLog P accumulated log = .ok accumulated') :
    ∀ (d : String) (log), accumulated'[d]? = some log → ∀ e ∈ log, Q e := by
  rcases accumulateLog_cases hk h with ⟨-, rfl⟩ | ⟨first, full, -, hfull, hlookup⟩
  · exact hknown
  · have hQ : ∀ e ∈ full, Q e := by
      rcases hfull with ⟨rfl, -⟩ | ⟨known, hk, rfl⟩
      · exact hlog
      · intro e he
        rcases mem_append.mp he with he | he
        · exact hknown _ known hk e he
        · exact hlog e he
    intro d kept hkept
    rw [hlookup d] at hkept
    split_ifs at hkept
    · rcases keepNewer_eq_some hkept with rfl | hkept
      · exact hQ
      · exact hknown d kept hkept
    · exact hknown d kept hkept

theorem forall_mem_of_foldlM_accumulateLog :
    ∀ {logs : Logs} {accumulated accumulated' : DeviceLogs}, WellKeyed accumulated →
      (∀ (d : String) (log), accumulated[d]? = some log → ∀ e ∈ log, Q e) →
      (∀ log ∈ logs, ∀ e ∈ log, Q e) →
      logs.foldlM (accumulateLog P) accumulated = .ok accumulated' →
      ∀ (d : String) (log), accumulated'[d]? = some log → ∀ e ∈ log, Q e
  | [], _, _, _, hknown, _, h => by
    simp only [foldlM_nil, pure_eq_ok] at h
    exact h ▸ hknown
  | log :: logs, _, _, hk, hknown, hlogs, h => by
    rw [foldlM_cons, bind_eq_ok] at h
    obtain ⟨acc, h₁, h₂⟩ := h
    have hacc := forall_mem_of_accumulateLog hk hknown (hlogs log mem_cons_self) h₁
    exact forall_mem_of_foldlM_accumulateLog (hk.accumulateLog h₁) hacc
      (fun l hl => hlogs l (mem_cons_of_mem log hl)) h₂

/-! ### The rows of the table -/

theorem mem_rows {row : String × List DeviceWriterLogEntry} :
    row ∈ iteration.rows accumulated ↔ accumulated[row.1]? = some row.2 := by
  unfold Iteration.rows
  rw [(iteration.perm _).mem_iff, ← mem_toList_iff_getElem?_eq_some]

theorem mem_values : log ∈ iteration.values accumulated ↔
    ∃ d : String, accumulated[d]? = some log := by
  simp only [Iteration.values, mem_map, mem_rows]
  constructor
  · rintro ⟨row, hrow, rfl⟩
    exact ⟨row.1, hrow⟩
  · rintro ⟨d, hd⟩
    exact ⟨(d, log), hd, rfl⟩

theorem values_perm (iteration iteration' : Iteration) (accumulated : DeviceLogs) :
    (iteration.values accumulated).Perm (iteration'.values accumulated) :=
  (((iteration.perm _).trans (iteration'.perm _).symm).map _)

/-! ### What is cached -/

/-- **A cached state is backed** by a chain that verifies, and holds the merge of its logs under
it. -/
structure CacheOk (P : Primitives) (identity : IdentityId) (st : CachedDeviceWriterState) :
    Prop where
  wellKeyed : WellKeyed st.deviceLogs
  backed : ∃ authority iteration, verifyIdentityAuthorityChain P identity st.authorityRecords =
    .ok authority ∧
    st.authoritySequence = authority.latestSequence ∧
    mergeDeviceWriterLogs P authority (Iteration.values iteration st.deviceLogs) = .ok st.merged

def cachedLogs (existing : Option CachedDeviceWriterState) :
    DeviceLogs := (existing.map (·.deviceLogs)).getD ∅

theorem wellKeyed_existing (h : ∀ st ∈ existing, CacheOk P identity st) :
    WellKeyed ((existing.map (·.deviceLogs)).getD ∅) := by
  cases existing with
  | none => exact wellKeyed_empty
  | some st => exact (h st rfl).wellKeyed

theorem cacheOk_of_mergeVerified (hex : ∀ st ∈ existing, CacheOk P identity st)
    (h : mergeVerifiedDeviceWriterState P iteration identity existing records logs syncVersion heads
      complete = .ok st) : CacheOk P identity st := by
  obtain ⟨candidate, authority, -, -, ha, hs, hl, -, hm, -, -⟩ := mergeVerified_eq_ok_iff.mp h
  exact ⟨(wellKeyed_existing hex).foldlM_accumulateLog hl, authority, iteration, ha, hs, hm⟩

theorem merged_eq_of_cacheOk {st' : CachedDeviceWriterState} (h : CacheOk P identity st)
    (h' : CacheOk P identity st') (hrecords : st.authorityRecords = st'.authorityRecords)
    (hlogs : st.deviceLogs = st'.deviceLogs)
    (hcf : CollisionFree P (iteration.values st.deviceLogs).flatten) :
    st.authoritySequence = st'.authoritySequence ∧ st.merged = st'.merged := by
  obtain ⟨authority, it, hv, hseq, hm⟩ := h.backed
  obtain ⟨authority', it', hv', hseq', hm'⟩ := h'.backed
  rw [← hrecords, hv] at hv'
  cases hv'
  have hsub : (it.values st.deviceLogs).flatten ⊆ (iteration.values st.deviceLogs).flatten :=
    ((values_perm it iteration st.deviceLogs).flatten).subset
  have hm'' := merge_ok_of_perm (values_perm it it' st.deviceLogs) (hcf.mono hsub) hm
  rw [hlogs, hm'] at hm''
  exact ⟨by rw [hseq, hseq'], (Except.ok.inj hm'').symm⟩

/-- **Which chain is adopted**, of two prefixes of one chain: the longer one. -/
theorem chooseRecords_cases (hst : CacheOk P identity st) {chain : List DeviceAuthorizationRecord}
    (hheld : st.authorityRecords <+: chain) (hp : records <+: chain)
    {candidate : VerifiedIdentityAuthority}
    (hv : verifyIdentityAuthorityChain P identity records = .ok candidate) :
    chooseRecords (some st) candidate records = records ∧ st.authorityRecords <+: records ∨
      chooseRecords (some st) candidate records = st.authorityRecords ∧
        records <+: st.authorityRecords := by
  obtain ⟨authority, _, hverify, hseq, -⟩ := hst.backed
  have hlen := latestSequence_of_verify hv
  have hlen' := latestSequence_of_verify hverify
  have hle : st.authoritySequence ≤ candidate.latestSequence ↔ st.authorityRecords.length ≤
    records.length := by
    rw [hseq, UInt64.le_iff_toNat_le]
    omega
  simp only [chooseRecords]
  split_ifs with hc
  · exact .inl ⟨rfl, prefix_of_prefix_length_le hheld hp (hle.mp hc)⟩
  · rw [hle] at hc
    exact .inr ⟨rfl, prefix_of_prefix_length_le hp hheld (by omega)⟩

end Jolt.Network.CacheSpec

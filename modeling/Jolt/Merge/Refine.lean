import Jolt.Merge.Spec
import Jolt.Merge.Shape
import Jolt.Lib.Following

/-! # The merge refines its specification

The loops of `mergeDeviceWriterLogs` are taken apart in three steps. A turn of the inner loop either
fails, exactly if the signature of the entry does not verify, or it is the pure `absorb`
(`mergeEntry_eq_ok_iff`). After the logs absorbed so far the tables hold what the specification says
of them (`Tabulates`, with `TabulatesAt` inside a log). Settling the paths turns the tables into the
declarative state, or panics if a path has candidates but no head. Together: the merge returns a
state exactly if all logs verify and every path with a candidate has a head, and the state is the
declarative one (`merge_eq_ok_iff`). -/

namespace Jolt.Merge.Refine

open Std Lib Checks Sorting Families Following Jolt.Core Jolt.Core.Types IdentityAuthority
  DeviceWriterLog Spec Shape List ExtTreeMap

/-! ### The loops without their failures -/

section

variable (P : Primitives) (authority : VerifiedIdentityAuthority)

/-- What an entry does to the tables, its signature aside. -/
def absorb (s : MergeState) (e : DeviceWriterLogEntry) : MergeState :=
  if Accepted authority e then
    match e.body.operation with
    | .setPath path contentId .singleton => s.pushSingleton P path e (.present contentId)
    | .setPath path contentId .append => s.pushAppend P path e contentId
    | .tombstonePath path => s.pushSingleton P path e .tombstone
  else s.pushRejected (rejectedEntry P e (rejectionReason authority e))

/-- If the device of `e` is known, `e` is signed by its key. -/
def EntryVerified (e : DeviceWriterLogEntry) : Prop :=
  ∀ device, authority.devices[e.body.deviceId]? = some device →
    DeviceWriterLog.verifySignature P device.signingPublicKey
      (e.body.canonicalBytes P) e.signature = .ok ()

/-- The checks a log passes: its shape, and the signature of every entry of a known device. -/
def LogVerified (log : List DeviceWriterLogEntry) : Prop :=
  verifyDeviceLogShape P authority.identity log = .ok () ∧ ∀ e ∈ log, EntryVerified P authority e

def absorbLog (s : MergeState) : List DeviceWriterLogEntry → MergeState
  | [] => s
  | first :: rest =>
    (first :: rest).foldl (absorb P authority) { s with previousSingletonByPath := ∅ }

end

variable {P : Primitives} {authority : VerifiedIdentityAuthority} {e : DeviceWriterLogEntry}

theorem verifySignature_sign (key : Bytes32) (payload : Bytes) :
    DeviceWriterLog.verifySignature P (P.verifyingKey key).bytes payload (P.sign key payload) = .ok
      () := by
  simp [DeviceWriterLog.verifySignature, DeviceWriterLog.validateSignatureLen,
    (P.verifyingKey key).length_bytes, DeviceWriterLog.publicKeyLen, DeviceWriterLog.signatureLen,
    P.length_sign, P.keyFromBytes_verifyingKey, P.verifyStrict_sign]

theorem mergeEntry_eq_ok_iff {s s' : MergeState} :
    mergeEntry P authority authority.devices[e.body.deviceId]? s e = .ok s' ↔
      EntryVerified P authority e ∧ s' = absorb P authority s e := by
  unfold mergeEntry absorb EntryVerified rejectionReason
  cases hd : authority.devices[e.body.deviceId]? with
  | none =>
    have hn : ¬ Accepted authority e := by rintro ⟨device, h, -⟩; simp [hd] at h
    simp [hn, eq_comm (a := s')]
  | some device =>
    have hr : (device.status = .revoked ∧
        authority.deviceCanWrite e.body.deviceId e.body.deviceSequence = false) ↔
          ¬ Accepted authority e := by
      rw [accepted_iff_deviceCanWrite]
      unfold VerifiedIdentityAuthority.deviceCanWrite
      cases hs : device.status <;> simp [hd, hs]
    simp only [hr, bind_eq_ok, Option.some.injEq, forall_eq']
    by_cases ha : Accepted authority e
    · rcases ho : e.body.operation with ⟨path, contentId, mode⟩ | path
      · cases mode <;> simp [ha, eq_comm (a := s')]
      · simp [ha, eq_comm (a := s')]
    · simp [ha, eq_comm (a := s')]

theorem mergeLog_eq_ok_iff {s s' : MergeState} {log : List DeviceWriterLogEntry} :
    mergeLog P authority s log = .ok s' ↔ LogVerified P authority log ∧
      s' = absorbLog P authority s log := by
  cases log with
  | nil => simp [mergeLog, LogVerified, absorbLog, verifyDeviceLogShape, eq_comm (a := s')]
  | cons first rest =>
    -- The loop looks the device up once, by the first entry; the shape makes it everyone's device.
    have hloop : ∀ s, verifyDeviceLogShape P authority.identity (first :: rest) = .ok () →
        ((first :: rest).foldlM (mergeEntry P authority authority.devices[first.body.deviceId]?) s =
          .ok s' ↔
          (∀ e ∈ first :: rest, EntryVerified P authority e) ∧
            s' = (first :: rest).foldl (absorb P authority) s) := by
      intro s hshape
      refine foldlM_eq_ok_iff fun e he s s' => ?_
      rw [← ((verifyDeviceLogShape_eq_ok_iff.mp hshape).valid e he).deviceId]
      exact mergeEntry_eq_ok_iff
    simp only [mergeLog, bind_eq_ok, LogVerified, absorbLog]
    constructor
    · rintro ⟨_, hshape, h⟩
      obtain ⟨hv, rfl⟩ := (hloop _ hshape).mp h
      exact ⟨⟨hshape, hv⟩, rfl⟩
    · rintro ⟨⟨hshape, hv⟩, rfl⟩
      exact ⟨(), hshape, (hloop _ hshape).mpr ⟨hv, rfl⟩⟩

theorem foldlM_mergeLog_eq_ok_iff {logs : Logs} {s s' : MergeState} :
    logs.foldlM (mergeLog P authority) s = .ok s' ↔
      (∀ log ∈ logs, LogVerified P authority log) ∧ s' = logs.foldl (absorbLog P authority) s :=
  foldlM_eq_ok_iff fun _ _ _ _ => mergeLog_eq_ok_iff

/-! ### What the tables hold -/

/-- The tables hold what the specification says of `logs`. -/
structure Tabulates (P : Primitives) (authority : VerifiedIdentityAuthority) (logs : Logs)
    (s : MergeState) : Prop where
  candidates : Holds s.singletonCandidates (candidatesAt P authority logs)
  superseded : ∀ path h, h ∈ s.supersededSingletons[path]?.getD ∅ ↔
    Superseded P authority logs path h
  append : Holds s.appendRecords fun path =>
    logs.flatten.filterMap (asAppendRecord P authority path)
  rejected : s.rejectedEntries = logs.flatten.filterMap (asRejected P authority)

/-- The same inside a log of which `cur` has been absorbed: the table of previous singletons has,
for each path, the last candidate of `cur`. -/
structure TabulatesAt (P : Primitives) (authority : VerifiedIdentityAuthority) (done : Logs)
    (cur : List DeviceWriterLogEntry) (s : MergeState) : Prop where
  tables : Tabulates P authority (done ++ [cur]) s
  previous : ∀ path, s.previousSingletonByPath[path]? =
    (cur.filter (Candidate authority path)).getLast?.map (·.entryHash P)

/-- What an entry is to the specification, and what it does to the tables. -/
theorem absorb_cases (P : Primitives) (authority : VerifiedIdentityAuthority) (s : MergeState)
    (e : DeviceWriterLogEntry) : (∃ path state, Accepted authority e ∧
      (∀ p, singletonAt p e.body.operation = if path = p then some state else none) ∧
      (∀ p, appendAt p e.body.operation = none) ∧
      absorb P authority s e = s.pushSingleton P path e state) ∨
    (∃ path contentId, Accepted authority e ∧ (∀ p, singletonAt p e.body.operation = none) ∧
      (∀ p, appendAt p e.body.operation = if path = p then some contentId else none) ∧
      absorb P authority s e = s.pushAppend P path e contentId) ∨
    (¬ Accepted authority e ∧
      absorb P authority s e = s.pushRejected
        (rejectedEntry P e (rejectionReason authority e))) := by
  by_cases ha : Accepted authority e
  · rcases ho : e.body.operation with ⟨path, contentId, mode⟩ | path
    · cases mode with
      | singleton =>
        exact .inl ⟨path, .present contentId, ha, fun _ => rfl, fun _ => rfl, by
          simp [absorb, ha, ho]⟩
      | append =>
        exact .inr (.inl ⟨path, contentId, ha, fun _ => rfl, fun _ => rfl, by
          simp [absorb, ha, ho]⟩)
    · exact .inl ⟨path, .tombstone, ha, fun _ => rfl, fun _ => rfl, by simp [absorb, ha, ho]⟩
  · exact .inr (.inr ⟨ha, by simp [absorb, ha]⟩)

theorem filterMap_flatten_concat {β : Type} (g : DeviceWriterLogEntry → Option β) (done : Logs)
    (cur : List DeviceWriterLogEntry) (e : DeviceWriterLogEntry) :
    (done ++ [cur ++ [e]]).flatten.filterMap g = (done ++ [cur]).flatten.filterMap g ++
    (g e).toList := by
  cases h : g e <;> simp [h]

variable {cur : List DeviceWriterLogEntry} {done : Logs}

/-- How supersession grows with an entry: by its observed heads, and by the last candidate before it
in its log. The candidates before that one were superseded already. -/
theorem superseded_concat {path : String}
    {h : DeviceWriterLogEntryHash} : Superseded P authority (done ++ [cur ++ [e]]) path h ↔
      Superseded P authority (done ++ [cur]) path h ∨ Candidate authority path e ∧
        (h ∈ e.body.observedHeads ∨
          (cur.filter (Candidate authority path)).getLast?.map (·.entryHash P) = some h) := by
  constructor
  · rintro (⟨log, hl, d, f, hs, hd, hf, rfl⟩ | ⟨log, hl, f, hf, hc, ho⟩)
    · rcases mem_append.mp hl with hl | hl
      · exact .inl (.inl ⟨log, by simp [hl], d, f, hs, hd, hf, rfl⟩)
      · obtain rfl : log = cur ++ [e] := by simpa using hl
        rcases pair_sublist_concat.mp hs with hs | ⟨hm, rfl⟩
        · exact .inl (.inl ⟨cur, by simp, d, f, hs, hd, hf, rfl⟩)
        · rcases getLast?_filter_or_followed hm hd with hlast | ⟨g, hs, hg⟩
          · exact .inr ⟨hf, .inr (by rw [hlast]; rfl)⟩
          · exact .inl (.inl ⟨cur, by simp, d, g, hs, hd, hg, rfl⟩)
    · rcases mem_append.mp hl with hl | hl
      · exact .inl (.inr ⟨log, by simp [hl], f, hf, hc, ho⟩)
      · obtain rfl : log = cur ++ [e] := by simpa using hl
        rcases mem_append.mp hf with hf | hf
        · exact .inl (.inr ⟨cur, by simp, f, hf, hc, ho⟩)
        · obtain rfl : f = e := by simpa using hf
          exact .inr ⟨hc, .inl ho⟩
  · rintro ((⟨log, hl, d, f, hs, hd, hf, rfl⟩ | ⟨log, hl, f, hf, hc, ho⟩) | ⟨hc, ho | hlast⟩)
    · rcases mem_append.mp hl with hl | hl
      · exact .inl ⟨log, by simp [hl], d, f, hs, hd, hf, rfl⟩
      · obtain rfl : log = cur := by simpa using hl
        exact .inl ⟨log ++ [e], by simp, d, f, pair_sublist_concat.mpr (.inl hs), hd, hf, rfl⟩
    · rcases mem_append.mp hl with hl | hl
      · exact .inr ⟨log, by simp [hl], f, hf, hc, ho⟩
      · obtain rfl : log = cur := by simpa using hl
        exact .inr ⟨log ++ [e], by simp, f, by simp [hf], hc, ho⟩
    · exact .inr ⟨cur ++ [e], by simp, e, by simp, hc, ho⟩
    · obtain ⟨d, hd, rfl⟩ := Option.map_eq_some_iff.mp hlast
      obtain ⟨hm, hcd⟩ := mem_filter.mp (mem_of_getLast? hd)
      refine .inl ⟨cur ++ [e], by simp, d, e, ?_, by simpa using hcd, hc, rfl⟩
      exact pair_sublist_concat.mpr (.inr ⟨hm, rfl⟩)

theorem candidate_iff_of_singletonAt {path p : String} {state : DeviceWriterPathState}
    (ha : Accepted authority e)
    (hs : ∀ p, singletonAt p e.body.operation = if path = p then some state else none) :
    Candidate authority p e ↔ path = p := by
  unfold Candidate
  rw [hs p]
  split_ifs with h <;> simp [ha, h]

section

variable (P authority) (s : MergeState) (e : DeviceWriterLogEntry)

theorem holds_candidates_absorb {f : String → List MergedDeviceWriterEntry}
    (h : Holds s.singletonCandidates f) :
    Holds (absorb P authority s e).singletonCandidates fun path =>
      f path ++ (asCandidate P authority path e).toList := by
  intro p
  rcases absorb_cases P authority s e with
    ⟨path, state, ha, hs, -, he⟩ | ⟨path, contentId, ha, hs, -, he⟩ | ⟨ha, he⟩
  · rw [he, MergeState.pushSingleton, h.pushAt path (mergedEntry P e state) p]
    by_cases hp : path = p <;> simp [asCandidate, ha, hs, hp]
  · simpa [he, MergeState.pushAppend, asCandidate, hs] using h p
  · simpa [he, MergeState.pushRejected, asCandidate, ha] using h p

theorem holds_appendRecords_absorb {f : String → List MergedAppendRecord}
    (h : Holds s.appendRecords f) :
    Holds (absorb P authority s e).appendRecords fun path =>
      f path ++ (asAppendRecord P authority path e).toList := by
  intro p
  rcases absorb_cases P authority s e with
    ⟨path, state, ha, -, hap, he⟩ | ⟨path, contentId, ha, -, hap, he⟩ | ⟨ha, he⟩
  · simpa [he, MergeState.pushSingleton, asAppendRecord, hap] using h p
  · rw [he, MergeState.pushAppend, h.pushAt path (mergedAppendRecord P e contentId) p]
    by_cases hp : path = p <;> simp [asAppendRecord, ha, hap, hp]
  · simpa [he, MergeState.pushRejected, asAppendRecord, ha] using h p

theorem rejectedEntries_absorb :
    (absorb P authority s e).rejectedEntries = s.rejectedEntries ++
    (asRejected P authority e).toList := by
  rcases absorb_cases P authority s e with
    ⟨path, state, ha, -, -, he⟩ | ⟨path, contentId, ha, -, -, he⟩ | ⟨ha, he⟩ <;>
    simp [he, asRejected, ha, MergeState.pushSingleton, MergeState.pushAppend,
      MergeState.pushRejected]

theorem previousSingletonByPath_absorb (p : String) :
    (absorb P authority s e).previousSingletonByPath[p]? =
      if Candidate authority p e then some (e.entryHash P) else s.previousSingletonByPath[p]? := by
  rcases absorb_cases P authority s e with
    ⟨path, state, ha, hs, -, he⟩ | ⟨path, contentId, ha, hs, -, he⟩ | ⟨ha, he⟩
  · rw [he, MergeState.pushSingleton, ExtTreeMap.getElem?_insert]
    simp only [candidate_iff_of_singletonAt ha hs, LawfulEqOrd.compare_eq_iff_eq]
  · simp [he, MergeState.pushAppend, Candidate, hs]
  · simp [he, MergeState.pushRejected, Candidate, ha]

theorem mem_supersededSingletons_absorb (p : String) (h : DeviceWriterLogEntryHash) :
    h ∈ (absorb P authority s e).supersededSingletons[p]?.getD ∅ ↔
      h ∈ s.supersededSingletons[p]?.getD ∅ ∨ Candidate authority p e ∧
        (h ∈ e.body.observedHeads ∨ s.previousSingletonByPath[p]? = some h) := by
  rcases absorb_cases P authority s e with
    ⟨path, state, ha, hs, -, he⟩ | ⟨path, contentId, ha, hs, -, he⟩ | ⟨ha, he⟩
  · rw [he, MergeState.pushSingleton, candidate_iff_of_singletonAt ha hs, getElem?_alter]
    simp only [LawfulEqOrd.compare_eq_iff_eq]
    by_cases hp : path = p
    · subst hp
      cases hprev : s.previousSingletonByPath[path]? with
      | none => simp
      | some previous => simp [eq_comm (a := h)]; tauto
    · simp [hp]
  · simp [he, MergeState.pushAppend, Candidate, hs]
  · simp [he, MergeState.pushRejected, Candidate, ha]

end

variable {s : MergeState} {logs : Logs}

/-- **One turn of the inner loop** keeps the tables in step with the specification. -/
theorem TabulatesAt.absorb {s : MergeState} (h : TabulatesAt P authority done cur s)
    (e : DeviceWriterLogEntry) :
    TabulatesAt P authority done (cur ++ [e]) (absorb P authority s e) where
  tables :=
    { candidates := fun path => by
        rw [candidatesAt, filterMap_flatten_concat]
        exact holds_candidates_absorb P authority s e h.tables.candidates path
      superseded := fun path x => by
        rw [superseded_concat, mem_supersededSingletons_absorb, h.tables.superseded, h.previous]
      append := by
        simp only [filterMap_flatten_concat]
        exact holds_appendRecords_absorb P authority s e h.tables.append
      rejected := by rw [filterMap_flatten_concat, rejectedEntries_absorb, h.tables.rejected] }
  previous path := by
    rw [previousSingletonByPath_absorb, h.previous path, filter_append]
    split_ifs with hc <;> simp [hc]

theorem TabulatesAt.foldl_absorb : ∀ (rest : List DeviceWriterLogEntry)
    {cur : List DeviceWriterLogEntry} {s : MergeState}, TabulatesAt P authority done cur s →
      TabulatesAt P authority done (cur ++ rest) (rest.foldl (Refine.absorb P authority) s)
  | [], _, _, h => by simpa using h
  | e :: rest, cur, s, h => by
    have := TabulatesAt.foldl_absorb rest (h.absorb e)
    rwa [append_assoc, singleton_append] at this

theorem Tabulates.concat_nil (h : Tabulates P authority done s) :
    Tabulates P authority (done ++ [[]]) s := by
  have hf : (done ++ [[]]).flatten = done.flatten := by simp
  refine ⟨?_, fun path x => (h.superseded path x).trans ?_, ?_, ?_⟩
  · unfold candidatesAt
    rw [hf]
    exact h.candidates
  · unfold Superseded
    constructor
    · rintro (⟨log, hl, hs⟩ | ⟨log, hl, hs⟩)
      · exact .inl ⟨log, mem_append_left _ hl, hs⟩
      · exact .inr ⟨log, mem_append_left _ hl, hs⟩
    · rintro (⟨log, hl, hs⟩ | ⟨log, hl, hs⟩) <;> rcases mem_append.mp hl with hl | hl
      · exact .inl ⟨log, hl, hs⟩
      · obtain rfl : log = [] := by simpa using hl
        obtain ⟨_, _, hs, -⟩ := hs
        simp at hs
      · exact .inr ⟨log, hl, hs⟩
      · obtain rfl : log = [] := by simpa using hl
        obtain ⟨_, hs, -⟩ := hs
        simp at hs
  · rw [hf]
    exact h.append
  · rw [hf]
    exact h.rejected

/-- **One turn of the outer loop.** -/
theorem Tabulates.absorbLog {s : MergeState} (h : Tabulates P authority done s)
    (log : List DeviceWriterLogEntry) :
    Tabulates P authority (done ++ [log]) (absorbLog P authority s log) := by
  have hnil := h.concat_nil
  cases log with
  | nil => exact hnil
  | cons first rest =>
    have hat : TabulatesAt P authority done [] { s with previousSingletonByPath := ∅ } :=
      ⟨⟨hnil.candidates, hnil.superseded, hnil.append, hnil.rejected⟩, fun path => by simp⟩
    exact (hat.foldl_absorb (first :: rest)).tables

theorem Tabulates.foldl_absorbLog : ∀ (rest : Logs) {done : Logs} {s : MergeState},
    Tabulates P authority done s →
      Tabulates P authority (done ++ rest) (rest.foldl (Refine.absorbLog P authority) s)
  | [], _, _, h => by simpa using h
  | log :: rest, done, s, h => by
    have := Tabulates.foldl_absorbLog rest (h.absorbLog log)
    rwa [append_assoc, singleton_append] at this

theorem tabulates_empty : Tabulates P authority [] MergeState.empty where
  candidates := holds_empty
  superseded path h := by simp [MergeState.empty, Superseded]
  append := holds_empty
  rejected := rfl

/-- **The run of both loops**: the tables hold what the specification says of all logs. -/
theorem tabulates_foldl_absorbLog (P : Primitives) (authority : VerifiedIdentityAuthority)
    (logs : Logs) :
    Tabulates P authority logs (logs.foldl (absorbLog P authority) MergeState.empty) := by
  have h : Tabulates P authority ([] ++ logs) _ := tabulates_empty.foldl_absorbLog logs
  rwa [nil_append] at h

/-! ### Settling the paths -/

/-- What settling a path with a head does. -/
def settleRow (s : MergeState) (settled : Settled) (r : String × List MergedDeviceWriterEntry) :
    Settled where
  singletonPaths := insertSome settled.singletonPaths r.1 (remainingCandidates s r.1 r.2).getLast?
  singletonConflicts := insertSome settled.singletonConflicts r.1
    (row (remainingCandidates s r.1 r.2).dropLast)

theorem settlePath_eq_ok_iff {settled settled' : Settled}
    {r : String × List MergedDeviceWriterEntry} :
    settlePath s settled r = .ok settled' ↔ remainingCandidates s r.1 r.2 ≠ [] ∧
      settled' = settleRow s settled r := by
  unfold settlePath settleRow
  cases h : (remainingCandidates s r.1 r.2).getLast? with
  | none => simp [getLast?_eq_none_iff.mp h]
  | some winner =>
    have hne : remainingCandidates s r.1 r.2 ≠ [] := by
      intro hnil
      simp [hnil] at h
    by_cases hd : (remainingCandidates s r.1 r.2).dropLast = []
    · simp [h, hne, hd, insertSome, eq_comm (a := settled')]
    · simp [h, hne, hd, insertSome, row, eq_comm (a := settled')]

section

variable (h : Tabulates P authority logs s)
include h

theorem remainingCandidates_eq_heads (path : String) :
    remainingCandidates s path (candidatesAt P authority logs path) =
      heads P authority logs path := by
  unfold remainingCandidates heads
  congr 1
  have hsup := h.superseded path
  cases ht : s.supersededSingletons[path]? with
  | none =>
    simp only [ht, Option.getD_none, Finset.notMem_empty, false_iff] at hsup
    simp [hsup]
  | some superseded =>
    simp only [ht, Option.getD_some] at hsup
    exact filter_congr fun c _ => by simp [hsup]

theorem getElem?_singletonCandidates {path : String}
    {candidates : List MergedDeviceWriterEntry} :
    (path, candidates) ∈ s.singletonCandidates.toList ↔
      candidatesAt P authority logs path = candidates ∧ candidates ≠ [] := by
  rw [mem_toList_iff_getElem?_eq_some, h.candidates path, row_eq_some]
  constructor
  · rintro ⟨rfl, hne⟩; exact ⟨rfl, hne⟩
  · rintro ⟨rfl, hne⟩; exact ⟨rfl, hne⟩

theorem getElem?_foldl_remaining {β : Type} (g : List MergedDeviceWriterEntry → Option β)
    (hg : g [] = none) (path : String) :
    (s.singletonCandidates.toList.foldl (fun t r =>
      insertSome t r.1 (g (remainingCandidates s r.1 r.2))) ∅)[path]? =
      g (heads P authority logs path) := by
  rw [getElem?_foldl_toList _ fun p candidates => g (remainingCandidates s p candidates),
    h.candidates path]
  by_cases hc : candidatesAt P authority logs path = []
  · simp [hc, heads, hg, sortBy]
  · simp [row, hc, remainingCandidates_eq_heads h]

omit h in
/-- The state the tables settle into, if every path has a head. -/
def settledState (P : Primitives) (authority : VerifiedIdentityAuthority) (s : MergeState) :
    MergedDeviceIdentityState :=
  let settled := s.singletonCandidates.toList.foldl (settleRow s) ⟨∅, ∅⟩
  { identity := authority.identity
    singletonPaths := settled.singletonPaths
    singletonConflicts := settled.singletonConflicts
    appendRecords := s.appendRecords.map fun _ records => sortBy appendRecordOrder records
    rejectedEntries := sortBy (rejectedOrder P) s.rejectedEntries }

theorem isMergeOf_settledState : IsMergeOf P authority logs (settledState P authority s) where
  identity := rfl
  winner path := by
    rw [settledState, ← getElem?_foldl_remaining h List.getLast? rfl path]
    exact congrArg (·[path]?) (foldl_hom Settled.singletonPaths fun _ _ => rfl).symm
  conflicts path := by
    rw [settledState, ← getElem?_foldl_remaining h (fun l => row l.dropLast) rfl path]
    exact congrArg (·[path]?) (foldl_hom Settled.singletonConflicts fun _ _ => rfl).symm
  append path := by
    rw [settledState, ExtTreeMap.getElem?_map, h.append path, appendRecordsAt,
      map_row sortBy_eq_nil_iff]
  rejected := by rw [settledState, h.rejected, rejectedOf]

theorem settle_eq_ok_iff {st : MergedDeviceIdentityState} : settle P authority s = .ok st ↔
      (∀ path, candidatesAt P authority logs path ≠ [] → heads P authority logs path ≠ []) ∧
        st = settledState P authority s := by
  have hgood : (∀ r ∈ s.singletonCandidates.toList, remainingCandidates s r.1 r.2 ≠ []) ↔
      ∀ path, candidatesAt P authority logs path ≠ [] → heads P authority logs path ≠ [] := by
    constructor
    · intro hr path hne
      have := hr (path, _) ((getElem?_singletonCandidates h).mpr ⟨rfl, hne⟩)
      rwa [remainingCandidates_eq_heads h] at this
    · rintro hp ⟨path, candidates⟩ hr
      obtain ⟨rfl, hne⟩ := (getElem?_singletonCandidates h).mp hr
      rw [remainingCandidates_eq_heads h]
      exact hp path hne
  have hloop : ∀ settled : Settled, s.singletonCandidates.toList.foldlM (settlePath s) ⟨∅, ∅⟩ =
    .ok settled ↔
        (∀ r ∈ s.singletonCandidates.toList, remainingCandidates s r.1 r.2 ≠ []) ∧
          settled = s.singletonCandidates.toList.foldl (settleRow s) ⟨∅, ∅⟩ :=
    fun _ => foldlM_eq_ok_iff fun _ _ _ _ => settlePath_eq_ok_iff
  unfold settle settledState
  simp only [bind_eq_ok, pure_eq_ok, hloop, hgood]
  constructor
  · rintro ⟨_, ⟨hp, rfl⟩, rfl⟩
    exact ⟨hp, rfl⟩
  · rintro ⟨hp, rfl⟩
    exact ⟨_, ⟨hp, rfl⟩, rfl⟩

end

/-! ### The merge -/

variable {logs : Logs}

/-- **When the merge succeeds, and with what.** -/
theorem merge_eq_ok_iff {st : MergedDeviceIdentityState} :
    mergeDeviceWriterLogs P authority logs = .ok st ↔
      (∀ log ∈ logs, LogVerified P authority log) ∧
      (∀ path, candidatesAt P authority logs path ≠ [] → heads P authority logs path ≠ []) ∧
      IsMergeOf P authority logs st := by
  have htab := tabulates_foldl_absorbLog P authority logs
  have hst : IsMergeOf P authority logs st ↔
      st = settledState P authority (logs.foldl (absorbLog P authority) MergeState.empty) :=
    ⟨fun h => h.ext (isMergeOf_settledState htab), fun h => h ▸ isMergeOf_settledState htab⟩
  unfold mergeDeviceWriterLogs
  rw [hst]
  cases hloop : logs.foldlM (mergeLog P authority) MergeState.empty with
  | error e =>
    have hbad : ¬ ∀ log ∈ logs, LogVerified P authority log := by
      intro hv
      rw [foldlM_mergeLog_eq_ok_iff.mpr ⟨hv, rfl⟩] at hloop
      cases hloop
    simp [hbad]
  | ok s =>
    obtain ⟨hv, rfl⟩ := foldlM_mergeLog_eq_ok_iff.mp hloop
    simp only [settle_eq_ok_iff htab]
    exact ⟨fun h => ⟨hv, h⟩, fun h => h.2⟩

theorem exists_merge_eq_ok_iff : (∃ st, mergeDeviceWriterLogs P authority logs = .ok st) ↔
      (∀ log ∈ logs, LogVerified P authority log) ∧
      ∀ path, candidatesAt P authority logs path ≠ [] → heads P authority logs path ≠ [] := by
  simp only [merge_eq_ok_iff]
  constructor
  · rintro ⟨_, hv, hp, -⟩
    exact ⟨hv, hp⟩
  · rintro ⟨hv, hp⟩
    exact ⟨_, hv, hp, isMergeOf_settledState (tabulates_foldl_absorbLog P authority logs)⟩

theorem heads_eq_nil_of_merge_panicked {message : String}
    (h : mergeDeviceWriterLogs P authority logs = .error (.panicked message)) :
    (∀ log ∈ logs, LogVerified P authority log) ∧
      ∃ path, candidatesAt P authority logs path ≠ [] ∧ heads P authority logs path = [] := by
  unfold mergeDeviceWriterLogs at h
  cases hloop : logs.foldlM (mergeLog P authority) MergeState.empty with
  | error e => simp [hloop] at h
  | ok s =>
    obtain ⟨hv, rfl⟩ := foldlM_mergeLog_eq_ok_iff.mp hloop
    refine ⟨hv, ?_⟩
    by_contra hno
    push Not at hno
    have hok := (settle_eq_ok_iff (tabulates_foldl_absorbLog P authority logs)).mpr ⟨hno, rfl⟩
    simp only [hloop, hok] at h
    cases h

end Jolt.Merge.Refine

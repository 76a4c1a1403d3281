import Jolt.Publishing.Requests
import Jolt.Publishing.Alignment

/-! # The heads a write observes

The current heads of a path are the conflicts of the merged state and its winner, in this order. A
mutation whose revisions pass the check names exactly them (`validate_eq_ok`), and the entry it
appends observes exactly them (`observed_eq_recordHeads`); a plain write observes them in another
order (`mem_currentSingletonHeads`). -/

namespace Jolt.Publishing.RecordHeads

open Std Lib.Checks Core.Types Core.DeviceWriterLog Merge.Causality Network.DeviceWriterCache
  Writing LocalNode List

variable {P : Primitives} {node : LocalNode} {st : CachedDeviceWriterState} {path : String}
  {iteration : Iteration} {hash : DeviceWriterLogEntryHash} {requested : List String}
  {required : RequiredSingleRecordState}

theorem toHex_injective : Function.Injective DeviceWriterLogEntryHash.toHex := by
  intro a b h
  obtain ⟨a⟩ := a
  obtain ⟨b⟩ := b
  exact congrArg _ (Bytes32.ext (hexText_injective h))

/-- The heads of the path: its conflicts and, last, its winner. -/
def recordHeads (st : CachedDeviceWriterState) (path : String) : List DeviceWriterLogEntryHash :=
  (st.merged.singletonConflicts[path]?.getD []).map (·.entryHash) ++
    st.merged.singletonPaths[path]?.toList.map (·.entryHash)

theorem mem_recordHeads {c : MergedDeviceWriterEntry} (h : Reported st.merged path c) :
    c.entryHash ∈ recordHeads st path := by
  unfold recordHeads
  rw [mem_append]
  rcases h with hwinner | ⟨conflicts, hconflicts, hc⟩
  · refine .inr ?_
    rw [hwinner]
    exact mem_singleton.mpr rfl
  · refine .inl ?_
    rw [hconflicts]
    exact mem_map_of_mem hc

theorem mem_currentSingletonHeads (hstate : node.state = some st)
    {operation : DeviceWriterOperation}
    (hop : operation = .tombstonePath path ∨ ∃ contentId, operation =
      .setPath path contentId .singleton) :
    hash ∈ node.currentSingletonHeads operation ↔ hash ∈ recordHeads st path := by
  unfold recordHeads
  rcases hop with rfl | ⟨contentId, rfl⟩ <;>
    · simp only [currentSingletonHeads, hstate]
      rw [mem_append, mem_append, or_comm]

theorem revision_localRecordHead (entry : MergedDeviceWriterEntry) :
    (localRecordHead P entry path).revision = entry.entryHash.toHex := by
  unfold localRecordHead
  cases entry.state <;> rfl

/-- **A request that passes the check names the current heads**, in their order. -/
theorem validate_eq_ok
    (h : node.validateCurrentRecordRevisions P path requested required = .ok ()) :
    ∃ st, node.state = some st ∧ requested = (recordHeads st path).map (·.toHex) ∧
      requested ≠ [] := by
  simp only [validateCurrentRecordRevisions, bind_eq_ok, okOr_eq_ok, ensure_eq_ok] at h
  obtain ⟨current, hcurrent, rfl⟩ := h
  unfold currentRecordRevisions inspectLocalRecord at hcurrent
  cases hstate : node.state with
  | none => simp [hstate] at hcurrent
  | some st =>
    simp only [hstate] at hcurrent
    refine ⟨st, rfl, ?_⟩
    unfold recordHeads
    cases hwinner : st.merged.singletonPaths[path]? with
    | none => simp [hwinner] at hcurrent
    | some entry =>
      simp only [hwinner] at hcurrent
      cases hconflicts : st.merged.singletonConflicts[path]? with
      | some conflicts =>
        simp only [hconflicts, Option.ite_none_right_eq_some, Option.some.injEq,
          map_map] at hcurrent
        obtain ⟨-, rfl⟩ := hcurrent
        have hmap : (LocalRecordHead.revision ∘ fun entry => localRecordHead P entry path) =
            fun entry : MergedDeviceWriterEntry => entry.entryHash.toHex :=
          funext revision_localRecordHead
        rw [hmap]
        simp [Function.comp_def]
      | none =>
        simp only [hconflicts] at hcurrent
        cases hkind : entry.state <;>
        · simp only [hkind, Option.ite_none_right_eq_some, Option.some.injEq] at hcurrent
          obtain ⟨-, rfl⟩ := hcurrent
          simp

/-! ### The hashes that revisions stand for -/

theorem observedRecordHeadHash_eq_ok {revision : String}
    (h : observedRecordHeadHash P iteration st revision = .ok hash) : hash.toHex = revision := by
  rw [observedRecordHeadHash, okOr_eq_ok, findSome?_eq_some_iff] at h
  obtain ⟨_, entry, _, -, hentry, -⟩ := h
  rw [Option.ite_none_right_eq_some] at hentry
  obtain ⟨htext, hhash⟩ := hentry
  cases hhash
  exact htext

theorem mapM_observed : ∀ {revisions : List String} {hashes : List DeviceWriterLogEntryHash},
    revisions.mapM (observedRecordHeadHash P iteration st) = .ok hashes → hashes.map
      (·.toHex) = revisions
  | [], hashes, h => by
    simp only [mapM_nil, pure_eq_ok] at h
    rw [← h]
    rfl
  | revision :: revisions, hashes, h => by
    simp only [mapM_cons, bind_eq_ok, pure_eq_ok] at h
    obtain ⟨hash, hhash, rest, hrest, rfl⟩ := h
    rw [map_cons, observedRecordHeadHash_eq_ok hhash, mapM_observed hrest]

/-- **A mutation observes exactly the current heads.** -/
theorem observed_eq_recordHeads {observed : List DeviceWriterLogEntryHash}
    (hstate : node.state = some st)
    (hvalid : node.validateCurrentRecordRevisions P path requested required = .ok ())
    (hobserved : node.observedRecordHeadHashes P iteration requested = .ok observed) :
    observed = recordHeads st path := by
  obtain ⟨st', hstate', hrequested, -⟩ := validate_eq_ok hvalid
  rw [hstate] at hstate'
  cases hstate'
  unfold observedRecordHeadHashes at hobserved
  rw [hstate] at hobserved
  have htexts := mapM_observed hobserved
  rw [hrequested] at htexts
  exact map_injective_iff.mpr toHex_injective htexts

end Jolt.Publishing.RecordHeads

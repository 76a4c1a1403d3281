import Jolt.Merge.Refine
import Jolt.Core.Sample

/-! # The outcome of a merge

The merged state is a function of what was supplied, not of how. It is the declarative state
(`merge_isMergeOf`), and if entry hashes do not collide it is the same for every order of the logs
(`merge_perm`): supersession and the checks only ask which logs are there, and the sorts at the end
put the candidates, append records and rejected entries in an order that tells any two of them
apart. -/

namespace Jolt.Merge.Determinism

open Std Lib.Checks Lib.Sorting Jolt.Core Jolt.Core.Types IdentityAuthority DeviceWriterLog Spec
  Refine List
open Sample (laptopNote phoneNote primitives twoDevices)

variable {P : Primitives} {authority : VerifiedIdentityAuthority} {logs logs' : Logs}
  {a b : DeviceWriterLogEntry} {st : MergedDeviceIdentityState}

/-! ### The declarative state -/

/-- **The merge computes the declarative state.** Whatever the merge returns is the state the
specification describes, and the specification describes no other. -/
theorem merge_isMergeOf {st : MergedDeviceIdentityState}
    (h : mergeDeviceWriterLogs P authority logs = .ok st) :
    IsMergeOf P authority logs st ∧ ∀ st', IsMergeOf P authority logs st' → st' = st := by
  obtain ⟨-, -, hst⟩ := merge_eq_ok_iff.mp h
  exact ⟨hst, fun _ hst' => hst'.ext hst⟩

/-- Two devices, the second replacing what the first wrote. -/
theorem merge_isMergeOf_notes : ∃ st, mergeDeviceWriterLogs primitives twoDevices
        [[laptopNote], [phoneNote]] = .ok st ∧
      IsMergeOf primitives twoDevices [[laptopNote], [phoneNote]] st := by
  have hok : (mergeDeviceWriterLogs primitives twoDevices [[laptopNote], [phoneNote]]).isOk := by
    decide +kernel
  obtain ⟨st, h⟩ := exists_eq_ok_of_isOk hok
  exact ⟨st, h, (merge_isMergeOf h).1⟩

/-! ### Independence of the order -/

/-- No two of the entries have one hash and different contents. -/
def CollisionFree (P : Primitives) (entries : List DeviceWriterLogEntry) : Prop :=
  ∀ a ∈ entries, ∀ b ∈ entries, a.entryHash P = b.entryHash P → a.body = b.body

instance (entries : List DeviceWriterLogEntry) : Decidable (CollisionFree P entries) :=
  inferInstanceAs (Decidable (∀ _ ∈ _, ∀ _ ∈ _, _))

variable {l l' : List DeviceWriterLogEntry}

theorem CollisionFree.mono (h : CollisionFree P l') (hsub : l ⊆ l') : CollisionFree P l :=
  fun a ha b hb => h a (hsub ha) b (hsub hb)

theorem mergedEntry_congr (h : a.body = b.body) (state : DeviceWriterPathState) :
    mergedEntry P a state = mergedEntry P b state := by
      simp [mergedEntry, DeviceWriterLogEntry.entryHash, h]

theorem mergedAppendRecord_congr (h : a.body = b.body) (contentId : ContentId) :
    mergedAppendRecord P a contentId = mergedAppendRecord P b contentId := by
  simp [mergedAppendRecord, DeviceWriterLogEntry.entryHash, h]

theorem rejectedEntry_congr (h : a.body = b.body) (reason : DeviceWriterRejectionReason) :
    rejectedEntry P a reason = rejectedEntry P b reason := by
      simp [rejectedEntry, DeviceWriterLogEntry.entryHash, h]

/-- **A sort of what entries turn into forgets their order** if what they turn into is determined by
the body and shows the hash to the comparator. -/
theorem sortBy_filterMap_eq {β : Type} {cmp : β → β → Ordering} [TransCmp cmp]
    {g : DeviceWriterLogEntry → Option β} (hash : β → DeviceWriterLogEntryHash) (hp : l.Perm l')
    (hcf : CollisionFree P l) (hbody : ∀ a b, a.body = b.body → g a = g b)
    (hhash : ∀ e b, g e = some b → hash b = e.entryHash P)
    (hcmp : ∀ b b', cmp b b' = .eq → hash b = hash b') :
    sortBy cmp (l.filterMap g) = sortBy cmp (l'.filterMap g) := by
  refine sortBy_eq_of_perm (hp.filterMap g) fun b hb b' hb' he => ?_
  obtain ⟨a, ha, hab⟩ := mem_filterMap.mp hb
  obtain ⟨a', ha', hab'⟩ := mem_filterMap.mp hb'
  have hh : a.entryHash P = a'.entryHash P := by
    rw [← hhash a b hab, ← hhash a' b' hab', hcmp b b' he]
  have hg := hbody a a' (hcf a ha a' ha' hh)
  rw [hab, hab'] at hg
  exact Option.some.inj hg

theorem superseded_perm (hp : logs.Perm logs') :
    Superseded P authority logs = Superseded P authority logs' := by
  funext path h
  simp only [Superseded, hp.mem_iff]

theorem accepted_congr (h : a.body = b.body) : Accepted authority a ↔ Accepted authority b := by
  simp only [Accepted, h]

section

variable (hp : logs.Perm logs')
include hp

section

variable (hcf : CollisionFree P logs.flatten)
include hcf

theorem heads_perm (path : String) :
    heads P authority logs path = heads P authority logs' path := by
  unfold heads candidatesAt
  rw [superseded_perm hp, filter_filterMap, filter_filterMap]
  refine sortBy_filterMap_eq (·.entryHash) hp.flatten hcf (fun a b h => ?_) (fun e b h =>
    ?_) fun b b' h => ?_
  · have hm : mergedEntry P a = mergedEntry P b := funext (mergedEntry_congr h)
    simp only [asCandidate, accepted_congr h, h, hm]
  · obtain ⟨h, -⟩ := Option.filter_eq_some_iff.mp h
    exact (candidate_of_asCandidate h).2
  · simp only [entryOrder, compareLex_eq_iff, compareOn_eq_iff] at h
    exact h.2.2

theorem appendRecordsAt_perm (path : String) :
    appendRecordsAt P authority logs path = appendRecordsAt P authority logs' path := by
  refine sortBy_filterMap_eq (·.entryHash) hp.flatten hcf (fun a b h => ?_) (fun e b h =>
    ?_) fun b b' h => ?_
  · have hm : mergedAppendRecord P a = mergedAppendRecord P b := funext (mergedAppendRecord_congr h)
    simp only [asAppendRecord, accepted_congr h, h, hm]
  · unfold asAppendRecord at h
    split_ifs at h
    obtain ⟨_, -, rfl⟩ := Option.map_eq_some_iff.mp h
    rfl
  · simp only [appendRecordOrder, compareLex_eq_iff, compareOn_eq_iff] at h
    exact h.2.2.2

theorem rejectedOf_perm : rejectedOf P authority logs = rejectedOf P authority logs' := by
  refine sortBy_filterMap_eq (·.entryHash) hp.flatten hcf (fun a b h => ?_) (fun e b h =>
    ?_) fun b b' h => ?_
  · have hm : rejectedEntry P a = rejectedEntry P b := funext (rejectedEntry_congr h)
    simp only [asRejected, accepted_congr h, h, hm, rejectionReason]
  · unfold asRejected at h
    split_ifs at h
    cases h
    rfl
  · simp only [rejectedOrder, compareLex_eq_iff, compareOn_eq_iff] at h
    exact h.2.2.2

theorem isMergeOf_perm (h : IsMergeOf P authority logs st) : IsMergeOf P authority logs' st where
  identity := h.identity
  winner path := by rw [h.winner, heads_perm hp hcf]
  conflicts path := by rw [h.conflicts, heads_perm hp hcf]
  append path := by rw [h.append, appendRecordsAt_perm hp hcf]
  rejected := by rw [h.rejected, rejectedOf_perm hp hcf]

theorem merge_ok_of_perm (h : mergeDeviceWriterLogs P authority logs = .ok st) :
    mergeDeviceWriterLogs P authority logs' = .ok st := by
  obtain ⟨hv, hh, hst⟩ := merge_eq_ok_iff.mp h
  refine merge_eq_ok_iff.mpr ⟨fun log hl => hv log (hp.mem_iff.mpr hl), fun path hc =>
    ?_, isMergeOf_perm hp hcf hst⟩
  rw [← heads_perm hp hcf]
  refine hh path fun hnil => hc ?_
  have hperm := hp.flatten.filterMap (asCandidate P authority path)
  exact nil_perm.mp (hnil ▸ hperm)

end

end

/-- **The order of the logs does not matter.** If no two supplied entries collide, two orders of the
same logs either both fail or both give the same state. -/
theorem merge_perm (hp : logs.Perm logs') (hcf : CollisionFree P logs.flatten) :
    (∃ st, mergeDeviceWriterLogs P authority logs = .ok st ∧
      mergeDeviceWriterLogs P authority logs' = .ok st) ∨
    (∃ fault, mergeDeviceWriterLogs P authority logs = .error fault) ∧
      ∃ fault', mergeDeviceWriterLogs P authority logs' = .error fault' := by
  cases h : mergeDeviceWriterLogs P authority logs with
  | ok st => exact .inl ⟨st, rfl, merge_ok_of_perm hp hcf h⟩
  | error fault =>
    cases h' : mergeDeviceWriterLogs P authority logs' with
    | ok st =>
      have := merge_ok_of_perm hp.symm (hcf.mono hp.flatten.symm.subset) h'
      rw [h] at this
      cases this
    | error fault' => exact .inr ⟨⟨fault, rfl⟩, fault', rfl⟩

theorem merge_perm_notes : CollisionFree primitives [[laptopNote], [phoneNote]].flatten ∧
    ((∃ st, mergeDeviceWriterLogs primitives twoDevices [[laptopNote], [phoneNote]] = .ok st ∧
        mergeDeviceWriterLogs primitives twoDevices [[phoneNote], [laptopNote]] = .ok st) ∨
      (∃ fault, mergeDeviceWriterLogs primitives twoDevices [[laptopNote], [phoneNote]] =
        .error fault) ∧
        ∃ fault', mergeDeviceWriterLogs primitives twoDevices [[phoneNote], [laptopNote]] =
          .error fault') := by
  have hcf : CollisionFree primitives [[laptopNote], [phoneNote]].flatten := by
    decide +kernel
  exact ⟨hcf, merge_perm (List.Perm.swap _ _ _) hcf⟩

end Jolt.Merge.Determinism

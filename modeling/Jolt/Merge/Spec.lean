import Jolt.Core.DeviceWriterLog

/-! # What a merge of device logs means

The merge stated without tables or loops. An entry is accepted if the authority lets its device
write at its sequence; the accepted singleton and tombstone entries at a path are its candidates. An
entry is superseded at a path if, in a supplied log, a later candidate at the path follows it, or a
candidate at the path names it as an observed head. The heads of a path are the candidates that are
not superseded, in ascending order of sequence, device and hash: the last is the winner, the others
are the conflicts.

Entries are known by their hash, as in the source, and an entry that is supplied more than once is
counted as often as it is supplied. -/

namespace Jolt.Merge.Spec

open Std Lib.Sorting Lib.Families Jolt.Core Jolt.Core.Types IdentityAuthority DeviceWriterLog

abbrev Logs := List (List DeviceWriterLogEntry)

/-- The device of the entry is known, and it is active or the entry is at or below its cutoff. -/
def Accepted (authority : VerifiedIdentityAuthority) (e : DeviceWriterLogEntry) : Prop :=
  ∃ device, authority.devices[e.body.deviceId]? = some device ∧ (device.status = .active ∨
      ∃ cutoff, device.acceptedThroughDeviceSequence = some cutoff ∧ e.body.deviceSequence ≤ cutoff)

theorem accepted_iff_deviceCanWrite {authority : VerifiedIdentityAuthority}
    {e : DeviceWriterLogEntry} :
    Accepted authority e ↔ authority.deviceCanWrite e.body.deviceId e.body.deviceSequence =
      true := by
  unfold Accepted VerifiedIdentityAuthority.deviceCanWrite
  cases hd : authority.devices[e.body.deviceId]? with
  | none => simp
  | some device =>
    cases hs : device.status with
    | active => simp [hs]
    | revoked => cases hc : device.acceptedThroughDeviceSequence <;> simp [hs, hc]

instance (authority : VerifiedIdentityAuthority) : DecidablePred (Accepted authority) :=
  fun _ => decidable_of_iff _ accepted_iff_deviceCanWrite.symm

/-- The state a singleton or tombstone operation gives to `path`. -/
def singletonAt (path : String) : DeviceWriterOperation → Option DeviceWriterPathState
  | .setPath p contentId .singleton => if p = path then some (.present contentId) else none
  | .setPath _ _ .append => none
  | .tombstonePath p => if p = path then some .tombstone else none

def appendAt (path : String) : DeviceWriterOperation → Option ContentId
  | .setPath p contentId .append => if p = path then some contentId else none
  | .setPath _ _ .singleton => none
  | .tombstonePath _ => none

section

variable (P : Primitives) (authority : VerifiedIdentityAuthority) (logs : Logs) (path : String)
  (e : DeviceWriterLogEntry)

/-- An accepted singleton or tombstone entry at `path`. -/
def Candidate : Prop := Accepted authority e ∧ (singletonAt path e.body.operation).isSome

instance (path : String) : DecidablePred (Candidate authority path) := fun _ => inferInstanceAs
    (Decidable (_ ∧ _))

def asCandidate : Option MergedDeviceWriterEntry :=
  if Accepted authority e then (singletonAt path e.body.operation).map (mergedEntry P e) else none

def asAppendRecord : Option MergedAppendRecord :=
  if Accepted authority e then (appendAt path e.body.operation).map
    (mergedAppendRecord P e) else none

def rejectionReason : DeviceWriterRejectionReason :=
  match authority.devices[e.body.deviceId]? with
  | none => .unknownDevice
  | some _ => .revokedDevice

def asRejected : Option RejectedDeviceWriterEntry :=
  if Accepted authority e then none else some (rejectedEntry P e (rejectionReason authority e))

/-- **Supersession.** An entry with hash `h` is followed in a supplied log by another candidate at
`path`, or a candidate at `path` names `h` among its observed heads. -/
def Superseded (h : DeviceWriterLogEntryHash) : Prop :=
  (∃ log ∈ logs, ∃ e f, [e, f].Sublist log ∧ Candidate authority path e ∧
    Candidate authority path f ∧ e.entryHash P = h) ∨
  ∃ log ∈ logs, ∃ f ∈ log, Candidate authority path f ∧ h ∈ f.body.observedHeads

/-- The candidates of `path`, in the order they are supplied. -/
def candidatesAt : List MergedDeviceWriterEntry := logs.flatten.filterMap
    (asCandidate P authority path)

open scoped Classical in
/-- The heads of `path`: the candidates that are not superseded, in ascending order. -/
noncomputable def heads (logs : Logs) (path : String) : List MergedDeviceWriterEntry :=
  sortBy entryOrder ((candidatesAt P authority logs path).filter fun c =>
      ¬ Superseded P authority logs path c.entryHash)

def appendRecordsAt : List MergedAppendRecord :=
  sortBy appendRecordOrder (logs.flatten.filterMap (asAppendRecord P authority path))

def rejectedOf : List RejectedDeviceWriterEntry :=
  sortBy (rejectedOrder P) (logs.flatten.filterMap (asRejected P authority))

/-- **The declarative state.** `st` is what the supplied logs mean under the authority. -/
structure IsMergeOf (logs : Logs) (st : MergedDeviceIdentityState) : Prop where
  identity : st.identity = authority.identity
  winner : ∀ path, st.singletonPaths[path]? = (heads P authority logs path).getLast?
  conflicts : ∀ path, st.singletonConflicts[path]? = row (heads P authority logs path).dropLast
  append : ∀ path, st.appendRecords[path]? = row (appendRecordsAt P authority logs path)
  rejected : st.rejectedEntries = rejectedOf P authority logs

end

variable {P : Primitives} {authority : VerifiedIdentityAuthority} {logs : Logs} {path : String}
  {c : MergedDeviceWriterEntry} {e : DeviceWriterLogEntry}

theorem IsMergeOf.ext {st st' : MergedDeviceIdentityState} (h : IsMergeOf P authority logs st)
    (h' : IsMergeOf P authority logs st') : st = st' := by
  have hw : st.singletonPaths = st'.singletonPaths :=
    ExtTreeMap.ext_getElem? fun k => (h.winner k).trans (h'.winner k).symm
  have hc : st.singletonConflicts = st'.singletonConflicts := Holds.ext h.conflicts h'.conflicts
  have ha : st.appendRecords = st'.appendRecords := Holds.ext h.append h'.append
  have hi := h.identity.trans h'.identity.symm
  have hr := h.rejected.trans h'.rejected.symm
  cases st; cases st'
  simp_all only

theorem mem_candidatesAt : c ∈ candidatesAt P authority logs path ↔
      ∃ log ∈ logs, ∃ e ∈ log, asCandidate P authority path e = some c := by
  simp only [candidatesAt, List.mem_filterMap, List.mem_flatten]
  constructor
  · rintro ⟨e, ⟨log, hl, he⟩, h⟩; exact ⟨log, hl, e, he, h⟩
  · rintro ⟨log, hl, e, he, h⟩; exact ⟨e, ⟨log, hl, he⟩, h⟩

theorem mem_heads : c ∈ heads P authority logs path ↔
      c ∈ candidatesAt P authority logs path ∧ ¬ Superseded P authority logs path c.entryHash := by
        simp [heads]

theorem asCandidate_eq_some : asCandidate P authority path e = some c ↔ Accepted authority e ∧
      ∃ state, singletonAt path e.body.operation = some state ∧ mergedEntry P e state = c := by
  unfold asCandidate
  split_ifs with h <;> simp [h]

theorem candidate_of_asCandidate (h : asCandidate P authority path e = some c) :
    Candidate authority path e ∧ c.entryHash = e.entryHash P := by
  obtain ⟨ha, state, hs, rfl⟩ := asCandidate_eq_some.mp h
  exact ⟨⟨ha, by simp [hs]⟩, rfl⟩

theorem Candidate.exists_asCandidate (h : Candidate authority path e) :
    ∃ c, asCandidate P authority path e = some c := by
  obtain ⟨ha, hs⟩ := h
  obtain ⟨state, hs⟩ := Option.isSome_iff_exists.mp hs
  exact ⟨mergedEntry P e state, asCandidate_eq_some.mpr ⟨ha, state, hs, rfl⟩⟩

end Jolt.Merge.Spec

import Jolt.Lib.Reachability
import Jolt.Merge.Causality
import Jolt.Publishing.Writing

/-! # The common base of conflicting heads

A conflict at a path is shown with the entry all its heads go back to (`inventory.rs`). The
ancestors of a head are found by a search along the references of the entries, to the previous entry
of the device and to the heads it observed; a reference may lead to an entry that is not known. Of
the entries at the path that are ancestors of all heads, the base is the only one that no other goes
back to. This is the one all the others are ancestors of (`localRecordCommonBase_iff`). -/

namespace Jolt.Publishing.CommonBase

open Relation Lib.Reachability Jolt.Core Jolt.Core.Types DeviceWriterLog Merge.Causality
  Network.DeviceWriterCache Writing List Option
open Sample (content laptopNote owner phoneNote primitives tabletNote)

variable (P : Primitives)

/-! ### Ancestors -/

def entryParentHashes (entry : DeviceWriterLogEntry) : List DeviceWriterLogEntryHash :=
  entry.body.previousEntryHash.toList ++ entry.body.observedHeads

/-- What the map collected from the entries holds: of two entries with one hash, the later one. -/
def entryAt (entries : List DeviceWriterLogEntry) (hash : DeviceWriterLogEntryHash) :
    Option DeviceWriterLogEntry :=
  entries.reverse.find? (·.entryHash P = hash)

variable {P} {entries : List DeviceWriterLogEntry} {entry : DeviceWriterLogEntry}
  {head revision : DeviceWriterLogEntryHash} {path : String}

theorem mem_of_entryAt (h : entryAt P entries revision = some entry) :
    entry ∈ entries ∧ entry.entryHash P = revision := by
  have hhash := find?_some h
  exact ⟨mem_reverse.mp (mem_of_find?_eq_some h), by simpa using hhash⟩

variable (P)

/-- From each hash to the parents of its entry; from the hash of no entry, to nothing. -/
def references (entries : List DeviceWriterLogEntry) : Graph DeviceWriterLogEntryHash where
  next hash := ((entryAt P entries hash).map entryParentHashes).getD []
  nodes := entries.flatMap entryParentHashes
  next_subset hash := by
    cases h : entryAt P entries hash with
    | none => simp
    | some entry =>
      exact fun parent hparent => mem_flatMap.mpr ⟨entry, (mem_of_entryAt h).1, hparent⟩

/-- The loop pops what it looks at from the end of `pending`, so the last parent comes first. -/
def ancestorHashes (head : DeviceWriterLogEntryHash) (entries : List DeviceWriterLogEntry) :
    List DeviceWriterLogEntryHash :=
  (references P entries).visit [] ((references P entries).push head [])

/-- To be an ancestor: what references lead to. -/
def Ancestor (entries : List DeviceWriterLogEntry) (head revision : DeviceWriterLogEntryHash) :
    Prop :=
  TransGen (references P entries).Edge head revision

variable {P} {logs : List (List DeviceWriterLogEntry)}

theorem mem_ancestorHashes : revision ∈ ancestorHashes P head entries ↔
    Ancestor P entries head revision := by
  rw [ancestorHashes, mem_visit_iff, Ancestor, TransGen.head'_iff]
  simp [Graph.push, Graph.Edge]

theorem refers_of_edge (h : (references P logs.flatten).Edge head revision) :
    Refers P logs head revision := by
  unfold Graph.Edge references at h
  cases hentry : entryAt P logs.flatten head with
  | none => simp [hentry] at h
  | some entry =>
    obtain ⟨hmem, hhash⟩ := mem_of_entryAt hentry
    obtain ⟨log, hlog, hmem⟩ := mem_flatten.mp hmem
    exact ⟨log, hlog, entry, hmem, hhash, by simpa [hentry, entryParentHashes] using h⟩

theorem isStrictOrder_ancestor (hacyc : Acyclic P logs) :
    IsStrictOrder DeviceWriterLogEntryHash (Ancestor P logs.flatten) where
  irrefl hash h := hacyc hash (TransGen.mono (fun _ _ => refers_of_edge) hash hash h)
  trans _ _ _ := TransGen.trans

/-! ### The base -/

variable (P)

def entryIsSingletonPath (entry : DeviceWriterLogEntry) (path : String) : Bool :=
  match entry.body.operation with
  | .setPath entryPath _ .singleton => entryPath = path
  | .tombstonePath entryPath => entryPath = path
  | .setPath _ _ .append => false

def localRecordHeadFromEntry (entry : DeviceWriterLogEntry) (path : String) :
    Option LocalRecordHead :=
  let revision := (entry.entryHash P).toHex
  match entry.body.operation with
  | .setPath entryPath contentId .singleton =>
    if entryPath = path then some (.present ⟨path, P.contentIdToString contentId, revision⟩)
      else none
  | .tombstonePath entryPath => if entryPath = path then some (.deleted revision) else none
  | .setPath _ _ .append => none

def commonAncestors (entries : List DeviceWriterLogEntry) (first : MergedDeviceWriterEntry)
    (rest : List MergedDeviceWriterEntry) : List DeviceWriterLogEntryHash :=
  rest.foldl (fun common head => common.filter (· ∈ ancestorHashes P head.entryHash entries))
    (ancestorHashes P first.entryHash entries)

def candidates (entries : List DeviceWriterLogEntry) (path : String)
    (common : List DeviceWriterLogEntryHash) :
    List DeviceWriterLogEntryHash :=
  common.filter fun revision => (entryAt P entries revision).any (entryIsSingletonPath · path)

/-- The candidates that are no ancestor of another one. -/
def latest (entries : List DeviceWriterLogEntry) (candidates : List DeviceWriterLogEntryHash) :
    List DeviceWriterLogEntryHash :=
  candidates.filter fun candidate =>
    !candidates.any fun other => other ≠ candidate && candidate ∈ ancestorHashes P other entries

def knownEntries (iteration : Iteration) (state : CachedDeviceWriterState) :
    List DeviceWriterLogEntry :=
  (iteration.values state.deviceLogs).flatten

/-- The sets of hashes of the source are lists without duplicates here. What is returned does not
depend on their order. -/
def localRecordCommonBase (iteration : Iteration) (state : CachedDeviceWriterState) (path : String)
    (heads : List MergedDeviceWriterEntry) : Option LocalRecordHead :=
  match heads with
  | first :: second :: rest =>
    let entries := knownEntries iteration state
    let common := commonAncestors P entries first (second :: rest)
    match latest P entries (candidates P entries path common) with
    | [revision] => (entryAt P entries revision).bind (localRecordHeadFromEntry P · path)
    | _ => none
  | _ => none

/-- A revision at the path that all the heads go back to. -/
def CommonRevision (entries : List DeviceWriterLogEntry) (path : String)
    (heads : List MergedDeviceWriterEntry) (revision : DeviceWriterLogEntryHash) : Prop :=
  (∀ head ∈ heads, Ancestor P entries head.entryHash revision) ∧
    ∃ entry, entryAt P entries revision = some entry ∧ entryIsSingletonPath entry path

def shownHead (path : String) (entry : DeviceWriterLogEntry) : LocalRecordHead :=
  match entry.body.operation with
  | .setPath _ contentId _ =>
      .present ⟨path, P.contentIdToString contentId, (entry.entryHash P).toHex⟩
  | .tombstonePath _ => .deleted (entry.entryHash P).toHex

variable {P} {first : MergedDeviceWriterEntry} {rest : List MergedDeviceWriterEntry}

theorem localRecordHeadFromEntry_eq (h : entryIsSingletonPath entry path) :
    localRecordHeadFromEntry P entry path = some (shownHead P path entry) := by
  unfold entryIsSingletonPath at h
  unfold localRecordHeadFromEntry shownHead
  split at h <;> simp_all

theorem nodup_commonAncestors (entries : List DeviceWriterLogEntry)
    (first : MergedDeviceWriterEntry) (rest : List MergedDeviceWriterEntry) :
    (commonAncestors P entries first rest).Nodup := by
  have hfold : ∀ common : List DeviceWriterLogEntryHash, common.Nodup →
    (rest.foldl (fun common head =>
      common.filter (· ∈ ancestorHashes P head.entryHash entries)) common).Nodup := by
    induction rest with
    | nil => exact fun _ h => h
    | cons head rest ih => exact fun common h => ih _ (h.filter _)
  exact hfold _ (nodup_visit nodup_nil)

theorem mem_commonAncestors : revision ∈ commonAncestors P entries first rest ↔
    ∀ head ∈ first :: rest, Ancestor P entries head.entryHash revision := by
  have hfold : ∀ common : List DeviceWriterLogEntryHash, revision ∈ rest.foldl (fun common head =>
      common.filter (· ∈ ancestorHashes P head.entryHash entries)) common ↔
        revision ∈ common ∧ ∀ head ∈ rest, Ancestor P entries head.entryHash revision := by
    induction rest with
    | nil => simp
    | cons head rest ih =>
      intro common
      rw [foldl_cons, ih, mem_filter, forall_mem_cons, and_assoc, decide_eq_true_eq,
        mem_ancestorHashes]
  rw [commonAncestors, hfold, forall_mem_cons, mem_ancestorHashes]

theorem mem_candidates : revision ∈ candidates P entries path
    (commonAncestors P entries first rest) ↔
    CommonRevision P entries path (first :: rest) revision := by
  rw [candidates, List.mem_filter, mem_commonAncestors, CommonRevision, Option.any_eq_true]

theorem latest_eq_singleton_iff [IsStrictOrder _ (Ancestor P entries)]
    {l : List DeviceWriterLogEntryHash} (hnodup : l.Nodup) : latest P entries l = [revision] ↔
      revision ∈ l ∧ ∀ other ∈ l, other ≠ revision → Ancestor P entries revision other := by
  have hmem : ∀ b, b ∈ latest P entries l ↔ b ∈ l ∧ ∀ c ∈ l, ¬ Ancestor P entries c b := by
    intro b
    rw [latest, List.mem_filter, Bool.not_eq_true', List.any_eq_false]
    refine and_congr_right fun _ => forall₂_congr fun c _ => ?_
    rw [Bool.and_eq_true, decide_eq_true_eq, decide_eq_true_eq, mem_ancestorHashes]
    refine not_congr (and_iff_right_of_imp ?_)
    rintro hcb rfl
    exact irrefl_of (Ancestor P entries) c hcb
  rw [← greatest_iff]
  simp only [← hmem]
  constructor
  · rintro heq b
    rw [heq, mem_singleton]
  · intro h
    have hnodup : (latest P entries l).Nodup := hnodup.filter _
    refine perm_singleton.mp ((perm_ext_iff_of_nodup hnodup (nodup_singleton _)).mpr fun b => ?_)
    rw [h, mem_singleton]

theorem latest_candidates_iff [IsStrictOrder _ (Ancestor P entries)] :
    latest P entries (candidates P entries path (commonAncestors P entries first rest)) =
      [revision] ↔
      CommonRevision P entries path (first :: rest) revision ∧
        ∀ other, CommonRevision P entries path (first :: rest) other → other ≠ revision →
          Ancestor P entries revision other := by
  have hnodup : (candidates P entries path (commonAncestors P entries first rest)).Nodup :=
    (nodup_commonAncestors entries first rest).filter _
  rw [latest_eq_singleton_iff hnodup]
  simp only [mem_candidates]

/-- **The base is the common revision all the others are ancestors of.** The search ends with the
ancestors whatever the entries refer to. If no entry goes back to itself, a base is returned if and
only if there is such a revision. -/
theorem localRecordCommonBase_iff (P : Primitives) (iteration : Iteration)
    (state : CachedDeviceWriterState) (path : String) (heads : List MergedDeviceWriterEntry) :
    (∀ head entries revision, revision ∈ ancestorHashes P head entries ↔
      Ancestor P entries head revision) ∧
      (Acyclic P (iteration.values state.deviceLogs) → ∀ base,
        localRecordCommonBase P iteration state path heads = some base ↔
          2 ≤ heads.length ∧ ∃ revision entry, CommonRevision P
            (knownEntries iteration state) path heads revision ∧
            (∀ other, CommonRevision P (knownEntries iteration state) path heads other →
              other ≠ revision →
              Ancestor P (knownEntries iteration state) revision other) ∧
            entryAt P (knownEntries iteration state) revision = some entry ∧
              base = shownHead P path entry) := by
  refine ⟨fun _ _ _ => mem_ancestorHashes, fun hacyc base => ?_⟩
  have : IsStrictOrder _ (Ancestor P (knownEntries iteration state)) := isStrictOrder_ancestor hacyc
  match heads with
  | [] => simp [localRecordCommonBase]
  | [_] => simp [localRecordCommonBase]
  | first :: second :: rest =>
    rw [localRecordCommonBase]
    constructor
    · intro h
      split at h
      next revision heq =>
        obtain ⟨hcommon, hall⟩ := latest_candidates_iff.mp heq
        obtain ⟨entry, hentry, hpath⟩ := hcommon.2
        rw [hentry, bind_some, localRecordHeadFromEntry_eq hpath, some_inj] at h
        exact ⟨by simp, revision, entry, hcommon, hall, hentry, h.symm⟩
      next => simp at h
    · rintro ⟨-, revision, entry, hcommon, hall, hentry, rfl⟩
      obtain ⟨entry', hentry', hpath⟩ := hcommon.2
      obtain rfl : entry' = entry := some_inj.mp (hentry'.symm.trans hentry)
      simp only [latest_candidates_iff.mpr ⟨hcommon, hall⟩]
      rw [hentry, bind_some, localRecordHeadFromEntry_eq hpath]

/-- The phone and the tablet have both replaced the laptop's note. -/
def threeNotes : CachedDeviceWriterState :=
  { authoritySequence := 3
    merged := ⟨owner, ∅, ∅, ∅, []⟩
    lastVerifiedAt := 0
    sourcePeer := none
    authorityRecords := []
    deviceLogs := .ofList [("laptop", [laptopNote]), ("phone", [phoneNote]),
      ("tablet", [tabletNote])] }

def replacements : List MergedDeviceWriterEntry :=
  [mergedEntry primitives phoneNote (.present (content 2)), mergedEntry primitives tabletNote
    (.present (content 3))]

/-- Its base is the laptop's note. -/
theorem base_of_two_replacements :
    Acyclic primitives ((default : Iteration).values threeNotes.deviceLogs) ∧
      localRecordCommonBase primitives default threeNotes "/note" replacements =
        some (shownHead primitives "/note" laptopNote) := by
  have hacyc : Acyclic primitives ((default : Iteration).values threeNotes.deviceLogs) :=
    acyclic_of_rank (fun h => if h = laptopNote.entryHash primitives then 0 else 1)
      (by decide +kernel)
  have hentries : knownEntries default threeNotes = [laptopNote, phoneNote, tabletNote] := by
    decide +kernel
  obtain ⟨-, hbase⟩ := localRecordCommonBase_iff primitives default threeNotes "/note" replacements
  refine ⟨hacyc, (hbase hacyc _).mpr ⟨by decide, laptopNote.entryHash primitives, laptopNote, ?_⟩⟩
  rw [hentries]
  refine ⟨⟨?_, laptopNote, by decide +kernel, by decide +kernel⟩, ?_, by decide +kernel, rfl⟩
  · have hedge : ∀ head ∈ replacements, laptopNote.entryHash primitives ∈ (references primitives
        [laptopNote, phoneNote, tabletNote]).next head.entryHash := by decide +kernel
    exact fun head hhead => TransGen.single (hedge head hhead)
  · rintro other ⟨hancestors, -⟩ hne
    -- the phone's note refers to the laptop's only, which refers to nothing
    have hphone : (references primitives [laptopNote, phoneNote, tabletNote]).next
        (phoneNote.entryHash primitives) = [laptopNote.entryHash primitives] := by
      decide +kernel
    have hlaptop : (references primitives [laptopNote, phoneNote, tabletNote]).next
        (laptopNote.entryHash primitives) = [] := by decide +kernel
    obtain ⟨first, hfirst, hreach⟩ := TransGen.head'_iff.mp (hancestors _ mem_cons_self)
    obtain rfl : first = laptopNote.entryHash primitives := by
      simpa [Graph.Edge, mergedEntry, hphone] using hfirst
    rcases hreach.cases_head with rfl | ⟨next, hnext, -⟩
    · exact absurd rfl hne
    · simp [Graph.Edge, hlaptop] at hnext

end Jolt.Publishing.CommonBase

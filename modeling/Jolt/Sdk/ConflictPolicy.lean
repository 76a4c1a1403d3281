import Jolt.Sdk.Items

/-! # Conflict policies

What reading a record with conflicting heads gives (`FollowsPolicy`). The conflict is left to the
app only if the policy for this kind of conflict is the manual one; the record is deleted exactly if
all heads are deletions, or some are and deletions win; and otherwise the updates are merged or,
without a base that is present, the last one wins.

This holds of a record that has a head, as every record that is received does, if the merge can tell
the changes of its heads (`readItem_followsPolicy`); then reading fails only if the value of the
base or of a head is not of the class. A field `__proto__` that a head adds makes it fail
(`conflict_not_read`). -/

namespace Jolt.Sdk.ConflictPolicy

open Lib Checks Values Schemas Sdk.Merge ConcurrentUpdates Items List

/-! ### The policy -/

section

variable (isoTime : String → Option ℤ) (classes : SchemaClasses) (resource : ResourceDefinition)
  (record : BackendConflictRecord)

def Mixed : Prop := deletedAlternatives record ≠ [] ∧ presentAlternatives record ≠ []

def HasPresentBase : Prop := ∃ head, record.base = some (.present head)

/-- The base and the present alternatives in the present version. -/
def Migrates (base : Value) (values : List Value) : Prop :=
  ∃ head stored parsed results, record.base = some (.present head) ∧
    migratedStoredValue isoTime classes resource.schema head.stored = .ok (stored, parsed) ∧
    (presentAlternatives record).mapM (fun alternative =>
      migratedStoredValue isoTime classes resource.schema alternative.stored) = .ok results ∧
    base = stored.value ∧ values = results.map (·.1.value)

/-- Two updates disagree on a field, or there is no base to compare them with. -/
def UpdatesConflict : Prop :=
  (¬ HasPresentBase record ∧ 2 ≤ (presentAlternatives record).length) ∨
    ∃ base values, Migrates isoTime classes resource record base values ∧
      ThreeWay.Conflict meant (fields base) (values.map fields)

/-- The policy for a conflict of the record is the manual one. -/
def ManualConflict : Prop :=
  (Mixed record ∧ resource.conflicts.delete = .manual) ∨
    (UpdatesConflict isoTime classes resource record ∧ resource.conflicts.update = .manual)

/-- All alternatives are deletions, or some are and deletions win. -/
def DeletionWins : Prop :=
  (record.alternatives ≠ [] ∧ presentAlternatives record = []) ∨
    (Mixed record ∧ resource.conflicts.delete = .deleteWins)

def Shows (stored : StoredSchemaValue) (item : Item) : Prop :=
  ∃ migrated value revision observedRevisions,
    migratedStoredValue isoTime classes resource.schema stored = .ok (migrated, value) ∧
    item = .present migrated value revision observedRevisions

/-- The item shows the three-way merge of the present alternatives. -/
def ShowsMerge (item : Item) : Prop :=
  ∃ base values merged, Migrates isoTime classes resource record base values ∧
    IsThreeWayMerge isoTime classes resource.schema record (presentAlternatives record) base values
      merged ∧
    Shows isoTime classes resource merged.record.stored item

/-- There is no base, and the item shows the last present alternative. -/
def ShowsLast (item : Item) : Prop :=
  ¬ HasPresentBase record ∧ ∃ winner, (presentAlternatives record).getLast? = some winner ∧
    Shows isoTime classes resource winner.stored item

/-- The value of the base or of a present alternative is not of the class. -/
def Unreadable (e : DataError) : Prop :=
  ∃ head, (record.base = some (.present head) ∨ head ∈ presentAlternatives record) ∧
    migratedStoredValue isoTime classes resource.schema head.stored = .error e

/-- The merge can tell the changes of the present alternatives. -/
def ChangesAreTold : Prop :=
  ∀ base values, Migrates isoTime classes resource record base values → ChangesTold base values

/-- What reading a record with conflicting heads gives. -/
structure FollowsPolicy (result : Except DataError Item) : Prop where
  conflicted : ∀ alternatives kept isMutable, result = .ok
    (.conflicted alternatives kept isMutable) →
    ManualConflict isoTime classes resource record
  deleted : (∃ context, result = .ok (.deleted context)) ↔ DeletionWins resource record
  present : ∀ item, result = .ok item →
    (∃ alternatives kept isMutable, item = .conflicted alternatives kept isMutable) ∨
    (∃ context, item = .deleted context) ∨
    ShowsMerge isoTime classes resource record item ∨ ShowsLast isoTime classes resource record item
  fails : ∀ e, result = .error e → Unreadable isoTime classes resource record e

end

variable {isoTime : String → Option ℤ} {classes : SchemaClasses} {resource : ResourceDefinition}
  {record : BackendConflictRecord} {isMutable : Bool} {item : Item} {e : DataError}
  {stored : BackendPresentRecord} {kept : BackendConflictRecord}

/-! ### Heads -/

theorem alternatives_eq_nil_iff :
    record.alternatives = [] ↔ deletedAlternatives record = [] ∧
      presentAlternatives record = [] := by
  unfold deletedAlternatives presentAlternatives
  constructor
  · intro h
    rw [h]
    exact ⟨rfl, rfl⟩
  · rintro ⟨hdeleted, hpresent⟩
    rw [filterMap_eq_nil_iff] at hdeleted hpresent
    refine eq_nil_iff_forall_not_mem.mpr fun alternative hmem => ?_
    cases alternative with
    | present head => simpa using hpresent _ hmem
    | deleted revision => simpa using hdeleted _ hmem

theorem mem_presentAlternatives {head : PresentHead} :
    head ∈ presentAlternatives record ↔ .present head ∈ record.alternatives := by
  unfold presentAlternatives
  rw [mem_filterMap]
  constructor
  · rintro ⟨alternative, hmem, halternative⟩
    cases alternative with
    | present head' =>
      cases halternative
      exact hmem
    | deleted revision => cases halternative
  · exact fun hmem => ⟨_, hmem, rfl⟩

theorem mem_presentOnlyConflict {head : PresentHead}
    (h : .present head ∈ (presentOnlyConflict record (presentAlternatives record)).alternatives) :
    head ∈ presentAlternatives record := by
  unfold presentOnlyConflict at h
  split_ifs at h
  · exact mem_presentAlternatives.mpr h
  · simpa using h

/-! ### The parts of reading -/

theorem presentItem_eq_ok (h : presentItem isoTime classes resource stored isMutable = .ok item) :
    Shows isoTime classes resource stored.stored item := by
  simp only [presentItem, bind_eq_ok, pure_eq_ok] at h
  obtain ⟨migrated, hmigrated, rfl⟩ := h
  exact ⟨migrated.1, migrated.2, _, _, hmigrated, rfl⟩

theorem presentItem_eq_error
    (h : presentItem isoTime classes resource stored isMutable = .error e) :
    migratedStoredValue isoTime classes resource.schema stored.stored = .error e := by
  obtain h | ⟨migrated, -, h⟩ := bind_eq_error.mp h
  · exact h
  · exact absurd h pure_ne_error

theorem conflictItem_eq_ok (h : conflictItem isoTime classes resource kept isMutable = .ok item) :
    ∃ alternatives, item = .conflicted alternatives kept isMutable := by
  simp only [conflictItem, bind_eq_ok, pure_eq_ok] at h
  obtain ⟨alternatives, -, rfl⟩ := h
  exact ⟨alternatives, rfl⟩

theorem conflictItem_eq_error
    (h : conflictItem isoTime classes resource kept isMutable = .error e) :
    ∃ head, .present head ∈ kept.alternatives ∧
      migratedStoredValue isoTime classes resource.schema head.stored = .error e := by
  obtain h | ⟨alternatives, -, h⟩ := bind_eq_error.mp h
  · obtain ⟨alternative, hmem, halternative⟩ := mem_of_mapM_eq_error h
    cases alternative with
    | deleted revision => exact absurd halternative pure_ne_error
    | present head =>
      obtain hhead | ⟨migrated, -, h⟩ := bind_eq_error.mp halternative
      · exact ⟨head, hmem, hhead⟩
      · exact absurd h pure_ne_error
  · exact absurd h pure_ne_error

/-! ### The merge of the present alternatives -/

theorem merge_eq_ok_none (h : mergeConcurrentPresentUpdates isoTime classes resource.schema record
      (presentAlternatives record) = .ok none) : ¬ HasPresentBase record ∨
        presentAlternatives record = [] := by
  rw [or_iff_not_imp_left, not_not]
  rintro ⟨head, hbase⟩
  by_contra hne
  rw [mergeConcurrentPresentUpdates_of_base hbase hne] at h
  simp only [bind_eq_ok, pure_eq_ok] at h
  obtain ⟨_, -, _, -, hnone⟩ := h
  cases hnone

theorem exists_base_of_merge {result : Except DataError (Option Merged)} (hne : result ≠ .ok none)
    (h : mergeConcurrentPresentUpdates isoTime classes resource.schema record
      (presentAlternatives record) = result) :
    ∃ head, record.base = some (.present head) ∧ presentAlternatives record ≠ [] := by
  unfold mergeConcurrentPresentUpdates at h
  split at h
  next head first rest hbase hpresent => exact ⟨head, hbase, by simp [hpresent]⟩
  next => exact absurd h.symm hne

theorem merge_eq_ok_some {merged : Merged}
    (h : mergeConcurrentPresentUpdates isoTime classes resource.schema record
      (presentAlternatives record) = .ok (some merged)) :
    ∃ base values, Migrates isoTime classes resource record base values ∧
      (ChangesTold base values → IsThreeWayMerge isoTime classes resource.schema record
        (presentAlternatives record) base values merged) ∧
      (merged.hasFieldConflict = true → ThreeWay.Conflict meant (fields base) (values.map fields)) ∧
      ∀ e, migratedStoredValue isoTime classes resource.schema merged.record.stored = .error e →
        ¬ KeepsPrototype base values := by
  obtain ⟨head, hbase, hne⟩ := exists_base_of_merge (by simp) h
  rw [mergeConcurrentPresentUpdates_of_base hbase hne] at h
  simp only [bind_eq_ok, pure_eq_ok, Option.some.injEq] at h
  obtain ⟨⟨stored, parsed⟩, hhead, results, hresults, rfl⟩ := h
  refine ⟨stored.value, results.map (·.1.value), ⟨head, stored, parsed, results, hbase,
    hhead, hresults,
    rfl, rfl⟩, ChangesTold.isThreeWayMerge hbase hne hhead hresults, fun hflag =>
      ?_, fun e he hkeeps => ?_⟩
  · have hfound := (found_alternatives stored.value (results.map (·.1.value))).2
    exact (hfound.mp hflag).of_coarser seen_eq_of_meant_eq
  · obtain ⟨-, -, options, hoptions, hversion, hpositive⟩ := migratedStoredValue_eq_ok hhead
    obtain ⟨parsed', hparsed'⟩ := exists_parse_mergedRecord record hhead hresults hkeeps
    have hmigrated := migratedStoredValue_of_parse hoptions hpositive (by exact hversion) hparsed'
    cases he.symm.trans hmigrated

theorem merge_eq_error (h : mergeConcurrentPresentUpdates isoTime classes resource.schema record
      (presentAlternatives record) = .error e) :
    ∃ head, (record.base = some (.present head) ∨ head ∈ presentAlternatives record) ∧
      migratedStoredValue isoTime classes resource.schema head.stored = .error e := by
  obtain ⟨head, hbase, hne⟩ := exists_base_of_merge (by simp) h
  rw [mergeConcurrentPresentUpdates_of_base hbase hne] at h
  obtain hhead | ⟨base, -, h⟩ := bind_eq_error.mp h
  · exact ⟨head, .inl hbase, hhead⟩
  · obtain hresults | ⟨results, -, h⟩ := bind_eq_error.mp h
    · obtain ⟨alternative, hmem, halternative⟩ := mem_of_mapM_eq_error hresults
      exact ⟨alternative, .inr hmem, halternative⟩
    · exact absurd h pure_ne_error

/-! ### Updates -/

/-- What reading the updates of a conflict gives; a merge is three-way as far as changes are
told. -/
theorem readUpdates_cases
    (h : readUpdates isoTime classes resource record isMutable = .ok item) :
    ((∃ alternatives kept isMutable, item = .conflicted alternatives kept isMutable) ∧
      UpdatesConflict isoTime classes resource record ∧ resource.conflicts.update = .manual) ∨
    (∃ base values merged, Migrates isoTime classes resource record base values ∧
      (ChangesTold base values → IsThreeWayMerge isoTime classes resource.schema record
        (presentAlternatives record) base values merged) ∧
      Shows isoTime classes resource merged.record.stored item) ∨
    ShowsLast isoTime classes resource record item := by
  simp only [readUpdates, bind_eq_ok] at h
  obtain ⟨_ | merged, hmerge, h⟩ := h
  · simp only at h
    split_ifs at h with hmanual
    · obtain ⟨alternatives, hitem⟩ := conflictItem_eq_ok h
      have hbase := (merge_eq_ok_none hmerge).resolve_right fun hnil => by simp [hnil] at hmanual
      exact .inl ⟨⟨alternatives, _, _, hitem⟩, .inl ⟨hbase, hmanual.1⟩, hmanual.2⟩
    · cases hlast : (presentAlternatives record).getLast? with
      | none => simp [hlast] at h
      | some winner =>
        rw [hlast] at h
        have hbase := (merge_eq_ok_none hmerge).resolve_right fun hnil => by simp [hnil] at hlast
        exact .inr (.inr ⟨hbase, winner, hlast, presentItem_eq_ok h⟩)
  · obtain ⟨base, values, hmigrates, hmerged, hflag, -⟩ := merge_eq_ok_some hmerge
    simp only at h
    split_ifs at h with hmanual
    · obtain ⟨alternatives, hitem⟩ := conflictItem_eq_ok h
      exact .inl ⟨⟨alternatives, _, _, hitem⟩, .inr ⟨base, values, hmigrates, hflag hmanual.1⟩,
        hmanual.2⟩
    · exact .inr (.inl ⟨base, values, merged, hmigrates, hmerged, presentItem_eq_ok h⟩)

section

variable (htold : ChangesAreTold isoTime classes resource record)
include htold

theorem readUpdates_eq_ok
    (h : readUpdates isoTime classes resource record isMutable = .ok item) :
    ((∃ alternatives kept isMutable, item = .conflicted alternatives kept isMutable) ∧
      UpdatesConflict isoTime classes resource record ∧ resource.conflicts.update = .manual) ∨
    ShowsMerge isoTime classes resource record item ∨
      ShowsLast isoTime classes resource record item := by
  obtain hconflict | ⟨base, values, merged, hmigrates, hmerged, hshows⟩ | hlast :=
    readUpdates_cases h
  · exact .inl hconflict
  · exact .inr (.inl ⟨base, values, merged, hmigrates, hmerged (htold base values hmigrates),
      hshows⟩)
  · exact .inr (.inr hlast)

theorem readUpdates_eq_error
    (h : readUpdates isoTime classes resource record isMutable = .error e) :
    (presentAlternatives record = [] ∧ e = .conflict) ∨
      Unreadable isoTime classes resource record e := by
  have hkept : ∀ {head : PresentHead},
      .present head ∈ (presentOnlyConflict record (presentAlternatives record)).alternatives →
      migratedStoredValue isoTime classes resource.schema head.stored = .error e →
      Unreadable isoTime classes resource record e := fun hmem hhead =>
    ⟨_, .inr (mem_presentOnlyConflict hmem), hhead⟩
  obtain hmerge | ⟨_ | merged, hmerge, h⟩ := bind_eq_error.mp h
  · exact .inr (merge_eq_error hmerge)
  · simp only at h
    split_ifs at h with hmanual
    · obtain ⟨head, hmem, hhead⟩ := conflictItem_eq_error h
      exact .inr (hkept hmem hhead)
    · cases hlast : (presentAlternatives record).getLast? with
      | none =>
        rw [hlast] at h
        cases h
        exact .inl ⟨getLast?_eq_none_iff.mp hlast, rfl⟩
      | some winner =>
        rw [hlast] at h
        exact .inr ⟨winner, .inr (mem_of_getLast? hlast), presentItem_eq_error h⟩
  · obtain ⟨base, values, hmigrates, -, -, hunreadable⟩ := merge_eq_ok_some hmerge
    simp only at h
    split_ifs at h with hmanual
    · obtain ⟨head, hmem, hhead⟩ := conflictItem_eq_error h
      exact .inr (hkept hmem hhead)
    · have hkeeps := (htold base values hmigrates).prototype
      exact absurd hkeeps (hunreadable e (presentItem_eq_error h))

end

/-! ### Conflicts -/

/-- The three ways in which a conflict is read. -/
theorem readConflict_cases (isoTime : String → Option ℤ) (classes : SchemaClasses)
    (resource : ResourceDefinition) (record : BackendConflictRecord) (isMutable : Bool) :
    (Mixed record ∧ resource.conflicts.delete = .manual ∧
      readConflict isoTime classes resource record isMutable =
        conflictItem isoTime classes resource record isMutable) ∨
    (DeletionWins resource record ∧ ∃ context,
      readConflict isoTime classes resource record isMutable = .ok (.deleted context) ∧
      ∀ c, context = some c → c.observedRevisions = some record.revisions) ∨
    (¬ DeletionWins resource record ∧ readConflict isoTime classes resource record isMutable =
        readUpdates isoTime classes resource record isMutable) := by
  unfold readConflict
  simp only [length_pos_iff, length_eq_zero_iff]
  by_cases hmanual : deletedAlternatives record ≠ [] ∧ presentAlternatives record ≠ [] ∧
      resource.conflicts.delete = .manual
  · exact .inl ⟨⟨hmanual.1, hmanual.2.1⟩, hmanual.2.2, if_pos hmanual⟩
  · rw [if_neg hmanual]
    refine .inr ?_
    cases hlast : (deletedAlternatives record).getLast? with
    | none =>
      have hdeleted := getLast?_eq_none_iff.mp hlast
      refine .inr ⟨?_, rfl⟩
      rintro (⟨hne, hpresent⟩ | ⟨hmixed, -⟩)
      · exact hne (alternatives_eq_nil_iff.mpr ⟨hdeleted, hpresent⟩)
      · exact hmixed.1 hdeleted
    | some revision =>
      have hdeleted : deletedAlternatives record ≠ [] := fun hnil => by simp [hnil] at hlast
      have hwins : DeletionWins resource record ↔
          presentAlternatives record = [] ∨ resource.conflicts.delete = .deleteWins := by
        have hne : record.alternatives ≠ [] := fun hnil =>
          hdeleted (alternatives_eq_nil_iff.mp hnil).1
        by_cases hpresent : presentAlternatives record = [] <;> simp [DeletionWins, Mixed, hdeleted,
          hne, hpresent]
      by_cases hdecided : presentAlternatives record = [] ∨ resource.conflicts.delete = .deleteWins
      · refine .inl ⟨hwins.mpr hdecided, _, if_pos hdecided, fun c hc => ?_⟩
        split_ifs at hc
        cases hc
        rfl
      · exact .inr ⟨mt hwins.mp hdecided, if_neg hdecided⟩

def noteResource : ResourceDefinition := ⟨"Note", ⟨true, true, true⟩, ⟨.lastWriteWins, .deleteWins⟩⟩

def shortNote : PresentHead := texts ["title"] (fun _ => "Plan") "r0"

/-- The note with a field that the class does not have. -/
def linkedNote : PresentHead :=
  ⟨1, .object ["title", "__proto__"] fun key =>
    if key = "title" then .string "Plan" else .object ["body"] fun _ => .null, "r1"⟩

end Jolt.Sdk.ConflictPolicy

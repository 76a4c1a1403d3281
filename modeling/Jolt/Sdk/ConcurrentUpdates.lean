import Jolt.Sdk.Merge

/-! # Concurrent updates

The merge of concurrent updates is meant to be a three-way merge: each field is as in the last
alternative that has changed it, the merge says whether two alternatives have changed a field
differently, if none have the order of the alternatives does not matter, and the merged value is one
of the class (`IsThreeWayMerge`).

It is one exactly if the changes are told (`ChangesTold`). Two things are lost. A field `__proto__`
that an alternative adds is assigned to the copy of the base, which sets its prototype instead. And
a date is compared as an object without fields, so a change from one time to another is not seen.
Without dates and such a field, as in what is read from texts and not migrated, nothing is lost
(`changesTold_of_seen`). -/

namespace Jolt.Sdk.ConcurrentUpdates

open Std Lib Checks Values Schemas Sdk.Merge List ThreeWay

/-! ### The merged record -/

/-- The merged object parses as the base and the alternatives do, as each of its fields is one of
theirs. -/
theorem exists_parse_mergedDraft {isoTime : String → Option ℤ} {classes : SchemaClasses}
    {schemaClass : String} {base : StoredSchemaValue} {values : List StoredSchemaValue}
    (hkeeps : KeepsPrototype base.value (values.map (·.value)))
    (hplain : ∀ stored ∈ base :: values, stored.inherits = ordinary)
    (hparse : ∀ stored ∈ base :: values, ∃ parsed, parse isoTime classes schemaClass stored =
      .ok parsed)
    (version : ℕ) : ∃ parsed, parse isoTime classes schemaClass
      ⟨version, (mergedDraft base.value (values.map (·.value))).value,
        (mergedDraft base.value (values.map (·.value))).inherits⟩ = .ok parsed := by
  have hread : ∀ key, ∃ stored ∈ base :: values, StoredSchemaValue.read
      ⟨version, (mergedDraft base.value (values.map (·.value))).value,
        (mergedDraft base.value (values.map (·.value))).inherits⟩ key = stored.read key := by
    intro key
    have hown : (mergedDraft base.value (values.map (·.value))).value.own? key = _ :=
      own?_mergedDraft hkeeps key
    simp only [StoredSchemaValue.read, inherits_mergedDraft hkeeps]
    rw [hown]
    obtain ⟨-, hmerge⟩ | ⟨a, ha, hmerge⟩ :=
      merge_cases seen (fields base.value) ((values.map (·.value)).map fields) key
    · refine ⟨base, mem_cons_self, ?_⟩
      rw [hmerge, hplain base mem_cons_self]
      rfl
    · have hmem := (lastChange_eq_some ha).1
      simp only [map_map, mem_map, Function.comp_apply] at hmem
      obtain ⟨stored, hstored, rfl⟩ := hmem
      refine ⟨stored, mem_cons_of_mem base hstored, ?_⟩
      rw [hmerge, hplain stored (mem_cons_of_mem base hstored)]
      rfl
  obtain ⟨-, hoptions, -⟩ := exists_parse_eq_ok_iff.mp (hparse base mem_cons_self)
  refine exists_parse_eq_ok_iff.mpr ⟨rfl, hoptions, fun entry hentry => ?_⟩
  obtain ⟨stored, hstored, heq⟩ := hread entry.1
  rw [heq]
  exact (exists_parse_eq_ok_iff.mp (hparse stored hstored)).2.2 entry hentry

theorem meaning_value_eq {draft draft' : Draft}
    (h : ∀ key, meant (draft.own? key) = meant (draft'.own? key)) :
    draft.value.meaning = draft'.value.meaning := by
  have hfield : ∀ key, (decide (key ∈ draft.keys) = decide (key ∈ draft'.keys)) ∧
      (if key ∈ draft.keys then (draft.field key).meaning else .undefined) =
        if key ∈ draft'.keys then (draft'.field key).meaning else .undefined := by
    intro key
    have hkey := h key
    by_cases hmem : key ∈ draft.keys <;> by_cases hmem' : key ∈ draft'.keys <;>
      simp_all [meant, Draft.own?, Draft.value, Value.own?]
  simp only [Draft.value, Value.meaning, Meaning.object.injEq]
  exact ⟨funext fun key => (hfield key).1, funext fun key => (hfield key).2⟩

section

variable (isoTime : String → Option ℤ) (classes : SchemaClasses) (schemaClass : String)
  (conflict : BackendConflictRecord)

/-- What is merged is the three-way merge of the alternatives by what they mean. -/
structure IsThreeWayMerge (alternatives : List PresentHead) (base : Value) (values : List Value)
    (merged : Merged) : Prop where
  field : ∀ key, meant (fields merged.record.stored.value key) =
    meant (ThreeWay.merge meant (fields base) (values.map fields) key)
  flag : merged.hasFieldConflict = true ↔ ThreeWay.Conflict meant (fields base) (values.map fields)
  order : merged.hasFieldConflict = false → ∀ alternatives', alternatives.Perm alternatives' →
    ∃ merged', mergeConcurrentPresentUpdates isoTime classes schemaClass conflict alternatives' =
        .ok (some merged') ∧
      merged'.record.stored.value.meaning = merged.record.stored.value.meaning
  parses : ∃ parsed, parse isoTime classes schemaClass merged.record.stored = .ok parsed

end

/-- The changes that the merge can tell and make: no field `__proto__` is added, the last change of
each field is more than one of the times of dates, and alternatives that are in conflict also are
without the times of dates. -/
structure ChangesTold (base : Value) (values : List Value) : Prop where
  prototype : KeepsPrototype base values
  changes : ∀ key a, ThreeWay.lastChange meant (fields base) (values.map fields) key = some a →
    seen (a key) ≠ seen (fields base key)
  conflicts : ThreeWay.Conflict meant (fields base) (values.map fields) →
    ThreeWay.Conflict seen (fields base) (values.map fields)

variable {isoTime : String → Option ℤ} {classes : SchemaClasses} {schemaClass : String}
  {conflict : BackendConflictRecord} {alternatives : List PresentHead} {head : PresentHead}
  {stored : StoredSchemaValue} {parsed : Value} {results : List (StoredSchemaValue × Value)}
  {base : Value} {values : List Value}

theorem mergeConcurrentPresentUpdates_of_base (hbase : conflict.base = some (.present head))
    (halternatives : alternatives ≠ []) :
    mergeConcurrentPresentUpdates isoTime classes schemaClass conflict alternatives = (do
      let base ← migratedStoredValue isoTime classes schemaClass head.stored
      let results ← alternatives.mapM fun alternative =>
        migratedStoredValue isoTime classes schemaClass alternative.stored
      return some (mergedRecord conflict base.1
        ((results.map (·.1.value)).foldl (noteAlternative base.1.value) ⟨∅, false⟩))) := by
  obtain ⟨first, rest, rfl⟩ := exists_cons_of_ne_nil halternatives
  simp only [mergeConcurrentPresentUpdates, hbase]
  refine congrArg _ (funext fun base => ?_)
  rw [foldlM_eq_map_mapM fun found (result : StoredSchemaValue × Value) =>
    noteAlternative base.1.value found result.1.value]
  simp only [map_eq_pure_bind, bind_assoc, pure_bind, foldl_map]

theorem observedRevisions_merge {merged : Merged}
    (h : mergeConcurrentPresentUpdates isoTime classes schemaClass conflict alternatives =
      .ok (some merged)) : merged.record.observedRevisions = some conflict.revisions := by
  unfold mergeConcurrentPresentUpdates at h
  split at h
  · simp only [bind_eq_ok, pure_eq_ok, Option.some.injEq] at h
    obtain ⟨_, -, _, -, rfl⟩ := h
    rfl
  · simp at h

theorem migrated_head
    (h : migratedStoredValue isoTime classes schemaClass head.stored = .ok (stored, parsed)) :
    stored.inherits = ordinary ∧ ∃ parsed, parse isoTime classes schemaClass stored =
      .ok parsed := by
  obtain ⟨hparse, hinherits, -⟩ := migratedStoredValue_eq_ok h
  refine ⟨?_, parsed, hparse⟩
  obtain rfl | hinherits := hinherits
  · rfl
  · exact hinherits

/-- **If the changes are told, the order of the alternatives matters only in a conflict.** -/
theorem ChangesTold.perm {values' : List Value} (h : ChangesTold base values)
    (hno : ¬ ThreeWay.Conflict seen (fields base) (values.map fields))
    (hperm : values.Perm values') :
    (∀ key, meant ((mergedDraft base values').own? key) =
      meant ((mergedDraft base values).own? key)) := by
  have hkeeps' : KeepsPrototype base values' :=
    h.prototype.imp_right fun hnone value hvalue => hnone value (hperm.mem_iff.mpr hvalue)
  have hno' : ¬ ThreeWay.Conflict meant (fields base) (values.map fields) := mt h.conflicts hno
  -- a last change in the other order means the same as the last change in this one
  have hchanges' : ∀ key a, ThreeWay.lastChange meant (fields base) (values'.map fields) key =
    some a →
        seen (a key) ≠ seen (fields base key) := by
    intro key b hb
    obtain ⟨hmem, hchanged⟩ := lastChange_eq_some hb
    have hmem' : b ∈ values.map fields := (hperm.map fields).mem_iff.mpr hmem
    cases ha : ThreeWay.lastChange meant (fields base) (values.map fields) key with
    | none => exact absurd (lastChange_eq_none_iff.mp ha b hmem') hchanged
    | some a =>
      obtain ⟨hamem, hachanged⟩ := lastChange_eq_some ha
      have hsame : meant (a key) = meant (b key) := by
        by_contra hne
        exact hno' ⟨key, a, hamem, b, hmem', hachanged, hchanged, hne⟩
      rw [← seen_eq_of_meant_eq _ _ hsame]
      exact h.changes key a ha
  intro key
  rw [own?_mergedDraft h.prototype, own?_mergedDraft hkeeps',
    (merge_coarser_iff seen_eq_of_meant_eq).mpr h.changes key,
    (merge_coarser_iff seen_eq_of_meant_eq).mpr hchanges' key]
  exact (merge_eq_of_perm hno' (hperm.map fields) key).symm

theorem keepsPrototype_of_fields (h : meant ((mergedDraft base values).own? "__proto__") =
      meant (ThreeWay.merge meant (fields base) (values.map fields) "__proto__")) :
        KeepsPrototype base values := by
  rw [KeepsPrototype, or_iff_not_imp_left, not_not]
  intro hbase value hvalue
  by_contra hsome
  have hunassignable : Unassignable (Draft.spread base) "__proto__" :=
    ⟨rfl, by rw [own?_spread, hbase]⟩
  rw [own?_mergedDraft_of_unassignable hunassignable] at h
  have hchanged : ∀ o : Option Value, meant o = meant none → o = none := by
    intro o ho
    simpa [meant] using ho
  obtain ⟨hnone, -⟩ | ⟨a, ha, hmerge⟩ :=
    merge_cases meant (fields base) (values.map fields) "__proto__"
  · have hsame := lastChange_eq_none_iff.mp hnone _ (mem_map_of_mem hvalue)
    rw [hbase] at hsame
    exact hsome (hchanged _ hsame)
  · rw [hmerge] at h
    exact (lastChange_eq_some ha).2 (by rw [← h, hbase])

theorem seen_fields_eq {v : Value} (h : v.seen = v.meaning) (key : String) :
    seen (fields v key) = meant (fields v key) := by
  cases v with
  | object keys field =>
    simp only [seen_object, Value.meaning, Meaning.object.injEq, true_and] at h
    have hkey := congrFun h key
    by_cases hmem : key ∈ keys <;> simp_all [fields, Value.own?, seen, meant]
  | _ => rfl

/-- **Without dates the changes are told**, if no field `__proto__` is added. -/
theorem changesTold_of_seen (h : ∀ value ∈ base :: values, value.seen = value.meaning)
    (hkeeps : KeepsPrototype base values) : ChangesTold base values := by
  have hbase := seen_fields_eq (h base mem_cons_self)
  have hvalues : ∀ a ∈ values.map fields, ∀ key, seen (a key) = meant (a key) := by
    intro a ha
    obtain ⟨value, hvalue, rfl⟩ := mem_map.mp ha
    exact seen_fields_eq (h value (mem_cons_of_mem base hvalue))
  refine ⟨hkeeps, fun key a ha => ?_, ?_⟩
  · obtain ⟨hmem, hchanged⟩ := lastChange_eq_some ha
    rw [hvalues a hmem, hbase]
    exact hchanged
  · rintro ⟨key, a, ha, b, hb, hconflict⟩
    refine ⟨key, a, ha, b, hb, ?_⟩
    rw [hvalues a ha, hvalues b hb, hbase]
    exact hconflict

section

variable (hbase : conflict.base = some (.present head)) (halternatives : alternatives ≠ [])
  (hhead : migratedStoredValue isoTime classes schemaClass head.stored = .ok (stored, parsed))
  (hresults : alternatives.mapM (fun alternative =>
    migratedStoredValue isoTime classes schemaClass alternative.stored) = .ok results)

include hbase halternatives hhead hresults

theorem mergeConcurrentPresentUpdates_eq :
    mergeConcurrentPresentUpdates isoTime classes schemaClass conflict alternatives =
      .ok (some (mergedRecord conflict stored
        ((results.map (·.1.value)).foldl (noteAlternative stored.value) ⟨∅, false⟩))) := by
  rw [mergeConcurrentPresentUpdates_of_base hbase halternatives, hhead, ok_bind, hresults, ok_bind]
  rfl

variable (conflict) in
omit hbase halternatives in
/-- **The merged value parses**, if no field `__proto__` is added. -/
theorem exists_parse_mergedRecord (hkeeps : KeepsPrototype stored.value (results.map (·.1.value))) :
    ∃ parsed, parse isoTime classes schemaClass (mergedRecord conflict stored
      ((results.map (·.1.value)).foldl (noteAlternative stored.value) ⟨∅, false⟩)).record.stored =
        .ok parsed := by
  have hvalues : (results.map (·.1)).map (·.value) = results.map (·.1.value) := map_map
  have hmigrated : ∀ stored' ∈ stored :: results.map (·.1), stored'.inherits = ordinary ∧
      ∃ parsed, parse isoTime classes schemaClass stored' = .ok parsed := by
    intro stored' hmem
    obtain rfl | hmem := mem_cons.mp hmem
    · exact migrated_head hhead
    · obtain ⟨result, hresult, rfl⟩ := mem_map.mp hmem
      obtain ⟨alternative, -, halternative⟩ := mem_of_mapM_eq_ok hresults result hresult
      exact migrated_head halternative
  rw [← hvalues] at hkeeps ⊢
  exact exists_parse_mergedDraft hkeeps (fun stored' hmem => (hmigrated stored' hmem).1)
    (fun stored' hmem => (hmigrated stored' hmem).2) stored.version

/-- The merge of alternatives that migrate is three-way if the changes are told. -/
theorem ChangesTold.isThreeWayMerge (h : ChangesTold stored.value (results.map (·.1.value))) :
    IsThreeWayMerge isoTime classes schemaClass conflict alternatives stored.value
      (results.map (·.1.value)) (mergedRecord conflict stored
        ((results.map (·.1.value)).foldl (noteAlternative stored.value) ⟨∅, false⟩)) := by
  have hflag := (found_alternatives stored.value (results.map (·.1.value))).2
  refine ⟨fun key => ?_, ?_, fun hfalse alternatives' hperm => ?_,
    exists_parse_mergedRecord conflict hhead hresults h.prototype⟩
  · rw [← (merge_coarser_iff seen_eq_of_meant_eq).mpr h.changes key, ← own?_mergedDraft h.prototype]
    rfl
  · exact hflag.trans ⟨fun hconflict => hconflict.of_coarser seen_eq_of_meant_eq, h.conflicts⟩
  · obtain ⟨results', hresults', hpermResults⟩ := mapM_eq_ok_perm hperm hresults
    refine ⟨_, mergeConcurrentPresentUpdates_eq hbase (fun hnil => halternatives ?_)
      hhead hresults',
      meaning_value_eq (h.perm ?_ (hpermResults.map _))⟩
    · rw [hnil] at hperm
      exact hperm.eq_nil
    · rw [← hflag, Bool.not_eq_true]
      exact hfalse

end

/-- **The merge of concurrent updates is three-way exactly if the changes are told**: it takes each
field from the last alternative that has changed it, says whether two alternatives are in conflict,
does not depend on the order of the alternatives if none are, and gives a value of the class. -/
theorem merge_isThreeWay_iff (hbase : conflict.base = some (.present head))
    (halternatives : alternatives ≠ [])
    (hhead : migratedStoredValue isoTime classes schemaClass head.stored = .ok (stored, parsed))
    (hresults : alternatives.mapM (fun alternative =>
      migratedStoredValue isoTime classes schemaClass alternative.stored) = .ok results) :
    ∃ merged, mergeConcurrentPresentUpdates isoTime classes schemaClass conflict alternatives = .ok
      (some merged) ∧
      (IsThreeWayMerge isoTime classes schemaClass conflict alternatives stored.value
          (results.map (·.1.value)) merged ↔
        ChangesTold stored.value (results.map (·.1.value))) := by
  refine ⟨_, mergeConcurrentPresentUpdates_eq hbase halternatives hhead hresults, fun h => ?_,
    ChangesTold.isThreeWayMerge hbase halternatives hhead hresults⟩
  have hflag := (found_alternatives stored.value (results.map (·.1.value))).2
  have hkeeps := keepsPrototype_of_fields (h.field "__proto__")
  refine ⟨hkeeps, ?_, fun hconflict => hflag.mp (h.flag.mpr hconflict)⟩
  rw [← merge_coarser_iff seen_eq_of_meant_eq]
  intro key
  rw [← own?_mergedDraft hkeeps]
  exact h.field key

/-! ### Notes -/

/-- A class of notes, and one of tasks whose times have once been texts. -/
def noteClasses : SchemaClasses where
  options
    | "Note" => some ⟨1, fun _ => none⟩
    | "Task" => some ⟨2, fun _ => some fun v =>
        some (.object ["due"] fun _ =>
          match v.own? "due" with
          | some (.string "today") => .date (some 0)
          | _ => .date (some 86400000))⟩
    | _ => none
  fields
    | "Note" => [("title", ⟨.string, false⟩), ("body", ⟨.string, true⟩)]
    | "Task" => [("due", ⟨.dateTime, false⟩)]
    | _ => []

def texts (keys : List String) (text : String → String) (revision : String) : PresentHead :=
  ⟨1, .object keys fun key => .string (text key), revision⟩

def concurrent (base : PresentHead) (alternatives : List PresentHead) : BackendConflictRecord where
  alternatives := alternatives.map .present
  revisions := alternatives.map (·.revision)
  base := some (.present base)

def draftNote : PresentHead := texts ["title", "body"] (fun _ => "") "r0"

def titledNote : PresentHead := texts ["title", "body"]
    (fun key => if key = "title" then "Plan" else "") "r1"

def writtenNote : PresentHead := texts ["title", "body"]
    (fun key => if key = "body" then "First steps" else "") "r2"

theorem seen_texts (keys : List String) (text : String → String) (revision : String) :
    (texts keys text revision).value.seen = (texts keys text revision).value.meaning :=
  (seen_object _ _).trans rfl

theorem notes_told : ChangesTold draftNote.value [titledNote.value, writtenNote.value] := by
  refine changesTold_of_seen ?_ (.inr ?_)
  · intro value hvalue
    obtain rfl | rfl | rfl : value = draftNote.value ∨ value = titledNote.value ∨
        value = writtenNote.value := by simpa using hvalue
    all_goals exact seen_texts _ _ _
  · intro value hvalue
    obtain rfl | rfl : value = titledNote.value ∨ value = writtenNote.value := by simpa using hvalue
    all_goals rfl

theorem title_and_body_merge : ∃ merged, mergeConcurrentPresentUpdates
    (fun _ => none) noteClasses "Note"
        (concurrent draftNote [titledNote, writtenNote]) [titledNote, writtenNote] = .ok
        (some merged) ∧
      IsThreeWayMerge (fun _ => none) noteClasses "Note"
        (concurrent draftNote [titledNote, writtenNote]) [titledNote, writtenNote]
        draftNote.value [titledNote.value, writtenNote.value] merged := by
  have hbase : (concurrent draftNote [titledNote, writtenNote]).base = some (.present draftNote) :=
    rfl
  have hhead : migratedStoredValue (fun _ => none) noteClasses "Note" draftNote.stored =
      .ok (draftNote.stored, _) := rfl
  have hresults : [titledNote, writtenNote].mapM (fun alternative =>
      migratedStoredValue (fun _ => none) noteClasses "Note" alternative.stored) =
        .ok [(titledNote.stored, _), (writtenNote.stored, _)] := rfl
  obtain ⟨merged, hmerged, hiff⟩ := merge_isThreeWay_iff hbase (by simp) hhead hresults
  exact ⟨merged, hmerged, hiff.mpr notes_told⟩

/-- A note with a field that is not of the class. -/
def annotatedNote : PresentHead := texts ["title", "body", "__proto__"] (fun _ => "") "r1"

def todayTask : PresentHead := texts ["due"] (fun _ => "today") "r0"

def tomorrowTask : PresentHead := texts ["due"] (fun _ => "tomorrow") "r1"

theorem added_field_and_changed_date_lost :
    (∃ merged, mergeConcurrentPresentUpdates (fun _ => none) noteClasses "Note"
        (concurrent draftNote [annotatedNote]) [annotatedNote] = .ok (some merged) ∧
      ¬ IsThreeWayMerge (fun _ => none) noteClasses "Note" (concurrent draftNote [annotatedNote])
        [annotatedNote] draftNote.value [annotatedNote.value] merged) ∧
    ∃ base tomorrow merged, migratedStoredValue
      (fun _ => none) noteClasses "Task" todayTask.stored = .ok base ∧
      migratedStoredValue (fun _ => none) noteClasses "Task" tomorrowTask.stored = .ok tomorrow ∧
      mergeConcurrentPresentUpdates (fun _ => none) noteClasses "Task"
        (concurrent todayTask [tomorrowTask]) [tomorrowTask] = .ok (some merged) ∧
      ¬ IsThreeWayMerge (fun _ => none) noteClasses "Task" (concurrent todayTask [tomorrowTask])
        [tomorrowTask] base.1.value [tomorrow.1.value] merged := by
  refine ⟨⟨_, rfl, fun h => ?_⟩, _, _, _, rfl, rfl, rfl, fun h => ?_⟩
  · have hfield := h.field "__proto__"
    rw [map_singleton, merge_singleton meant] at hfield
    have hlost : (none : Option Meaning) = some (.string "") := hfield
    cases hlost
  · have hfield := h.field "due"
    rw [map_singleton, merge_singleton meant] at hfield
    have hlost : some (Meaning.date (some 0)) = some (Meaning.date (some 86400000)) := hfield
    simp at hlost

end Jolt.Sdk.ConcurrentUpdates

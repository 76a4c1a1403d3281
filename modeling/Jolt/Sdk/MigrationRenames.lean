import Jolt.Sdk.Merge

/-! # Renaming fields in a migration

`renameMigrationFields` of `data.ts`, which migrations call as `rename`. It deletes all fields that
are moved from a copy of the value, and then adds them one by one under their new names. What comes
out is the simultaneous rename, in whichever order the table lists the moves
(`renames_simultaneously`). -/

namespace Jolt.Sdk.MigrationRenames

open List Lib.Checks Values Schemas Sdk.Merge

/-- The entries of the table, which in the source have different sources. -/
abbrev Renames := List (String × String)

/-- `Object.defineProperty` with a plain data property. Unlike an assignment it never changes the
prototype. -/
def define (draft : Draft) (key : String) (v : Value) : Draft :=
  ⟨if key ∈ draft.keys then draft.keys else draft.keys ++ [key], Function.update draft.field key v,
    draft.inherits⟩

def moves (value : Value) (renames : Renames) : Renames :=
  renames.filter fun m => (value.own? m.1).isSome && m.1 ≠ m.2

def move (value : Value) (renamed : Draft) (m : String × String) : Except DataError Draft :=
  if m.2 ∈ renamed.keys then .error (.type s!"Cannot rename {m.1} to existing field {m.2}")
  else .ok (define renamed m.2 ((value.own? m.1).getD .undefined))

def moveAll (value : Value) (l : Renames) : Except DataError Draft :=
  l.foldlM (move value) (l.foldl (·.delete ·.1) (.spread value))

/-- The value is an object. -/
def renameMigrationFields (value : Value) (renames : Renames) : Except DataError Draft :=
  moveAll value (moves value renames)

/-- The destinations are distinct, and none of them is a field that stays. -/
def Movable (value : Value) (l : Renames) : Prop :=
  (l.map (·.2)).Nodup ∧ ∀ m ∈ l, (value.own? m.2).isSome → m.2 ∈ l.map (·.1)

/-- The fields of the result are those that were moved, under their destinations, and those that
stay. -/
structure Moved (value : Value) (l : Renames) (r : Draft) : Prop where
  moved : ∀ m ∈ l, r.own? m.2 = value.own? m.1
  stays : ∀ key ∉ l.map (·.1), (value.own? key).isSome → r.own? key = value.own? key
  only : ∀ key ∉ l.map (·.2), (r.own? key).isSome → key ∉ l.map (·.1) ∧ (value.own? key).isSome

variable {draft r r' : Draft} {value v : Value} {key : String} {m : String × String}
  {l l' renames : Renames}

/-! ### The loops -/

theorem own?_define (k : String) :
    (define draft key v).own? k = if k = key then some v else draft.own? k := by
  by_cases hk : k = key <;> by_cases hmem : key ∈ draft.keys <;>
    simp [define, Draft.own?, Draft.value, Value.own?, hk, hmem]

theorem own?_foldl_delete (key : String) : ∀ (l : Renames) (draft : Draft),
    (l.foldl (·.delete ·.1) draft).own? key = if key ∈ l.map (·.1) then none else draft.own? key
  | [], draft => by simp
  | m :: l, draft => by
    rw [foldl_cons, own?_foldl_delete key l, map_cons]
    by_cases hm : key = m.1
    · simp [hm, own?_delete_self]
    · rw [own?_delete_of_ne hm]
      simp only [mem_cons, hm, false_or]

theorem move_eq_ok : move value draft m = .ok r ↔
    draft.own? m.2 = none ∧ r = define draft m.2 ((value.own? m.1).getD .undefined) := by
  by_cases hmem : m.2 ∈ draft.keys <;> simp [move, Draft.own?, Draft.value, Value.own?,
    hmem, eq_comm]

/-- The loop succeeds exactly if the destinations are distinct and not in the draft. -/
theorem exists_foldlM_move_iff (value : Value) : ∀ (l : Renames) (draft : Draft),
    (∃ r, l.foldlM (move value) draft = .ok r) ↔ (l.map (·.2)).Nodup ∧
      ∀ m ∈ l, draft.own? m.2 = none
  | [], draft => by simp [pure, Except.pure]
  | m :: l, draft => by
    have hrest :=
      exists_foldlM_move_iff value l (define draft m.2 ((value.own? m.1).getD .undefined))
    have hnone : (∀ m' ∈ l, (define draft m.2 ((value.own? m.1).getD .undefined)).own?
      m'.2 = none) ↔
        m.2 ∉ l.map (·.2) ∧ ∀ m' ∈ l, draft.own? m'.2 = none := by
      simp only [own?_define, mem_map, not_exists, not_and]
      grind
    rw [hnone] at hrest
    simp only [foldlM_cons, bind_eq_ok, move_eq_ok, map_cons, nodup_cons, forall_mem_cons]
    constructor
    · rintro ⟨r, _, ⟨hm, rfl⟩, hr⟩
      obtain ⟨hnodup, hnew, hold⟩ := hrest.mp ⟨r, hr⟩
      exact ⟨⟨hnew, hnodup⟩, hm, hold⟩
    · rintro ⟨⟨hnew, hnodup⟩, hm, hold⟩
      obtain ⟨r, hr⟩ := hrest.mpr ⟨hnodup, hnew, hold⟩
      exact ⟨r, _, ⟨hm, rfl⟩, hr⟩

theorem own?_of_foldlM_move : ∀ {l : Renames} {draft : Draft}, l.foldlM (move value) draft = .ok r →
    (∀ m ∈ l, r.own? m.2 = some ((value.own? m.1).getD .undefined)) ∧ ∀ key ∉ l.map
    (·.2), r.own? key = draft.own? key
  | [], draft, h => by
    obtain rfl := pure_eq_ok.mp h
    simp
  | m :: l, draft, h => by
    rw [foldlM_cons, bind_eq_ok] at h
    obtain ⟨_, hm, hr⟩ := h
    obtain ⟨-, rfl⟩ := move_eq_ok.mp hm
    obtain ⟨hmoved, hother⟩ := own?_of_foldlM_move hr
    obtain ⟨-, hnone⟩ := (exists_foldlM_move_iff ..).mp ⟨r, hr⟩
    have hlast : m.2 ∉ l.map (·.2) := by
      intro hmem
      obtain ⟨m', hm', heq⟩ := mem_map.mp hmem
      simpa [own?_define, heq] using hnone m' hm'
    refine ⟨forall_mem_cons.mpr ⟨?_, hmoved⟩, fun key hkey => ?_⟩
    · rw [hother m.2 hlast, own?_define, if_pos rfl]
    · rw [map_cons, mem_cons, not_or] at hkey
      rw [hother key hkey.2, own?_define, if_neg hkey.1]

/-! ### The rename -/

theorem exists_moveAll_iff : (∃ r, moveAll value l = .ok r) ↔ Movable value l := by
  rw [moveAll, exists_foldlM_move_iff]
  refine and_congr_right fun _ => forall₂_congr fun m _ => ?_
  rw [own?_foldl_delete, own?_spread, fields]
  split_ifs with hmem <;> simp [hmem]

theorem moved_of_moveAll (hl : ∀ m ∈ l, (value.own? m.1).isSome) (h : moveAll value l = .ok r) :
    Moved value l r := by
  obtain ⟨hmoved, hother⟩ := own?_of_foldlM_move h
  obtain ⟨-, hfree⟩ := exists_moveAll_iff.mp ⟨r, h⟩
  simp only [own?_foldl_delete, own?_spread, fields] at hother
  refine ⟨fun m hm => ?_, fun key hkey hfield => ?_, fun key hkey hfield => ?_⟩
  · obtain ⟨v, hv⟩ := Option.isSome_iff_exists.mp (hl m hm)
    rw [hmoved m hm, hv, Option.getD_some]
  · have hnew : key ∉ l.map (·.2) := by
      intro hmem
      obtain ⟨m, hm, rfl⟩ := mem_map.mp hmem
      exact hkey (hfree m hm hfield)
    rw [hother key hnew, if_neg hkey]
  · rw [hother key hkey] at hfield
    split_ifs at hfield with hmem
    · simp at hfield
    · exact ⟨hmem, hfield⟩

theorem Moved.eq_of_perm (h : Moved value l r) (h' : Moved value l' r') (hperm : l.Perm l')
    (key : String) :
    r'.own? key = r.own? key := by
  by_cases hkey : key ∈ l.map (·.2)
  · obtain ⟨m, hm, rfl⟩ := mem_map.mp hkey
    rw [h.moved m hm, h'.moved m (hperm.mem_iff.mp hm)]
  have hkey' := mt (hperm.map (·.2)).mem_iff.mpr hkey
  have hsource := (hperm.map (·.1)).mem_iff (a := key)
  by_cases hstays : key ∉ l.map (·.1) ∧ (value.own? key).isSome
  · rw [h.stays key hstays.1 hstays.2, h'.stays key (mt hsource.mpr hstays.1) hstays.2]
  · have hnone : ¬ (r.own? key).isSome := mt (h.only key hkey) hstays
    have hnone' : ¬ (r'.own? key).isSome := fun hs =>
      hstays ((h'.only key hkey' hs).imp_left (mt hsource.mp))
    rw [Option.not_isSome_iff_eq_none.mp hnone, Option.not_isSome_iff_eq_none.mp hnone']

theorem moved_of_rename (h : renameMigrationFields value renames = .ok r) :
    Moved value (moves value renames) r := by
  refine moved_of_moveAll (fun m hm => ?_) h
  obtain ⟨-, hsource⟩ := mem_filter.mp hm
  exact (Bool.and_eq_true_iff.mp hsource).1

/-- **Renaming is simultaneous.** It succeeds exactly if the destinations of the moves are distinct
and none of them is a field that stays. Then the result has the moved fields under their
destinations, the fields that stay, and no others, and so has the result for every other order of
the table. -/
theorem renames_simultaneously (value : Value) (renames : Renames) :
    ((∃ r, renameMigrationFields value renames = .ok r) ↔ Movable value (moves value renames)) ∧
    ∀ r, renameMigrationFields value renames = .ok r → Moved value (moves value renames) r ∧
      ∀ renames', renames.Perm renames' → ∃ r', renameMigrationFields value renames' = .ok r' ∧
        ∀ key, r'.own? key = r.own? key := by
  refine ⟨exists_moveAll_iff, fun r h => ⟨moved_of_rename h, fun renames' hperm => ?_⟩⟩
  have hmoves : (moves value renames).Perm (moves value renames') := hperm.filter _
  obtain ⟨hnodup, hfree⟩ := exists_moveAll_iff.mp ⟨r, h⟩
  have hmovable : Movable value (moves value renames') :=
    ⟨(hmoves.map _).nodup_iff.mp hnodup, fun m hm hfield =>
      (hmoves.map _).mem_iff.mp (hfree m (hmoves.mem_iff.mpr hm) hfield)⟩
  obtain ⟨r', h'⟩ := exists_moveAll_iff.mpr hmovable
  exact ⟨r', h', (moved_of_rename h).eq_of_perm (moved_of_rename h') hmoves⟩

/-- Two fields are swapped, and in a chain each one moves on. -/
theorem renames_swap_and_chain :
    (∃ r, renameMigrationFields (.object ["a", "b"] .string) [("a", "b"), ("b", "a")] = .ok r ∧
      r.own? "a" = some (.string "b") ∧ r.own? "b" = some (.string "a")) ∧
    ∃ r, renameMigrationFields (.object ["a", "b"] .string) [("a", "b"), ("b", "c")] = .ok r ∧
      r.own? "b" = some (.string "a") ∧ r.own? "c" = some (.string "b") := by
  obtain ⟨hswap, hswapped⟩ := renames_simultaneously (.object ["a", "b"] .string)
    [("a", "b"), ("b", "a")]
  obtain ⟨hchain, hchained⟩ := renames_simultaneously (.object ["a", "b"] .string)
    [("a", "b"), ("b", "c")]
  obtain ⟨r, hr⟩ := hswap.mpr ⟨by decide, by decide⟩
  obtain ⟨s, hs⟩ := hchain.mpr ⟨by decide, by decide⟩
  have hr' := (hswapped r hr).1.moved
  have hs' := (hchained s hs).1.moved
  exact ⟨⟨r, hr, hr' ("b", "a") (by decide), hr' ("a", "b") (by decide)⟩, s, hs,
    hs' ("a", "b") (by decide), hs' ("b", "c") (by decide)⟩

end Jolt.Sdk.MigrationRenames

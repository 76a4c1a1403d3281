import Mathlib.Data.List.Nodup

/-! # Lists without repeated keys

An element is pushed to the end of a list unless the list has one with its key. Pushing a list of
elements keeps, for every key, the first element with it (`find?_pushAll`), never makes a key occur
twice (`nodup_pushAll`), and does not change what the list has outside of a part that the keys tell
apart (`filter_pushAll`, `filter_not_pushAll`). -/

namespace Jolt.Lib.PushUnique

open List

variable {α κ : Type} [DecidableEq κ] (key : α → κ)

/-- Push an element unless its key is there. -/
def push (l : List α) (a : α) : List α :=
  if l.any fun b => key b = key a then l else l ++ [a]

def pushAll (l : List α) (as : List α) : List α := as.foldl (push key) l

variable {key} {l as : List α} {a b : α}

theorem any_key_iff : (l.any fun b => decide (key b = key a)) = true ↔ key a ∈ l.map key := by
  simp [any_eq_true, mem_map]

theorem mem_pushAll : b ∈ pushAll key l as → b ∈ l ∨ b ∈ as := by
  induction as generalizing l with
  | nil => exact .inl
  | cons a as ih =>
    intro h
    rcases ih h with hpush | has
    · unfold push at hpush
      split_ifs at hpush
      · exact .inl hpush
      · rcases mem_append.mp hpush with hl | ha
        · exact .inl hl
        · exact .inr (mem_singleton.mp ha ▸ mem_cons_self)
    · exact .inr (mem_cons_of_mem a has)

theorem nodup_pushAll (h : (l.map key).Nodup) : ((pushAll key l as).map key).Nodup := by
  induction as generalizing l with
  | nil => exact h
  | cons a as ih =>
    refine ih ?_
    unfold push
    split_ifs with hany
    · exact h
    · rw [any_key_iff] at hany
      rw [map_append, nodup_append]
      refine ⟨h, nodup_singleton _, fun k hk k' hk' => ?_⟩
      rw [map_singleton, mem_singleton] at hk'
      rintro rfl
      exact hany (hk' ▸ hk)

theorem find?_push (k : κ) : (push key l a).find? (key · = k) = (l ++ [a]).find? (key · = k) := by
  unfold push
  split_ifs with hany
  · rw [find?_append]
    cases hfind : l.find? (key · = k) with
    | some b => rfl
    | none =>
      -- the new element has no such key, since the list would have one with it
      obtain ⟨b, hb, hkey⟩ := mem_map.mp (any_key_iff.mp hany)
      have hne : ¬ key a = k := by
        intro hk
        exact find?_eq_none.mp hfind b hb (by simpa using hkey.trans hk)
      simp [hne]
  · rfl

theorem find?_pushAll (k : κ) : (pushAll key l as).find? (key · = k) = (l ++ as).find?
    (key · = k) := by
  induction as generalizing l with
  | nil => rw [pushAll, foldl_nil, append_nil]
  | cons a as ih =>
    rw [pushAll, foldl_cons]
    refine (ih (l := push key l a)).trans ?_
    rw [find?_append, find?_push, ← find?_append, append_assoc, singleton_append]

theorem pushAll_eq_self (h : ∀ a ∈ as, key a ∈ l.map key) : pushAll key l as = l := by
  induction as with
  | nil => rfl
  | cons a as ih =>
    rw [forall_mem_cons] at h
    rw [pushAll, foldl_cons, push, if_pos (any_key_iff.mpr h.1)]
    exact ih h.2

theorem mem_map_pushAll (h : a ∈ as) : key a ∈ (pushAll key l as).map key := by
  have hfind : ((l ++ as).find? fun b => decide (key b = key a)).isSome = true := by
    rw [find?_isSome]
    exact ⟨a, mem_append_right l h, decide_eq_true rfl⟩
  rw [← find?_pushAll, find?_isSome] at hfind
  obtain ⟨b, hb, hkey⟩ := hfind
  exact mem_map.mpr ⟨b, hb, of_decide_eq_true hkey⟩

theorem mem_pushAll_nil : a ∈ pushAll key [] as ↔ as.find? (key · = key a) = some a := by
  have hnodup : ((pushAll key [] as).map key).Nodup := nodup_pushAll nodup_nil
  rw [← nil_append as, ← find?_pushAll, nil_append]
  constructor
  · intro hmem
    have hsome : ((pushAll key [] as).find? fun b => decide (key b = key a)).isSome = true := by
      rw [find?_isSome]
      exact ⟨a, hmem, decide_eq_true rfl⟩
    obtain ⟨b, hb⟩ := Option.isSome_iff_exists.mp hsome
    have hkey : key b = key a := by simpa using find?_some hb
    rwa [inj_on_of_nodup_map hnodup (mem_of_find?_eq_some hb) hmem hkey] at hb
  · exact mem_of_find?_eq_some

section

variable {p : α → Bool} (hp : ∀ a b, key a = key b → p a = p b)
include hp

theorem filter_pushAll (has : ∀ a ∈ as, p a = true) : (pushAll key l as).filter p = pushAll key
    (l.filter p) as := by
  induction as generalizing l with
  | nil => rfl
  | cons a as ih =>
    rw [forall_mem_cons] at has
    rw [pushAll, foldl_cons]
    refine (ih (l := push key l a) has.2).trans ?_
    rw [pushAll, pushAll, foldl_cons]
    congr 1
    have hsame : key a ∈ (l.filter p).map key ↔ key a ∈ l.map key := by
      simp only [mem_map, mem_filter]
      constructor
      · rintro ⟨b, ⟨hb, -⟩, hkey⟩
        exact ⟨b, hb, hkey⟩
      · rintro ⟨b, hb, hkey⟩
        exact ⟨b, ⟨hb, (hp b a hkey).trans has.1⟩, hkey⟩
    unfold push
    by_cases hany : key a ∈ l.map key
    · rw [if_pos (any_key_iff.mpr hany), if_pos (any_key_iff.mpr (hsame.mpr hany))]
    · rw [if_neg fun h => hany (any_key_iff.mp h), if_neg fun h =>
        hany (hsame.mp (any_key_iff.mp h)), filter_append]
      simp [has.1]

omit [DecidableEq κ] in
theorem nodup_map_iff : (l.map key).Nodup ↔
      ((l.filter p).map key).Nodup ∧ ((l.filter fun b => !p b).map key).Nodup := by
  have hperm : ((l.filter p ++ l.filter fun b => !p b).map key).Perm (l.map key) :=
    (filter_append_perm p l).map key
  rw [← hperm.nodup_iff, map_append, nodup_append, and_congr_right_iff]
  refine fun _ => and_iff_left fun k hk k' hk' => ?_
  obtain ⟨a, ha, rfl⟩ := mem_map.mp hk
  obtain ⟨b, hb, rfl⟩ := mem_map.mp hk'
  intro hsame
  have hparts := hp a b hsame
  rw [(mem_filter.mp ha).2] at hparts
  have hnot := (mem_filter.mp hb).2
  rw [← hparts] at hnot
  exact absurd hnot Bool.false_ne_true

omit hp in
theorem filter_not_pushAll (has : ∀ a ∈ as, p a = true) :
    (pushAll key l as).filter (fun b => !p b) = l.filter fun b => !p b := by
  induction as generalizing l with
  | nil => rfl
  | cons a as ih =>
    rw [forall_mem_cons] at has
    rw [pushAll, foldl_cons]
    refine (ih (l := push key l a) has.2).trans ?_
    unfold push
    split_ifs
    · rfl
    · rw [filter_append]
      simp [has.1]

end

end Jolt.Lib.PushUnique

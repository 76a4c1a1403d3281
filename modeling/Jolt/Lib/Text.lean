import Mathlib.Data.List.Infix

/-! # Cutting texts

Functions that cut a text at a beginning, an end or a separator, and what they return. A text starts
with another exactly if cutting it off leaves a rest (`stripPrefix_eq_some_iff`), and likewise at
the end. -/

namespace Jolt.Lib.Text

open List String

def startsWith (s p : String) : Bool := p.toList.isPrefixOf s.toList

def stripPrefix (p s : String) : Option String :=
  if startsWith s p then some (String.ofList (s.toList.drop p.toList.length)) else none

def stripSuffix (p s : String) : Option String :=
  if p.toList.isSuffixOf s.toList then
    some (String.ofList (s.toList.take (s.toList.length - p.toList.length)))
  else none

def splitOnce (c : Char) (s : String) : Option (String × String) :=
  if c ∈ s.toList then
    some (String.ofList (s.toList.takeWhile (· ≠ c)),
      String.ofList ((s.toList.dropWhile (· ≠ c)).drop 1))
  else none

/-- `s.trim_end_matches(p)`, for a `p` that is not empty. -/
def trimEndMatches (p : String) (s : String) : String := go s.toList.length s
where
  go : ℕ → String → String
    | 0, s => s
    | n + 1, s =>
      match stripSuffix p s with
      | some rest => go n rest
      | none => s

def containsText (s part : String) : Bool := s.toList.tails.any part.toList.isPrefixOf

/-- `s.trim_matches(p)`: what `p` holds of is cut off at both ends. -/
def trimMatches (p : Char → Bool) (s : String) : String :=
  String.ofList (((s.toList.dropWhile p).reverse.dropWhile p).reverse)

variable {p q r s : String}

theorem toList_inj {a b : String} (h : a.toList = b.toList) : a = b := by
  rw [← ofList_toList (s := a), h, ofList_toList]

theorem startsWith_iff : startsWith s p = true ↔ ∃ r, s = p ++ r := by
  rw [startsWith, isPrefixOf_iff_prefix]
  constructor
  · rintro ⟨rest, h⟩
    refine ⟨String.ofList rest, toList_inj ?_⟩
    rw [toList_append, toList_ofList, h]
  · rintro ⟨r, rfl⟩
    rw [toList_append]
    exact prefix_append _ _

@[simp] theorem startsWith_append (p r : String) : startsWith (p ++ r) p = true :=
    startsWith_iff.mpr ⟨r, rfl⟩

theorem startsWith_refl (s : String) : startsWith s s = true := startsWith_iff.mpr ⟨"", by simp⟩

theorem startsWith_trans (h : startsWith s q = true) (h' : startsWith q p = true) :
    startsWith s p = true := by
  obtain ⟨r, rfl⟩ := startsWith_iff.mp h
  obtain ⟨r', rfl⟩ := startsWith_iff.mp h'
  rw [String.append_assoc]
  exact startsWith_append _ _

theorem stripPrefix_eq_some_iff : stripPrefix p s = some r ↔ s = p ++ r := by
  unfold stripPrefix
  constructor
  · intro h
    split_ifs at h with hstart
    obtain ⟨rest, rfl⟩ := startsWith_iff.mp hstart
    rw [toList_append, drop_left, ofList_toList] at h
    rw [Option.some.inj h]
  · rintro rfl
    rw [if_pos (startsWith_append p r), toList_append, drop_left, ofList_toList]

theorem stripSuffix_eq_some_iff : stripSuffix p s = some r ↔ s = r ++ p := by
  unfold stripSuffix
  constructor
  · intro h
    split_ifs at h with hend
    obtain ⟨rest, hrest⟩ := isSuffixOf_iff_suffix.mp hend
    have htake : s.toList.take (s.toList.length - p.toList.length) = rest := by
      rw [← hrest, List.length_append, Nat.add_sub_cancel, List.take_left]
    rw [htake] at h
    refine toList_inj ?_
    rw [← Option.some.inj h, toList_append, toList_ofList, hrest]
  · rintro rfl
    have hend : p.toList.isSuffixOf (r ++ p).toList = true := by
      rw [isSuffixOf_iff_suffix, toList_append]
      exact suffix_append _ _
    rw [if_pos hend, String.toList_append, List.length_append, Nat.add_sub_cancel, List.take_left,
      ofList_toList]

theorem append_left_cancel {a b c : String} (h : a ++ b = a ++ c) : b = c := by
  have hlist := congrArg String.toList h
  rw [toList_append, toList_append] at hlist
  exact toList_inj (append_cancel_left hlist)

/-! ### One character -/

theorem startsWith_singleton_iff {c : Char} : startsWith s (String.singleton c) = true ↔
    s.toList.head? = some c := by
  rw [startsWith, toList_singleton, isPrefixOf_iff_prefix]
  rcases s.toList with - | ⟨d, l⟩
  · simp
  · simp [cons_prefix_cons, eq_comm]

theorem splitOnce_append {c : Char} (h : c ∉ s.toList) (r : String) :
    splitOnce c (s ++ (String.singleton c ++ r)) = some (s, r) := by
  have hlist : (s ++ (String.singleton c ++ r)).toList = s.toList ++ c :: r.toList := by simp
  have hother : ∀ d ∈ s.toList, decide (d ≠ c) = true := by
    intro d hd
    exact decide_eq_true fun heq => h (heq ▸ hd)
  unfold splitOnce
  rw [hlist, if_pos (by simp), takeWhile_append_of_pos hother, dropWhile_append_of_pos hother]
  simp

theorem splitOnce_eq_none {c : Char} (h : c ∉ s.toList) : splitOnce c s = none := if_neg h

theorem trimMatches_eq_self {p : Char → Bool} (h : ∀ c ∈ s.toList, p c = false) :
    trimMatches p s = s := by
  have hself : ∀ l : List Char, (∀ c ∈ l, p c = false) → l.dropWhile p = l := by
    intro l hl
    cases l with
    | nil => rfl
    | cons c l => rw [dropWhile_cons, if_neg (by simp [hl c mem_cons_self])]
  refine toList_inj ?_
  rw [trimMatches, toList_ofList, hself _ h, hself _ fun c hc => h c (mem_reverse.mp hc),
    reverse_reverse]

end Jolt.Lib.Text

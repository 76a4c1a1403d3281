import Jolt.Lib.BigEndian

/-! # Encodings that can be read back

An `Encoding Tail α` writes values of `α` as words over `σ` and reads a value back from the front of
a word. Reading is exact: what is read off the front of `s` is `a` with `rest` left over if and only
if `a` fits the encoding, `rest` is a possible tail and `s` is the word of `a` followed by `rest`.
So a word with a possible tail determines the value it starts with (`Encoding.append_inj`), and
every combinator below keeps that.

With every tail possible the words are self-delimiting, and one value can follow the other
(`Codec`). With the empty tail only, words are read as a whole (`Format`), which is all that is left
when a field at the end is left out at its default value (`omitted`). -/

namespace Jolt.Lib.Encodings

open BigEndian List Option

variable {σ α β τ : Type} {Tail : List σ → Prop}

/-- A writer, and an exact reader of the front of a word. -/
structure Encoding (Tail : List σ → Prop) (α : Type) where
  encode : α → List σ
  decode : List σ → Option (α × List σ)
  /-- The values that can be read back, as those whose length fits its counter. -/
  Fits : α → Prop
  decode_eq_some_iff : ∀ s a rest, decode s = some (a, rest) ↔ Fits a ∧ Tail rest ∧
    encode a ++ rest = s

abbrev Codec (σ α : Type) := Encoding (fun _ : List σ => True) α

abbrev Format (σ α : Type) := Encoding (fun rest : List σ => rest = []) α

namespace Encoding

variable (w : ℕ) (tag : Codec σ τ) (tagOf : α → τ) (body : τ → Encoding Tail α)
  (c : Encoding Tail α) (f : β → α) (g : α → β) (back : α → Option β)

/-! ### Words of given length -/

def fail : Encoding Tail α where
  encode _ := []
  decode _ := none
  Fits _ := False
  decode_eq_some_iff s a rest := by simp

def one : Codec σ σ where
  encode x := [x]
  decode
    | [] => none
    | x :: s => some (x, s)
  Fits _ := True
  decode_eq_some_iff s a rest := by
    cases s with
    | nil => simp
    | cons x s => simp [eq_comm]

def take (n : ℕ) : Codec σ (List σ) where
  encode l := l
  decode s := if n ≤ s.length then some (s.take n, s.drop n) else none
  Fits l := l.length = n
  decode_eq_some_iff s a rest := by
    constructor
    · intro h
      split_ifs at h with hn
      obtain ⟨rfl, rfl⟩ : s.take n = a ∧ s.drop n = rest := by simpa using h
      exact ⟨by simp [hn], trivial, s.take_append_drop n⟩
    · rintro ⟨rfl, -, rfl⟩
      simp

def decodeUntil [DecidableEq σ] (t : σ) : List σ → Option (List σ × List σ)
  | [] => none
  | x :: s => if x = t then some ([], s) else (decodeUntil t s).map fun y => (x :: y.1, y.2)

def terminated [DecidableEq σ] (t : σ) : Codec σ (List σ) where
  encode w := w ++ [t]
  decode := decodeUntil t
  Fits w := t ∉ w
  decode_eq_some_iff s w rest := by
    induction s generalizing w rest with
    | nil => simp [decodeUntil]
    | cons x s ih =>
      by_cases hx : x = t
      · -- the word ends here: what is read is empty
        cases w with
        | nil => simp [decodeUntil, hx, eq_comm]
        | cons y w =>
          simp only [decodeUntil, if_pos hx, Option.some.injEq, Prod.mk.injEq]
          constructor
          · rintro ⟨⟨⟩, -⟩
          · rintro ⟨hw, -, h⟩
            exact absurd ((List.cons.inj h).1.trans hx) (by rintro rfl; simp at hw)
      · simp only [decodeUntil, if_neg hx, map_eq_some_iff, Prod.exists, ih, Prod.mk.injEq]
        cases w with
        | nil => simp [Ne.symm hx]
        | cons y w =>
          constructor
          · rintro ⟨w', _, ⟨hw, -, rfl⟩, h, rfl⟩
            obtain ⟨rfl, rfl⟩ := List.cons.inj h
            exact ⟨by simp [Ne.symm hx, hw], trivial, by simp⟩
          · rintro ⟨hw, -, h⟩
            obtain ⟨rfl, rfl⟩ := List.cons.inj h
            exact ⟨w, rest, ⟨fun hmem => hw (mem_cons_of_mem _ hmem), trivial, by simp⟩, rfl, rfl⟩

/-! ### Composition -/

def pair (c : Codec σ α) (d : Encoding Tail β) : Encoding Tail (α × β) where
  encode p := c.encode p.1 ++ d.encode p.2
  decode s := (c.decode s).bind fun x => (d.decode x.2).map fun y => ((x.1, y.1), y.2)
  Fits p := c.Fits p.1 ∧ d.Fits p.2
  decode_eq_some_iff s p rest := by
    obtain ⟨a, b⟩ := p
    simp only [bind_eq_some_iff, map_eq_some_iff, Prod.exists, c.decode_eq_some_iff,
      d.decode_eq_some_iff, Prod.mk.injEq]
    constructor
    · rintro ⟨_, _, ⟨ha, -, rfl⟩, _, _, ⟨hb, hrest, rfl⟩, ⟨rfl, rfl⟩, rfl⟩
      exact ⟨⟨ha, hb⟩, hrest, append_assoc _ _ _⟩
    · rintro ⟨⟨ha, hb⟩, hrest, rfl⟩
      exact ⟨a, _, ⟨ha, trivial, (append_assoc _ _ _).symm⟩, b, rest, ⟨hb, hrest, rfl⟩,
        ⟨rfl, rfl⟩, rfl⟩

/-- The values of `β`, written as values of `α`; `back` recognizes them. -/
def comap (hback : ∀ a b, back a = some b ↔ f b = a) : Encoding Tail β where
  encode b := c.encode (f b)
  decode s := (c.decode s).bind fun x => (back x.1).map fun b => (b, x.2)
  Fits b := c.Fits (f b)
  decode_eq_some_iff s b rest := by
    simp only [bind_eq_some_iff, map_eq_some_iff, Prod.exists, c.decode_eq_some_iff, hback,
      Prod.mk.injEq]
    constructor
    · rintro ⟨_, _, h, _, rfl, rfl, rfl⟩
      exact h
    · intro h
      exact ⟨f b, rest, h, b, rfl, rfl, rfl⟩

/-- The values of `β`, which are those of `α` in another form. -/
def iso (hgf : ∀ b, g (f b) = b) (hfg : ∀ a, f (g a) = a) : Encoding Tail β :=
  c.comap f (fun a => some (g a)) fun a b => by
    rw [Option.some.injEq]
    constructor
    · rintro rfl
      exact hfg a
    · rintro rfl
      exact hgf b

def total (hc : ∀ a, c.Fits a) : Encoding Tail α where
  encode := c.encode
  decode := c.decode
  Fits _ := True
  decode_eq_some_iff s a rest := by simp [c.decode_eq_some_iff, hc]

/-- The values `mk b` of `α`, written as the values `b` of `β`. The others do not fit. -/
def variant (c : Encoding Tail β) (mk : β → α) (get : α → Option β)
    (hmk : ∀ b, get (mk b) = some b) (hget : ∀ a b, get a = some b → mk b = a) :
    Encoding Tail α where
  encode a := ((get a).map c.encode).getD []
  decode s := (c.decode s).map fun x => (mk x.1, x.2)
  Fits a := ∃ b, get a = some b ∧ c.Fits b
  decode_eq_some_iff s a rest := by
    simp only [map_eq_some_iff, Prod.exists, c.decode_eq_some_iff, Prod.mk.injEq]
    constructor
    · rintro ⟨b, _, ⟨hb, hrest, rfl⟩, rfl, rfl⟩
      exact ⟨⟨b, hmk b, hb⟩, hrest, by rw [hmk]; rfl⟩
    · rintro ⟨⟨b, hab, hb⟩, hrest, rfl⟩
      refine ⟨b, rest, ⟨hb, hrest, ?_⟩, hget a b hab, rfl⟩
      rw [hab]; rfl

theorem variant_fits_mk {c : Encoding Tail β} {mk : β → α} {get : α → Option β}
    {hmk : ∀ b, get (mk b) = some b} {hget : ∀ a b, get a = some b → mk b = a} {a : α}
    (h : (c.variant mk get hmk hget).Fits a) : ∃ b, mk b = a := by
  obtain ⟨b, hb, -⟩ := h
  exact ⟨b, hget a b hb⟩

/-- A leading value says how the rest is written. -/
def dispatch (htag : ∀ t a, (body t).Fits a → tagOf a = t) : Encoding Tail α where
  encode a := tag.encode (tagOf a) ++ (body (tagOf a)).encode a
  decode s := (tag.decode s).bind fun x => (body x.1).decode x.2
  Fits a := tag.Fits (tagOf a) ∧ (body (tagOf a)).Fits a
  decode_eq_some_iff s a rest := by
    simp only [bind_eq_some_iff, Prod.exists, tag.decode_eq_some_iff, (body _).decode_eq_some_iff]
    constructor
    · rintro ⟨t, _, ⟨ht, -, rfl⟩, ha, hrest, rfl⟩
      obtain rfl := htag t a ha
      exact ⟨⟨ht, ha⟩, hrest, append_assoc _ _ _⟩
    · rintro ⟨⟨ht, ha⟩, hrest, rfl⟩
      exact ⟨tagOf a, _, ⟨ht, trivial, (append_assoc _ _ _).symm⟩, ha, hrest, rfl⟩

/-! ### Lists and enumerations -/

def decodeList (c : Codec σ α) : ℕ → List σ → Option (List α × List σ)
  | 0, s => some ([], s)
  | n + 1, s => (c.decode s).bind fun x => (decodeList c n x.2).map fun y => (x.1 :: y.1, y.2)

def listOf (c : Codec σ α) (n : ℕ) : Codec σ (List α) where
  encode l := l.flatMap c.encode
  decode := decodeList c n
  Fits l := l.length = n ∧ ∀ a ∈ l, c.Fits a
  decode_eq_some_iff s l rest := by
    induction n generalizing s l rest with
    | zero =>
      cases l with
      | nil => simp [decodeList, eq_comm]
      | cons a l => simp [decodeList]
    | succ n ih =>
      simp only [decodeList, bind_eq_some_iff, map_eq_some_iff, Prod.exists, ih,
        c.decode_eq_some_iff, Prod.mk.injEq]
      constructor
      · rintro ⟨a, _, ⟨ha, -, rfl⟩, l', _, ⟨⟨rfl, hl'⟩, -, rfl⟩, rfl, rfl⟩
        exact ⟨⟨rfl, by simpa using ⟨ha, hl'⟩⟩, trivial, by simp⟩
      · rintro ⟨⟨hlen, hl⟩, -, rfl⟩
        cases l with
        | nil => simp at hlen
        | cons a l =>
          rw [forall_mem_cons] at hl
          exact ⟨a, _, ⟨hl.1, trivial, by simp⟩, l, rest, ⟨⟨by simpa using hlen, hl.2⟩, trivial,
            rfl⟩, rfl, rfl⟩

/-- The values of a finite type, each written as the value `f` gives it. -/
def enum [DecidableEq α] (hf : Function.Injective f) (values : List β) (hvalues : ∀ b, b ∈ values) :
    Encoding Tail β :=
  c.comap f (fun a => values.find? fun b => f b = a) fun a b => by
    constructor
    · intro h
      simpa using find?_some h
    · rintro rfl
      obtain ⟨b', hb'⟩ : ∃ b', values.find? (fun b' => f b' = f b) = some b' := by
        rw [← isSome_iff_exists, find?_isSome]
        exact ⟨b, hvalues b, by simp⟩
      have hfb : f b' = f b := by simpa using find?_some hb'
      rw [hb', hf hfb]

/-- A value behind the symbol `present`, or the symbol `absent` alone. -/
def optional [DecidableEq σ] (present absent : σ) (h : absent ≠ present) (c : Codec σ α) :
    Codec σ (Option α) where
  encode
    | some a => present :: c.encode a
    | none => [absent]
  decode
    | [] => none
    | x :: s =>
      if x = present then (c.decode s).map fun y => (some y.1, y.2)
      else if x = absent then some (none, s)
      else none
  Fits o := ∀ a ∈ o, c.Fits a
  decode_eq_some_iff s o rest := by
    cases s with
    | nil => cases o <;> simp
    | cons x s =>
      cases o with
      | none =>
        by_cases hp : x = present
        · subst hp
          simp [h]
        · simp only [if_neg hp]
          split_ifs with hx
          · simp [hx, eq_comm]
          · simp [Ne.symm hx]
      | some a =>
        by_cases hp : x = present
        · simp [hp, map_eq_some_iff, c.decode_eq_some_iff]
        · simp only [if_neg hp]
          split_ifs with hx <;> simp [Ne.symm hp]

/-! ### Whole words -/

def whole (c : Codec σ α) : Format σ α where
  encode := c.encode
  decode s := (c.decode s).filter (·.2.isEmpty)
  Fits := c.Fits
  decode_eq_some_iff s a rest := by
    simp only [Option.filter_eq_some_iff, c.decode_eq_some_iff, List.isEmpty_iff]
    tauto

/-- A value whose word is empty at its default. -/
def omitted [DecidableEq α] (c : Codec σ α) (default : α) (hc : ∀ a, c.Fits a → c.encode a ≠ []) :
    Format σ α where
  encode a := if a = default then [] else c.encode a
  decode
    | [] => some (default, [])
    | x :: s => ((whole c).decode (x :: s)).filter (·.1 ≠ default)
  Fits a := a ≠ default → c.Fits a
  decode_eq_some_iff s a rest := by
    by_cases ha : a = default
    · cases s with
      | nil => simp [ha, eq_comm]
      | cons x s => simp +contextual [ha]
    · cases s with
      | nil =>
        simp only [ha, Ne.symm ha, if_false, ne_eq, not_false_eq_true, forall_const,
          Option.some.injEq, Prod.mk.injEq, false_and, append_eq_nil_iff, false_iff]
        rintro ⟨hfits, -, hnil, -⟩
        exact hc a hfits hnil
      | cons x s =>
        simp only [filter_eq_some_iff, (whole c).decode_eq_some_iff]
        simp [ha, whole]

def decodeAll (c : Format σ α) (s : List σ) : Option α := (c.decode s).map (·.1)

theorem decodeAll_eq_some_iff {c : Format σ α} {s : List σ} {a : α} :
    c.decodeAll s = some a ↔ c.Fits a ∧ c.encode a = s := by simp [decodeAll, c.decode_eq_some_iff]

/-! ### What is written, and what fits -/

@[simp] theorem encode_one (x : σ) : one.encode x = [x] := rfl

@[simp] theorem fits_one (x : σ) : one.Fits x := trivial

@[simp] theorem encode_pair (c : Codec σ α) (d : Encoding Tail β) (p : α × β) :
    (pair c d).encode p = c.encode p.1 ++ d.encode p.2 := rfl

@[simp] theorem fits_pair (c : Codec σ α) (d : Encoding Tail β) (p : α × β) :
    (pair c d).Fits p ↔ c.Fits p.1 ∧ d.Fits p.2 := Iff.rfl

@[simp] theorem encode_comap (hback : ∀ a b, back a = some b ↔ f b = a) (b : β) :
    (c.comap f back hback).encode b = c.encode (f b) := rfl

@[simp] theorem fits_comap (hback : ∀ a b, back a = some b ↔ f b = a) (b : β) :
    (c.comap f back hback).Fits b ↔ c.Fits (f b) := Iff.rfl

@[simp] theorem encode_iso (hgf : ∀ b, g (f b) = b) (hfg : ∀ a, f (g a) = a) (b : β) :
    (c.iso f g hgf hfg).encode b = c.encode (f b) := rfl

@[simp] theorem fits_iso (hgf : ∀ b, g (f b) = b) (hfg : ∀ a, f (g a) = a) (b : β) :
    (c.iso f g hgf hfg).Fits b ↔ c.Fits (f b) := Iff.rfl

@[simp] theorem encode_enum [DecidableEq α] (hf : Function.Injective f) (values : List β)
    (hvalues : ∀ b, b ∈ values) (b : β) : (c.enum f hf values hvalues).encode b = c.encode
    (f b) := rfl

@[simp] theorem encode_total (hc : ∀ a, c.Fits a) (a : α) :
    (c.total hc).encode a = c.encode a := rfl

@[simp] theorem fits_total (hc : ∀ a, c.Fits a) (a : α) : (c.total hc).Fits a := trivial

section

variable (c : Encoding Tail β) (mk : β → α) (get : α → Option β) (hmk : ∀ b, get (mk b) = some b)
  (hget : ∀ a b, get a = some b → mk b = a) (a : α)
include hmk hget

@[simp] theorem encode_variant : (c.variant mk get hmk hget).encode a = ((get a).map c.encode).getD
    [] := rfl

@[simp] theorem fits_variant : (c.variant mk get hmk hget).Fits a ↔ ∃ b, get a = some b ∧
    c.Fits b := Iff.rfl

end

@[simp] theorem encode_dispatch (htag : ∀ t a, (body t).Fits a → tagOf a = t) (a : α) :
    (dispatch tag tagOf body htag).encode a = tag.encode
    (tagOf a) ++ (body (tagOf a)).encode a := rfl

@[simp] theorem fits_dispatch (htag : ∀ t a, (body t).Fits a → tagOf a = t) (a : α) :
    (dispatch tag tagOf body htag).Fits a ↔ tag.Fits (tagOf a) ∧ (body (tagOf a)).Fits a := Iff.rfl

section

variable [DecidableEq α] (c : Codec σ α) (default : α)
  (hc : ∀ a, c.Fits a → c.encode a ≠ []) (a : α)
include hc

@[simp] theorem encode_omitted :
    (omitted c default hc).encode a = if a = default then [] else c.encode a := rfl

@[simp] theorem fits_omitted : (omitted c default hc).Fits a ↔ (a ≠ default → c.Fits a) := Iff.rfl

end

/-! ### Bytes -/

/-- A number below `256 ^ w`, as `w` bytes. -/
def bigEndian : Codec UInt8 ℕ where
  encode := beBytes w
  decode s := ((take w).decode s).map fun x => (ofBeBytes x.1, x.2)
  Fits n := n < 256 ^ w
  decode_eq_some_iff s n rest := by
    simp only [map_eq_some_iff, Prod.exists, (take w).decode_eq_some_iff, Prod.mk.injEq]
    constructor
    · rintro ⟨bs, _, ⟨rfl, -, rfl⟩, rfl, rfl⟩
      exact ⟨ofBeBytes_lt bs, trivial, congrArg (· ++ _) (beBytes_ofBeBytes bs)⟩
    · rintro ⟨hn, -, rfl⟩
      exact ⟨beBytes w n, rest, ⟨length_beBytes w n, trivial, rfl⟩, ofBeBytes_beBytes_of_lt hn, rfl⟩

/-- Bytes behind their number, which takes `w` bytes. -/
def counted : Codec UInt8 (List UInt8) := dispatch (bigEndian w) List.length take fun _ _ h => h

/-- A list behind its length, which takes `w` bytes. -/
def countedList (c : Codec UInt8 α) : Codec UInt8 (List α) :=
  dispatch (bigEndian w) List.length (listOf c) fun _ _ h => h.1

end Encoding

end Jolt.Lib.Encodings

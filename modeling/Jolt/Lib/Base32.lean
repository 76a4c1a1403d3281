import Jolt.Lib.BigEndian

/-! # Base32

Lowercase base32 without padding: the bytes are read as one big-endian number, shifted left until
its length is a multiple of five bits, and written with one letter for every five bits. Decoding
gives the bytes back (`decode_encode`). -/

namespace Jolt.Lib.Base32

open BigEndian List Nat

/-- The `w` low digits of `n` in base `b`, most significant first. -/
def beDigits (b : ℕ) : ℕ → ℕ → List ℕ
  | 0, _ => []
  | w + 1, n => beDigits b w (n / b) ++ [n % b]

def ofBeDigits (b : ℕ) (ds : List ℕ) : ℕ := ds.foldl (fun acc d => acc * b + d) 0

@[simp] theorem length_beDigits (b : ℕ) : ∀ w n, (beDigits b w n).length = w
  | 0, _ => rfl
  | w + 1, n => by simp [beDigits, length_beDigits b w]

theorem ofBeDigits_beDigits (b : ℕ) : ∀ w n, ofBeDigits b (beDigits b w n) = n % b ^ w
  | 0, n => by simp [beDigits, ofBeDigits, mod_one]
  | w + 1, n => by
    have ih := ofBeDigits_beDigits b w (n / b)
    unfold ofBeDigits at ih ⊢
    rw [beDigits, foldl_append, ih, foldl_cons, foldl_nil, pow_succ', mod_mul]
    ring

theorem lt_of_mem_beDigits {b : ℕ} (hb : 0 < b) : ∀ {w n d : ℕ}, d ∈ beDigits b w n → d < b
  | 0, _, _, h => by simp [beDigits] at h
  | w + 1, n, d, h => by
    rcases mem_append.mp h with h | h
    · exact lt_of_mem_beDigits hb h
    · rw [mem_singleton.mp h]
      exact mod_lt n hb

/-! ### Letters -/

/-- The letter of a digit: `a` to `z`, then `2` to `7`. -/
def letter (d : ℕ) : Char := if d < 26 then Char.ofNat (97 + d) else Char.ofNat (24 + d)

def digitOf (c : Char) : ℕ := if 97 ≤ c.toNat then c.toNat - 97 else c.toNat - 24

theorem digitOf_letter {d : ℕ} (h : d < 32) : digitOf (letter d) = d := by
  have hall : ∀ k : Fin 32, digitOf (letter k) = k := by decide
  exact hall ⟨d, h⟩

/-! ### Encoding and decoding -/

def width (n : ℕ) : ℕ := (8 * n + 4) / 5

/-- The number of zero bits that fill the last letter. -/
def fill (n : ℕ) : ℕ := 5 * width n - 8 * n

def encode (bs : List UInt8) : List Char :=
  (beDigits 32 (width bs.length) (ofBeBytes bs * 2 ^ fill bs.length)).map letter

def decode (cs : List Char) : List UInt8 :=
  let n := 5 * cs.length / 8
  beBytes n (ofBeDigits 32 (cs.map digitOf) / 2 ^ fill n)

theorem decode_encode (bs : List UInt8) : decode (encode bs) = bs := by
  have hlen : 5 * (encode bs).length / 8 = bs.length := by
    unfold encode width
    rw [length_map, length_beDigits]
    omega
  have hmap : (encode bs).map digitOf = beDigits 32 (width bs.length) (ofBeBytes bs *
    2 ^ fill bs.length) := by
    unfold encode
    rw [map_map]
    refine (map_congr_left fun d hd => ?_).trans (map_id _)
    exact digitOf_letter (lt_of_mem_beDigits (by decide) hd)
  have hlt : ofBeBytes bs * 2 ^ fill bs.length < 32 ^ width bs.length := by
    have hbits : 8 * bs.length + fill bs.length = 5 * width bs.length := by
      unfold fill width
      omega
    calc ofBeBytes bs * 2 ^ fill bs.length
        < 256 ^ bs.length * 2 ^ fill bs.length := Nat.mul_lt_mul_of_pos_right (ofBeBytes_lt bs)
          (Nat.two_pow_pos _)
      _ = 2 ^ (8 * bs.length + fill bs.length) := by
          rw [pow_add, pow_mul]
          norm_num
      _ = 32 ^ width bs.length := by
          rw [hbits, pow_mul]
          norm_num
  unfold decode
  simp only [hlen, hmap, ofBeDigits_beDigits]
  rw [Nat.mod_eq_of_lt hlt, Nat.mul_div_cancel _ (Nat.two_pow_pos _), beBytes_ofBeBytes]

end Jolt.Lib.Base32

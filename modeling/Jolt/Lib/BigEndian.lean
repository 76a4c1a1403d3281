import Mathlib.Data.List.Induction
import Mathlib.Tactic.Ring

/-! # Big-endian integers

`beBytes w n` are the `w` low bytes of `n`, most significant first (`to_be_bytes`), and `ofBeBytes`
reads them back: what is read is `n` modulo `256 ^ w` (`ofBeBytes_beBytes`), and `w` bytes are the
encoding of what is read from them (`beBytes_ofBeBytes`). -/

namespace Jolt.Lib.BigEndian

open List

/-- The `w` low bytes of `n`, most significant first. -/
def beBytes : ℕ → ℕ → List UInt8
  | 0, _ => []
  | w + 1, n => beBytes w (n / 256) ++ [UInt8.ofNat n]

/-- The number a list of bytes denotes, most significant first. -/
def ofBeBytes (bs : List UInt8) : ℕ := bs.foldl (fun acc b => acc * 256 + b.toNat) 0

@[simp] theorem length_beBytes : ∀ w n, (beBytes w n).length = w
  | 0, _ => rfl
  | w + 1, n => by simp [beBytes, length_beBytes w]

theorem ofBeBytes_append_singleton (bs : List UInt8) (b : UInt8) :
    ofBeBytes (bs ++ [b]) = ofBeBytes bs * 256 + b.toNat := by simp [ofBeBytes]

theorem ofBeBytes_beBytes : ∀ w n, ofBeBytes (beBytes w n) = n % 256 ^ w
  | 0, n => by simp [beBytes, ofBeBytes, Nat.mod_one]
  | w + 1, n => by
    have hb : (UInt8.ofNat n).toNat = n % 256 := by simp
    rw [beBytes, ofBeBytes_append_singleton, ofBeBytes_beBytes w, hb, pow_succ', Nat.mod_mul]
    ring

theorem ofBeBytes_beBytes_of_lt {w n : ℕ} (h : n < 256 ^ w) : ofBeBytes (beBytes w n) = n := by
  rw [ofBeBytes_beBytes, Nat.mod_eq_of_lt h]

theorem ofBeBytes_lt (bs : List UInt8) : ofBeBytes bs < 256 ^ bs.length := by
  induction bs using List.reverseRecOn with
  | nil => simp [ofBeBytes]
  | append_singleton bs b ih =>
    have hb := b.toNat_lt
    rw [ofBeBytes_append_singleton, length_append, length_singleton, pow_succ]
    omega

theorem beBytes_ofBeBytes (bs : List UInt8) : beBytes bs.length (ofBeBytes bs) = bs := by
  induction bs using List.reverseRecOn with
  | nil => rfl
  | append_singleton bs b ih =>
    have hb := b.toNat_lt
    have hdiv : (ofBeBytes bs * 256 + b.toNat) / 256 = ofBeBytes bs := by omega
    have hmod : UInt8.ofNat (ofBeBytes bs * 256 + b.toNat) = b := by
      apply UInt8.toNat_inj.mp
      simp only [UInt8.toNat_ofNat']
      omega
    rw [ofBeBytes_append_singleton, length_append, length_singleton, beBytes, hdiv, hmod, ih]

end Jolt.Lib.BigEndian

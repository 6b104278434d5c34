import Mathlib.Data.Nat.Bitwise
import Mathlib.Data.Nat.Digits.Defs
import Mathlib.Tactic.Ring
import PutInPipe.Library.Text

/-!
# Numbers as bytes

`ofLE` is the number whose digits in base 256 are the bytes, the least significant one first, and
`toLE` writes a number in so many bytes, whatever does not fit left out.
-/

open Text (Bytes)

namespace Endian

def ofLE (b : Bytes) : ℕ := Nat.ofDigits 256 (b.map UInt8.toNat)

def toLE : ℕ → ℕ → Bytes
  | 0, _ => []
  | k + 1, n => UInt8.ofNat n :: toLE k (n / 256)

def toBE (k n : ℕ) : Bytes := (toLE k n).reverse

@[simp]
theorem ofLE_nil :
  ofLE [] = 0
  := rfl

theorem ofLE_cons (c : UInt8) (b : Bytes) :
  ofLE (c :: b) = c.toNat + 256 * ofLE b
  := by
  rw [ofLE, List.map_cons, Nat.ofDigits_cons]
  rfl

theorem ofLE_append (a b : Bytes) :
  ofLE (a ++ b) = ofLE a + 256 ^ a.length * ofLE b
  := by
  rw [ofLE, List.map_append, Nat.ofDigits_append, List.length_map]
  rfl

theorem ofLE_lt (b : Bytes) :
  ofLE b < 256 ^ b.length
  := by
  induction b with
  | nil => apply Nat.one_pos
  | cons c b ih =>
      have hc := c.toNat_lt
      rw [ofLE_cons, List.length_cons, Nat.pow_succ]
      omega

@[simp]
theorem length_toLE (k n : ℕ) :
  (toLE k n).length = k
  := by
  induction k generalizing n with
  | zero => rfl
  | succ k ih => rw [toLE, List.length_cons, ih]

theorem length_toBE (k n : ℕ) :
  (toBE k n).length = k
  := by rw [toBE, List.length_reverse, length_toLE]

theorem ofLE_toLE (k n : ℕ) :
  ofLE (toLE k n) = n % 256 ^ k
  := by
  induction k generalizing n with
  | zero => rw [Nat.pow_zero, Nat.mod_one]; rfl
  | succ k ih =>
      have hbyte : (UInt8.ofNat n).toNat = n % 256 := rfl
      rw [toLE, ofLE_cons, ih, hbyte, Nat.pow_succ, Nat.mul_comm _ 256, Nat.mod_mul]

/-- Bytes are determined by their number and how many there are. -/
theorem toLE_ofLE (b : Bytes) :
  toLE b.length (ofLE b) = b
  := by
  induction b with
  | nil => rfl
  | cons c b ih =>
      have hc := c.toNat_lt
      have hdiv : (c.toNat + 256 * ofLE b) / 256 = ofLE b := by omega
      have hbyte : UInt8.ofNat (c.toNat + 256 * ofLE b) = c := by
        apply UInt8.toNat_inj.mp
        rw [UInt8.toNat_ofNat']
        omega
      rw [List.length_cons, ofLE_cons, toLE, hdiv, hbyte, ih]

theorem ofLE_injective {a b : Bytes} (hlength : a.length = b.length) (h : ofLE a = ofLE b) :
  a = b
  := by rw [← toLE_ofLE a, ← toLE_ofLE b, hlength, h]

/-- What does not fit is left out. -/
theorem toLE_mod {k m : ℕ} (h : 256 ^ k ∣ m) (n : ℕ) :
  toLE k (n % m) = toLE k n
  := by
  apply ofLE_injective
  · rw [length_toLE, length_toLE]
  · rw [ofLE_toLE, ofLE_toLE, Nat.mod_mod_of_dvd _ h]

theorem ofLE_replicate_zero (k : ℕ) :
  ofLE (List.replicate k 0) = 0
  := by
  induction k with
  | zero => rfl
  | succ k ih =>
      rw [List.replicate_succ, ofLE_cons, ih]
      rfl

theorem toLE_xor (k a b : ℕ) :
  toLE k (a ^^^ b) = List.zipWith (· ^^^ ·) (toLE k a) (toLE k b)
  := by
  induction k generalizing a b with
  | zero => rfl
  | succ k ih =>
      have hdiv : (a ^^^ b) / 256 = a / 256 ^^^ b / 256 := Nat.xor_div_two_pow (n := 8)
      rw [toLE, toLE, toLE, List.zipWith_cons_cons, UInt8.ofNat_xor, hdiv, ih]

/-! ### Bits of numbers -/

/-- The bits below `k` and those above it are masked apart. -/
theorem and_eq_add (k x y : ℕ) :
  x &&& y = (x % 2 ^ k &&& y % 2 ^ k) + 2 ^ k * (x / 2 ^ k &&& y / 2 ^ k)
  := by
  rw [← Nat.and_mod_two_pow, ← Nat.and_div_two_pow, Nat.mod_add_div]

/-- Bits in different places add up. -/
theorem or_mul_eq_add {k x : ℕ} (h : x < 2 ^ k) (y : ℕ) :
  x ||| y * 2 ^ k = x + y * 2 ^ k
  := by
  rw [Nat.add_comm, ← Nat.shiftLeft_eq, Nat.shiftLeft_add_eq_or_of_lt h, Nat.or_comm]

/-- A byte at its place in a word of four. -/
theorem toNat_toUInt32_shl (c : UInt8) {s : UInt32} {k : ℕ} (hs : s.toNat = k) (hk : k ≤ 24) :
  (c.toUInt32 <<< s).toNat = c.toNat * 2 ^ k
  := by
  have hc := c.toNat_lt
  have hpow : 2 ^ k ≤ 2 ^ 24 := Nat.pow_le_pow_right (by decide) hk
  have hle : c.toNat * 2 ^ k ≤ 255 * 2 ^ 24 := Nat.mul_le_mul (by omega) hpow
  have hturn : k % 32 = k := by omega
  rw [UInt32.toNat_shiftLeft, hs, hturn, Nat.shiftLeft_eq, UInt8.toNat_toUInt32,
    Nat.mod_eq_of_lt (by omega)]

/-- Four bytes that are put together in a word. -/
theorem toNat_or_bytes (c0 c1 c2 c3 : UInt8) :
  (c0.toUInt32 ||| c1.toUInt32 <<< 8 ||| c2.toUInt32 <<< 16 ||| c3.toUInt32 <<< 24).toNat
    = ofLE [c0, c1, c2, c3]
  := by
  have h0 := c0.toNat_lt
  have h1 := c1.toNat_lt
  have h2 := c2.toNat_lt
  have h8 : (c1.toUInt32 <<< 8).toNat = c1.toNat * 2 ^ 8 := toNat_toUInt32_shl c1 rfl (by decide)
  have h16 : (c2.toUInt32 <<< 16).toNat = c2.toNat * 2 ^ 16 :=
    toNat_toUInt32_shl c2 rfl (by decide)
  have h24 : (c3.toUInt32 <<< 24).toNat = c3.toNat * 2 ^ 24 :=
    toNat_toUInt32_shl c3 rfl (by decide)
  rw [UInt32.toNat_or, UInt32.toNat_or, UInt32.toNat_or, UInt8.toNat_toUInt32, h8, h16, h24]
  rw [or_mul_eq_add h0, or_mul_eq_add (k := 16) (by omega), or_mul_eq_add (by omega), ofLE_cons,
    ofLE_cons, ofLE_cons, ofLE_cons, ofLE_nil]
  omega

theorem toNat_shr {s : UInt64} {k : ℕ} (h : s.toNat = k) (hk : k < 64) (x : UInt64) :
  (x >>> s).toNat = x.toNat / 2 ^ k
  := by rw [UInt64.toNat_shiftRight, h, Nat.mod_eq_of_lt hk, Nat.shiftRight_eq_div_pow]

/-- The bytes of a word of eight. -/
theorem toLE_toNat (v : UInt64) :
  [v.toUInt8, (v >>> 8).toUInt8, (v >>> 16).toUInt8, (v >>> 24).toUInt8, (v >>> 32).toUInt8,
      (v >>> 40).toUInt8, (v >>> 48).toUInt8, (v >>> 56).toUInt8]
    = toLE 8 v.toNat
  := by
  have hbyte : ∀ (s : UInt64) (k : ℕ), s.toNat = k → k < 64 →
      (v >>> s).toUInt8 = UInt8.ofNat (v.toNat / 2 ^ k) := by
    intro s k hs hk
    apply UInt8.toNat_inj.mp
    rw [UInt64.toNat_toUInt8, toNat_shr hs hk, UInt8.toNat_ofNat']
  have hlow : v.toUInt8 = UInt8.ofNat v.toNat := by
    apply UInt8.toNat_inj.mp
    rw [UInt64.toNat_toUInt8, UInt8.toNat_ofNat']
  rw [hlow, hbyte 8 8 rfl (by decide), hbyte 16 16 rfl (by decide),
    hbyte 24 24 rfl (by decide), hbyte 32 32 rfl (by decide), hbyte 40 40 rfl (by decide),
    hbyte 48 48 rfl (by decide), hbyte 56 56 rfl (by decide)]
  simp only [toLE, Nat.div_div_eq_div_mul, Nat.reducePow, Nat.reduceMul]

end Endian

import Mathlib.Data.Nat.ModEq
import PutInPipe.Library.Blocks
import PutInPipe.Library.Endian

/-!
# Poly1305

The one-time authenticator of RFC 8439, as the code computes it: the numbers below `2 ^ 130` are
three words of 44, 44 and 42 bits, and products are words of 128 bits.
-/

open Text (Bytes)
open Blocks Endian

namespace Poly1305

def blockSize : ℕ := 16

/-- Three words, for a number in base `2 ^ 44`. -/
structure Limbs where
  x0 : UInt64
  x1 : UInt64
  x2 : UInt64
deriving DecidableEq, Repr

/-- `poly1305_state_internal_t`. -/
structure State where
  r : Limbs
  h : Limbs
  pad0 : UInt64
  pad1 : UInt64
  leftover : ℕ
  buffer : Bytes
  final : Bool
deriving DecidableEq, Repr

/-- `U8TO64`. -/
def load (p : Bytes) : UInt64 :=
  let byte (i : ℕ) : UInt64 := (p.getD i 0).toUInt64
  byte 0 ||| byte 1 <<< 8 ||| byte 2 <<< 16 ||| byte 3 <<< 24 ||| byte 4 <<< 32 ||| byte 5 <<< 40
    ||| byte 6 <<< 48 ||| byte 7 <<< 56

/-- `U64TO8`. -/
def store (v : UInt64) : Bytes :=
  [v.toUInt8, (v >>> 8).toUInt8, (v >>> 16).toUInt8, (v >>> 24).toUInt8, (v >>> 32).toUInt8,
    (v >>> 40).toUInt8, (v >>> 48).toUInt8, (v >>> 56).toUInt8]

/-- The macro `MUL`. -/
def mul (x y : UInt64) : BitVec 128 := x.toBitVec.setWidth 128 * y.toBitVec.setWidth 128

/-- The macro `SHR`. -/
def shr (d : BitVec 128) (shift : ℕ) : UInt64 := ⟨(d >>> shift).setWidth 64⟩

/-- The macro `LO`. -/
def lo (d : BitVec 128) : UInt64 := ⟨d.setWidth 64⟩

/-- The macro `ADDLO`. -/
def addlo (d : BitVec 128) (c : UInt64) : BitVec 128 := d + c.toBitVec.setWidth 128

/-- The words of a number of 128 bits that is given as two words. -/
def split (t0 t1 : UInt64) : Limbs where
  x0 := t0 &&& 0xfffffffffff
  x1 := (t0 >>> 44 ||| t1 <<< 20) &&& 0xfffffffffff
  x2 := (t1 >>> 24) &&& 0x3ffffffffff

/-- `poly1305_init`. What is in the buffer stays. -/
def init (st : State) (key : Bytes) : State :=
  let t0 := load key
  let t1 := load (key.drop 8)
  { r := ⟨t0 &&& 0xffc0fffffff, (t0 >>> 44 ||| t1 <<< 20) &&& 0xfffffc0ffff,
      (t1 >>> 24) &&& 0x00ffffffc0f⟩
    h := ⟨0, 0, 0⟩
    pad0 := load (key.drop 16)
    pad1 := load (key.drop 24)
    leftover := 0
    buffer := st.buffer
    final := false }

/-- The loop of `poly1305_blocks`: `h += m[i]`. -/
def addMessage (hibit : UInt64) (h : Limbs) (m : Bytes) : Limbs :=
  let t := split (load m) (load (m.drop 8))
  ⟨h.x0 + t.x0, h.x1 + t.x1, h.x2 + (t.x2 ||| hibit)⟩

/-- The loop of `poly1305_blocks`: `h *= r`. -/
def multiply (h r : Limbs) : BitVec 128 × BitVec 128 × BitVec 128 :=
  let s1 := r.x1 * ((5 : UInt64) <<< 2)
  let s2 := r.x2 * ((5 : UInt64) <<< 2)
  (mul h.x0 r.x0 + mul h.x1 s2 + mul h.x2 s1,
    mul h.x0 r.x1 + mul h.x1 r.x0 + mul h.x2 s2,
    mul h.x0 r.x2 + mul h.x1 r.x1 + mul h.x2 r.x0)

/-- The loop of `poly1305_blocks`: `(partial) h %= p`. -/
def partialMod (d0 d1 d2 : BitVec 128) : Limbs :=
  let c := shr d0 44
  let h0 := lo d0 &&& 0xfffffffffff
  let d1 := addlo d1 c
  let c := shr d1 44
  let h1 := lo d1 &&& 0xfffffffffff
  let d2 := addlo d2 c
  let c := shr d2 42
  let h2 := lo d2 &&& 0x3ffffffffff
  let h0 := h0 + c * 5
  let c := h0 >>> 44
  let h0 := h0 &&& 0xfffffffffff
  let h1 := h1 + c
  ⟨h0, h1, h2⟩

/-- One turn of the loop of `poly1305_blocks`. -/
def block (r : Limbs) (hibit : UInt64) (h : Limbs) (m : Bytes) : Limbs :=
  let d := multiply (addMessage hibit h m) r
  partialMod d.1 d.2.1 d.2.2

/-- The loop of `poly1305_blocks`, for so many turns. -/
def blocksLoop (r : Limbs) (hibit : UInt64) : ℕ → Limbs → Bytes → Limbs
  | 0, h, _ => h
  | turns + 1, h, m => blocksLoop r hibit turns (block r hibit h m) (m.drop blockSize)

/-- `poly1305_blocks`. -/
def blocks (st : State) (m : Bytes) : State :=
  let hibit : UInt64 := if st.final then 0 else (1 : UInt64) <<< 40
  { st with h := blocksLoop st.r hibit (m.length / blockSize) st.h m }

/-- `poly1305_update`, after what was left over. -/
def updateBlocks (st : State) (m : Bytes) : State :=
  let want := m.length - m.length % blockSize
  let st := if blockSize ≤ m.length then blocks st (m.take want) else st
  let m := if blockSize ≤ m.length then m.drop want else m
  if m ≠ [] then
    { st with
      buffer := fill st.buffer st.leftover m
      leftover := st.leftover + m.length }
  else st

/-- `poly1305_update`. -/
def update (st : State) (m : Bytes) : State :=
  if st.leftover ≠ 0 then
    let want := min (blockSize - st.leftover) m.length
    let st :=
      { st with
        buffer := fill st.buffer st.leftover (m.take want)
        leftover := st.leftover + want }
    if st.leftover < blockSize then st
    else updateBlocks { blocks st st.buffer with leftover := 0 } (m.drop want)
  else updateBlocks st m

/-- The carries from one word to the next, and from the last to the first. -/
def carryPass (h : Limbs) : Limbs :=
  let c := h.x1 >>> 44
  let h1 := h.x1 &&& 0xfffffffffff
  let h2 := h.x2 + c
  let c := h2 >>> 42
  let h2 := h2 &&& 0x3ffffffffff
  let h0 := h.x0 + c * 5
  let c := h0 >>> 44
  let h0 := h0 &&& 0xfffffffffff
  let h1 := h1 + c
  ⟨h0, h1, h2⟩

/-- `poly1305_finish` makes all the carries two times. -/
def carry (h : Limbs) : Limbs := carryPass (carryPass h)

/-- `poly1305_finish` selects `h` if `h < p`, and `h - p` if `h ≥ p`. -/
def select (h : Limbs) : Limbs :=
  let g0 := h.x0 + 5
  let c := g0 >>> 44
  let g0 := g0 &&& 0xfffffffffff
  let g1 := h.x1 + c
  let c := g1 >>> 44
  let g1 := g1 &&& 0xfffffffffff
  let g2 := h.x2 + c - ((1 : UInt64) <<< 42)
  let c := (g2 >>> 63) - 1
  let g0 := g0 &&& c
  let g1 := g1 &&& c
  let g2 := g2 &&& c
  let c := ~~~c
  ⟨(h.x0 &&& c) ||| g0, (h.x1 &&& c) ||| g1, (h.x2 &&& c) ||| g2⟩

/-- `poly1305_finish` adds the other half of the key. -/
def addPad (h : Limbs) (t : Limbs) : Limbs :=
  let h0 := h.x0 + t.x0
  let c := h0 >>> 44
  let h0 := h0 &&& 0xfffffffffff
  let h1 := h.x1 + (t.x1 + c)
  let c := h1 >>> 44
  let h1 := h1 &&& 0xfffffffffff
  let h2 := h.x2 + (t.x2 + c)
  let h2 := h2 &&& 0x3ffffffffff
  ⟨h0, h1, h2⟩

/-- `poly1305_finish`: the state that it leaves and the tag. -/
def finish (st : State) : State × Bytes :=
  let st :=
    if st.leftover ≠ 0 then
      let buffer := st.buffer.set st.leftover 1
      let zeros := List.replicate (blockSize - (st.leftover + 1)) 0
      let st := { st with buffer := fill buffer (st.leftover + 1) zeros, final := true }
      blocks st st.buffer
    else st
  let h := addPad (select (carry st.h)) (split st.pad0 st.pad1)
  let h0 := h.x0 ||| h.x1 <<< 44
  let h1 := h.x1 >>> 20 ||| h.x2 <<< 24
  ({ st with r := ⟨0, 0, 0⟩, h := ⟨0, 0, 0⟩, pad0 := 0, pad1 := 0 }, store h0 ++ store h1)

/-- `poly1305_auth`, in the memory `st`. -/
def auth (st : State) (m key : Bytes) : Bytes := (finish (update (init st key) m)).2

/-- `poly1305_verify`. -/
def verify (mac1 mac2 : Bytes) : Bool :=
  let dif : UInt32 := (List.range 16).foldl (fun (dif : UInt32) i =>
    dif ||| (mac1.getD i 0 ^^^ mac2.getD i 0).toUInt32) 0
  ((dif - 1) >>> 31) &&& 1 ≠ 0

/-! ### Words as numbers -/

section Words

theorem toNat_and_mask {mask : UInt64} {k : ℕ} (h : mask.toNat = 2 ^ k - 1) (x : UInt64) :
  (x &&& mask).toNat = x.toNat % 2 ^ k
  := by rw [UInt64.toNat_and, h, Nat.and_two_pow_sub_one_eq_mod]

theorem toNat_shl {s : UInt64} {k : ℕ} (h : s.toNat = k) (hk : k < 64) (x : UInt64) :
  (x <<< s).toNat = x.toNat * 2 ^ k % 2 ^ 64
  := by rw [UInt64.toNat_shiftLeft, h, Nat.mod_eq_of_lt hk, Nat.shiftLeft_eq]

theorem toNat_add {x y : UInt64} (h : x.toNat + y.toNat < 2 ^ 64) :
  (x + y).toNat = x.toNat + y.toNat
  := by rw [UInt64.toNat_add, Nat.mod_eq_of_lt h]

/-- No product of two words is cut off. -/
theorem toNat_mul (x y : UInt64) :
  (mul x y).toNat = x.toNat * y.toNat
  := by
  have hx := x.toNat_lt
  have hy := y.toNat_lt
  have hxy : x.toNat * y.toNat < 2 ^ 64 * 2 ^ 64 := Nat.mul_lt_mul'' hx hy
  have hwide : ∀ z : UInt64, (z.toBitVec.setWidth 128).toNat = z.toNat := by
    intro z
    have hz := z.toNat_lt
    rw [BitVec.toNat_setWidth, UInt64.toNat_toBitVec, Nat.mod_eq_of_lt (by omega)]
  rw [mul, BitVec.toNat_mul, hwide, hwide, Nat.mod_eq_of_lt (by omega)]

theorem toNat_add_wide {d e : BitVec 128} (h : d.toNat + e.toNat < 2 ^ 128) :
  (d + e).toNat = d.toNat + e.toNat
  := by rw [BitVec.toNat_add, Nat.mod_eq_of_lt h]

theorem toNat_addlo {d : BitVec 128} {c : UInt64} (h : d.toNat + c.toNat < 2 ^ 128) :
  (addlo d c).toNat = d.toNat + c.toNat
  := by
  have hc := c.toNat_lt
  have hwide : (c.toBitVec.setWidth 128).toNat = c.toNat := by
    rw [BitVec.toNat_setWidth, UInt64.toNat_toBitVec, Nat.mod_eq_of_lt (by omega)]
  rw [addlo, toNat_add_wide (by omega), hwide]

theorem toNat_shr_wide {d : BitVec 128} {k : ℕ} (h : d.toNat / 2 ^ k < 2 ^ 64) :
  (shr d k).toNat = d.toNat / 2 ^ k
  := by
  have hshr : (shr d k).toNat = ((d >>> k).setWidth 64).toNat := rfl
  rw [hshr, BitVec.toNat_setWidth, BitVec.toNat_ushiftRight, Nat.shiftRight_eq_div_pow,
    Nat.mod_eq_of_lt h]

theorem toNat_lo (d : BitVec 128) :
  (lo d).toNat = d.toNat % 2 ^ 64
  := BitVec.toNat_setWidth _ _

/-- Bits that are put behind those of a word add up. -/
theorem toNat_or_shl {x y s : UInt64} {k : ℕ} (hs : s.toNat = k) (hk : k < 64)
    (hx : x.toNat < 2 ^ k) (hy : y.toNat * 2 ^ k < 2 ^ 64) :
  (x ||| y <<< s).toNat = x.toNat + y.toNat * 2 ^ k
  := by rw [UInt64.toNat_or, toNat_shl hs hk, Nat.mod_eq_of_lt hy, or_mul_eq_add hx]

/-- A byte that is put behind the bytes of a word. -/
theorem toNat_or_byte {x s : UInt64} {k : ℕ} (hs : s.toNat = k) (hk : k ≤ 56)
    (hx : x.toNat < 2 ^ k) (c : UInt8) :
  (x ||| c.toUInt64 <<< s).toNat = x.toNat + c.toNat * 2 ^ k
    ∧ (x ||| c.toUInt64 <<< s).toNat < 2 ^ (k + 8)
  := by
  have hc := c.toNat_lt
  have hbyte : c.toUInt64.toNat = c.toNat := UInt8.toNat_toUInt64 c
  have hpow : 2 ^ k ≤ 2 ^ 56 := Nat.pow_le_pow_right (by decide) hk
  have hplace : c.toNat * 2 ^ k ≤ 255 * 2 ^ k := Nat.mul_le_mul_right _ (by omega)
  have heq : (x ||| c.toUInt64 <<< s).toNat = x.toNat + c.toNat * 2 ^ k := by
    rw [toNat_or_shl hs (by omega) hx, hbyte]
    rw [hbyte]
    omega
  refine ⟨heq, ?_⟩
  rw [heq, Nat.pow_add]
  omega

/-- `load` reads eight bytes as a number. -/
theorem toNat_load {m : Bytes} (h : 8 ≤ m.length) :
  (load m).toNat = ofLE (m.take 8)
  := by
  match m, h with
  | c0 :: c1 :: c2 :: c3 :: c4 :: c5 :: c6 :: c7 :: m, _ =>
      have h0 : c0.toUInt64.toNat < 2 ^ 8 := by
        rw [UInt8.toNat_toUInt64]
        apply c0.toNat_lt
      obtain ⟨e1, h1⟩ := toNat_or_byte (s := 8) (k := 8) rfl (by decide) h0 c1
      obtain ⟨e2, h2⟩ := toNat_or_byte (s := 16) (k := 16) rfl (by decide) h1 c2
      obtain ⟨e3, h3⟩ := toNat_or_byte (s := 24) (k := 24) rfl (by decide) h2 c3
      obtain ⟨e4, h4⟩ := toNat_or_byte (s := 32) (k := 32) rfl (by decide) h3 c4
      obtain ⟨e5, h5⟩ := toNat_or_byte (s := 40) (k := 40) rfl (by decide) h4 c5
      obtain ⟨e6, h6⟩ := toNat_or_byte (s := 48) (k := 48) rfl (by decide) h5 c6
      obtain ⟨e7, -⟩ := toNat_or_byte (s := 56) (k := 56) rfl (by decide) h6 c7
      apply e7.trans
      simp only [e6, e5, e4, e3, e2, e1, UInt8.toNat_toUInt64, List.take_succ_cons, List.take_zero,
        ofLE_cons, ofLE_nil]
      omega

theorem store_eq (v : UInt64) :
  store v = toLE 8 v.toNat
  := toLE_toNat v

/-- The number that three words stand for. -/
def Limbs.toNat (h : Limbs) : ℕ := h.x0.toNat + 2 ^ 44 * h.x1.toNat + 2 ^ 88 * h.x2.toNat

/-- The middle of two words: the end of the first and what the second has below it. -/
theorem toNat_middle (t0 t1 : UInt64) :
  (t0 >>> 44 ||| t1 <<< 20).toNat % 2 ^ 44 = t0.toNat / 2 ^ 44 + t1.toNat % 2 ^ 24 * 2 ^ 20
  := by
  have h0 := t0.toNat_lt
  have hshift : t1.toNat * 2 ^ 20 % 2 ^ 64 = t1.toNat % 2 ^ 44 * 2 ^ 20 := by omega
  rw [UInt64.toNat_or, toNat_shr (k := 44) rfl (by decide), toNat_shl (k := 20) rfl (by decide),
    hshift, or_mul_eq_add (by omega)]
  omega

theorem toNat_split_x0 (t0 t1 : UInt64) :
  (split t0 t1).x0.toNat = t0.toNat % 2 ^ 44
  := toNat_and_mask (by decide) t0

theorem toNat_split_x1 (t0 t1 : UInt64) :
  (split t0 t1).x1.toNat = t0.toNat / 2 ^ 44 + t1.toNat % 2 ^ 24 * 2 ^ 20
  := (toNat_and_mask (by decide) _).trans (toNat_middle t0 t1)

theorem toNat_split_x2 (t0 t1 : UInt64) :
  (split t0 t1).x2.toNat = t1.toNat / 2 ^ 24
  := by
  have h1 := t1.toNat_lt
  rw [split, toNat_and_mask (k := 42) (by decide), toNat_shr (k := 24) rfl (by decide)]
  omega

/-- Splitting keeps the number. -/
theorem toNat_split (t0 t1 : UInt64) :
  (split t0 t1).toNat = t0.toNat + 2 ^ 64 * t1.toNat
  := by
  rw [Limbs.toNat, toNat_split_x0, toNat_split_x1, toNat_split_x2]
  omega

theorem toNat_load_pair {m : Bytes} (h : 16 ≤ m.length) :
  (load m).toNat + 2 ^ 64 * (load (m.drop 8)).toNat = ofLE (m.take 16)
  := by
  have hdrop : 8 ≤ (m.drop 8).length := by
    rw [List.length_drop]
    omega
  have htake : m.take 16 = m.take 8 ++ (m.drop 8).take 8 := List.take_add (i := 8) (j := 8)
  have hlength : (m.take 8).length = 8 := List.length_take_of_le (by omega)
  rw [toNat_load (by omega), toNat_load hdrop, htake, ofLE_append, hlength]
  rfl

end Words

/-! ### The authenticator -/

theorem blockSize_pos :
  0 < blockSize
  := Nat.zero_lt_succ _

def p : ℕ := 2 ^ 130 - 5

/-- The first half of the key with the bits cleared that the words have no place for. -/
def clamp (key : Bytes) : ℕ := ofLE (key.take 16) &&& 0x0ffffffc0ffffffc0ffffffc0fffffff

/-- A block is a number of one digit more. -/
def absorbBlock (r acc : ℕ) (b : Bytes) : ℕ := (acc + ofLE (b ++ [1])) * r % p

/-- The tag of a message under a key. -/
def tag (key m : Bytes) : Bytes :=
  toLE 16 ((chunks blockSize m).foldl (absorbBlock (clamp key)) 0 + ofLE ((key.drop 16).take 16))

/-- What the words of the clamped key are less than. -/
structure Clamped (r : Limbs) : Prop where
  lt0 : r.x0.toNat < 2 ^ 44
  lt1 : r.x1.toNat < 2 ^ 44
  lt2 : r.x2.toNat < 2 ^ 36

/-- What the words of the accumulator are less than between two blocks. -/
structure Reduced (h : Limbs) : Prop where
  lt0 : h.x0.toNat < 2 ^ 44
  lt1 : h.x1.toNat < 2 ^ 45
  lt2 : h.x2.toNat < 2 ^ 42

theorem clamped_init (st : State) (key : Bytes) :
  Clamped (init st key).r
  := by
  constructor
  · rw [init, UInt64.toNat_and]
    apply Nat.lt_of_le_of_lt Nat.and_le_right
    decide
  · rw [init, UInt64.toNat_and]
    apply Nat.lt_of_le_of_lt Nat.and_le_right
    decide
  · rw [init, UInt64.toNat_and]
    apply Nat.lt_of_le_of_lt Nat.and_le_right
    decide

/-- The three masks are the one of the standard. -/
theorem toNat_init_r (st : State) {key : Bytes} (h : 16 ≤ key.length) :
  (init st key).r.toNat = clamp key
  := by
  have hmask : ∀ (x mask : UInt64) (k : ℕ), mask.toNat < 2 ^ k →
      (x &&& mask).toNat = x.toNat % 2 ^ k &&& mask.toNat := by
    intro x mask k hk
    rw [UInt64.toNat_and, ← Nat.mod_eq_of_lt (Nat.lt_of_le_of_lt Nat.and_le_right hk),
      Nat.and_mod_two_pow, Nat.mod_eq_of_lt hk]
  have hnum := toNat_load_pair h
  have ht0 := (load key).toNat_lt
  have ht1 := (load (key.drop 8)).toNat_lt
  have hlow : ofLE (key.take 16) % 2 ^ 44 = (load key).toNat % 2 ^ 44 := by omega
  have hmiddle : ofLE (key.take 16) / 2 ^ 44 % 2 ^ 44
      = (load key >>> 44 ||| load (key.drop 8) <<< 20).toNat % 2 ^ 44 := by
    rw [toNat_middle]
    omega
  have hhigh : ofLE (key.take 16) / 2 ^ 44 / 2 ^ 44
      = (load (key.drop 8) >>> 24).toNat % 2 ^ 40 := by
    rw [toNat_shr (k := 24) rfl (by decide)]
    omega
  rw [clamp, and_eq_add 44, and_eq_add 44 (ofLE (key.take 16) / 2 ^ 44), hlow, hmiddle, hhigh,
    Limbs.toNat]
  simp only [init]
  rw [hmask _ _ 44 (by decide), hmask _ _ 44 (by decide), hmask _ _ 40 (by decide)]
  simp only [UInt64.reduceToNat, Nat.reducePow, Nat.reduceMod, Nat.reduceDiv]
  omega

/-- The products, the digits of which have not been carried. -/
theorem products_eq (h0 h1 h2 r0 r1 r2 : ℕ) :
  (h0 * r0 + h1 * r2 * 20 + h2 * r1 * 20)
      + 2 ^ 44 * (h0 * r1 + h1 * r0 + h2 * r2 * 20)
      + 2 ^ 88 * (h0 * r2 + h1 * r1 + h2 * r0)
      + p * (4 * (h1 * r2 + h2 * r1 + 2 ^ 44 * (h2 * r2)))
    = (h0 + 2 ^ 44 * h1 + 2 ^ 88 * h2) * (r0 + 2 ^ 44 * r1 + 2 ^ 88 * r2)
  := by
  rw [p]
  norm_num
  ring

theorem addMessage_spec {hibit : UInt64} {h : Limbs} {m : Bytes}
    (hhibit : hibit = 0 ∨ hibit = (1 : UInt64) <<< 40) (hh : Reduced h) (hm : 16 ≤ m.length) :
  (addMessage hibit h m).x0.toNat < 2 ^ 45 ∧ (addMessage hibit h m).x1.toNat < 2 ^ 46
    ∧ (addMessage hibit h m).x2.toNat < 2 ^ 43
    ∧ (addMessage hibit h m).toNat = h.toNat + ofLE (m.take 16) + 2 ^ 88 * hibit.toNat
  := by
  obtain ⟨hh0, hh1, hh2⟩ := hh
  have ht0 := (load m).toNat_lt
  have ht1 := (load (m.drop 8)).toNat_lt
  have hx0 := toNat_split_x0 (load m) (load (m.drop 8))
  have hx1 := toNat_split_x1 (load m) (load (m.drop 8))
  have hx2 := toNat_split_x2 (load m) (load (m.drop 8))
  have hor : ((split (load m) (load (m.drop 8))).x2 ||| hibit).toNat
      = (load (m.drop 8)).toNat / 2 ^ 24 + hibit.toNat ∧ hibit.toNat ≤ 2 ^ 40 := by
    obtain rfl | rfl := hhibit
    · rw [UInt64.or_zero, hx2]
      refine ⟨rfl, Nat.zero_le _⟩
    · rw [toNat_or_shl (k := 40) rfl (by decide) (by omega) (by decide), hx2]
      refine ⟨rfl, Nat.le_refl _⟩
  have hnum := toNat_load_pair hm
  have e0 : (addMessage hibit h m).x0.toNat = h.x0.toNat + (load m).toNat % 2 ^ 44 := by
    rw [addMessage, toNat_add (by omega), hx0]
  have e1 : (addMessage hibit h m).x1.toNat
      = h.x1.toNat + ((load m).toNat / 2 ^ 44 + (load (m.drop 8)).toNat % 2 ^ 24 * 2 ^ 20) := by
    rw [addMessage, toNat_add (by omega), hx1]
  have e2 : (addMessage hibit h m).x2.toNat
      = h.x2.toNat + ((load (m.drop 8)).toNat / 2 ^ 24 + hibit.toNat) := by
    rw [addMessage, toNat_add (by omega), hor.1]
  rw [Limbs.toNat, Limbs.toNat, e0, e1, e2]
  omega

/-- Nothing of the products is cut off. -/
theorem multiply_spec {h r : Limbs} (hr : Clamped r) (hh0 : h.x0.toNat < 2 ^ 45)
    (hh1 : h.x1.toNat < 2 ^ 46) (hh2 : h.x2.toNat < 2 ^ 43) :
  (multiply h r).1.toNat < 2 ^ 93 ∧ (multiply h r).2.1.toNat < 2 ^ 93
    ∧ (multiply h r).2.2.toNat < 2 ^ 93
    ∧ ∃ k, (multiply h r).1.toNat + 2 ^ 44 * (multiply h r).2.1.toNat
      + 2 ^ 88 * (multiply h r).2.2.toNat + p * k = h.toNat * r.toNat
  := by
  obtain ⟨hr0, hr1, hr2⟩ := hr
  have hfive : ∀ x : UInt64, x.toNat < 2 ^ 44 →
      (x * ((5 : UInt64) <<< 2)).toNat = x.toNat * 20 := by
    intro x hx
    have htwenty : ((5 : UInt64) <<< 2).toNat = 20 := rfl
    rw [UInt64.toNat_mul, htwenty, Nat.mod_eq_of_lt (by omega)]
  have hprod : ∀ {x y a b : ℕ}, x < 2 ^ a → y < 2 ^ b → x * y < 2 ^ (a + b) := by
    intro x y a b hx hy
    rw [Nat.pow_add]
    apply Nat.mul_lt_mul'' hx hy
  have h00 := hprod hh0 hr0
  have h01 := hprod hh0 hr1
  have h02 := hprod hh0 hr2
  have h10 := hprod hh1 hr0
  have h11 := hprod hh1 hr1
  have h12 := hprod hh1 hr2
  have h20 := hprod hh2 hr0
  have h21 := hprod hh2 hr1
  have h22 := hprod hh2 hr2
  have e0 : (multiply h r).1.toNat = h.x0.toNat * r.x0.toNat + h.x1.toNat * r.x2.toNat * 20
      + h.x2.toNat * r.x1.toNat * 20 := by
    have m1 : (mul h.x1 (r.x2 * ((5 : UInt64) <<< 2))).toNat = h.x1.toNat * r.x2.toNat * 20 := by
      rw [toNat_mul, hfive _ (by omega), Nat.mul_assoc]
    have m2 : (mul h.x2 (r.x1 * ((5 : UInt64) <<< 2))).toNat = h.x2.toNat * r.x1.toNat * 20 := by
      rw [toNat_mul, hfive _ hr1, Nat.mul_assoc]
    have m0 := toNat_mul h.x0 r.x0
    have s1 := toNat_add_wide (d := mul h.x0 r.x0)
      (e := mul h.x1 (r.x2 * ((5 : UInt64) <<< 2))) (by omega)
    rw [multiply, toNat_add_wide (by omega), s1, m0, m1, m2]
  have e1 : (multiply h r).2.1.toNat = h.x0.toNat * r.x1.toNat + h.x1.toNat * r.x0.toNat
      + h.x2.toNat * r.x2.toNat * 20 := by
    have m2 : (mul h.x2 (r.x2 * ((5 : UInt64) <<< 2))).toNat = h.x2.toNat * r.x2.toNat * 20 := by
      rw [toNat_mul, hfive _ (by omega), Nat.mul_assoc]
    have m0 := toNat_mul h.x0 r.x1
    have m1 := toNat_mul h.x1 r.x0
    have s1 := toNat_add_wide (d := mul h.x0 r.x1) (e := mul h.x1 r.x0) (by omega)
    rw [multiply]
    simp only
    rw [toNat_add_wide (by omega), s1, m0, m1, m2]
  have e2 : (multiply h r).2.2.toNat = h.x0.toNat * r.x2.toNat + h.x1.toNat * r.x1.toNat
      + h.x2.toNat * r.x0.toNat := by
    have m0 := toNat_mul h.x0 r.x2
    have m1 := toNat_mul h.x1 r.x1
    have m2 := toNat_mul h.x2 r.x0
    have s1 := toNat_add_wide (d := mul h.x0 r.x2) (e := mul h.x1 r.x1) (by omega)
    rw [multiply]
    simp only
    rw [toNat_add_wide (by omega), s1, m0, m1, m2]
  rw [e0, e1, e2]
  refine ⟨by omega, by omega, by omega, _, products_eq _ _ _ _ _ _⟩

/-- Carrying the digits of the products takes a multiple of `p` off. -/
theorem partialMod_spec {d0 d1 d2 : BitVec 128} (h0 : d0.toNat < 2 ^ 93)
    (h1 : d1.toNat < 2 ^ 93) (h2 : d2.toNat < 2 ^ 93) :
  Reduced (partialMod d0 d1 d2)
    ∧ ∃ k, (partialMod d0 d1 d2).toNat + p * k
      = d0.toNat + 2 ^ 44 * d1.toNat + 2 ^ 88 * d2.toNat
  := by
  have hlo : ∀ (d : BitVec 128) (mask : UInt64) (k : ℕ), mask.toNat = 2 ^ k - 1 → k ≤ 64 →
      (lo d &&& mask).toNat = d.toNat % 2 ^ k := by
    intro d mask k hmask hk
    rw [toNat_and_mask hmask, toNat_lo, Nat.mod_mod_of_dvd _ (Nat.pow_dvd_pow 2 hk)]
  have c0 : (shr d0 44).toNat = d0.toNat / 2 ^ 44 := toNat_shr_wide (by omega)
  have e1 : (addlo d1 (shr d0 44)).toNat = d1.toNat + d0.toNat / 2 ^ 44 := by
    rw [toNat_addlo (by omega), c0]
  rw [partialMod]
  generalize addlo d1 (shr d0 44) = d1' at *
  have c1 : (shr d1' 44).toNat = d1'.toNat / 2 ^ 44 := toNat_shr_wide (by omega)
  have e2 : (addlo d2 (shr d1' 44)).toNat = d2.toNat + d1'.toNat / 2 ^ 44 := by
    rw [toNat_addlo (by omega), c1]
  generalize addlo d2 (shr d1' 44) = d2' at *
  have c2 : (shr d2' 42).toNat = d2'.toNat / 2 ^ 42 := toNat_shr_wide (by omega)
  have l0 := hlo d0 0xfffffffffff 44 (by decide) (by decide)
  have l1 := hlo d1' 0xfffffffffff 44 (by decide) (by decide)
  have l2 := hlo d2' 0x3ffffffffff 42 (by decide) (by decide)
  have hfive : (shr d2' 42 * 5).toNat = d2'.toNat / 2 ^ 42 * 5 := by
    have hlt : d2'.toNat / 2 ^ 42 * 5 < 2 ^ 64 := by omega
    rw [UInt64.toNat_mul, c2]
    apply Nat.mod_eq_of_lt hlt
  have s0 : ((lo d0 &&& (0xfffffffffff : UInt64)) + shr d2' 42 * 5).toNat
      = d0.toNat % 2 ^ 44 + d2'.toNat / 2 ^ 42 * 5 := by
    rw [toNat_add (by omega), l0, hfive]
  generalize (lo d0 &&& (0xfffffffffff : UInt64)) + shr d2' 42 * 5 = h0' at *
  have hx0 : (h0' &&& 0xfffffffffff).toNat = h0'.toNat % 2 ^ 44 := toNat_and_mask (by decide) _
  have hc : (h0' >>> 44).toNat = h0'.toNat / 2 ^ 44 := toNat_shr rfl (by decide) _
  have hx1 : ((lo d1' &&& (0xfffffffffff : UInt64)) + h0' >>> 44).toNat
      = d1'.toNat % 2 ^ 44 + h0'.toNat / 2 ^ 44 := by
    rw [toNat_add (by omega), l1, hc]
  refine ⟨⟨by simp only; omega, by simp only; omega, by simp only; omega⟩,
    d2'.toNat / 2 ^ 42, ?_⟩
  rw [Limbs.toNat, p]
  simp only
  omega

/-- A turn of the loop multiplies modulo `p`. -/
theorem block_spec (hibit : UInt64) {r h : Limbs} {m : Bytes} (hr : Clamped r) (hh : Reduced h)
    (hhibit : hibit = 0 ∨ hibit = (1 : UInt64) <<< 40) (hm : 16 ≤ m.length) :
  Reduced (block r hibit h m)
    ∧ (block r hibit h m).toNat % p
      = (h.toNat % p + (ofLE (m.take 16) + 2 ^ 88 * hibit.toNat)) * r.toNat % p
  := by
  obtain ⟨hx0, hx1, hx2, hsum⟩ := addMessage_spec hhibit hh hm
  obtain ⟨hd0, hd1, hd2, k, hprod⟩ := multiply_spec hr hx0 hx1 hx2
  obtain ⟨hreduced, l, hmod⟩ := partialMod_spec hd0 hd1 hd2
  refine ⟨hreduced, ?_⟩
  have htotal : (block r hibit h m).toNat + p * (l + k)
      = (addMessage hibit h m).toNat * r.toNat := by
    rw [← hprod, ← hmod, Nat.mul_add, Nat.add_assoc]
    rfl
  have hremainder := congrArg (· % p) htotal
  simp only [Nat.add_mul_mod_self_left] at hremainder
  have hcongr : h.toNat ≡ h.toNat % p [MOD p] := (Nat.mod_modEq _ _).symm
  rw [hremainder, hsum, Nat.add_assoc]
  apply (hcongr.add_right _).mul_right

/-- What is kept between two blocks, for a key and what the blocks before come to. -/
structure Hashes (st : State) (key : Bytes) (acc : ℕ) : Prop where
  r : st.r = (init st key).r
  pad0 : st.pad0 = load (key.drop 16)
  pad1 : st.pad1 = load (key.drop 24)
  reduced : Reduced st.h
  toNat_mod : st.h.toNat % p = acc
  final : st.final = false

theorem ofLE_append_one (b : Bytes) :
  ofLE (b ++ [1]) = ofLE b + 256 ^ b.length
  := by
  have hone : ofLE [1] = 1 := rfl
  rw [ofLE_append, hone, Nat.mul_one]

theorem blocksLoop_spec {r h : Limbs} {acc n : ℕ} {m : Bytes} (hr : Clamped r) (hh : Reduced h)
    (hacc : h.toNat % p = acc) (hm : m.length = blockSize * n) :
  Reduced (blocksLoop r ((1 : UInt64) <<< 40) n h m)
    ∧ absorb blockSize (absorbBlock r.toNat) (acc, []) m
      = ((blocksLoop r ((1 : UInt64) <<< 40) n h m).toNat % p, [])
  := by
  induction n generalizing h acc m with
  | zero =>
      obtain rfl := List.eq_nil_of_length_eq_zero hm
      rw [← hacc]
      refine ⟨hh, rfl⟩
  | succ n ih =>
      rw [blockSize, Nat.mul_succ] at hm
      have hblock : (m.take blockSize).length = blockSize := List.length_take_of_le (by
        rw [blockSize]
        omega)
      have hdrop : (m.drop blockSize).length = blockSize * n := by
        rw [List.length_drop, blockSize]
        omega
      obtain ⟨hreduced, hvalue⟩ :=
        block_spec ((1 : UInt64) <<< 40) hr hh (Or.inr rfl) (m := m) (by omega)
      have hone : ofLE (m.take 16) + 2 ^ 88 * ((1 : UInt64) <<< 40).toNat
          = ofLE (m.take blockSize ++ [1]) := by
        rw [ofLE_append_one, hblock]
        rfl
      rw [hone, hacc] at hvalue
      obtain ⟨hlast, hrest⟩ := ih hreduced hvalue hdrop
      have hfirst : absorb blockSize (absorbBlock r.toNat) (acc, []) (m.take blockSize)
          = (absorbBlock r.toNat acc (m.take blockSize), []) := by
        rw [absorb_of_eq blockSize_pos (by rw [List.length_nil, Nat.zero_add, hblock]),
          List.nil_append]
      refine ⟨hlast, ?_⟩
      rw [absorbBlock] at hfirst
      rw [blocksLoop, ← hrest, ← hfirst, ← absorb_append, List.take_append_drop]

theorem hashes_init (st : State) (key : Bytes) :
  Hashes (init st key) key 0
  := ⟨rfl, rfl, rfl, ⟨Nat.two_pow_pos 44, Nat.two_pow_pos 45, Nat.two_pow_pos 42⟩, rfl, rfl⟩

theorem Hashes.blocks {st : State} {key : Bytes} {acc n : ℕ} {m : Bytes} (h : Hashes st key acc)
    (hkey : 16 ≤ key.length) (hm : m.length = blockSize * n) :
  ∃ acc', absorb blockSize (absorbBlock (clamp key)) (acc, []) m = (acc', [])
    ∧ Hashes (blocks st m) key acc'
  := by
  have hr : Clamped st.r := by
    rw [h.r]
    apply clamped_init
  have hclamp : st.r.toNat = clamp key := by
    rw [h.r]
    apply toNat_init_r st hkey
  have hturns : m.length / blockSize = n := by
    rw [hm, Nat.mul_div_cancel_left _ blockSize_pos]
  have hlimbs : (Poly1305.blocks st m).h = blocksLoop st.r ((1 : UInt64) <<< 40) n st.h m := by
    rw [Poly1305.blocks, h.final, hturns]
    rfl
  obtain ⟨hreduced, habsorb⟩ := blocksLoop_spec hr h.reduced h.toNat_mod hm
  rw [hclamp] at habsorb
  rw [← hlimbs] at habsorb hreduced
  refine ⟨_, habsorb, h.r, h.pad0, h.pad1, hreduced, rfl, h.final⟩

/-- What is kept between two updates: the blocks so far and what has not filled a block. -/
structure Holds (st : State) (key : Bytes) (s : ℕ × Bytes) : Prop extends Hashes st key s.1 where
  leftover : st.leftover = s.2.length
  lt : s.2.length < blockSize
  length_buffer : st.buffer.length = blockSize
  take_buffer : st.buffer.take s.2.length = s.2

theorem holds_init {st : State} (hbuffer : st.buffer.length = blockSize) (key : Bytes) :
  Holds (init st key) key (0, [])
  where
  toHashes := hashes_init st key
  leftover := rfl
  lt := blockSize_pos
  length_buffer := hbuffer
  take_buffer := rfl

/-- What does not fill a block is left over. -/
theorem Hashes.fill {st : State} {key : Bytes} {acc : ℕ} (h : Hashes st key acc) {l m : Bytes}
    (hleftover : st.leftover = l.length) (hbuffer : st.buffer.length = blockSize)
    (htake : st.buffer.take l.length = l) (hm : l.length + m.length < blockSize) :
  Holds
    { st with
      buffer := fill st.buffer st.leftover m
      leftover := st.leftover + m.length }
    key (acc, l ++ m)
  where
  r := h.r
  pad0 := h.pad0
  pad1 := h.pad1
  reduced := h.reduced
  toNat_mod := h.toNat_mod
  final := h.final
  leftover := by rw [hleftover, List.length_append]
  lt := by
    rw [List.length_append]
    apply hm
  length_buffer := by
    simp only
    rw [fill_eq (by omega), List.length_append, List.length_append, List.length_take,
      List.length_drop]
    omega
  take_buffer := by
    simp only
    rw [fill_eq (by omega), hleftover, htake, List.take_left]

theorem Hashes.updateBlocks {st : State} {key : Bytes} {acc : ℕ} (h : Hashes st key acc)
    (hkey : 16 ≤ key.length) (hleftover : st.leftover = 0)
    (hbuffer : st.buffer.length = blockSize) (m : Bytes) :
  Holds (updateBlocks st m) key (absorb blockSize (absorbBlock (clamp key)) (acc, []) m)
  := by
  let want := m.length - m.length % blockSize
  have hfull : (m.take want).length = blockSize * (m.length / blockSize) := by
    have hdiv := Nat.div_add_mod m.length blockSize
    rw [List.length_take]
    omega
  have hrest : (m.drop want).length < blockSize := by
    have hmod := Nat.mod_lt m.length blockSize_pos
    have hle := Nat.mod_le m.length blockSize
    rw [List.length_drop]
    omega
  have hst : (if blockSize ≤ m.length then Poly1305.blocks st (m.take want) else st)
      = Poly1305.blocks st (m.take want) := by
    split
    case isTrue => rfl
    case isFalse hlt =>
      have hzero : want = 0 := by
        have hmod : m.length % blockSize = m.length := Nat.mod_eq_of_lt (by omega)
        omega
      rw [hzero, List.take_zero, Poly1305.blocks, List.length_nil, Nat.zero_div, blocksLoop]
  have hm : (if blockSize ≤ m.length then m.drop want else m) = m.drop want := by
    split
    case isTrue => rfl
    case isFalse hlt =>
      have hzero : want = 0 := by
        have hmod : m.length % blockSize = m.length := Nat.mod_eq_of_lt (by omega)
        omega
      rw [hzero, List.drop_zero]
  obtain ⟨acc', habsorb, hblocks⟩ := h.blocks hkey hfull
  have htotal : absorb blockSize (absorbBlock (clamp key)) (acc, []) m = (acc', m.drop want) := by
    have hshort : absorb blockSize (absorbBlock (clamp key)) (acc', []) (m.drop want)
        = (acc', m.drop want) :=
      absorb_of_lt (by rw [List.length_nil, Nat.zero_add]; apply hrest)
    rw [← hshort, ← habsorb, ← absorb_append, List.take_append_drop]
  have hfill := hblocks.fill (l := []) (m := m.drop want) hleftover hbuffer rfl
    (by rw [List.length_nil, Nat.zero_add]; apply hrest)
  rw [htotal, Poly1305.updateBlocks]
  simp only [want] at hst hm hfill ⊢
  rw [hst, hm]
  split
  case isTrue => apply hfill
  case isFalse hnil =>
    rw [not_not] at hnil
    rw [hnil] at hfill ⊢
    apply hfill

theorem Holds.update {st : State} {key : Bytes} {s : ℕ × Bytes} (h : Holds st key s)
    (hkey : 16 ≤ key.length) (m : Bytes) :
  Holds (update st m) key (absorb blockSize (absorbBlock (clamp key)) s m)
  := by
  obtain ⟨acc, l⟩ := s
  obtain ⟨hhashes, hleftover, hlt, hbuffer, htake⟩ := h
  simp only at hhashes hleftover hlt htake
  rw [Poly1305.update]
  by_cases hl : l = []
  · have hzero : st.leftover = 0 := by
      rw [hleftover, hl]
      rfl
    rw [if_neg (not_not_intro hzero), hl]
    apply hhashes.updateBlocks hkey hzero hbuffer
  · have hpos := List.length_pos_iff.mpr hl
    rw [if_pos (by omega)]
    simp only
    split
    case isTrue hshort =>
      have hall : min (blockSize - st.leftover) m.length = m.length := by omega
      have hfits : l.length + m.length < blockSize := by omega
      have habsorb : absorb blockSize (absorbBlock (clamp key)) (acc, l) m = (acc, l ++ m) :=
        absorb_of_lt hfits
      rw [habsorb, hall, List.take_length]
      apply hhashes.fill hleftover hbuffer htake hfits
    case isFalse hfull =>
      have hwant : min (blockSize - st.leftover) m.length = blockSize - st.leftover := by omega
      let want := blockSize - st.leftover
      have hpiece : (m.take want).length = want := List.length_take_of_le (by omega)
      have hfill : fill st.buffer st.leftover (m.take want) = l ++ m.take want := by
        have hend : st.leftover + want = st.buffer.length := by omega
        rw [fill_eq (by omega), hpiece, hend, List.drop_length, List.append_nil, hleftover, htake]
      have hlength : (l ++ m.take want).length = blockSize * 1 := by
        rw [List.length_append]
        omega
      have hfilled : Hashes
          { st with
            buffer := l ++ m.take want
            leftover := st.leftover + want } key acc :=
        ⟨hhashes.r, hhashes.pad0, hhashes.pad1, hhashes.reduced, hhashes.toNat_mod, hhashes.final⟩
      obtain ⟨acc', habsorb, hblocks⟩ := hfilled.blocks hkey hlength
      have hwait : absorb blockSize (absorbBlock (clamp key)) (acc, []) l = (acc, l) :=
        absorb_of_lt (by rw [List.length_nil, Nat.zero_add]; apply hlt)
      rw [absorb_append, hwait] at habsorb
      have htotal : absorb blockSize (absorbBlock (clamp key)) (acc, l) m
          = absorb blockSize (absorbBlock (clamp key)) (acc', []) (m.drop want) := by
        rw [← habsorb, ← absorb_append, List.take_append_drop]
      have hclear : Hashes
          { Poly1305.blocks
              { st with
                buffer := l ++ m.take want
                leftover := st.leftover + want } (l ++ m.take want) with
            leftover := 0 } key acc' :=
        ⟨hblocks.r, hblocks.pad0, hblocks.pad1, hblocks.reduced, hblocks.toNat_mod, hblocks.final⟩
      simp only [want] at hfill htotal hclear
      rw [hwant, hfill, htotal]
      apply hclear.updateBlocks hkey rfl
      apply hlength.trans (Nat.mul_one _)

/-! ### The end of a message -/

theorem toNat_shr44 (x : UInt64) :
  (x >>> 44).toNat = x.toNat / 2 ^ 44
  := toNat_shr rfl (by decide) x

theorem toNat_shr42 (x : UInt64) :
  (x >>> 42).toNat = x.toNat / 2 ^ 42
  := toNat_shr rfl (by decide) x

theorem toNat_mask44 (x : UInt64) :
  (x &&& 0xfffffffffff).toNat = x.toNat % 2 ^ 44
  := toNat_and_mask (by decide) x

theorem toNat_mask42 (x : UInt64) :
  (x &&& 0x3ffffffffff).toNat = x.toNat % 2 ^ 42
  := toNat_and_mask (by decide) x

/-- A pass takes `p` off or nothing, and a second one leaves nothing to be carried. -/
theorem carryPass_spec {h : Limbs} (hh : Reduced h) :
  (carryPass h).x0.toNat < 2 ^ 44 ∧ (carryPass h).x1.toNat ≤ 2 ^ 44
    ∧ (carryPass h).x2.toNat < 2 ^ 42
    ∧ (h.x1.toNat ≤ 2 ^ 44 → (carryPass h).x1.toNat < 2 ^ 44)
    ∧ ∃ k, (carryPass h).toNat + p * k = h.toNat
  := by
  obtain ⟨hh0, hh1, hh2⟩ := hh
  have c1 := toNat_shr44 h.x1
  have e2 : (h.x2 + h.x1 >>> 44).toNat = h.x2.toNat + h.x1.toNat / 2 ^ 44 := by
    rw [toNat_add (by omega), c1]
  rw [carryPass]
  generalize h.x2 + h.x1 >>> 44 = h2 at *
  have c2 := toNat_shr42 h2
  have hfive : (h2 >>> 42 * 5).toNat = h2.toNat / 2 ^ 42 * 5 := by
    have hlt : h2.toNat / 2 ^ 42 * 5 < 2 ^ 64 := by omega
    rw [UInt64.toNat_mul, c2]
    apply Nat.mod_eq_of_lt hlt
  have e0 : (h.x0 + h2 >>> 42 * 5).toNat = h.x0.toNat + h2.toNat / 2 ^ 42 * 5 := by
    rw [toNat_add (by omega), hfive]
  generalize h.x0 + h2 >>> 42 * 5 = h0 at *
  have c0 := toNat_shr44 h0
  have m0 := toNat_mask44 h0
  have m1 := toNat_mask44 h.x1
  have m2 := toNat_mask42 h2
  have e1 : ((h.x1 &&& (0xfffffffffff : UInt64)) + h0 >>> 44).toNat
      = h.x1.toNat % 2 ^ 44 + h0.toNat / 2 ^ 44 := by
    rw [toNat_add (by omega), m1, c0]
  simp only [Limbs.toNat, p]
  refine ⟨by omega, by omega, by omega, by omega, h2.toNat / 2 ^ 42, by omega⟩

/-- What the words are less than when nothing is left to be carried. -/
structure Carried (h : Limbs) : Prop where
  lt0 : h.x0.toNat < 2 ^ 44
  lt1 : h.x1.toNat < 2 ^ 44
  lt2 : h.x2.toNat < 2 ^ 42

theorem carry_spec {h : Limbs} (hh : Reduced h) :
  Carried (carry h) ∧ (carry h).toNat % p = h.toNat % p
  := by
  obtain ⟨h0, h1, h2, -, k, hk⟩ := carryPass_spec hh
  have honce : Reduced (carryPass h) := ⟨h0, by omega, h2⟩
  obtain ⟨h0', -, h2', h1', k', hk'⟩ := carryPass_spec honce
  refine ⟨⟨h0', h1' h1, h2'⟩, ?_⟩
  rw [carry, ← hk, ← hk', Nat.add_mul_mod_self_left, Nat.add_mul_mod_self_left]

/-- What is selected is the remainder. -/
theorem select_spec {h : Limbs} (hh : Carried h) :
  Carried (select h) ∧ (select h).toNat = h.toNat % p
  := by
  obtain ⟨hh0, hh1, hh2⟩ := hh
  have e0 : (h.x0 + 5).toNat = h.x0.toNat + 5 := by
    have hfive : (5 : UInt64).toNat = 5 := rfl
    rw [toNat_add (by omega), hfive]
  rw [select]
  generalize h.x0 + 5 = g0 at *
  have c0 := toNat_shr44 g0
  have m0 := toNat_mask44 g0
  have e1 : (h.x1 + g0 >>> 44).toNat = h.x1.toNat + g0.toNat / 2 ^ 44 := by
    rw [toNat_add (by omega), c0]
  generalize h.x1 + g0 >>> 44 = g1 at *
  have c1 := toNat_shr44 g1
  have m1 := toNat_mask44 g1
  have e2 : (h.x2 + g1 >>> 44).toNat = h.x2.toNat + g1.toNat / 2 ^ 44 := by
    rw [toNat_add (by omega), c1]
  generalize h.x2 + g1 >>> 44 = g2 at *
  have hone : ((1 : UInt64) <<< 42).toNat = 2 ^ 42 := rfl
  have hsub : (g2 - (1 : UInt64) <<< 42).toNat = (2 ^ 64 - 2 ^ 42 + g2.toNat) % 2 ^ 64 := by
    rw [UInt64.toNat_sub, hone]
  have hsign : ((g2 - (1 : UInt64) <<< 42) >>> 63).toNat
      = (2 ^ 64 - 2 ^ 42 + g2.toNat) % 2 ^ 64 / 2 ^ 63 := by
    rw [toNat_shr (k := 63) rfl (by decide), hsub]
  obtain hlt | hge := Nat.lt_or_ge g2.toNat (2 ^ 42)
  · have hmask : (g2 - (1 : UInt64) <<< 42) >>> 63 = 1 := by
      apply UInt64.toNat_inj.mp
      rw [hsign]
      change _ = 1
      omega
    simp only [hmask, UInt64.sub_self, UInt64.and_zero, UInt64.or_zero, UInt64.not_zero,
      UInt64.and_neg_one]
    refine ⟨⟨hh0, hh1, hh2⟩, ?_⟩
    rw [Nat.mod_eq_of_lt]
    rw [Limbs.toNat, p]
    omega
  · have hmask : (g2 - (1 : UInt64) <<< 42) >>> 63 = 0 := by
      apply UInt64.toNat_inj.mp
      rw [hsign]
      change _ = 0
      omega
    have hzero : g2 - (1 : UInt64) <<< 42 = 0 := by
      apply UInt64.toNat_inj.mp
      rw [hsub]
      change _ = 0
      omega
    have hall : (0 : UInt64) - 1 = -1 := rfl
    simp only [hmask, hall]
    simp only [hzero, UInt64.and_neg_one, UInt64.not_neg_one, UInt64.and_zero, UInt64.zero_or]
    have hx2 : (0 : UInt64).toNat = 0 := rfl
    refine ⟨⟨by rw [m0]; omega, by rw [m1]; omega, by rw [hx2]; omega⟩, ?_⟩
    have htotal : h.toNat = g0.toNat % 2 ^ 44 + 2 ^ 44 * (g1.toNat % 2 ^ 44) + p := by
      rw [Limbs.toNat, p]
      omega
    have hlt : g0.toNat % 2 ^ 44 + 2 ^ 44 * (g1.toNat % 2 ^ 44) < p := by
      rw [p]
      omega
    rw [htotal, Nat.add_mod_right, Nat.mod_eq_of_lt hlt, Limbs.toNat, m0, m1, hx2, Nat.mul_zero,
      Nat.add_zero]

theorem addPad_spec {h t : Limbs} (hh : Carried h) (ht : Carried t) :
  Carried (addPad h t) ∧ (addPad h t).toNat = (h.toNat + t.toNat) % 2 ^ 130
  := by
  obtain ⟨hh0, hh1, hh2⟩ := hh
  obtain ⟨ht0, ht1, ht2⟩ := ht
  have e0 : (h.x0 + t.x0).toNat = h.x0.toNat + t.x0.toNat := toNat_add (by omega)
  rw [addPad]
  generalize h.x0 + t.x0 = h0 at *
  have c0 := toNat_shr44 h0
  have m0 := toNat_mask44 h0
  have f1 : (t.x1 + h0 >>> 44).toNat = t.x1.toNat + h0.toNat / 2 ^ 44 := by
    rw [toNat_add (by omega), c0]
  have e1 : (h.x1 + (t.x1 + h0 >>> 44)).toNat = h.x1.toNat + (t.x1.toNat + h0.toNat / 2 ^ 44) := by
    rw [toNat_add (by omega), f1]
  generalize h.x1 + (t.x1 + h0 >>> 44) = h1 at *
  have c1 := toNat_shr44 h1
  have m1 := toNat_mask44 h1
  have f2 : (t.x2 + h1 >>> 44).toNat = t.x2.toNat + h1.toNat / 2 ^ 44 := by
    rw [toNat_add (by omega), c1]
  have e2 : (h.x2 + (t.x2 + h1 >>> 44)).toNat = h.x2.toNat + (t.x2.toNat + h1.toNat / 2 ^ 44) := by
    rw [toNat_add (by omega), f2]
  generalize h.x2 + (t.x2 + h1 >>> 44) = h2 at *
  have m2 := toNat_mask42 h2
  refine ⟨⟨by rw [m0]; omega, by rw [m1]; omega, by rw [m2]; omega⟩, ?_⟩
  simp only [Limbs.toNat, m0, m1, m2]
  omega

theorem carried_split (t0 t1 : UInt64) :
  Carried (split t0 t1)
  := by
  have h0 := t0.toNat_lt
  have h1 := t1.toNat_lt
  have hx0 := toNat_split_x0 t0 t1
  have hx1 := toNat_split_x1 t0 t1
  have hx2 := toNat_split_x2 t0 t1
  constructor <;> omega

/-- The bytes of the tag are those of the number below `2 ^ 128`. -/
theorem store_limbs {h : Limbs} (hh : Carried h) :
  store (h.x0 ||| h.x1 <<< 44) ++ store (h.x1 >>> 20 ||| h.x2 <<< 24) = toLE 16 h.toNat
  := by
  obtain ⟨hh0, hh1, hh2⟩ := hh
  have h0 : (h.x0 ||| h.x1 <<< 44).toNat = h.toNat % 2 ^ 64 := by
    have hshift : h.x1.toNat * 2 ^ 44 % 2 ^ 64 = h.x1.toNat % 2 ^ 20 * 2 ^ 44 := by omega
    rw [UInt64.toNat_or, toNat_shl (k := 44) rfl (by decide), hshift, or_mul_eq_add hh0,
      Limbs.toNat]
    omega
  have h1 : (h.x1 >>> 20 ||| h.x2 <<< 24).toNat = h.toNat / 2 ^ 64 % 2 ^ 64 := by
    have hshift : h.x2.toNat * 2 ^ 24 % 2 ^ 64 = h.x2.toNat % 2 ^ 40 * 2 ^ 24 := by omega
    rw [UInt64.toNat_or, toNat_shr (k := 20) rfl (by decide), toNat_shl (k := 24) rfl (by decide),
      hshift, or_mul_eq_add (by omega), Limbs.toNat]
    omega
  apply ofLE_injective
  · rw [List.length_append, store_eq, store_eq, length_toLE, length_toLE, length_toLE]
  · rw [ofLE_append, store_eq, store_eq, ofLE_toLE, ofLE_toLE, ofLE_toLE, length_toLE, h0, h1]
    omega

/-- The last block ends with the digit that the others have behind them. -/
theorem lastBlock_spec {st : State} {key : Bytes} {acc : ℕ} {l : Bytes} (h : Hashes st key acc)
    (hkey : 16 ≤ key.length) (hl : l.length < blockSize) :
  let zeros := List.replicate (blockSize - (l.length + 1)) 0
  Reduced (block st.r 0 st.h (l ++ [1] ++ zeros))
    ∧ (block st.r 0 st.h (l ++ [1] ++ zeros)).toNat % p = absorbBlock (clamp key) acc l
  := by
  intro zeros
  have hr : Clamped st.r := by
    rw [h.r]
    apply clamped_init
  have hlength : (l ++ [1] ++ zeros).length = 16 := by
    rw [List.length_append, List.length_append, List.length_singleton, List.length_replicate]
    rw [blockSize] at hl ⊢
    omega
  obtain ⟨hreduced, hvalue⟩ := block_spec 0 hr h.reduced (Or.inl rfl) hlength.ge
  have hnum : ofLE ((l ++ [1] ++ zeros).take 16) + 2 ^ 88 * (0 : UInt64).toNat
      = ofLE (l ++ [1]) := by
    have hzero : (0 : UInt64).toNat = 0 := rfl
    rw [List.take_of_length_le hlength.le, ofLE_append, ofLE_replicate_zero, hzero, Nat.mul_zero,
      Nat.mul_zero, Nat.add_zero]
  refine ⟨hreduced, ?_⟩
  rw [hvalue, hnum, h.toNat_mod, h.r, toNat_init_r st hkey]
  rfl

theorem finish_spec {st : State} {key : Bytes} {s : ℕ × Bytes} (h : Holds st key s)
    (hkey : key.length = 32) :
  (finish st).2
    = toLE 16 ((if s.2 = [] then s.1 else absorbBlock (clamp key) s.1 s.2)
        + ofLE ((key.drop 16).take 16))
  := by
  obtain ⟨acc, l⟩ := s
  obtain ⟨hhashes, hleftover, hlt, hbuffer, htake⟩ := h
  simp only at hhashes hleftover hlt htake ⊢
  have hpad : (split st.pad0 st.pad1).toNat = ofLE ((key.drop 16).take 16) := by
    have hpair := toNat_load_pair (m := key.drop 16) (by rw [List.length_drop]; omega)
    rw [toNat_split, hhashes.pad0, hhashes.pad1, ← hpair, List.drop_drop]
  have hend : ∀ {h : Limbs} {acc : ℕ}, Reduced h → h.toNat % p = acc →
      store ((addPad (select (carry h)) (split st.pad0 st.pad1)).x0
          ||| (addPad (select (carry h)) (split st.pad0 st.pad1)).x1 <<< 44)
        ++ store ((addPad (select (carry h)) (split st.pad0 st.pad1)).x1 >>> 20
          ||| (addPad (select (carry h)) (split st.pad0 st.pad1)).x2 <<< 24)
      = toLE 16 (acc + ofLE ((key.drop 16).take 16)) := by
    intro h acc hreduced hacc
    obtain ⟨hcarried, hcarry⟩ := carry_spec hreduced
    obtain ⟨hselected, hselect⟩ := select_spec hcarried
    obtain ⟨hpadded, hadd⟩ := addPad_spec hselected (carried_split st.pad0 st.pad1)
    rw [store_limbs hpadded, hadd, hselect, hcarry, hacc, hpad, toLE_mod]
    decide
  rw [finish]
  by_cases hnil : l = []
  · have hzero : st.leftover = 0 := by
      rw [hleftover, hnil]
      rfl
    rw [if_neg (not_not_intro hzero), if_pos hnil]
    apply hend hhashes.reduced hhashes.toNat_mod
  · have hpos := List.length_pos_iff.mpr hnil
    let zeros : Bytes := List.replicate (blockSize - (st.leftover + 1)) 0
    have hset : (st.buffer.set st.leftover 1).take (st.leftover + 1) = l ++ [1] := by
      rw [List.take_add_one, List.take_set_of_le (Nat.le_refl _),
        List.getElem?_set_self (by omega), hleftover, htake]
      rfl
    have hfill : fill (st.buffer.set st.leftover 1) (st.leftover + 1) zeros
        = l ++ [1] ++ zeros := by
      have hroom : st.leftover + 1 + zeros.length = (st.buffer.set st.leftover 1).length := by
        rw [List.length_replicate, List.length_set]
        omega
      rw [fill_eq hroom.le, hroom, List.drop_length, List.append_nil, hset]
    have hlength : (l ++ [1] ++ zeros).length = blockSize := by
      rw [← hfill, fill_eq (by rw [List.length_replicate, List.length_set]; omega)]
      simp only [List.length_append, List.length_take, List.length_drop, List.length_set,
        List.length_replicate, zeros]
      omega
    have hblocks : (blocks { st with buffer := l ++ [1] ++ zeros, final := true }
        (l ++ [1] ++ zeros)).h = block st.r 0 st.h (l ++ [1] ++ zeros) := by
      rw [blocks, hlength, Nat.div_self blockSize_pos]
      rfl
    obtain ⟨hreduced, hvalue⟩ := lastBlock_spec hhashes (by omega) hlt
    rw [← hleftover] at hreduced hvalue
    rw [if_pos (by omega), if_neg hnil, ← hend hreduced hvalue, ← hblocks, ← hfill]
    rfl

theorem holds_updates {st : State} {key : Bytes} (hkey : 16 ≤ key.length) (ms : List Bytes)
    {s : ℕ × Bytes} (h : Holds st key s) :
  Holds (ms.foldl update st) key (absorb blockSize (absorbBlock (clamp key)) s ms.flatten)
  := by
  induction ms generalizing st s with
  | nil => apply h
  | cons m ms ih =>
      rw [List.foldl_cons, List.flatten_cons, absorb_append]
      apply ih (h.update hkey m)

/-- The updates have given the message. -/
theorem Holds.finish {st : State} {key m : Bytes} (hkey : key.length = 32)
    (h : Holds st key (absorb blockSize (absorbBlock (clamp key)) (0, []) m)) :
  (finish st).2 = tag key m
  := by rw [finish_spec h hkey, tag, foldl_chunks blockSize_pos (fun _ _ _ => rfl)]

/-- The tag of a message, in whatever pieces it comes. -/
theorem finish_updates (st : State) (hbuffer : st.buffer.length = blockSize) (key : Bytes)
    (hkey : key.length = 32) (ms : List Bytes) :
  (finish (ms.foldl update (init st key))).2 = tag key ms.flatten
  := (holds_updates (by omega) ms (holds_init hbuffer key)).finish hkey

namespace Sample

def memory : State := ⟨⟨7, 7, 7⟩, ⟨7, 7, 7⟩, 7, 7, 7, List.replicate 16 7, true⟩

def key : Bytes :=
  [0x85, 0xd6, 0xbe, 0x78, 0x57, 0x55, 0x6d, 0x33, 0x7f, 0x44, 0x52, 0xfe, 0x42, 0xd5, 0x06,
    0xa8, 0x01, 0x03, 0x80, 0x8a, 0xfb, 0x0d, 0xb2, 0xfd, 0x4a, 0xbf, 0xf6, 0xaf, 0x41, 0x49,
    0xf5, 0x1b]

def message : Bytes := "Cryptographic Forum Research Group".toList.map Char.toUInt8

theorem finish_updates_message :
  (finish ([message.take 5, message.drop 5].foldl update (init memory key))).2
    = tag key ([message.take 5, message.drop 5].flatten)
  := finish_updates memory rfl key rfl [message.take 5, message.drop 5]

end Sample

example :
  auth Sample.memory Sample.message Sample.key
    = [0xa8, 0x06, 0x1d, 0xc1, 0x30, 0x51, 0x36, 0xc6, 0xc2, 0x2b, 0x8b, 0xaf, 0x0c, 0x01, 0x27,
      0xa9]
  := by decide +kernel

/-! ### Comparing tags -/

theorem foldl_or_eq_zero {l : List ℕ} {g : ℕ → UInt32} {a : UInt32} :
  l.foldl (fun dif i => dif ||| g i) a = 0 ↔ a = 0 ∧ ∀ i ∈ l, g i = 0
  := by
  induction l generalizing a with
  | nil => simp
  | cons i l ih =>
      rw [List.foldl_cons, ih, UInt32.or_eq_zero_iff, List.forall_mem_cons, and_assoc]

theorem foldl_or_lt {l : List ℕ} {g : ℕ → UInt32} {a : UInt32} (ha : a.toNat < 2 ^ 8)
    (hg : ∀ i, (g i).toNat < 2 ^ 8) :
  (l.foldl (fun dif i => dif ||| g i) a).toNat < 2 ^ 8
  := by
  induction l generalizing a with
  | nil => apply ha
  | cons i l ih =>
      rw [List.foldl_cons]
      apply ih
      rw [UInt32.toNat_or]
      apply Nat.or_lt_two_pow ha (hg i)

/-- Tags are compared without branching on their bytes. -/
theorem verify_iff {mac1 mac2 : Bytes} (h1 : mac1.length = 16) (h2 : mac2.length = 16) :
  verify mac1 mac2 = true ↔ mac1 = mac2
  := by
  let dif : UInt32 := (List.range 16).foldl (fun (dif : UInt32) i =>
    dif ||| (mac1.getD i 0 ^^^ mac2.getD i 0).toUInt32) 0
  have hlt : dif.toNat < 2 ^ 8 := by
    apply foldl_or_lt (show (0 : UInt32).toNat < 2 ^ 8 from Nat.two_pow_pos 8)
    intro i
    rw [UInt8.toNat_toUInt32]
    apply UInt8.toNat_lt
  have hnothing : (0 : UInt8).toUInt32 = 0 := rfl
  have hzero : dif = 0 ↔ mac1 = mac2 := by
    have hbytes : (∀ i ∈ List.range 16, (mac1.getD i 0 ^^^ mac2.getD i 0).toUInt32 = 0)
        ↔ mac1 = mac2 := by
      constructor
      · intro h
        apply List.ext_getElem (h1.trans h2.symm)
        intro i hi1 hi2
        have hi := h i (List.mem_range.mpr (by omega))
        rw [← hnothing, UInt8.toUInt32_inj, UInt8.xor_eq_zero_iff,
          List.getD_eq_getElem _ _ hi1, List.getD_eq_getElem _ _ hi2] at hi
        apply hi
      · rintro rfl i -
        rw [UInt8.xor_self, hnothing]
    rw [← hbytes]
    apply foldl_or_eq_zero.trans
    apply and_iff_right rfl
  have hverify : verify mac1 mac2 = true ↔ ((dif - 1) >>> 31) &&& 1 ≠ 0 := decide_eq_true_iff
  rw [hverify, ← hzero]
  by_cases hdif : dif = 0
  · rw [hdif]
    decide
  · have hpos : dif.toNat ≠ 0 := by
      intro h
      apply hdif (UInt32.toNat_inj.mp h)
    have hsub : (dif - 1).toNat = dif.toNat - 1 := by
      have hone : (1 : UInt32).toNat = 1 := rfl
      rw [UInt32.toNat_sub, hone]
      omega
    have hshift : (dif - 1) >>> 31 = 0 := by
      have hs : (31 : UInt32).toNat % 32 = 31 := rfl
      apply UInt32.toNat_inj.mp
      rw [UInt32.toNat_shiftRight, hsub, hs, Nat.shiftRight_eq_div_pow]
      apply Nat.div_eq_of_lt
      omega
    rw [hshift]
    simp only [hdif, UInt32.zero_and, ne_eq, not_true_eq_false]

end Poly1305

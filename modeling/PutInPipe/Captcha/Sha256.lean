import PutInPipe.Library.Blocks
import PutInPipe.Library.Endian

/-!
# SHA-256

The hash of the signatures. It takes a text byte by byte into a block of 64 bytes, and the words
that a full block is mixed into are what is left of the text.
-/

open Text (Bytes)
open Blocks Endian

namespace SHA256

def blockSize : ℕ := 64

/-- `m_state`. -/
abbrev Words := Vector UInt32 8

/-- The members of the class. -/
structure State where
  data : Bytes
  blocklen : ℕ
  bitlen : UInt64
  state : Words
deriving DecidableEq, Repr

def K : List UInt32 :=
  [0x428a2f98, 0x71374491, 0xb5c0fbcf, 0xe9b5dba5, 0x3956c25b, 0x59f111f1, 0x923f82a4, 0xab1c5ed5,
    0xd807aa98, 0x12835b01, 0x243185be, 0x550c7dc3, 0x72be5d74, 0x80deb1fe, 0x9bdc06a7, 0xc19bf174,
    0xe49b69c1, 0xefbe4786, 0x0fc19dc6, 0x240ca1cc, 0x2de92c6f, 0x4a7484aa, 0x5cb0a9dc, 0x76f988da,
    0x983e5152, 0xa831c66d, 0xb00327c8, 0xbf597fc7, 0xc6e00bf3, 0xd5a79147, 0x06ca6351, 0x14292967,
    0x27b70a85, 0x2e1b2138, 0x4d2c6dfc, 0x53380d13, 0x650a7354, 0x766a0abb, 0x81c2c92e, 0x92722c85,
    0xa2bfe8a1, 0xa81a664b, 0xc24b8b70, 0xc76c51a3, 0xd192e819, 0xd6990624, 0xf40e3585, 0x106aa070,
    0x19a4c116, 0x1e376c08, 0x2748774c, 0x34b0bcb5, 0x391c0cb3, 0x4ed8aa4a, 0x5b9cca4f, 0x682e6ff3,
    0x748f82ee, 0x78a5636f, 0x84c87814, 0x8cc70208, 0x90befffa, 0xa4506ceb, 0xbef9a3f7, 0xc67178f2]

def rotr (x n : UInt32) : UInt32 := x >>> n ||| x <<< (32 - n)

def choose (e f g : UInt32) : UInt32 := (e &&& f) ^^^ (~~~e &&& g)

def majority (a b c : UInt32) : UInt32 := (a &&& (b ||| c)) ||| (b &&& c)

def sig0 (x : UInt32) : UInt32 := rotr x 7 ^^^ rotr x 18 ^^^ x >>> 3

def sig1 (x : UInt32) : UInt32 := rotr x 17 ^^^ rotr x 19 ^^^ x >>> 10

/-- The first loop of `transform`: the word at `j`. -/
def word (data : Bytes) (j : ℕ) : UInt32 :=
  (data.getD j 0).toUInt32 <<< 24 ||| (data.getD (j + 1) 0).toUInt32 <<< 16
    ||| (data.getD (j + 2) 0).toUInt32 <<< 8 ||| (data.getD (j + 3) 0).toUInt32

/-- The first two loops of `transform`. -/
def schedule (data : Bytes) : List UInt32 :=
  (List.range' 16 48).foldl
    (fun m k =>
      m ++ [sig1 (m.getD (k - 2) 0) + m.getD (k - 7) 0 + sig0 (m.getD (k - 15) 0)
        + m.getD (k - 16) 0])
    ((List.range 16).map fun i => word data (4 * i))

/-- One turn of the loop of `transform`. -/
def round (s : Words) (m k : UInt32) : Words :=
  let maj := majority s[0] s[1] s[2]
  let xorA := rotr s[0] 2 ^^^ rotr s[0] 13 ^^^ rotr s[0] 22
  let ch := choose s[4] s[5] s[6]
  let xorE := rotr s[4] 6 ^^^ rotr s[4] 11 ^^^ rotr s[4] 25
  let sum := m + k + s[7] + ch + xorE
  let newA := xorA + maj + sum
  let newE := s[3] + sum
  let s := s.set 7 s[6]
  let s := s.set 6 s[5]
  let s := s.set 5 s[4]
  let s := s.set 4 newE
  let s := s.set 3 s[2]
  let s := s.set 2 s[1]
  let s := s.set 1 s[0]
  s.set 0 newA

/-- What `transform` makes of `m_state` and `m_data`. -/
def mix (state : Words) (data : Bytes) : Words :=
  let m := schedule data
  let s := (List.range 64).foldl (fun s i => round s (m.getD i 0) (K.getD i 0)) state
  Vector.zipWith (· + ·) state s

def transform (st : State) : State := { st with state := mix st.state st.data }

/-- The constructor, in the memory `data`. -/
def init (data : Bytes) : State where
  data := data
  blocklen := 0
  bitlen := 0
  state := #v[0x6a09e667, 0xbb67ae85, 0x3c6ef372, 0xa54ff53a, 0x510e527f, 0x9b05688c, 0x1f83d9ab,
    0x5be0cd19]

/-- One turn of the loop of `update`. -/
def updateByte (st : State) (c : UInt8) : State :=
  let st := { st with data := st.data.set st.blocklen c, blocklen := st.blocklen + 1 }
  if st.blocklen = 64 then
    let st := transform st
    { st with bitlen := st.bitlen + 512, blocklen := 0 }
  else st

def update (st : State) (data : Bytes) : State := data.foldl updateByte st

/-- `pad`, until the length is appended. -/
def padZeros (st : State) : State :=
  let i := st.blocklen
  let stop := if st.blocklen < 56 then 56 else 64
  let st := { st with data := st.data.set i 0x80 }
  let st := { st with data := fill st.data (i + 1) (List.replicate (stop - (i + 1)) 0) }
  if 56 ≤ st.blocklen then
    let st := transform st
    { st with data := fill st.data 0 (List.replicate 56 0) }
  else st

/-- `pad` appends the length in bits to the padding. -/
def padLength (st : State) : State :=
  let bitlen := st.bitlen + UInt64.ofNat (st.blocklen * 8)
  let st := { st with bitlen := bitlen, data := st.data.set 63 bitlen.toUInt8 }
  let st := { st with data := st.data.set 62 (bitlen >>> 8).toUInt8 }
  let st := { st with data := st.data.set 61 (bitlen >>> 16).toUInt8 }
  let st := { st with data := st.data.set 60 (bitlen >>> 24).toUInt8 }
  let st := { st with data := st.data.set 59 (bitlen >>> 32).toUInt8 }
  let st := { st with data := st.data.set 58 (bitlen >>> 40).toUInt8 }
  let st := { st with data := st.data.set 57 (bitlen >>> 48).toUInt8 }
  let st := { st with data := st.data.set 56 (bitlen >>> 56).toUInt8 }
  transform st

def pad (st : State) : State := padLength (padZeros st)

/-- `revert`: the byte at `i + 4 * j` is taken from the word `j`. -/
def revert (state : Words) : Bytes :=
  state.toList.flatMap fun w => (List.range 4).map fun i =>
    ((w >>> UInt32.ofNat (24 - i * 8)) &&& 0x000000ff).toUInt8

/-- `digest`: the members that it leaves and the hash. -/
def digest (st : State) : State × Bytes :=
  let st := pad st
  (st, revert st.state)

/-! ### The standard -/

namespace Standard

/-- A word rotated to the right. -/
def ROTR (n : ℕ) (x : UInt32) : UInt32 := ⟨x.toBitVec.rotateRight n⟩

def Ch (x y z : UInt32) : UInt32 := (x &&& y) ^^^ (~~~x &&& z)

def Maj (x y z : UInt32) : UInt32 := (x &&& y) ^^^ (x &&& z) ^^^ (y &&& z)

def bigSigma0 (x : UInt32) : UInt32 := ROTR 2 x ^^^ ROTR 13 x ^^^ ROTR 22 x

def bigSigma1 (x : UInt32) : UInt32 := ROTR 6 x ^^^ ROTR 11 x ^^^ ROTR 25 x

def sigma0 (x : UInt32) : UInt32 := ROTR 7 x ^^^ ROTR 18 x ^^^ x >>> 3

def sigma1 (x : UInt32) : UInt32 := ROTR 17 x ^^^ ROTR 19 x ^^^ x >>> 10

/-- The words of the message schedule of a block. -/
def W (block : Bytes) (t : ℕ) : UInt32 :=
  if t < 16 then UInt32.ofNat (ofLE ((block.drop (4 * t)).take 4).reverse)
  else sigma1 (W block (t - 2)) + W block (t - 7) + sigma0 (W block (t - 15)) + W block (t - 16)
termination_by t
decreasing_by all_goals omega

/-- The working variables after a turn. -/
def step (block : Bytes) (s : Words) (t : ℕ) : Words :=
  let T1 := s[7] + bigSigma1 s[4] + Ch s[4] s[5] s[6] + K.getD t 0 + W block t
  let T2 := bigSigma0 s[0] + Maj s[0] s[1] s[2]
  #v[T1 + T2, s[0], s[1], s[2], s[3] + T1, s[4], s[5], s[6]]

/-- The next intermediate hash value. -/
def compress (H : Words) (block : Bytes) : Words :=
  Vector.zipWith (· + ·) H ((List.range 64).foldl (step block) H)

/-- What is put behind a message of `l` bytes. -/
def padding (l : ℕ) : Bytes :=
  0x80 :: List.replicate ((119 - l % 64) % 64) 0 ++ toBE 8 (8 * l)

/-- The digest of a message. -/
def sha256 (m : Bytes) : Bytes :=
  ((chunks blockSize (m ++ padding m.length)).foldl compress (init []).state).toList.flatMap
    fun w => toBE 4 w.toNat

end Standard

open Standard

theorem Standard.length_sha256 (m : Bytes) :
  (sha256 m).length = 32
  := by
  rw [sha256, List.length_flatMap]
  simp [Endian.length_toBE]

/-! ### The words of the code are those of the standard -/

/-- The first 64 primes: a number below `19 ^ 2` is one if no smaller prime up to 17 divides it. -/
def primes : List ℕ := (List.range' 2 310).filter fun n =>
  [2, 3, 5, 7, 11, 13, 17].all fun q => q = n ∨ n % q ≠ 0

/-- The constants are the first bits after the point of the cube roots of the primes. -/
theorem K_eq :
  (K.zip primes).all (fun e =>
      (List.range 7).any fun c =>
        (2 ^ 32 * c + e.1.toNat) ^ 3 ≤ e.2 * 2 ^ 96 ∧ e.2 * 2 ^ 96 < (2 ^ 32 * c + e.1.toNat + 1) ^ 3)
    = true ∧ K.length = primes.length
  := by decide +kernel

theorem rotr_eq (x : UInt32) {s : UInt32} {n : ℕ} (hs : s.toNat = n) (hn : 0 < n) (hlt : n < 32) :
  rotr x s = ROTR n x
  := by
  have hr : (32 - s).toNat = 32 - n := by
    have h32 : (32 : UInt32).toNat = 32 := rfl
    rw [UInt32.toNat_sub, h32, hs]
    omega
  apply UInt32.toBitVec_inj.mp
  apply BitVec.eq_of_toNat_eq
  rw [ROTR, BitVec.rotateRight_def, rotr]
  simp only [UInt32.toNat_toBitVec, UInt32.toNat_or, UInt32.toNat_shiftRight,
    UInt32.toNat_shiftLeft, BitVec.toNat_or, BitVec.toNat_ushiftRight, BitVec.toNat_shiftLeft, hs,
    hr, Nat.mod_eq_of_lt hlt, Nat.mod_eq_of_lt (show 32 - n < 32 by omega)]

theorem majority_eq (a b c : UInt32) :
  majority a b c = Maj a b c
  := by
  apply UInt32.toBitVec_inj.mp
  apply BitVec.eq_of_getLsbD_eq
  intro i _
  simp only [majority, Maj, UInt32.toBitVec_or, UInt32.toBitVec_and, UInt32.toBitVec_xor,
    BitVec.getLsbD_or, BitVec.getLsbD_and, BitVec.getLsbD_xor]
  cases a.toBitVec.getLsbD i <;> cases b.toBitVec.getLsbD i <;> cases c.toBitVec.getLsbD i <;> rfl

theorem sig0_eq (x : UInt32) :
  sig0 x = sigma0 x
  := by
  rw [sig0, rotr_eq (n := 7) x rfl (by decide) (by decide),
    rotr_eq (n := 18) x rfl (by decide) (by decide)]
  rfl

theorem sig1_eq (x : UInt32) :
  sig1 x = sigma1 x
  := by
  rw [sig1, rotr_eq (n := 17) x rfl (by decide) (by decide),
    rotr_eq (n := 19) x rfl (by decide) (by decide)]
  rfl

theorem round_eq (block : Bytes) (s : Words) (t : ℕ) :
  round s (W block t) (K.getD t 0) = step block s t
  := by
  have hxorA : rotr s[0] 2 ^^^ rotr s[0] 13 ^^^ rotr s[0] 22 = bigSigma0 s[0] := by
    rw [rotr_eq (n := 2) _ rfl (by decide) (by decide),
      rotr_eq (n := 13) _ rfl (by decide) (by decide),
      rotr_eq (n := 22) _ rfl (by decide) (by decide)]
    rfl
  have hxorE : rotr s[4] 6 ^^^ rotr s[4] 11 ^^^ rotr s[4] 25 = bigSigma1 s[4] := by
    rw [rotr_eq (n := 6) _ rfl (by decide) (by decide),
      rotr_eq (n := 11) _ rfl (by decide) (by decide),
      rotr_eq (n := 25) _ rfl (by decide) (by decide)]
    rfl
  have hsum : W block t + K.getD t 0 + s[7] + choose s[4] s[5] s[6] + bigSigma1 s[4]
      = s[7] + bigSigma1 s[4] + Ch s[4] s[5] s[6] + K.getD t 0 + W block t := by
    rw [choose, ← Ch]
    ac_rfl
  have hnewA : ∀ T1 : UInt32, bigSigma0 s[0] + Maj s[0] s[1] s[2] + T1
      = T1 + (bigSigma0 s[0] + Maj s[0] s[1] s[2]) := by
    intro T1
    ac_rfl
  rw [round]
  simp only [hxorA, hxorE, hsum, majority_eq, hnewA]
  apply Vector.ext
  intro i hi
  match i, hi with
  | 0, _ | 1, _ | 2, _ | 3, _ | 4, _ | 5, _ | 6, _ | 7, _ => simp [step]

/-- The bytes of a word, the most significant one first. -/
theorem word_eq {data : Bytes} {j : ℕ} (h : j + 4 ≤ data.length) :
  word data j = UInt32.ofNat (ofLE ((data.drop j).take 4).reverse)
  := by
  have hdrop : 4 ≤ (data.drop j).length := by
    rw [List.length_drop]
    omega
  have hget : ∀ i, data.getD (j + i) 0 = (data.drop j).getD i 0 := by
    intro i
    rw [List.getD_eq_getElem?_getD, List.getD_eq_getElem?_getD, List.getElem?_drop]
  rw [word, hget 1, hget 2, hget 3]
  have hzero := hget 0
  rw [Nat.add_zero] at hzero
  rw [hzero]
  match data.drop j, hdrop with
  | c0 :: c1 :: c2 :: c3 :: p, _ =>
      have hflip : ∀ x y z w : UInt32, x ||| y ||| z ||| w = w ||| z ||| y ||| x := by
        intro x y z w
        ac_rfl
      have hpow : (2 : ℕ) ^ 32 = 256 ^ 4 := by norm_num
      have hbytes : ((c0 :: c1 :: c2 :: c3 :: p).take 4).reverse = [c3, c2, c1, c0] := rfl
      apply (hflip _ _ _ _).trans
      apply UInt32.toNat_inj.mp
      rw [toNat_or_bytes, hbytes, UInt32.toNat_ofNat', hpow]
      apply (Nat.mod_eq_of_lt (ofLE_lt [c3, c2, c1, c0])).symm

theorem W_of_lt {data : Bytes} (h : data.length = blockSize) {i : ℕ} (hi : i < 16) :
  W data i = word data (4 * i)
  := by
  have hfits : 4 * i + 4 ≤ data.length := by
    rw [h, blockSize]
    omega
  rw [W, if_pos hi, word_eq hfits]

/-- The words of the code so far are those of the standard. -/
theorem schedule_eq {data : Bytes} (h : data.length = blockSize) :
  schedule data = (List.range 64).map (W data)
  := by
  have hfold : ∀ n, (List.range' 16 n).foldl
      (fun m k =>
        m ++ [sig1 (m.getD (k - 2) 0) + m.getD (k - 7) 0 + sig0 (m.getD (k - 15) 0)
          + m.getD (k - 16) 0])
      ((List.range 16).map fun i => word data (4 * i)) = (List.range (16 + n)).map (W data) := by
    intro n
    induction n with
    | zero =>
        apply List.map_congr_left
        intro i hi
        rw [W_of_lt h (List.mem_range.mp hi)]
    | succ n ih =>
        have hget : ∀ i, i < 16 + n → ((List.range (16 + n)).map (W data)).getD i 0 = W data i := by
          intro i hi
          rw [List.getD_eq_getElem?_getD, List.getElem?_map, List.getElem?_range hi]
          rfl
        have hlate : ¬ 16 + n < 16 := by omega
        have hW : W data (16 + n) = sigma1 (W data (16 + n - 2)) + W data (16 + n - 7)
            + sigma0 (W data (16 + n - 15)) + W data (16 + n - 16) := by
          rw [W, if_neg hlate]
        rw [List.range'_concat, List.foldl_concat, ih, Nat.one_mul, hget _ (by omega),
          hget _ (by omega), hget _ (by omega), hget _ (by omega), ← Nat.add_assoc,
          List.range_succ, List.map_append, List.map_singleton, hW, sig1_eq, sig0_eq]
  apply hfold 48

theorem mix_eq (state : Words) {data : Bytes} (h : data.length = blockSize) :
  mix state data = compress state data
  := by
  have hround : ∀ (s : Words), ∀ t ∈ List.range 64,
      round s ((schedule data).getD t 0) (K.getD t 0) = step data s t := by
    intro s t ht
    have hword : (schedule data).getD t 0 = W data t := by
      rw [schedule_eq h, List.getD_eq_getElem?_getD, List.getElem?_map,
        List.getElem?_range (List.mem_range.mp ht)]
      rfl
    rw [hword, round_eq]
  have hfold := List.foldl_ext _ _ state hround
  rw [compress, ← hfold]
  rfl

/-! ### The bytes of a message -/

/-- The members after a message: the words of its blocks, the rest of it, and how long it is. -/
structure Absorbed (st : State) (m : Bytes) : Prop where
  pair : absorb blockSize mix ((init []).state, []) m = (st.state, st.data.take st.blocklen)
  blocklen : st.blocklen = m.length % 64
  length_data : st.data.length = blockSize
  bitlen : st.bitlen = UInt64.ofNat (8 * (m.length - m.length % 64))

theorem absorbed_init {data : Bytes} (h : data.length = blockSize) :
  Absorbed (init data) []
  := ⟨rfl, rfl, h, rfl⟩

theorem Absorbed.updateByte {st : State} {m : Bytes} (h : Absorbed st m) (c : UInt8) :
  Absorbed (updateByte st c) (m ++ [c])
  := by
  have hmod := Nat.mod_lt m.length (show 0 < 64 by decide)
  have hlength : (m ++ [c]).length = m.length + 1 := List.length_append
  have hdata := h.length_data
  have hblocklen := h.blocklen
  rw [blockSize] at hdata
  have htake : (st.data.set st.blocklen c).take (st.blocklen + 1)
      = st.data.take st.blocklen ++ [c] := by
    rw [List.take_add_one, List.take_set_of_le (Nat.le_refl _),
      List.getElem?_set_self (by omega)]
    rfl
  have hwait : (st.data.take st.blocklen).length = st.blocklen :=
    List.length_take_of_le (by omega)
  have hfeed : absorb blockSize mix ((init []).state, []) (m ++ [c])
      = feed blockSize mix (st.state, st.data.take st.blocklen) c := by
    rw [absorb_append, h.pair]
    rfl
  rw [SHA256.updateByte]
  simp only
  split
  case isTrue hfull =>
    have hall : st.data.take st.blocklen ++ [c] = st.data.set st.blocklen c := by
      rw [← htake, hfull, List.take_of_length_le]
      rw [List.length_set]
      omega
    constructor
    · rw [hfeed, feed, if_pos (by rw [hwait]; apply hfull), hall]
      rfl
    · simp only
      omega
    · apply (List.length_set).trans h.length_data
    · have hnext : 8 * ((m ++ [c]).length - (m ++ [c]).length % 64)
          = 8 * (m.length - m.length % 64) + 512 := by omega
      rw [hnext, UInt64.ofNat_add, ← h.bitlen]
      rfl
  case isFalse hshort =>
    constructor
    · rw [hfeed, feed, if_neg (by rw [hwait]; apply hshort), htake]
    · simp only
      omega
    · apply (List.length_set).trans h.length_data
    · have hsame : (m ++ [c]).length - (m ++ [c]).length % 64
          = m.length - m.length % 64 := by omega
      rw [hsame]
      apply h.bitlen

theorem Absorbed.update {st : State} {m : Bytes} (h : Absorbed st m) (data : Bytes) :
  Absorbed (update st data) (m ++ data)
  := by
  induction data generalizing st m with
  | nil =>
      rw [List.append_nil]
      apply h
  | cons c data ih =>
      rw [SHA256.update, List.foldl_cons, List.append_cons]
      apply ih (h.updateByte c)

theorem Absorbed.updates {st : State} {m : Bytes} (h : Absorbed st m) (ms : List Bytes) :
  Absorbed (ms.foldl SHA256.update st) (m ++ ms.flatten)
  := by
  induction ms generalizing st m with
  | nil =>
      rw [List.flatten_nil, List.append_nil]
      apply h
  | cons data ms ih =>
      rw [List.foldl_cons, List.flatten_cons, ← List.append_assoc]
      apply ih (h.update data)

/-! ### The end of a message -/

/-- The length goes to the last eight bytes of the block. -/
theorem set_length {data : Bytes} (h : data.length = blockSize) (v : UInt64) :
  (((((((data.set 63 v.toUInt8).set 62 (v >>> 8).toUInt8).set 61 (v >>> 16).toUInt8).set 60
      (v >>> 24).toUInt8).set 59 (v >>> 32).toUInt8).set 58 (v >>> 40).toUInt8).set 57
      (v >>> 48).toUInt8).set 56 (v >>> 56).toUInt8
    = data.take 56 ++ toBE 8 v.toNat
  := by
  have hdrop : (data.drop 56).length = 8 := by
    rw [List.length_drop, h]
    rfl
  have htake : (data.take 56).length = 56 := List.length_take_of_le (by
    rw [h, blockSize]
    decide)
  obtain ⟨q, l, rfl, hq, hl⟩ : ∃ q l : Bytes, data = q ++ l ∧ q.length = 56 ∧ l.length = 8 :=
    ⟨_, _, (List.take_append_drop 56 data).symm, htake, hdrop⟩
  rw [toBE, ← toLE_toNat]
  obtain _ | ⟨_, _ | ⟨_, _ | ⟨_, _ | ⟨_, _ | ⟨_, _ | ⟨_, _ | ⟨_, _ | ⟨_, _ | ⟨_, _⟩⟩⟩⟩⟩⟩⟩⟩⟩ := l
  case cons.cons.cons.cons.cons.cons.cons.cons.nil => simp [hq]
  all_goals cases hl

/-- The bit and the zeros after what has waited. -/
theorem fill_zeros (data : Bytes) {b : ℕ} (stop : ℕ) (hb : b < stop) (hstop : stop ≤ data.length) :
  fill (data.set b 0x80) (b + 1) (List.replicate (stop - (b + 1)) 0)
    = data.take b ++ 0x80 :: List.replicate (stop - (b + 1)) 0 ++ data.drop stop
  := by
  have hend : b + 1 + (stop - (b + 1)) = stop := by omega
  have htake : (data.set b 0x80).take (b + 1) = data.take b ++ [0x80] := by
    rw [List.take_add_one, List.take_set_of_le (Nat.le_refl _),
      List.getElem?_set_self (by omega)]
    rfl
  rw [fill_eq (by rw [List.length_replicate, List.length_set]; omega), htake,
    List.length_replicate, hend, List.drop_set_of_lt hb, List.append_assoc (data.take b) [0x80]]
  rfl

theorem padLength_state {st : State} (h : st.data.length = blockSize) :
  (padLength st).state
    = mix st.state
      (st.data.take 56 ++ toBE 8 (st.bitlen + UInt64.ofNat (st.blocklen * 8)).toNat)
  := by
  rw [← set_length h]
  rfl

theorem padZeros_of_lt {st : State} (h : st.data.length = blockSize) (hlt : st.blocklen < 56) :
  (padZeros st).data.length = blockSize ∧ (padZeros st).state = st.state
    ∧ (padZeros st).data.take 56
      = st.data.take st.blocklen ++ 0x80 :: List.replicate (55 - st.blocklen) 0
  := by
  have hsize : blockSize = 64 := rfl
  have hfill := fill_zeros st.data 56 hlt (by omega)
  have hzeros : 56 - (st.blocklen + 1) = 55 - st.blocklen := by omega
  have hwait : (st.data.take st.blocklen).length = st.blocklen :=
    List.length_take_of_le (by omega)
  rw [padZeros]
  simp only [hlt, if_true]
  rw [if_neg (Nat.not_le_of_lt hlt), hfill, hzeros]
  refine ⟨?_, rfl, ?_⟩
  · rw [List.length_append, List.length_append, List.length_cons, List.length_replicate,
      List.length_drop, hwait]
    omega
  · apply List.take_left'
    rw [List.length_append, List.length_cons, List.length_replicate, hwait]
    omega

theorem padZeros_of_ge {st : State} (h : st.data.length = blockSize) (hge : 56 ≤ st.blocklen)
    (hlt : st.blocklen < blockSize) :
  (padZeros st).data.length = blockSize
    ∧ (padZeros st).state
      = mix st.state (st.data.take st.blocklen ++ 0x80 :: List.replicate (63 - st.blocklen) 0)
    ∧ (padZeros st).data.take 56 = List.replicate 56 0
  := by
  have hsize : blockSize = 64 := rfl
  have hnot : ¬ st.blocklen < 56 := by omega
  have hfill := fill_zeros st.data 64 (show st.blocklen < 64 by omega) (by omega)
  have hzeros : 64 - (st.blocklen + 1) = 63 - st.blocklen := by omega
  have hend : st.data.drop 64 = [] := List.drop_of_length_le (by omega)
  have hlength : (st.data.take st.blocklen ++ 0x80 :: List.replicate (63 - st.blocklen) 0).length
      = 64 := by
    rw [List.length_append, List.length_cons, List.length_replicate, List.length_take]
    omega
  rw [padZeros]
  simp only [hnot, if_false]
  rw [if_pos hge, hfill, hzeros, hend, List.append_nil]
  have hclear : fill (st.data.take st.blocklen ++ 0x80 :: List.replicate (63 - st.blocklen) 0) 0
      (List.replicate 56 0) = List.replicate 56 0
        ++ (st.data.take st.blocklen ++ 0x80 :: List.replicate (63 - st.blocklen) 0).drop 56 := by
    rw [fill_eq (by rw [List.length_replicate]; omega), List.take_zero, List.nil_append,
      List.length_replicate]
  simp only [transform]
  rw [hclear]
  refine ⟨?_, trivial, List.take_left' List.length_replicate⟩
  rw [List.length_append, List.length_replicate, List.length_drop, hlength]
  rfl

theorem padZeros_length (st : State) :
  (padZeros st).bitlen = st.bitlen ∧ (padZeros st).blocklen = st.blocklen
  := by
  rw [padZeros]
  simp only
  split
  case isTrue => refine ⟨rfl, rfl⟩
  case isFalse => refine ⟨rfl, rfl⟩

/-- The padding goes through the blocks as the message does. -/
theorem pad_state {st : State} {m : Bytes} (h : Absorbed st m) :
  (pad st).state = (chunks blockSize (m ++ padding m.length)).foldl compress (init []).state
  := by
  obtain ⟨hpair, hblocklen, hdata, hbitlen⟩ := h
  obtain ⟨hkeep, hkeep'⟩ := padZeros_length st
  have hsize : blockSize = 64 := rfl
  have hwait : (st.data.take st.blocklen).length = st.blocklen :=
    List.length_take_of_le (by omega)
  have hbits : toBE 8 (st.bitlen + UInt64.ofNat (st.blocklen * 8)).toNat
      = toBE 8 (8 * m.length) := by
    have hsum : 8 * (m.length - m.length % 64) + st.blocklen * 8 = 8 * m.length := by omega
    rw [hbitlen, ← UInt64.ofNat_add, hsum, toBE, toBE, UInt64.toNat_ofNat', toLE_mod]
    decide
  have hbytes : (toBE 8 (8 * m.length)).length = 8 := by
    rw [toBE, List.length_reverse, length_toLE]
  have hlt : (st.data.take st.blocklen).length < blockSize := by omega
  have hblock : absorb blockSize mix (st.state, st.data.take st.blocklen) (padding m.length)
      = ((pad st).state, []) := by
    obtain hroom | hge := Nat.lt_or_ge st.blocklen 56
    · obtain ⟨hlength, hstate, htake⟩ := padZeros_of_lt hdata hroom
      have hzeros : (119 - m.length % 64) % 64 = 55 - st.blocklen := by omega
      have hfits : (st.data.take st.blocklen).length + (padding m.length).length = blockSize := by
        rw [padding, List.length_append, List.length_cons, List.length_replicate]
        omega
      have hlast : st.data.take st.blocklen ++ padding m.length
          = (padZeros st).data.take 56 ++ toBE 8 (8 * m.length) := by
        rw [htake, padding, hzeros, List.append_assoc]
      rw [absorb_of_eq hlt hfits, pad, padLength_state hlength, hstate, hkeep,
        hkeep', hbits, ← hlast]
    · obtain ⟨hlength, hstate, htake⟩ := padZeros_of_ge hdata hge (by omega)
      have hzeros : (119 - m.length % 64) % 64 = 63 - st.blocklen + 56 := by omega
      have hsplit : padding m.length = 0x80 :: List.replicate (63 - st.blocklen) 0
          ++ (List.replicate 56 0 ++ toBE 8 (8 * m.length)) := by
        rw [padding, hzeros, ← List.replicate_append_replicate, ← List.cons_append,
          List.append_assoc]
      have hfits : (st.data.take st.blocklen).length
          + (0x80 :: List.replicate (63 - st.blocklen) 0 : Bytes).length = blockSize := by
        rw [List.length_cons, List.length_replicate]
        omega
      have hfits' : ([] : Bytes).length
          + (List.replicate 56 0 ++ toBE 8 (8 * m.length)).length = blockSize := by
        rw [List.length_append, List.length_replicate, hbytes]
        rfl
      have hfirst := absorb_of_eq (f := mix) (s := (st.state, st.data.take st.blocklen)) hlt hfits
      rw [hsplit, absorb_append, hfirst, absorb_of_eq (Nat.zero_lt_succ 63) hfits', pad,
        padLength_state hlength, hstate, hkeep, hkeep', hbits, htake, List.nil_append]
  have hend := foldl_chunks (show 0 < blockSize by decide) (fun s _ h => (mix_eq s h).symm)
    (init []).state (m ++ padding m.length)
  rw [absorb_append, hpair, hblock, if_pos rfl] at hend
  apply hend.symm

theorem revert_eq (state : Words) :
  revert state = state.toList.flatMap fun w => toBE 4 w.toNat
  := by
  have hbyte : ∀ (w s : UInt32) (k : ℕ), s.toNat = k → k < 32 →
      ((w >>> s) &&& 0x000000ff).toUInt8 = UInt8.ofNat (w.toNat / 2 ^ k) := by
    intro w s k hs hk
    have hmask : (0x000000ff : UInt32).toNat = 2 ^ 8 - 1 := rfl
    apply UInt8.toNat_inj.mp
    rw [UInt32.toNat_toUInt8, UInt32.toNat_and, hmask, Nat.and_two_pow_sub_one_eq_mod,
      UInt32.toNat_shiftRight, hs, Nat.mod_eq_of_lt hk, Nat.shiftRight_eq_div_pow,
      UInt8.toNat_ofNat', Nat.mod_mod]
  have hword : ∀ w : UInt32, (List.range 4).map (fun i =>
      ((w >>> UInt32.ofNat (24 - i * 8)) &&& 0x000000ff).toUInt8) = toBE 4 w.toNat := by
    intro w
    have hlist : (List.range 4).map (fun i =>
        ((w >>> UInt32.ofNat (24 - i * 8)) &&& 0x000000ff).toUInt8)
        = [UInt8.ofNat (w.toNat / 2 ^ 24), UInt8.ofNat (w.toNat / 2 ^ 16),
          UInt8.ofNat (w.toNat / 2 ^ 8), UInt8.ofNat (w.toNat / 2 ^ 0)] := by
      rw [← hbyte w 24 24 rfl (by decide), ← hbyte w 16 16 rfl (by decide),
        ← hbyte w 8 8 rfl (by decide), ← hbyte w 0 0 rfl (by decide)]
      rfl
    rw [hlist]
    simp only [toBE, toLE, Nat.div_div_eq_div_mul, Nat.reducePow, Nat.reduceMul, Nat.div_one,
      List.reverse_cons, List.reverse_nil, List.nil_append, List.cons_append]
  rw [revert]
  simp only [hword]

theorem Absorbed.digest {st : State} {m : Bytes} (h : Absorbed st m) :
  (digest st).2 = sha256 m
  := by
  rw [SHA256.digest]
  simp only
  rw [revert_eq, pad_state h, sha256]

/-- The digest of a message is that of the standard, in whatever pieces the message comes. -/
theorem digest_updates (data : Bytes) (h : data.length = blockSize) (ms : List Bytes) :
  (digest (ms.foldl update (init data))).2 = sha256 ms.flatten
  := ((absorbed_init h).updates ms).digest

namespace Sample

def memory : Bytes := List.replicate blockSize 9

def message : Bytes := "abc".toList.map Char.toUInt8

theorem digest_updates_message :
  (digest ([message.take 1, message.drop 1].foldl update (init memory))).2
    = sha256 [message.take 1, message.drop 1].flatten
  := digest_updates memory List.length_replicate [message.take 1, message.drop 1]

end Sample

example :
  (digest (update (init Sample.memory) Sample.message)).2
    = [0xba, 0x78, 0x16, 0xbf, 0x8f, 0x01, 0xcf, 0xea, 0x41, 0x41, 0x40, 0xde, 0x5d, 0xae, 0x22,
      0x23, 0xb0, 0x03, 0x61, 0xa3, 0x96, 0x17, 0x7a, 0x9c, 0xb4, 0x10, 0xff, 0x61, 0xf2, 0x00,
      0x15, 0xad]
  := by decide +kernel

end SHA256

import PutInPipe.Socket.Basic

/-!
# Frames

`Frame.encode` writes a frame as the standard has it. What the machine of the connection computes
from the bytes of a header, and the header that it builds itself, are that of the frame.
-/

open Text (Bytes)
open Endian (ofLE toLE toBE)

namespace WebSocket

structure Frame where
  fin : Bool
  opcode : ℕ
  mask : Option Bytes
  payload : Bytes
  opcode_lt : opcode < 16
  length_mask : ∀ m ∈ mask, m.length = 4
  length_payload : payload.length < 2 ^ 64

theorem Opcode.toNat_lt (opcode : Opcode) :
  opcode.toNat < 16
  := by cases opcode <;> decide

/-- The payload with the mask on it, or without it again. -/
def masked (mask payload : Bytes) : Bytes := payload.mapIdx fun i c => c ^^^ mask.getD (i % 4) 0

namespace Frame

def first (f : Frame) : ℕ := (if f.fin then 0x80 else 0) + f.opcode

/-- The bit for the mask. -/
def bit (f : Frame) : ℕ := if f.mask.isSome then 0x80 else 0

/-- The length in the first two bytes. -/
def shortLength (f : Frame) : ℕ :=
  if f.payload.length < 126 then f.payload.length
  else if f.payload.length < 0x10000 then 126
  else 127

/-- The length behind the first two bytes. -/
def longLength (f : Frame) : Bytes :=
  if f.payload.length < 126 then []
  else if f.payload.length < 0x10000 then toBE 2 f.payload.length
  else toBE 8 f.payload.length

def maskBytes (f : Frame) : Bytes := f.mask.getD []

/-- The payload as it is sent. -/
def body (f : Frame) : Bytes :=
  match f.mask with
  | some mask => masked mask f.payload
  | none => f.payload

def encode (f : Frame) : Bytes :=
  [UInt8.ofNat f.first, UInt8.ofNat (f.bit + f.shortLength)]
    ++ f.longLength ++ f.maskBytes ++ f.body

/-- The first two bytes as a number. -/
def header (f : Frame) : ℕ := f.first * 256 + (f.bit + f.shortLength)

end Frame

/-! ### Bytes in the other order -/

theorem ofBE_toBE {k n : ℕ} (h : n < 256 ^ k) :
  ofBE (toBE k n) = n
  := by rw [ofBE, toBE, List.reverse_reverse, Endian.ofLE_toLE, Nat.mod_eq_of_lt h]

theorem toLE_ofBE {k : ℕ} {b : Bytes} (h : b.length = k) :
  toLE k (ofBE b) = b.reverse
  := by
  rw [ofBE, ← h, ← List.length_reverse]
  apply Endian.toLE_ofLE

/-- The two words of a number of eight bytes change places. -/
theorem swap_eq_ofBE {b : Bytes} (h : b.length = 8) :
  swap32 (ofLE b &&& 0xFFFFFFFF) <<< 32 ||| swap32 (ofLE b >>> 32) = ofBE b
  := by
  obtain ⟨lo, hi, rfl, hlo, hhi⟩ : ∃ lo hi : Bytes, b = lo ++ hi ∧ lo.length = 4 ∧ hi.length = 4 :=
    ⟨b.take 4, b.drop 4, (List.take_append_drop 4 b).symm, by simp [h], by simp [h]⟩
  have hpow : 256 ^ 4 = 2 ^ 32 := by norm_num
  have hlt : ofLE lo < 2 ^ 32 := hpow ▸ hlo ▸ Endian.ofLE_lt lo
  have hlow : ofLE (lo ++ hi) &&& 0xFFFFFFFF = ofLE lo := by
    rw [Nat.and_two_pow_sub_one_eq_mod _ 32, Endian.ofLE_append, hlo, hpow,
      Nat.add_mul_mod_self_left, Nat.mod_eq_of_lt hlt]
  have hhigh : ofLE (lo ++ hi) >>> 32 = ofLE hi := by
    rw [Nat.shiftRight_eq_div_pow, Endian.ofLE_append, hlo, hpow,
      Nat.add_mul_div_left _ _ (by decide), Nat.div_eq_of_lt hlt, Nat.zero_add]
  have hswap : ∀ w : Bytes, w.length = 4 → swap32 (ofLE w) = ofLE w.reverse := by
    intro w hw
    rw [swap32, ← hw, Endian.toLE_ofLE, ofBE]
  have hreverse : ofLE hi.reverse < 2 ^ 32 := by
    have hbound := Endian.ofLE_lt hi.reverse
    rwa [List.length_reverse, hhi, hpow] at hbound
  rw [hlow, hhigh, hswap lo hlo, hswap hi hhi, ofBE, List.reverse_append, Endian.ofLE_append,
    List.length_reverse, hhi, hpow, Nat.lor_comm, Nat.shiftLeft_eq,
    Endian.or_mul_eq_add hreverse, Nat.mul_comm]

/-! ### Headers -/

/-- The bits of two bytes are masked apart. -/
theorem and_eq {a b : ℕ} (hb : b < 256) (x : ℕ) {y : ℕ} (hy : y < 256) :
  (a * 256 + b) &&& (x * 256 + y) = (b &&& y) + 256 * (a &&& x)
  := by
  have hpow : 2 ^ 8 = 256 := by norm_num
  have hmod : ∀ {m n : ℕ}, n < 256 → (m * 256 + n) % 256 = n := by
    intro m n hn
    rw [Nat.mul_comm, Nat.mul_add_mod, Nat.mod_eq_of_lt hn]
  have hdiv : ∀ {m n : ℕ}, n < 256 → (m * 256 + n) / 256 = m := by
    intro m n hn
    rw [Nat.mul_comm, Nat.mul_add_div (by decide), Nat.div_eq_of_lt hn, Nat.add_zero]
  rw [Endian.and_eq_add 8, hpow, hmod hb, hmod hy, hdiv hb, hdiv hy]

namespace Frame

variable (f : Frame)

theorem shortLength_le :
  f.shortLength ≤ 127
  := by
  rw [shortLength]
  split
  · omega
  split
  · decide
  · decide

theorem second_lt :
  f.bit + f.shortLength < 256
  := by
  have hle := f.shortLength_le
  rw [bit]
  split <;> omega

theorem first_lt :
  f.first < 256
  := by
  have hlt := f.opcode_lt
  rw [first]
  split <;> omega

/-- What the header says of the mask and the length. -/
theorem header_low :
  (f.header &&& 0x80 = 0x80 ↔ f.mask.isSome = true) ∧ f.header &&& 0x7f = f.shortLength
  := by
  have hbits : ∀ (bit : Bool) (n : Fin 128),
      (((if bit then 0x80 else 0) + n.val) &&& 0x80 = 0x80 ↔ bit = true)
        ∧ ((if bit then 0x80 else 0) + n.val) &&& 0x7f = n.val := by
    decide +kernel
  have hle := f.shortLength_le
  have hthis := hbits f.mask.isSome ⟨f.shortLength, by omega⟩
  have hmask : f.header &&& 0x80 = (f.bit + f.shortLength) &&& 0x80 := by
    have hand := and_eq (a := f.first) f.second_lt 0 (y := 0x80) (by decide)
    rw [Nat.and_zero] at hand
    exact hand
  have hlength : f.header &&& 0x7f = (f.bit + f.shortLength) &&& 0x7f := by
    have hand := and_eq (a := f.first) f.second_lt 0 (y := 0x7f) (by decide)
    rw [Nat.and_zero] at hand
    exact hand
  rw [hmask, hlength]
  apply hthis

/-- What the header says of the kind of the frame. -/
theorem header_high :
  decide (f.header &&& 0x8000 ≠ 0) = f.fin ∧ (f.header &&& 0x0f00) >>> 8 = f.opcode
  := by
  have hbits : ∀ (fin : Bool) (n : Fin 16),
      decide (256 * (((if fin then 0x80 else 0) + n.val) &&& 0x80) ≠ 0) = fin
        ∧ (256 * (((if fin then 0x80 else 0) + n.val) &&& 0x0f)) >>> 8 = n.val := by
    decide +kernel
  have hthis := hbits f.fin ⟨f.opcode, f.opcode_lt⟩
  have hfin : f.header &&& 0x8000 = 256 * (f.first &&& 0x80) := by
    have hand := and_eq (a := f.first) f.second_lt 0x80 (y := 0) (by decide)
    rw [Nat.and_zero, Nat.zero_add] at hand
    exact hand
  have hopcode : f.header &&& 0x0f00 = 256 * (f.first &&& 0x0f) := by
    have hand := and_eq (a := f.first) f.second_lt 0x0f (y := 0) (by decide)
    rw [Nat.and_zero, Nat.zero_add] at hand
    exact hand
  rw [hfin, hopcode]
  apply hthis

theorem length_body :
  f.body.length = f.payload.length
  := by
  rw [body]
  split
  · apply List.length_mapIdx
  · rfl

end Frame

/-- A mask is taken off by putting it on again. -/
theorem masked_masked (mask payload : Bytes) :
  masked mask (masked mask payload) = payload
  := by
  apply List.ext_getElem?
  intro i
  rw [masked, masked, List.getElem?_mapIdx, List.getElem?_mapIdx, Option.map_map]
  have hid : ((fun c => c ^^^ mask.getD (i % 4) 0) ∘ fun c : UInt8 => c ^^^ mask.getD (i % 4) 0)
      = id := by
    funext c
    rw [Function.comp_apply, UInt8.xor_assoc, UInt8.xor_self, UInt8.xor_zero, id]
  rw [hid, Option.map_id, id]

/-- The code builds the header of a whole frame without a mask. -/
theorem buildHeader_append {opcode : ℕ} (hopcode : opcode < 16) {payload : Bytes}
    (h : payload.length < 2 ^ 64) :
  buildHeader opcode payload.length ++ payload
    = Frame.encode ⟨true, opcode, none, payload, hopcode, by rintro _ ⟨⟩, h⟩
  := by
  have htoBE : ∀ k : ℕ, toLE k (ofBE (toLE k payload.length)) = toBE k payload.length := by
    intro k
    rw [toLE_ofBE (Endian.length_toLE k _), toBE]
  have hlong : toLE 8 (swap32 (payload.length &&& 0xFFFFFFFF) <<< 32
      ||| swap32 (payload.length >>> 32)) = toBE 8 payload.length := by
    have hnumber : ofLE (toLE 8 payload.length) = payload.length := by
      rw [Endian.ofLE_toLE]
      apply Nat.mod_eq_of_lt
      have hpow : 256 ^ 8 = 2 ^ 64 := by norm_num
      rw [hpow]
      apply h
    have hswap := swap_eq_ofBE (Endian.length_toLE 8 payload.length)
    rw [hnumber] at hswap
    rw [hswap, htoBE]
  rw [buildHeader, htoBE, hlong, Frame.encode, Frame.longLength, Frame.shortLength, Frame.first,
    Frame.bit, Frame.maskBytes, Frame.body]
  simp only
  split
  · simp
  split
  · simp
  · simp

/-! ### A header that is read -/

theorem Frame.encode_append (f : Frame) (rest : Bytes) :
  f.encode ++ rest = UInt8.ofNat f.first :: UInt8.ofNat (f.bit + f.shortLength)
    :: (f.longLength ++ f.maskBytes ++ f.body ++ rest)
  := by
  rw [Frame.encode]
  simp only [List.cons_append, List.nil_append, List.append_assoc]

/-- The first two bytes of a frame make its header. -/
theorem Frame.header_eq (f : Frame) :
  (UInt8.ofNat f.first).toNat * 256 + (UInt8.ofNat (f.bit + f.shortLength)).toNat = f.header
  := by rw [UInt8.toNat_ofNat_of_lt' f.first_lt, UInt8.toNat_ofNat_of_lt' f.second_lt, Frame.header]

/-- The header of a frame with a mask is read. -/
theorem onMiniHeader_header (maxPayloadBytes : ℕ) (c : Connection) {f : Frame}
    (hmask : f.mask.isSome = true) {rest : Bytes} (hin : c.incoming = f.encode ++ rest) :
  c.onMiniHeader maxPayloadBytes (c.incoming.take 2)
    = { c with
        isReading := false
        isPending := false
        incoming := f.longLength ++ f.maskBytes ++ f.body ++ rest
        reading := { c.reading with miniHeader := f.header, hasMask := true }
      }.onHeader maxPayloadBytes
  := by
  have htake : c.incoming.take 2
      = [UInt8.ofNat f.first, UInt8.ofNat (f.bit + f.shortLength)] := by
    rw [hin, f.encode_append]
    rfl
  have hdrop : c.incoming.drop 2 = f.longLength ++ f.maskBytes ++ f.body ++ rest := by
    rw [hin, f.encode_append]
    rfl
  have hhas : f.header &&& 0x80 = 0x80 := f.header_low.1.mpr hmask
  rw [Connection.onMiniHeader, htake]
  simp only [miniHeaderOf, List.getD_cons_zero, List.getD_cons_succ, f.header_eq, hhas, if_true]
  rw [Connection.onBytes, List.length_cons, List.length_singleton, hdrop]

end WebSocket

import PutInPipe.Library.Text
import Mathlib.Tactic.IntervalCases

/-!
# Base64

`base64encode` and `base64decode` of the web framework. The decoder reads both alphabets, takes
any other character for the first one, and finds out from the last two characters, or from the
length, how many bytes there are.
-/

open Text (Bytes)

namespace Base64

/-- The two alphabets. -/
def standard : Bytes :=
  "ABCDEFGHIJKLMNOPQRSTUVWXYZabcdefghijklmnopqrstuvwxyz0123456789+/".toList.map Char.toUInt8

def urlsafe : Bytes :=
  "ABCDEFGHIJKLMNOPQRSTUVWXYZabcdefghijklmnopqrstuvwxyz0123456789-_".toList.map Char.toUInt8

/-- The character `=`. -/
def pad : UInt8 := 61

def char (key : Bytes) (i : UInt8) : UInt8 := key.getD i.toNat 0

/-- `base64encode`. -/
def encode (key : Bytes) : Bytes → Bytes
  | a :: b :: c :: data =>
      char key ((a &&& 0xFC) >>> 2)
        :: char key (((a &&& 0x03) <<< 4) ||| ((b &&& 0xF0) >>> 4))
        :: char key (((b &&& 0x0F) <<< 2) ||| ((c &&& 0xC0) >>> 6))
        :: char key (c &&& 0x3F)
        :: encode key data
  | [a, b] =>
      [char key ((a &&& 0xFC) >>> 2), char key (((a &&& 0x03) <<< 4) ||| ((b &&& 0xF0) >>> 4)),
        char key ((b &&& 0x0F) <<< 2), pad]
  | [a] => [char key ((a &&& 0xFC) >>> 2), char key ((a &&& 0x03) <<< 4), pad, pad]
  | [] => []

/-- The value of a character. -/
def index (c : UInt8) : UInt8 :=
  if 65 ≤ c ∧ c ≤ 90 then c - 65
  else if 97 ≤ c ∧ c ≤ 122 then c - 97 + 26
  else if 48 ≤ c ∧ c ≤ 57 then c - 48 + 52
  else if c = 43 ∨ c = 45 then 62
  else if c = 47 ∨ c = 95 then 63
  else 0

/-- How many bytes the text stands for. The size of a text of the one character `=` wraps
around, which is more than a string can have. -/
def decodedSize (data : Bytes) : Option ℕ :=
  let size := data.length
  if size % 4 = 2 then some (size / 4 * 3 + 1)
  else if size % 4 = 3 then some (size / 4 * 3 + 2)
  else if 2 ≤ size ∧ data[size - 2]? = some pad then some (size / 4 * 3 - 2)
  else if 1 ≤ size ∧ data[size - 1]? = some pad then Text.minus (size / 4 * 3) 1
  else some (size / 4 * 3)

/-- The first `size` bytes of what the text stands for. -/
def decodeFrom : ℕ → Bytes → Bytes
  | size + 3, w :: x :: y :: z :: data =>
      ((index w <<< 2) ||| ((index x &&& 0x30) >>> 4))
        :: (((index x &&& 0x0F) <<< 4) ||| ((index y &&& 0x3C) >>> 2))
        :: (((index y &&& 0x03) <<< 6) ||| index z)
        :: decodeFrom size data
  | 2, w :: x :: y :: _ =>
      [(index w <<< 2) ||| ((index x &&& 0x30) >>> 4),
        ((index x &&& 0x0F) <<< 4) ||| ((index y &&& 0x3C) >>> 2)]
  | 1, w :: x :: _ => [(index w <<< 2) ||| ((index x &&& 0x30) >>> 4)]
  | _, _ => []

/-- `base64decode`, which throws `std::length_error` where there is no such size. -/
def decode (data : Bytes) : Option Bytes :=
  (decodedSize data).map (decodeFrom · data)

/-! ### Characters and their values -/

variable {key : Bytes}

/-- The decoder reads the characters of the alphabet. -/
structure Readable (key : Bytes) : Prop where
  index : ∀ i : UInt8, i &&& 0x3F = i → index (char key i) = i
  pad : ∀ i, char key i ≠ pad

theorem toNat_lt_of_and {i : UInt8} (hi : i &&& 0x3F = i) :
  i.toNat < 64
  := by
  rw [← hi, UInt8.toNat_and]
  apply Nat.lt_of_le_of_lt Nat.and_le_right (by decide)

theorem readable_of_forall (hindex : ∀ n < 64, index (key.getD n 0) = UInt8.ofNat n)
    (hpad : pad ∉ key) :
  Readable key
  where
    index i hi := by rw [char, hindex _ (toNat_lt_of_and hi), UInt8.ofNat_toNat]
    pad i heq := by
      rw [char, List.getD_eq_getElem?_getD] at heq
      cases hget : key[i.toNat]? with
      | none =>
          rw [hget] at heq
          cases heq
      | some c =>
          rw [hget, Option.getD_some] at heq
          apply hpad (heq ▸ List.mem_of_getElem? hget)

theorem readable_standard :
  Readable standard
  := readable_of_forall (by decide +kernel) (by decide +kernel)

theorem readable_urlsafe :
  Readable urlsafe
  := readable_of_forall (by decide +kernel) (by decide +kernel)

/-! ### Three bytes and four characters -/

section

variable (a b c : UInt8)

theorem sextet_first :
  ((a &&& 0xFC) >>> 2) &&& (0x3F : UInt8) = (a &&& 0xFC) >>> 2
  := by
  apply UInt8.eq_of_toBitVec_eq
  ext i hi
  interval_cases i <;> simp

theorem sextet_second :
  (((a &&& 0x03) <<< 4) ||| ((b &&& 0xF0) >>> 4)) &&& (0x3F : UInt8)
    = ((a &&& 0x03) <<< 4) ||| ((b &&& 0xF0) >>> 4)
  := by
  apply UInt8.eq_of_toBitVec_eq
  ext i hi
  interval_cases i <;> simp

theorem sextet_third :
  (((b &&& 0x0F) <<< 2) ||| ((c &&& 0xC0) >>> 6)) &&& (0x3F : UInt8)
    = ((b &&& 0x0F) <<< 2) ||| ((c &&& 0xC0) >>> 6)
  := by
  apply UInt8.eq_of_toBitVec_eq
  ext i hi
  interval_cases i <;> simp

theorem sextet_fourth :
  (c &&& 0x3F) &&& 0x3F = c &&& 0x3F
  := by
  apply UInt8.eq_of_toBitVec_eq
  ext i hi
  interval_cases i <;> simp

/-- The bits of a byte that is missing. -/
theorem second_of_zero :
  (a &&& 0x03) <<< 4 = ((a &&& 0x03) <<< 4) ||| (((0 : UInt8) &&& 0xF0) >>> 4)
  := by simp

theorem third_of_zero :
  (b &&& 0x0F) <<< 2 = ((b &&& 0x0F) <<< 2) ||| (((0 : UInt8) &&& 0xC0) >>> 6)
  := by simp

theorem byte_first :
  (((a &&& 0xFC) >>> 2) <<< 2)
      ||| (((((a &&& 0x03) <<< 4) ||| ((b &&& 0xF0) >>> 4)) &&& 0x30) >>> 4) = a
  := by
  apply UInt8.eq_of_toBitVec_eq
  ext i hi
  interval_cases i <;> simp

theorem byte_second :
  (((((a &&& 0x03) <<< 4) ||| ((b &&& 0xF0) >>> 4)) &&& 0x0F) <<< 4)
      ||| (((((b &&& 0x0F) <<< 2) ||| ((c &&& 0xC0) >>> 6)) &&& 0x3C) >>> 2) = b
  := by
  apply UInt8.eq_of_toBitVec_eq
  ext i hi
  interval_cases i <;> simp

theorem byte_third :
  (((((b &&& 0x0F) <<< 2) ||| ((c &&& 0xC0) >>> 6)) &&& 0x03) <<< 6) ||| (c &&& 0x3F) = c
  := by
  apply UInt8.eq_of_toBitVec_eq
  ext i hi
  interval_cases i <;> simp

end

/-! ### The characters of a text -/

theorem char_of_mem_encode {c : UInt8} (data : Bytes) (h : c ∈ encode key data) :
  c = pad ∨ ∃ i, i &&& 0x3F = i ∧ c = char key i
  := by
  induction data using encode.induct with
  | case1 a b d data ih =>
      simp only [encode, List.mem_cons] at h
      obtain rfl | rfl | rfl | rfl | h := h
      · exact .inr ⟨_, sextet_first a, rfl⟩
      · exact .inr ⟨_, sextet_second a b, rfl⟩
      · exact .inr ⟨_, sextet_third b d, rfl⟩
      · exact .inr ⟨_, sextet_fourth d, rfl⟩
      · apply ih h
  | case2 a b =>
      simp only [encode, List.mem_cons, List.not_mem_nil, or_false] at h
      obtain rfl | rfl | rfl | rfl := h
      · exact .inr ⟨_, sextet_first a, rfl⟩
      · exact .inr ⟨_, sextet_second a b, rfl⟩
      · rw [third_of_zero]
        exact .inr ⟨_, sextet_third b 0, rfl⟩
      · exact .inl rfl
  | case3 a =>
      simp only [encode, List.mem_cons, List.not_mem_nil, or_false] at h
      obtain rfl | rfl | rfl | rfl := h
      · exact .inr ⟨_, sextet_first a, rfl⟩
      · rw [second_of_zero]
        exact .inr ⟨_, sextet_second a 0, rfl⟩
      · exact .inl rfl
      · exact .inl rfl
  | case4 => cases h

theorem mem_encode {c : UInt8} (data : Bytes) (h : c ∈ encode key data) :
  c ∈ key ∨ c = 0 ∨ c = pad
  := by
  obtain rfl | ⟨i, -, rfl⟩ := char_of_mem_encode data h
  · exact .inr (.inr rfl)
  · rw [char, List.getD_eq_getElem?_getD]
    cases hget : key[i.toNat]? with
    | none => exact .inr (.inl rfl)
    | some c => exact .inl (List.mem_of_getElem? hget)

/-- With an alphabet of 64 characters all characters but the padding are in it. -/
theorem mem_key_of_mem_encode (hkey : key.length = 64) {c : UInt8} (data : Bytes)
    (h : c ∈ encode key data) (hpad : c ≠ pad) :
  c ∈ key
  := by
  obtain ⟨i, hi, rfl⟩ := (char_of_mem_encode data h).resolve_left hpad
  have hlt : i.toNat < key.length := by
    rw [hkey]
    apply toNat_lt_of_and hi
  rw [char, List.getD_eq_getElem?_getD, List.getElem?_eq_getElem hlt, Option.getD_some]
  apply List.getElem_mem

/-! ### Without padding -/

/-- The text without the characters `=`. -/
def unpadded (key data : Bytes) : Bytes := (encode key data).filter (· != pad)

theorem unpadded_cons (hkey : Readable key) (a b c : UInt8) (data : Bytes) :
  unpadded key (a :: b :: c :: data)
    = char key ((a &&& 0xFC) >>> 2)
      :: char key (((a &&& 0x03) <<< 4) ||| ((b &&& 0xF0) >>> 4))
      :: char key (((b &&& 0x0F) <<< 2) ||| ((c &&& 0xC0) >>> 6))
      :: char key (c &&& 0x3F)
      :: unpadded key data
  := by
  rw [unpadded, encode]
  simp [hkey.pad, unpadded]

theorem unpadded_two (hkey : Readable key) (a b : UInt8) :
  unpadded key [a, b]
    = [char key ((a &&& 0xFC) >>> 2), char key (((a &&& 0x03) <<< 4) ||| ((b &&& 0xF0) >>> 4)),
        char key ((b &&& 0x0F) <<< 2)]
  := by
  rw [unpadded, encode]
  simp [hkey.pad]

theorem unpadded_one (hkey : Readable key) (a : UInt8) :
  unpadded key [a] = [char key ((a &&& 0xFC) >>> 2), char key ((a &&& 0x03) <<< 4)]
  := by
  rw [unpadded, encode]
  simp [hkey.pad]

theorem length_unpadded (hkey : Readable key) (data : Bytes) :
  (unpadded key data).length = (data.length * 4 + 2) / 3
  := by
  induction data using encode.induct with
  | case1 a b c data ih =>
      rw [unpadded_cons hkey]
      simp only [List.length_cons, ih]
      omega
  | case2 a b => simp [unpadded_two hkey]
  | case3 a => simp [unpadded_one hkey]
  | case4 => rfl

theorem pad_not_mem_unpadded (key data : Bytes) :
  pad ∉ unpadded key data
  := by simp [unpadded]

/-! ### Decoding what was encoded -/

theorem length_encode (data : Bytes) :
  (encode key data).length = (data.length + 2) / 3 * 4
  := by
  induction data using encode.induct with
  | case1 a b c data ih =>
      simp only [encode, List.length_cons, ih]
      omega
  | case2 | case3 | case4 => simp [encode]

/-- Four more characters stand for three more bytes. -/
theorem decodedSize_cons (w x y z : UInt8) {data : Bytes} (hlength : 4 ≤ data.length)
    (hmod : data.length % 4 = 0) :
  decodedSize (w :: x :: y :: z :: data) = (decodedSize data).map (· + 3)
  := by
  have hsize : (w :: x :: y :: z :: data).length = data.length + 4 := rfl
  have hlast : ∀ n, 1 ≤ n → n ≤ 2 →
      (w :: x :: y :: z :: data)[data.length + 4 - n]? = data[data.length - n]? := by
    intro n hpos hle
    have hindex : data.length + 4 - n = data.length - n + 1 + 1 + 1 + 1 := by omega
    rw [hindex]
    rfl
  have hsmall : Text.minus (data.length / 4 * 3) 1 = some (data.length / 4 * 3 - 1)
      ∧ Text.minus ((data.length + 4) / 4 * 3) 1 = some (data.length / 4 * 3 - 1 + 3) := by
    constructor
    · apply if_pos (by omega)
    · rw [Text.minus, if_pos (by omega), Option.some.injEq]
      omega
  simp only [decodedSize, hsize, hlast 1 (by decide) (by decide), hlast 2 (by decide) (by decide),
    hsmall]
  rw [if_neg (by omega), if_neg (by omega), if_neg (by omega : ¬data.length % 4 = 2),
    if_neg (by omega : ¬data.length % 4 = 3)]
  by_cases htwo : data[data.length - 2]? = some pad
  · rw [if_pos ⟨by omega, htwo⟩, if_pos ⟨by omega, htwo⟩, Option.map_some, Option.some.injEq]
    omega
  · rw [if_neg (not_and_of_not_right _ htwo), if_neg (not_and_of_not_right _ htwo)]
    by_cases hone : data[data.length - 1]? = some pad
    · rw [if_pos ⟨by omega, hone⟩, if_pos ⟨by omega, hone⟩, Option.map_some]
    · rw [if_neg (not_and_of_not_right _ hone), if_neg (not_and_of_not_right _ hone),
        Option.map_some, Option.some.injEq]
      omega

theorem decodedSize_encode (hkey : Readable key) (data : Bytes) :
  decodedSize (encode key data) = some data.length
  := by
  induction data using encode.induct with
  | case1 a b c data ih =>
      rw [encode]
      cases data with
      | nil => simp [encode, decodedSize, hkey.pad]
      | cons d data =>
          have hlength : (encode key (d :: data)).length = (data.length + 1 + 2) / 3 * 4 :=
            length_encode (d :: data)
          rw [decodedSize_cons _ _ _ _ (by omega) (by omega), ih]
          rfl
  | case2 a b => simp [encode, decodedSize, hkey.pad, Text.minus]
  | case3 a => simp [encode, decodedSize]
  | case4 => simp [encode, decodedSize]

theorem decodeFrom_encode (hkey : Readable key) (data : Bytes) :
  decodeFrom data.length (encode key data) = data
  := by
  induction data using encode.induct with
  | case1 a b c data ih =>
      simp only [encode, List.length_cons, decodeFrom, hkey.index _ (sextet_first a),
        hkey.index _ (sextet_second a b), hkey.index _ (sextet_third b c),
        hkey.index _ (sextet_fourth c), byte_first, byte_second, byte_third, ih]
  | case2 a b =>
      rw [encode, third_of_zero]
      simp only [List.length_cons, List.length_nil, decodeFrom, hkey.index _ (sextet_first a),
        hkey.index _ (sextet_second a b), hkey.index _ (sextet_third b 0), byte_first, byte_second]
  | case3 a =>
      rw [encode, second_of_zero]
      simp only [List.length_cons, List.length_nil, decodeFrom, hkey.index _ (sextet_first a),
        hkey.index _ (sextet_second a 0), byte_first]
  | case4 => rfl

/-- Decoding gives back what was encoded. -/
theorem decode_encode (hkey : Readable key) (data : Bytes) :
  decode (encode key data) = some data
  := by
  rw [decode, decodedSize_encode hkey, Option.map_some, decodeFrom_encode hkey]

/-- The decoder finds out from the length how many bytes there are. -/
theorem decodedSize_unpadded (hkey : Readable key) (data : Bytes) :
  decodedSize (unpadded key data) = some data.length
  := by
  have hnot : ∀ i : ℕ, (unpadded key data)[i]? ≠ some pad := by
    intro i hi
    apply pad_not_mem_unpadded key data (List.mem_of_getElem? hi)
  simp only [decodedSize, hnot, and_false, if_false, length_unpadded hkey]
  split
  · rw [Option.some.injEq]
    omega
  split
  · rw [Option.some.injEq]
    omega
  · rw [Option.some.injEq]
    omega

theorem decodeFrom_unpadded (hkey : Readable key) (data : Bytes) :
  decodeFrom data.length (unpadded key data) = data
  := by
  induction data using encode.induct with
  | case1 a b c data ih =>
      rw [unpadded_cons hkey]
      simp only [List.length_cons, decodeFrom, hkey.index _ (sextet_first a),
        hkey.index _ (sextet_second a b), hkey.index _ (sextet_third b c),
        hkey.index _ (sextet_fourth c), byte_first, byte_second, byte_third, ih]
  | case2 a b =>
      rw [unpadded_two hkey, third_of_zero]
      simp only [List.length_cons, List.length_nil, decodeFrom, hkey.index _ (sextet_first a),
        hkey.index _ (sextet_second a b), hkey.index _ (sextet_third b 0), byte_first, byte_second]
  | case3 a =>
      rw [unpadded_one hkey, second_of_zero]
      simp only [List.length_cons, List.length_nil, decodeFrom, hkey.index _ (sextet_first a),
        hkey.index _ (sextet_second a 0), byte_first]
  | case4 => rfl

/-- Decoding gives back what was encoded without padding. -/
theorem decode_unpadded (hkey : Readable key) (data : Bytes) :
  decode (unpadded key data) = some data
  := by
  rw [decode, decodedSize_unpadded hkey, Option.map_some, decodeFrom_unpadded hkey]

end Base64

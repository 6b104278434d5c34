import Mathlib.Algebra.Ring.Nat
import Mathlib.Algebra.Ring.Int.Defs
import Mathlib.Data.Int.Notation
import Mathlib.Data.List.Basic
import Mathlib.Data.List.TakeWhile

/-!
# Strings of bytes

The operations of `std::string`, on lists. A position or a length is `none` where it is `npos`,
also where the subtraction of two positions wraps around to it. Integers are written and read
in base ten, as `operator<<` and `std::stoll` do.
-/

universe u

namespace Text

abbrev Bytes := List UInt8

/-! ### Positions -/

section

variable {α : Type u} [DecidableEq α]

/-- The first position of `c` from `start` on. -/
def find (s : List α) (c : α) (start : ℕ) : Option ℕ :=
  ((s.drop start).idxOf? c).map (start + ·)

/-- The last position of `c` up to `pos`. -/
def rfind (s : List α) (c : α) : Option ℕ → Option ℕ
  | none => (s.reverse.idxOf? c).map (s.length - 1 - ·)
  | some pos => ((s.take (pos + 1)).reverse.idxOf? c).map ((s.take (pos + 1)).length - 1 - ·)

def substr (s : List α) (pos : ℕ) : Option ℕ → List α
  | none => s.drop pos
  | some length => (s.drop pos).take length

/-- The difference of two positions, one of which may be just before the other. -/
def minus (pos pos' : ℕ) : Option ℕ := if pos' ≤ pos then some (pos - pos') else none

theorem idxOf?_append_cons {s : List α} {c : α} (h : c ∉ s) (s' : List α) :
  (s ++ c :: s').idxOf? c = some s.length
  := by
  induction s with
  | nil => simp [List.idxOf?_cons]
  | cons x s ih =>
      obtain ⟨hne, hs⟩ : c ≠ x ∧ c ∉ s := by simpa using h
      rw [List.cons_append, List.idxOf?_cons, if_neg (by simpa using Ne.symm hne), ih hs,
        Option.map_some, List.length_cons]

theorem rfind_append_cons {s s' : List α} {c : α} (h : c ∉ s') :
  rfind (s ++ c :: s') c none = some s.length
  := by
  have hreverse : (s ++ c :: s').reverse = s'.reverse ++ c :: s.reverse := by
    simp
  rw [rfind, hreverse, idxOf?_append_cons (by simpa using h), Option.map_some, Option.some.injEq,
    List.length_reverse, List.length_append, List.length_cons]
  omega

theorem rfind_of_not_mem {s : List α} {c : α} (h : c ∉ s) :
  rfind s c none = none
  := by
  rw [rfind, Option.map_eq_none_iff, List.idxOf?_eq_none_iff]
  simpa using h

/-- The pieces before and after the last separator are unique. -/
theorem append_cons_inj {s₁ s₂ t₁ t₂ : List α} {c : α} (hs : c ∉ s₂) (ht : c ∉ t₂)
    (h : s₁ ++ c :: s₂ = t₁ ++ c :: t₂) :
  s₁ = t₁ ∧ s₂ = t₂
  := by
  have hlength : some s₁.length = some t₁.length := by
    rw [← rfind_append_cons hs, h, rfind_append_cons ht]
  obtain ⟨hfirst, hrest⟩ := List.append_inj h (Option.some.inj hlength)
  exact ⟨hfirst, (List.cons.inj hrest).2⟩

theorem rfind_some (s : List α) (c : α) (pos : ℕ) :
  rfind s c (some pos) = rfind (s.take (pos + 1)) c none
  := rfl

theorem find_eq_none {s : List α} {c : α} {start : ℕ} (h : find s c start = none) :
  c ∉ s.drop start
  := by
  rw [find, Option.map_eq_none_iff] at h
  apply List.idxOf?_eq_none_iff.mp h

/-- What is found is the end of a piece without the separator. -/
theorem find_eq_some {s : List α} {c : α} {start last : ℕ} (h : find s c start = some last) :
  start ≤ last ∧ last < s.length ∧ c ∉ substr s start (some (last - start))
    ∧ s.drop start = substr s start (some (last - start)) ++ c :: s.drop (last + 1)
  := by
  obtain ⟨i, hi, rfl⟩ := Option.map_eq_some_iff.mp h
  obtain ⟨hlt, hget, hfirst⟩ := List.idxOf?_eq_some_iff.mp hi
  have hlength : i < s.length - start := by rwa [List.length_drop] at hlt
  refine ⟨by omega, by omega, ?_, ?_⟩
  · rw [substr, Nat.add_sub_cancel_left]
    intro hmem
    obtain ⟨j, hj, hjget⟩ := List.getElem_of_mem hmem
    rw [List.length_take] at hj
    apply hfirst j (by omega)
    rwa [List.getElem_take] at hjget
  · rw [substr, Nat.add_sub_cancel_left, Nat.add_assoc, ← List.drop_drop, ← hget,
      ← List.drop_eq_getElem_cons hlt, List.take_append_drop]

end

/-- A list with a separator splits at the last one. -/
theorem exists_last {α : Type u} {s : List α} {c : α} (h : c ∈ s) :
  ∃ s₁ s₂, s = s₁ ++ c :: s₂ ∧ c ∉ s₂
  := by
  obtain ⟨s₂, s₁, hs, hnot⟩ := List.eq_append_cons_of_mem (List.mem_reverse.mpr h)
  use s₁.reverse, s₂.reverse
  constructor
  · rw [List.reverse_eq_iff.mp hs]
    simp
  · simpa using hnot

/-! ### Integers -/

def isSpace (c : UInt8) : Bool := c == 32 || (9 ≤ c && c ≤ 13)

def isDigit (c : UInt8) : Bool := 48 ≤ c && c ≤ 57

/-- A natural number in base ten. -/
def decimal (n : ℕ) : Bytes := (Nat.toDigits 10 n).map Char.toUInt8

/-- `operator<<` of an `std::ostream`. -/
def put (n : Int64) : Bytes :=
  if n.toInt < 0 then 45 :: decimal n.toInt.natAbs else decimal n.toInt.natAbs

def value (digits : Bytes) : ℕ := digits.foldl (fun n digit => 10 * n + (digit.toNat - 48)) 0

/-- The sign of a number and what follows it. -/
def sign : Bytes → Bool × Bytes
  | 45 :: s => (true, s)
  | 43 :: s => (false, s)
  | s => (false, s)

/-- `std::stoll`, which throws where there is no number or it is out of range. -/
def stoll (s : Bytes) : Option Int64 :=
  let (negative, s) := sign (s.dropWhile isSpace)
  let digits := s.takeWhile isDigit
  let n : ℤ := if negative then -value digits else value digits
  if digits ≠ [] ∧ -2 ^ 63 ≤ n ∧ n < 2 ^ 63 then some (Int64.ofInt n) else none

theorem toUInt8_of_isDigit {c : Char} (h : c.isDigit = true) :
  isDigit c.toUInt8 = true ∧ c.toUInt8.toNat = c.toNat
  := by
  have hbounds : 48 ≤ c.toNat ∧ c.toNat ≤ 57 := by
    simpa [Char.isDigit, UInt32.le_iff_toNat_le] using h
  have htoNat : c.toUInt8.toNat = c.toNat := by
    rw [Char.toUInt8, UInt32.toNat_toUInt8]
    apply Nat.mod_eq_of_lt (Nat.lt_of_le_of_lt hbounds.2 (by decide))
  constructor
  · simp only [isDigit, UInt8.le_iff_toNat_le, htoNat, Bool.and_eq_true, decide_eq_true_eq]
    apply hbounds
  · apply htoNat

theorem not_isSpace_of_isDigit {c : UInt8} (h : isDigit c = true) :
  isSpace c = false
  := by
  simp only [isDigit, Bool.and_eq_true, decide_eq_true_eq, UInt8.le_iff_toNat_le] at h
  have hlow : 48 ≤ c.toNat := h.1
  have hne : c ≠ 32 := by
    rintro rfl
    exact absurd hlow (by decide)
  have hnot : ¬c ≤ 13 := by
    rw [UInt8.le_iff_toNat_le]
    apply Nat.not_le.mpr (Nat.lt_of_lt_of_le (by decide) hlow)
  simp [isSpace, hne, hnot]

theorem isDigit_of_mem_decimal {n : ℕ} {c : UInt8} (h : c ∈ decimal n) :
  isDigit c = true
  := by
  obtain ⟨c, hc, rfl⟩ := List.mem_map.mp h
  apply (toUInt8_of_isDigit (Nat.isDigit_of_mem_toDigits (by decide) (by decide) hc)).1

theorem decimal_ne_nil (n : ℕ) :
  decimal n ≠ []
  := by
  rw [decimal, Ne, List.map_eq_nil_iff]
  apply Nat.toDigits_ne_nil

theorem value_decimal (n : ℕ) :
  value (decimal n) = n
  := by
  calc value (decimal n)
      = (Nat.toDigits 10 n).foldl (fun n digit => 10 * n + (digit.toUInt8.toNat - 48)) 0 := by
        rw [value, decimal, List.foldl_map]
    _ = (Nat.toDigits 10 n).foldl (fun n digit => 10 * n + (digit.toNat - 48)) 0 := by
        apply List.foldl_ext
        intro n digit hdigit
        rw [(toUInt8_of_isDigit (Nat.isDigit_of_mem_toDigits (by decide) (by decide) hdigit)).2]
    _ = Nat.ofDigitChars 10 (Nat.toDigits 10 n) 0 := by
        rw [Nat.ofDigitChars_eq_foldl]
        rfl
    _ = n := Nat.ofDigitChars_ten_toDigits

theorem head?_toDigits {n : ℕ} (h : 0 < n) :
  (Nat.toDigits 10 n).head? ≠ some '0'
  := by
  induction n using Nat.strongRecOn with
  | ind n ih =>
      obtain hlt | hle := Nat.lt_or_ge n 10
      · rw [Nat.toDigits_of_lt_base hlt, List.head?_singleton, Ne, Option.some.injEq,
          Nat.digitChar_eq_zero]
        omega
      · have hne : Nat.toDigits 10 (n / 10) ≠ [] := Nat.toDigits_ne_nil
        rw [Nat.toDigits_of_base_le (by decide) hle, List.head?_append_of_ne_nil _ hne]
        apply ih
        · omega
        · omega

/-- Only the number zero begins with that digit. -/
theorem head?_decimal {n : ℕ} (h : 0 < n) :
  (decimal n).head? ≠ some 48
  := by
  intro hhead
  rw [decimal, List.head?_map] at hhead
  obtain ⟨c, hc, hzero⟩ := Option.map_eq_some_iff.mp hhead
  have hdigit := Nat.isDigit_of_mem_toDigits (by decide) (by decide) (List.mem_of_mem_head? hc)
  apply head?_toDigits h
  rw [hc, Option.some.injEq]
  apply Char.toNat_inj.mp
  rw [← (toUInt8_of_isDigit hdigit).2, hzero]
  rfl

/-! ### Numerals -/

/-- The whole of a text is an integer in base ten, with or without a sign. -/
inductive Numeral : Bytes → ℤ → Prop where
  | unsigned {digits : Bytes} (hne : digits ≠ []) (hdigits : ∀ c ∈ digits, isDigit c = true) :
      Numeral digits (value digits)
  | plus {digits : Bytes} (hne : digits ≠ []) (hdigits : ∀ c ∈ digits, isDigit c = true) :
      Numeral (43 :: digits) (value digits)
  | minus {digits : Bytes} (hne : digits ≠ []) (hdigits : ∀ c ∈ digits, isDigit c = true) :
      Numeral (45 :: digits) (-value digits)

/-- No blank begins a numeral, and the sign is told from the digits. -/
theorem sign_of_digits {digits : Bytes} (hne : digits ≠ [])
    (hdigits : ∀ c ∈ digits, isDigit c = true) :
  sign (digits.dropWhile isSpace) = (false, digits)
  := by
  obtain ⟨c, s, rfl⟩ := List.exists_cons_of_ne_nil hne
  have hdigit : isDigit c = true := hdigits c List.mem_cons_self
  rw [List.dropWhile_cons_of_neg (by simp [not_isSpace_of_isDigit hdigit])]
  unfold sign
  split
  case h_1 hcons =>
      obtain ⟨rfl, -⟩ := List.cons.inj hcons
      cases hdigit
  case h_2 hcons =>
      obtain ⟨rfl, -⟩ := List.cons.inj hcons
      cases hdigit
  case h_3 => rfl

/-- A numeral is read where it is in the range. -/
theorem stoll_of_numeral {s : Bytes} {n : ℤ} (h : Numeral s n) :
  stoll s = if -2 ^ 63 ≤ n ∧ n < 2 ^ 63 then some (Int64.ofInt n) else none
  := by
  cases h with
  | unsigned hne hdigits =>
      rw [stoll, sign_of_digits hne hdigits]
      simp only [List.takeWhile_eq_self_iff.mpr hdigits, Bool.false_eq_true, if_false, ne_eq, hne,
        not_false_eq_true, true_and]
  | plus hne hdigits =>
      rw [stoll, List.dropWhile_cons_of_neg (by decide)]
      simp only [sign, List.takeWhile_eq_self_iff.mpr hdigits, Bool.false_eq_true, if_false, ne_eq,
        hne, not_false_eq_true, true_and]
  | minus hne hdigits =>
      rw [stoll, List.dropWhile_cons_of_neg (by decide)]
      simp only [sign, List.takeWhile_eq_self_iff.mpr hdigits, if_true, ne_eq, hne,
        not_false_eq_true, true_and]

theorem stoll_eq_some {s : Bytes} {n : Int64} (h : Numeral s n.toInt) :
  stoll s = some n
  := by
  rw [stoll_of_numeral h, if_pos ⟨n.le_toInt, n.toInt_lt⟩, Int64.ofInt_toInt]

/-- What is read from a numeral is its value. -/
theorem Numeral.toInt_eq {s : Bytes} {n : ℤ} (h : Numeral s n) {m : Int64}
    (hm : stoll s = some m) :
  m.toInt = n
  := by
  rw [stoll_of_numeral h] at hm
  split at hm
  · next hrange =>
      obtain rfl := Option.some.inj hm
      apply Int64.toInt_ofInt_of_le hrange.1 hrange.2
  · cases hm

theorem Numeral.not_mem {s : Bytes} {n : ℤ} (h : Numeral s n) {c : UInt8} (hplus : c ≠ 43)
    (hminus : c ≠ 45) (hdigit : isDigit c = false) :
  c ∉ s
  := by
  have hnot : ∀ digits : Bytes, (∀ c ∈ digits, isDigit c = true) → c ∉ digits := by
    intro digits hdigits hmem
    rw [hdigits c hmem] at hdigit
    cases hdigit
  cases h with
  | unsigned hne hdigits => apply hnot _ hdigits
  | plus hne hdigits => apply List.not_mem_cons_of_ne_of_not_mem hplus (hnot _ hdigits)
  | minus hne hdigits => apply List.not_mem_cons_of_ne_of_not_mem hminus (hnot _ hdigits)

theorem numeral_put (n : Int64) :
  Numeral (put n) n.toInt
  := by
  have hdigits : ∀ c ∈ decimal n.toInt.natAbs, isDigit c = true :=
    fun _ => isDigit_of_mem_decimal
  rw [put]
  split
  · have hvalue : -(value (decimal n.toInt.natAbs) : ℤ) = n.toInt := by
      rw [value_decimal]
      omega
    have hminus := Numeral.minus (decimal_ne_nil n.toInt.natAbs) hdigits
    rwa [hvalue] at hminus
  · have hvalue : (value (decimal n.toInt.natAbs) : ℤ) = n.toInt := by
      rw [value_decimal]
      omega
    have hunsigned := Numeral.unsigned (decimal_ne_nil n.toInt.natAbs) hdigits
    rwa [hvalue] at hunsigned

/-- Reading gives back what was written. -/
theorem stoll_put (n : Int64) :
  stoll (put n) = some n
  := stoll_eq_some (numeral_put n)

/-! ### UTF-8 -/

/-- The bytes are the UTF-8 encoding of some characters. -/
def IsUTF8 (s : Bytes) : Prop := s.toByteArray.IsValidUTF8

instance (s : Bytes) : Decidable (IsUTF8 s) :=
  inferInstanceAs (Decidable s.toByteArray.IsValidUTF8)

theorem isUTF8_flatMap (cs : List Char) :
  IsUTF8 (cs.flatMap String.utf8EncodeChar)
  := ByteArray.isValidUTF8_utf8Encode

theorem IsUTF8.exists_chars {s : Bytes} (h : IsUTF8 s) :
  ∃ cs : List Char, s = cs.flatMap String.utf8EncodeChar
  := by
  obtain ⟨cs, hcs⟩ := h
  use cs
  simpa [List.utf8Encode] using congrArg (fun bytes => bytes.data.toList) hcs

theorem IsUTF8.append {s t : Bytes} (hs : IsUTF8 s) (ht : IsUTF8 t) :
  IsUTF8 (s ++ t)
  := by
  obtain ⟨cs, rfl⟩ := hs.exists_chars
  obtain ⟨ds, rfl⟩ := ht.exists_chars
  rw [← List.flatMap_append]
  apply isUTF8_flatMap

theorem isUTF8_of_forall_mem {α : Type u} {f : α → Bytes} {l : List α}
    (h : ∀ a ∈ l, IsUTF8 (f a)) :
  IsUTF8 (l.flatMap f)
  := by
  induction l with
  | nil => exact isUTF8_flatMap []
  | cons a l ih =>
      obtain ⟨ha, hl⟩ := List.forall_mem_cons.mp h
      rw [List.flatMap_cons]
      apply ha.append (ih hl)

/-- The bytes of a character are one byte below 128 or bytes from 128 on. -/
theorem utf8EncodeChar_cases (c : Char) :
  (∃ b : UInt8, b < 0x80 ∧ String.utf8EncodeChar c = [b])
    ∨ ∀ b ∈ String.utf8EncodeChar c, 0x80 ≤ b
  := by
  fun_cases String.utf8EncodeChar c
  case case1 v h =>
      left
      use UInt8.ofNat v
      constructor
      · rw [UInt8.lt_iff_toNat_lt, UInt8.toNat_ofNat']
        change v % 256 < 128
        omega
      · rfl
  all_goals
    right
    simp only [List.forall_mem_cons, List.not_mem_nil, UInt8.le_iff_toNat_le, UInt8.toNat_ofNat',
      UInt8.reduceToNat, false_implies, implies_true, and_true, Nat.reducePow]
    omega

theorem utf8EncodeChar_ofUInt8 {b : UInt8} (h : b < 0x80) :
  String.utf8EncodeChar (Char.ofUInt8 b) = [b]
  := by
  rw [UInt8.lt_iff_toNat_lt] at h
  have hlow : b.toNat ≤ 0x7f := Nat.le_of_lt_succ h
  have hval : (Char.ofUInt8 b).val.toNat = b.toNat := UInt8.toNat_toUInt32 b
  rw [String.utf8EncodeChar, hval, if_pos hlow, UInt8.ofNat_toNat]

/-- Bytes below 128 are characters. -/
theorem isUTF8_of_lt {s : Bytes} (h : ∀ b ∈ s, b < 0x80) :
  IsUTF8 s
  := by
  have hchars : ∀ b ∈ s, IsUTF8 [b] := by
    intro b hb
    have hchar := isUTF8_flatMap [Char.ofUInt8 b]
    rwa [List.flatMap_singleton, utf8EncodeChar_ofUInt8 (h b hb)] at hchar
  have htext := isUTF8_of_forall_mem hchars
  rwa [List.flatMap_singleton'] at htext

/-- What comes after a character of one byte. -/
theorem IsUTF8.of_cons {b : UInt8} {s : Bytes} (h : IsUTF8 (b :: s)) (hb : b < 0x80) :
  IsUTF8 s
  := by
  obtain ⟨cs, hcs⟩ := h.exists_chars
  cases cs with
  | nil => cases hcs
  | cons c cs =>
      rw [List.flatMap_cons] at hcs
      obtain ⟨b', _, heq⟩ | hbytes := utf8EncodeChar_cases c
      · rw [heq, List.singleton_append] at hcs
        rw [(List.cons.inj hcs).2]
        apply isUTF8_flatMap
      · exfalso
        cases hc : String.utf8EncodeChar c with
        | nil => apply String.utf8EncodeChar_ne_nil hc
        | cons b' bytes =>
            rw [hc, List.cons_append] at hcs
            rw [(List.cons.inj hcs).1] at hb
            have hle := hbytes b' (by rw [hc]; apply List.mem_cons_self)
            apply UInt8.not_le.mpr hb hle

theorem IsUTF8.intercalate {separator : Bytes} (hseparator : IsUTF8 separator) {l : List Bytes}
    (h : ∀ s ∈ l, IsUTF8 s) :
  IsUTF8 (separator.intercalate l)
  := by
  induction l with
  | nil => exact isUTF8_flatMap []
  | cons s l ih =>
      obtain ⟨hs, hl⟩ := List.forall_mem_cons.mp h
      cases l with
      | nil =>
          rw [List.intercalate_singleton]
          apply hs
      | cons t l =>
          rw [List.intercalate_cons_cons]
          apply (hs.append hseparator).append (ih hl)

/-- A text stays one when characters of one byte are replaced by such characters, and the others
are left as they are. -/
theorem IsUTF8.flatMap_bytes {f : UInt8 → Bytes} (hhigh : ∀ b, 0x80 ≤ b → f b = [b])
    (hlow : ∀ b, b < 0x80 → ∀ x ∈ f b, x < 0x80) {s : Bytes} (h : IsUTF8 s) :
  IsUTF8 (s.flatMap f)
  := by
  obtain ⟨cs, rfl⟩ := h.exists_chars
  rw [List.flatMap_assoc]
  apply isUTF8_of_forall_mem
  intro c _
  obtain ⟨b, hb, heq⟩ | hbytes := utf8EncodeChar_cases c
  · rw [heq, List.flatMap_singleton]
    apply isUTF8_of_lt (hlow b hb)
  · have hsame : (String.utf8EncodeChar c).flatMap f = String.utf8EncodeChar c := by
      rw [List.flatMap_congr fun b hb => hhigh b (hbytes b hb), List.flatMap_singleton']
    rw [hsame]
    have hchar := isUTF8_flatMap [c]
    rwa [List.flatMap_singleton] at hchar

theorem isUTF8_map {f : UInt8 → UInt8} (hhigh : ∀ b, 0x80 ≤ b → f b = b)
    (hlow : ∀ b, b < 0x80 → f b < 0x80) {s : Bytes} (h : IsUTF8 s) :
  IsUTF8 (s.map f)
  := by
  have hflat : IsUTF8 (s.flatMap fun b => [f b]) := by
    apply h.flatMap_bytes
    · intro b hb
      rw [hhigh b hb]
    · intro b hb x hx
      rw [List.mem_singleton.mp hx]
      apply hlow b hb
  rwa [← List.map_eq_flatMap] at hflat

/-- A text that is cut off is still a text exactly when the cut is between two characters, so
that what follows is the first byte of one. -/
theorem isUTF8_take_iff {s : Bytes} (h : IsUTF8 s) (n : ℕ) :
  IsUTF8 (s.take n) ↔ ∀ b, s[n]? = some b → b.IsUTF8FirstByte
  := by
  obtain hlt | hle := Nat.lt_or_ge n s.length
  · let string : String := .ofByteArray s.toByteArray h
    let position : String.Pos.Raw := ⟨n⟩
    have hend : position < string.rawEndPos := by
      have hsize : string.utf8ByteSize = s.length :=
        String.utf8ByteSize_ofByteArray.trans List.size_toByteArray
      rw [String.Pos.Raw.lt_iff, String.byteIdx_rawEndPos, hsize]
      apply hlt
    have htake : string.toByteArray.extract 0 n = (s.take n).toByteArray := by
      apply ByteArray.ext
      simp [string, List.extract_toArray]
    have hcut : position.IsValid string ↔ IsUTF8 (s.take n) := by
      rw [String.Pos.Raw.isValid_iff_isValidUTF8_extract_zero, htake]
      apply and_iff_right
      apply String.Pos.Raw.le_of_lt hend
    rw [← hcut, String.Pos.Raw.isValid_iff_isUTF8FirstByte, List.getElem?_eq_getElem hlt]
    have hbyte : string.getUTF8Byte position hend = s[n] := by
      simp [string, position, String.getUTF8Byte]
    constructor
    · rintro (heq | ⟨_, hfirst⟩) b hb
      · rw [heq, String.Pos.Raw.lt_iff] at hend
        exact absurd hend (Nat.lt_irrefl _)
      · rw [← Option.some.inj hb, ← hbyte]
        apply hfirst
    · intro hfirst
      right
      use hend
      rw [hbyte]
      apply hfirst _ rfl
  · rw [List.take_of_length_le hle, List.getElem?_eq_none hle]
    apply iff_of_true h fun b hb => nomatch hb

end Text

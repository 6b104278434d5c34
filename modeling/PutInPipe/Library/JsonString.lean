import PutInPipe.Library.Json

/-!
# What strings of JSON stand for

The literal of a string is taken apart by `parts` into bytes that stand for themselves, or for
which a letter is written, and units of UTF-16 that are given by their numbers. `decodeParts`
makes the text of them, in UTF-8: two units that are a pair of surrogates are one character, and
a surrogate without another one stands for nothing.

A reader that writes each unit for itself reads what is meant exactly where there is no
surrogate (`decodeParts_eq_flatMap_iff`).
-/

open Text (Bytes isDigit)

namespace Json

inductive Part where
  | byte (b : UInt8)
  | unit (u : UInt16)
deriving DecidableEq, Repr

/-- The letters that may follow a backslash, and what they stand for. -/
def letters : List (UInt8 × UInt8) :=
  [(34, 34), (92, 92), (47, 47), (98, 8), (102, 12), (110, 10), (114, 13), (116, 9)]

def hexValue (c : UInt8) : ℕ :=
  if isDigit c then c.toNat - 48 else if 97 ≤ c then c.toNat - 87 else c.toNat - 55

/-- The unit with these four digits. -/
def hexUnit (a b c d : UInt8) : UInt16 :=
  .ofNat (((hexValue a * 16 + hexValue b) * 16 + hexValue c) * 16 + hexValue d)

def parts : Bytes → Option (List Part)
  | [] => some []
  | c :: s =>
      if c = 92 then
        match s with
        | [] => none
        | e :: s =>
            if e = 117 then
              match s with
              | h1 :: h2 :: h3 :: h4 :: s => (parts s).map (.unit (hexUnit h1 h2 h3 h4) :: ·)
              | _ => none
            else (letters.lookup e).bind fun b => (parts s).map (.byte b :: ·)
      else (parts s).map (.byte c :: ·)

/-! ### Surrogates -/

def isHigh (u : UInt16) : Bool := 0xD800 ≤ u && u < 0xDC00

def isLow (u : UInt16) : Bool := 0xDC00 ≤ u && u < 0xE000

/-- The number of the character that a pair of surrogates is. -/
def pair (u v : UInt16) : ℕ := 0x10000 + (u.toNat - 0xD800) * 0x400 + (v.toNat - 0xDC00)

/-- A character in UTF-8, given by its number. -/
def utf8 (n : ℕ) : Bytes := String.utf8EncodeChar (Char.ofNat n)

def decodeParts : List Part → Option Bytes
  | [] => some []
  | .byte b :: ps => (decodeParts ps).map (b :: ·)
  | .unit u :: ps =>
      if isHigh u then
        match ps with
        | .unit v :: ps => if isLow v then (decodeParts ps).map (utf8 (pair u v) ++ ·) else none
        | _ => none
      else if isLow u then none
      else (decodeParts ps).map (utf8 u.toNat ++ ·)

/-- The text that a literal stands for. -/
def decode (literal : Bytes) : Option Bytes := (parts literal).bind decodeParts

def Part.isSurrogate : Part → Bool
  | .byte _ => false
  | .unit u => isHigh u || isLow u

/-- A surrogate is escaped in the literal. -/
def hasSurrogate (literal : Bytes) : Bool :=
  (parts literal).any fun ps => ps.any Part.isSurrogate

/-- U+1F600, and a surrogate on its own. -/
example :
  decode [92, 117, 100, 56, 51, 100, 92, 117, 100, 101, 48, 48] = some [0xF0, 0x9F, 0x98, 0x80]
    ∧ decode [92, 117, 100, 56, 51, 100] = none
  := by decide

/-! ### UTF-8 -/

theorem toNat_ofNat {n : ℕ} (h : n.isValidChar) :
  (Char.ofNat n).val.toNat = n
  := by
  rw [Char.ofNat, dif_pos h]
  rfl

/-- The characters from `0x10000` on have four bytes, of which the first is `0xF0` or more. -/
theorem head?_utf8_pair {u v : UInt16} (hu : isHigh u = true) (hv : isLow v = true) :
  ∃ b, (utf8 (pair u v)).head? = some b ∧ 0xF0 ≤ b
  := by
  simp only [isHigh, isLow, Bool.and_eq_true, decide_eq_true_eq, UInt16.le_iff_toNat_le,
    UInt16.lt_iff_toNat_lt, UInt16.reduceToNat] at hu hv
  have hbounds : 0x10000 ≤ pair u v ∧ pair u v < 0x110000 := by
    unfold pair
    omega
  have hval : (Char.ofNat (pair u v)).val.toNat = pair u v :=
    toNat_ofNat (Or.inr ⟨by omega, hbounds.2⟩)
  rw [utf8, String.utf8EncodeChar, hval, if_neg (by omega), if_neg (by omega),
    if_neg (by omega)]
  refine ⟨_, List.head?_cons, ?_⟩
  rw [UInt8.le_iff_toNat_le, UInt8.toNat_ofNat']
  change 240 ≤ _
  omega

/-! ### Readers that write each unit for itself -/

section

variable {f : UInt16 → Bytes}

/-- What a reader writes for a part. -/
def Part.bytes (f : UInt16 → Bytes) : Part → Bytes
  | .byte b => [b]
  | .unit u => f u

/-- A reader that is right about characters and begins the others with a smaller byte than
those of a pair reads what is meant exactly where there is no surrogate. -/
theorem decodeParts_eq_flatMap_iff
    (hf : ∀ u, isHigh u = false → isLow u = false → f u = utf8 u.toNat)
    (hhigh : ∀ u, isHigh u = true → ∃ b, (f u).head? = some b ∧ b < 0xF0) (ps : List Part) :
  decodeParts ps = some (ps.flatMap (Part.bytes f)) ↔ ps.any Part.isSurrogate = false
  := by
  fun_induction decodeParts ps with
  | case1 => simp
  | case2 b ps ih => simpa [Part.bytes, Part.isSurrogate] using ih
  | case3 u hu v ps hv ih =>
      apply iff_of_false
      · intro h
        obtain ⟨t, _, heq⟩ := Option.map_eq_some_iff.mp h
        obtain ⟨b, hb, hle⟩ := head?_utf8_pair hu hv
        obtain ⟨b', hb', hlt⟩ := hhigh u hu
        have hhead := congrArg List.head? heq
        rw [List.flatMap_cons, Part.bytes, List.head?_append, List.head?_append, hb, hb',
          Option.some_or, Option.some_or, Option.some.injEq] at hhead
        rw [hhead] at hle
        exact absurd hle (UInt8.not_le.mpr hlt)
      · simp [Part.isSurrogate, hu]
  | case4 u hu v ps hv => simp [Part.isSurrogate, hu]
  | case5 u ps hu hnot => simp [Part.isSurrogate, hu]
  | case6 u ps hu hlow => simp [Part.isSurrogate, hlow]
  | case7 u ps hu hlow ih =>
      rw [Bool.not_eq_true] at hu hlow
      rw [List.flatMap_cons, Part.bytes, hf u hu hlow, List.any_cons, Part.isSurrogate, hu, hlow,
        Bool.or_false, Bool.false_or, ← ih]
      simp

end

/-! ### Literals that can be taken apart -/

theorem hexValue_lt {c : UInt8} (h : isHexDigit c = true) :
  hexValue c < 16
  := by
  simp only [isHexDigit, isDigit, Bool.or_eq_true, Bool.and_eq_true, decide_eq_true_eq,
    UInt8.le_iff_toNat_le, UInt8.reduceToNat] at h
  simp only [hexValue, isDigit, Bool.and_eq_true, decide_eq_true_eq, UInt8.le_iff_toNat_le,
    UInt8.reduceToNat]
  split
  · omega
  · split
    · omega
    · omega

theorem toNat_hexUnit {a b c d : UInt8} (ha : isHexDigit a = true) (hb : isHexDigit b = true)
    (hc : isHexDigit c = true) (hd : isHexDigit d = true) :
  (hexUnit a b c d).toNat
    = ((hexValue a * 16 + hexValue b) * 16 + hexValue c) * 16 + hexValue d
  := by
  have hlta := hexValue_lt ha
  have hltb := hexValue_lt hb
  have hltc := hexValue_lt hc
  have hltd := hexValue_lt hd
  rw [hexUnit, UInt16.toNat_ofNat']
  omega

/-- The literal has these parts. -/
inductive Spells : Bytes → List Part → Prop
  | nil : Spells [] []
  | plain {c : UInt8} {s : Bytes} {ps : List Part} (hc : c ≠ 92) (h : Spells s ps) :
      Spells (c :: s) (.byte c :: ps)
  | letter {e b : UInt8} {s : Bytes} {ps : List Part} (he : (e, b) ∈ letters)
      (h : Spells s ps) : Spells (92 :: e :: s) (.byte b :: ps)
  | unit {a b c d : UInt8} {s : Bytes} {ps : List Part} (ha : isHexDigit a = true)
      (hb : isHexDigit b = true) (hc : isHexDigit c = true) (hd : isHexDigit d = true)
      (h : Spells s ps) :
      Spells (92 :: 117 :: a :: b :: c :: d :: s) (.unit (hexUnit a b c d) :: ps)

theorem Spells.parts_eq {s : Bytes} {ps : List Part} (h : Spells s ps) :
  parts s = some ps
  := by
  induction h with
  | nil => rfl
  | plain hc h ih =>
      rw [parts.eq_def]
      simp only
      rw [if_neg hc, ih, Option.map_some]
  | @letter e b s ps he h ih =>
      have hletter : e ≠ 117 ∧ letters.lookup e = some b := by
        have hall : letters.all (fun l => l.1 != 117 && letters.lookup l.1 == some l.2) = true := by
          decide
        have hthis := List.all_eq_true.mp hall _ he
        rwa [Bool.and_eq_true, bne_iff_ne, beq_iff_eq] at hthis
      rw [parts.eq_def]
      simp only [if_true]
      rw [if_neg hletter.1, hletter.2, Option.bind_some, ih, Option.map_some]
  | unit ha hb hc hd h ih =>
      rw [parts.eq_def]
      simp only [if_true]
      rw [ih, Option.map_some]

/-- A literal ends at the closing quote, or goes on with a character that may stand there. -/
theorem stringFrom_cases {place : Place} {s literal r : Bytes}
    (h : stringFrom place s = some (literal, r)) :
  place = .plain ∧ literal = []
    ∨ ∃ c t rest next, s = c :: t ∧ literal = c :: rest ∧ place.next c = some next
      ∧ stringFrom next t = some (rest, r)
  := by
  cases s with
  | nil => cases h
  | cons c t =>
      rw [stringFrom] at h
      split at h
      case isTrue hquote =>
        cases h
        exact .inl ⟨hquote.1, rfl⟩
      case isFalse =>
        split at h
        case h_1 => cases h
        case h_2 next hnext =>
          obtain ⟨⟨rest, r'⟩, ht, heq⟩ := Option.map_eq_some_iff.mp h
          cases heq
          exact .inr ⟨c, t, rest, next, rfl, rfl, hnext, ht⟩

theorem stringFrom_hex {k : ℕ} {s literal r : Bytes}
    (h : stringFrom (.hex k) s = some (literal, r)) :
  ∃ c t rest, s = c :: t ∧ isHexDigit c = true ∧ literal = c :: rest
    ∧ stringFrom (if k = 0 then .plain else .hex (k - 1)) t = some (rest, r)
  := by
  obtain ⟨⟨⟩, -⟩ | ⟨c, t, rest, next, rfl, rfl, hnext, ht⟩ := stringFrom_cases h
  rw [Place.next] at hnext
  split at hnext
  case isTrue hc =>
    cases hnext
    exact ⟨c, t, rest, rfl, hc, rfl, ht⟩
  case isFalse => cases hnext

theorem exists_letter {e : UInt8} (he : escapes.contains e = true) :
  ∃ b, (e, b) ∈ letters
  := by
  have hall : escapes.all (fun e => (letters.map Prod.fst).contains e) = true := by decide
  have hmem := List.all_eq_true.mp hall e (List.contains_iff_mem.mp he)
  obtain ⟨⟨_, b⟩, hl, rfl⟩ := List.mem_map.mp (List.contains_iff_mem.mp hmem)
  exact ⟨b, hl⟩

/-- An escape has been read, and the literal goes on behind it. -/
theorem stringFrom_escaped {s literal r : Bytes}
    (h : stringFrom .escaped s = some (literal, r)) :
  ∃ t rest, t.length < s.length ∧ stringFrom .plain t = some (rest, r)
    ∧ ∀ ps, Spells rest ps → ∃ ps', Spells (92 :: literal) ps'
  := by
  obtain ⟨⟨⟩, -⟩ | ⟨e, t, rest, next, rfl, rfl, hnext, ht⟩ := stringFrom_cases h
  rw [Place.next] at hnext
  split at hnext
  case isTrue hu =>
    cases hnext
    subst hu
    obtain ⟨h1, s1, l1, rfl, hh1, rfl, hs1⟩ := stringFrom_hex ht
    obtain ⟨h2, s2, l2, rfl, hh2, rfl, hs2⟩ := stringFrom_hex hs1
    obtain ⟨h3, s3, l3, rfl, hh3, rfl, hs3⟩ := stringFrom_hex hs2
    obtain ⟨h4, s4, l4, rfl, hh4, rfl, hs4⟩ := stringFrom_hex hs3
    refine ⟨s4, l4, ?_, hs4, fun ps hps => ⟨_, .unit hh1 hh2 hh3 hh4 hps⟩⟩
    simp only [List.length_cons]
    omega
  case isFalse =>
    split at hnext
    case isTrue he =>
      cases hnext
      obtain ⟨b, hb⟩ := exists_letter he
      exact ⟨t, rest, by simp, ht, fun ps hps => ⟨_, .letter hb hps⟩⟩
    case isFalse => cases hnext

/-- A literal that has been read has parts. -/
theorem exists_spells {s literal r : Bytes} (h : stringFrom .plain s = some (literal, r)) :
  ∃ ps, Spells literal ps
  := by
  induction hlength : s.length using Nat.strongRecOn generalizing s literal with
  | ind n ih =>
      obtain ⟨-, rfl⟩ | ⟨c, t, rest, next, rfl, rfl, hnext, ht⟩ := stringFrom_cases h
      · exact ⟨[], .nil⟩
      rw [List.length_cons] at hlength
      rw [Place.next] at hnext
      split at hnext
      case isTrue hbackslash =>
        cases hnext
        subst hbackslash
        obtain ⟨t', rest', hlt, hplain, hescape⟩ := stringFrom_escaped ht
        obtain ⟨ps, hps⟩ := ih _ (by omega) hplain rfl
        exact hescape ps hps
      case isFalse hbackslash =>
        split at hnext
        case isTrue => cases hnext
        case isFalse =>
          cases hnext
          obtain ⟨ps, hps⟩ := ih _ (by omega) ht rfl
          exact ⟨_, .plain hbackslash hps⟩

/-! ### The strings in a value -/

mutual

/-- The literals of the strings and of the names in a value. -/
def strings : Json → List Bytes
  | .string literal => [literal]
  | .array elements => elementStrings elements
  | .object members => memberStrings members
  | _ => []

def elementStrings : List Json → List Bytes
  | [] => []
  | v :: elements => strings v ++ elementStrings elements

def memberStrings : List (Bytes × Json) → List Bytes
  | [] => []
  | (name, v) :: members => name :: strings v ++ memberStrings members

end

theorem strings_array (elements : List Json) :
  strings (.array elements) = elements.flatMap strings
  := by
  rw [strings]
  induction elements with
  | nil => rfl
  | cons v elements ih => rw [elementStrings, ih, List.flatMap_cons]

theorem strings_object (members : List (Bytes × Json)) :
  strings (.object members) = members.flatMap fun m => m.1 :: strings m.2
  := by
  rw [strings]
  induction members with
  | nil => rfl
  | cons m members ih => rw [memberStrings, ih, List.flatMap_cons]

/-- All literals of strings in the value have parts. -/
inductive Spelled : Json → Prop
  | null : Spelled .null
  | boolean (value : Bool) : Spelled (.boolean value)
  | number (literal : Bytes) : Spelled (.number literal)
  | string {literal : Bytes} {ps : List Part} (h : Spells literal ps) : Spelled (.string literal)
  | array {elements : List Json} (h : ∀ v ∈ elements, Spelled v) : Spelled (.array elements)
  | object {members : List (Bytes × Json)} (hname : ∀ m ∈ members, ∃ ps, Spells m.1 ps)
      (hvalue : ∀ m ∈ members, Spelled m.2) : Spelled (.object members)

section

variable {α : Type} {close : UInt8} {item : Bytes → Option (α × Bytes)} {P : α → Prop}

/-- What holds of every item that is read holds of those of a list. -/
theorem forall_mem_sepBy (hitem : ∀ {s a r}, item s = some (a, r) → P a) {n : ℕ} {s r : Bytes}
    {l : List α} (h : sepBy close item n s = some (l, r)) :
  ∀ a ∈ l, P a
  := by
  induction n generalizing s l with
  | zero => cases h
  | succ n ih =>
      rw [sepBy] at h
      split at h
      case h_1 => cases h
      case h_2 a t ha =>
        split at h
        case h_1 => cases h
        case h_2 =>
          split at h
          case isTrue =>
            obtain ⟨⟨l', r'⟩, hrest, heq⟩ := Option.map_eq_some_iff.mp h
            cases heq
            apply List.forall_mem_cons.mpr ⟨hitem ha, ih hrest⟩
          case isFalse =>
            split at h
            case isFalse => cases h
            case isTrue =>
              cases h
              apply List.forall_mem_singleton.mpr (hitem ha)

theorem forall_mem_listOf (hitem : ∀ {s a r}, item s = some (a, r) → P a) {s r : Bytes}
    {l : List α} (h : listOf close item s = some (l, r)) :
  ∀ a ∈ l, P a
  := by
  rw [listOf] at h
  split at h
  case h_1 => cases h
  case h_2 =>
    split at h
    case isTrue =>
      cases h
      apply List.forall_mem_nil
    case isFalse => apply forall_mem_sepBy hitem h

end

theorem spelled_member {read : Bytes → Option (Json × Bytes)}
    (hread : ∀ {s v r}, read s = some (v, r) → Spelled v) {s r : Bytes} {m : Bytes × Json}
    (h : member read s = some (m, r)) :
  (∃ ps, Spells m.1 ps) ∧ Spelled m.2
  := by
  rw [member] at h
  split at h
  case h_1 => cases h
  case h_2 =>
    split at h
    case isFalse => cases h
    case isTrue =>
      split at h
      case h_1 => cases h
      case h_2 name t hname =>
        split at h
        case h_1 => cases h
        case h_2 =>
          split at h
          case isFalse => cases h
          case isTrue =>
            obtain ⟨⟨v, r'⟩, hv, heq⟩ := Option.map_eq_some_iff.mp h
            cases heq
            exact ⟨exists_spells hname, hread hv⟩

theorem spelled_readScalar {s r : Bytes} {v : Json} (h : readScalar s = some (v, r)) :
  Spelled v
  := by
  rw [readScalar] at h
  split at h
  case isTrue => cases h; apply Spelled.null
  split at h
  case isTrue => cases h; apply Spelled.boolean
  split at h
  case isTrue => cases h; apply Spelled.boolean
  rw [readNumber] at h
  split at h
  case isTrue => cases h; apply Spelled.number
  case isFalse => cases h

/-- The literals in a value that has been read have parts. -/
theorem spelled_value {depth : ℕ} {s r : Bytes} {v : Json} (h : value depth s = some (v, r)) :
  Spelled v
  := by
  induction depth generalizing s v r with
  | zero => cases h
  | succ depth ih =>
      rw [value] at h
      split at h
      case h_1 => cases h
      case h_2 =>
        split at h
        case isTrue =>
          obtain ⟨⟨members, r'⟩, hlist, heq⟩ := Option.map_eq_some_iff.mp h
          cases heq
          have hmembers := forall_mem_listOf (spelled_member ih) hlist
          exact .object (fun m hm => (hmembers m hm).1) (fun m hm => (hmembers m hm).2)
        split at h
        case isTrue =>
          obtain ⟨⟨elements, r'⟩, hlist, heq⟩ := Option.map_eq_some_iff.mp h
          cases heq
          exact .array (forall_mem_listOf ih hlist)
        split at h
        case isTrue =>
          obtain ⟨⟨literal, r'⟩, hliteral, heq⟩ := Option.map_eq_some_iff.mp h
          cases heq
          obtain ⟨ps, hps⟩ := exists_spells hliteral
          exact .string hps
        case isFalse => apply spelled_readScalar h

end Json

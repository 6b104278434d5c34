import PutInPipe.Library.Text

/-!
# JSON

`Json.parse` reads a text, the whole of it, by the grammar of JSON. Numbers and strings are kept
as they are written, so that what is said of a value holds whatever the literals in it mean. A
text is a list of bytes, and bytes from 128 on are parts of characters that may stand in
strings.

The elements of an array and the members of an object are read by the one function `listOf`. The
number that `value` is called with bounds how deeply values are nested. Any number above the
length of the text will do (`value_congr`).
-/

open Text (Bytes isDigit)

/-- A value, with its literals. -/
inductive Json where
  | null
  | boolean (value : Bool)
  | number (literal : Bytes)
  | string (literal : Bytes)
  | array (elements : List Json)
  | object (members : List (Bytes × Json))

namespace Json

/-! ### Literals -/

def isSpace (c : UInt8) : Bool := c == 32 || c == 9 || c == 10 || c == 13

def skipSpace (s : Bytes) : Bytes := s.dropWhile isSpace

def isHexDigit (c : UInt8) : Bool := isDigit c || 65 ≤ c && c ≤ 70 || 97 ≤ c && c ≤ 102

/-- The characters that may follow a backslash, without `u`. -/
def escapes : Bytes := [34, 92, 47, 98, 102, 110, 114, 116]

/-- Where in a string the next character stands: after a backslash, or before that many digits
and one more. -/
inductive Place where
  | plain
  | escaped
  | hex (k : ℕ)
deriving DecidableEq

def Place.next (c : UInt8) : Place → Option Place
  | .plain => if c = 92 then some .escaped else if c < 32 then none else some .plain
  | .escaped =>
      if c = 117 then some (.hex 3) else if escapes.contains c then some .plain else none
  | .hex k => if isHexDigit c then some (if k = 0 then .plain else .hex (k - 1)) else none

/-- What is before the closing quote, and what is after it. -/
def stringFrom : Place → Bytes → Option (Bytes × Bytes)
  | _, [] => none
  | place, c :: s =>
      if place = .plain ∧ c = 34 then some ([], s)
      else
        match place.next c with
        | none => none
        | some place => (stringFrom place s).map (Prod.map (c :: ·) id)

/-- An exponent, or nothing. -/
def isExponent (s : Bytes) : Bool :=
  match s with
  | [] => true
  | c :: s =>
      let digits := if s.head? = some 43 ∨ s.head? = some 45 then s.drop 1 else s
      (c == 69 || c == 101) && !digits.isEmpty && digits.all isDigit

/-- A fraction, or nothing, and then an exponent. -/
def isFraction (s : Bytes) : Bool :=
  if s.head? = some 46 then
    !((s.drop 1).takeWhile isDigit).isEmpty && isExponent ((s.drop 1).dropWhile isDigit)
  else isExponent s

def isNumber (s : Bytes) : Bool :=
  let s := if s.head? = some 45 then s.drop 1 else s
  let integer := s.takeWhile isDigit
  !integer.isEmpty && (integer.length == 1 || integer.head? != some 48)
    && isFraction (s.dropWhile isDigit)

/-- A character of a number. None of them can follow a number. -/
def isNumberChar (c : UInt8) : Bool :=
  isDigit c || c == 43 || c == 45 || c == 46 || c == 69 || c == 101

def readNumber (s : Bytes) : Option (Json × Bytes) :=
  if isNumber (s.takeWhile isNumberChar) then
    some (.number (s.takeWhile isNumberChar), s.dropWhile isNumberChar)
  else none

/-- The three words. -/
def nullWord : Bytes := [110, 117, 108, 108]

def trueWord : Bytes := [116, 114, 117, 101]

def falseWord : Bytes := [102, 97, 108, 115, 101]

def readScalar (s : Bytes) : Option (Json × Bytes) :=
  if nullWord.isPrefixOf s then some (.null, s.drop 4)
  else if trueWord.isPrefixOf s then some (.boolean true, s.drop 4)
  else if falseWord.isPrefixOf s then some (.boolean false, s.drop 5)
  else readNumber s

/-! ### Lists -/

section

variable {α : Type} (close : UInt8) (item : Bytes → Option (α × Bytes))

/-- Items with commas between them, up to the closing bracket. -/
def sepBy : ℕ → Bytes → Option (List α × Bytes)
  | 0, _ => none
  | n + 1, s =>
      match item s with
      | none => none
      | some (a, s) =>
          match skipSpace s with
          | [] => none
          | c :: s =>
              if c = 44 then (sepBy n s).map (Prod.map (a :: ·) id)
              else if c = close then some ([a], s)
              else none

def listOf (s : Bytes) : Option (List α × Bytes) :=
  match skipSpace s with
  | [] => none
  | c :: s' => if c = close then some ([], s') else sepBy close item (s.length + 1) s

end

/-- A name, a colon and a value. -/
def member (value : Bytes → Option (Json × Bytes)) (s : Bytes) : Option ((Bytes × Json) × Bytes) :=
  match skipSpace s with
  | [] => none
  | c :: s =>
      if c = 34 then
        match stringFrom .plain s with
        | none => none
        | some (name, s) =>
            match skipSpace s with
            | [] => none
            | c :: s => if c = 58 then (value s).map (Prod.map (name, ·) id) else none
      else none

/-! ### Values -/

def value : ℕ → Bytes → Option (Json × Bytes)
  | 0, _ => none
  | depth + 1, s =>
      match skipSpace s with
      | [] => none
      | c :: s =>
          if c = 123 then (listOf 125 (member (value depth)) s).map (Prod.map .object id)
          else if c = 91 then (listOf 93 (value depth) s).map (Prod.map .array id)
          else if c = 34 then (stringFrom .plain s).map (Prod.map .string id)
          else readScalar (c :: s)

def parse (s : Bytes) : Option Json :=
  (value (s.length + 1) s).bind fun r => if (skipSpace r.2).isEmpty then some r.1 else none

/-! ### Lengths -/

theorem length_skipSpace_le (s : Bytes) :
  (skipSpace s).length ≤ s.length
  := List.length_dropWhile_le _ _

/-- A reader leaves a text that is shorter than what it was given. -/
def Shrinks {α : Type} (item : Bytes → Option (α × Bytes)) : Prop :=
  ∀ s a r, item s = some (a, r) → r.length < s.length

theorem length_stringFrom {place : Place} {s literal r : Bytes}
    (h : stringFrom place s = some (literal, r)) :
  r.length < s.length
  := by
  induction s generalizing place literal with
  | nil => cases h
  | cons c s ih =>
      rw [stringFrom] at h
      split at h
      · cases h
        apply Nat.lt_succ_self
      · split at h
        · cases h
        · obtain ⟨⟨literal', r'⟩, hs, heq⟩ := Option.map_eq_some_iff.mp h
          cases heq
          apply Nat.lt_succ_of_lt (ih hs)

theorem shrinks_readNumber :
  Shrinks readNumber
  := by
  intro s v r h
  rw [readNumber] at h
  split at h
  · next hnumber =>
      cases h
      have hlength : (s.takeWhile isNumberChar).length ≠ 0 := by
        intro hzero
        rw [List.eq_nil_of_length_eq_zero hzero] at hnumber
        cases hnumber
      have hsum := congrArg List.length (List.takeWhile_append_dropWhile (p := isNumberChar) (l := s))
      rw [List.length_append] at hsum
      omega
  · cases h

theorem shrinks_readScalar :
  Shrinks readScalar
  := by
  intro s v r h
  have hword : ∀ {word : Bytes}, word.isPrefixOf s = true → word ≠ [] →
      (s.drop word.length).length < s.length := by
    intro word hprefix hne
    obtain ⟨t, rfl⟩ := List.isPrefixOf_iff_prefix.mp hprefix
    have hpos := List.length_pos_iff.mpr hne
    rw [List.length_drop, List.length_append]
    omega
  rw [readScalar] at h
  split at h
  · next hprefix =>
      cases h
      apply hword hprefix
      nofun
  split at h
  · next hprefix =>
      cases h
      apply hword hprefix
      nofun
  split at h
  · next hprefix =>
      cases h
      apply hword hprefix
      nofun
  · apply shrinks_readNumber s v r h

section

variable {α : Type} {close : UInt8} {item item' : Bytes → Option (α × Bytes)}

theorem shrinks_sepBy (hitem : Shrinks item) (n : ℕ) :
  Shrinks (sepBy close item n)
  := by
  intro s l r h
  induction n generalizing s l with
  | zero => cases h
  | succ n ih =>
      rw [sepBy] at h
      split at h
      · cases h
      · next a t hs =>
          have hshort := hitem s a t hs
          have hskip := length_skipSpace_le t
          split at h
          · cases h
          · next c u hu =>
              rw [hu, List.length_cons] at hskip
              split at h
              · obtain ⟨⟨l', r'⟩, hrest, heq⟩ := Option.map_eq_some_iff.mp h
                cases heq
                have hlast := ih u l' hrest
                omega
              split at h
              · cases h
                omega
              · cases h

theorem shrinks_listOf (hitem : Shrinks item) :
  Shrinks (listOf close item)
  := by
  intro s l r h
  have hskip := length_skipSpace_le s
  rw [listOf] at h
  split at h
  · cases h
  · next c t ht =>
      rw [ht, List.length_cons] at hskip
      split at h
      · cases h
        omega
      · apply shrinks_sepBy hitem _ s l r h

end

theorem shrinks_map {α β : Type} {item : Bytes → Option (α × Bytes)} (hitem : Shrinks item)
    {f : α → β} {s : Bytes} {b : β} {r : Bytes}
    (h : (item s).map (Prod.map f id) = some (b, r)) :
  r.length < s.length
  := by
  obtain ⟨⟨a, r'⟩, ha, heq⟩ := Option.map_eq_some_iff.mp h
  cases heq
  apply hitem s a _ ha

theorem shrinks_member {value : Bytes → Option (Json × Bytes)} (hvalue : Shrinks value) :
  Shrinks (member value)
  := by
  intro s m r h
  have hskip := length_skipSpace_le s
  rw [member] at h
  split at h
  · cases h
  · next c t ht =>
      rw [ht, List.length_cons] at hskip
      split at h
      · split at h
        · cases h
        · next name u hname =>
            have hshort := length_stringFrom hname
            have hskip' := length_skipSpace_le u
            split at h
            · cases h
            · next c' u' hu =>
                rw [hu, List.length_cons] at hskip'
                split at h
                · have hlast := shrinks_map hvalue h
                  omega
                · cases h
      · cases h

theorem shrinks_value (depth : ℕ) :
  Shrinks (value depth)
  := by
  induction depth with
  | zero => exact fun _ _ _ h => nomatch h
  | succ depth ih =>
      intro s v r h
      have hskip := length_skipSpace_le s
      rw [value] at h
      split at h
      · cases h
      · next c t ht =>
          rw [ht, List.length_cons] at hskip
          split at h
          · have hlist := shrinks_map (shrinks_listOf (shrinks_member ih)) h
            omega
          split at h
          · have hlist := shrinks_map (shrinks_listOf ih) h
            omega
          split at h
          · have hstring := shrinks_map (fun _ _ _ => length_stringFrom) h
            omega
          · have hscalar := shrinks_readScalar _ _ _ h
            rw [List.length_cons] at hscalar
            omega

/-! ### Enough depth -/

section

variable {α : Type} {close : UInt8} {item item' : Bytes → Option (α × Bytes)} {s : Bytes}

/-- Two readers that agree on short texts read the same lists, in as many turns as there are
characters. -/
theorem sepBy_congr (hitem : Shrinks item)
    (hagree : ∀ t : Bytes, t.length ≤ s.length → item t = item' t) {n m : ℕ}
    (hn : s.length < n) (hm : s.length < m) :
  sepBy close item n s = sepBy close item' m s
  := by
  induction n generalizing s m with
  | zero => cases hn
  | succ n ih =>
      obtain ⟨m, rfl⟩ := Nat.exists_eq_add_one_of_ne_zero (Nat.ne_zero_of_lt hm)
      rw [sepBy, sepBy, ← hagree s (Nat.le_refl _)]
      cases hs : item s with
      | none => rfl
      | some r =>
          obtain ⟨a, t⟩ := r
          have hshort := hitem s a t hs
          have hskip := length_skipSpace_le t
          simp only
          cases ht : skipSpace t with
          | nil => rfl
          | cons c u =>
              rw [ht, List.length_cons] at hskip
              have hagree' : ∀ t' : Bytes, t'.length ≤ u.length → item t' = item' t' := by
                intro t' ht'
                apply hagree
                omega
              have hrest : sepBy close item n u = sepBy close item' m u := by
                apply ih hagree'
                · omega
                · omega
              simp only
              rw [hrest]

theorem listOf_congr (hitem : Shrinks item)
    (hagree : ∀ t : Bytes, t.length ≤ s.length → item t = item' t) :
  listOf close item s = listOf close item' s
  := by
  rw [listOf, listOf, sepBy_congr hitem hagree (Nat.lt_succ_self _) (Nat.lt_succ_self _)]

end

theorem member_congr {value value' : Bytes → Option (Json × Bytes)} {s : Bytes}
    (hagree : ∀ t : Bytes, t.length < s.length → value t = value' t) :
  member value s = member value' s
  := by
  have hskip := length_skipSpace_le s
  rw [member, member]
  cases hs : skipSpace s with
  | nil => rfl
  | cons c t =>
      rw [hs, List.length_cons] at hskip
      simp only
      cases ht : stringFrom .plain t with
      | none => rfl
      | some r =>
          obtain ⟨name, u⟩ := r
          have hshort := length_stringFrom ht
          have hskip' := length_skipSpace_le u
          simp only
          cases hu : skipSpace u with
          | nil => rfl
          | cons c' u' =>
              rw [hu, List.length_cons] at hskip'
              simp only
              rw [hagree u' (by omega)]

/-- A depth above the length of the text makes no difference. -/
theorem value_congr {s : Bytes} {depth depth' : ℕ} (h : s.length < depth)
    (h' : s.length < depth') :
  value depth s = value depth' s
  := by
  induction depth generalizing s depth' with
  | zero => cases h
  | succ depth ih =>
      obtain ⟨depth', rfl⟩ := Nat.exists_eq_add_one_of_ne_zero (Nat.ne_zero_of_lt h')
      have hskip := length_skipSpace_le s
      rw [value, value]
      cases hs : skipSpace s with
      | nil => rfl
      | cons c t =>
          rw [hs, List.length_cons] at hskip
          have hagree : ∀ u : Bytes, u.length ≤ t.length → value depth u = value depth' u := by
            intro u hu
            apply ih
            · omega
            · omega
          have hmember : ∀ u : Bytes, u.length ≤ t.length →
              member (value depth) u = member (value depth') u := by
            intro u hu
            apply member_congr
            intro u' hu'
            apply hagree
            omega
          simp only
          rw [listOf_congr (shrinks_member (shrinks_value depth)) hmember,
            listOf_congr (shrinks_value depth) hagree]

/-! ### Reading literals -/

theorem stringFrom_cons {place place' : Place} {c : UInt8} (hquote : place ≠ .plain ∨ c ≠ 34)
    (hnext : place.next c = some place') (s : Bytes) :
  stringFrom place (c :: s) = (stringFrom place' s).map (Prod.map (c :: ·) id)
  := by
  rw [stringFrom, if_neg, hnext]
  rintro ⟨hplace, hc⟩
  obtain hne | hne := hquote
  · apply hne hplace
  · apply hne hc

/-- A part of a string, wherever in one it is. -/
def Whole (piece : Bytes) : Prop :=
  ∀ r, stringFrom .plain (piece ++ r) = (stringFrom .plain r).map (Prod.map (piece ++ ·) id)

theorem Whole.nil :
  Whole []
  := by
  intro r
  rw [List.nil_append]
  cases stringFrom .plain r with
  | none => rfl
  | some r' => rfl

theorem Whole.append {piece piece' : Bytes} (h : Whole piece) (h' : Whole piece') :
  Whole (piece ++ piece')
  := by
  intro r
  rw [List.append_assoc, h, h', Option.map_map]
  apply Option.map_congr
  intro r' _
  simp [Prod.map]

theorem Whole.flatMap {α : Type} {f : α → Bytes} {l : List α} (h : ∀ a ∈ l, Whole (f a)) :
  Whole (l.flatMap f)
  := by
  induction l with
  | nil => apply Whole.nil
  | cons a l ih =>
      obtain ⟨ha, hl⟩ := List.forall_mem_cons.mp h
      rw [List.flatMap_cons]
      apply ha.append (ih hl)

theorem whole_singleton {c : UInt8} (hquote : c ≠ 34) (hbackslash : c ≠ 92) (hcontrol : 32 ≤ c) :
  Whole [c]
  := by
  intro r
  have hnext : Place.plain.next c = some .plain := by
    rw [Place.next, if_neg hbackslash, if_neg (UInt8.not_lt.mpr hcontrol)]
  apply stringFrom_cons (.inr hquote) hnext

theorem stringFrom_backslash (s : Bytes) :
  stringFrom .plain (92 :: s) = (stringFrom .escaped s).map (Prod.map (92 :: ·) id)
  := by
  apply stringFrom_cons
  · right
    decide
  · rfl

theorem whole_escape {c : UInt8} (hc : escapes.contains c = true) :
  Whole [92, c]
  := by
  intro r
  have hnext : Place.escaped.next c = some .plain := by
    rw [Place.next, hc, if_pos rfl, if_neg]
    rintro rfl
    cases hc
  calc stringFrom .plain (92 :: c :: r)
      = (stringFrom .escaped (c :: r)).map (Prod.map (92 :: ·) id) := stringFrom_backslash _
    _ = ((stringFrom .plain r).map (Prod.map (c :: ·) id)).map (Prod.map (92 :: ·) id) := by
        rw [stringFrom_cons (.inl Place.noConfusion) hnext]
    _ = (stringFrom .plain r).map (Prod.map ([92, c] ++ ·) id) := by
        rw [Option.map_map]
        rfl

theorem stringFrom_hex_zero {c : UInt8} (hc : isHexDigit c = true) (s : Bytes) :
  stringFrom (.hex 0) (c :: s) = (stringFrom .plain s).map (Prod.map (c :: ·) id)
  := by
  apply stringFrom_cons (.inl Place.noConfusion)
  rw [Place.next, if_pos hc, if_pos rfl]

theorem stringFrom_hex_succ {k : ℕ} {c : UInt8} (hc : isHexDigit c = true) (s : Bytes) :
  stringFrom (.hex (k + 1)) (c :: s) = (stringFrom (.hex k) s).map (Prod.map (c :: ·) id)
  := by
  apply stringFrom_cons (.inl Place.noConfusion)
  rw [Place.next, if_pos hc, if_neg (Nat.succ_ne_zero k), Nat.add_sub_cancel]

theorem whole_unicode {a b c d : UInt8} (ha : isHexDigit a = true) (hb : isHexDigit b = true)
    (hc : isHexDigit c = true) (hd : isHexDigit d = true) :
  Whole [92, 117, a, b, c, d]
  := by
  intro r
  have hu : ∀ s, stringFrom .escaped (117 :: s)
      = (stringFrom (.hex 3) s).map (Prod.map (117 :: ·) id) := by
    intro s
    apply stringFrom_cons (.inl Place.noConfusion) rfl
  calc stringFrom .plain (92 :: 117 :: a :: b :: c :: d :: r)
      = ((((((stringFrom .plain r).map (Prod.map (d :: ·) id)).map (Prod.map (c :: ·) id)).map
          (Prod.map (b :: ·) id)).map (Prod.map (a :: ·) id)).map (Prod.map (117 :: ·) id)).map
          (Prod.map (92 :: ·) id) := by
        rw [stringFrom_backslash, hu, stringFrom_hex_succ ha, stringFrom_hex_succ hb,
          stringFrom_hex_succ hc, stringFrom_hex_zero hd]
    _ = (stringFrom .plain r).map (Prod.map ([92, 117, a, b, c, d] ++ ·) id) := by
        simp only [Option.map_map]
        rfl

/-- A string is read up to the quote behind it. -/
theorem Whole.stringFrom_eq {literal : Bytes} (h : Whole literal) (r : Bytes) :
  stringFrom .plain (literal ++ 34 :: r) = some (literal, r)
  := by
  rw [h, stringFrom, if_pos ⟨rfl, rfl⟩, Option.map_some, Prod.map, List.append_nil]
  rfl

/-- The text of a number. -/
structure NumberLiteral (literal : Bytes) : Prop where
  isNumber : isNumber literal = true
  chars : ∀ c ∈ literal, isNumberChar c = true

theorem not_isNumberChar {c d : UInt8} (hc : isNumberChar c = true)
    (hd : isNumberChar d = false) :
  c ≠ d
  := by
  rintro rfl
  rw [hc] at hd
  cases hd

theorem not_isSpace_of_isNumberChar {c : UInt8} (hc : isNumberChar c = true) :
  isSpace c = false
  := by
  simp only [isSpace, Bool.or_eq_false_iff, beq_eq_false_iff_ne]
  exact ⟨⟨⟨not_isNumberChar hc rfl, not_isNumberChar hc rfl⟩, not_isNumberChar hc rfl⟩,
    not_isNumberChar hc rfl⟩

theorem skipSpace_cons {c : UInt8} (h : isSpace c = false) (s : Bytes) :
  skipSpace (c :: s) = c :: s
  := by
  rw [skipSpace, List.dropWhile_cons_of_neg]
  rw [h]
  apply Bool.false_ne_true

/-- What may follow a number. -/
def Ends (r : Bytes) : Prop := ∀ c ∈ r.head?, isNumberChar c = false

theorem ends_cons {c : UInt8} (h : isNumberChar c = false) (r : Bytes) :
  Ends (c :: r)
  := by
  rintro _ ⟨⟩
  apply h

theorem NumberLiteral.readNumber_eq {literal r : Bytes} (h : NumberLiteral literal)
    (hr : Ends r) :
  readNumber (literal ++ r) = some (.number literal, r)
  := by
  have hrest : r.takeWhile isNumberChar = [] ∧ r.dropWhile isNumberChar = r := by
    cases r with
    | nil => exact ⟨rfl, rfl⟩
    | cons c r =>
        have hc : isNumberChar c = false := hr c rfl
        rw [List.takeWhile_cons, List.dropWhile_cons, hc]
        exact ⟨rfl, rfl⟩
  have htake : (literal ++ r).takeWhile isNumberChar = literal := by
    rw [List.takeWhile_append_of_pos h.chars, hrest.1, List.append_nil]
  have hdrop : (literal ++ r).dropWhile isNumberChar = r := by
    rw [List.dropWhile_append_of_pos h.chars, hrest.2]
  rw [readNumber, htake, hdrop, if_pos h.isNumber]

theorem NumberLiteral.exists_cons {literal : Bytes} (h : NumberLiteral literal) :
  ∃ c s, literal = c :: s ∧ isNumberChar c = true
  := by
  cases literal with
  | nil => cases h.isNumber
  | cons c s => exact ⟨c, s, rfl, h.chars c List.mem_cons_self⟩

theorem NumberLiteral.value_eq {literal r : Bytes} (h : NumberLiteral literal) (hr : Ends r)
    (depth : ℕ) :
  value (depth + 1) (literal ++ r) = some (.number literal, r)
  := by
  have hread := h.readNumber_eq hr
  obtain ⟨c, s, rfl, hc⟩ := h.exists_cons
  have hword : ∀ {d : UInt8} {word : Bytes}, isNumberChar d = false →
      (d :: word).isPrefixOf (c :: (s ++ r)) = false := by
    intro d word hd
    rw [List.isPrefixOf, beq_false_of_ne (not_isNumberChar hc hd).symm, Bool.false_and]
  rw [List.cons_append] at hread ⊢
  rw [value, skipSpace_cons (not_isSpace_of_isNumberChar hc)]
  simp only
  rw [if_neg (not_isNumberChar hc rfl), if_neg (not_isNumberChar hc rfl),
    if_neg (not_isNumberChar hc rfl), readScalar, nullWord, trueWord, falseWord, hword rfl,
    hword rfl, hword rfl]
  apply hread

theorem isNumberChar_of_isDigit {c : UInt8} (h : isDigit c = true) :
  isNumberChar c = true
  := by simp [isNumberChar, h]

theorem head?_ne_of_digits {digits : Bytes} (hdigits : ∀ c ∈ digits, isDigit c = true) :
  digits.head? ≠ some 45
  := by
  intro hhead
  have hminus := hdigits 45 (List.mem_of_mem_head? hhead)
  cases hminus

theorem isNumber_of_digits {digits : Bytes} (hne : digits ≠ [])
    (hdigits : ∀ c ∈ digits, isDigit c = true)
    (hzero : digits.length = 1 ∨ digits.head? ≠ some 48) :
  isNumber digits = true
  := by
  have hall : digits.takeWhile isDigit = digits := List.takeWhile_eq_self_iff.mpr hdigits
  have hnone : digits.dropWhile isDigit = [] := by
    rw [List.dropWhile_eq_nil_iff]
    apply hdigits
  rw [isNumber, if_neg (head?_ne_of_digits hdigits)]
  simp only [hall, hnone, Bool.and_eq_true, Bool.not_eq_true', List.isEmpty_eq_false_iff,
    Bool.or_eq_true, beq_iff_eq, bne_iff_ne]
  exact ⟨⟨hne, hzero⟩, rfl⟩

theorem numberLiteral_decimal (n : ℕ) :
  NumberLiteral (Text.decimal n)
  where
    isNumber := by
      apply isNumber_of_digits (Text.decimal_ne_nil n) fun _ => Text.isDigit_of_mem_decimal
      obtain rfl | hpos := Nat.eq_zero_or_pos n
      · left
        rfl
      · right
        apply Text.head?_decimal hpos
    chars c hc := isNumberChar_of_isDigit (Text.isDigit_of_mem_decimal hc)

/-- The text of a negative number. -/
theorem numberLiteral_minus (n : ℕ) :
  NumberLiteral (45 :: Text.decimal n)
  where
    isNumber := by
      have hdecimal := (numberLiteral_decimal n).isNumber
      rw [Json.isNumber, if_neg (head?_ne_of_digits fun _ => Text.isDigit_of_mem_decimal)]
        at hdecimal
      have hhead : (45 :: Text.decimal n).head? = some 45 := rfl
      rw [Json.isNumber, if_pos hhead]
      apply hdecimal
    chars c hc := by
      obtain rfl | hc := List.mem_cons.mp hc
      · rfl
      · apply (numberLiteral_decimal n).chars c hc

/-! ### A member more -/

/-- A member is put in front of the members of an object. -/
def insert (name : Bytes) (v : Json) : Json → Json
  | .object members => .object ((name, v) :: members)
  | w => w

/-- The last member of that name, which is the one that counts where the members are put into a
map one after the other. -/
def get (name : Bytes) : Json → Option Json
  | .object members => (members.reverse.find? (·.1 == name)).map Prod.snd
  | _ => none

theorem get_insert (name name' : Bytes) (v : Json) (members : List (Bytes × Json)) :
  get name' (insert name v (.object members))
    = (get name' (.object members)).or (if name = name' then some v else none)
  := by
  rw [insert, get, get, List.reverse_cons, List.find?_append, Option.map_or, List.find?_singleton]
  congr 1
  by_cases h : name = name'
  · simp [h]
  · simp [h]

theorem parse_object (s : Bytes) :
  parse (123 :: s)
    = (listOf 125 (member (value (s.length + 1))) s).bind fun r =>
        if (skipSpace r.2).isEmpty then some (.object r.1) else none
  := by
  rw [parse, List.length_cons, value, skipSpace_cons rfl]
  simp only [if_true]
  cases listOf 125 (member (value (s.length + 1))) s with
  | none => rfl
  | some r => rfl

/-- A member is read where its name and its value are. -/
theorem member_of_value {value : Bytes → Option (Json × Bytes)} {name s r : Bytes} {v : Json}
    (hname : Whole name) (hvalue : value s = some (v, r)) :
  member value (34 :: (name ++ 34 :: 58 :: s)) = some ((name, v), r)
  := by
  rw [member, skipSpace_cons rfl]
  simp only [if_true, hname.stringFrom_eq]
  rw [skipSpace_cons rfl]
  simp only [if_true, hvalue]
  rfl

theorem member_eq {name literal r : Bytes} (hname : Whole name) (hliteral : NumberLiteral literal)
    (hr : Ends r) (depth : ℕ) :
  member (value (depth + 1)) (34 :: (name ++ 34 :: 58 :: (literal ++ r)))
    = some ((name, .number literal), r)
  := member_of_value hname (hliteral.value_eq hr depth)

/-- An object of one member. -/
theorem parse_single {name literal : Bytes} (hname : Whole name)
    (hliteral : NumberLiteral literal) :
  parse (123 :: 34 :: (name ++ 34 :: 58 :: (literal ++ [125])))
    = some (.object [(name, .number literal)])
  := by
  have hr : Ends [125] := ends_cons rfl _
  rw [parse_object, listOf, skipSpace_cons rfl]
  simp only
  rw [if_neg (by decide), sepBy, member_eq hname hliteral hr]
  rfl

theorem listOf_members (depth : ℕ) (s : Bytes) :
  listOf 125 (member (value depth)) (34 :: s)
    = sepBy 125 (member (value depth)) ((34 :: s).length + 1) (34 :: s)
  := by
  rw [listOf, skipSpace_cons rfl]
  simp only
  rw [if_neg (by decide)]

/-- Members are read in the same way in a longer text. -/
theorem sepBy_members {s : Bytes} {depth n : ℕ} (hdepth : s.length < depth) (hn : s.length < n) :
  sepBy 125 (member (value depth)) n s
    = sepBy 125 (member (value (s.length + 1))) (s.length + 1) s
  := by
  apply sepBy_congr (shrinks_member (shrinks_value depth)) _ hn (Nat.lt_succ_self _)
  intro t ht
  apply member_congr
  intro u hu
  apply value_congr
  · omega
  · omega

/-- The text of an object, with a member written before the first one. -/
theorem parse_insert {name literal : Bytes} (hname : Whole name)
    (hliteral : NumberLiteral literal) (s : Bytes) :
  parse (123 :: 34 :: (name ++ 34 :: 58 :: (literal ++ 44 :: 34 :: s)))
    = (parse (123 :: 34 :: s)).map (insert name (.number literal))
  := by
  have hr : Ends (44 :: 34 :: s) := ends_cons rfl _
  have hlength : (34 :: s).length
      < (34 :: (name ++ 34 :: 58 :: (literal ++ 44 :: 34 :: s))).length := by
    simp only [List.length_cons, List.length_append]
    omega
  rw [parse_object, parse_object, listOf_members, listOf_members, sepBy,
    member_eq hname hliteral hr]
  simp only
  rw [skipSpace_cons rfl]
  simp only [if_true]
  rw [sepBy_members (Nat.lt_succ_of_lt hlength) hlength]
  cases sepBy 125 (member (value ((34 :: s).length + 1))) ((34 :: s).length + 1) (34 :: s) with
  | none => rfl
  | some r =>
      simp only [Option.map_some, Option.bind_some, Prod.map_fst, Prod.map_snd, id_eq]
      split
      · rfl
      · rfl

end Json

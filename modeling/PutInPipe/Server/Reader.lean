import PutInPipe.Library.JsonString
import PutInPipe.Library.JsonText
import PutInPipe.Server.Json
import Mathlib.Data.List.DropRight

/-!
# Reading JSON

`load` is `crow::json::load`: the parser of `load_nocopy_internal`, which goes over a text that
ends with a zero. A zero inside of the text ends it too.

What the grammar of JSON allows is read, with two exceptions: a number that begins with `0e`, and
values that are nested too deeply. What is read is what the text stands for, unless a surrogate is
escaped in it: `unescape` writes each unit of a pair for itself.
-/

open Text (Bytes isDigit)
open Json (isSpace isHexDigit)

namespace Rvalue

/-! ### The parser -/

/-- The string with these bytes. -/
def ofBytes (b : Bytes) : String := String.ofList (b.map fun c => Char.ofNat c.toNat)

/-- `*data`. -/
def peek (data : Bytes) : UInt8 := data.headD 0

/-- `ws_skip`. -/
def wsSkip (data : Bytes) : Bytes := data.dropWhile isSpace

/-- The loop of `decode_string`: what is between the quotes, and what comes after them. -/
def stringLoop : Bytes → Option (Bytes × Bytes)
  | [] => none
  | c :: data =>
      if c ≠ 34 ∧ c ≠ 92 ∧ c ≠ 0 then (stringLoop data).map (Prod.map (c :: ·) id)
      else if c = 34 then some ([], data)
      else if c = 92 then
        match data with
        | [] => none
        | e :: data =>
            if e = 117 then
              match data with
              | h1 :: h2 :: h3 :: h4 :: data =>
                  if isHexDigit h1 && isHexDigit h2 && isHexDigit h3 && isHexDigit h4 then
                    (stringLoop data).map (Prod.map ([92, 117, h1, h2, h3, h4] ++ ·) id)
                  else none
              | _ => none
            else if Json.escapes.contains e then
              (stringLoop data).map (Prod.map ([92, e] ++ ·) id)
            else none
      else none

/-- `from_hex`. -/
def fromHex (c : UInt8) : ℕ :=
  if 97 ≤ c then c.toNat - 97 + 10
  else if 65 ≤ c then c.toNat - 65 + 10
  else c.toNat - 48

/-- The bytes that `unescape` writes for a number of four digits. -/
def encodeCode (code : ℕ) : Bytes :=
  if 0x800 ≤ code then
    [UInt8.ofNat (0xE0 ||| code >>> 12), UInt8.ofNat (0x80 ||| (code >>> 6 &&& 0x3F)),
      UInt8.ofNat (0x80 ||| (code &&& 0x3F))]
  else if 0x80 ≤ code then
    [UInt8.ofNat (0xC0 ||| code >>> 6), UInt8.ofNat (0x80 ||| (code &&& 0x3F))]
  else [UInt8.ofNat code]

/-- The loop of `unescape`. -/
def unescapeLoop : Bytes → Bytes
  | [] => []
  | c :: s =>
      if c = 92 then
        match s with
        | [] => []
        | e :: s =>
            if e = 34 then 34 :: unescapeLoop s
            else if e = 92 then 92 :: unescapeLoop s
            else if e = 47 then 47 :: unescapeLoop s
            else if e = 98 then 8 :: unescapeLoop s
            else if e = 102 then 12 :: unescapeLoop s
            else if e = 110 then 10 :: unescapeLoop s
            else if e = 114 then 13 :: unescapeLoop s
            else if e = 116 then 9 :: unescapeLoop s
            else if e = 117 then
              match s with
              | h1 :: h2 :: h3 :: h4 :: s =>
                  encodeCode (fromHex h1 <<< 12 + fromHex h2 <<< 8 + fromHex h3 <<< 4 + fromHex h4)
                    ++ unescapeLoop s
              | _ => []
            else unescapeLoop s
      else c :: unescapeLoop s

/-- `unescape`. The flag before the string says whether it has a backslash. -/
def unescape (literal : Bytes) : Bytes :=
  if literal.contains 92 then unescapeLoop literal else literal

def ofLiteral (literal : Bytes) : Rvalue := string (ofBytes literal) (ofBytes (unescape literal))

def decodeString (data : Bytes) : Option (Bytes × Bytes) :=
  if peek data ≠ 34 then none else stringLoop data.tail

inductive NumberParsingState where
  | minus
  | afterMinus
  | zeroFirst
  | digits
  | digitsAfterPoints
  | e
  | digitsAfterE
  | invalid
deriving DecidableEq, Repr

namespace NumberParsingState

/-- The string for `0`. -/
def onZero : NumberParsingState → NumberParsingState
  | minus => zeroFirst
  | afterMinus => zeroFirst
  | digits => digits
  | digitsAfterPoints => digitsAfterPoints
  | e => digitsAfterE
  | digitsAfterE => digitsAfterE
  | _ => invalid

/-- The string for the other digits. -/
def onDigit : NumberParsingState → NumberParsingState
  | minus => digits
  | afterMinus => digits
  | digits => digits
  | digitsAfterPoints => digitsAfterPoints
  | e => digitsAfterE
  | digitsAfterE => digitsAfterE
  | _ => invalid

/-- The string for the point. -/
def onPoint : NumberParsingState → NumberParsingState
  | zeroFirst => digitsAfterPoints
  | digits => digitsAfterPoints
  | _ => invalid

/-- The string for `-`. -/
def onMinus : NumberParsingState → NumberParsingState
  | minus => afterMinus
  | e => digitsAfterE
  | _ => invalid

/-- The string for `+`. -/
def onPlus : NumberParsingState → NumberParsingState
  | e => digitsAfterE
  | _ => invalid

/-- The string for `e` and `E`. -/
def onE : NumberParsingState → NumberParsingState
  | digits => e
  | digitsAfterPoints => e
  | _ => invalid

def accepts : NumberParsingState → Bool
  | zeroFirst | digits | digitsAfterPoints | digitsAfterE => Bool.true
  | _ => Bool.false

end NumberParsingState

open NumberParsingState in
/-- The loop of `decode_number`: the text of the number, and what comes after it. -/
def numberLoop (state : NumberParsingState) (data : Bytes) : Option (Bytes × Bytes) :=
  if state = invalid then none
  else match data with
    | [] => if state.accepts then some ([], []) else none
    | c :: data =>
        if c = 48 then (numberLoop state.onZero data).map (Prod.map (c :: ·) id)
        else if 49 ≤ c ∧ c ≤ 57 then
          (numberLoop state.onDigit (data.dropWhile isDigit)).map
            (Prod.map (c :: data.takeWhile isDigit ++ ·) id)
        else if c = 46 then (numberLoop state.onPoint data).map (Prod.map (c :: ·) id)
        else if c = 45 then (numberLoop state.onMinus data).map (Prod.map (c :: ·) id)
        else if c = 43 then (numberLoop state.onPlus data).map (Prod.map (c :: ·) id)
        else if c = 101 ∨ c = 69 then (numberLoop state.onE data).map (Prod.map (c :: ·) id)
        else if state.accepts then some ([], c :: data)
        else none
termination_by data.length
decreasing_by
  all_goals
    have hle := List.length_dropWhile_le isDigit data
    simp only [List.length_cons]
    omega

def maxDepth : ℕ := 10000

section

variable {α : Type}

/-- The loops of `decode_list` and `decode_object`, for so many turns. -/
def itemLoop (close : UInt8) (item : Bytes → Option (α × Bytes)) : ℕ → Bytes →
    Option (List α × Bytes)
  | 0, _ => none
  | turns + 1, data =>
      match item data with
      | none => none
      | some (a, data) =>
          let data := wsSkip data
          if peek data = close then some ([a], data.tail)
          else if peek data ≠ 44 then none
          else (itemLoop close item turns (wsSkip data.tail)).map (Prod.map (a :: ·) id)

/-- `decode_list` and `decode_object`. Each turn of the loop consumes something. -/
def decodeItems (start close : UInt8) (depth : ℕ) (item : Bytes → Option (α × Bytes))
    (data : Bytes) : Option (List α × Bytes) :=
  if peek data ≠ start ∨ maxDepth < depth then none
  else
    let data := wsSkip data.tail
    if peek data = close then some ([], data.tail)
    else itemLoop close item (data.length + 1) data

end

/-- A turn of the loop of `decode_object`, until the comma. -/
def decodeMember (value : Bytes → Option (Rvalue × Bytes)) (data : Bytes) :
    Option ((String × Rvalue) × Bytes) :=
  match decodeString data with
  | none => none
  | some (literal, data) =>
      let data := wsSkip data
      if peek data ≠ 58 then none
      else
        let key := ofBytes (unescape literal)
        (value (wsSkip data.tail)).map (Prod.map (key, ·) id)

/-- `decode_value`. The first number is how many values may be nested in each other. -/
def decodeValue : ℕ → ℕ → Bytes → Option (Rvalue × Bytes)
  | 0, _, _ => none
  | fuel + 1, depth, data =>
      if peek data = 91 then
        (decodeItems 91 93 (depth + 1) (decodeValue fuel (depth + 2)) data).map
          (Prod.map list id)
      else if peek data = 123 then
        (decodeItems 123 125 (depth + 1) (decodeMember (decodeValue fuel (depth + 2))) data).map
          (Prod.map object id)
      else if peek data = 34 then (decodeString data).map (Prod.map ofLiteral id)
      else if peek data = 116 then
        if Json.trueWord.isPrefixOf data then some (.true, data.drop 4) else none
      else if peek data = 102 then
        if Json.falseWord.isPrefixOf data then some (.false, data.drop 5) else none
      else if peek data = 110 then
        if Json.nullWord.isPrefixOf data then some (.null, data.drop 4) else none
      else (numberLoop .minus data).map (Prod.map (fun text => number (ofBytes text)) id)

/-- `load`. No more values are nested in each other than the depth allows. -/
def load (text : Bytes) : Option Rvalue :=
  (decodeValue (maxDepth + 1) 0 (wsSkip text)).bind fun r =>
    if peek (wsSkip r.2) ≠ 0 then none else some r.1

/-! ### Numbers -/

namespace NumberParsingState

/-- What the loop of `decode_number` makes of the state, one character at a time. -/
def next (state : NumberParsingState) (c : UInt8) : NumberParsingState :=
  if c = 48 then state.onZero
  else if isDigit c then state.onDigit
  else if c = 46 then state.onPoint
  else if c = 45 then state.onMinus
  else if c = 43 then state.onPlus
  else if c = 101 ∨ c = 69 then state.onE
  else state

theorem foldl_next_invalid (s : Bytes) :
  s.foldl next invalid = invalid
  := by
  induction s with
  | nil => rfl
  | cons c s ih =>
      have hstay : next invalid c = invalid := by
        simp only [next, onZero, onDigit, onPoint, onMinus, onPlus, onE, ite_self]
      rw [List.foldl_cons, hstay, ih]

/-- After a digit the state stays as it is while there are digits. -/
theorem next_onDigit (state : NumberParsingState) {c : UInt8} (h : isDigit c = Bool.true) :
  next state.onDigit c = state.onDigit
  := by
  rw [next]
  split
  · cases state <;> rfl
  · cases state <;> rfl

theorem foldl_next_onDigit (state : NumberParsingState) {s : Bytes}
    (h : ∀ c ∈ s, isDigit c = Bool.true) :
  s.foldl next state.onDigit = state.onDigit
  := by
  induction s with
  | nil => rfl
  | cons c s ih =>
      obtain ⟨hc, hs⟩ := List.forall_mem_cons.mp h
      rw [List.foldl_cons, next_onDigit state hc, ih hs]

end NumberParsingState

open NumberParsingState

/-- The characters of a number, those at which the loop does not stop. -/
theorem isNumberChar_cases {c : UInt8} (h : Json.isNumberChar c = Bool.true) :
  c = 48 ∨ (49 ≤ c ∧ c ≤ 57) ∨ c = 46 ∨ c = 45 ∨ c = 43 ∨ (c = 101 ∨ c = 69)
  := by
  simp only [Json.isNumberChar, isDigit, Bool.or_eq_true, Bool.and_eq_true, decide_eq_true_eq,
    beq_iff_eq] at h
  grind

theorem ne_invalid_of_accepts {state : NumberParsingState} (h : state.accepts = Bool.true) :
  state ≠ invalid
  := by
  rintro rfl
  cases h

theorem numberLoop_stop {state : NumberParsingState} (h : state.accepts = Bool.true) {r : Bytes}
    (hr : Json.Ends r) :
  numberLoop state r = some ([], r)
  := by
  cases r with
  | nil => rw [numberLoop, if_neg (ne_invalid_of_accepts h), if_pos h]
  | cons c r =>
      have hc : Json.isNumberChar c = Bool.false := hr c rfl
      simp only [Json.isNumberChar, isDigit, Bool.or_eq_false_iff, Bool.and_eq_false_iff,
        decide_eq_false_iff_not, beq_eq_false_iff_ne] at hc
      rw [numberLoop, if_neg (ne_invalid_of_accepts h), if_neg (by grind), if_neg (by grind),
        if_neg (by grind), if_neg (by grind), if_neg (by grind), if_neg (by grind), if_pos h]

/-- The digits that are skipped are those of the literal. -/
theorem digits_append (literal : Bytes) {r : Bytes} (hr : Json.Ends r) :
  (literal ++ r).takeWhile isDigit = literal.takeWhile isDigit
    ∧ (literal ++ r).dropWhile isDigit = literal.dropWhile isDigit ++ r
  := by
  have hends : r.takeWhile isDigit = [] ∧ r.dropWhile isDigit = r := by
    cases r with
    | nil => exact ⟨rfl, rfl⟩
    | cons c r =>
        have hc : isDigit c = Bool.false := by
          have hnot := hr c rfl
          simp only [Json.isNumberChar, Bool.or_eq_false_iff] at hnot
          grind
        rw [List.takeWhile_cons, List.dropWhile_cons, hc]
        exact ⟨rfl, rfl⟩
  induction literal with
  | nil => exact hends
  | cons c literal ih =>
      rw [List.cons_append, List.takeWhile_cons, List.takeWhile_cons, List.dropWhile_cons,
        List.dropWhile_cons]
      split
      · exact ⟨congrArg _ ih.1, ih.2⟩
      · exact ⟨rfl, rfl⟩

/-- The loop runs through a literal that brings the state to one that accepts. -/
theorem numberLoop_append {state : NumberParsingState} {literal r : Bytes}
    (hchars : ∀ c ∈ literal, Json.isNumberChar c = Bool.true)
    (haccepts : (literal.foldl next state).accepts = Bool.true) (hr : Json.Ends r) :
  numberLoop state (literal ++ r) = some (literal, r)
  := by
  induction hlength : literal.length using Nat.strongRecOn generalizing literal state with
  | ind n ih =>
      cases literal with
      | nil => apply numberLoop_stop haccepts hr
      | cons c literal =>
          obtain ⟨hc, hliteral⟩ := List.forall_mem_cons.mp hchars
          rw [List.length_cons] at hlength
          have hstate : state ≠ invalid := by
            rintro rfl
            rw [foldl_next_invalid] at haccepts
            cases haccepts
          rw [List.foldl_cons] at haccepts
          rw [List.cons_append, numberLoop, if_neg hstate]
          -- each character but a digit other than zero is a turn of its own
          have hturn : ∀ state', next state c = state' →
              numberLoop state' (literal ++ r) = some (literal, r) := by
            rintro _ rfl
            apply ih _ (by omega) hliteral haccepts rfl
          obtain rfl | hdigit | rfl | rfl | rfl | rfl | rfl := isNumberChar_cases hc
          · rw [if_pos rfl, hturn state.onZero rfl]
            rfl
          · have hzero : c ≠ 48 := by grind
            have hisDigit : isDigit c = Bool.true := by
              simp only [isDigit, Bool.and_eq_true, decide_eq_true_eq]
              grind
            have hnext : next state c = state.onDigit := by
              rw [next, if_neg hzero, if_pos hisDigit]
            obtain ⟨htake, hdrop⟩ := digits_append literal hr
            have hdigits : ∀ d ∈ literal.takeWhile isDigit, isDigit d = Bool.true :=
              fun d hd => List.mem_takeWhile_imp hd
            have hrest : ∀ d ∈ literal.dropWhile isDigit, Json.isNumberChar d = Bool.true :=
              fun d hd => hliteral d ((List.dropWhile_sublist _).subset hd)
            have haccepts' : ((literal.dropWhile isDigit).foldl next state.onDigit).accepts
                = Bool.true := by
              rw [hnext, ← List.takeWhile_append_dropWhile (p := isDigit) (l := literal),
                List.foldl_append, foldl_next_onDigit state hdigits] at haccepts
              apply haccepts
            have hle := List.length_dropWhile_le isDigit literal
            rw [if_neg hzero, if_pos hdigit, htake, hdrop, ih _ (by omega) hrest haccepts' rfl]
            simp only [Option.map_some, Prod.map, List.cons_append,
              List.takeWhile_append_dropWhile]
            rfl
          · rw [if_neg (by decide), if_neg (by decide), if_pos rfl,
              hturn state.onPoint rfl]
            rfl
          · rw [if_neg (by decide), if_neg (by decide), if_neg (by decide), if_pos rfl,
              hturn state.onMinus rfl]
            rfl
          · rw [if_neg (by decide), if_neg (by decide), if_neg (by decide), if_neg (by decide),
              if_pos rfl, hturn state.onPlus rfl]
            rfl
          · rw [if_neg (by decide), if_neg (by decide), if_neg (by decide), if_neg (by decide),
              if_neg (by decide), if_pos (Or.inl rfl), hturn state.onE rfl]
            rfl
          · rw [if_neg (by decide), if_neg (by decide), if_neg (by decide), if_neg (by decide),
              if_neg (by decide), if_pos (Or.inr rfl), hturn state.onE rfl]
            rfl

/-- The number begins with `0e`, which the state after a zero has no transition for. -/
def zeroExponent (literal : Bytes) : Bool :=
  let s := if literal.head? = some 45 then literal.drop 1 else literal
  s.head? == some 48 && (s[1]? == some 101 || s[1]? == some 69)

theorem next_of_isDigit {state : NumberParsingState} {c : UInt8} (h : isDigit c = Bool.true)
    (hsame : state.onZero = state.onDigit) :
  next state c = state.onDigit
  := by
  rw [next]
  split
  · apply hsame
  · rfl

theorem accepts_of_isExponent {state : NumberParsingState} {s : Bytes}
    (hstate : state = digits ∨ state = digitsAfterPoints)
    (h : Json.isExponent s = Bool.true) :
  (s.foldl next state).accepts = Bool.true
  := by
  cases s with
  | nil => obtain rfl | rfl := hstate <;> rfl
  | cons c t =>
      rw [Json.isExponent] at h
      simp only [Bool.and_eq_true, Bool.or_eq_true, beq_iff_eq, Bool.not_eq_true',
        List.isEmpty_eq_false_iff, List.all_eq_true] at h
      obtain ⟨⟨hc, hne⟩, hdigits⟩ := h
      have hnext : next state c = e := by
        obtain rfl | rfl := hstate <;> obtain rfl | rfl := hc <;> rfl
      have hall : ∀ {ds : Bytes}, (∀ d ∈ ds, isDigit d = Bool.true) →
          ds.foldl next digitsAfterE = digitsAfterE := fun hds => foldl_next_onDigit e hds
      rw [List.foldl_cons, hnext]
      cases t with
      | nil => exact absurd rfl hne
      | cons d t =>
          rw [List.foldl_cons]
          split at hdigits
          case isTrue hsign =>
            have hplus : next e d = digitsAfterE := by
              rw [List.head?_cons, Option.some_inj, Option.some_inj] at hsign
              obtain rfl | rfl := hsign <;> rfl
            rw [List.drop_one, List.tail_cons] at hdigits
            rw [hplus, hall hdigits]
            rfl
          case isFalse =>
            obtain ⟨hd, ht⟩ := List.forall_mem_cons.mp hdigits
            rw [next_of_isDigit hd rfl]
            rw [show onDigit e = digitsAfterE from rfl, hall ht]
            rfl

theorem accepts_of_isFraction {state : NumberParsingState} {s : Bytes}
    (hstate : state = zeroFirst ∨ state = digits)
    (hzero : state = zeroFirst → s.head? ≠ some 101 ∧ s.head? ≠ some 69)
    (h : Json.isFraction s = Bool.true) :
  (s.foldl next state).accepts = Bool.true
  := by
  rw [Json.isFraction] at h
  split at h
  case isTrue hpoint =>
    obtain ⟨t, rfl⟩ := List.head?_eq_some_iff.mp hpoint
    rw [Bool.and_eq_true] at h
    have hnext : next state 46 = digitsAfterPoints := by
      obtain rfl | rfl := hstate <;> rfl
    have hdigits : (t.takeWhile isDigit).foldl next digitsAfterPoints = digitsAfterPoints :=
      foldl_next_onDigit digitsAfterPoints fun d hd => List.mem_takeWhile_imp hd
    rw [List.foldl_cons, hnext, ← List.takeWhile_append_dropWhile (p := isDigit) (l := t),
      List.foldl_append, hdigits]
    apply accepts_of_isExponent (.inr rfl) h.2
  case isFalse =>
    obtain rfl | rfl := hstate
    · obtain ⟨hlower, hupper⟩ := hzero rfl
      cases s with
      | nil => rfl
      | cons c t =>
          rw [Json.isExponent] at h
          simp only [Bool.and_eq_true, Bool.or_eq_true, beq_iff_eq] at h
          rw [List.head?_cons, ne_eq, Option.some_inj] at hlower hupper
          obtain hc | hc := h.1.1
          · exact absurd hc hupper
          · exact absurd hc hlower
    · apply accepts_of_isExponent (.inl rfl) h

/-- The numbers of JSON are accepted, if they do not begin with `0e`. -/
theorem accepts_of_isNumber {literal : Bytes} (h : Json.isNumber literal = Bool.true)
    (hzero : zeroExponent literal = Bool.false) :
  (literal.foldl next minus).accepts = Bool.true
  := by
  let s := if literal.head? = some 45 then literal.drop 1 else literal
  have hstart : ∃ state, (state = minus ∨ state = afterMinus)
      ∧ literal.foldl next minus = s.foldl next state := by
    by_cases hsign : literal.head? = some 45
    · obtain ⟨t, rfl⟩ := List.head?_eq_some_iff.mp hsign
      exact ⟨afterMinus, .inr rfl, by simp only [s, hsign, if_true]; rfl⟩
    · exact ⟨minus, .inl rfl, by simp only [s, hsign, if_false]⟩
  obtain ⟨state, hstate, hfold⟩ := hstart
  rw [hfold]
  have hs : !(s.takeWhile isDigit).isEmpty
        && ((s.takeWhile isDigit).length == 1 || (s.takeWhile isDigit).head? != some 48)
        && Json.isFraction (s.dropWhile isDigit) := h
  have hz : (s.head? == some 48 && (s[1]? == some 101 || s[1]? == some 69)) = Bool.false := hzero
  rw [Bool.and_eq_true, Bool.and_eq_true, Bool.not_eq_true', List.isEmpty_eq_false_iff,
    Bool.or_eq_true, beq_iff_eq, bne_iff_ne] at hs
  obtain ⟨⟨hne, hlength⟩, hfraction⟩ := hs
  obtain ⟨c, ds, hint⟩ := List.exists_cons_of_ne_nil hne
  have hdigits : ∀ d ∈ c :: ds, isDigit d = Bool.true := by
    intro d hd
    rw [← hint] at hd
    apply List.mem_takeWhile_imp hd
  obtain ⟨hc, hds⟩ := List.forall_mem_cons.mp hdigits
  have hsplit : s = c :: ds ++ s.dropWhile isDigit := by
    rw [← hint, List.takeWhile_append_dropWhile]
  rw [hsplit, List.foldl_append, List.foldl_cons]
  rw [hint] at hlength
  by_cases hc0 : c = 48
  · have hnil : ds = [] := by
      obtain hlength | hhead := hlength
      · simpa using hlength
      · exact absurd (congrArg some hc0) hhead
    have hfirst : next state c = zeroFirst := by
      rw [hc0]
      obtain rfl | rfl := hstate <;> rfl
    rw [hnil, hfirst, List.foldl_nil]
    apply accepts_of_isFraction (.inl rfl) _ hfraction
    rintro -
    rw [hsplit, hnil, hc0] at hz
    simp only [List.cons_append, List.nil_append, List.head?_cons, BEq.rfl, Bool.true_and,
      List.getElem?_cons_succ, ← List.head?_eq_getElem?, Bool.or_eq_false_iff,
      beq_eq_false_iff_ne] at hz
    apply hz
  · have hfirst : next state c = state.onDigit := by
      rw [next, if_neg hc0, if_pos hc]
    have hdigit : state.onDigit = digits := by
      obtain rfl | rfl := hstate <;> rfl
    rw [hfirst, foldl_next_onDigit state hds, hdigit]
    apply accepts_of_isFraction (.inr rfl) _ hfraction
    rintro ⟨⟩

/-- After a zero there is no way to go on with an exponent. -/
theorem numberLoop_of_zeroExponent {literal : Bytes} (h : zeroExponent literal = Bool.true)
    (r : Bytes) :
  numberLoop minus (literal ++ r) = none
  := by
  have hzero : ∀ (state : NumberParsingState) (c : UInt8) (t : Bytes),
      (state = minus ∨ state = afterMinus) → (c = 101 ∨ c = 69) →
      numberLoop state (48 :: c :: t) = none := by
    intro state c t hstate hc
    have hfirst : state.onZero = zeroFirst ∧ state ≠ invalid := by
      obtain rfl | rfl := hstate
      · exact ⟨rfl, by decide⟩
      · exact ⟨rfl, by decide⟩
    have hsecond : numberLoop zeroFirst (c :: t) = none := by
      have hstop : ∀ t, numberLoop invalid t = none := by
        intro t
        cases t <;> rw [numberLoop, if_pos rfl]
      have hinvalid : onE zeroFirst = invalid := rfl
      rw [numberLoop, if_neg (by decide), if_neg (by grind), if_neg (by grind), if_neg (by grind),
        if_neg (by grind), if_neg (by grind), if_pos hc, hinvalid, hstop]
      rfl
    rw [numberLoop, if_neg hfirst.2, if_pos rfl, hfirst.1, hsecond]
    rfl
  rw [zeroExponent] at h
  simp only [Bool.and_eq_true, Bool.or_eq_true, beq_iff_eq] at h
  split at h
  case isTrue hsign =>
    obtain ⟨t, rfl⟩ := List.head?_eq_some_iff.mp hsign
    rw [List.drop_one, List.tail_cons] at h
    obtain ⟨hhead, hexp⟩ := h
    obtain ⟨u, rfl⟩ := List.head?_eq_some_iff.mp hhead
    rw [List.getElem?_cons_succ] at hexp
    cases u with
    | nil => simp at hexp
    | cons c u =>
        simp only [List.getElem?_cons_zero, Option.some_inj] at hexp
        have hminus : onMinus minus = afterMinus := rfl
        rw [List.cons_append, numberLoop, if_neg (by decide), if_neg (by decide),
          if_neg (by decide), if_neg (by decide), if_pos rfl, hminus, List.cons_append,
          List.cons_append, hzero _ c _ (.inr rfl) hexp]
        rfl
  case isFalse =>
    obtain ⟨hhead, hexp⟩ := h
    obtain ⟨u, rfl⟩ := List.head?_eq_some_iff.mp hhead
    rw [List.getElem?_cons_succ] at hexp
    cases u with
    | nil => simp at hexp
    | cons c u =>
        simp only [List.getElem?_cons_zero, Option.some_inj] at hexp
        apply hzero _ c _ (.inl rfl) hexp

/-- A number of JSON is read up to its end, or not at all. -/
theorem numberLoop_readNumber {s r : Bytes} {v : Json} (h : Json.readNumber s = some (v, r)) :
  ∃ literal, v = .number literal ∧ numberLoop .minus s
    = if zeroExponent literal then none else some (literal, r)
  := by
  rw [Json.readNumber] at h
  split at h
  case isFalse => cases h
  case isTrue hnumber =>
    cases h
    refine ⟨_, rfl, ?_⟩
    have hs : s = s.takeWhile Json.isNumberChar ++ s.dropWhile Json.isNumberChar :=
      List.takeWhile_append_dropWhile.symm
    split
    case isTrue hzero =>
      conv_lhs => rw [hs]
      apply numberLoop_of_zeroExponent hzero
    case isFalse hzero =>
      have hends : Json.Ends (s.dropWhile Json.isNumberChar) := by
        intro c hc
        have hnot := List.head?_dropWhile_not Json.isNumberChar s
        rw [Option.mem_def] at hc
        rw [hc] at hnot
        simpa using hnot
      conv_lhs => rw [hs]
      apply numberLoop_append (fun c hc => List.mem_takeWhile_imp hc)
        (accepts_of_isNumber hnumber (Bool.not_eq_true _ ▸ hzero)) hends

/-! ### Strings -/

/-- A string of JSON is read up to its end. -/
theorem stringLoop_of_stringFrom {s literal r : Bytes}
    (h : Json.stringFrom .plain s = some (literal, r)) :
  stringLoop s = some (literal, r)
  := by
  induction hlength : s.length using Nat.strongRecOn generalizing s literal with
  | ind n ih =>
      cases s with
      | nil => cases h
      | cons c s =>
          rw [List.length_cons] at hlength
          rw [Json.stringFrom] at h
          split at h
          case isTrue hquote =>
            cases h
            rw [hquote.2, stringLoop.eq_def]
            rfl
          case isFalse hquote =>
            have hc34 : c ≠ 34 := fun hc => hquote ⟨rfl, hc⟩
            split at h
            case h_1 => cases h
            case h_2 place hnext =>
              obtain ⟨⟨literal', r'⟩, hs, heq⟩ := Option.map_eq_some_iff.mp h
              cases heq
              rw [Json.Place.next] at hnext
              split at hnext
              case isTrue hbackslash =>
                cases hnext
                subst hbackslash
                rw [stringLoop.eq_def]
                simp only
                rw [if_neg (fun h => h.2.1 rfl), if_neg hc34, if_true]
                cases s with
                | nil => cases hs
                | cons e s =>
                    rw [List.length_cons] at hlength
                    rw [Json.stringFrom, if_neg (fun h => Json.Place.noConfusion h.1),
                      Json.Place.next] at hs
                    simp only
                    split at hs
                    case h_1 => cases hs
                    case h_2 place hplace =>
                      obtain ⟨⟨literal, r'⟩, hs', heq⟩ := Option.map_eq_some_iff.mp hs
                      cases heq
                      split at hplace
                      case isTrue hu =>
                        cases hplace
                        obtain ⟨h1, s1, l1, rfl, hh1, rfl, hs1⟩ := Json.stringFrom_hex hs'
                        obtain ⟨h2, s2, l2, rfl, hh2, rfl, hs2⟩ := Json.stringFrom_hex hs1
                        obtain ⟨h3, s3, l3, rfl, hh3, rfl, hs3⟩ := Json.stringFrom_hex hs2
                        obtain ⟨h4, s4, l4, rfl, hh4, rfl, hs4⟩ := Json.stringFrom_hex hs3
                        simp only [List.length_cons] at hlength
                        rw [if_pos hu]
                        simp only [hh1, hh2, hh3, hh4, Bool.and_self, if_true]
                        rw [ih _ (by omega) hs4 rfl, hu]
                        rfl
                      case isFalse hu =>
                        rw [if_neg hu]
                        split at hplace
                        case isFalse => cases hplace
                        case isTrue he =>
                          cases hplace
                          rw [if_pos he, ih _ (by omega) hs' rfl]
                          rfl
              case isFalse hbackslash =>
                split at hnext
                case isTrue => cases hnext
                case isFalse hcontrol =>
                  cases hnext
                  have hzero : c ≠ 0 := by
                    rintro rfl
                    apply hcontrol
                    decide
                  rw [stringLoop.eq_def]
                  simp only
                  rw [if_pos ⟨hc34, hbackslash, hzero⟩, ih _ (by omega) hs rfl]
                  rfl

/-! ### Lists -/

section

variable {α β : Type} {close start : UInt8} {item : Bytes → Option (α × Bytes)}
  {item' : Bytes → Option (β × Bytes)} {g : α → β} {P : α → Bool}

/-- What the grammar reads as an item is read as one by the code, unless it refuses it. -/
def Follows (item : Bytes → Option (α × Bytes)) (item' : Bytes → Option (β × Bytes)) (g : α → β)
    (P : α → Bool) : Prop :=
  ∀ s a r, item s = some (a, r) →
    item' (wsSkip s) = (if P a then some (g a, r) else none) ∧ r.length < (wsSkip s).length

theorem length_wsSkip_le (s : Bytes) :
  (wsSkip s).length ≤ s.length
  := List.length_dropWhile_le _ _

theorem itemLoop_of_sepBy (hitem : Follows item item' g P) (hclose : close ≠ 44) {n : ℕ}
    {s r : Bytes} {l : List α} (h : Json.sepBy close item n s = some (l, r)) {turns : ℕ}
    (hturns : (wsSkip s).length < turns) :
  itemLoop close item' turns (wsSkip s) = if l.all P then some (l.map g, r) else none
  := by
  induction n generalizing s l turns with
  | zero => cases h
  | succ n ih =>
      obtain ⟨turns, rfl⟩ := Nat.exists_eq_add_one_of_ne_zero (Nat.ne_zero_of_lt hturns)
      rw [Json.sepBy] at h
      split at h
      case h_1 => cases h
      case h_2 a t ha =>
        obtain ⟨hread, hshort⟩ := hitem s a t ha
        rw [itemLoop, hread]
        split at h
        case h_1 => cases h
        case h_2 c u hu =>
          have hskip : wsSkip t = c :: u := hu
          have hle := length_wsSkip_le t
          rw [hskip, List.length_cons] at hle
          split at h
          case isTrue hcomma =>
            obtain ⟨⟨l', r'⟩, hrest, heq⟩ := Option.map_eq_some_iff.mp h
            cases heq
            have hle' := length_wsSkip_le u
            have hlast := ih hrest (show (wsSkip u).length < turns by omega)
            cases hP : P a with
            | false => simp [hP]
            | true =>
                simp only [if_true, hskip, peek, List.headD_cons, List.tail_cons, hcomma,
                  hclose.symm, if_false, ne_eq, not_true_eq_false, hlast, List.all_cons, hP,
                  Bool.true_and, id_eq]
                split
                · rfl
                · rfl
          case isFalse hcomma =>
            split at h
            case isFalse => cases h
            case isTrue hend =>
              cases h
              cases hP : P a with
              | false => simp [hP]
              | true => simp [hskip, peek, hend, hP]

theorem decodeItems_of_listOf (hitem : Follows item item' g P) (hclose : close ≠ 44) {depth : ℕ}
    {s r : Bytes} {l : List α} (h : Json.listOf close item s = some (l, r)) :
  decodeItems start close depth item' (start :: s)
    = if depth ≤ maxDepth && l.all P then some (l.map g, r) else none
  := by
  rw [decodeItems]
  by_cases hdepth : maxDepth < depth
  · rw [if_pos (.inr hdepth)]
    simp [Nat.not_le_of_lt hdepth]
  · have hstart : ¬(peek (start :: s) ≠ start ∨ maxDepth < depth) := by
      rintro (hne | hlt)
      · apply hne rfl
      · apply hdepth hlt
    rw [if_neg hstart, List.tail_cons]
    rw [Json.listOf] at h
    split at h
    case h_1 => cases h
    case h_2 c t ht =>
      have hskip : wsSkip s = c :: t := ht
      split at h
      case isTrue hend =>
        cases h
        simp [hskip, peek, hend, Nat.le_of_not_lt hdepth]
      case isFalse hend =>
        have hloop := itemLoop_of_sepBy hitem hclose h (Nat.lt_succ_self (wsSkip s).length)
        simp only
        rw [hloop, hskip, peek, List.headD_cons, if_neg hend]
        simp [Nat.le_of_not_lt hdepth]

end

/-! ### Values -/

mutual

/-- What `load` makes of a value. -/
def read : Json → Rvalue
  | .null => null
  | .boolean value => if value then Rvalue.true else Rvalue.false
  | .number literal => number (ofBytes literal)
  | .string literal => ofLiteral literal
  | .array elements => list (readElements elements)
  | .object members => object (readMembers members)

def readElements : List Json → List Rvalue
  | [] => []
  | v :: elements => read v :: readElements elements

def readMembers : List (Bytes × Json) → List (String × Rvalue)
  | [] => []
  | (name, v) :: members => (ofBytes (unescape name), read v) :: readMembers members

end

def readMember (m : Bytes × Json) : String × Rvalue := (ofBytes (unescape m.1), read m.2)

theorem readElements_eq_map (elements : List Json) :
  readElements elements = elements.map read
  := by
  induction elements with
  | nil => rfl
  | cons v elements ih => rw [readElements, ih, List.map_cons]

theorem readMembers_eq_map (members : List (Bytes × Json)) :
  readMembers members = members.map readMember
  := by
  induction members with
  | nil => rfl
  | cons m members ih => rw [readMembers, ih, List.map_cons, readMember]

mutual

/-- The numbers in a value do not begin with `0e`, and no more than `n` lists and objects are
nested in each other. -/
def readable : ℕ → Json → Bool
  | _, .null => Bool.true
  | _, .boolean _ => Bool.true
  | _, .number literal => !zeroExponent literal
  | _, .string _ => Bool.true
  | 0, .array _ => Bool.false
  | 0, .object _ => Bool.false
  | n + 1, .array elements => readableElements n elements
  | n + 1, .object members => readableMembers n members

def readableElements : ℕ → List Json → Bool
  | _, [] => Bool.true
  | n, v :: elements => readable n v && readableElements n elements

def readableMembers : ℕ → List (Bytes × Json) → Bool
  | _, [] => Bool.true
  | n, (_, v) :: members => readable n v && readableMembers n members

end

theorem readableElements_eq_all (n : ℕ) (elements : List Json) :
  readableElements n elements = elements.all (readable n)
  := by
  induction elements with
  | nil => rfl
  | cons v elements ih => rw [readableElements, ih, List.all_cons]

theorem readableMembers_eq_all (n : ℕ) (members : List (Bytes × Json)) :
  readableMembers n members = members.all fun m => readable n m.2
  := by
  induction members with
  | nil => rfl
  | cons m members ih => rw [readableMembers, ih, List.all_cons]

/-- The code refuses a list that is nested too deeply. -/
theorem decodeItems_of_lt {α : Type} {start close : UInt8} {depth : ℕ} (h : maxDepth < depth)
    (item : Bytes → Option (α × Bytes)) (data : Bytes) :
  decodeItems start close depth item data = none
  := by rw [decodeItems, if_pos (.inr h)]

theorem value_skipSpace (depth : ℕ) (s : Bytes) :
  Json.value depth (Json.skipSpace s) = Json.value depth s
  := by
  cases depth with
  | zero => rfl
  | succ depth =>
      have hskip : Json.skipSpace (Json.skipSpace s) = Json.skipSpace s :=
        List.dropWhile_idempotent _ s
      rw [Json.value, Json.value, hskip]

/-- A member is read when its value is. -/
theorem follows_member {value : Bytes → Option (Json × Bytes)}
    {value' : Bytes → Option (Rvalue × Bytes)} {P : Json → Bool}
    (hvalue : Follows value value' read P) (hshrinks : Json.Shrinks value) :
  Follows (Json.member value) (decodeMember value') readMember (fun m => P m.2)
  := by
  rintro s ⟨name, v⟩ r h
  have hshort : r.length < (wsSkip s).length := by
    have hskip : Json.member value (wsSkip s) = Json.member value s := by
      have hidem : Json.skipSpace (wsSkip s) = Json.skipSpace s :=
        List.dropWhile_idempotent _ s
      rw [Json.member, Json.member, hidem]
    apply Json.shrinks_member hshrinks _ _ _ (hskip.trans h)
  refine ⟨?_, hshort⟩
  rw [Json.member] at h
  split at h
  case h_1 => cases h
  case h_2 c t ht =>
    have hskip : wsSkip s = c :: t := ht
    split at h
    case isFalse => cases h
    case isTrue hquote =>
      split at h
      case h_1 => cases h
      case h_2 name' u hname =>
        split at h
        case h_1 => cases h
        case h_2 c' u' hu =>
          have hskip' : wsSkip u = c' :: u' := hu
          split at h
          case isFalse => cases h
          case isTrue hcolon =>
            obtain ⟨⟨v', r'⟩, hv, heq⟩ := Option.map_eq_some_iff.mp h
            cases heq
            have hstring : decodeString (wsSkip s) = some (name, u) := by
              rw [decodeString, hskip, hquote]
              apply stringLoop_of_stringFrom hname
            rw [decodeMember, hstring]
            simp only [hskip', peek, List.headD_cons, hcolon, ne_eq, not_true_eq_false, if_false,
              List.tail_cons, (hvalue u' v r' hv).1]
            split
            · rfl
            · rfl

/-- A word or a number is read unless the number begins with `0e`. -/
theorem decodeValue_of_readScalar {c : UInt8} {s r : Bytes} {v : Json}
    (h : Json.readScalar (c :: s) = some (v, r)) (hbrace : c ≠ 123) (hbracket : c ≠ 91)
    (hquote : c ≠ 34) (n fuel depth : ℕ) :
  decodeValue (fuel + 1) depth (c :: s) = if readable n v then some (read v, r) else none
  := by
  have hword : ∀ {word : Bytes} {d : UInt8}, word.head? = some d →
      word.isPrefixOf (c :: s) = Bool.true → c = d := by
    rintro (_ | ⟨d', word⟩) d hhead hstart
    · cases hhead
    · cases hhead
      rw [List.isPrefixOf, Bool.and_eq_true, beq_iff_eq] at hstart
      rw [hstart.1]
  rw [decodeValue, peek, List.headD_cons, if_neg hbracket, if_neg hbrace, if_neg hquote]
  rw [Json.readScalar] at h
  split at h
  case isTrue hnull =>
    cases h
    obtain rfl := hword (d := 110) rfl hnull
    rw [if_neg (by decide), if_neg (by decide), if_pos rfl, if_pos hnull, readable, if_pos rfl,
      read]
  case isFalse =>
    split at h
    case isTrue htrue =>
      cases h
      obtain rfl := hword (d := 116) rfl htrue
      rw [if_pos rfl, if_pos htrue, readable, if_pos rfl, read, if_pos rfl]
    case isFalse =>
      split at h
      case isTrue hfalse =>
        cases h
        obtain rfl := hword (d := 102) rfl hfalse
        rw [if_neg (by decide), if_pos rfl, if_pos hfalse, readable, if_pos rfl, read,
          if_neg Bool.false_ne_true]
      case isFalse =>
        have hc : Json.isNumberChar c = Bool.true := by
          rw [Json.readNumber] at h
          split at h
          case isFalse => cases h
          case isTrue hnumber =>
            by_contra hnot
            rw [List.takeWhile_cons_of_neg hnot] at hnumber
            cases hnumber
        have hne : ∀ d, Json.isNumberChar d = Bool.false → c ≠ d := by
          rintro d hd rfl
          exact Bool.false_ne_true (hd.symm.trans hc)
        obtain ⟨literal, rfl, hloop⟩ := numberLoop_readNumber h
        rw [if_neg (hne 116 rfl), if_neg (hne 102 rfl), if_neg (hne 110 rfl), hloop, readable]
        cases zeroExponent literal with
        | true => rfl
        | false => rfl

/-- A value of JSON is read, unless the code refuses it. The induction is on the depth of the
grammar, and each list or object takes two from the depth of the code. -/
theorem decodeValue_of_value {d n fuel depth : ℕ} {s r : Bytes} {v : Json}
    (h : Json.value d s = some (v, r)) (hdepth : depth + 2 * n = maxDepth) (hfuel : n < fuel) :
  decodeValue fuel depth (wsSkip s) = if readable n v then some (read v, r) else none
  := by
  induction d generalizing n fuel depth s r v with
  | zero => cases h
  | succ d ih =>
      obtain ⟨fuel, rfl⟩ := Nat.exists_eq_add_one_of_ne_zero (Nat.ne_zero_of_lt hfuel)
      have hfollows : ∀ m, n = m + 1 →
          Follows (Json.value d) (decodeValue fuel (depth + 2)) read (readable m) := by
        intro m hm t a u ha
        refine ⟨ih ha (by omega) (by omega), ?_⟩
        apply Json.shrinks_value d _ _ _ ((value_skipSpace d t).trans ha)
      rw [Json.value] at h
      split at h
      case h_1 => cases h
      case h_2 c t ht =>
        have hskip : wsSkip s = c :: t := ht
        rw [hskip]
        split at h
        case isTrue hbrace =>
          obtain ⟨⟨members, r'⟩, hlist, heq⟩ := Option.map_eq_some_iff.mp h
          cases heq
          subst hbrace
          rw [decodeValue, peek, List.headD_cons, if_neg (by decide), if_pos rfl]
          cases n with
          | zero =>
              rw [decodeItems_of_lt (by omega), readable, if_neg Bool.false_ne_true]
              rfl
          | succ n =>
              have hmember := follows_member (hfollows n rfl) (Json.shrinks_value d)
              rw [decodeItems_of_listOf hmember (by decide) hlist, readable,
                readableMembers_eq_all, read, readMembers_eq_map,
                decide_eq_true (show depth + 1 ≤ maxDepth by omega), Bool.true_and]
              split
              · rfl
              · rfl
        case isFalse hbrace =>
          split at h
          case isTrue hbracket =>
            obtain ⟨⟨elements, r'⟩, hlist, heq⟩ := Option.map_eq_some_iff.mp h
            cases heq
            subst hbracket
            rw [decodeValue, peek, List.headD_cons, if_pos rfl]
            cases n with
            | zero =>
                rw [decodeItems_of_lt (by omega), readable, if_neg Bool.false_ne_true]
                rfl
            | succ n =>
                rw [decodeItems_of_listOf (hfollows n rfl) (by decide) hlist, readable,
                  readableElements_eq_all, read, readElements_eq_map,
                  decide_eq_true (show depth + 1 ≤ maxDepth by omega), Bool.true_and]
                split
                · rfl
                · rfl
          case isFalse hbracket =>
            split at h
            case isTrue hquote =>
              obtain ⟨⟨literal, r'⟩, hliteral, heq⟩ := Option.map_eq_some_iff.mp h
              cases heq
              subst hquote
              have hstring : decodeString (34 :: t) = some (literal, r') :=
                stringLoop_of_stringFrom hliteral
              rw [decodeValue, peek, List.headD_cons, if_neg (by decide), if_neg (by decide),
                if_pos rfl, hstring, readable, if_pos rfl, read]
              rfl
            case isFalse hquote =>
              apply decodeValue_of_readScalar h hbrace hbracket hquote

theorem load_of_value {d : ℕ} {s r : Bytes} {v : Json} (h : Json.value d s = some (v, r))
    (hend : Json.skipSpace r = []) :
  load s = if readable 5000 v then some (read v) else none
  := by
  have hskip : wsSkip r = [] := hend
  have hread : decodeValue (maxDepth + 1) 0 (wsSkip s)
      = if readable 5000 v then some (read v, r) else none :=
    decodeValue_of_value h (by decide) (by decide)
  rw [load, hread]
  cases readable 5000 v with
  | false => rfl
  | true =>
      simp only [if_true, Option.bind_some, hskip]
      rfl

/-! ### What a text stands for -/

mutual

/-- The value that a value of JSON stands for, if its strings stand for texts. -/
def ofJson : Json → Option Rvalue
  | .null => some null
  | .boolean value => some (if value then Rvalue.true else Rvalue.false)
  | .number literal => some (number (ofBytes literal))
  | .string literal =>
      (Json.decode literal).map fun text => string (ofBytes literal) (ofBytes text)
  | .array elements => (ofElements elements).map list
  | .object members => (ofMembers members).map object

def ofElements : List Json → Option (List Rvalue)
  | [] => some []
  | v :: elements => (ofJson v).bind fun w => (ofElements elements).map (w :: ·)

def ofMembers : List (Bytes × Json) → Option (List (String × Rvalue))
  | [] => some []
  | (name, v) :: members =>
      (Json.decode name).bind fun key =>
        (ofJson v).bind fun w => (ofMembers members).map ((ofBytes key, w) :: ·)

end

theorem bytes_ofBytes (s : Bytes) :
  bytes (ofBytes s) = s
  := by
  have hchar : ∀ c : UInt8, (Char.ofNat c.toNat).toUInt8 = c := by
    intro c
    have hlt := c.toNat_lt
    have hvalid : c.toNat.isValidChar := Or.inl (by omega)
    have hval : (Char.ofNat c.toNat).val.toNat = c.toNat := Json.toNat_ofNat hvalid
    apply UInt8.toNat_inj.mp
    rw [Char.toUInt8, UInt32.toNat_toUInt8, hval]
    omega
  rw [bytes, ofBytes, String.toList_ofList, List.map_map]
  apply (List.map_congr_left fun c _ => hchar c).trans
  apply List.map_id

theorem ofBytes_inj {s t : Bytes} :
  ofBytes s = ofBytes t ↔ s = t
  := by
  constructor
  · intro h
    rw [← bytes_ofBytes s, h, bytes_ofBytes]
  · exact congrArg ofBytes

/-! ### Escaped characters -/

theorem fromHex_eq {c : UInt8} (h : isHexDigit c = Bool.true) :
  fromHex c = Json.hexValue c
  := by
  simp only [isHexDigit, isDigit, Bool.or_eq_true, Bool.and_eq_true, decide_eq_true_eq,
    UInt8.le_iff_toNat_le, UInt8.reduceToNat] at h
  simp only [fromHex, Json.hexValue, isDigit, Bool.and_eq_true, decide_eq_true_eq,
    UInt8.le_iff_toNat_le, UInt8.reduceToNat]
  split
  · rw [if_neg (by omega)]
    omega
  · split
    · rw [if_neg (by omega)]
      omega
    · rw [if_pos (by omega)]

theorem fromHex_hexUnit {a b c d : UInt8} (ha : isHexDigit a = Bool.true)
    (hb : isHexDigit b = Bool.true) (hc : isHexDigit c = Bool.true)
    (hd : isHexDigit d = Bool.true) :
  fromHex a <<< 12 + fromHex b <<< 8 + fromHex c <<< 4 + fromHex d
    = (Json.hexUnit a b c d).toNat
  := by
  rw [Json.toNat_hexUnit ha hb hc hd, fromHex_eq ha, fromHex_eq hb, fromHex_eq hc, fromHex_eq hd]
  simp only [Nat.shiftLeft_eq]
  omega

/-- The first byte of a character and the number in it share no bits. -/
theorem or_eq_add {x : ℕ} :
  (x < 2 ^ 5 → 0xE0 ||| x = 0xE0 + x) ∧ (x < 2 ^ 5 → 0xC0 ||| x = 0xC0 + x)
    ∧ (x < 2 ^ 6 → 0x80 ||| x = 0x80 + x)
  := by
  refine ⟨?_, ?_, ?_⟩
  · intro h
    exact (Nat.two_pow_add_eq_or_of_lt h 7).symm
  · intro h
    exact (Nat.two_pow_add_eq_or_of_lt h 6).symm
  · intro h
    exact (Nat.two_pow_add_eq_or_of_lt h 2).symm

/-- The bytes of `unescape`, without bits. -/
theorem encodeCode_eq_ite (code : ℕ) (h : code < 0x10000) :
  encodeCode code
    = if 0x800 ≤ code then
        [UInt8.ofNat (0xE0 + code / 4096), UInt8.ofNat (0x80 + code / 64 % 64),
          UInt8.ofNat (0x80 + code % 64)]
      else if 0x80 ≤ code then [UInt8.ofNat (0xC0 + code / 64), UInt8.ofNat (0x80 + code % 64)]
      else [UInt8.ofNat code]
  := by
  have hmask : ∀ n, n &&& 0x3F = n % 64 := fun n => Nat.and_two_pow_sub_one_eq_mod n 6
  have hlow : ∀ n, 0x80 ||| n % 64 = 0x80 + n % 64 := fun n => or_eq_add.2.2 (by omega)
  rw [encodeCode]
  simp only [hmask, hlow, Nat.shiftRight_eq_div_pow]
  split
  · rw [or_eq_add.1 (by omega)]
  · split
    · rw [or_eq_add.2.1 (by omega)]
    · rfl

/-- A unit that is no surrogate is written as the character that it is. -/
theorem encodeCode_eq (u : UInt16) (hhigh : Json.isHigh u = Bool.false)
    (hlow : Json.isLow u = Bool.false) :
  encodeCode u.toNat = Json.utf8 u.toNat
  := by
  have hlt := u.toNat_lt
  simp only [Json.isHigh, Json.isLow, Bool.and_eq_false_iff, decide_eq_false_iff_not,
    UInt16.le_iff_toNat_le, UInt16.lt_iff_toNat_lt, UInt16.reduceToNat] at hhigh hlow
  have hvalid : u.toNat.isValidChar := by
    by_cases hle : u.toNat < 0xD800
    · exact Or.inl hle
    · exact Or.inr ⟨by omega, by omega⟩
  rw [encodeCode_eq_ite _ (by omega), Json.utf8, String.utf8EncodeChar, Json.toNat_ofNat hvalid]
  split
  · rw [if_neg (by omega), if_neg (by omega), if_pos (by omega),
      Nat.mod_eq_of_lt (show u.toNat / 4096 < 0x10 by omega), Nat.add_comm 0xE0,
      Nat.add_comm 0x80, Nat.add_comm 0x80]
  · split
    · rw [if_neg (by omega), if_pos (by omega),
        Nat.mod_eq_of_lt (show u.toNat / 64 < 0x20 by omega), Nat.add_comm 0xC0,
        Nat.add_comm 0x80]
    · rw [if_pos (by omega)]

/-- A surrogate is written with three bytes. -/
theorem head?_encodeCode (u : UInt16) (h : Json.isHigh u = Bool.true) :
  ∃ b, (encodeCode u.toNat).head? = some b ∧ b < 0xF0
  := by
  have hlt := u.toNat_lt
  simp only [Json.isHigh, Bool.and_eq_true, decide_eq_true_eq, UInt16.le_iff_toNat_le,
    UInt16.lt_iff_toNat_lt, UInt16.reduceToNat] at h
  have hshift : u.toNat >>> 12 = 13 := by
    rw [Nat.shiftRight_eq_div_pow]
    omega
  rw [encodeCode, if_pos (by omega), hshift]
  exact ⟨_, List.head?_cons, by decide⟩

theorem unescapeLoop_of_notMem {s : Bytes} (h : 92 ∉ s) :
  unescapeLoop s = s
  := by
  induction s with
  | nil => rfl
  | cons c s ih =>
      rw [List.mem_cons, not_or] at h
      rw [unescapeLoop.eq_def]
      simp only
      rw [if_neg (Ne.symm h.1), ih h.2]

theorem unescape_eq (literal : Bytes) :
  unescape literal = unescapeLoop literal
  := by
  rw [unescape]
  split
  case isTrue => rfl
  case isFalse h =>
    rw [List.contains_iff_mem] at h
    rw [unescapeLoop_of_notMem h]

/-- The letters behind a backslash, and what they stand for. -/
theorem unescapeLoop_letter {e b : UInt8} (h : (e, b) ∈ Json.letters) (s : Bytes) :
  unescapeLoop (92 :: e :: s) = b :: unescapeLoop s
  := by
  rw [unescapeLoop.eq_def]
  simp only [Json.letters, List.mem_cons, List.not_mem_nil, or_false, Prod.mk.injEq] at h
  obtain ⟨rfl, rfl⟩ | ⟨rfl, rfl⟩ | ⟨rfl, rfl⟩ | ⟨rfl, rfl⟩ | ⟨rfl, rfl⟩ | ⟨rfl, rfl⟩ | ⟨rfl, rfl⟩
    | ⟨rfl, rfl⟩ := h
  all_goals rfl

/-- The loop writes each part for itself. -/
theorem unescapeLoop_of_spells {s : Bytes} {ps : List Json.Part} (h : Json.Spells s ps) :
  unescapeLoop s = ps.flatMap (Json.Part.bytes fun u => encodeCode u.toNat)
  := by
  induction h with
  | nil => rfl
  | plain hc h ih =>
      rw [unescapeLoop.eq_def]
      simp only
      rw [if_neg hc, ih, List.flatMap_cons, Json.Part.bytes, List.singleton_append]
  | letter he h ih =>
      rw [unescapeLoop_letter he, ih, List.flatMap_cons, Json.Part.bytes, List.singleton_append]
  | unit ha hb hc hd h ih =>
      have hunit : ∀ {a b c d : UInt8} {s : Bytes},
          unescapeLoop (92 :: 117 :: a :: b :: c :: d :: s)
            = encodeCode (fromHex a <<< 12 + fromHex b <<< 8 + fromHex c <<< 4 + fromHex d)
              ++ unescapeLoop s := by
        intro a b c d s
        rw [unescapeLoop.eq_def]
        rfl
      rw [hunit, ih, fromHex_hexUnit ha hb hc hd, List.flatMap_cons, Json.Part.bytes]

/-- A literal is read as the text it stands for exactly where no surrogate is escaped in it. -/
theorem decode_eq_unescape_iff {literal : Bytes} {ps : List Json.Part}
    (h : Json.Spells literal ps) :
  Json.decode literal = some (unescape literal) ↔ Json.hasSurrogate literal = Bool.false
  := by
  rw [unescape_eq, unescapeLoop_of_spells h, Json.decode, Json.hasSurrogate, h.parts_eq,
    Option.bind_some, Option.any_some]
  apply Json.decodeParts_eq_flatMap_iff encodeCode_eq head?_encodeCode

/-! ### Values -/

theorem ofElements_eq_iff (elements : List Json) :
  ofElements elements = some (readElements elements)
    ↔ ∀ v ∈ elements, ofJson v = some (read v)
  := by
  induction elements with
  | nil => simp [ofElements, readElements]
  | cons v elements ih =>
      rw [ofElements, readElements, List.forall_mem_cons, ← ih]
      cases ofJson v with
      | none => simp
      | some w => simp [Option.map_eq_some_iff, and_comm]

theorem ofMembers_eq_iff (members : List (Bytes × Json)) :
  ofMembers members = some (readMembers members)
    ↔ ∀ m ∈ members, Json.decode m.1 = some (unescape m.1) ∧ ofJson m.2 = some (read m.2)
  := by
  induction members with
  | nil => simp [ofMembers, readMembers]
  | cons m members ih =>
      rw [ofMembers, readMembers, List.forall_mem_cons, ← ih]
      cases Json.decode m.1 with
      | none => simp
      | some key =>
          cases ofJson m.2 with
          | none => simp
          | some w =>
              simp only [Option.bind_some, Option.map_eq_some_iff, List.cons.injEq, Prod.mk.injEq,
                ofBytes_inj, Option.some.injEq]
              grind

/-- What is read of a value is what it stands for exactly where no surrogate is escaped in its
strings. -/
theorem ofJson_eq_read_iff {v : Json} (h : v.Spelled) :
  ofJson v = some (read v) ↔ ∀ literal ∈ v.strings, Json.hasSurrogate literal = Bool.false
  := by
  induction h with
  | null => simp [ofJson, read, Json.strings]
  | boolean value => simp [ofJson, read, Json.strings]
  | number literal => simp [ofJson, read, Json.strings]
  | @string literal ps h =>
      rw [Json.strings, List.forall_mem_singleton, ← decode_eq_unescape_iff h, ofJson, read,
        ofLiteral, Option.map_eq_some_iff]
      simp [ofBytes_inj]
  | @array elements h ih =>
      have helements : ofJson (.array elements) = some (read (.array elements))
          ↔ ofElements elements = some (readElements elements) := by
        simp [ofJson, read, Option.map_eq_some_iff]
      rw [helements, ofElements_eq_iff, Json.strings_array, List.forall_mem_flatMap]
      apply forall₂_congr ih
  | @object members hname hvalue ih =>
      have hmembers : ofJson (.object members) = some (read (.object members))
          ↔ ofMembers members = some (readMembers members) := by
        simp [ofJson, read, Option.map_eq_some_iff]
      rw [hmembers, ofMembers_eq_iff, Json.strings_object, List.forall_mem_flatMap]
      apply forall₂_congr
      intro m hm
      obtain ⟨ps, hps⟩ := hname m hm
      rw [List.forall_mem_cons, decode_eq_unescape_iff hps, ih m hm]

/-- The text of a value of JSON is read, unless it has a number that begins with `0e` or more
than five thousand lists and objects are nested in each other in it. What is read is the value
that the text stands for exactly where no surrogate is escaped in it. -/
theorem load_of_parse {s : Bytes} {v : Json} (h : Json.parse s = some v) :
  (load s = none ↔ readable 5000 v = Bool.false)
    ∧ ∀ w, load s = some w →
      (ofJson v = some w ↔ ∀ literal ∈ v.strings, Json.hasSurrogate literal = Bool.false)
  := by
  obtain ⟨⟨v', r⟩, hvalue, hend⟩ := Option.bind_eq_some_iff.mp h
  split at hend
  case isFalse => cases hend
  case isTrue hempty =>
    obtain rfl := Option.some.inj hend
    rw [load_of_value hvalue (List.isEmpty_iff.mp hempty)]
    cases readable 5000 v' with
    | false =>
        refine ⟨by simp, ?_⟩
        intro w hw
        cases hw
    | true =>
        refine ⟨by simp, ?_⟩
        intro w hw
        obtain rfl := Option.some.inj hw
        apply ofJson_eq_read_iff (Json.spelled_value hvalue)

namespace Sample

/-- The literal of U+1F600, as a pair of surrogates. -/
def surrogates : Bytes := [92, 117, 100, 56, 51, 100, 92, 117, 100, 101, 48, 48]

/-- A list that is read, one with a number that begins with `0e`, and a string with a pair of
surrogates, which is not read as one character. -/
theorem load_of_parse_list :
  load (bytes "[null, \"\\n\"] ") ≠ none ∧ load (bytes "[0e1]") = none
    ∧ ∀ w, load (34 :: surrogates ++ [34]) = some w → ofJson (.string surrogates) ≠ some w
  := by
  have hread : Json.parse (bytes "[null, \"\\n\"] ")
      = some (.array [.null, .string [92, 110]]) := by rfl
  have hzero : Json.parse (bytes "[0e1]") = some (.array [.number [48, 101, 49]]) := by rfl
  have hpair : Json.parse (34 :: surrogates ++ [34]) = some (.string surrogates) := by rfl
  refine ⟨?_, ?_, ?_⟩
  · have hreadable : readable 5000 (.array [.null, .string [92, 110]]) = Bool.true := rfl
    rw [ne_eq, (load_of_parse hread).1, hreadable]
    exact Bool.noConfusion
  · have hreadable : readable 5000 (.array [.number [48, 101, 49]]) = Bool.false := rfl
    apply (load_of_parse hzero).1.mpr hreadable
  · intro w hw
    have hsurrogate : Json.hasSurrogate surrogates = Bool.true := rfl
    rw [ne_eq, (load_of_parse hpair).2 w hw, Json.strings, List.forall_mem_singleton,
      hsurrogate]
    exact Bool.noConfusion

end Sample

end Rvalue

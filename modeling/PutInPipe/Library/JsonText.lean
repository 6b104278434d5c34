import PutInPipe.Library.Json

/-!
# The texts of JSON

`Json.text` writes a value without blanks. What is written is read as the value again
(`parse_text`), provided that the literals in the value are those of numbers and of strings.
-/

open Text (Bytes)

namespace Json

mutual

def text : Json → Bytes
  | .null => nullWord
  | .boolean value => if value then trueWord else falseWord
  | .number literal => literal
  | .string literal => 34 :: (literal ++ [34])
  | .array elements => 91 :: ([44].intercalate (texts elements) ++ [93])
  | .object members => 123 :: ([44].intercalate (memberTexts members) ++ [125])

def texts : List Json → List Bytes
  | [] => []
  | v :: elements => text v :: texts elements

def memberTexts : List (Bytes × Json) → List Bytes
  | [] => []
  | (name, v) :: members => (34 :: (name ++ 34 :: 58 :: text v)) :: memberTexts members

end

def memberText (m : Bytes × Json) : Bytes := 34 :: (m.1 ++ 34 :: 58 :: text m.2)

theorem texts_eq_map (elements : List Json) :
  texts elements = elements.map text
  := by
  induction elements with
  | nil => rfl
  | cons v elements ih => rw [texts, ih, List.map_cons]

theorem memberTexts_eq_map (members : List (Bytes × Json)) :
  memberTexts members = members.map memberText
  := by
  induction members with
  | nil => rfl
  | cons m members ih => rw [memberTexts, ih, List.map_cons, memberText]

theorem text_array (elements : List Json) :
  text (.array elements) = 91 :: ([44].intercalate (elements.map text) ++ [93])
  := by rw [text, texts_eq_map]

theorem text_object (members : List (Bytes × Json)) :
  text (.object members) = 123 :: ([44].intercalate (members.map memberText) ++ [125])
  := by rw [text, memberTexts_eq_map]

/-- The literals in a value can be read. -/
inductive WellFormed : Json → Prop
  | null : WellFormed .null
  | boolean (value : Bool) : WellFormed (.boolean value)
  | number {literal : Bytes} (h : NumberLiteral literal) : WellFormed (.number literal)
  | string {literal : Bytes} (h : Whole literal) : WellFormed (.string literal)
  | array {elements : List Json} (h : ∀ v ∈ elements, WellFormed v) : WellFormed (.array elements)
  | object {members : List (Bytes × Json)} (hname : ∀ m ∈ members, Whole m.1)
      (hvalue : ∀ m ∈ members, WellFormed m.2) : WellFormed (.object members)

/-! ### Lists of pieces -/

section

variable {α : Type} {close : UInt8} {item : Bytes → Option (α × Bytes)} {f : α → Bytes}
  {l : List α}

theorem length_le_intercalate (l : List Bytes) :
  l.length ≤ ([44].intercalate l).length + 1
  := by
  induction l with
  | nil => apply Nat.zero_le
  | cons piece l ih =>
      cases l with
      | nil => apply Nat.succ_le_succ (Nat.zero_le _)
      | cons piece' l =>
          rw [List.intercalate_cons_cons, List.length_cons, List.length_append, List.length_append,
            List.length_singleton]
          omega

/-- A piece is at most as long as all of them. -/
theorem length_le_of_mem_intercalate {piece : Bytes} {l : List Bytes} (h : piece ∈ l) :
  piece.length ≤ ([44].intercalate l).length
  := by
  induction l with
  | nil => cases h
  | cons piece' l ih =>
      cases l with
      | nil =>
          rw [List.mem_singleton.mp h, List.intercalate_singleton]
      | cons piece'' l =>
          rw [List.intercalate_cons_cons, List.length_append, List.length_append]
          obtain rfl | hl := List.mem_cons.mp h
          · omega
          · have hrest := ih hl
            omega

/-- Pieces that are read one by one are read with commas between them. -/
theorem sepBy_intercalate (hclose : close = 93 ∨ close = 125)
    (hitem : ∀ a ∈ l, ∀ r, Ends r → item (f a ++ r) = some (a, r)) (hne : l ≠ []) {n : ℕ}
    (hn : l.length ≤ n) (r : Bytes) :
  sepBy close item n ([44].intercalate (l.map f) ++ close :: r) = some (l, r)
  := by
  induction l generalizing n with
  | nil => exact absurd rfl hne
  | cons a l ih =>
      obtain ⟨ha, hl⟩ := List.forall_mem_cons.mp hitem
      obtain ⟨n, rfl⟩ := Nat.exists_eq_add_one_of_ne_zero (Nat.ne_zero_of_lt hn)
      cases l with
      | nil =>
          have hread : item (f a ++ close :: r) = some (a, close :: r) := by
            apply ha
            obtain rfl | rfl := hclose
            · apply ends_cons rfl
            · apply ends_cons rfl
          rw [List.map_singleton, List.intercalate_singleton, sepBy, hread]
          obtain rfl | rfl := hclose
          · rfl
          · rfl
      | cons b l =>
          have hrest := ih hl (List.cons_ne_nil _ _) (Nat.le_of_succ_le_succ hn)
          rw [List.map_cons, List.map_cons, List.intercalate_cons_cons, List.append_assoc,
            List.append_assoc, sepBy, List.singleton_append, ha _ (ends_cons rfl _)]
          simp only
          rw [skipSpace_cons rfl]
          simp only [if_true]
          rw [← List.map_cons, hrest]
          rfl

theorem listOf_intercalate (hclose : close = 93 ∨ close = 125)
    (hitem : ∀ a ∈ l, ∀ r, Ends r → item (f a ++ r) = some (a, r))
    (hstart : ∀ a ∈ l, ∃ c s, f a = c :: s ∧ isSpace c = false ∧ c ≠ close) (r : Bytes) :
  listOf close item ([44].intercalate (l.map f) ++ close :: r) = some (l, r)
  := by
  cases l with
  | nil =>
      obtain rfl | rfl := hclose
      · rfl
      · rfl
  | cons a l =>
      have hlength := length_le_intercalate ((a :: l).map f)
      have hsep : ∀ n, (a :: l).length ≤ n →
          sepBy close item n ([44].intercalate ((a :: l).map f) ++ close :: r) = some (a :: l, r) :=
        fun n hn => sepBy_intercalate hclose hitem (List.cons_ne_nil _ _) hn r
      obtain ⟨c, s, hfa, hspace, hne⟩ := hstart a List.mem_cons_self
      have hcons : ∃ s', [44].intercalate ((a :: l).map f) = c :: s' := by
        rw [List.map_cons, hfa]
        cases l with
        | nil => exact ⟨s, List.intercalate_singleton⟩
        | cons b l => exact ⟨_, List.intercalate_cons_cons⟩
      obtain ⟨s', hs'⟩ := hcons
      rw [listOf, hs', List.cons_append, skipSpace_cons hspace]
      simp only
      rw [if_neg hne, ← List.cons_append, ← hs']
      apply hsep
      rw [List.length_append]
      rw [List.length_map] at hlength
      omega

end

/-! ### Reading what is written -/

/-- The text of a value begins with something that is neither blank nor a closing bracket. -/
theorem WellFormed.exists_cons {v : Json} (h : v.WellFormed) :
  ∃ c s, text v = c :: s ∧ isSpace c = false ∧ c ≠ 93
  := by
  cases h with
  | null => exact ⟨110, _, rfl, rfl, by decide⟩
  | boolean value =>
      cases value with
      | true => exact ⟨116, _, rfl, rfl, by decide⟩
      | false => exact ⟨102, _, rfl, rfl, by decide⟩
  | number h =>
      obtain ⟨c, s, rfl, hc⟩ := h.exists_cons
      exact ⟨c, s, by rw [text], not_isSpace_of_isNumberChar hc, not_isNumberChar hc rfl⟩
  | string h => exact ⟨34, _, by rw [text], rfl, by decide⟩
  | array h => exact ⟨91, _, text_array _, rfl, by decide⟩
  | object hname hvalue => exact ⟨123, _, text_object _, rfl, by decide⟩

theorem value_string {literal : Bytes} (h : Whole literal) (depth : ℕ) (r : Bytes) :
  value (depth + 1) (34 :: (literal ++ 34 :: r)) = some (.string literal, r)
  := by
  rw [value, skipSpace_cons rfl]
  simp only
  rw [if_neg (by decide), if_neg (by decide), if_true, h.stringFrom_eq]
  rfl

theorem value_array {elements : List Json} (h : ∀ v ∈ elements, v.WellFormed) {depth : ℕ}
    (hvalue : ∀ v ∈ elements, ∀ r, Ends r → value depth (text v ++ r) = some (v, r))
    (r : Bytes) :
  value (depth + 1) (91 :: ([44].intercalate (elements.map text) ++ 93 :: r))
    = some (.array elements, r)
  := by
  rw [value, skipSpace_cons rfl]
  simp only
  rw [if_neg (by decide), if_true,
    listOf_intercalate (.inl rfl) hvalue fun v hv => (h v hv).exists_cons]
  rfl

theorem member_memberText {m : Bytes × Json} (hname : Whole m.1) {depth : ℕ} {r : Bytes}
    (hvalue : value depth (text m.2 ++ r) = some (m.2, r)) :
  member (value depth) (memberText m ++ r) = some (m, r)
  := by
  rw [memberText, List.cons_append, List.append_assoc, List.cons_append, List.cons_append]
  apply member_of_value hname hvalue

theorem value_object {members : List (Bytes × Json)} (hname : ∀ m ∈ members, Whole m.1) {depth : ℕ}
    (hvalue : ∀ m ∈ members, ∀ r, Ends r → value depth (text m.2 ++ r) = some (m.2, r))
    (r : Bytes) :
  value (depth + 1) (123 :: ([44].intercalate (members.map memberText) ++ 125 :: r))
    = some (.object members, r)
  := by
  have hmember : ∀ m ∈ members, ∀ r, Ends r →
      member (value depth) (memberText m ++ r) = some (m, r) :=
    fun m hm r hr => member_memberText (hname m hm) (hvalue m hm r hr)
  have hstart : ∀ m ∈ members, ∃ c s, memberText m = c :: s ∧ isSpace c = false ∧ c ≠ 125 :=
    fun m _ => ⟨34, _, rfl, rfl, by decide⟩
  rw [value, skipSpace_cons rfl]
  simp only
  rw [if_true, listOf_intercalate (.inr rfl) hmember hstart]
  rfl

theorem WellFormed.length_pos {v : Json} (h : v.WellFormed) :
  0 < (text v).length
  := by
  obtain ⟨c, s, htext, _⟩ := h.exists_cons
  rw [htext]
  apply Nat.succ_pos

/-- What is inside of brackets is shorter. -/
theorem length_lt_of_mem {piece : Bytes} {pieces : List Bytes} {c close : UInt8} {depth : ℕ}
    (hpiece : piece ∈ pieces) (h : (c :: ([44].intercalate pieces ++ [close])).length ≤ depth + 1) :
  piece.length < depth
  := by
  have hle := length_le_of_mem_intercalate hpiece
  rw [List.length_cons, List.length_append, List.length_singleton] at h
  omega

theorem length_lt_memberText (m : Bytes × Json) :
  (text m.2).length < (memberText m).length
  := by
  simp only [memberText, List.length_cons, List.length_append]
  omega

/-- A value is read from its text, whatever it is followed by. The depth of a value is at most
the length of its text. -/
theorem WellFormed.value_text {v : Json} (h : v.WellFormed) {depth : ℕ}
    (hdepth : (text v).length ≤ depth) {r : Bytes} (hr : Ends r) :
  value depth (text v ++ r) = some (v, r)
  := by
  obtain ⟨depth, rfl⟩ := Nat.exists_eq_add_one_of_ne_zero
    (Nat.ne_zero_of_lt (Nat.lt_of_lt_of_le h.length_pos hdepth))
  induction h generalizing depth r with
  | null => rfl
  | boolean value =>
      cases value with
      | true => rfl
      | false => rfl
  | number h =>
      rw [text]
      apply h.value_eq hr
  | string h =>
      rw [text, List.cons_append, List.append_assoc, List.singleton_append]
      apply value_string h
  | array h ih =>
      rw [text_array] at hdepth ⊢
      rw [List.cons_append, List.append_assoc, List.singleton_append]
      apply value_array h
      intro v hv r hr
      have hlt := length_lt_of_mem (List.mem_map_of_mem hv) hdepth
      obtain ⟨depth, rfl⟩ := Nat.exists_eq_add_one_of_ne_zero (Nat.ne_zero_of_lt hlt)
      apply ih v hv hr
      apply Nat.le_of_lt hlt
  | object hname hvalue ih =>
      rw [text_object] at hdepth ⊢
      rw [List.cons_append, List.append_assoc, List.singleton_append]
      apply value_object hname
      intro m hm r hr
      have hlt := Nat.lt_trans (length_lt_memberText m)
        (length_lt_of_mem (List.mem_map_of_mem hm) hdepth)
      obtain ⟨depth, rfl⟩ := Nat.exists_eq_add_one_of_ne_zero (Nat.ne_zero_of_lt hlt)
      apply ih m hm hr
      apply Nat.le_of_lt hlt

/-- Writing and reading again. -/
theorem WellFormed.parse_text {v : Json} (h : v.WellFormed) :
  parse (text v) = some v
  := by
  have hread := h.value_text (Nat.le_succ _) (r := []) (by rintro _ ⟨⟩)
  rw [List.append_nil] at hread
  rw [parse, hread]
  rfl

end Json

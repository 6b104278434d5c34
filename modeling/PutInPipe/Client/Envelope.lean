import PutInPipe.Library.JsonText
import PutInPipe.Server.Json
import PutInPipe.Session.Basic

/-!
# The events as they are sent

An event is dumped as the text of a JSON object. An event that has to be acknowledged gets a
number: `sendTextWithAck` writes it into the text, behind the opening brace. The result is read
as the object of the event with one member more, whatever else is in it.
-/

open Text (Bytes)
open Json (NumberLiteral Whole)

/-- `crow::json::wvalue`. Of a floating-point number there is the text that `snprintf` makes of
it, unless it is not finite. The fields of an object are in the order of its container. -/
inductive Wvalue where
  | null
  | boolean (value : Bool)
  | signed (n : Int64)
  | unsigned (n : UInt64)
  | floating (outbuf : Option Bytes)
  | string (s : Bytes)
  | list (elements : List Wvalue)
  | object (fields : List (Bytes × Wvalue))
  | function

namespace Wvalue

/-! ### The text of a value -/

def toHex (c : UInt8) : UInt8 :=
  let c := c &&& 0xF
  if c < 10 then 48 + c else 97 + c - 10

def escapeChar (c : UInt8) : Bytes :=
  if c = 34 then [92, 34]
  else if c = 92 then [92, 92]
  else if c = 10 then [92, 110]
  else if c = 8 then [92, 98]
  else if c = 12 then [92, 102]
  else if c = 13 then [92, 114]
  else if c = 9 then [92, 116]
  else if c < 0x20 then [92, 117, 48, 48, toHex (c / 16), toHex (c % 16)]
  else [c]

def escape (s : Bytes) : Bytes := s.flatMap escapeChar

/-- The states of the loop that looks for trailing zeros. `point` is `start` for the character
behind the decimal point, which stays whatever it is. -/
inductive FState where
  | start
  | point
  | decp
  | zero

/-- `pos_first_trailing_0`, from position `i` on. -/
def trailingZeros : FState → ℕ → Option ℕ → Bytes → Option ℕ
  | _, _, pos, [] => pos
  | .start, i, pos, ch :: s => trailingZeros (if ch = 46 then .point else .start) (i + 1) pos s
  | .point, i, pos, _ :: s => trailingZeros .decp (i + 1) pos s
  | .decp, i, pos, ch :: s =>
      if ch = 48 then trailingZeros .zero (i + 1) (some i) s
      else trailingZeros .decp (i + 1) pos s
  | .zero, i, pos, ch :: s =>
      if ch ≠ 48 then trailingZeros .decp (i + 1) none s
      else trailingZeros .zero (i + 1) pos s

/-- The text of a floating-point number without the zeros at its end. -/
def trimmed (outbuf : Bytes) : Bytes :=
  match trailingZeros .start 0 none outbuf with
  | some pos => outbuf.take pos
  | none => outbuf

def dumpString (s : Bytes) : Bytes := 34 :: (escape s ++ [34])

mutual

/-- `dump_internal`, without indentation. -/
def dump : Wvalue → Bytes
  | .null => bytes "null"
  | .boolean value => if value then bytes "true" else bytes "false"
  | .signed n => Text.put n
  | .unsigned n => Text.decimal n.toNat
  | .floating outbuf => (outbuf.map trimmed).getD (bytes "null")
  | .string s => dumpString s
  | .list elements => 91 :: (dumpElements true elements ++ [93])
  | .object fields => 123 :: (dumpFields true fields ++ [125])
  | .function => bytes "custom function"

def dumpElements : Bool → List Wvalue → Bytes
  | _, [] => []
  | first, x :: elements =>
      (if first then [] else [44]) ++ dump x ++ dumpElements false elements

def dumpFields : Bool → List (Bytes × Wvalue) → Bytes
  | _, [] => []
  | first, (key, x) :: fields =>
      (if first then [] else [44]) ++ dumpString key ++ 58 :: dump x ++ dumpFields false fields

end

/-! ### What the text is read as -/

theorem isHexDigit_toHex (c : UInt8) :
  Json.isHexDigit (toHex c) = true
  := by
  have hdigits : (List.range 16).all (fun i => Json.isHexDigit (toHex (UInt8.ofNat i))) = true :=
    rfl
  have hlt : (c &&& 0xF).toNat < 16 := by
    rw [UInt8.toNat_and]
    apply Nat.and_lt_two_pow _ (n := 4)
    decide
  have hand : toHex c = toHex (c &&& 0xF) := by
    rw [toHex, toHex, UInt8.and_assoc, UInt8.and_self]
  rw [hand, ← UInt8.ofNat_toNat (x := c &&& 0xF)]
  apply List.all_eq_true.mp hdigits
  apply List.mem_range.mpr hlt

/-- An escaped character stands for itself in a string. -/
theorem whole_escapeChar (c : UInt8) :
  Whole (escapeChar c)
  := by
  rw [escapeChar]
  split
  · apply Json.whole_escape rfl
  split
  · apply Json.whole_escape rfl
  split
  · apply Json.whole_escape rfl
  split
  · apply Json.whole_escape rfl
  split
  · apply Json.whole_escape rfl
  split
  · apply Json.whole_escape rfl
  split
  · apply Json.whole_escape rfl
  split
  · apply Json.whole_unicode rfl rfl (isHexDigit_toHex _) (isHexDigit_toHex _)
  · next hquote hbackslash _ _ _ _ _ hcontrol =>
      apply Json.whole_singleton hquote hbackslash (UInt8.not_lt.mp hcontrol)

theorem whole_escape (s : Bytes) :
  Whole (escape s)
  := Whole.flatMap fun c _ => whole_escapeChar c

/-- The text of a value is that of a value of JSON: it has no functions, and the texts of its
floating-point numbers are numbers. -/
inductive IsJson : Wvalue → Prop
  | null : IsJson .null
  | boolean (value : Bool) : IsJson (.boolean value)
  | signed (n : Int64) : IsJson (.signed n)
  | unsigned (n : UInt64) : IsJson (.unsigned n)
  | notFinite : IsJson (.floating none)
  | floating {outbuf : Bytes} (h : NumberLiteral (trimmed outbuf)) : IsJson (.floating (some outbuf))
  | string (s : Bytes) : IsJson (.string s)
  | list {elements : List Wvalue} (h : ∀ x ∈ elements, IsJson x) : IsJson (.list elements)
  | object {fields : List (Bytes × Wvalue)} (h : ∀ field ∈ fields, IsJson field.2) :
      IsJson (.object fields)

mutual

/-- The value of JSON with the literals of the text. -/
def toJson : Wvalue → Json
  | .null => .null
  | .boolean value => .boolean value
  | .signed n => .number (Text.put n)
  | .unsigned n => .number (Text.decimal n.toNat)
  | .floating none => .null
  | .floating (some outbuf) => .number (trimmed outbuf)
  | .string s => .string (escape s)
  | .list elements => .array (elementsJson elements)
  | .object fields => .object (fieldsJson fields)
  | .function => .null

def elementsJson : List Wvalue → List Json
  | [] => []
  | x :: elements => toJson x :: elementsJson elements

def fieldsJson : List (Bytes × Wvalue) → List (Bytes × Json)
  | [] => []
  | (key, x) :: fields => (escape key, toJson x) :: fieldsJson fields

end

theorem elementsJson_eq_map (elements : List Wvalue) :
  elementsJson elements = elements.map toJson
  := by
  induction elements with
  | nil => rfl
  | cons x elements ih => rw [elementsJson, ih, List.map_cons]

/-- A field with its name as it is written. -/
def fieldJson (field : Bytes × Wvalue) : Bytes × Json := (escape field.1, toJson field.2)

theorem fieldsJson_eq_map (fields : List (Bytes × Wvalue)) :
  fieldsJson fields = fields.map fieldJson
  := by
  induction fields with
  | nil => rfl
  | cons field fields ih => rw [fieldsJson, ih, List.map_cons, fieldJson]

theorem dumpElements_eq_intercalate (elements : List Wvalue) :
  dumpElements true elements = [44].intercalate (elements.map dump)
  := by
  induction elements with
  | nil => rfl
  | cons x elements ih =>
      cases elements with
      | nil => simp [dumpElements]
      | cons y elements =>
          rw [List.map_cons, List.map_cons, List.intercalate_cons_cons, ← List.map_cons, ← ih]
          simp [dumpElements]

def dumpField (field : Bytes × Wvalue) : Bytes := dumpString field.1 ++ 58 :: dump field.2

theorem dumpFields_eq_intercalate (fields : List (Bytes × Wvalue)) :
  dumpFields true fields = [44].intercalate (fields.map dumpField)
  := by
  induction fields with
  | nil => rfl
  | cons field fields ih =>
      cases fields with
      | nil => simp [dumpFields, dumpField]
      | cons field' fields =>
          rw [List.map_cons, List.map_cons, List.intercalate_cons_cons, ← List.map_cons, ← ih]
          simp [dumpFields, dumpField]

theorem numberLiteral_put (n : Int64) :
  NumberLiteral (Text.put n)
  := by
  rw [Text.put]
  split
  · apply Json.numberLiteral_minus
  · apply Json.numberLiteral_decimal

theorem IsJson.wellFormed {x : Wvalue} (h : IsJson x) :
  (toJson x).WellFormed
  := by
  induction h with
  | null => exact .null
  | boolean value => exact .boolean value
  | signed n => exact .number (numberLiteral_put n)
  | unsigned n => exact .number (Json.numberLiteral_decimal _)
  | notFinite => exact .null
  | floating h => exact .number h
  | string s => exact .string (whole_escape s)
  | list _ ih =>
      rw [toJson, elementsJson_eq_map]
      apply Json.WellFormed.array
      simpa using ih
  | object _ ih =>
      rw [toJson, fieldsJson_eq_map]
      apply Json.WellFormed.object
      · rintro _ hm
        obtain ⟨field, _, rfl⟩ := List.mem_map.mp hm
        apply whole_escape
      · rintro _ hm
        obtain ⟨field, hfield, rfl⟩ := List.mem_map.mp hm
        apply ih field hfield

theorem IsJson.dump_eq_text {x : Wvalue} (h : IsJson x) :
  dump x = (toJson x).text
  := by
  induction h with
  | null => rfl
  | boolean value => rfl
  | signed n => rfl
  | unsigned n => rfl
  | notFinite => rfl
  | floating h => rfl
  | string s => rfl
  | list _ ih =>
      rw [toJson, elementsJson_eq_map, Json.text_array, dump, dumpElements_eq_intercalate,
        List.map_map]
      congr 3
      apply List.map_congr_left ih
  | object _ ih =>
      rw [toJson, fieldsJson_eq_map, Json.text_object, dump, dumpFields_eq_intercalate,
        List.map_map]
      congr 3
      apply List.map_congr_left
      intro field hfield
      simp [dumpField, fieldJson, Json.memberText, dumpString, ih field hfield]

theorem IsJson.parse_dump {x : Wvalue} (h : IsJson x) :
  Json.parse (dump x) = some (toJson x)
  := by
  rw [h.dump_eq_text]
  apply h.wellFormed.parse_text

/-! ### The number of an event -/

/-- The text that `sendTextWithAck` sends. -/
def withId (id : UInt64) (eventJson : Bytes) : Bytes :=
  123 :: (bytes "\"id\":" ++ Text.decimal id.toNat
    ++ (if 2 < eventJson.length then 44 :: eventJson.drop 1 else eventJson.drop 1))

/-- The text of an object that has fields goes on with the quote of a name. -/
theorem exists_dump_cons (field : Bytes × Wvalue) (fields : List (Bytes × Wvalue)) :
  ∃ s, dump (.object (field :: fields)) = 123 :: 34 :: s ∧ s ≠ []
  := by
  rw [dump, dumpFields, dumpString]
  refine ⟨_, rfl, ?_⟩
  simp

theorem whole_id :
  Whole (bytes "id")
  := whole_escape (bytes "id")

/-- What comes before the rest of the event is a member without its comma. -/
theorem withId_eq (id : UInt64) (eventJson : Bytes) :
  withId id eventJson
    = 123 :: 34 :: (bytes "id" ++ 34 :: 58 :: (Text.decimal id.toNat
        ++ if 2 < eventJson.length then 44 :: eventJson.drop 1 else eventJson.drop 1))
  := by
  have hkey : bytes "\"id\":" = 34 :: (bytes "id" ++ [34, 58]) := rfl
  rw [withId, hkey]
  simp only [List.cons_append, List.append_assoc, List.nil_append]

/-- The number is a member before all others, whether there are any or not. -/
theorem parse_insertId (fields : List (Bytes × Wvalue)) (id : UInt64) :
  Json.parse (withId id (dump (.object fields)))
    = (Json.parse (dump (.object fields))).map
        (Json.insert (bytes "id") (.number (Text.decimal id.toNat)))
  := by
  have hnumber := Json.numberLiteral_decimal id.toNat
  rw [withId_eq]
  cases fields with
  | nil =>
      have hdump : dump (.object []) = [123, 125] := rfl
      have hparse : Json.parse [123, 125] = some (.object []) := rfl
      have hlength : ¬2 < [(123 : UInt8), 125].length := Nat.lt_irrefl 2
      rw [hdump, hparse, if_neg hlength]
      apply Json.parse_single whole_id hnumber
  | cons field fields =>
      obtain ⟨s, hdump, hne⟩ := exists_dump_cons field fields
      have hlength : 2 < (123 :: 34 :: s).length := by
        have hpos := List.length_pos_iff.mpr hne
        rw [List.length_cons, List.length_cons]
        omega
      rw [hdump, if_pos hlength]
      apply Json.parse_insert whole_id hnumber

theorem IsJson.parse_object {fields : List (Bytes × Wvalue)} (h : IsJson (.object fields)) :
  Json.parse (dump (.object fields)) = some (.object (fields.map fieldJson))
  := by
  rw [h.parse_dump, toJson, fieldsJson_eq_map]

/-- The text that is sent is the object of the event with the number as a member more, before all
others, and what is read of the event is its fields. -/
theorem parse_withId (fields : List (Bytes × Wvalue)) (id : UInt64) :
  Json.parse (withId id (dump (.object fields)))
      = (Json.parse (dump (.object fields))).map
          (Json.insert (bytes "id") (.number (Text.decimal id.toNat)))
    ∧ (IsJson (.object fields) →
        Json.parse (dump (.object fields)) = some (.object (fields.map fieldJson)))
  := by
  constructor
  · apply parse_insertId
  · apply IsJson.parse_object

/-- The text of `kicked` with the number 7. -/
theorem parse_withId_kicked :
  Json.parse (withId 7 (dump (.object
      [(bytes "event", .string (bytes "kicked")), (bytes "data", .object [])])))
    = some (.object [(bytes "id", .number [55]), (bytes "event", .string (bytes "kicked")),
        (bytes "data", .object [])])
  := by
  have hdata : IsJson (.object []) := .object (List.forall_mem_nil _)
  have hfields : IsJson (.object
      [(bytes "event", .string (bytes "kicked")), (bytes "data", .object [])]) := by
    apply IsJson.object
    rw [List.forall_mem_cons, List.forall_mem_singleton]
    exact ⟨.string _, hdata⟩
  rw [(parse_withId _ 7).1, (parse_withId _ 7).2 hfields]
  rfl

/-! ### What the client answers -/

theorem escapeChar_eq_singleton {c : UInt8} (h : 92 ∉ escapeChar c) :
  escapeChar c = [c]
  := by
  rw [escapeChar] at h ⊢
  grind

/-- What is written without a backslash is written as it is. -/
theorem escape_eq_self {s : Bytes} (h : 92 ∉ escape s) :
  escape s = s
  := by
  induction s with
  | nil => rfl
  | cons c s ih =>
      rw [escape, List.flatMap_cons, List.mem_append, not_or] at h
      rw [escape, List.flatMap_cons, escapeChar_eq_singleton h.1, List.singleton_append]
      congr 1
      apply ih h.2

/-- The number that `onmessage` takes for one to be acknowledged. -/
def ackedId (msg : Json) : Option Bytes :=
  match msg.get (bytes "id") with
  | some (.number literal) => some literal
  | _ => none

/-- The number of an event is what the client acknowledges, unless the event has a field of that
name itself. -/
theorem ackedId_withId {fields : List (Bytes × Wvalue)} (h : IsJson (.object fields))
    (hid : ∀ field ∈ fields, field.1 ≠ bytes "id") (id : UInt64) :
  (Json.parse (withId id (dump (.object fields)))).bind ackedId = some (Text.decimal id.toNat)
  := by
  have hget : (Json.object (fields.map fieldJson)).get (bytes "id") = none := by
    rw [Json.get, Option.map_eq_none_iff, List.find?_eq_none]
    intro m hm
    obtain ⟨field, hfield, rfl⟩ := List.mem_map.mp (List.mem_reverse.mp hm)
    rw [beq_iff_eq]
    intro hname
    apply hid field hfield
    have hplain : 92 ∉ escape field.1 := by
      rw [show escape field.1 = bytes "id" from hname]
      decide
    rw [← escape_eq_self hplain]
    apply hname
  rw [parse_insertId, h.parse_object, Option.map_some, Option.bind_some, ackedId, Json.get_insert, hget]
  rfl

end Wvalue

/-- The events that have to be acknowledged. -/
inductive SerializableEvent where
  | sessionComplete (type : TransferSessionCompleteType)
  | kicked

namespace SerializableEvent

open Wvalue

def status : TransferSessionCompleteType → Bytes
  | .ok => bytes "ok"
  | .timeout => bytes "timeout"
  | .senderIsGone => bytes "sender_is_gone"
  | .noReceivers => bytes "no_receivers"

/-- The object that `json` dumps. -/
def root : SerializableEvent → List (Bytes × Wvalue)
  | .sessionComplete type =>
      [(bytes "event", .string (bytes "complete")),
        (bytes "data", .object [(bytes "status", .string (status type))])]
  | .kicked => [(bytes "event", .string (bytes "kicked")), (bytes "data", .object [])]

/-- The client acknowledges the number of every such event, in whatever order the fields are. -/
theorem ackedId_event (event : SerializableEvent) {fields : List (Bytes × Wvalue)}
    (horder : fields.Perm event.root) (id : UInt64) :
  (Json.parse (withId id (dump (.object fields)))).bind ackedId = some (Text.decimal id.toNat)
  := by
  have hevent : bytes "event" ≠ bytes "id" := by decide
  have hname : bytes "data" ≠ bytes "id" := by decide
  have hroot : ∀ field ∈ event.root, IsJson field.2 ∧ field.1 ≠ bytes "id" := by
    cases event with
    | sessionComplete type =>
        have hdata : IsJson (.object [(bytes "status", .string (status type))]) := by
          apply IsJson.object
          rw [List.forall_mem_singleton]
          apply IsJson.string
        rw [root, List.forall_mem_cons, List.forall_mem_singleton]
        exact ⟨⟨.string _, hevent⟩, hdata, hname⟩
    | kicked =>
        rw [root, List.forall_mem_cons, List.forall_mem_singleton]
        exact ⟨⟨.string _, hevent⟩, .object (List.forall_mem_nil _), hname⟩
  apply ackedId_withId
  · apply IsJson.object
    intro field hfield
    apply (hroot field (horder.mem_iff.mp hfield)).1
  · intro field hfield
    apply (hroot field (horder.mem_iff.mp hfield)).2

end SerializableEvent

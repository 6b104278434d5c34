import PutInPipe.Client.Envelope
import PutInPipe.Server.Messages
import PutInPipe.Server.Reader
import PutInPipe.Web.Sender

/-!
# What the pages send

The pages send objects with an action and its data, as `JSON.stringify` writes them, and the
server reads them with `crow::json::load`. It does what the action says, with the data as they
were given: a name may have any characters, and a number may be as large as that of a file.

A string is the list of the bytes that are sent for it.
-/

open Text (Bytes)

namespace Wire

/-! ### `JSON.stringify` -/

def quoteChar (c : UInt8) : Bytes :=
  if c = 8 then [92, 98]
  else if c = 9 then [92, 116]
  else if c = 10 then [92, 110]
  else if c = 12 then [92, 102]
  else if c = 13 then [92, 114]
  else if c = 34 then [92, 34]
  else if c = 92 then [92, 92]
  else if c < 32 then [92, 117, 48, 48, Wvalue.toHex (c / 16), Wvalue.toHex (c % 16)]
  else [c]

def quote (s : Bytes) : Bytes := 34 :: (s.flatMap quoteChar ++ [34])

/-- The values in the data. -/
inductive Scalar where
  | string (s : Bytes)
  | number (n : ℕ)
deriving DecidableEq, Repr

namespace Scalar

def stringify : Scalar → Bytes
  | string s => quote s
  | number n => Text.decimal n

def toJson : Scalar → Json
  | string s => .string (Wvalue.escape s)
  | number n => .number (Text.decimal n)

end Scalar

def stringify (data : List (Bytes × Scalar)) : Bytes :=
  123 :: ([44].intercalate (data.map fun field => quote field.1 ++ 58 :: field.2.stringify)
    ++ [125])

/-! ### The messages -/

/-- The calls of `sendAction` in the pages, and the acknowledgement of an event. -/
inductive Post where
  | setFileInfo (name : Bytes) (size : ℕ)
  | uploadFinished
  | kickReceiver (id : Bytes)
  | dropFreeze
  | terminateSession
  | newName (name : Bytes)
  | confirmChunk (index : ℕ)
  | ack (id : ℕ)
deriving DecidableEq, Repr

namespace Post

def action : Post → String
  | setFileInfo _ _ => "set_file_info"
  | uploadFinished => "upload_finished"
  | kickReceiver _ => "kick_receiver"
  | dropFreeze => "drop_freeze"
  | terminateSession => "terminate_session"
  | newName _ => "new_name"
  | confirmChunk _ => "confirm_chunk"
  | ack _ => "ack"

def data : Post → List (Bytes × Scalar)
  | setFileInfo name size => [(bytes "name", .string name), (bytes "size", .number size)]
  | kickReceiver id => [(bytes "id", .string id)]
  | newName name => [(bytes "name", .string name)]
  | confirmChunk index => [(bytes "index", .number index)]
  | ack id => [(bytes "id", .number id)]
  | _ => []

/-- `JSON.stringify({ action, data })`. -/
def text (p : Post) : Bytes :=
  123 :: (quote (bytes "action") ++ 58 :: quote (bytes p.action) ++ 44 :: quote (bytes "data")
    ++ 58 :: stringify p.data ++ [125])

/-- The numbers in the data are integers of the page, without loss. -/
def IsSafe (p : Post) : Prop :=
  ∀ field ∈ p.data, ∀ n, field.2 = .number n → n < 2 ^ 53

def toJson (p : Post) : Json :=
  .object [(bytes "action", .string (Wvalue.escape (bytes p.action))),
    (bytes "data", .object (p.data.map (Prod.map id Scalar.toJson)))]

end Post

/-! ### The texts are JSON -/

theorem quoteChar_eq (c : UInt8) :
  quoteChar c = Wvalue.escapeChar c
  := by
  rw [quoteChar, Wvalue.escapeChar]
  grind

theorem quote_eq (s : Bytes) :
  quote s = 34 :: (Wvalue.escape s ++ [34])
  := by
  rw [quote, Wvalue.escape, funext quoteChar_eq]

/-- The names of the fields have nothing to escape. -/
theorem quote_plain {s : Bytes} (h : 92 ∉ Wvalue.escape s) :
  quote s = 34 :: (s ++ [34])
  := by rw [quote_eq, Wvalue.escape_eq_self h]

namespace Post

theorem escape_key (p : Post) {field : Bytes × Scalar} (h : field ∈ p.data) :
  Wvalue.escape field.1 = field.1
  := by
  have hkeys : field.1 ∈ [bytes "name", bytes "size", bytes "id", bytes "index"] := by
    cases p <;> simp only [data, List.mem_cons, List.not_mem_nil, or_false] at h <;> grind
  have hplain : ∀ key ∈ [bytes "name", bytes "size", bytes "id", bytes "index"],
      Wvalue.escape key = key := by
    decide
  apply hplain _ hkeys

theorem wellFormed_toJson (p : Post) :
  p.toJson.WellFormed
  := by
  have hplain : Wvalue.escape (bytes "action") = bytes "action"
      ∧ Wvalue.escape (bytes "data") = bytes "data" := by
    decide
  have hdata : (Json.object (p.data.map (Prod.map id Scalar.toJson))).WellFormed := by
    apply Json.WellFormed.object
    · rintro _ hm
      obtain ⟨field, hfield, rfl⟩ := List.mem_map.mp hm
      rw [Prod.map_fst, id, ← p.escape_key hfield]
      apply Wvalue.whole_escape
    · rintro _ hm
      obtain ⟨⟨key, value⟩, _, rfl⟩ := List.mem_map.mp hm
      cases value with
      | string s => exact .string (Wvalue.whole_escape s)
      | number n => exact .number (Json.numberLiteral_decimal n)
  apply Json.WellFormed.object
  · rw [List.forall_mem_cons, List.forall_mem_singleton, ← hplain.1, ← hplain.2]
    exact ⟨Wvalue.whole_escape _, Wvalue.whole_escape _⟩
  · rw [List.forall_mem_cons, List.forall_mem_singleton]
    exact ⟨.string (Wvalue.whole_escape _), hdata⟩

theorem text_eq (p : Post) :
  p.text = p.toJson.text
  := by
  have haction : quote (bytes "action") = 34 :: (bytes "action" ++ [34]) := quote_plain (by decide)
  have hdata : quote (bytes "data") = 34 :: (bytes "data" ++ [34]) := quote_plain (by decide)
  have hfields : stringify p.data
      = (Json.object (p.data.map (Prod.map id Scalar.toJson))).text := by
    rw [stringify, Json.text_object, List.map_map]
    congr 3
    apply List.map_congr_left
    rintro ⟨key, value⟩ hfield
    have hkey : Wvalue.escape key = key := p.escape_key hfield
    rw [quote_eq, hkey, Function.comp_apply, Prod.map_apply, id, Json.memberText]
    cases value with
    | string s =>
        rw [Scalar.stringify, Scalar.toJson, Json.text, quote_eq, List.cons_append,
          List.append_assoc]
        rfl
    | number n =>
        rw [Scalar.stringify, Scalar.toJson, Json.text, List.cons_append, List.append_assoc]
        rfl
  have hstring : (Json.string (Wvalue.escape (bytes p.action))).text = quote (bytes p.action) := by
    rw [Json.text, quote_eq]
  rw [text, haction, hdata, hfields, toJson]
  rw [Json.text_object [_, _], List.map_cons, List.map_singleton, List.intercalate_cons_cons,
    List.intercalate_singleton, Json.memberText, Json.memberText, hstring]
  simp only [List.cons_append, List.append_assoc, List.nil_append]

end Post

/-! ### What the server reads -/

theorem ofBytes_bytes {s : String} (h : s.toList.all (fun c => decide (c.toNat < 256)) = true) :
  Rvalue.ofBytes (bytes s) = s
  := by
  rw [Rvalue.ofBytes, bytes, List.map_map]
  have hchar : ∀ c ∈ s.toList, Char.ofNat c.toUInt8.toNat = c := by
    intro c hc
    have hlt : c.toNat < 256 := of_decide_eq_true (List.all_eq_true.mp h c hc)
    rw [Char.toUInt8, UInt32.toNat_toUInt8]
    have hmod : c.val.toNat % 2 ^ 8 = c.toNat := Nat.mod_eq_of_lt hlt
    rw [hmod, Char.ofNat_toNat]
  have hmap : s.toList.map ((fun c : UInt8 => Char.ofNat c.toNat) ∘ Char.toUInt8) = s.toList :=
    (List.map_congr_left hchar).trans (List.map_id _)
  rw [hmap, String.ofList_toList]

/-- A control character is escaped by its number. -/
theorem part_of_control {c : UInt8} (h : c < 32) :
  let p : Json.Part := .unit (Json.hexUnit 48 48 (Wvalue.toHex (c / 16)) (Wvalue.toHex (c % 16)))
  p.isSurrogate = false ∧ p.bytes (fun u => Rvalue.encodeCode u.toNat) = [c]
  := by
  have hall : ∀ i ∈ List.range 32, ∀ c, c = UInt8.ofNat i →
      (Json.Part.unit (Json.hexUnit 48 48 (Wvalue.toHex (c / 16))
        (Wvalue.toHex (c % 16)))).isSurrogate = false
      ∧ (Json.Part.unit (Json.hexUnit 48 48 (Wvalue.toHex (c / 16))
        (Wvalue.toHex (c % 16)))).bytes (fun u => Rvalue.encodeCode u.toNat) = [c] := by
    simp only [forall_eq]
    decide
  apply hall c.toNat (List.mem_range.mpr (UInt8.lt_iff_toNat_lt.mp h))
  rw [UInt8.ofNat_toNat]

/-- An escaped character is a part that stands for the character. -/
theorem spells_escapeChar (c : UInt8) {s : Bytes} {ps : List Json.Part} (h : Json.Spells s ps) :
  ∃ p : Json.Part, Json.Spells (Wvalue.escapeChar c ++ s) (p :: ps) ∧ p.isSurrogate = false
    ∧ p.bytes (fun u => Rvalue.encodeCode u.toNat) = [c]
  := by
  have hletter : ∀ {e : UInt8}, (e, c) ∈ Json.letters →
      ∃ p : Json.Part, Json.Spells ([92, e] ++ s) (p :: ps) ∧ p.isSurrogate = false
        ∧ p.bytes (fun u => Rvalue.encodeCode u.toNat) = [c] :=
    fun he => ⟨.byte c, .letter he h, rfl, rfl⟩
  rw [Wvalue.escapeChar]
  split
  case isTrue hc => apply hletter; rw [hc]; decide
  split
  case isTrue hc => apply hletter; rw [hc]; decide
  split
  case isTrue hc => apply hletter; rw [hc]; decide
  split
  case isTrue hc => apply hletter; rw [hc]; decide
  split
  case isTrue hc => apply hletter; rw [hc]; decide
  split
  case isTrue hc => apply hletter; rw [hc]; decide
  split
  case isTrue hc => apply hletter; rw [hc]; decide
  split
  case isTrue hc =>
    exact ⟨_, .unit rfl rfl (Wvalue.isHexDigit_toHex _) (Wvalue.isHexDigit_toHex _) h,
      part_of_control hc⟩
  case isFalse hbackslash _ _ _ _ _ _ => exact ⟨.byte c, .plain hbackslash h, rfl, rfl⟩

theorem spells_escape (s : Bytes) :
  ∃ ps, Json.Spells (Wvalue.escape s) ps ∧ ps.any Json.Part.isSurrogate = false
    ∧ ps.flatMap (Json.Part.bytes fun u => Rvalue.encodeCode u.toNat) = s
  := by
  induction s with
  | nil => exact ⟨[], .nil, rfl, rfl⟩
  | cons c s ih =>
      obtain ⟨ps, hps, hplain, hbytes⟩ := ih
      obtain ⟨p, hp, hplain', hbytes'⟩ := spells_escapeChar c hps
      refine ⟨p :: ps, hp, ?_, ?_⟩
      · rw [List.any_cons, hplain, hplain', Bool.or_false]
      · rw [List.flatMap_cons, hbytes, hbytes', List.singleton_append]

/-- What is escaped is read as it was. -/
theorem unescape_escape (s : Bytes) :
  Rvalue.unescape (Wvalue.escape s) = s
  := by
  obtain ⟨ps, hps, _, hbytes⟩ := spells_escape s
  rw [Rvalue.unescape_eq, Rvalue.unescapeLoop_of_spells hps, hbytes]

/-- What is escaped stands for what it was. -/
theorem decode_escape (s : Bytes) :
  Json.decode (Wvalue.escape s) = some s
  := by
  obtain ⟨ps, hps, hplain, _⟩ := spells_escape s
  rw [(Rvalue.decode_eq_unescape_iff hps).mpr, unescape_escape]
  rw [Json.hasSurrogate, hps.parts_eq, Option.any_some, hplain]

/-- A number that fits is read as it was, whatever the variable was before. -/
theorem u_decimal (uninitialized : ℕ) {n : ℕ} (h : n < 2 ^ 64) :
  (Rvalue.number (Rvalue.ofBytes (Text.decimal n))).u uninitialized = .ok n
  := by
  have hdigits : ∀ c ∈ Text.decimal n, Text.isDigit c = true := fun _ => Text.isDigit_of_mem_decimal
  have hsign := Text.sign_of_digits (Text.decimal_ne_nil n) hdigits
  have htake : (Text.decimal n).takeWhile Text.isDigit = Text.decimal n :=
    List.takeWhile_eq_self_iff.mpr hdigits
  have hvalue := Text.value_decimal n
  obtain ⟨c, s, hcons⟩ := List.exists_cons_of_ne_nil (Text.decimal_ne_nil n)
  rw [hcons] at hdigits hsign htake hvalue
  have hdrop : (c :: s).dropWhile Text.isSpace = c :: s := by
    rw [List.dropWhile_cons_of_neg]
    rw [Text.not_isSpace_of_isDigit (hdigits c List.mem_cons_self)]
    apply Bool.false_ne_true
  rw [hdrop] at hsign
  rw [Rvalue.u, Rvalue.bytes_ofBytes, Rvalue.lexicalCast, hcons, hdrop]
  simp only [hsign, htake, hvalue]
  rw [if_neg (Nat.not_le_of_lt h), if_neg Bool.false_ne_true]

theorem zeroExponent_decimal (n : ℕ) :
  Rvalue.zeroExponent (Text.decimal n) = false
  := by
  have hdigit : ∀ i : ℕ, ∀ c, Text.isDigit c = false → (Text.decimal n)[i]? ≠ some c := by
    intro i c hc hi
    rw [Text.isDigit_of_mem_decimal (List.mem_of_getElem? hi)] at hc
    cases hc
  have hsign : (Text.decimal n).head? ≠ some 45 := by
    rw [List.head?_eq_getElem?]
    apply hdigit 0 45 rfl
  simp [Rvalue.zeroExponent, hsign, hdigit 1 101 rfl, hdigit 1 69 rfl]

namespace Scalar

/-- What the server reads a value as. -/
def toRvalue : Scalar → Rvalue
  | string s => .string (Rvalue.ofBytes (Wvalue.escape s)) (Rvalue.ofBytes s)
  | number n => .number (Rvalue.ofBytes (Text.decimal n))

theorem read_toJson (value : Scalar) :
  Rvalue.read value.toJson = value.toRvalue
  := by
  cases value with
  | string s => rw [toJson, Rvalue.read, Rvalue.ofLiteral, unescape_escape, toRvalue]
  | number n => rw [toJson, Rvalue.read, toRvalue]

end Scalar

namespace Post

/-- The data as the server reads them. -/
def fields (p : Post) : Rvalue :=
  .object (p.data.map fun field => (Rvalue.ofBytes field.1, field.2.toRvalue))

theorem ofBytes_action (p : Post) :
  Rvalue.ofBytes (bytes p.action) = p.action
  := by
  apply ofBytes_bytes
  cases p <;> simp only [action] <;> decide

theorem read_toJson (p : Post) :
  Rvalue.read p.toJson = .object
    [("action", .string (Rvalue.ofBytes (Wvalue.escape (bytes p.action))) p.action),
      ("data", p.fields)]
  := by
  have hkeys : Rvalue.ofBytes (Rvalue.unescape (bytes "action")) = "action"
      ∧ Rvalue.ofBytes (Rvalue.unescape (bytes "data")) = "data" := by
    decide
  have hdata : Rvalue.read (.object (p.data.map (Prod.map id Scalar.toJson))) = p.fields := by
    rw [Rvalue.read, Rvalue.readMembers_eq_map, List.map_map, fields]
    congr 1
    apply List.map_congr_left
    rintro ⟨key, value⟩ hfield
    have hkey : Rvalue.unescape key = key := by
      have hescape : Wvalue.escape key = key := p.escape_key hfield
      conv_lhs => rw [← hescape]
      apply unescape_escape
    rw [Function.comp_apply, Rvalue.readMember, Prod.map_apply, id, Scalar.read_toJson, hkey]
  rw [toJson, Rvalue.read, Rvalue.readMembers, Rvalue.readMembers, Rvalue.readMembers, hdata,
    Rvalue.read, Rvalue.ofLiteral, unescape_escape, ofBytes_action, hkeys.1, hkeys.2]

/-- Nothing in a message is refused. -/
theorem readable_toJson (p : Post) :
  Rvalue.readable 5000 p.toJson = true
  := by
  have hvalue : ∀ value : Scalar, Rvalue.readable 4998 value.toJson = true := by
    intro value
    cases value with
    | string s => rw [Scalar.toJson, Rvalue.readable]
    | number n => rw [Scalar.toJson, Rvalue.readable, zeroExponent_decimal, Bool.not_false]
  have hdata : Rvalue.readableMembers 4998 (p.data.map (Prod.map id Scalar.toJson)) = true := by
    rw [Rvalue.readableMembers_eq_all, List.all_map, List.all_eq_true]
    intro field _
    apply hvalue
  simp only [toJson, Rvalue.readable, Rvalue.readableMembers, hdata, Bool.and_self]

/-- The server reads the action and the data of a message. -/
theorem load_text (p : Post) :
  Rvalue.load p.text = some (.object
    [("action", .string (Rvalue.ofBytes (Wvalue.escape (bytes p.action))) p.action),
      ("data", p.fields)])
  := by
  have hread := p.wellFormed_toJson.value_text (Nat.le_refl _) (r := []) (by rintro _ ⟨⟩)
  rw [List.append_nil] at hread
  rw [text_eq, Rvalue.load_of_value hread rfl, if_pos p.readable_toJson, read_toJson]

/-! ### What the server does -/

section

variable (config : Server.Config) (s : WebAPI) (c : ClientRef) (k : ℕ)

open WebAPI (Reply)

/-- The creator of the session may do something, and everybody else is refused. -/
def byCreator (refusal : String) (done : WebAPI × Reply) : WebAPI × Reply :=
  if s.isCreator k c then done else (s, .closed refusal .unacceptableData)

/-- What is asked for by a message of a client in session `k`, and the answer. -/
def received : Post → WebAPI × Reply
  | setFileInfo name size =>
      byCreator s c k "Only the session creator can set the file information"
        (s.perform config k (.setFileInfo ⟨name, size⟩),
          if s.ofSession k false (fun t => (t.setFileInfo ⟨name, size⟩).2) then .nothing
          else .setFileInfoFailure)
  | uploadFinished =>
      byCreator s c k "Only the session creator can set the upload finish"
        (s.perform config k .setEndOfFile, .nothing)
  | kickReceiver id =>
      byCreator s c k "Only the session creator can delete participants"
        (if c.publicId = Rvalue.ofBytes id then
          (s, .closed "You can't delete yourself" .unacceptableData)
        else (s.perform config k (.removeReceiver (Rvalue.ofBytes id)), .nothing))
  | dropFreeze =>
      if s.isCreator k c then (s.perform config k .dropInitialChunksFreeze, .nothing)
      else (s, .nothing)
  | terminateSession =>
      byCreator s c k "Only the creator of the session can forcibly terminate it"
        (s.perform config k .manualTerminate, .nothing)
  | newName name => (s.setClient c ((s.client c).setName (Rvalue.ofBytes name)), .nothing)
  | confirmChunk index =>
      ((s.setClient c ((s.client c).setCurrentChunkIndex index)).perform config k
        (.setChunkAsReceived index c), .nothing)
  | ack id => (s.processAck config c id, .nothing)

end

end Post

section

variable {config : Server.Config} {s : WebAPI} {c : ClientRef} {k : ℕ}

namespace Post

theorem envelope_eq (p : Post) (text : String) :
  WebAPI.envelope (.object [("action", .string text p.action), ("data", p.fields)])
    = .ok (WebAPI.Action.ofString p.action, p.fields)
  := by rfl

theorem IsSafe.lt {p : Post} (hsafe : p.IsSafe) {key : Bytes} {n : ℕ}
    (h : (key, Scalar.number n) ∈ p.data) :
  n < 2 ^ 64
  := Nat.lt_trans (hsafe _ h n rfl) (by decide)

/-- What `onText` makes of the outcome of a handler. -/
def answer : WebAPI.Outcome → WebAPI × WebAPI.Reply
  | (s, .ok reply) => (s, reply)
  | (s, .error what) => (s, WebAPI.exception what)

theorem answer_creatorOnly (refusal : String) (t : WebAPI) (reply : WebAPI.Reply) :
  answer (s.creatorOnly k c (.closed refusal .unacceptableData) (t, .ok reply))
    = byCreator s c k refusal (t, reply)
  := by
  rw [WebAPI.creatorOnly, byCreator]
  split
  · rfl
  · rfl

/-- The handler of a message reads the data that were given. -/
theorem answer_process (p : Post) (hsafe : p.IsSafe) (uninitialized : ℕ) :
  answer (s.internalWsMessageProcessing config uninitialized c k p.fields
      (WebAPI.Action.ofString p.action))
    = p.received config s c k
  := by
  cases p with
  | setFileInfo name size =>
      have hname : (setFileInfo name size).fields.get "name" >>= Rvalue.s
          = .ok (Rvalue.ofBytes name) := by rfl
      have hsize : ((setFileInfo name size).fields.get "size" >>= Rvalue.u uninitialized)
          = .ok size :=
        u_decimal uninitialized (hsafe.lt (List.mem_cons_of_mem _ List.mem_cons_self))
      have haction : WebAPI.Action.ofString (setFileInfo name size).action = .setFileInfo := rfl
      rw [haction, WebAPI.internalWsMessageProcessing, WebAPI.onSetFileInfo, hname, hsize,
        WebAPI.reading, WebAPI.reading, answer_creatorOnly, Rvalue.bytes_ofBytes]
      rfl
  | uploadFinished => apply answer_creatorOnly
  | kickReceiver id =>
      have hid : (kickReceiver id).fields.get "id" >>= Rvalue.s = .ok (Rvalue.ofBytes id) := by rfl
      have haction : WebAPI.Action.ofString (kickReceiver id).action = .kickReceiver := rfl
      rw [haction, WebAPI.internalWsMessageProcessing, WebAPI.onKickReceiver, hid, received]
      simp only [WebAPI.reading]
      split
      · apply answer_creatorOnly
      · apply answer_creatorOnly
  | dropFreeze =>
      have haction : WebAPI.Action.ofString dropFreeze.action = .dropFreeze := rfl
      rw [haction, WebAPI.internalWsMessageProcessing, WebAPI.onDropFreeze, received,
        WebAPI.creatorOnly]
      split
      · rfl
      · rfl
  | terminateSession => apply answer_creatorOnly
  | newName name => rfl
  | confirmChunk index =>
      have hindex : ((confirmChunk index).fields.get "index" >>= Rvalue.u uninitialized)
          = .ok index := u_decimal uninitialized (hsafe.lt List.mem_cons_self)
      have haction : WebAPI.Action.ofString (confirmChunk index).action = .confirmChunk := rfl
      rw [haction, WebAPI.internalWsMessageProcessing, WebAPI.onConfirmChunk, hindex]
      rfl
  | ack id =>
      have hid : ((ack id).fields.get "id" >>= Rvalue.u uninitialized) = .ok id :=
        u_decimal uninitialized (hsafe.lt List.mem_cons_self)
      have hhas : (ack id).fields.has "id" = .ok true := by rfl
      have haction : WebAPI.Action.ofString (ack id).action = .ack := rfl
      rw [haction, WebAPI.internalWsMessageProcessing, WebAPI.onAck, hid, hhas]
      rfl

theorem onText_load (p : Post) (hsafe : p.IsSafe) (uninitialized : ℕ) :
  s.onText config uninitialized c k (Rvalue.load p.text) = p.received config s c k
  := by
  rw [load_text, ← p.answer_process hsafe uninitialized, WebAPI.onText]
  simp only [envelope_eq]
  split
  case h_1 houtcome => rw [houtcome, answer]
  case h_2 houtcome => rw [houtcome, answer]

/-- A message of a client in session `k` gets to its handler. -/
theorem wsOnMessage_of_text (uninitialized : ℕ) (load : Bytes → Option Rvalue)
    (hlisted : c ∈ s.clientList) (hjoined : (s.client c).joinedSession ≠ "")
    (hsession : s.getSession (s.client c).joinedSession = some k) (text : Bytes) :
  s.wsOnMessage config uninitialized c load (.text text)
    = s.onText config uninitialized c k (load text)
  := by
  rw [WebAPI.wsOnMessage, if_neg (not_not_intro hlisted), if_neg hjoined, hsession]

theorem wsOnMessage_of_binary (uninitialized : ℕ) (load : Bytes → Option Rvalue)
    (hlisted : c ∈ s.clientList) (hjoined : (s.client c).joinedSession ≠ "")
    (hsession : s.getSession (s.client c).joinedSession = some k) (data : Bytes) :
  s.wsOnMessage config uninitialized c load (.binary data) = s.onBinary config c k data
  := by
  rw [WebAPI.wsOnMessage, if_neg (not_not_intro hlisted), if_neg hjoined, hsession]

/-- The server does what a message of the page asks for, whatever its data are. -/
theorem wsOnMessage_text (p : Post) (hsafe : p.IsSafe) (uninitialized : ℕ)
    (hlisted : c ∈ s.clientList) (hjoined : (s.client c).joinedSession ≠ "")
    (hsession : s.getSession (s.client c).joinedSession = some k) :
  s.wsOnMessage config uninitialized c Rvalue.load (.text p.text) = p.received config s c k
  := by
  rw [wsOnMessage_of_text uninitialized _ hlisted hjoined hsession]
  apply p.onText_load hsafe

end Post

/-! ### The sender of a file -/

/-- The frame as it is sent. -/
def frame : Frame → WebAPI.Frame
  | .binary data => .binary data
  | .setFileInfo info => .text (Post.setFileInfo info.name info.size).text
  | .uploadFinished => .text Post.uploadFinished.text

def IsSafe : Frame → Prop
  | .setFileInfo info => info.size < 2 ^ 53
  | _ => True

theorem isSafe_setFileInfo {info : FileInfo} (h : info.size < 2 ^ 53) :
  (Post.setFileInfo info.name info.size).IsSafe
  := by
  rw [Post.IsSafe, Post.data, List.forall_mem_cons, List.forall_mem_singleton]
  constructor
  · rintro n ⟨⟩
  · rintro n ⟨⟩
    exact h

/-- A session that is found is listed. -/
theorem listed_of_getSession {id : String} {t : TransferSession} (h : s.getSession id = some k)
    (ht : s.sessions[k]? = some t) :
  t.listed = true
  := by
  obtain ⟨hlt, hfound, _⟩ := List.findIdx?_eq_some_iff_getElem.mp h
  rw [List.getElem?_eq_getElem hlt] at ht
  cases ht
  exact (Bool.and_eq_true_iff.mp hfound).1

/-- The server performs the operation of a frame that the creator of the session sends, and tells
the page of a chunk that it did not take. -/
theorem wsOnMessage_frame {t : TransferSession} (uninitialized : ℕ)
    (hlisted : c ∈ s.clientList) (hjoined : (s.client c).joinedSession ≠ "")
    (hsession : s.getSession (s.client c).joinedSession = some k) (ht : s.sessions[k]? = some t)
    (hcreator : s.isCreator k c = true) {f : Frame} (hsafe : IsSafe f) :
  (s.wsOnMessage config uninitialized c Rvalue.load (frame f)).1
      = s.perform config k (Upload.opOfFrame f)
    ∧ ((s.wsOnMessage config uninitialized c Rvalue.load (frame f)).2 = .addingChunkFailure
      ↔ Upload.failure config.toConfig t f = [.addChunkFailure])
  := by
  cases f with
  | binary data =>
      have halive : s.ofSession k false (fun t => t.alive t.dataSender) = true := by
        rw [WebAPI.isCreator, WebAPI.ofSession, ht] at hcreator
        rw [WebAPI.ofSession, ht]
        exact (Bool.and_eq_true_iff.mp hcreator).1
      rw [frame, Post.wsOnMessage_of_binary uninitialized _ hlisted hjoined hsession]
      simp only [WebAPI.onBinary, halive, hcreator, Bool.not_true, Bool.false_eq_true, if_false]
      refine ⟨rfl, ?_⟩
      rw [WebAPI.ofSession, ht, Upload.failure, listed_of_getSession hsession ht]
      cases hadd : (t.addChunk config.toConfig data).2 with
      | false => simp [hadd]
      | true => simp [hadd]
  | setFileInfo info =>
      rw [frame, Post.wsOnMessage_of_text uninitialized _ hlisted hjoined hsession,
        Post.onText_load _ (isSafe_setFileInfo hsafe), Post.received, Post.byCreator,
        if_pos hcreator]
      have hfailure : Upload.failure config.toConfig t (.setFileInfo info) = [] := rfl
      refine ⟨rfl, ?_⟩
      rw [hfailure]
      split
      · simp
      · simp
  | uploadFinished =>
      have hpost : Post.uploadFinished.IsSafe := List.forall_mem_nil _
      rw [frame, Post.wsOnMessage_of_text uninitialized _ hlisted hjoined hsession,
        Post.onText_load _ hpost, Post.received, Post.byCreator, if_pos hcreator]
      refine ⟨rfl, ?_⟩
      simp [Upload.failure]

end

/-! ### Sample messages -/

namespace Sample

def config : Server.Config where
  transferSessionMaxChunkSize := 4
  transferSessionChunkQueueMaxSize := 2
  transferSessionMaxConsumerCount := 3
  transferSessionCountLimit := 2
  sign id := "public-" ++ id

def sender : ClientRef := ⟨0, "sender", "public-sender"⟩

def server : WebAPI where
  clients := [sender]
  clientList := [sender]
  client := fun _ => { joinedSession := "public-sender" }
  sessions := [.create sender false]

/-- A name with a quote and a line feed. -/
theorem wsOnMessage_text_setFileInfo :
  server.wsOnMessage config 0 sender Rvalue.load
      (.text (Post.setFileInfo (bytes "\"\n") 5).text)
    = (server.perform config 0 (.setFileInfo ⟨bytes "\"\n", 5⟩), .nothing)
  := by
  have hsize : (⟨bytes "\"\n", 5⟩ : FileInfo).size < 2 ^ 53 := by decide
  have hsafe : (Post.setFileInfo (bytes "\"\n") 5).IsSafe := isSafe_setFileInfo hsize
  apply (Post.wsOnMessage_text (k := 0) _ hsafe 0 (by decide) (by decide) (by decide)).trans
  rfl

theorem wsOnMessage_frame_binary :
  (server.wsOnMessage config 0 sender Rvalue.load (frame (.binary [1, 2, 3, 4, 5]))).1
      = server.perform config 0 (.addChunk [1, 2, 3, 4, 5])
    ∧ ((server.wsOnMessage config 0 sender Rvalue.load (frame (.binary [1, 2, 3, 4, 5]))).2
        = .addingChunkFailure
      ↔ Upload.failure config.toConfig (.create sender false) (.binary [1, 2, 3, 4, 5])
        = [.addChunkFailure])
  := wsOnMessage_frame (k := 0) 0 (by decide) (by decide) (by decide) rfl (by decide) trivial

end Sample

end Wire

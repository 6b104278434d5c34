import PutInPipe.Web.Transfer
import PutInPipe.Web.Wire

/-!
# What the pages are told

The server tells the pages of everything by the texts of JSON objects, `SerializableEvent` and
`start_init`. The container of the fields of an object may put them into any order, and to an
event that has to be acknowledged a number is added. What the handlers of the pages read of a
text is the message that was meant: `Message` on the page of the sender, `Notice` on that of a
receiver.

Numbers are integers of the page, which they are without loss below `2 ^ 53`. A text that is not
UTF-8 does not get to the page: the browser fails the connection on it. Whether a text is UTF-8
depends on the strings in it, ids and names, which the server takes as they are.
-/

open Text (Bytes IsUTF8)
open TransferSessionDetails (ChunkInfo)
open Wvalue (dump withId toJson IsJson fieldJson)

/-! ### What the server sends -/

/-- Who is in a session, as `start_init` says. -/
structure Member where
  id : Bytes
  name : Bytes
  currentChunk : ℕ
  isOnline : Bool
deriving DecidableEq, Repr

/-- What `wsOnConnect` reads of the configuration, the session and the client. -/
structure StartInit where
  sessionId : Bytes
  maxReceiverCount : ℕ
  maxChunkSize : ℕ
  maxInitialFreeze : ℕ
  maxChunkQueue : ℕ
  receivers : List Member
  sender : Option Member
  currentChunk : ℕ
  uploadFinished : Bool
  someChunkWasRemoved : Bool
  initialFreeze : Bool
  initialFreezeRemaining : Int64
  chunks : List ChunkInfo
  expirationIn : ℕ
  fileInfo : FileInfo
  bytesIn : ℕ
  bytesOut : ℕ
  receivedByYou : ℕ

/-- The events of `SerializableEvent`, and the greeting. -/
inductive Outgoing where
  | online (publicId : Bytes) (connected : Bool)
  | nameChanged (publicId name : Bytes)
  | newReceiver (publicId name : Bytes)
  | receiverRemoved (publicId : Bytes)
  | fileInfoUpdated (name : Bytes) (size : ℕ)
  | chunkDownload (publicId : Bytes) (chunkId : ℕ) (started : Bool)
  | newChunkAvailable (chunkId size : ℕ)
  | chunksRemoved (list : List ℕ)
  | uploadFinished
  | sessionComplete (type : TransferSessionCompleteType)
  | kicked
  | totalBytesCount (value : ℕ) (isIn : Bool)
  | newChunkIsAllowed (status : Bool)
  | chunksAreUnfrozen
  | personalReceivedUpdated (bytes : ℕ)
  | addingChunkFailure
  | setFileInfoFailure
  | getChunkFailure (list : List ChunkInfo)
  | unknownAction (action : Bytes)
  | startInit (init : StartInit)

namespace Wvalue

/-- A `size_t`. -/
def size (n : ℕ) : Wvalue := .unsigned (UInt64.ofNat n)

/-- A value that is only made into a list by its first element. -/
def indexed (elements : List Wvalue) : Wvalue := if elements.isEmpty then .null else .list elements

def ofChunkInfo (info : ChunkInfo) : Wvalue :=
  .object [(bytes "index", size info.index), (bytes "size", size info.size)]

end Wvalue

open Wvalue (size indexed ofChunkInfo)

namespace Member

def receiverInfo (m : Member) : Wvalue :=
  .object [(bytes "id", .string m.id), (bytes "name", .string m.name),
    (bytes "current_chunk", size m.currentChunk), (bytes "is_online", .boolean m.isOnline)]

def senderInfo (m : Member) : Wvalue :=
  .object [(bytes "id", .string m.id), (bytes "name", .string m.name),
    (bytes "is_online", .boolean m.isOnline)]

end Member

namespace StartInit

def limits (init : StartInit) : List (Bytes × Wvalue) :=
  [(bytes "max_receiver_count", size init.maxReceiverCount),
    (bytes "max_chunk_size", size init.maxChunkSize),
    (bytes "max_initial_freeze", size init.maxInitialFreeze),
    (bytes "max_chunk_queue", size init.maxChunkQueue)]

def members (init : StartInit) : List (Bytes × Wvalue) :=
  [(bytes "receivers", .list (init.receivers.map Member.receiverInfo)),
    (bytes "sender", (init.sender.map Member.senderInfo).getD .null)]

def state (init : StartInit) : List (Bytes × Wvalue) :=
  [(bytes "current_chunk", size init.currentChunk),
    (bytes "upload_finished", .boolean init.uploadFinished),
    (bytes "some_chunk_was_removed", .boolean init.someChunkWasRemoved),
    (bytes "initial_freeze", .boolean init.initialFreeze),
    (bytes "initial_freeze_remaining", .signed init.initialFreezeRemaining),
    (bytes "chunks", indexed (init.chunks.map ofChunkInfo)),
    (bytes "expiration_in", size init.expirationIn),
    (bytes "file", .object [(bytes "name", .string init.fileInfo.name),
      (bytes "size", size init.fileInfo.size)])]

def transferred (init : StartInit) : List (Bytes × Wvalue) :=
  [(bytes "global", .object [(bytes "from_sender", size init.bytesIn),
      (bytes "to_receivers", size init.bytesOut)]),
    (bytes "received_by_you", size init.receivedByYou)]

end StartInit

namespace Outgoing

def event : Outgoing → String
  | online _ _ => "online"
  | nameChanged _ _ => "name_changed"
  | newReceiver _ _ => "new_receiver"
  | receiverRemoved _ => "receiver_removed"
  | fileInfoUpdated _ _ => "file_info"
  | chunkDownload _ _ _ => "chunk_download"
  | newChunkAvailable _ _ => "new_chunk"
  | chunksRemoved _ => "chunk_removed"
  | uploadFinished => "upload_finished"
  | sessionComplete _ => "complete"
  | kicked => "kicked"
  | totalBytesCount _ _ => "bytes_count"
  | newChunkIsAllowed _ => "new_chunk_allowed"
  | chunksAreUnfrozen => "chunks_unfrozen"
  | personalReceivedUpdated _ => "personal_received"
  | addingChunkFailure => "add_chunk_failure"
  | setFileInfoFailure => "set_file_info_failure"
  | getChunkFailure _ => "requested_chunk_not_found"
  | unknownAction _ => "unknown_action"
  | startInit _ => "start_init"

def data : Outgoing → List (Bytes × Wvalue)
  | online publicId connected =>
      [(bytes "id", .string publicId), (bytes "status", .boolean connected)]
  | nameChanged publicId name | newReceiver publicId name =>
      [(bytes "id", .string publicId), (bytes "name", .string name)]
  | receiverRemoved publicId => [(bytes "id", .string publicId)]
  | fileInfoUpdated name n => [(bytes "name", .string name), (bytes "size", size n)]
  | chunkDownload publicId chunkId started =>
      [(bytes "id", .string publicId), (bytes "index", size chunkId),
        (bytes "action", .string (bytes (if started then "started" else "finished")))]
  | newChunkAvailable chunkId n => [(bytes "index", size chunkId), (bytes "size", size n)]
  | chunksRemoved list => [(bytes "id", indexed (list.map size))]
  | sessionComplete type => [(bytes "status", .string (SerializableEvent.status type))]
  | totalBytesCount value isIn =>
      [(bytes "value", size value),
        (bytes "direction", .string (bytes (if isIn then "from_sender" else "to_receivers")))]
  | newChunkIsAllowed status => [(bytes "status", .boolean status)]
  | personalReceivedUpdated n => [(bytes "bytes", size n)]
  | getChunkFailure list => [(bytes "available", indexed (list.map ofChunkInfo))]
  | unknownAction action => [(bytes "name", .string action)]
  | startInit init =>
      [(bytes "session_id", .string init.sessionId), (bytes "limits", .object init.limits),
        (bytes "members", .object init.members), (bytes "state", .object init.state),
        (bytes "transferred", .object init.transferred)]
  | uploadFinished | kicked | chunksAreUnfrozen | addingChunkFailure | setFileInfoFailure => []

/-- The names of the data. -/
def keys : Outgoing → List String
  | online _ _ => ["id", "status"]
  | nameChanged _ _ | newReceiver _ _ => ["id", "name"]
  | receiverRemoved _ | chunksRemoved _ => ["id"]
  | fileInfoUpdated _ _ => ["name", "size"]
  | chunkDownload _ _ _ => ["id", "index", "action"]
  | newChunkAvailable _ _ => ["index", "size"]
  | sessionComplete _ | newChunkIsAllowed _ => ["status"]
  | totalBytesCount _ _ => ["value", "direction"]
  | personalReceivedUpdated _ => ["bytes"]
  | getChunkFailure _ => ["available"]
  | unknownAction _ => ["name"]
  | startInit _ => ["session_id", "limits", "members", "state", "transferred"]
  | uploadFinished | kicked | chunksAreUnfrozen | addingChunkFailure | setFileInfoFailure => []

theorem keys_data (o : Outgoing) :
  o.data.map Prod.fst = o.keys.map bytes
  := by cases o <;> rfl

/-- The names are different and have nothing to escape. -/
theorem keys_plain (o : Outgoing) :
  (o.keys.map bytes).Nodup ∧ (∀ key ∈ o.keys.map bytes, Wvalue.escape key = key)
    ∧ ∀ key ∈ o.keys.map bytes, IsUTF8 key
  := by cases o <;> simp only [keys] <;> decide

/-- The object that `json` dumps. -/
def root (o : Outgoing) : List (Bytes × Wvalue) :=
  [(bytes "event", .string (bytes o.event)), (bytes "data", .object o.data)]

end Outgoing

/-! ### The order of the fields -/

namespace Wvalue

section

variable (order : List (Bytes × Wvalue) → List (Bytes × Wvalue))

mutual

/-- The value with the fields of each object in the order of the container. -/
def arrange : Wvalue → Wvalue
  | .list elements => .list (arrangeElements elements)
  | .object fields => .object (order (arrangeFields fields))
  | x => x

def arrangeElements : List Wvalue → List Wvalue
  | [] => []
  | x :: elements => arrange x :: arrangeElements elements

def arrangeFields : List (Bytes × Wvalue) → List (Bytes × Wvalue)
  | [] => []
  | (key, x) :: fields => (key, arrange x) :: arrangeFields fields

end

theorem arrangeElements_eq_map (elements : List Wvalue) :
  arrangeElements order elements = elements.map (arrange order)
  := by
  induction elements with
  | nil => rfl
  | cons x elements ih => rw [arrangeElements, ih, List.map_cons]

theorem arrangeFields_eq_map (fields : List (Bytes × Wvalue)) :
  arrangeFields order fields = fields.map (Prod.map id (arrange order))
  := by
  induction fields with
  | nil => rfl
  | cons field fields ih => rw [arrangeFields, ih, List.map_cons, Prod.map_apply, id]

variable {order}

theorem IsJson.arrange (horder : ∀ fields, (order fields).Perm fields) {x : Wvalue}
    (h : IsJson x) :
  IsJson (x.arrange order)
  := by
  induction h with
  | null => exact .null
  | boolean value => exact .boolean value
  | signed n => exact .signed n
  | unsigned n => exact .unsigned n
  | notFinite => exact .notFinite
  | floating h => exact .floating h
  | string s => exact .string s
  | list _ ih =>
      rw [Wvalue.arrange, arrangeElements_eq_map]
      apply IsJson.list
      simpa using ih
  | object _ ih =>
      rw [Wvalue.arrange, arrangeFields_eq_map]
      apply IsJson.object
      intro field hfield
      obtain ⟨field', hfield', rfl⟩ := List.mem_map.mp ((horder _).mem_iff.mp hfield)
      apply ih field' hfield'

end

end Wvalue

/-! ### UTF-8 -/

namespace Wvalue

/-- The strings and the names in the value are UTF-8. -/
inductive IsText : Wvalue → Prop
  | null : IsText .null
  | boolean (value : Bool) : IsText (.boolean value)
  | signed (n : Int64) : IsText (.signed n)
  | unsigned (n : UInt64) : IsText (.unsigned n)
  | string {s : Bytes} (h : IsUTF8 s) : IsText (.string s)
  | list {elements : List Wvalue} (h : ∀ x ∈ elements, IsText x) : IsText (.list elements)
  | object {fields : List (Bytes × Wvalue)} (hname : ∀ field ∈ fields, IsUTF8 field.1)
      (hvalue : ∀ field ∈ fields, IsText field.2) : IsText (.object fields)

theorem IsText.arrange {order : List (Bytes × Wvalue) → List (Bytes × Wvalue)}
    (horder : ∀ fields, (order fields).Perm fields) {x : Wvalue} (h : IsText x) :
  IsText (x.arrange order)
  := by
  induction h with
  | null => exact .null
  | boolean value => exact .boolean value
  | signed n => exact .signed n
  | unsigned n => exact .unsigned n
  | string h => exact .string h
  | list _ ih =>
      rw [Wvalue.arrange, arrangeElements_eq_map]
      apply IsText.list
      simpa using ih
  | object hname _ ih =>
      rw [Wvalue.arrange, arrangeFields_eq_map]
      apply IsText.object
      · intro field hfield
        obtain ⟨field', hfield', rfl⟩ := List.mem_map.mp ((horder _).mem_iff.mp hfield)
        apply hname field' hfield'
      · intro field hfield
        obtain ⟨field', hfield', rfl⟩ := List.mem_map.mp ((horder _).mem_iff.mp hfield)
        apply ih field' hfield'

theorem isUTF8_digits {s : Bytes} (h : ∀ c ∈ s, Text.isDigit c = true) :
  IsUTF8 s
  := by
  apply Text.isUTF8_of_lt
  intro c hc
  have hdigit := h c hc
  simp only [Text.isDigit, Bool.and_eq_true, decide_eq_true_eq] at hdigit
  apply UInt8.lt_of_le_of_lt hdigit.2
  decide

theorem isUTF8_put (n : Int64) :
  IsUTF8 (Text.put n)
  := by
  have hdigits : ∀ m, IsUTF8 (Text.decimal m) :=
    fun m => isUTF8_digits fun _ => Text.isDigit_of_mem_decimal
  rw [Text.put]
  split
  · apply IsUTF8.append (s := [45]) (by decide) (hdigits _)
  · apply hdigits

/-- Escaping leaves the characters of more than one byte as they are. -/
theorem isUTF8_escape {s : Bytes} (h : IsUTF8 s) :
  IsUTF8 (escape s)
  := by
  apply h.flatMap_bytes
  · intro b hb
    rw [escapeChar]
    grind
  · have hall : ∀ i ∈ List.range 128, ∀ x ∈ escapeChar (UInt8.ofNat i), x < 0x80 := by
      decide +kernel
    intro b hb
    have hsmall := hall b.toNat (List.mem_range.mpr (UInt8.lt_iff_toNat_lt.mp hb))
    rwa [UInt8.ofNat_toNat] at hsmall

theorem isUTF8_dumpString {s : Bytes} (h : IsUTF8 s) :
  IsUTF8 (dumpString s)
  := by
  have hquote : IsUTF8 [34] := by decide
  apply (hquote.append (isUTF8_escape h)).append hquote

/-- The text of a value is UTF-8 when the strings in it are. -/
theorem IsText.isUTF8_dump {x : Wvalue} (h : IsText x) :
  IsUTF8 (dump x)
  := by
  have hcomma : IsUTF8 [44] := by decide
  induction h with
  | null => decide
  | boolean value => cases value <;> decide
  | signed n => apply isUTF8_put
  | unsigned n => exact isUTF8_digits fun _ => Text.isDigit_of_mem_decimal
  | string h => apply isUTF8_dumpString h
  | @list elements _ ih =>
      rw [dump, dumpElements_eq_intercalate]
      have hbody : IsUTF8 ([44].intercalate (elements.map dump)) := by
        apply hcomma.intercalate
        simpa using ih
      apply IsUTF8.append (s := [91]) (by decide) (hbody.append (by decide))
  | @object fields hname _ ih =>
      rw [dump, dumpFields_eq_intercalate]
      have hbody : IsUTF8 ([44].intercalate (fields.map dumpField)) := by
        apply hcomma.intercalate
        intro s hs
        obtain ⟨field, hfield, rfl⟩ := List.mem_map.mp hs
        have hcolon : IsUTF8 [58] := by decide
        apply (isUTF8_dumpString (hname field hfield)).append (hcolon.append (ih field hfield))
      apply IsUTF8.append (s := [123]) (by decide) (hbody.append (by decide))

/-- The text stays UTF-8 when the number of an acknowledgement is put into it. -/
theorem IsText.isUTF8_withId {fields : List (Bytes × Wvalue)} (h : IsText (.object fields))
    (id : UInt64) :
  IsUTF8 (withId id (dump (.object fields)))
  := by
  have hkey : IsUTF8 (bytes "\"id\":") := by decide
  have hrest : IsUTF8 ((dump (.object fields)).drop 1) := by
    have hdump := h.isUTF8_dump
    rw [dump] at hdump ⊢
    apply hdump.of_cons (by decide)
  have htail : IsUTF8 (if 2 < (dump (.object fields)).length
      then 44 :: (dump (.object fields)).drop 1 else (dump (.object fields)).drop 1) := by
    split
    · apply IsUTF8.append (s := [44]) (by decide) hrest
    · apply hrest
  have hid : IsUTF8 (Text.decimal id.toNat) := isUTF8_digits fun _ => Text.isDigit_of_mem_decimal
  apply IsUTF8.append (s := [123]) (by decide) ((hkey.append hid).append htail)

theorem IsText.of_keys {fields : List (Bytes × Wvalue)} (keys : List String)
    (h : fields.map Prod.fst = keys.map bytes) (hkeys : ∀ key ∈ keys.map bytes, IsUTF8 key)
    (hvalue : ∀ field ∈ fields, IsText field.2) :
  IsText (.object fields)
  := by
  apply IsText.object _ hvalue
  intro field hfield
  apply hkeys
  rw [← h]
  apply List.mem_map_of_mem hfield

theorem isText_size (n : ℕ) :
  IsText (size n)
  := .unsigned _

theorem isText_indexed {elements : List Wvalue} (h : ∀ x ∈ elements, IsText x) :
  IsText (indexed elements)
  := by
  rw [indexed]
  split
  · exact .null
  · exact .list h

theorem isText_chunks (chunks : List ChunkInfo) :
  IsText (indexed (chunks.map ofChunkInfo))
  := by
  apply isText_indexed
  intro x hx
  obtain ⟨info, _, rfl⟩ := List.mem_map.mp hx
  apply IsText.of_keys ["index", "size"] rfl (by decide)
  simp [isText_size]

end Wvalue

open Wvalue (IsText isText_size isText_indexed isText_chunks)

/-- The strings in what is told of a member. -/
def Member.strings (m : Member) : List Bytes := [m.id, m.name]

namespace Member

theorem isText_receiverInfo {m : Member} (h : ∀ s ∈ m.strings, IsUTF8 s) :
  IsText m.receiverInfo
  := by
  apply IsText.of_keys ["id", "name", "current_chunk", "is_online"] rfl (by decide)
  simp only [strings, List.forall_mem_cons] at h
  simp [isText_size, IsText.boolean, IsText.string h.1, IsText.string h.2.1]

theorem isText_senderInfo {m : Member} (h : ∀ s ∈ m.strings, IsUTF8 s) :
  IsText m.senderInfo
  := by
  apply IsText.of_keys ["id", "name", "is_online"] rfl (by decide)
  simp only [strings, List.forall_mem_cons] at h
  simp [IsText.boolean, IsText.string h.1, IsText.string h.2.1]

end Member

/-- The ids and names in the greeting. -/
def StartInit.strings (init : StartInit) : List Bytes :=
  init.sessionId :: init.fileInfo.name
    :: (init.receivers ++ init.sender.toList).flatMap Member.strings

/-- The ids and names that an event carries. -/
def Outgoing.strings : Outgoing → List Bytes
  | .online publicId _ | .receiverRemoved publicId | .chunkDownload publicId _ _ => [publicId]
  | .nameChanged publicId name | .newReceiver publicId name => [publicId, name]
  | .fileInfoUpdated name _ | .unknownAction name => [name]
  | .startInit init => init.strings
  | _ => []

namespace StartInit

theorem isText_members {init : StartInit} (h : ∀ s ∈ init.strings, IsUTF8 s) :
  IsText (.object init.members)
  := by
  simp only [strings, List.forall_mem_cons, List.forall_mem_flatMap, List.mem_append] at h
  have hreceivers : IsText (.list (init.receivers.map Member.receiverInfo)) := by
    apply IsText.list
    intro x hx
    obtain ⟨m, hm, rfl⟩ := List.mem_map.mp hx
    apply Member.isText_receiverInfo (h.2.2 m (Or.inl hm))
  have hsender : IsText ((init.sender.map Member.senderInfo).getD .null) := by
    cases hs : init.sender with
    | none => exact .null
    | some m => apply Member.isText_senderInfo (h.2.2 m (Or.inr (by simp [hs])))
  apply IsText.of_keys ["receivers", "sender"] rfl (by decide)
  simp [members, hreceivers, hsender]

theorem isText_state {init : StartInit} (h : IsUTF8 init.fileInfo.name) :
  IsText (.object init.state)
  := by
  have hfile : IsText (.object [(bytes "name", .string init.fileInfo.name),
      (bytes "size", size init.fileInfo.size)]) := by
    apply IsText.of_keys ["name", "size"] rfl (by decide)
    simp [isText_size, IsText.string h]
  apply IsText.of_keys ["current_chunk", "upload_finished", "some_chunk_was_removed",
    "initial_freeze", "initial_freeze_remaining", "chunks", "expiration_in", "file"] rfl
    (by decide)
  simp [state, isText_size, IsText.signed, IsText.boolean, isText_chunks, hfile]

theorem isText_data {init : StartInit} (h : ∀ s ∈ init.strings, IsUTF8 s) :
  ∀ field ∈ (Outgoing.startInit init).data, IsText field.2
  := by
  have hlimits : IsText (.object init.limits) := by
    apply IsText.of_keys ["max_receiver_count", "max_chunk_size", "max_initial_freeze",
      "max_chunk_queue"] rfl (by decide)
    simp [limits, isText_size]
  have hglobal : IsText (.object [(bytes "from_sender", size init.bytesIn),
      (bytes "to_receivers", size init.bytesOut)]) := by
    apply IsText.of_keys ["from_sender", "to_receivers"] rfl (by decide)
    simp [isText_size]
  have htransferred : IsText (.object init.transferred) := by
    apply IsText.of_keys ["global", "received_by_you"] rfl (by decide)
    simp [transferred, isText_size, hglobal]
  have hmembers := isText_members h
  simp only [strings, List.forall_mem_cons] at h
  simp [Outgoing.data, hlimits, hmembers, isText_state h.2.1, htransferred, IsText.string h.1]

end StartInit

namespace Outgoing

theorem isText_data {o : Outgoing} (h : ∀ s ∈ o.strings, IsUTF8 s) :
  ∀ field ∈ o.data, IsText field.2
  := by
  have hindices : ∀ list : List ℕ, IsText (indexed (list.map size)) := by
    intro list
    apply isText_indexed
    simp [isText_size]
  have hword : ∀ started : Bool, IsText (.string (bytes (if started then "started"
      else "finished"))) := fun started => .string (by cases started <;> decide)
  have hdirection : ∀ isIn : Bool, IsText (.string (bytes (if isIn then "from_sender"
      else "to_receivers"))) := fun isIn => .string (by cases isIn <;> decide)
  have hstatus : ∀ type, IsText (.string (SerializableEvent.status type)) :=
    fun type => .string (by cases type <;> decide)
  cases o with
  | startInit init => apply init.isText_data h
  | _ =>
      simp only [strings, List.forall_mem_cons] at h
      simp [data, isText_size, IsText.boolean, IsText.string, isText_chunks, hindices,
        hword, hdirection, hstatus, h]

theorem isText_root {o : Outgoing} (h : ∀ s ∈ o.strings, IsUTF8 s) :
  IsText (.object o.root)
  := by
  have hdata : IsText (.object o.data) := by
    apply IsText.of_keys o.keys o.keys_data o.keys_plain.2.2 (isText_data h)
  have hevent : IsUTF8 (bytes o.event) := by cases o <;> simp only [event] <;> decide
  apply IsText.of_keys ["event", "data"] rfl (by decide)
  simp [root, hdata, IsText.string hevent]

end Outgoing

/-! ### Fields by their names -/

/-- What is found under a key does not depend on the order, if no key occurs twice. -/
theorem List.Perm.find?_key {α β : Type} [BEq α] [LawfulBEq α] {l l' : List (α × β)}
    (h : l.Perm l') (hnodup : (l.map Prod.fst).Nodup) (key : α) :
  l.find? (·.1 == key) = l'.find? (·.1 == key)
  := by
  have hsome : ∀ {m m' : List (α × β)}, m.Perm m' → (m.map Prod.fst).Nodup →
      ∀ {a}, m.find? (·.1 == key) = some a → m'.find? (·.1 == key) = some a := by
    intro m m' hm hm' a ha
    have hkey := List.find?_some ha
    have hmem := hm.mem_iff.mp (List.mem_of_find?_eq_some ha)
    have hfound : (m'.find? (·.1 == key)).isSome := by
      rw [List.find?_isSome]
      exact ⟨a, hmem, hkey⟩
    obtain ⟨b, hb⟩ := Option.isSome_iff_exists.mp hfound
    have hkey' := List.find?_some hb
    have hsame : b.1 = a.1 := (eq_of_beq hkey').trans (eq_of_beq hkey).symm
    rw [hb, List.inj_on_of_nodup_map ((hm.map _).nodup_iff.mp hm')
      (List.mem_of_find?_eq_some hb) hmem hsame]
  cases hl : l.find? (·.1 == key) with
  | some a => rw [hsome h hnodup hl]
  | none =>
      cases hl' : l'.find? (·.1 == key) with
      | none => rfl
      | some a => rw [hsome h.symm ((h.map _).nodup_iff.mp hnodup) hl'] at hl; cases hl

namespace Wvalue

variable {order : List (Bytes × Wvalue) → List (Bytes × Wvalue)}

/-- The names of the fields are different and have nothing to escape. -/
structure Plain (fields : List (Bytes × Wvalue)) : Prop where
  nodup : (fields.map Prod.fst).Nodup
  escape : ∀ field ∈ fields, escape field.1 = field.1

theorem Plain.of_keys {fields : List (Bytes × Wvalue)} (keys : List String)
    (h : fields.map Prod.fst = keys.map bytes) (hnodup : (keys.map bytes).Nodup)
    (hescape : ∀ key ∈ keys.map bytes, Wvalue.escape key = key) :
  Plain fields
  := by
  constructor
  · rw [h]
    apply hnodup
  · intro field hfield
    apply hescape
    rw [← h]
    apply List.mem_map_of_mem hfield

/-- The names of the fields of an object are found in its text, in whatever order they are. -/
theorem Plain.get_arrange (horder : ∀ fields, (order fields).Perm fields)
    {fields : List (Bytes × Wvalue)} (h : Plain fields) (key : Bytes) :
  (toJson (arrange order (.object fields))).get key
    = (fields.find? (·.1 == key)).map fun field => toJson (arrange order field.2)
  := by
  have hperm : ((order (arrangeFields order fields)).map fieldJson).reverse.Perm
      (fields.map fun field => (field.1, toJson (arrange order field.2))) := by
    apply (List.reverse_perm _).trans
    apply ((horder _).map fieldJson).trans
    rw [arrangeFields_eq_map, List.map_map]
    apply List.Perm.of_eq
    apply List.map_congr_left
    intro field hfield
    rw [Function.comp_apply, Prod.map_apply', fieldJson, id, h.escape field hfield]
  have hnodup : (((order (arrangeFields order fields)).map fieldJson).reverse.map
      Prod.fst).Nodup := by
    apply (hperm.map Prod.fst).nodup_iff.mpr
    rw [List.map_map]
    apply h.nodup
  rw [arrange, toJson, fieldsJson_eq_map, Json.get, hperm.find?_key hnodup, List.find?_map,
    Option.map_map]
  rfl

end Wvalue

/-! ### What a page reads -/

namespace Msg

/-- The object that `JSON.parse` makes of the data of a text message. -/
def ofText (text : Bytes) : Option Json := if IsUTF8 text then Json.parse text else none

def truthy : Json → Bool
  | .null => false
  | .boolean value => value
  | .number literal => Text.value literal ≠ 0
  | .string literal => !literal.isEmpty
  | .array _ | .object _ => true

def number? : Json → Option ℕ
  | .number literal =>
      if literal.all Text.isDigit && decide (Text.value literal < 2 ^ 53) then
        some (Text.value literal)
      else none
  | _ => none

def string? : Json → Option Bytes
  | .string literal => Json.decode literal
  | _ => none

def boolean? : Json → Option Bool
  | .boolean value => some value
  | _ => none

/-- An array, where `Array.isArray` says that it is one, and else an empty one. -/
def elements : Json → List Json
  | .array elements => elements
  | _ => []

/-- `msg.event`. -/
def event (msg : Json) : Option Bytes := (msg.get (bytes "event")).bind string?

/-- `msg.data || msg`. -/
def data (msg : Json) : Json :=
  match msg.get (bytes "data") with
  | some d => if truthy d then d else msg
  | none => msg

def field {α : Type} (d : Json) (key : String) (read : Json → Option α) : Option α :=
  (d.get (bytes key)).bind read

/-- The indices of the chunks in `state.chunks`. -/
def chunks (state : Json) : Option (List ℕ) :=
  (elements ((state.get (bytes "chunks")).getD .null)).mapM fun c => field c "index" number?

def status? (s : Bytes) : Option TransferSessionCompleteType :=
  if s = bytes "ok" then some .ok
  else if s = bytes "timeout" then some .timeout
  else if s = bytes "sender_is_gone" then some .senderIsGone
  else if s = bytes "no_receivers" then some .noReceivers
  else none

end Msg

open Msg (number? string? boolean? field)

/-- What the handlers on the page of the sender read. -/
def Message.ofMsg (msg : Json) : Option Message :=
  match Msg.event msg with
  | none => none
  | some event =>
      let d := Msg.data msg
      if event = bytes "new_chunk" then
        (field d "index" number?).bind fun index =>
          (field d "size" number?).map fun size => .newChunk index size
      else if event = bytes "new_chunk_allowed" then
        (field d "status" boolean?).map .newChunkAllowed
      else if event = bytes "chunk_removed" then
        ((Msg.elements ((d.get (bytes "id")).getD .null)).mapM number?).map .chunkRemoved
      else if event = bytes "add_chunk_failure" then some .addChunkFailure
      else if event = bytes "start_init" then
        (d.get (bytes "state")).bind fun state =>
          (Msg.chunks state).bind fun chunks =>
            (field state "current_chunk" number?).map fun currentChunk =>
              .startInit chunks currentChunk
      else none

/-- The file of the session that a page is loaded with, if it has a name. -/
def Msg.file (state : Json) : Option (Option FileInfo) :=
  (state.get (bytes "file")).bind fun file =>
    (field file "name" string?).bind fun name =>
      (field file "size" number?).map fun size =>
        if name.isEmpty then none else some ⟨name, size⟩

/-- What the handlers on the page of a receiver read, whose id is `myId`. -/
def Notice.ofMsg (myId : Bytes) (msg : Json) : Option Notice :=
  match Msg.event msg with
  | none => none
  | some event =>
      let d := Msg.data msg
      if event = bytes "file_info" then
        (field d "name" string?).bind fun name =>
          (field d "size" number?).map fun size => .fileInfo ⟨name, size⟩
      else if event = bytes "upload_finished" then some .uploadFinished
      else if event = bytes "new_chunk" then (field d "index" number?).map .newChunk
      else if event = bytes "chunk_download" then
        (field d "action" string?).bind fun action =>
          (field d "id" string?).map fun id =>
            .chunkDownload (decide (action = bytes "finished") && decide (id = myId))
      else if event = bytes "personal_received" then some .personalReceived
      else if event = bytes "complete" then
        (field d "status" string?).bind fun status => (Msg.status? status).map .complete
      else if event = bytes "kicked" then some .kicked
      else if event = bytes "start_init" then
        (d.get (bytes "state")).bind fun state =>
          (field state "upload_finished" boolean?).bind fun uploadFinished =>
            (field state "current_chunk" number?).bind fun currentChunk =>
              (Msg.chunks state).bind fun chunks =>
                (Msg.file state).map fun file =>
                  .startInit { uploadFinished, currentChunk, chunks } file
      else none

/-! ### The values are JSON, and their fields are told apart -/

namespace Wvalue

theorem isJson_size (n : ℕ) :
  IsJson (size n)
  := .unsigned _

theorem isJson_indexed {elements : List Wvalue} (h : ∀ x ∈ elements, IsJson x) :
  IsJson (indexed elements)
  := by
  rw [indexed]
  split
  · exact .null
  · exact .list h

theorem isJson_ofChunkInfo (info : ChunkInfo) :
  IsJson (ofChunkInfo info)
  := by
  apply IsJson.object
  simp [isJson_size]

theorem isJson_chunks (chunks : List ChunkInfo) :
  IsJson (indexed (chunks.map ofChunkInfo))
  := by
  apply isJson_indexed
  simp [isJson_ofChunkInfo]

end Wvalue

open Wvalue (isJson_size isJson_indexed isJson_chunks)

namespace Member

theorem isJson_receiverInfo (m : Member) :
  IsJson m.receiverInfo
  := by
  apply IsJson.object
  simp [isJson_size, IsJson.string, IsJson.boolean]

theorem isJson_senderInfo (m : Member) :
  IsJson m.senderInfo
  := by
  apply IsJson.object
  simp [IsJson.string, IsJson.boolean]

end Member

namespace StartInit

theorem isJson_limits (init : StartInit) :
  IsJson (.object init.limits)
  := by
  apply IsJson.object
  simp [limits, isJson_size]

theorem isJson_members (init : StartInit) :
  IsJson (.object init.members)
  := by
  have hreceivers : IsJson (.list (init.receivers.map Member.receiverInfo)) := by
    apply IsJson.list
    simp [Member.isJson_receiverInfo]
  have hsender : IsJson ((init.sender.map Member.senderInfo).getD .null) := by
    cases init.sender with
    | none => exact .null
    | some m => apply m.isJson_senderInfo
  apply IsJson.object
  simp [members, hreceivers, hsender]

theorem isJson_state (init : StartInit) :
  IsJson (.object init.state)
  := by
  have hfile : IsJson (.object [(bytes "name", .string init.fileInfo.name),
      (bytes "size", size init.fileInfo.size)]) := by
    apply IsJson.object
    simp [isJson_size, IsJson.string]
  apply IsJson.object
  simp [state, isJson_size, isJson_chunks, hfile, IsJson.boolean, IsJson.signed]

theorem isJson_transferred (init : StartInit) :
  IsJson (.object init.transferred)
  := by
  have hglobal : IsJson (.object [(bytes "from_sender", size init.bytesIn),
      (bytes "to_receivers", size init.bytesOut)]) := by
    apply IsJson.object
    simp [isJson_size]
  apply IsJson.object
  simp [transferred, isJson_size, hglobal]

theorem plain_state (init : StartInit) :
  Wvalue.Plain init.state
  := .of_keys ["current_chunk", "upload_finished", "some_chunk_was_removed", "initial_freeze",
    "initial_freeze_remaining", "chunks", "expiration_in", "file"] rfl (by decide) (by decide)

end StartInit

namespace Outgoing

theorem isJson_data (o : Outgoing) :
  ∀ field ∈ o.data, IsJson field.2
  := by
  have hindices : ∀ list : List ℕ, IsJson (indexed (list.map size)) := by
    intro list
    apply isJson_indexed
    simp [isJson_size]
  cases o with
  | startInit init =>
      simp [data, init.isJson_limits, init.isJson_members, init.isJson_state,
        init.isJson_transferred, IsJson.string]
  | _ => simp [data, isJson_size, isJson_chunks, hindices, IsJson.string, IsJson.boolean]

theorem isJson_root (o : Outgoing) :
  IsJson (.object o.root)
  := by
  apply IsJson.object
  rw [root, List.forall_mem_cons, List.forall_mem_singleton]
  exact ⟨.string _, .object o.isJson_data⟩

/-- The names of the fields of an event are different and have nothing to escape. -/
theorem plain_data (o : Outgoing) :
  Wvalue.Plain o.data
  := by
  apply Wvalue.Plain.of_keys o.keys o.keys_data o.keys_plain.1 o.keys_plain.2.1

/-- The text of an event, with the number by which it is acknowledged, if it has one. -/
def text (order : List (Bytes × Wvalue) → List (Bytes × Wvalue)) (ackId : Option UInt64)
    (o : Outgoing) : Bytes :=
  let json := dump (Wvalue.arrange order (.object o.root))
  match ackId with
  | none => json
  | some id => withId id json

variable {order : List (Bytes × Wvalue) → List (Bytes × Wvalue)}

theorem plain_root (o : Outgoing) :
  Wvalue.Plain o.root
  := .of_keys ["event", "data"] rfl (by decide) (by decide)

/-- The text of an event is UTF-8 when its ids and names are. -/
theorem isUTF8_text (horder : ∀ fields, (order fields).Perm fields) (ackId : Option UInt64)
    {o : Outgoing} (h : ∀ s ∈ o.strings, IsUTF8 s) :
  IsUTF8 (o.text order ackId)
  := by
  have htext := (isText_root h).arrange horder
  cases ackId with
  | none => apply htext.isUTF8_dump
  | some id =>
      rw [Wvalue.arrange] at htext
      rw [text, Wvalue.arrange]
      apply htext.isUTF8_withId

/-- The members of the object that a page gets, besides the number. -/
theorem exists_parse_text (horder : ∀ fields, (order fields).Perm fields) (ackId : Option UInt64)
    (o : Outgoing) :
  ∃ msg, Json.parse (o.text order ackId) = some msg ∧ ∀ key, key ≠ bytes "id" →
    msg.get key = (o.root.find? (·.1 == key)).map fun field =>
      toJson (Wvalue.arrange order field.2)
  := by
  have hjson := (o.isJson_root).arrange horder
  have hget := o.plain_root.get_arrange horder
  rw [Wvalue.arrange] at hjson hget
  have hparse := hjson.parse_object
  have hroot : toJson (.object (order (Wvalue.arrangeFields order o.root)))
      = .object ((order (Wvalue.arrangeFields order o.root)).map fieldJson) := by
    rw [toJson, Wvalue.fieldsJson_eq_map]
  rw [hroot] at hget
  cases ackId with
  | none =>
      rw [text, Wvalue.arrange]
      exact ⟨_, hparse, fun key _ => hget key⟩
  | some id =>
      rw [text, Wvalue.arrange, Wvalue.parse_insertId, hparse]
      refine ⟨_, rfl, ?_⟩
      intro key hkey
      rw [Json.get_insert, if_neg hkey.symm, Option.or_none]
      apply hget

/-- A page reads the name of an event and each of its data. -/
theorem exists_msg (horder : ∀ fields, (order fields).Perm fields) (ackId : Option UInt64)
    {o : Outgoing} (h : ∀ s ∈ o.strings, IsUTF8 s) :
  ∃ msg, Msg.ofText (o.text order ackId) = some msg ∧ Msg.event msg = some (bytes o.event)
    ∧ ∀ key, (Msg.data msg).get key = (o.data.find? (·.1 == key)).map fun field =>
      toJson (Wvalue.arrange order field.2)
  := by
  obtain ⟨msg, hparse, hget⟩ := o.exists_parse_text horder ackId
  have hevent : msg.get (bytes "event") = some (.string (Wvalue.escape (bytes o.event))) := by
    rw [hget _ (by decide), root]
    rfl
  have hdata : msg.get (bytes "data") = some (toJson (Wvalue.arrange order (.object o.data))) := by
    rw [hget _ (by decide), root]
    rfl
  have hread : Msg.ofText (o.text order ackId) = some msg := by
    rw [Msg.ofText, if_pos (isUTF8_text horder ackId h), hparse]
  refine ⟨msg, hread, ?_, ?_⟩
  · rw [Msg.event, hevent, Option.bind_some, string?, Wire.decode_escape]
  · intro key
    have hobject : Msg.data msg = toJson (Wvalue.arrange order (.object o.data)) := by
      rw [Msg.data, hdata, Wvalue.arrange, toJson]
      rfl
    rw [hobject]
    apply o.plain_data.get_arrange horder

/-! ### What is meant -/

/-- The numbers that a page reads are integers there. -/
def HasIntegers : Outgoing → Prop
  | fileInfoUpdated _ n => n < 2 ^ 53
  | newChunkAvailable chunkId n => chunkId < 2 ^ 53 ∧ n < 2 ^ 53
  | chunksRemoved list => ∀ n ∈ list, n < 2 ^ 53
  | startInit init =>
      init.currentChunk < 2 ^ 53 ∧ init.fileInfo.size < 2 ^ 53
        ∧ ∀ info ∈ init.chunks, info.index < 2 ^ 53
  | _ => True

/-- The ids and names are UTF-8, and the numbers that a page reads are integers there. -/
structure IsSafe (o : Outgoing) : Prop where
  isUTF8 : ∀ s ∈ o.strings, IsUTF8 s
  integers : o.HasIntegers

/-- The message to the page of the sender. -/
def message : Outgoing → Option Message
  | newChunkAvailable chunkId n => some (.newChunk chunkId n)
  | newChunkIsAllowed status => some (.newChunkAllowed status)
  | chunksRemoved list => some (.chunkRemoved list)
  | addingChunkFailure => some .addChunkFailure
  | startInit init => some (.startInit (init.chunks.map ChunkInfo.index) init.currentChunk)
  | _ => none

/-- The message to the page of a receiver. -/
def notice (myId : Bytes) : Outgoing → Option Notice
  | fileInfoUpdated name n => some (.fileInfo ⟨name, n⟩)
  | uploadFinished => some .uploadFinished
  | newChunkAvailable chunkId _ => some (.newChunk chunkId)
  | chunkDownload publicId _ started => some (.chunkDownload (!started && decide (publicId = myId)))
  | personalReceivedUpdated _ => some .personalReceived
  | sessionComplete type => some (.complete type)
  | kicked => some .kicked
  | startInit init =>
      some (.startInit
        { uploadFinished := init.uploadFinished
          currentChunk := init.currentChunk
          chunks := init.chunks.map ChunkInfo.index }
        (if init.fileInfo.name.isEmpty then none else some init.fileInfo))
  | _ => none

end Outgoing

/-! ### What is read of the data -/

namespace Msg

section

variable {order : List (Bytes × Wvalue) → List (Bytes × Wvalue)}

theorem number?_size (order : List (Bytes × Wvalue) → List (Bytes × Wvalue)) {n : ℕ}
    (h : n < 2 ^ 53) :
  number? (toJson (Wvalue.arrange order (size n))) = some n
  := by
  have hsize : (UInt64.ofNat n).toNat = n := by
    rw [UInt64.toNat_ofNat']
    apply Nat.mod_eq_of_lt (Nat.lt_trans h (by decide))
  have hdigits : (Text.decimal n).all Text.isDigit = true :=
    List.all_eq_true.mpr fun _ => Text.isDigit_of_mem_decimal
  rw [size, Wvalue.arrange, toJson, hsize, number?, hdigits, Text.value_decimal, decide_eq_true h]
  · rfl
  · rintro _ ⟨⟩
  · rintro _ ⟨⟩

theorem string?_string (order : List (Bytes × Wvalue) → List (Bytes × Wvalue)) (s : Bytes) :
  string? (toJson (Wvalue.arrange order (.string s))) = some s
  := Wire.decode_escape s

theorem mapM_map {α β : Type} {f : α → Option β} {l : List α} {r : List β}
    (h : l.map f = r.map some) :
  l.mapM f = some r
  := by
  induction l generalizing r with
  | nil =>
      rw [List.map_eq_nil_iff.mp h.symm]
      rfl
  | cons a l ih =>
      cases r with
      | nil => cases h
      | cons b r =>
          obtain ⟨ha, hl⟩ := List.cons.inj h
          rw [List.mapM_cons, ha, ih hl]
          rfl

/-- The elements of a list are read, also where there is no list because there are none. -/
theorem mapM_elements {α β : Type} {f : α → Wvalue} {read : Json → Option β} {g : α → β}
    {l : List α} (h : ∀ a ∈ l, read (toJson (Wvalue.arrange order (f a))) = some (g a)) :
  (Msg.elements (toJson (Wvalue.arrange order (indexed (l.map f))))).mapM read = some (l.map g)
  := by
  have hmap : Msg.elements (toJson (Wvalue.arrange order (indexed (l.map f))))
      = l.map fun a => toJson (Wvalue.arrange order (f a)) := by
    rw [indexed]
    split
    case isTrue hempty =>
      rw [List.map_eq_nil_iff.mp (List.isEmpty_iff.mp hempty)]
      rfl
    case isFalse =>
      rw [Wvalue.arrange, toJson, Wvalue.elementsJson_eq_map, Wvalue.arrangeElements_eq_map,
        List.map_map, List.map_map]
      rfl
  rw [hmap]
  apply mapM_map
  rw [List.map_map, List.map_map]
  apply List.map_congr_left h

end

end Msg

/-! ### What is read is what is meant -/

section

variable {order : List (Bytes × Wvalue) → List (Bytes × Wvalue)} {msg : Json} {e : Bytes}

/-- The page of the sender has no handler for other events. -/
theorem Message.ofMsg_eq_none (hevent : Msg.event msg = some e)
    (h : e ∉ ["new_chunk", "new_chunk_allowed", "chunk_removed", "add_chunk_failure",
      "start_init"].map bytes) :
  Message.ofMsg msg = none
  := by
  simp only [List.map_cons, List.map_nil, List.mem_cons, List.not_mem_nil, or_false, not_or] at h
  rw [Message.ofMsg, hevent]
  simp only
  rw [if_neg h.1, if_neg h.2.1, if_neg h.2.2.1, if_neg h.2.2.2.1, if_neg h.2.2.2.2]

theorem Notice.ofMsg_eq_none (hevent : Msg.event msg = some e)
    (h : e ∉ ["file_info", "upload_finished", "new_chunk", "chunk_download", "personal_received",
      "complete", "kicked", "start_init"].map bytes) (myId : Bytes) :
  Notice.ofMsg myId msg = none
  := by
  simp only [List.map_cons, List.map_nil, List.mem_cons, List.not_mem_nil, or_false, not_or] at h
  obtain ⟨h1, h2, h3, h4, h5, h6, h7, h8⟩ := h
  rw [Notice.ofMsg, hevent]
  simp only
  rw [if_neg h1, if_neg h2, if_neg h3, if_neg h4, if_neg h5, if_neg h6, if_neg h7, if_neg h8]

theorem Msg.chunks_state {init : StartInit} (horder : ∀ fields, (order fields).Perm fields)
    (h : ∀ info ∈ init.chunks, info.index < 2 ^ 53) :
  Msg.chunks (toJson (Wvalue.arrange order (.object init.state)))
    = some (init.chunks.map ChunkInfo.index)
  := by
  rw [Msg.chunks, init.plain_state.get_arrange horder]
  apply Msg.mapM_elements
  intro info hinfo
  have hinner : Wvalue.Plain [(bytes "index", size info.index), (bytes "size", size info.size)] :=
    .of_keys ["index", "size"] rfl (by decide) (by decide)
  rw [ofChunkInfo, field, hinner.get_arrange horder]
  apply Msg.number?_size order (h info hinfo)

theorem Outgoing.message_text (horder : ∀ fields, (order fields).Perm fields)
    (ackId : Option UInt64) {o : Outgoing} (hsafe : o.IsSafe) :
  (Msg.ofText (o.text order ackId)).bind Message.ofMsg = o.message
  := by
  obtain ⟨msg, hread, hevent, hdata⟩ := exists_msg horder ackId hsafe.isUTF8
  have hintegers := hsafe.integers
  rw [hread, Option.bind_some]
  cases o with
  | newChunkAvailable chunkId n =>
      have hindex : field (Msg.data msg) "index" number? = some chunkId := by
        rw [field, hdata]
        apply Msg.number?_size order hintegers.1
      have hsize : field (Msg.data msg) "size" number? = some n := by
        rw [field, hdata]
        apply Msg.number?_size order hintegers.2
      rw [Message.ofMsg, hevent]
      simp only [hindex, hsize]
      rw [Outgoing.event, if_pos rfl]
      rfl
  | newChunkIsAllowed status =>
      have hstatus : field (Msg.data msg) "status" boolean? = some status := by
        rw [field, hdata]
        rfl
      rw [Message.ofMsg, hevent]
      simp only [hstatus]
      rw [Outgoing.event, if_neg (by decide), if_pos rfl]
      rfl
  | chunksRemoved list =>
      have hid : (Msg.elements (((Msg.data msg).get (bytes "id")).getD .null)).mapM number?
          = some list := by
        rw [hdata]
        apply (Msg.mapM_elements fun n hn => Msg.number?_size order (hintegers n hn)).trans
        rw [List.map_id']
      rw [Message.ofMsg, hevent]
      simp only [hid]
      rw [Outgoing.event, if_neg (by decide), if_neg (by decide), if_pos rfl]
      rfl
  | addingChunkFailure =>
      rw [Message.ofMsg, hevent]
      rfl
  | startInit init =>
      have hstate : (Msg.data msg).get (bytes "state")
          = some (toJson (Wvalue.arrange order (.object init.state))) := by
        rw [hdata]
        rfl
      have hcurrent : field (toJson (Wvalue.arrange order (.object init.state))) "current_chunk"
          number? = some init.currentChunk := by
        rw [field, init.plain_state.get_arrange horder]
        apply Msg.number?_size order hintegers.1
      rw [Message.ofMsg, hevent]
      simp only [hstate, Option.bind_some, Msg.chunks_state horder hintegers.2.2, hcurrent]
      rw [Outgoing.event, if_neg (by decide), if_neg (by decide), if_neg (by decide),
        if_neg (by decide), if_pos rfl]
      rfl
  | _ => exact Message.ofMsg_eq_none hevent (by simp only [Outgoing.event]; decide)

theorem Msg.file_state {init : StartInit} (horder : ∀ fields, (order fields).Perm fields)
    (h : init.fileInfo.size < 2 ^ 53) :
  Msg.file (toJson (Wvalue.arrange order (.object init.state)))
    = some (if init.fileInfo.name.isEmpty then none else some init.fileInfo)
  := by
  have hplain : Wvalue.Plain [(bytes "name", .string init.fileInfo.name),
      (bytes "size", size init.fileInfo.size)] :=
    .of_keys ["name", "size"] rfl (by decide) (by decide)
  have hfile : (toJson (Wvalue.arrange order (.object init.state))).get (bytes "file")
      = some (toJson (Wvalue.arrange order (.object [(bytes "name", .string init.fileInfo.name),
        (bytes "size", size init.fileInfo.size)]))) := by
    rw [init.plain_state.get_arrange horder]
    rfl
  have hname : field (toJson (Wvalue.arrange order (.object [(bytes "name",
      .string init.fileInfo.name), (bytes "size", size init.fileInfo.size)]))) "name" string?
      = some init.fileInfo.name := by
    rw [field, hplain.get_arrange horder]
    apply Msg.string?_string order
  have hsize : field (toJson (Wvalue.arrange order (.object [(bytes "name",
      .string init.fileInfo.name), (bytes "size", size init.fileInfo.size)]))) "size" number?
      = some init.fileInfo.size := by
    rw [field, hplain.get_arrange horder]
    apply Msg.number?_size order h
  rw [Msg.file, hfile, Option.bind_some, hname, Option.bind_some, hsize, Option.map_some]

theorem Msg.status?_status (type : TransferSessionCompleteType) :
  Msg.status? (SerializableEvent.status type) = some type
  := by cases type <;> decide

theorem Outgoing.notice_text (horder : ∀ fields, (order fields).Perm fields)
    (ackId : Option UInt64) (myId : Bytes) {o : Outgoing} (hsafe : o.IsSafe) :
  (Msg.ofText (o.text order ackId)).bind (Notice.ofMsg myId) = o.notice myId
  := by
  obtain ⟨msg, hread, hevent, hdata⟩ := exists_msg horder ackId hsafe.isUTF8
  have hintegers := hsafe.integers
  rw [hread, Option.bind_some]
  cases o with
  | fileInfoUpdated name n =>
      have hname : field (Msg.data msg) "name" string? = some name := by
        rw [field, hdata]
        apply Msg.string?_string order
      have hsize : field (Msg.data msg) "size" number? = some n := by
        rw [field, hdata]
        apply Msg.number?_size order hintegers
      rw [Notice.ofMsg, hevent]
      simp only [hname, hsize]
      rw [Outgoing.event, if_pos rfl]
      rfl
  | uploadFinished =>
      rw [Notice.ofMsg, hevent]
      rfl
  | newChunkAvailable chunkId n =>
      have hindex : field (Msg.data msg) "index" number? = some chunkId := by
        rw [field, hdata]
        apply Msg.number?_size order hintegers.1
      rw [Notice.ofMsg, hevent]
      simp only [hindex]
      rw [Outgoing.event, if_neg (by decide), if_neg (by decide), if_pos rfl]
      rfl
  | chunkDownload publicId chunkId started =>
      have haction : field (Msg.data msg) "action" string?
          = some (bytes (if started then "started" else "finished")) := by
        rw [field, hdata]
        apply Msg.string?_string order
      have hid : field (Msg.data msg) "id" string? = some publicId := by
        rw [field, hdata]
        apply Msg.string?_string order
      have hfinished : decide (bytes (if started then "started" else "finished")
          = bytes "finished") = !started := by
        cases started <;> decide
      rw [Notice.ofMsg, hevent]
      simp only [haction, hid, Option.bind_some, Option.map_some, hfinished]
      rw [Outgoing.event, if_neg (by decide), if_neg (by decide), if_neg (by decide), if_pos rfl]
      rfl
  | personalReceivedUpdated n =>
      rw [Notice.ofMsg, hevent]
      simp only
      rw [Outgoing.event, if_neg (by decide), if_neg (by decide), if_neg (by decide),
        if_neg (by decide), if_pos rfl]
      rfl
  | sessionComplete type =>
      have hstatus : field (Msg.data msg) "status" string?
          = some (SerializableEvent.status type) := by
        rw [field, hdata]
        apply Msg.string?_string order
      rw [Notice.ofMsg, hevent]
      simp only [hstatus, Option.bind_some, Msg.status?_status]
      rw [Outgoing.event, if_neg (by decide), if_neg (by decide), if_neg (by decide),
        if_neg (by decide), if_neg (by decide), if_pos rfl]
      rfl
  | kicked =>
      rw [Notice.ofMsg, hevent]
      rfl
  | startInit init =>
      have hstate : (Msg.data msg).get (bytes "state")
          = some (toJson (Wvalue.arrange order (.object init.state))) := by
        rw [hdata]
        rfl
      have hfinished : field (toJson (Wvalue.arrange order (.object init.state))) "upload_finished"
          boolean? = some init.uploadFinished := by
        rw [field, init.plain_state.get_arrange horder]
        rfl
      have hcurrent : field (toJson (Wvalue.arrange order (.object init.state))) "current_chunk"
          number? = some init.currentChunk := by
        rw [field, init.plain_state.get_arrange horder]
        apply Msg.number?_size order hintegers.1
      rw [Notice.ofMsg, hevent]
      simp only [hstate, Option.bind_some, hfinished, hcurrent, Msg.chunks_state horder hintegers.2.2,
        Msg.file_state horder hintegers.2.1]
      rw [Outgoing.event, if_neg (by decide), if_neg (by decide), if_neg (by decide),
        if_neg (by decide), if_neg (by decide), if_neg (by decide), if_neg (by decide), if_pos rfl]
      rfl
  | _ => exact Notice.ofMsg_eq_none hevent (by simp only [Outgoing.event]; decide) myId

end

/-! ### The events of a session -/

/-- What `update` of the client `me` sends for an event, when the clients have these names. -/
def Outgoing.ofEvent (me : ClientRef) (name : ClientRef → Bytes) : Event → Option Outgoing
  | .newReceiver client => some (newReceiver (bytes client.publicId) (name client))
  | .receiverRemoved publicId => some (receiverRemoved (bytes publicId))
  | .fileInfoUpdated info => some (fileInfoUpdated info.name info.size)
  | .chunkDownloadStarted publicId chunkId => some (chunkDownload (bytes publicId) chunkId true)
  | .chunkDownloadFinished publicId chunkId => some (chunkDownload (bytes publicId) chunkId false)
  | .newChunkIsAvailable index n => some (newChunkAvailable index n)
  | .chunksWasRemoved ids => some (chunksRemoved ids)
  | .bytesInUpdated value => some (totalBytesCount value true)
  | .bytesOutUpdated value => some (totalBytesCount value false)
  | .chunksAreUnfrozen => some chunksAreUnfrozen
  | .fileUploadFinished => some uploadFinished
  | .complete type => some (sessionComplete type)
  | .newChunkIsAllowed status => some (newChunkIsAllowed status)
  | .kicked client => if client = me then some kicked else none
  | .personalReceivedUpdated client n =>
      if client = me then some (personalReceivedUpdated n) else none

/-- What `wsOnConnect` reads is that of the session. -/
structure StartInit.Describes (init : StartInit) (s : TransferSession) : Prop where
  currentChunk : init.currentChunk = s.buffer.currentMaxChunkIndex
  uploadFinished : init.uploadFinished = s.buffer.eof
  chunks : init.chunks = s.buffer.chunksInfo
  fileInfo : init.fileInfo = s.fileInfo

/-- The ids of an event have no characters but those of a byte. -/
def Event.IsPlain : Event → Prop
  | .chunkDownloadFinished publicId _ => Rvalue.ofBytes (bytes publicId) = publicId
  | _ => True

namespace Outgoing

theorem message_ofEvent (me : ClientRef) (name : ClientRef → Bytes) (e : Event) :
  (ofEvent me name e).bind message = Message.ofEvent e
  := by
  cases e with
  | kicked client => rw [ofEvent]; split <;> rfl
  | personalReceivedUpdated client n => rw [ofEvent]; split <;> rfl
  | _ => rfl

theorem notice_ofEvent {me : ClientRef} (hme : Rvalue.ofBytes (bytes me.publicId) = me.publicId)
    (name : ClientRef → Bytes) {e : Event} (he : e.IsPlain) :
  (ofEvent me name e).bind (notice (bytes me.publicId)) = Notice.ofEvent me e
  := by
  cases e with
  | chunkDownloadFinished publicId chunkId =>
      have hid : decide (bytes publicId = bytes me.publicId) = (publicId == me.publicId) := by
        rw [Bool.eq_iff_iff, decide_eq_true_eq, beq_iff_eq]
        constructor
        · intro hbytes
          rw [← hme, ← hbytes, he]
        · rintro rfl
          rfl
      rw [ofEvent, Option.bind_some, notice, hid]
      rfl
  | kicked client => rw [ofEvent, Notice.ofEvent]; split <;> rfl
  | personalReceivedUpdated client n => rw [ofEvent, Notice.ofEvent]; split <;> rfl
  | _ => rfl

theorem message_startInit {init : StartInit} {s : TransferSession} (h : init.Describes s) :
  (startInit init).message = some (Upload.startInit s)
  := by
  have hchunks : s.buffer.chunksInfo.map ChunkInfo.index = s.buffer.chunksIndex := List.map_map
  rw [message, h.chunks, h.currentChunk, Upload.startInit, hchunks]

theorem notice_startInit {init : StartInit} {s : TransferSession} (h : init.Describes s)
    (myId : Bytes) :
  (startInit init).notice myId = some (Transfer.startInit s)
  := by rw [notice, h.chunks, h.currentChunk, h.uploadFinished, h.fileInfo, Transfer.startInit]

/-- The texts that the client `me` sends for the events, each with the fields in an order of its
own. -/
inductive Texts (me : ClientRef) (name : ClientRef → Bytes) : List Event → List Bytes → Prop where
  | nil : Texts me name [] []
  | skip {e : Event} {es : List Event} {ts : List Bytes} (h : ofEvent me name e = none)
      (hts : Texts me name es ts) : Texts me name (e :: es) ts
  | send {e : Event} {es : List Event} {ts : List Bytes} {o : Outgoing}
      (h : ofEvent me name e = some o) {order : List (Bytes × Wvalue) → List (Bytes × Wvalue)}
      (horder : ∀ fields, (order fields).Perm fields) (ackId : Option UInt64)
      (hts : Texts me name es ts) : Texts me name (e :: es) (o.text order ackId :: ts)

/-- A page can read the event: its ids and names are UTF-8, its numbers are integers there, and
its id is one of bytes. -/
def Readable (me : ClientRef) (name : ClientRef → Bytes) (e : Event) : Prop :=
  e.IsPlain ∧ ∀ o, ofEvent me name e = some o → o.IsSafe

end Outgoing

/-! ### Sample texts -/

namespace Outgoing.Sample

def me : ClientRef := ⟨0, "me", "public-me"⟩

/-- A name that has been cut inside a character is not read. -/
example :
  Msg.ofText ((nameChanged (bytes "public-me") [97, 0xC3]).text id none) = none
  := if_neg (by decide +kernel)

end Outgoing.Sample

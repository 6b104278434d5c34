import PutInPipe.Library.Text

/-!
# Query strings

`URLSearchParams`, which reads a string as `application/x-www-form-urlencoded`: pairs of a name
and a value, separated by `&`, with `=` between the two, `+` for a blank and `%` before a byte in
base sixteen. A text is held as its bytes in UTF-8. What reading makes of bytes that are not the
UTF-8 of a text is what the decoder of the encoding standard makes of them.
-/

open Text (Bytes)

namespace Query

/-! ### Bytes written with `%` -/

def hexValue (c : UInt8) : Option UInt8 :=
  if 48 ≤ c ∧ c ≤ 57 then some (c - 48)
  else if 65 ≤ c ∧ c ≤ 70 then some (c - 55)
  else if 97 ≤ c ∧ c ≤ 102 then some (c - 87)
  else none

/-- The byte that two characters stand for. -/
def hexByte (s : Bytes) : Option UInt8 :=
  match s with
  | a :: b :: _ =>
      match hexValue a, hexValue b with
      | some x, some y => some (16 * x + y)
      | _, _ => none
  | _ => none

/-- `skip` characters belong to a byte that was written already. -/
def percentDecodeFrom : ℕ → Bytes → Bytes
  | _, [] => []
  | skip + 1, _ :: s => percentDecodeFrom skip s
  | 0, c :: s =>
      match if c = 37 then hexByte s else none with
      | some b => b :: percentDecodeFrom 2 s
      | none => c :: percentDecodeFrom 0 s

def percentDecode (s : Bytes) : Bytes := percentDecodeFrom 0 s

theorem percentDecode_of_not_mem {s : Bytes} (h : 37 ∉ s) :
  percentDecode s = s
  := by
  induction s with
  | nil => rfl
  | cons c s ih =>
      obtain ⟨hc, hs⟩ := List.ne_and_not_mem_of_not_mem_cons h
      rw [percentDecode, percentDecodeFrom, if_neg hc.symm]
      apply congrArg (c :: ·) (ih hs)

/-! ### UTF-8 -/

/-- The character that stands for what cannot be read. -/
def replacement : Bytes := [0xEF, 0xBF, 0xBD]

/-- A sequence that has begun: its bytes, how many more it needs, and the bounds of the next. -/
structure Pending where
  bytes : Bytes
  needed : ℕ
  lower : UInt8 := 0x80
  upper : UInt8 := 0xBF

/-- The first byte of a sequence. -/
def lead (b : UInt8) : Bytes × Option Pending :=
  if b < 0x80 then ([b], none)
  else if 0xC2 ≤ b ∧ b ≤ 0xDF then ([], some { bytes := [b], needed := 1 })
  else if 0xE0 ≤ b ∧ b ≤ 0xEF then
    ([], some { bytes := [b], needed := 2, lower := if b = 0xE0 then 0xA0 else 0x80,
                upper := if b = 0xED then 0x9F else 0xBF })
  else if 0xF0 ≤ b ∧ b ≤ 0xF4 then
    ([], some { bytes := [b], needed := 3, lower := if b = 0xF0 then 0x90 else 0x80,
                upper := if b = 0xF4 then 0x8F else 0xBF })
  else (replacement, none)

/-- One byte. Where it does not go on with a sequence that has begun it is read as a first one. -/
def decodeByte (pending : Option Pending) (b : UInt8) : Bytes × Option Pending :=
  match pending with
  | none => lead b
  | some q =>
      if q.lower ≤ b ∧ b ≤ q.upper then
        if q.needed = 1 then (q.bytes ++ [b], none)
        else ([], some { bytes := q.bytes ++ [b], needed := q.needed - 1 })
      else (replacement ++ (lead b).1, (lead b).2)

def utf8DecodeFrom : Option Pending → Bytes → Bytes
  | none, [] => []
  | some _, [] => replacement
  | pending, b :: s => (decodeByte pending b).1 ++ utf8DecodeFrom (decodeByte pending b).2 s

/-- The bytes of the text that the UTF-8 decoder makes of bytes. -/
def utf8Decode (s : Bytes) : Bytes := utf8DecodeFrom none s

theorem utf8Decode_of_lt {s : Bytes} (h : ∀ c ∈ s, c < 0x80) :
  utf8Decode s = s
  := by
  induction s with
  | nil => rfl
  | cons c s ih =>
      obtain ⟨hc, hs⟩ := List.forall_mem_cons.mp h
      rw [utf8Decode, utf8DecodeFrom, decodeByte, lead, if_pos hc]
      apply congrArg (c :: ·) (ih hs)

/-! ### Pairs -/

/-- A name, or a value, from the bytes between the separators. -/
def decode (s : Bytes) : Bytes :=
  utf8Decode (percentDecode (s.map fun c => if c = 43 then 32 else c))

def pair (s : Bytes) : Bytes × Bytes :=
  (decode (s.takeWhile (· != 61)), decode ((s.dropWhile (· != 61)).drop 1))

def parse (s : Bytes) : List (Bytes × Bytes) :=
  ((s.splitOn 38).filter fun piece => !piece.isEmpty).map pair

/-- The constructor of `URLSearchParams`, which drops a question mark at the beginning. -/
def urlSearchParams (init : Bytes) : List (Bytes × Bytes) :=
  parse (if init.head? = some 63 then init.drop 1 else init)

def get (params : List (Bytes × Bytes)) (name : Bytes) : Option Bytes :=
  (params.find? fun p => p.1 == name).map Prod.snd

/-! ### Pairs written without escapes -/

/-- A character of a text that stands for itself in a query. -/
def Unreserved (c : UInt8) : Prop := c < 0x80 ∧ c ≠ 37 ∧ c ≠ 38 ∧ c ≠ 43 ∧ c ≠ 61

instance (c : UInt8) : Decidable (Unreserved c) :=
  inferInstanceAs (Decidable (_ ∧ _))

theorem unreserved_of_all {s : Bytes} (h : s.all (fun c => decide (Unreserved c)) = true) :
  ∀ c ∈ s, Unreserved c
  := fun c hc => of_decide_eq_true (List.all_eq_true.mp h c hc)

/-- The pairs, with nothing escaped. -/
def write (params : List (Bytes × Bytes)) : Bytes :=
  [38].intercalate (params.map fun p => p.1 ++ 61 :: p.2)

theorem decode_of_unreserved {s : Bytes} (h : ∀ c ∈ s, Unreserved c) :
  decode s = s
  := by
  have hblank : (s.map fun c => if c = 43 then 32 else c) = s := by
    rw [List.map_congr_left fun c hc => if_neg (h c hc).2.2.2.1, List.map_id']
  rw [decode, hblank, percentDecode_of_not_mem fun hmem => (h 37 hmem).2.1 rfl,
    utf8Decode_of_lt fun c hc => (h c hc).1]

theorem pair_append {name value : Bytes} (hname : ∀ c ∈ name, Unreserved c)
    (hvalue : ∀ c ∈ value, Unreserved c) :
  pair (name ++ 61 :: value) = (name, value)
  := by
  have hall : ∀ c ∈ name, (c != 61) = true := by
    intro c hc
    apply bne_iff_ne.mpr (hname c hc).2.2.2.2
  rw [pair, List.takeWhile_append_of_pos hall, List.dropWhile_append_of_pos hall]
  simp [decode_of_unreserved hname, decode_of_unreserved hvalue]

theorem not_mem_append {name value : Bytes} (hname : ∀ c ∈ name, Unreserved c)
    (hvalue : ∀ c ∈ value, Unreserved c) :
  38 ∉ name ++ 61 :: value
  := by
  rw [List.mem_append, List.mem_cons]
  rintro (hmem | heq | hmem)
  · apply (hname 38 hmem).2.2.1 rfl
  · cases heq
  · apply (hvalue 38 hmem).2.2.1 rfl

/-- What is written without escapes is read again. -/
theorem parse_write {params : List (Bytes × Bytes)}
    (h : ∀ p ∈ params, (∀ c ∈ p.1, Unreserved c) ∧ ∀ c ∈ p.2, Unreserved c) :
  parse (write params) = params
  := by
  let piece (p : Bytes × Bytes) : Bytes := p.1 ++ 61 :: p.2
  obtain rfl | hne := eq_or_ne params []
  · rfl
  · have hsplit : (write params).splitOn 38 = params.map piece := by
      rw [write]
      apply List.splitOn_intercalate
      · rintro _ hmem
        obtain ⟨p, hp, rfl⟩ := List.mem_map.mp hmem
        apply not_mem_append (h p hp).1 (h p hp).2
      · rw [Ne, List.map_eq_nil_iff]
        apply hne
    have hfilter : (params.map piece).filter (fun s => !s.isEmpty) = params.map piece := by
      apply List.filter_eq_self.mpr
      intro s hs
      obtain ⟨p, hp, rfl⟩ := List.mem_map.mp hs
      simp [piece]
    calc parse (write params)
        = (params.map piece).map pair := by rw [parse, hsplit, hfilter]
      _ = params.map id := by
          rw [List.map_map]
          apply List.map_congr_left
          intro p hp
          apply pair_append (h p hp).1 (h p hp).2
      _ = params := List.map_id params

end Query

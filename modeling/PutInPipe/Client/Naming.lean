import PutInPipe.Library.Text

/-!
# The name of a client

`setName` cuts a name off after `NAME_MAX_LENGTH` bytes, wherever a character ends. What is
stored is sent to the other participants, and is text only if the cut is between two characters.
-/

open Text (Bytes IsUTF8)

/-- `Event::Data::NameInfo`. -/
structure NameInfo where
  name : Bytes
  publicId : String
deriving DecidableEq, Repr

/-- The part of a `Client` that deals with its name. -/
structure NamedClient where
  publicId : String
  name : Bytes := []
  -- the `nameChanged` events
  published : List NameInfo := []
deriving DecidableEq, Repr

namespace NamedClient

def NAME_MAX_LENGTH : ℕ := 20

def setName (c : NamedClient) (name : Bytes) : NamedClient :=
  if name.isEmpty then c
  else
    let stored := if name.length > NAME_MAX_LENGTH then name.take NAME_MAX_LENGTH else name
    { c with
      name := stored
      published := c.published ++ [{ name := stored, publicId := c.publicId }] }

/-- The name that is stored, and sent, is a text, a prefix of what was given, and not too long. -/
structure KeepsText (c : NamedClient) (name : Bytes) : Prop where
  isUTF8 : IsUTF8 (c.setName name).name
  isPrefix : (c.setName name).name <+: name
  length : (c.setName name).name.length ≤ NAME_MAX_LENGTH
  sent : (c.setName name).published
    = c.published ++ [{ name := (c.setName name).name, publicId := c.publicId }]

variable {c : NamedClient} {name : Bytes}

theorem setName_of_ne_nil (c : NamedClient) (hne : name ≠ []) :
  c.setName name
    = { c with
        name := name.take NAME_MAX_LENGTH
        published := c.published
          ++ [{ name := name.take NAME_MAX_LENGTH, publicId := c.publicId }] }
  := by
  have hstored : (if name.length > NAME_MAX_LENGTH then name.take NAME_MAX_LENGTH else name)
      = name.take NAME_MAX_LENGTH := by
    split
    · rfl
    · next h => exact (List.take_of_length_le (Nat.not_lt.mp h)).symm
  rw [setName, if_neg (by simpa using hne), hstored]

/-- A name stays a text exactly when no character of it is cut in two. -/
theorem keepsText_iff (c : NamedClient) (hne : name ≠ []) (htext : IsUTF8 name) :
  c.KeepsText name ↔ ∀ b, name[NAME_MAX_LENGTH]? = some b → b.IsUTF8FirstByte
  := by
  rw [← Text.isUTF8_take_iff htext]
  have heq := setName_of_ne_nil c hne
  constructor
  · intro h
    have hstored := h.isUTF8
    rw [heq] at hstored
    apply hstored
  · intro h
    constructor
    · rw [heq]
      apply h
    · rw [heq]
      apply List.take_prefix
    · rw [heq]
      apply List.length_take_le
    · rw [heq]

namespace Sample

def client : NamedClient := { publicId := "A" }

/-- Nineteen letters and one character of two bytes. -/
def long : Bytes := (List.replicate 19 'a' ++ ['é']).flatMap String.utf8EncodeChar

/-- Twenty characters of two bytes. -/
def twenty : Bytes := (List.replicate 20 'é').flatMap String.utf8EncodeChar

end Sample

/-- The last character of the name is cut in two. -/
theorem not_keepsText :
  ¬∀ (c : NamedClient) (name : Bytes), name ≠ [] → IsUTF8 name → c.KeepsText name
  := by
  intro h
  have hkeeps := h Sample.client Sample.long (by decide) (Text.isUTF8_flatMap _)
  have hfirst := (Text.isUTF8_take_iff (Text.isUTF8_flatMap _) NAME_MAX_LENGTH).mp hkeeps.isUTF8
  exact absurd (hfirst 169 (by decide)) (by decide)

/-- Half of the characters are kept. -/
theorem keepsText_twenty :
  Sample.twenty ≠ [] ∧ IsUTF8 Sample.twenty ∧ Sample.client.KeepsText Sample.twenty
  := by
  have htext : IsUTF8 Sample.twenty := Text.isUTF8_flatMap _
  have hget : Sample.twenty[NAME_MAX_LENGTH]? = some 195 := by decide
  refine ⟨by decide, htext, ?_⟩
  apply (keepsText_iff Sample.client (by decide) htext).mpr
  intro b hb
  rw [hget, Option.some.injEq] at hb
  rw [← hb]
  decide

end NamedClient

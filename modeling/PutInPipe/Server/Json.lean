import PutInPipe.Library.Text

/-!
# Values read from JSON

`Rvalue` is `crow::json::rvalue`: the accessors are those the handlers of messages use, and
throw what the library throws. A string is a list of bytes, each written as the character of
that number. `u` reads a number from whatever text a string or a number has, in the way of
`operator>>`: it stops at the first character that is not a digit, takes a missing number for
zero and clips one that is too large. From a blank text it reads nothing, and returns a
variable that was never initialized.
-/

/-- The bytes of a string. -/
def bytes (s : String) : Text.Bytes := s.toList.map Char.toUInt8

/-- A string has the text between the quotes, and what is left of it when it is unescaped. -/
inductive Rvalue where
  | null
  | true
  | false
  | number (text : String)
  | string (text value : String)
  | list (elements : List Rvalue)
  | object (fields : List (String × Rvalue))

namespace Rvalue

/-- `get_type_str`, which has no text for `null`. -/
def typeStr : Rvalue → String
  | null => "Unknown"
  | true => "True"
  | false => "False"
  | number _ => "Number"
  | string _ _ => "String"
  | list _ => "List"
  | object _ => "Object"

def isString : Rvalue → Bool
  | string _ _ => Bool.true
  | _ => Bool.false

def isObject : Rvalue → Bool
  | object _ => Bool.true
  | _ => Bool.false

/-- The elements of a list have the empty key. -/
def has (key : String) : Rvalue → Except String Bool
  | object fields => .ok (fields.any (·.1 == key))
  | list elements => .ok (key == "" && !elements.isEmpty)
  | _ => .error "value is not a container"

/-- `operator[]`. -/
def get (key : String) : Rvalue → Except String Rvalue
  | object fields =>
      match fields.find? (·.1 == key) with
      | some field => .ok field.2
      | none => .error ("cannot find key: " ++ key)
  | _ => .error "value is not an object"

def s : Rvalue → Except String String
  | string _ value => .ok value
  | _ => .error "value is not string"

/-- `lexical_cast<uint64_t>`. A text without a character that is not blank leaves the variable
as it was. -/
def lexicalCast (uninitialized : ℕ) (text : Text.Bytes) : ℕ :=
  match text.dropWhile Text.isSpace with
  | [] => uninitialized
  | c :: cs =>
      let (negative, rest) := Text.sign (c :: cs)
      let n := Text.value (rest.takeWhile Text.isDigit)
      if 2 ^ 64 ≤ n then 2 ^ 64 - 1
      else if negative then (2 ^ 64 - n) % 2 ^ 64
      else n

def u (uninitialized : ℕ) : Rvalue → Except String ℕ
  | number text => .ok (lexicalCast uninitialized (bytes text))
  | string text _ => .ok (lexicalCast uninitialized (bytes text))
  | v => .error ("expected number, got: " ++ v.typeStr)

/-! ### Numbers -/

/-- The value is a number, and an unsigned one of 64 bits. -/
def isUnsigned : Rvalue → Bool
  | number text =>
      !(bytes text).isEmpty && (bytes text).all Text.isDigit
        && decide (Text.value (bytes text) < 2 ^ 64)
  | _ => Bool.false

/-- `u` reads a number from the value though it is not an unsigned number. -/
def isLoose : Rvalue → Bool
  | number text => !(number text).isUnsigned
  | string _ _ => Bool.true
  | _ => Bool.false

/-- What is neither an unsigned number nor taken for one is refused. -/
theorem u_of_not_isUnsigned {v : Rvalue} (hnumber : v.isUnsigned = Bool.false)
    (hloose : v.isLoose = Bool.false) (uninitialized : ℕ) :
  ∃ what, v.u uninitialized = .error what
  := by
  cases v with
  | number text =>
      rw [isLoose, hnumber] at hloose
      cases hloose
  | string text value => cases hloose
  | _ => exact ⟨_, rfl⟩

theorem s_of_not_isString {v : Rvalue} (h : v.isString = Bool.false) :
  ∃ what, v.s = .error what
  := by
  cases v with
  | string text value => cases h
  | _ => exact ⟨_, rfl⟩

end Rvalue

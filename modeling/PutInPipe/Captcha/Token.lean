import PutInPipe.Captcha.Base64

/-!
# Tokens

A `Token` is a payload, encrypted and signed, in a text of three parts. An `ExpiringToken` is a
token whose payload says when it was made and how long it lives. The keys of the cipher and of
the signature belong to the process, so that `Crypto` is what they make of the cipher and of
the hash.

A function that may throw returns an `Except`. Texts have fewer than 2 ^ 31 bytes, so that the size
that `decrypt` takes for an `int` is not negative.
-/

open Text (Bytes)

/-- The exceptions of the standard library that are thrown. -/
inductive Thrown where
  | lengthError
  | runtimeError (what : String)
deriving DecidableEq, Repr

/-- `portable_chacha20_poly1305_encrypt` and `portable_chacha20_poly1305_decrypt` under the key,
of the text and the nonce, and the digest of a text followed by the key. -/
structure Crypto where
  encrypt : Bytes → Bytes → Bytes
  decrypt : Bytes → Bytes → Option Bytes
  digest : Bytes → Bytes

namespace ChaCha20

def nonceSize : ℕ := 12

def tagSize : ℕ := 16

def encrypt (crypto : Crypto) (data nonce : Bytes) : Except Thrown Bytes :=
  if nonce.length ≠ nonceSize then
    throw (.runtimeError "Nonce must be exactly 12 bytes long RFC 8439")
  else pure (crypto.encrypt data nonce)

def decrypt (crypto : Crypto) (ciphertext nonce : Bytes) : Except Thrown Bytes :=
  if nonce.length ≠ nonceSize then
    throw (.runtimeError "Nonce must be exactly 12 bytes long RFC 8439")
  else if ciphertext.length < tagSize then
    throw (.runtimeError "Ciphertext is too short to contain authentication tag RFC 8439")
  else match crypto.decrypt ciphertext nonce with
    | none => throw (.runtimeError "Decryption failed: authentication tag mismatch")
    | some data => pure data

end ChaCha20

/-- What the documentation of the cipher promises for the nonces it is used with: to decrypt
undoes to encrypt, and the tag follows the encrypted text. -/
structure Crypto.Lawful (crypto : Crypto) : Prop where
  decrypt_encrypt : ∀ data nonce, nonce.length = ChaCha20.nonceSize →
    crypto.decrypt (crypto.encrypt data nonce) nonce = some data
  length_encrypt : ∀ data nonce, nonce.length = ChaCha20.nonceSize →
    (crypto.encrypt data nonce).length = data.length + ChaCha20.tagSize

namespace SkaptchaTools

/-- `HashSignature::sign`. -/
def sign (crypto : Crypto) (data : Bytes) : Bytes :=
  (Base64.encode Base64.urlsafe (crypto.digest data)).filter (· != Base64.pad)

/-- The loop of `string::split`, from `start`. -/
def splitFrom (str : Bytes) (delimiter : UInt8) (start : ℕ) : List Bytes :=
  match h : Text.find str delimiter start with
  | none => [Text.substr str start none]
  | some last =>
      Text.substr str start (some (last - start)) :: splitFrom str delimiter (last + 1)
termination_by str.length - start
decreasing_by
  have hfind := Text.find_eq_some h
  omega

/-- `string::split`. -/
def split (str : Bytes) (delimiter : UInt8) : List Bytes := splitFrom str delimiter 0

/-- `base64::decode`. -/
def base64decode (data : Bytes) : Except Thrown Bytes :=
  match Base64.decode data with
  | none => throw .lengthError
  | some decoded => pure decoded

end SkaptchaTools

open SkaptchaTools

structure Token where
  nonce : Bytes
  payload : Bytes
deriving DecidableEq, Repr

namespace Token

/-- The character `.`. -/
def delimiter : UInt8 := 46

def fromString (crypto : Crypto) (token : Bytes) : Except Thrown (Option Token) :=
  match split token delimiter with
  | [nonce, payload, signature] =>
      if sign crypto (nonce ++ [delimiter] ++ payload) ≠ signature then pure none
      else do
        let nonce ← base64decode nonce
        if nonce.length ≠ ChaCha20.nonceSize then pure none
        else do
          let encryptedPayload ← base64decode payload
          match ChaCha20.decrypt crypto encryptedPayload nonce with
          | .error _ => pure none
          | .ok payload => pure (some ⟨nonce, payload⟩)
  | _ => pure none

def dump (crypto : Crypto) (token : Token) : Bytes :=
  match ChaCha20.encrypt crypto token.payload token.nonce with
  | .error _ => "500".toList.map Char.toUInt8
  | .ok encrypted =>
      let encryptedPayload := Base64.encode Base64.standard encrypted
      let tokenPayload :=
        Base64.encode Base64.standard token.nonce ++ [delimiter] ++ encryptedPayload
      tokenPayload ++ [delimiter] ++ sign crypto tokenPayload

end Token

structure PrivatePayload where
  usersPayload : Bytes
  created : Int64
  lifetime : Int64
deriving DecidableEq, Repr

namespace PrivatePayload

/-- The character `|`. -/
def delimiter : UInt8 := 124

def dump (p : PrivatePayload) : Bytes :=
  p.usersPayload ++ [delimiter] ++ Text.put p.created ++ [delimiter] ++ Text.put p.lifetime

def fromString (string : Bytes) : Option PrivatePayload :=
  if string = [] then none
  else do
    let lastSep ← Text.rfind string delimiter none
    if lastSep = string.length - 1 then none
    else do
      let prevSep ← Text.rfind string delimiter (Text.minus lastSep 1)
      let createdStr := Text.substr string (prevSep + 1) (Text.minus lastSep (prevSep + 1))
      let lifetimeStr := Text.substr string (lastSep + 1) none
      let created ← Text.stoll createdStr
      let lifetime ← Text.stoll lifetimeStr
      pure ⟨Text.substr string 0 (some prevSep), created, lifetime⟩

def isExpired (p : PrivatePayload) (now : Int64) : Bool := p.created + p.lifetime < now

end PrivatePayload

/-- An `ExpiringToken` is its private payload. -/
abbrev ExpiringToken := PrivatePayload

namespace ExpiringToken

def fromString (crypto : Crypto) (now : Int64) (token : Bytes) :
    Except Thrown (Option ExpiringToken) := do
  match ← Token.fromString crypto token with
  | none => pure none
  | some baseToken =>
      match PrivatePayload.fromString baseToken.payload with
      | none => pure none
      | some ppayload => pure (if ppayload.isExpired now then none else some ppayload)

def generate (payload : Bytes) (secondsLifetime : Int64) : ExpiringToken where
  usersPayload := payload
  created := 0
  lifetime := secondsLifetime

/-- `dump`, at the time `now` and with what `simpleRandom` has returned. -/
def dump (crypto : Crypto) (now : Int64) (nonce : Bytes) (token : ExpiringToken) : Bytes :=
  Token.dump crypto ⟨nonce, { token with created := now }.dump⟩

end ExpiringToken

/-! ### Splitting -/

namespace SkaptchaTools

theorem splitFrom_eq (str : Bytes) (delimiter : UInt8) (start : ℕ) :
  splitFrom str delimiter start = (str.drop start).splitOn delimiter
  := by
  induction start using splitFrom.induct str delimiter with
  | case1 start h =>
      rw [splitFrom, h, List.splitOn_eq_singleton (Text.find_eq_none h)]
      rfl
  | case2 start last h ih =>
      obtain ⟨-, -, hnot, hdrop⟩ := Text.find_eq_some h
      rw [splitFrom, h]
      simp only
      rw [ih, hdrop, List.splitOn_append_cons_self, List.splitOn_eq_singleton hnot,
        List.singleton_append]

theorem split_eq (str : Bytes) (delimiter : UInt8) :
  split str delimiter = str.splitOn delimiter
  := by
  rw [split, splitFrom_eq, List.drop_zero]

/-- A piece without the delimiter is the first. -/
theorem split_append_cons {piece : Bytes} {delimiter : UInt8} (h : delimiter ∉ piece)
    (rest : Bytes) :
  split (piece ++ [delimiter] ++ rest) delimiter = piece :: split rest delimiter
  := by
  rw [split_eq, split_eq, List.append_assoc, List.singleton_append,
    List.splitOn_append_cons_self, List.splitOn_eq_singleton h, List.singleton_append]

theorem split_eq_singleton {piece : Bytes} {delimiter : UInt8} (h : delimiter ∉ piece) :
  split piece delimiter = [piece]
  := by
  rw [split_eq, List.splitOn_eq_singleton h]

theorem base64decode_encode (data : Bytes) :
  base64decode (Base64.encode Base64.standard data) = .ok data
  := by
  rw [base64decode, Base64.decode_encode Base64.readable_standard]
  rfl

theorem not_mem_encode {c : UInt8} (hkey : c ∉ Base64.standard) (hzero : c ≠ 0)
    (hpad : c ≠ Base64.pad) (data : Bytes) :
  c ∉ Base64.encode Base64.standard data
  := by
  intro hmem
  obtain hmem | heq | heq := Base64.mem_encode data hmem
  · apply hkey hmem
  · apply hzero heq
  · apply hpad heq

theorem not_mem_sign {c : UInt8} (hkey : c ∉ Base64.urlsafe) (hzero : c ≠ 0)
    (crypto : Crypto) (data : Bytes) :
  c ∉ sign crypto data
  := by
  intro hmem
  obtain ⟨hmem, hpad⟩ := List.mem_filter.mp hmem
  obtain hmem | heq | heq := Base64.mem_encode _ hmem
  · apply hkey hmem
  · apply hzero heq
  · apply bne_iff_ne.mp hpad heq

/-! ### Erasing the padding -/

/-- The loop of `HashSignature::sign`, which erases the last `=` while there is one. Each turn
makes the text shorter, so that it takes no more turns than there are characters. -/
def eraseLast : ℕ → Bytes → Bytes
  | 0, result => result
  | turns + 1, result =>
      match Text.rfind result Base64.pad none with
      | none => result
      | some eqPos => eraseLast turns (result.eraseIdx eqPos)

theorem eraseLast_eq {turns : ℕ} {result : Bytes} (h : result.length ≤ turns) :
  eraseLast turns result = result.filter (· != Base64.pad)
  := by
  induction turns generalizing result with
  | zero =>
      obtain rfl := List.eq_nil_of_length_eq_zero (Nat.le_zero.mp h)
      rfl
  | succ turns ih =>
      by_cases hmem : Base64.pad ∈ result
      · obtain ⟨s, s', rfl, hlast⟩ := Text.exists_last hmem
        rw [List.length_append, List.length_cons] at h
        have herase : (s ++ Base64.pad :: s').eraseIdx s.length = s ++ s' := by
          rw [List.eraseIdx_append_of_length_le (Nat.le_refl _), Nat.sub_self,
            List.eraseIdx_cons_zero]
        have hlength : (s ++ s').length ≤ turns := by
          rw [List.length_append]
          omega
        rw [eraseLast, Text.rfind_append_cons hlast]
        simp only
        rw [herase, ih hlength, List.filter_append, List.filter_append]
        rfl
      · rw [eraseLast, Text.rfind_of_not_mem hmem]
        simp only
        rw [List.filter_eq_self.mpr]
        intro c hc
        apply bne_iff_ne.mpr
        rintro rfl
        apply hmem hc

/-- `sign` is what the loop leaves. -/
theorem sign_eq_eraseLast (crypto : Crypto) (data : Bytes) :
  sign crypto data
    = eraseLast (Base64.encode Base64.urlsafe (crypto.digest data)).length
        (Base64.encode Base64.urlsafe (crypto.digest data))
  := (eraseLast_eq (Nat.le_refl _)).symm

end SkaptchaTools

/-! ### Reading what was written -/

namespace Token

theorem fromString_dump {crypto : Crypto} (h : crypto.Lawful) {token : Token}
    (hnonce : token.nonce.length = ChaCha20.nonceSize) :
  fromString crypto (token.dump crypto) = .ok (some token)
  := by
  have hdelimiter : delimiter ∉ Base64.standard ∧ delimiter ∉ Base64.urlsafe := by
    decide +kernel
  have hpart : ∀ data, delimiter ∉ Base64.encode Base64.standard data :=
    not_mem_encode hdelimiter.1 (by decide) (by decide)
  have hsign : ∀ data, delimiter ∉ sign crypto data :=
    not_mem_sign hdelimiter.2 (by decide) crypto
  have hlength := h.length_encrypt token.payload token.nonce hnonce
  have hencrypt : ChaCha20.encrypt crypto token.payload token.nonce
      = .ok (crypto.encrypt token.payload token.nonce) := if_neg (not_not_intro hnonce)
  have hdecrypt : ChaCha20.decrypt crypto (crypto.encrypt token.payload token.nonce) token.nonce
      = .ok token.payload := by
    rw [ChaCha20.decrypt, if_neg (not_not_intro hnonce), if_neg (by omega),
      h.decrypt_encrypt _ _ hnonce]
    rfl
  have hsplit : ∀ x y z : Bytes, delimiter ∉ x → delimiter ∉ y → delimiter ∉ z →
      split (x ++ [delimiter] ++ y ++ [delimiter] ++ z) delimiter = [x, y, z] := by
    intro x y z hx hy hz
    have hassoc : x ++ [delimiter] ++ y ++ [delimiter] ++ z
        = x ++ [delimiter] ++ (y ++ [delimiter] ++ z) := by
      simp
    rw [hassoc, split_append_cons hx, split_append_cons hy, split_eq_singleton hz]
  rw [dump, hencrypt]
  simp only
  rw [fromString, hsplit _ _ _ (hpart _) (hpart _) (hsign _)]
  simp only [ne_eq, not_true_eq_false, if_false, base64decode_encode, bind, Except.bind, hnonce,
    hdecrypt, pure, Except.pure]

end Token

namespace PrivatePayload

/-- The last two separators cut the numbers off. -/
theorem fromString_of_parts {created lifetime : Bytes} (hcreated : delimiter ∉ created)
    (hlifetime : delimiter ∉ lifetime) (users : Bytes) :
  fromString (users ++ [delimiter] ++ created ++ [delimiter] ++ lifetime)
    = (Text.stoll created).bind fun c => (Text.stoll lifetime).map fun l => ⟨users, c, l⟩
  := by
  let string : Bytes := users ++ delimiter :: created ++ delimiter :: lifetime
  have hstring : users ++ [delimiter] ++ created ++ [delimiter] ++ lifetime = string := by
    simp [string]
  have hlength : (users ++ delimiter :: created).length = users.length + 1 + created.length := by
    simp only [List.length_append, List.length_cons]
    omega
  have htotal : string.length = users.length + 1 + created.length + (lifetime.length + 1) := by
    rw [← hlength, List.length_append, List.length_cons]
  have hlast : Text.rfind string delimiter none
      = some (users.length + 1 + created.length) := by
    rw [Text.rfind_append_cons hlifetime, hlength]
  have hprev : Text.rfind string delimiter
        (Text.minus (users.length + 1 + created.length) 1) = some users.length := by
    rw [Text.minus, if_pos (by omega), Text.rfind_some, Nat.sub_add_cancel (by omega), ← hlength,
      List.take_left, Text.rfind_append_cons hcreated]
  have hcreatedStr : Text.substr string (users.length + 1)
        (Text.minus (users.length + 1 + created.length) (users.length + 1)) = created := by
    rw [Text.minus, if_pos (by omega), Nat.add_sub_cancel_left, Text.substr]
    simp [string]
  have hlifetimeStr : Text.substr string (users.length + 1 + created.length + 1) none
      = lifetime := by
    rw [Text.substr, ← hlength, ← List.drop_drop, List.drop_left, List.drop_succ_cons,
      List.drop_zero]
  have husers : Text.substr string 0 (some users.length) = users := by
    rw [Text.substr, List.drop_zero]
    simp [string]
  have hnil : string ≠ [] := by
    simp [string]
  rw [hstring, fromString, if_neg hnil, hlast]
  simp only [Option.bind_eq_bind, Option.bind_some, hprev, hcreatedStr, hlifetimeStr, husers,
    Option.pure_def]
  by_cases hempty : lifetime = []
  · have hend : users.length + 1 + created.length = string.length - 1 := by
      rw [htotal, hempty]
      rfl
    have hnone : Text.stoll ([] : Bytes) = none := by decide
    rw [if_pos hend, hempty, hnone]
    cases Text.stoll created <;> rfl
  · have hpos : lifetime.length ≠ 0 := by simpa using hempty
    rw [if_neg (by omega)]
    simp only [Option.map_eq_bind]
    rfl

theorem fromString_dump (p : PrivatePayload) :
  fromString p.dump = some p
  := by
  have hnot : ∀ n, delimiter ∉ Text.put n := fun n =>
    (Text.numeral_put n).not_mem (by decide) (by decide) (by decide)
  rw [dump, fromString_of_parts (hnot _) (hnot _), Text.stoll_put, Text.stoll_put]
  rfl

end PrivatePayload

namespace ExpiringToken

theorem fromString_dump {crypto : Crypto} (h : crypto.Lawful) (created now : Int64)
    {nonce : Bytes} (hnonce : nonce.length = ChaCha20.nonceSize) (token : ExpiringToken) :
  fromString crypto now (token.dump crypto created nonce)
    = .ok (if { token with created := created }.isExpired now then none
      else some { token with created := created })
  := by
  rw [fromString, dump, Token.fromString_dump h hnonce]
  simp only [bind, Except.bind, PrivatePayload.fromString_dump, pure, Except.pure]

end ExpiringToken

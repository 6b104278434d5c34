import PutInPipe.Captcha.Token

/-!
# The captcha

`generate` makes the token of a captcha, from the answer that is drawn and the context it is
issued for, and `validate` checks a token, a context and an answer against each other.
-/

open Text (Bytes)

open SkaptchaTools

namespace Skaptcha

/-- `CAPTCHA_STRING_LENGTH`. -/
def captchaStringLength : ℕ := 5

def usedLetters : Bytes := "ABCDEFGHIJKLMNPQRSTUVWXYZ23456789".toList.map Char.toUInt8

/-- The character `|`. -/
def tokenDelimiter : UInt8 := 124

/-- `std::toupper`, in the locale a program starts with. -/
def toupper (c : UInt8) : UInt8 := if 97 ≤ c ∧ c ≤ 122 then c - 32 else c

/-- The token `generate` makes, at the time `now`, of the answer that was drawn. -/
def generate (crypto : Crypto) (now : Int64) (nonce answer context : Bytes) (lifetime : Int64) :
    Bytes :=
  let payload := answer ++ [tokenDelimiter] ++ Base64.encode Base64.standard context
  (ExpiringToken.generate payload lifetime).dump crypto now nonce

def validate (crypto : Crypto) (now : Int64) (context token answer : Bytes) :
    Except Thrown Bool :=
  if answer.length ≠ captchaStringLength then pure false
  else do
    match ← ExpiringToken.fromString crypto now token with
    | none => pure false
    | some sharedToken =>
        match split sharedToken.usersPayload tokenDelimiter with
        | [answerFromToken, digest] =>
            match base64decode digest with
            | .error _ => pure false
            | .ok contextFromToken =>
                if contextFromToken ≠ context then pure false
                else pure (answerFromToken == answer.map toupper)
        | _ => pure false

/-! ### What a token is valid for -/

theorem isExpired_eq_false_iff {created lifetime now : Int64} (payload : Bytes)
    (hlifetime : 0 ≤ lifetime.toInt) (hover : created.toInt + lifetime.toInt < 2 ^ 63) :
  PrivatePayload.isExpired ⟨payload, created, lifetime⟩ now = false
    ↔ now.toInt ≤ created.toInt + lifetime.toInt
  := by
  have hlow := created.le_toInt
  have hadd : (created + lifetime).toInt = created.toInt + lifetime.toInt := by
    rw [Int64.toInt_add]
    apply Int.bmod_eq_of_le <;> omega
  rw [PrivatePayload.isExpired, decide_eq_false_iff_not, Int64.lt_iff_toInt_lt, hadd, not_lt]

theorem split_payload {answer : Bytes} (hanswer : ∀ c ∈ answer, c ∈ usedLetters)
    (context : Bytes) :
  split (answer ++ [tokenDelimiter] ++ Base64.encode Base64.standard context) tokenDelimiter
    = [answer, Base64.encode Base64.standard context]
  := by
  have hstandard : tokenDelimiter ∉ Base64.standard := by decide +kernel
  have hletters : tokenDelimiter ∉ usedLetters := by decide +kernel
  rw [split_append_cons (fun hmem => hletters (hanswer _ hmem)),
    split_eq_singleton (not_mem_encode hstandard (by decide) (by decide) context)]

/-- What `validate` says of a token that was made by `generate`. -/
theorem validate_generate {crypto : Crypto} (h : crypto.Lawful) {nonce answer : Bytes}
    (hnonce : nonce.length = ChaCha20.nonceSize) (hanswer : ∀ c ∈ answer, c ∈ usedLetters)
    (context : Bytes) (created lifetime now : Int64) (context' : Bytes) {answer' : Bytes}
    (hlength : answer'.length = captchaStringLength) :
  validate crypto now context' (generate crypto created nonce answer context lifetime) answer'
    = .ok (!PrivatePayload.isExpired ⟨[], created, lifetime⟩ now && context == context'
      && answer == answer'.map toupper)
  := by
  rw [validate, if_neg (not_not_intro hlength), generate,
    ExpiringToken.fromString_dump h created now hnonce]
  cases hexpired : PrivatePayload.isExpired ⟨[], created, lifetime⟩ now with
  | true =>
      have hsome : ({ ExpiringToken.generate (answer ++ [tokenDelimiter]
          ++ Base64.encode Base64.standard context) lifetime with created := created }
            : PrivatePayload).isExpired now = true := hexpired
      rw [if_pos hsome]
      rfl
  | false =>
      have hnone : ¬({ ExpiringToken.generate (answer ++ [tokenDelimiter]
          ++ Base64.encode Base64.standard context) lifetime with created := created }
            : PrivatePayload).isExpired now = true := by
        rw [Bool.not_eq_true]
        apply hexpired
      rw [if_neg hnone]
      simp only [bind, Except.bind, ExpiringToken.generate, split_payload hanswer,
        base64decode_encode]
      by_cases heq : context = context'
      · simp [heq, pure, Except.pure]
      · simp [heq, pure, Except.pure]

/-- A captcha's token is valid for the context it was issued for and for its answer, in lower
or upper case, while it lives. -/
theorem validate_generate_iff {crypto : Crypto} (h : crypto.Lawful) {nonce answer : Bytes}
    (hnonce : nonce.length = ChaCha20.nonceSize) (hlength : answer.length = captchaStringLength)
    (hanswer : ∀ c ∈ answer, c ∈ usedLetters) (context : Bytes) {created lifetime : Int64}
    (hlifetime : 0 ≤ lifetime.toInt) (hover : created.toInt + lifetime.toInt < 2 ^ 63)
    (now : Int64) (context' answer' : Bytes) :
  validate crypto now context' (generate crypto created nonce answer context lifetime) answer'
      = .ok true
    ↔ context' = context ∧ answer'.map toupper = answer
      ∧ now.toInt ≤ created.toInt + lifetime.toInt
  := by
  rw [← isExpired_eq_false_iff [] hlifetime hover]
  by_cases hlength' : answer'.length = captchaStringLength
  · rw [validate_generate h hnonce hanswer context created lifetime now context' hlength',
      Except.ok.injEq, Bool.and_eq_true, Bool.and_eq_true, Bool.not_eq_true', beq_iff_eq,
      beq_iff_eq]
    constructor
    · rintro ⟨⟨hexpired, rfl⟩, rfl⟩
      exact ⟨rfl, rfl, hexpired⟩
    · rintro ⟨rfl, rfl, hexpired⟩
      exact ⟨⟨hexpired, rfl⟩, rfl⟩
  · rw [validate, if_pos hlength']
    constructor
    · intro hok
      cases hok
    · rintro ⟨-, rfl, -⟩
      rw [List.length_map] at hlength
      exact absurd hlength hlength'

namespace Sample

/-- The answer `AB2CD`, the context `id` and the payload of the token for them, made at the
time 1000 for 180 seconds. -/
def answer : Bytes := "AB2CD".toList.map Char.toUInt8

def context : Bytes := "id".toList.map Char.toUInt8

def payload : Bytes := "AB2CD|aWQ=|1000|180".toList.map Char.toUInt8

def nonce : Bytes := (List.range ChaCha20.nonceSize).map UInt8.ofNat

/-- The encrypted payload, under the key of the bytes from 0 to 31. -/
def encryptedPayload : Bytes :=
  [200, 185, 58, 67, 109, 107, 196, 23, 230, 190, 67, 194, 168, 45, 62, 31, 248, 72, 130, 210,
    229, 249, 93, 29, 179, 53, 222, 247, 214, 88, 254, 17, 69, 167, 29]

/-- The digest of what is signed, under the same key. -/
def digest : Bytes :=
  [231, 183, 210, 250, 250, 66, 143, 220, 6, 152, 154, 46, 60, 218, 169, 130, 161, 214, 25, 213,
    201, 209, 149, 221, 49, 103, 82, 200, 41, 29, 150, 166]

/-- What the cipher and the hash make of the payload. -/
def crypto : Crypto where
  encrypt data nonce' :=
    if data = payload ∧ nonce' = nonce then encryptedPayload
    else data ++ List.replicate ChaCha20.tagSize 0
  decrypt ciphertext nonce' :=
    if ciphertext = encryptedPayload ∧ nonce' = nonce then some payload
    else some (ciphertext.take (ciphertext.length - ChaCha20.tagSize))
  digest _ := digest

theorem lawful_crypto :
  crypto.Lawful
  where
    decrypt_encrypt data nonce' _ := by
      by_cases hsample : data = payload ∧ nonce' = nonce
      · obtain ⟨rfl, rfl⟩ := hsample
        rfl
      · have hencrypt : crypto.encrypt data nonce'
            = data ++ List.replicate ChaCha20.tagSize 0 := if_neg hsample
        have hne : data ++ List.replicate ChaCha20.tagSize 0 ≠ encryptedPayload := by
          intro heq
          have hlast := congrArg List.getLast? heq
          rw [List.getLast?_append_of_ne_nil _ (by decide)] at hlast
          exact absurd hlast (by decide)
        have hdecrypt : crypto.decrypt (data ++ List.replicate ChaCha20.tagSize 0) nonce'
            = some ((data ++ List.replicate ChaCha20.tagSize 0).take
              ((data ++ List.replicate ChaCha20.tagSize 0).length - ChaCha20.tagSize)) :=
          if_neg (not_and_of_not_left _ hne)
        rw [hencrypt, hdecrypt, List.length_append, List.length_replicate, Nat.add_sub_cancel,
          List.take_left]
    length_encrypt data nonce' _ := by
      by_cases hsample : data = payload ∧ nonce' = nonce
      · obtain ⟨rfl, rfl⟩ := hsample
        decide
      · have hencrypt : crypto.encrypt data nonce'
            = data ++ List.replicate ChaCha20.tagSize 0 := if_neg hsample
        rw [hencrypt, List.length_append, List.length_replicate]

end Sample

open Sample in
/-- A minute after the captcha was made, its answer is sent in lower case. -/
theorem validate_generate_sample :
  validate crypto 1060 context (generate crypto 1000 nonce answer context 180)
      ("ab2cd".toList.map Char.toUInt8) = .ok true
  := by
  rw [validate_generate_iff lawful_crypto rfl rfl (by decide +kernel) context (by decide)
    (by decide)]
  decide

end Skaptcha

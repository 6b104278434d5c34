import PutInPipe.Captcha.Portable8439
import PutInPipe.Captcha.Sha256

/-!
# The keys of a process

With the cipher and the hash that the process has, the tokens that are read are those that were
sealed with its keys.
-/

open Text (Bytes)
open SkaptchaTools

/-- The keys that `ChaCha20` and `HashSignature` have drawn. -/
structure Keys where
  cipherKey : Bytes
  hashKey : Bytes
  length_cipherKey : cipherKey.length = Portable8439.keySize

/-- The memory that a context and a hash are made in. -/
structure Memory where
  ctx : Poly1305.State
  data : Bytes
  length_buffer : ctx.buffer.length = Poly1305.blockSize
  length_data : data.length = SHA256.blockSize

namespace Keys

/-- The digest of `HashSignature::sign`. -/
def digest (keys : Keys) (memory : Memory) (data : Bytes) : Bytes :=
  let sha256 := SHA256.init memory.data
  let sha256 := SHA256.update sha256 data
  let sha256 := SHA256.update sha256 keys.hashKey
  (SHA256.digest sha256).2

/-- The cipher and the hash of the process. -/
def crypto (keys : Keys) (memory : Memory) : Crypto where
  encrypt data nonce := Portable8439.encrypt memory.ctx keys.cipherKey nonce [] data
  decrypt ciphertext nonce := Portable8439.decrypt memory.ctx keys.cipherKey nonce [] ciphertext
  digest := keys.digest memory

theorem digest_eq (keys : Keys) (memory : Memory) (data : Bytes) :
  keys.digest memory data = SHA256.Standard.sha256 (data ++ keys.hashKey)
  := by
  have habsorbed := (SHA256.absorbed_init memory.length_data).updates [data, keys.hashKey]
  rw [List.nil_append, List.flatten_cons, List.flatten_singleton] at habsorbed
  apply SHA256.Absorbed.digest habsorbed

theorem length_digest (keys : Keys) (memory : Memory) (data : Bytes) :
  (keys.digest memory data).length = 32
  := by
  rw [digest_eq]
  apply SHA256.Standard.length_sha256

theorem lawful_crypto (keys : Keys) (memory : Memory) :
  (keys.crypto memory).Lawful
  where
  decrypt_encrypt _ _ _ := Portable8439.decrypt_encrypt memory.length_buffer ..
  length_encrypt data nonce _ := by
    change (Portable8439.encrypt ..).length = _
    rw [Portable8439.encrypt, List.length_append, Portable8439.length_xorStream,
      Portable8439.length_calculateMac memory.length_buffer]

/-- The signature of a text: the characters of its hash, without the padding. -/
def signature (keys : Keys) (text : Bytes) : Bytes :=
  (Base64.encode Base64.urlsafe (SHA256.Standard.sha256 (text ++ keys.hashKey))).filter
    (· != Base64.pad)

theorem sign_crypto (keys : Keys) (memory : Memory) (text : Bytes) :
  sign (keys.crypto memory) text = keys.signature text
  := by
  have hdigest : (keys.crypto memory).digest text
      = SHA256.Standard.sha256 (text ++ keys.hashKey) := keys.digest_eq memory text
  rw [sign, hdigest, signature]

end Keys

/-! ### The texts of tokens -/

theorem List.not_mem_of_mem_splitOn {α : Type} [BEq α] [LawfulBEq α] {x : α} {l p : List α}
    (h : p ∈ l.splitOn x) :
  x ∉ p
  := by
  induction hlength : l.length using Nat.strongRecOn generalizing l with
  | ind n ih =>
      by_cases hmem : x ∈ l
      · obtain ⟨a, b, rfl, hnot⟩ := List.eq_append_cons_of_mem hmem
        rw [List.splitOn_append_cons_self, List.splitOn_eq_singleton hnot, List.singleton_append,
          List.mem_cons] at h
        obtain rfl | h := h
        · apply hnot
        · apply ih b.length _ h rfl
          rw [← hlength, List.length_append, List.length_cons]
          omega
      · rw [List.splitOn_eq_singleton hmem, List.mem_singleton] at h
        rw [h]
        apply hmem

theorem SkaptchaTools.split_eq_three {str a b c : Bytes} {d : UInt8} :
  split str d = [a, b, c]
    ↔ str = a ++ [d] ++ b ++ [d] ++ c ∧ d ∉ a ∧ d ∉ b ∧ d ∉ c
  := by
  constructor
  · intro h
    rw [split_eq] at h
    have hnot : ∀ p ∈ [a, b, c], d ∉ p := by
      intro p hp
      rw [← h] at hp
      apply List.not_mem_of_mem_splitOn hp
    have hjoin : [d].intercalate (str.splitOn d) = str := List.intercalate_splitOn d
    rw [h] at hjoin
    refine ⟨?_, hnot a (by simp), hnot b (by simp), hnot c (by simp)⟩
    rw [← hjoin]
    simp [List.intercalate, List.intersperse]
  · rintro ⟨rfl, ha, hb, hc⟩
    have hassoc : a ++ [d] ++ b ++ [d] ++ c = a ++ [d] ++ (b ++ [d] ++ c) := by
      simp
    rw [hassoc, split_append_cons ha, split_append_cons hb, split_eq_singleton hc]

namespace Keys

/-- The ciphertexts that are read are those that were made. -/
theorem decrypt_eq_ok_iff (keys : Keys) (memory : Memory) {ciphertext nonce data : Bytes}
    (hnonce : nonce.length = ChaCha20.nonceSize) :
  ChaCha20.decrypt (keys.crypto memory) ciphertext nonce = .ok data
    ↔ ciphertext = Portable8439.encrypt memory.ctx keys.cipherKey nonce [] data
  := by
  rw [ChaCha20.decrypt, if_neg (not_not_intro hnonce)]
  split
  case isTrue hshort =>
    have hnot : ciphertext ≠ Portable8439.encrypt memory.ctx keys.cipherKey nonce [] data := by
      rintro rfl
      have hlength := (keys.lawful_crypto memory).length_encrypt data nonce hnonce
      change (Portable8439.encrypt ..).length = _ at hlength
      omega
    simp [hnot, throw, throwThe, MonadExceptOf.throw]
  case isFalse hlong =>
    rw [← Portable8439.decrypt_eq_some_iff memory.length_buffer keys.cipherKey nonce []
      (Nat.le_of_not_lt hlong) data]
    have hcrypto : (keys.crypto memory).decrypt ciphertext nonce
        = Portable8439.decrypt memory.ctx keys.cipherKey nonce [] ciphertext :=
      rfl
    rw [hcrypto]
    cases Portable8439.decrypt memory.ctx keys.cipherKey nonce [] ciphertext with
    | none => simp [throw, throwThe, MonadExceptOf.throw]
    | some data' => simp [pure, Except.pure]

theorem delimiter_not_mem_signature (keys : Keys) (memory : Memory) (text : Bytes) :
  Token.delimiter ∉ keys.signature text
  := by
  have hurlsafe : Token.delimiter ∉ Base64.urlsafe := by decide +kernel
  rw [← keys.sign_crypto memory]
  apply not_mem_sign hurlsafe (by decide)

/-- The tokens that are read are those that were sealed with the keys of the process. -/
theorem fromString_sealed_iff (keys : Keys) (memory : Memory) (text : Bytes) (token : Token) :
  Token.fromString (keys.crypto memory) text = .ok (some token)
    ↔ ∃ nonce payload,
      text = nonce ++ [Token.delimiter] ++ payload ++ [Token.delimiter]
          ++ keys.signature (nonce ++ [Token.delimiter] ++ payload)
        ∧ Token.delimiter ∉ nonce ∧ Token.delimiter ∉ payload
        ∧ Base64.decode nonce = some token.nonce
        ∧ token.nonce.length = ChaCha20.nonceSize
        ∧ Base64.decode payload
          = some (Portable8439.encrypt memory.ctx keys.cipherKey token.nonce [] token.payload)
  := by
  constructor
  · intro h
    rw [Token.fromString] at h
    split at h
    case h_2 => cases h
    case h_1 nonce payload signature hsplit =>
      obtain ⟨htext, hnonce, hpayload, -⟩ := split_eq_three.mp hsplit
      split at h
      case isTrue => cases h
      case isFalse hsign =>
        rw [not_not, keys.sign_crypto] at hsign
        rw [base64decode] at h
        cases hdecode : Base64.decode nonce with
        | none => simp [hdecode, bind, Except.bind, throw, throwThe, MonadExceptOf.throw] at h
        | some nonce' =>
            rw [hdecode] at h
            simp only [bind, Except.bind, pure, Except.pure] at h
            split at h
            case isTrue => cases h
            case isFalse hsize =>
              rw [not_not] at hsize
              cases hdecode' : Base64.decode payload with
              | none =>
                  simp [base64decode, hdecode', throw, throwThe, MonadExceptOf.throw] at h
              | some ciphertext =>
                  simp only [base64decode, hdecode', pure, Except.pure] at h
                  cases hdecrypt : ChaCha20.decrypt (keys.crypto memory) ciphertext nonce' with
                  | error e =>
                      rw [hdecrypt] at h
                      cases h
                  | ok data =>
                      rw [hdecrypt] at h
                      cases h
                      rw [keys.decrypt_eq_ok_iff memory hsize] at hdecrypt
                      refine ⟨nonce, payload, ?_, hnonce, hpayload, hdecode, hsize, ?_⟩
                      · rw [hsign, htext]
                      · rw [hdecode', hdecrypt]
  · rintro ⟨nonce, payload, rfl, hnonce, hpayload, hdecode, hsize, hdecode'⟩
    have hsplit := split_eq_three.mpr ⟨rfl, hnonce, hpayload,
      keys.delimiter_not_mem_signature memory (nonce ++ [Token.delimiter] ++ payload)⟩
    have hdecrypt := (keys.decrypt_eq_ok_iff memory hsize).mpr
      (rfl : Portable8439.encrypt memory.ctx keys.cipherKey token.nonce [] token.payload = _)
    rw [Token.fromString, hsplit]
    simp only [keys.sign_crypto, ne_eq, not_true_eq_false, if_false, base64decode, hdecode,
      hdecode', bind, Except.bind, pure, Except.pure, hsize, hdecrypt]

end Keys

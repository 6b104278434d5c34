import PutInPipe.Captcha.Keys
import PutInPipe.Library.Query
import PutInPipe.Server.Json

/-!
# Links

The sender shares a link with the id of the session and the key behind the `#`. `buildAnchor`
concatenates them without escaping anything, and `parseAnchor` reads the fragment as a query
string, where some characters are special. None of them is in the alphabet of the two encoders.
-/

open Text (Bytes)
open Query (Unreserved)

namespace Link

def SUPPORTED_ENCRYPTIONS : List Bytes := [bytes "xchacha20-poly1305"]

/-- What `parseAnchor` returns. -/
structure Anchor where
  id : Bytes
  encryption : Option Bytes
  key : Bytes
  error : Option Bytes
deriving DecidableEq, Repr

/-- Neither `null` nor empty. -/
def truthy (s : Option Bytes) : Option Bytes := s.filter fun s => !s.isEmpty

/-- `parseAnchor`, for the hash of the location. -/
def parseAnchor (locationHash : Bytes) : Option Anchor :=
  let hash := locationHash.drop 1
  if hash.isEmpty then none
  else
    let params := Query.urlSearchParams hash
    let encryption := Query.get params (bytes "encryption")
    match truthy (Query.get params (bytes "id")), truthy (Query.get params (bytes "key")) with
    | some id, some key =>
        if (truthy encryption).any SUPPORTED_ENCRYPTIONS.contains then
          some { id, encryption, key, error := none }
        else
          some { id, encryption, key
                 error := some (bytes "Unsupported encryption: "
                   ++ (truthy encryption).getD (bytes "none")) }
    | _, _ => none

def buildAnchor (locationOrigin sessionId encryption keyBase64url : Bytes) : Bytes :=
  locationOrigin ++ bytes "/#id=" ++ sessionId ++ bytes "&encryption=" ++ encryption
    ++ bytes "&key=" ++ keyBase64url

/-- `location.hash` of a link: its fragment after a `#`, or nothing where that is empty. -/
def locationHash (url : Bytes) : Bytes :=
  let fragment := (url.dropWhile (· != 35)).drop 1
  if fragment.isEmpty then [] else 35 :: fragment

/-- `to_base64` and `from_base64` of libsodium in the variant `URLSAFE_NO_PADDING`, of which the
second throws where a text is not in the variant. -/
structure SodiumBase64 where
  toBase64 : Bytes → Bytes
  fromBase64 : Bytes → Option Bytes

/-- What its documentation promises: the alphabet, the length and the way back. -/
structure SodiumBase64.Lawful (sodium : SodiumBase64) : Prop where
  alphabet : ∀ data, ∀ c ∈ sodium.toBase64 data, c ∈ Base64.urlsafe
  length : ∀ data, (sodium.toBase64 data).length = (data.length * 4 + 2) / 3
  fromBase64_toBase64 : ∀ data, sodium.fromBase64 (sodium.toBase64 data) = some data

def keyToBase64url (sodium : SodiumBase64) (key : Bytes) : Bytes := sodium.toBase64 key

def base64urlToKey (sodium : SodiumBase64) (str : Bytes) : Option Bytes := sodium.fromBase64 str

/-! ### The characters of a link -/

theorem unreserved_of_mem_urlsafe {c : UInt8} (h : c ∈ Base64.urlsafe) :
  Unreserved c
  := by
  have hall : Base64.urlsafe.all (fun c => decide (Unreserved c)) = true := by
    decide +kernel
  apply Query.unreserved_of_all hall c h

theorem sign_unreserved (crypto : Crypto) (data : Bytes) {c : UInt8}
    (h : c ∈ SkaptchaTools.sign crypto data) :
  Unreserved c
  := by
  obtain ⟨hmem, hpad⟩ := List.mem_filter.mp h
  apply unreserved_of_mem_urlsafe
  apply Base64.mem_key_of_mem_encode _ _ hmem (bne_iff_ne.mp hpad)
  rfl

theorem sign_ne_nil {crypto : Crypto} {data : Bytes} (h : crypto.digest data ≠ []) :
  SkaptchaTools.sign crypto data ≠ []
  := by
  have hlength := Base64.length_unpadded Base64.readable_urlsafe (crypto.digest data)
  have hpos := List.length_pos_iff.mpr h
  intro hnil
  rw [SkaptchaTools.sign, ← Base64.unpadded] at hnil
  rw [hnil, List.length_nil] at hlength
  omega

/-- The hash of a link is a query. -/
theorem locationHash_buildAnchor {origin : Bytes} (horigin : 35 ∉ origin)
    (id encryption key : Bytes) :
  locationHash (buildAnchor origin id encryption key)
    = 35 :: Query.write
      [(bytes "id", id), (bytes "encryption", encryption), (bytes "key", key)]
  := by
  let fragment := Query.write
    [(bytes "id", id), (bytes "encryption", encryption), (bytes "key", key)]
  have hquery : fragment = bytes "id=" ++ id ++ bytes "&encryption=" ++ encryption
      ++ bytes "&key=" ++ key := by
    have hid : bytes "id=" = bytes "id" ++ [61] := rfl
    have hencryption : bytes "&encryption=" = 38 :: bytes "encryption" ++ [61] := rfl
    have hkey : bytes "&key=" = 38 :: bytes "key" ++ [61] := rfl
    rw [hid, hencryption, hkey]
    simp [fragment, Query.write, List.intercalate_cons_cons]
  have hlink : buildAnchor origin id encryption key = (origin ++ [47]) ++ 35 :: fragment := by
    have hstart : bytes "/#id=" = 47 :: 35 :: bytes "id=" := rfl
    rw [hquery, buildAnchor, hstart]
    simp
  have hbefore : ∀ c ∈ origin ++ [47], (c != 35) = true := by
    intro c hc
    apply bne_iff_ne.mpr
    rintro rfl
    obtain hc | hc := List.mem_append.mp hc
    · apply horigin hc
    · cases List.mem_singleton.mp hc
  have hne : fragment.isEmpty = false := by
    rw [hquery, List.isEmpty_eq_false_iff]
    simp [bytes]
  rw [locationHash, hlink, List.dropWhile_append_of_pos hbefore]
  simp only [List.dropWhile_cons_of_neg, bne_self_eq_false, Bool.false_eq_true, not_false_eq_true,
    List.drop_succ_cons, List.drop_zero, hne, if_false]
  rfl

/-- Where no character of them is special, the id and the key of a link are found in its
hash. -/
theorem parseAnchor_locationHash {origin id encryption key : Bytes} (horigin : 35 ∉ origin)
    (hid : id ≠ [] ∧ ∀ c ∈ id, Unreserved c) (hkey : key ≠ [] ∧ ∀ c ∈ key, Unreserved c)
    (hencryption : encryption ∈ SUPPORTED_ENCRYPTIONS) :
  parseAnchor (locationHash (buildAnchor origin id encryption key))
    = some { id, encryption := some encryption, key, error := none }
  := by
  obtain rfl := List.mem_singleton.mp hencryption
  let params : List (Bytes × Bytes) :=
    [(bytes "id", id), (bytes "encryption", bytes "xchacha20-poly1305"), (bytes "key", key)]
  have hunreserved : ∀ p ∈ params, (∀ c ∈ p.1, Unreserved c) ∧ ∀ c ∈ p.2, Unreserved c := by
    have hids : ∀ c ∈ bytes "id", Unreserved c := Query.unreserved_of_all (by decide +kernel)
    have hencryptions : ∀ c ∈ bytes "encryption", Unreserved c :=
      Query.unreserved_of_all (by decide +kernel)
    have hname : ∀ c ∈ bytes "xchacha20-poly1305", Unreserved c :=
      Query.unreserved_of_all (by decide +kernel)
    have hkeys : ∀ c ∈ bytes "key", Unreserved c := Query.unreserved_of_all (by decide +kernel)
    simp only [params, List.forall_mem_cons]
    exact ⟨⟨hids, hid.2⟩, ⟨hencryptions, hname⟩, ⟨hkeys, hkey.2⟩, List.forall_mem_nil _⟩
  have hparse : Query.urlSearchParams (Query.write params) = params := by
    have hhead : (Query.write params).head? ≠ some 63 := by
      have hfirst : (Query.write params).head? = some 105 := rfl
      rw [hfirst]
      decide
    rw [Query.urlSearchParams, if_neg hhead]
    apply Query.parse_write hunreserved
  have hget : Query.get params (bytes "id") = some id
      ∧ Query.get params (bytes "encryption") = some (bytes "xchacha20-poly1305")
      ∧ Query.get params (bytes "key") = some key := ⟨rfl, rfl, rfl⟩
  have htruthy : ∀ {s : Bytes}, s ≠ [] → truthy (some s) = some s := by
    intro s hs
    simp [truthy, hs]
  have hne : (Query.write params).isEmpty = false := rfl
  have hsupported : (truthy (some (bytes "xchacha20-poly1305"))).any SUPPORTED_ENCRYPTIONS.contains
      = true := rfl
  have hhash : locationHash (buildAnchor origin id (bytes "xchacha20-poly1305") key)
      = 35 :: Query.write params := locationHash_buildAnchor horigin _ _ _
  rw [hhash, parseAnchor, List.drop_succ_cons, List.drop_zero]
  simp only [hne, Bool.false_eq_true, if_false, hparse, hget.1, hget.2.1, hget.2.2,
    htruthy hid.1, htruthy hkey.1, hsupported, if_true]

/-- A link brings the id of the session and the key to the receiver. -/
theorem parseAnchor_buildAnchor (crypto : Crypto)
    (hdigest : ∀ data, (crypto.digest data).length = 32) (sodium : SodiumBase64)
    (hsodium : sodium.Lawful) {origin : Bytes} (horigin : 35 ∉ origin) (data : Bytes)
    (key : Vector UInt8 32) :
  ∃ text,
    parseAnchor (locationHash (buildAnchor origin (SkaptchaTools.sign crypto data)
        (bytes "xchacha20-poly1305") (keyToBase64url sodium key.toList)))
      = some { id := SkaptchaTools.sign crypto data
               encryption := some (bytes "xchacha20-poly1305")
               key := text
               error := none }
    ∧ base64urlToKey sodium text = some key.toList
  := by
  use keyToBase64url sodium key.toList
  constructor
  · apply parseAnchor_locationHash horigin
    · constructor
      · apply sign_ne_nil
        rw [← List.length_pos_iff, hdigest]
        decide
      · apply sign_unreserved
    · constructor
      · rw [← List.length_pos_iff, keyToBase64url, hsodium.length, Vector.length_toList]
        decide
      · intro c hc
        apply unreserved_of_mem_urlsafe (hsodium.alphabet _ c hc)
    · apply List.mem_singleton_self
  · apply hsodium.fromBase64_toBase64

/-! ### A link -/

/-- The variant without padding of the encoder of the web framework. -/
def Sample.sodium : SodiumBase64 where
  toBase64 := Base64.unpadded Base64.urlsafe
  fromBase64 := Base64.decode

/-- A process whose keys have the bytes 1 and 2. -/
def Sample.keys : Keys where
  cipherKey := List.replicate Portable8439.keySize 1
  hashKey := [2]
  length_cipherKey := List.length_replicate

def Sample.memory : Memory where
  ctx := Poly1305.Sample.memory
  data := List.replicate SHA256.blockSize 0
  length_buffer := rfl
  length_data := List.length_replicate

/-- The cipher and the hash with these keys. -/
def Sample.crypto : Crypto := Sample.keys.crypto Sample.memory

theorem Sample.lawful_sodium :
  Sample.sodium.Lawful
  where
    alphabet data c hc := by
      obtain ⟨hmem, hpad⟩ := List.mem_filter.mp hc
      apply Base64.mem_key_of_mem_encode _ _ hmem (bne_iff_ne.mp hpad)
      rfl
    length data := Base64.length_unpadded Base64.readable_urlsafe data
    fromBase64_toBase64 data := Base64.decode_unpadded Base64.readable_urlsafe data

theorem parseAnchor_sample :
  (∀ data, (Sample.crypto.digest data).length = 32) ∧ Sample.sodium.Lawful
    ∧ 35 ∉ bytes "http://localhost:2233"
    ∧ ∃ text,
      parseAnchor (locationHash (buildAnchor (bytes "http://localhost:2233")
          (SkaptchaTools.sign Sample.crypto []) (bytes "xchacha20-poly1305")
          (keyToBase64url Sample.sodium (Vector.replicate 32 7).toList)))
        = some { id := SkaptchaTools.sign Sample.crypto []
                 encryption := some (bytes "xchacha20-poly1305")
                 key := text
                 error := none }
      ∧ base64urlToKey Sample.sodium text = some (Vector.replicate 32 7).toList
  := by
  have hdigest : ∀ data, (Sample.crypto.digest data).length = 32 :=
    Sample.keys.length_digest Sample.memory
  have horigin : 35 ∉ bytes "http://localhost:2233" := by decide
  use hdigest, Sample.lawful_sodium, horigin
  apply parseAnchor_buildAnchor Sample.crypto hdigest Sample.sodium Sample.lawful_sodium horigin

end Link

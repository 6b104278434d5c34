import PutInPipe.Captcha.Poly1305
import PutInPipe.Captcha.Token

/-!
# Authenticated encryption

ChaCha20 and the construction of RFC 8439 from it and Poly1305. Words go from and to memory as
`memcpy` copies them where the machine is little endian, the path that is compiled there. The
paths for other machines are beside it.
-/

open Text (Bytes)
open Endian

namespace Portable8439

/-! ### Words and bytes -/

/-- `store_32_le` and the reading half of `xor32_le`, by `memcpy`. -/
def load32 (p : Bytes) : UInt32 := UInt32.ofNat (ofLE (p.take 4))

/-- `serialize` and the writing half of `xor32_le`, by `memcpy`. -/
def store32 (v : UInt32) : Bytes := toLE 4 v.toNat

/-- `store_32_le` elsewhere. -/
def load32Slow (p : Bytes) : UInt32 :=
  (p.getD 0 0).toUInt32 ||| (p.getD 1 0).toUInt32 <<< 8 ||| (p.getD 2 0).toUInt32 <<< 16
    ||| (p.getD 3 0).toUInt32 <<< 24

/-- The byte that is `U8` of a word shifted by `8 * j`. -/
def byte (v : UInt32) (j : ℕ) : UInt8 := (v >>> UInt32.ofNat (8 * j)).toUInt8

/-- `store32_le` elsewhere. -/
def store32Slow (v : UInt32) : Bytes := [byte v 0, byte v 1, byte v 2, byte v 3]

/-- `xor32_le`. -/
def xor32 (src : Bytes) (pad : UInt32) : Bytes := store32 (load32 src ^^^ pad)

/-- `xor32_le` elsewhere. -/
def xor32Slow (src : Bytes) (pad : UInt32) : Bytes :=
  [src.getD 0 0 ^^^ byte pad 0, src.getD 1 0 ^^^ byte pad 1, src.getD 2 0 ^^^ byte pad 2,
    src.getD 3 0 ^^^ byte pad 3]

/-! ### The cipher -/

def keySize : ℕ := 32

abbrev Words := Vector UInt32 16

def blockSize : ℕ := 64

def initializeState (key nonce : Bytes) (counter : UInt32) : Words :=
  #v[0x61707865, 0x3320646e, 0x79622d32, 0x6b206574,
    load32 key, load32 (key.drop 4), load32 (key.drop 8), load32 (key.drop 12),
    load32 (key.drop 16), load32 (key.drop 20), load32 (key.drop 24), load32 (key.drop 28),
    counter, load32 nonce, load32 (nonce.drop 4), load32 (nonce.drop 8)]

def incrementCounter (state : Words) : Words := state.set 12 (state[12] + 1)

/-- `rotl32a`. -/
def rotl32 (x n : UInt32) : UInt32 := x <<< n ||| x >>> (32 - n)

/-- `Qround` of four of the words. -/
def qround (s : Words) (a b c d : Fin 16) : Words :=
  let s := s.set a (s[a] + s[b])
  let s := s.set d (rotl32 (s[d] ^^^ s[a]) 16)
  let s := s.set c (s[c] + s[d])
  let s := s.set b (rotl32 (s[b] ^^^ s[c]) 12)
  let s := s.set a (s[a] + s[b])
  let s := s.set d (rotl32 (s[d] ^^^ s[a]) 8)
  let s := s.set c (s[c] + s[d])
  s.set b (rotl32 (s[b] ^^^ s[c]) 7)

/-- One turn of the loop of `core_block`. -/
def rounds (s : Words) : Words :=
  let s := qround s 0 4 8 12
  let s := qround s 1 5 9 13
  let s := qround s 2 6 10 14
  let s := qround s 3 7 11 15
  let s := qround s 0 5 10 15
  let s := qround s 1 6 11 12
  let s := qround s 2 7 8 13
  qround s 3 4 9 14

def coreBlock (start : Words) : Words :=
  let s := (List.range 10).foldl (fun s _ => rounds s) start
  Vector.zipWith (· + ·) start s

/-- `xor32_blocks`, for so many words. -/
def xor32Blocks : ℕ → Bytes → List UInt32 → Bytes
  | 0, _, _ => []
  | words + 1, source, pad =>
      xor32 source (pad.headD 0) ++ xor32Blocks words (source.drop 4) pad.tail

def xorBlock (source : Bytes) (pad : List UInt32) (chunkSize : ℕ) : Bytes :=
  let fullBlocks := chunkSize / 4
  let rest := source.drop (4 * fullBlocks)
  let pad' := (pad.drop fullBlocks).headD 0
  xor32Blocks fullBlocks source pad
    ++ match chunkSize % 4 with
      | 1 => [rest.getD 0 0 ^^^ byte pad' 0]
      | 2 => [rest.getD 0 0 ^^^ byte pad' 0, rest.getD 1 0 ^^^ byte pad' 1]
      | 3 => [rest.getD 0 0 ^^^ byte pad' 0, rest.getD 1 0 ^^^ byte pad' 1,
          rest.getD 2 0 ^^^ byte pad' 2]
      | _ => []

/-- The loop of `chacha20_xor_stream`, for so many blocks, and what is after it. -/
def xorStreamLoop (lastBlock : ℕ) : ℕ → Words → Bytes → Bytes
  | 0, state, source =>
      if 0 < lastBlock then xorBlock source (coreBlock state).toList lastBlock else []
  | fullBlocks + 1, state, source =>
      xor32Blocks 16 source (coreBlock state).toList
        ++ xorStreamLoop lastBlock fullBlocks (incrementCounter state) (source.drop blockSize)

/-- `chacha20_xor_stream`. -/
def xorStream (source key nonce : Bytes) (counter : UInt32) : Bytes :=
  xorStreamLoop (source.length % blockSize) (source.length / blockSize)
    (initializeState key nonce counter) source

/-- `rfc8439_keygen`. -/
def keygen (key nonce : Bytes) : Bytes :=
  ((coreBlock (initializeState key nonce 0)).toList.flatMap store32).take 32

/-! ### Authenticated encryption -/

/-- `pad_if_needed`. -/
def padIfNeeded (ctx : Poly1305.State) (size : ℕ) : Poly1305.State :=
  if size % 16 ≠ 0 then Poly1305.update ctx (List.replicate (16 - size % 16) 0) else ctx

/-- `write_64bit_int`. -/
def write64 (ctx : Poly1305.State) (value : UInt64) : Poly1305.State :=
  Poly1305.update ctx [value.toUInt8, (value >>> 8).toUInt8, (value >>> 16).toUInt8,
    (value >>> 24).toUInt8, (value >>> 32).toUInt8, (value >>> 40).toUInt8,
    (value >>> 48).toUInt8, (value >>> 56).toUInt8]

/-- `poly1305_calculate_mac`, with the memory of the context. -/
def calculateMac (ctx : Poly1305.State) (cipherText key nonce ad : Bytes) : Bytes :=
  let ctx := Poly1305.init ctx (keygen key nonce)
  let ctx :=
    if 0 < ad.length then padIfNeeded (Poly1305.update ctx ad) ad.length
    else ctx
  let ctx := Poly1305.update ctx cipherText
  let ctx := padIfNeeded ctx cipherText.length
  let ctx := write64 ctx (UInt64.ofNat ad.length)
  let ctx := write64 ctx (UInt64.ofNat cipherText.length)
  (Poly1305.finish ctx).2

/-- `portable_chacha20_poly1305_encrypt` from memory that the result is not written to. -/
def encrypt (ctx : Poly1305.State) (key nonce ad plainText : Bytes) : Bytes :=
  let cipherText := xorStream plainText key nonce 1
  cipherText ++ calculateMac ctx cipherText key nonce ad

/-- `portable_chacha20_poly1305_decrypt` from memory that the result is not written to. -/
def decrypt (ctx : Poly1305.State) (key nonce ad cipherText : Bytes) : Option Bytes :=
  let actualSize := cipherText.length - ChaCha20.tagSize
  let actualMac := calculateMac ctx (cipherText.take actualSize) key nonce ad
  if Poly1305.verify (cipherText.drop actualSize) actualMac then
    some (xorStream (cipherText.take actualSize) key nonce 1)
  else none

/-! ### The path of little endian machines and the other -/

@[simp]
theorem length_store32 (v : UInt32) :
  (store32 v).length = 4
  := length_toLE _ _

theorem toNat_byte (v : UInt32) {j : ℕ} (hj : j < 4) :
  (byte v j).toNat = v.toNat / 2 ^ (8 * j) % 256
  := by
  have hshift : (UInt32.ofNat (8 * j)).toNat % 32 = 8 * j := by
    rw [UInt32.toNat_ofNat']
    omega
  rw [byte, UInt32.toNat_toUInt8, UInt32.toNat_shiftRight, hshift, Nat.shiftRight_eq_div_pow]

theorem store32_eq_slow (v : UInt32) :
  store32 v = store32Slow v
  := by
  have hbyte : ∀ j, j < 4 → byte v j = UInt8.ofNat (v.toNat / 2 ^ (8 * j)) := by
    intro j hj
    apply UInt8.toNat_inj.mp
    rw [toNat_byte v hj, UInt8.toNat_ofNat']
  rw [store32Slow, hbyte 0 (by decide), hbyte 1 (by decide), hbyte 2 (by decide),
    hbyte 3 (by decide), store32]
  simp only [toLE, Nat.div_div_eq_div_mul, Nat.reducePow, Nat.reduceMul, Nat.div_one]

theorem load32_eq_slow {p : Bytes} (h : 4 ≤ p.length) :
  load32 p = load32Slow p
  := by
  match p, h with
  | c0 :: c1 :: c2 :: c3 :: p, _ =>
      have hslow : load32Slow (c0 :: c1 :: c2 :: c3 :: p)
          = c0.toUInt32 ||| c1.toUInt32 <<< 8 ||| c2.toUInt32 <<< 16 ||| c3.toUInt32 <<< 24 := rfl
      have hpow : (2 : ℕ) ^ 32 = 256 ^ 4 := by norm_num
      apply UInt32.toNat_inj.mp
      rw [hslow, toNat_or_bytes, load32, UInt32.toNat_ofNat', hpow]
      apply Nat.mod_eq_of_lt (ofLE_lt [c0, c1, c2, c3])

theorem toNat_load32 (p : Bytes) :
  (load32 p).toNat = ofLE (p.take 4)
  := by
  have hlt := ofLE_lt (p.take 4)
  have hpow : 256 ^ (p.take 4).length ≤ 256 ^ 4 :=
    Nat.pow_le_pow_right (by decide) (List.length_take_le _ _)
  rw [load32, UInt32.toNat_ofNat', Nat.mod_eq_of_lt]
  omega

/-- A word is added to four bytes one by one. -/
theorem xor32_eq {src : Bytes} (h : 4 ≤ src.length) (pad : UInt32) :
  xor32 src pad = List.zipWith (· ^^^ ·) (src.take 4) (store32 pad)
  := by
  have hlength : (src.take 4).length = 4 := List.length_take_of_le h
  have hbytes := toLE_ofLE (src.take 4)
  rw [hlength] at hbytes
  rw [xor32, store32, UInt32.toNat_xor, toNat_load32, toLE_xor, hbytes]
  rfl

theorem xor32_eq_slow {src : Bytes} (h : 4 ≤ src.length) (pad : UInt32) :
  xor32 src pad = xor32Slow src pad
  := by
  rw [xor32_eq h, store32_eq_slow]
  match src, h with
  | c0 :: c1 :: c2 :: c3 :: src, _ => rfl

/-! ### The cipher adds a stream of bytes -/

theorem length_flatMap_store32 (pad : List UInt32) :
  (pad.flatMap store32).length = 4 * pad.length
  := by
  induction pad with
  | nil => rfl
  | cons v pad ih =>
      rw [List.flatMap_cons, List.length_append, length_store32, ih, List.length_cons]
      omega

theorem xor32Blocks_eq {words : ℕ} {source : Bytes} {pad : List UInt32}
    (hsource : 4 * words ≤ source.length) (hpad : words ≤ pad.length) :
  xor32Blocks words source pad
    = List.zipWith (· ^^^ ·) (source.take (4 * words)) ((pad.take words).flatMap store32)
  := by
  induction words generalizing source pad with
  | zero => rfl
  | succ words ih =>
      cases pad with
      | nil => simp at hpad
      | cons v pad =>
          rw [List.length_cons] at hpad
          have hdrop : 4 * words ≤ (source.drop 4).length := by
            rw [List.length_drop]
            omega
          have htake : source.take (4 * (words + 1))
              = source.take 4 ++ (source.drop 4).take (4 * words) := by
            rw [Nat.mul_succ, Nat.add_comm]
            apply List.take_add
          have hfour : (source.take 4).length = (store32 v).length := by
            rw [length_store32, List.length_take]
            omega
          rw [xor32Blocks, List.headD_cons, List.tail_cons, xor32_eq (by omega),
            ih hdrop (by omega), htake, List.take_succ_cons, List.flatMap_cons,
            List.zipWith_append hfour]

/-- The words of the pad and the bytes of the one after them. -/
theorem xorBlock_eq {source : Bytes} {pad : List UInt32} (h : source.length < 4 * pad.length) :
  xorBlock source pad source.length = List.zipWith (· ^^^ ·) source (pad.flatMap store32)
  := by
  let full := source.length / 4
  have hfull : full < pad.length := by omega
  have hlength : (source.take (4 * full)).length = ((pad.take full).flatMap store32).length := by
    rw [length_flatMap_store32, List.length_take, List.length_take]
    omega
  have hpad : pad = pad.take full ++ pad[full] :: pad.drop (full + 1) := by
    rw [List.getElem_cons_drop, List.take_append_drop]
  have hhead : (pad.drop full).headD 0 = pad[full] := by
    rw [← List.getElem_cons_drop hfull, List.headD_cons]
  have hrest : (source.drop (4 * full)).length = source.length % 4 := by
    rw [List.length_drop]
    omega
  have hlast : (match source.length % 4 with
      | 1 => [(source.drop (4 * full)).getD 0 0 ^^^ byte pad[full] 0]
      | 2 => [(source.drop (4 * full)).getD 0 0 ^^^ byte pad[full] 0,
          (source.drop (4 * full)).getD 1 0 ^^^ byte pad[full] 1]
      | 3 => [(source.drop (4 * full)).getD 0 0 ^^^ byte pad[full] 0,
          (source.drop (4 * full)).getD 1 0 ^^^ byte pad[full] 1,
          (source.drop (4 * full)).getD 2 0 ^^^ byte pad[full] 2]
      | _ => [])
      = List.zipWith (· ^^^ ·) (source.drop (4 * full))
        ((pad[full] :: pad.drop (full + 1)).flatMap store32) := by
    rw [List.flatMap_cons, store32_eq_slow, ← hrest]
    have hlt : (source.drop (4 * full)).length < 4 := by omega
    match source.drop (4 * full), hlt with
    | [], _ => rfl
    | [_], _ => rfl
    | [_, _], _ => rfl
    | [_, _, _], _ => rfl
  rw [xorBlock]
  simp only [full] at hlast hhead hlength hfull hpad
  rw [hhead, xor32Blocks_eq (by omega) (by omega), hlast, ← List.zipWith_append hlength,
    List.take_append_drop, ← List.flatMap_append, ← hpad]

/-- The bytes of one block of the stream. -/
def keystreamBlock (key nonce : Bytes) (counter : UInt32) : Bytes :=
  (coreBlock (initializeState key nonce counter)).toList.flatMap store32

/-- The byte of the stream at a position. -/
def keystream (key nonce : Bytes) (counter : UInt32) (i : ℕ) : UInt8 :=
  (keystreamBlock key nonce (counter + UInt32.ofNat (i / blockSize))).getD (i % blockSize) 0

theorem blockSize_pos :
  0 < blockSize
  := Nat.zero_lt_succ _

theorem length_keystreamBlock (key nonce : Bytes) (counter : UInt32) :
  (keystreamBlock key nonce counter).length = blockSize
  := by rw [keystreamBlock, length_flatMap_store32, Vector.length_toList, blockSize]

theorem keystream_of_lt (key nonce : Bytes) (counter : UInt32) {i : ℕ} (h : i < blockSize) :
  keystream key nonce counter i = (keystreamBlock key nonce counter).getD i 0
  := by
  have hzero : counter + UInt32.ofNat 0 = counter := UInt32.add_zero counter
  rw [keystream, Nat.div_eq_of_lt h, Nat.mod_eq_of_lt h, hzero]

theorem keystream_add_blockSize (key nonce : Bytes) (counter : UInt32) (i : ℕ) :
  keystream key nonce counter (i + blockSize) = keystream key nonce (counter + 1) i
  := by
  have hnext : counter + UInt32.ofNat (i / blockSize + 1)
      = counter + 1 + UInt32.ofNat (i / blockSize) := by
    rw [UInt32.ofNat_add, UInt32.add_assoc, UInt32.add_comm 1]
    rfl
  rw [keystream, keystream, Nat.add_div_right _ blockSize_pos, Nat.add_mod_right, hnext]

/-- What is less than a block is added to the block. -/
theorem zipWith_keystreamBlock (key nonce : Bytes) (counter : UInt32) {source : Bytes}
    (h : source.length ≤ blockSize) :
  List.zipWith (· ^^^ ·) source (keystreamBlock key nonce counter)
    = source.mapIdx fun i c => c ^^^ keystream key nonce counter i
  := by
  have hblock := length_keystreamBlock key nonce counter
  apply List.ext_getElem
  · rw [List.length_zipWith, List.length_mapIdx]
    omega
  · intro i hi _
    rw [List.length_zipWith] at hi
    rw [List.getElem_zipWith, List.getElem_mapIdx, keystream_of_lt _ _ _ (by omega),
      List.getD_eq_getElem _ _ (by omega)]

theorem xorStreamLoop_eq {source key nonce : Bytes} {counter : UInt32} {fullBlocks lastBlock : ℕ}
    (h : source.length = blockSize * fullBlocks + lastBlock) (hlast : lastBlock < blockSize) :
  xorStreamLoop lastBlock fullBlocks (initializeState key nonce counter) source
    = source.mapIdx fun i c => c ^^^ keystream key nonce counter i
  := by
  induction fullBlocks generalizing source counter with
  | zero =>
      rw [Nat.mul_zero, Nat.zero_add] at h
      rw [xorStreamLoop]
      split
      · have hpad : source.length
            < 4 * (coreBlock (initializeState key nonce counter)).toList.length := by
          rw [Vector.length_toList, h]
          apply hlast
        rw [← h, xorBlock_eq hpad, ← keystreamBlock]
        apply zipWith_keystreamBlock
        omega
      · obtain rfl := List.eq_nil_of_length_eq_zero (show source.length = 0 by omega)
        rfl
  | succ fullBlocks ih =>
      have hfull : blockSize ≤ source.length := by
        rw [h, Nat.mul_succ]
        omega
      have hincrement : incrementCounter (initializeState key nonce counter)
          = initializeState key nonce (counter + 1) := rfl
      have hdrop : (source.drop blockSize).length = blockSize * fullBlocks + lastBlock := by
        rw [List.length_drop, h, Nat.mul_succ]
        omega
      have hpad : (coreBlock (initializeState key nonce counter)).toList.take 16
          = (coreBlock (initializeState key nonce counter)).toList :=
        List.take_of_length_le (by rw [Vector.length_toList])
      have hfirst : xor32Blocks 16 source (coreBlock (initializeState key nonce counter)).toList
          = (source.take blockSize).mapIdx fun i c => c ^^^ keystream key nonce counter i := by
        rw [xor32Blocks_eq hfull (by rw [Vector.length_toList]), hpad, ← keystreamBlock,
          ← zipWith_keystreamBlock _ _ _ (List.length_take_le _ _)]
        rfl
      rw [xorStreamLoop, hfirst, hincrement, ih hdrop]
      conv_rhs => rw [← List.take_append_drop blockSize source, List.mapIdx_append,
        List.length_take_of_le hfull]
      simp only [keystream_add_blockSize]

/-- The cipher adds its stream to a text, byte by byte. -/
theorem xorStream_eq (source key nonce : Bytes) (counter : UInt32) :
  xorStream source key nonce counter
    = source.mapIdx fun i c => c ^^^ keystream key nonce counter i
  := xorStreamLoop_eq (Nat.div_add_mod _ _).symm (Nat.mod_lt _ blockSize_pos)

theorem length_xorStream (source key nonce : Bytes) (counter : UInt32) :
  (xorStream source key nonce counter).length = source.length
  := by rw [xorStream_eq, List.length_mapIdx]

/-- To encrypt two times is to decrypt. -/
theorem xorStream_xorStream (source key nonce : Bytes) (counter : UInt32) :
  xorStream (xorStream source key nonce counter) key nonce counter = source
  := by
  rw [xorStream_eq, xorStream_eq, List.mapIdx_mapIdx]
  apply List.ext_getElem
  · rw [List.length_mapIdx]
  · intro i hi _
    rw [List.getElem_mapIdx, Function.comp_apply, UInt8.xor_assoc, UInt8.xor_self,
      UInt8.xor_zero]

/-! ### The tag is that of the padded texts and their sizes -/

/-- A text with zeros up to the next multiple of 16. -/
def padded (m : Bytes) : Bytes :=
  m ++ List.replicate (if m.length % 16 ≠ 0 then 16 - m.length % 16 else 0) 0

/-- What the tag is made of. -/
def macData (ad cipherText : Bytes) : Bytes :=
  padded ad ++ padded cipherText ++ toLE 8 ad.length ++ toLE 8 cipherText.length

/-- The context has been given a message. -/
def Given (ctx : Poly1305.State) (key m : Bytes) : Prop :=
  Poly1305.Holds ctx key
    (Blocks.absorb Poly1305.blockSize (Poly1305.absorbBlock (Poly1305.clamp key)) (0, []) m)

theorem Given.update {ctx : Poly1305.State} {key m : Bytes} (h : Given ctx key m)
    (hkey : key.length = 32) (m' : Bytes) :
  Given (Poly1305.update ctx m') key (m ++ m')
  := by
  rw [Given, Blocks.absorb_append]
  apply Poly1305.Holds.update h
  omega

theorem Given.padIfNeeded {ctx : Poly1305.State} {key m : Bytes} (hkey : key.length = 32)
    (m' : Bytes) (h : Given ctx key (m ++ m')) :
  Given (padIfNeeded ctx m'.length) key (m ++ padded m')
  := by
  rw [Portable8439.padIfNeeded, padded]
  split
  · rw [← List.append_assoc]
    apply h.update hkey
  · rw [List.replicate_zero, List.append_nil]
    apply h

theorem Given.write64 {ctx : Poly1305.State} {key m : Bytes} (h : Given ctx key m)
    (hkey : key.length = 32) (n : ℕ) :
  Given (write64 ctx (UInt64.ofNat n)) key (m ++ toLE 8 n)
  := by
  have hbytes : Poly1305.store (UInt64.ofNat n) = toLE 8 n := by
    rw [Poly1305.store_eq, UInt64.toNat_ofNat', toLE_mod]
    decide
  rw [← hbytes]
  apply h.update hkey

theorem length_keygen (key nonce : Bytes) :
  (keygen key nonce).length = 32
  := by
  have hblock := length_keystreamBlock key nonce 0
  rw [keygen, ← keystreamBlock, List.length_take, hblock]
  rfl

theorem calculateMac_eq {ctx : Poly1305.State} (hctx : ctx.buffer.length = Poly1305.blockSize)
    (cipherText key nonce ad : Bytes) :
  calculateMac ctx cipherText key nonce ad
    = Poly1305.tag (keygen key nonce) (macData ad cipherText)
  := by
  have hkey := length_keygen key nonce
  have hinit : Given (Poly1305.init ctx (keygen key nonce)) (keygen key nonce) [] :=
    Poly1305.holds_init hctx _
  have had : Given
      (if 0 < ad.length then
        padIfNeeded (Poly1305.update (Poly1305.init ctx (keygen key nonce)) ad) ad.length
      else Poly1305.init ctx (keygen key nonce))
      (keygen key nonce) (padded ad) := by
    split
    · apply (hinit.update hkey ad).padIfNeeded hkey
    · obtain rfl := List.eq_nil_of_length_eq_zero (show ad.length = 0 by omega)
      apply hinit
  have htext := ((had.update hkey cipherText).padIfNeeded hkey).write64 hkey ad.length
  apply Poly1305.Holds.finish hkey (htext.write64 hkey cipherText.length)

theorem length_calculateMac {ctx : Poly1305.State}
    (hctx : ctx.buffer.length = Poly1305.blockSize) (cipherText key nonce ad : Bytes) :
  (calculateMac ctx cipherText key nonce ad).length = ChaCha20.tagSize
  := by
  rw [calculateMac_eq hctx]
  apply length_toLE

theorem decrypt_encrypt {ctx : Poly1305.State} (hctx : ctx.buffer.length = Poly1305.blockSize)
    (key nonce ad plainText : Bytes) :
  decrypt ctx key nonce ad (encrypt ctx key nonce ad plainText) = some plainText
  := by
  let cipherText := xorStream plainText key nonce 1
  have hmac := length_calculateMac hctx cipherText key nonce ad
  have hsize : (encrypt ctx key nonce ad plainText).length - ChaCha20.tagSize
      = cipherText.length := by
    rw [encrypt, List.length_append, hmac, Nat.add_sub_cancel]
  have htake : (encrypt ctx key nonce ad plainText).take cipherText.length = cipherText :=
    List.take_left
  have hdrop : (encrypt ctx key nonce ad plainText).drop cipherText.length
      = calculateMac ctx cipherText key nonce ad := List.drop_left
  rw [decrypt, hsize, htake, hdrop, if_pos ((Poly1305.verify_iff hmac hmac).mpr rfl), xorStream_xorStream]

/-- What is decrypted is what has been encrypted, and nothing else is. -/
theorem decrypt_eq_some_iff {ctx : Poly1305.State}
    (hctx : ctx.buffer.length = Poly1305.blockSize) (key nonce ad : Bytes)
    {cipherText : Bytes} (hlength : ChaCha20.tagSize ≤ cipherText.length) (plainText : Bytes) :
  decrypt ctx key nonce ad cipherText = some plainText
    ↔ cipherText = encrypt ctx key nonce ad plainText
  := by
  constructor
  · intro h
    let actualSize := cipherText.length - ChaCha20.tagSize
    have hdrop : (cipherText.drop actualSize).length = ChaCha20.tagSize := by
      rw [List.length_drop]
      omega
    have hmac := length_calculateMac hctx (cipherText.take actualSize) key nonce ad
    rw [decrypt] at h
    split at h
    case isFalse => cases h
    case isTrue hverify =>
      rw [Option.some_inj] at h
      rw [Poly1305.verify_iff hdrop hmac] at hverify
      rw [encrypt, ← h, xorStream_xorStream, ← hverify, List.take_append_drop]
  · rintro rfl
    apply decrypt_encrypt hctx

namespace Sample

def key : Bytes := (List.range 32).map fun i => UInt8.ofNat (0x80 + i)

def nonce : Bytes := [0x07, 0, 0, 0, 0x40, 0x41, 0x42, 0x43, 0x44, 0x45, 0x46, 0x47]

def ad : Bytes := [0x50, 0x51, 0x52, 0x53, 0xc0, 0xc1, 0xc2, 0xc3, 0xc4, 0xc5, 0xc6, 0xc7]

def message : Bytes := ("Ladies and Gentlemen of the class of '99: If I could offer you only one "
  ++ "tip for the future, sunscreen would be it.").toList.map Char.toUInt8

end Sample

end Portable8439

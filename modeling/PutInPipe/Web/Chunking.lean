import Mathlib.Data.Rat.Floor
import PutInPipe.Buffer.Limits
import PutInPipe.Web.Assembly
import PutInPipe.Web.Upload

/-!
# The chunks of the file

`Sending` is the page of the sender with all it has sent, whatever arrives: a slice that was
read and encrypted, a connection, or any message of the server. Nothing fails in it, so that
the loop ends where it is done.

The page takes forty bytes off the limit of the server for what the encryption adds, and cuts
the file into slices of the size that is left. Nothing keeps the limit above these forty
bytes.
-/

open TransferSessionDetails
open Machine (run countSteps)

/-! ### The encryption -/

/-- What `encryptChunk` uses of libsodium: the nonces it draws, and the ciphertext with its
tag, of a text and a nonce. -/
structure Sodium where
  randombytes : ℕ → Bytes
  encrypt : Bytes → Bytes → Bytes

namespace Sodium

/-- A nonce has 24 bytes and a tag 16. -/
structure Sized (sodium : Sodium) : Prop where
  randombytes : ∀ k, (sodium.randombytes k).length = 24
  encrypt : ∀ plaintext nonce,
    (sodium.encrypt plaintext nonce).length = plaintext.length + 16

/-- The nonce drawn as number `k` stands before the ciphertext. -/
def encryptChunk (sodium : Sodium) (plaintext : Bytes) (k : ℕ) : Bytes :=
  sodium.randombytes k ++ sodium.encrypt plaintext (sodium.randombytes k)

theorem Sized.length_encryptChunk {sodium : Sodium} (h : sodium.Sized) (plaintext : Bytes)
    (k : ℕ) :
  (sodium.encryptChunk plaintext k).length = plaintext.length + 40
  := by
  rw [encryptChunk, List.length_append, h.randombytes, h.encrypt]
  omega

end Sodium

/-! ### The slices -/

namespace SessionSender

variable {config : Config} {file : SelectedFile} {i : ℕ}

/-- The number of slices, as the page computes it, but for a limit of forty bytes. -/
def totalChunks (config : Config) (file : SelectedFile) : ℤ :=
  ⌈(file.data.length : ℚ) / maxChunkSize config⌉

theorem hasSlice_iff (h : maxChunkSize config ≠ 0) :
  hasSlice config file i = true ↔ i < totalChunks config file
  := by
  rw [hasSlice, Bool.and_eq_true, decide_eq_true_eq, decide_eq_true_eq, totalChunks, Int.lt_ceil]
  obtain hneg | hpos := lt_or_gt_of_ne h
  · apply iff_of_false
    · rintro ⟨hle, -⟩
      omega
    · rw [not_lt]
      have hquotient : (file.data.length : ℚ) / maxChunkSize config ≤ 0 := by
        apply div_nonpos_of_nonneg_of_nonpos
        · positivity
        · exact_mod_cast hneg.le
      apply le_trans hquotient
      positivity
  · have hcast : (0 : ℚ) < maxChunkSize config := by exact_mod_cast hpos
    rw [and_iff_right hpos.le, lt_div_iff₀ hcast]
    norm_cast

theorem maxChunkSize_of_lt (h : 40 < config.transferSessionMaxChunkSize) :
  maxChunkSize config = config.transferSessionMaxChunkSize - 40
  := by rw [maxChunkSize, if_neg (by omega), CRYPTO_OVERHEAD]

theorem hasSlice_of_empty (h : file.data = []) :
  hasSlice config file i = false
  := by
  rw [hasSlice, h, List.length_nil, Nat.cast_zero, Bool.and_eq_false_imp]
  intro hnonneg
  rw [decide_eq_false_iff_not, not_lt]
  apply mul_nonneg
  · omega
  · apply of_decide_eq_true hnonneg

theorem length_slice_le (config : Config) (file : SelectedFile) (i : ℕ) :
  (slice config file i).length ≤ (maxChunkSize config).toNat
  := List.length_take_le _ _

theorem slice_ne_nil (hlimit : 40 < config.transferSessionMaxChunkSize)
    (hi : hasSlice config file i = true) :
  slice config file i ≠ []
  := by
  have hsize := maxChunkSize_of_lt hlimit
  rw [hasSlice, Bool.and_eq_true, decide_eq_true_eq, decide_eq_true_eq] at hi
  have hcast : ((maxChunkSize config).toNat : ℤ) = maxChunkSize config :=
    Int.toNat_of_nonneg hi.1
  have hstart : i * (maxChunkSize config).toNat < file.data.length := by
    rw [← hcast, ← Int.natCast_mul] at hi
    apply Int.ofNat_lt.mp hi.2
  rw [slice, ← List.length_pos_iff, List.length_take, List.length_drop]
  omega

end SessionSender

/-! ### The page and what arrives -/

def Phase.isReading : Phase → Bool
  | .reading _ => true
  | _ => false

/-- The page with the frames it has sent. Of each chunk, the slice and the number of the nonce
are kept too. -/
structure Sending where
  page : SessionSender := {}
  frames : List Frame := []
  sent : List (Bytes × ℕ) := []

namespace Sending

/-- What the page goes on with. -/
inductive Arrival where
  | select
  | read (k : ℕ) (isConnected : Bool)
  | opened
  | message (message : Message)
deriving DecidableEq, Repr

section

variable (config : Config) (file : SelectedFile) (encryptChunk : Bytes → ℕ → Bytes)

def act (x : Sending) (r : SessionSender × List Frame) : Sending :=
  { x with page := r.1, frames := x.frames ++ r.2 }

def step (x : Sending) : Arrival → Sending
  | .select => x.act (x.page.handleFileSelect config file)
  | .read k isConnected =>
      match x.page.phase with
      | .reading i =>
          let slice := SessionSender.slice config file i
          let x := x.act (x.page.onSliceRead isConnected (encryptChunk slice k))
          if isConnected then { x with sent := x.sent ++ [(slice, k)] } else x
      | _ => x
  | .opened => { x with page := x.page.onOpen }
  | .message message => x.act (x.page.onMessage config file message)

/-- The slices the page has sent, before their encryption. -/
def slices (x : Sending) : List Bytes := x.sent.map Prod.fst

/-- The loop goes on, or waits for something else. -/
def moved (x : Sending) (a : Arrival) : Bool :=
  (x.step config file encryptChunk a).page.phase ≠ x.page.phase

/-- A slice was read and could not be sent, so that it will be read again. -/
def lost (x : Sending) : Arrival → Bool
  | .read _ isConnected => !isConnected && x.page.phase.isReading
  | _ => false

/-- The page after what has arrived. -/
def after (as : List Arrival) : Sending := run (step config file encryptChunk) {} as

/-- The chunks are the file. The loop moves a bounded number of times, apart from twice for each
slice that could not be sent, and until it is done there is always something that moves it.
What it has sent then is the file, in chunks that are neither empty nor too large for the
server. -/
structure Partitions : Prop where
  terminates : ∃ bound, ∀ as,
    countSteps (step config file encryptChunk) (moved config file encryptChunk) {} as
      ≤ bound + 2 * countSteps (step config file encryptChunk) lost {} as
  awaits : ∀ as, (after config file encryptChunk as).page.phase ≠ .done →
    ∃ a, (after config file encryptChunk as).moved config file encryptChunk a = true
  whole : ∀ as, (after config file encryptChunk as).page.phase = .done →
    (after config file encryptChunk as).slices.flatten = file.data
  nonempty : ∀ as, [] ∉ (after config file encryptChunk as).slices
  encrypted : ∀ as,
    Upload.payloadsOf (after config file encryptChunk as).frames
      = (after config file encryptChunk as).sent.map fun c => encryptChunk c.1 c.2
  sized : ∀ as payload,
    payload ∈ Upload.payloadsOf (after config file encryptChunk as).frames →
      payload.length ≤ config.transferSessionMaxChunkSize
  admitted : ∀ as payload,
    payload ∈ Upload.payloadsOf (after config file encryptChunk as).frames →
      ∀ b : Buffer, b.WellFormed config → b.eof = false →
        b.chunkCount < config.transferSessionChunkQueueMaxSize →
          (b.addChunk config payload).2 ≠ 0

end

end Sending

/-! ### What one arrival does -/

section

variable (config : Config) (file : SelectedFile)

/-- The phase in which the loop goes on with slice `i`, or ends without one. -/
def Phase.head (i : ℕ) : Phase :=
  if SessionSender.hasSlice config file i then .reading i else .done

/-- The moves of the loop other than the reading of a slice. -/
inductive Phase.Turn : Phase → Phase → Prop where
  | stay (phase : Phase) : Turn phase phase
  | select : Turn .idle (.head config file 0)
  | opened (i : ℕ) : Turn (.waitingConnection i) (.reading i)
  | full (i : ℕ) : Turn (.waitingAccepted i) (.waitingSpace i)
  | accepted (i : ℕ) : Turn (.waitingAccepted i) (.head config file (i + 1))
  | space (i : ℕ) : Turn (.waitingSpace i) (.head config file (i + 1))

/-- The phase `phase` of a page that has sent `n` slices. -/
def Phase.Sent (n : ℕ) : Phase → Prop
  | .idle => n = 0
  | .reading i | .waitingConnection i => n = i ∧ SessionSender.hasSlice config file i = true
  | .waitingAccepted i | .waitingSpace i => n = i + 1
  | .done => SessionSender.hasSlice config file n = false
  | .failed => False

/-- What is left of the loop, in moves, if there are `total` slices. -/
def Phase.rank (total : ℕ) : Phase → ℕ
  | .idle => 3 * total + 1
  | .reading i => 3 * (total - i)
  | .waitingConnection i => 3 * (total - i) + 1
  | .waitingAccepted i => 3 * (total - i) - 1
  | .waitingSpace i => 3 * (total - i) - 2
  | .done | .failed => 0

end

theorem Phase.head_ne {config : Config} {file : SelectedFile} {phase : Phase} (i : ℕ)
    (hreading : phase ≠ .reading i) (hdone : phase ≠ .done) :
  Phase.head config file i ≠ phase
  := by
  rw [head]
  split
  · apply hreading.symm
  · apply hdone.symm

namespace SessionSender

open Phase (Turn)

variable {config : Config} {file : SelectedFile} {p : SessionSender} {i : ℕ}

theorem phase_next (p : SessionSender) (i : ℕ) :
  (p.next config file i).1.phase = .head config file i
  := by
  rw [next, Phase.head]
  split <;> rfl

theorem payloads_next (p : SessionSender) (i : ℕ) :
  Upload.payloadsOf (p.next config file i).2 = []
  := by
  rw [next]
  split <;> rfl

theorem turn_accepted (p : SessionSender) (i : ℕ) :
  Turn config file (.waitingAccepted i) (p.accepted config file i).1.phase
    ∧ Upload.payloadsOf (p.accepted config file i).2 = []
  := by
  rw [accepted]
  simp only
  split
  · use .full i
    rfl
  · rw [phase_next, payloads_next]
    exact ⟨.accepted i, rfl⟩

theorem phase_accepted_ne (p : SessionSender) (i : ℕ) :
  (p.accepted config file i).1.phase ≠ .waitingAccepted i
  := by
  rw [accepted]
  simp only
  split
  · rintro ⟨⟩
  · rw [phase_next]
    apply Phase.head_ne
    · rintro ⟨⟩
    · rintro ⟨⟩

theorem turn_handleFileSelect (p : SessionSender) :
  Turn config file p.phase (p.handleFileSelect config file).1.phase
    ∧ Upload.payloadsOf (p.handleFileSelect config file).2 = []
  := by
  rw [handleFileSelect]
  split
  case h_1 hphase =>
      rw [hphase]
      simp only
      rw [phase_next]
      use .select
      apply payloads_next
  case h_2 => exact ⟨.stay _, rfl⟩

theorem onSliceRead_of_reading (h : p.phase = .reading i) (isConnected : Bool)
    (payload : Bytes) :
  p.onSliceRead isConnected payload
    = if isConnected then ({ p with phase := .waitingAccepted i }, [.binary payload])
      else ({ p with phase := .waitingConnection i }, [])
  := by simp only [onSliceRead, h]

theorem turn_onOpen (p : SessionSender) :
  Turn config file p.phase p.onOpen.phase
  := by
  rw [onOpen]
  split
  case h_1 i hphase =>
      rw [hphase]
      apply Turn.opened
  case h_2 => apply Turn.stay

theorem turn_onNewChunkAllowed (p : SessionSender) (status : Bool) :
  Turn config file p.phase (p.onNewChunkAllowed config file status).1.phase
    ∧ Upload.payloadsOf (p.onNewChunkAllowed config file status).2 = []
  := by
  rw [onNewChunkAllowed]
  simp only
  split
  case h_1 i hphase =>
      rw [hphase]
      split
      · rw [phase_next, payloads_next]
        exact ⟨.space i, rfl⟩
      · exact ⟨.stay _, rfl⟩
  case h_2 => exact ⟨.stay _, rfl⟩

theorem turn_onNewChunkEvent (p : SessionSender) (index : ℕ) :
  Turn config file p.phase (p.onNewChunkEvent config file index).1.phase
    ∧ Upload.payloadsOf (p.onNewChunkEvent config file index).2 = []
  := by
  rw [onNewChunkEvent]
  simp only
  split
  case h_1 i hphase =>
      rw [hphase]
      apply turn_accepted
  case h_2 => exact ⟨.stay _, rfl⟩

theorem turn_onReconnectInit (p : SessionSender) (chunks : List ℕ) :
  Turn config file p.phase (p.onReconnectInit config file chunks).1.phase
    ∧ Upload.payloadsOf (p.onReconnectInit config file chunks).2 = []
  := by
  rw [onReconnectInit]
  simp only
  split
  case h_1 i hphase =>
      rw [hphase]
      apply turn_accepted
  case h_2 i hphase =>
      rw [hphase]
      split
      · rw [phase_next, payloads_next]
        exact ⟨.space i, rfl⟩
      · exact ⟨.stay _, rfl⟩
  case h_3 => exact ⟨.stay _, rfl⟩

/-- No message makes the page send a chunk. -/
theorem turn_onMessage (p : SessionSender) (message : Message) :
  Turn config file p.phase (p.onMessage config file message).1.phase
    ∧ Upload.payloadsOf (p.onMessage config file message).2 = []
  := by
  cases message with
  | newChunk index => apply turn_onNewChunkEvent
  | newChunkAllowed status => apply turn_onNewChunkAllowed
  | chunkRemoved | addChunkFailure => exact ⟨.stay _, rfl⟩
  | startInit chunks => apply turn_onReconnectInit

end SessionSender

namespace Sending

open Phase (Turn)

variable {config : Config} {file : SelectedFile} {encryptChunk : Bytes → ℕ → Bytes}
  {x y : Sending}

/-- The page goes on without a chunk. -/
structure Turns (config : Config) (file : SelectedFile) (x y : Sending) : Prop where
  turn : Turn config file x.page.phase y.page.phase
  sent : y.sent = x.sent
  payloads : Upload.payloadsOf y.frames = Upload.payloadsOf x.frames

theorem turns_act {r : SessionSender × List Frame}
    (h : Turn config file x.page.phase r.1.phase ∧ Upload.payloadsOf r.2 = []) :
  Turns config file x (x.act r)
  where
    turn := h.1
    sent := rfl
    payloads := by
      rw [act, Upload.payloadsOf, List.filterMap_append]
      exact (congrArg _ h.2).trans (List.append_nil _)

/-- What one arrival does: a slice is sent or could not be sent, or the page goes on without
a chunk. -/
theorem step_cases (x : Sending) (a : Arrival) :
  (∃ i k, x.page.phase = .reading i ∧ a = .read k true
    ∧ x.step config file encryptChunk a
      = { page := { x.page with phase := .waitingAccepted i }
          frames := x.frames ++ [.binary (encryptChunk (SessionSender.slice config file i) k)]
          sent := x.sent ++ [(SessionSender.slice config file i, k)] })
    ∨ (∃ i, x.page.phase = .reading i ∧ x.lost a = true
      ∧ x.step config file encryptChunk a
        = { x with page := { x.page with phase := .waitingConnection i } })
    ∨ x.lost a = false ∧ Turns config file x (x.step config file encryptChunk a)
  := by
  cases a with
  | select =>
      right; right
      use rfl
      apply turns_act
      apply SessionSender.turn_handleFileSelect
  | opened =>
      right; right
      use rfl
      exact ⟨SessionSender.turn_onOpen _, rfl, rfl⟩
  | message message =>
      right; right
      use rfl
      apply turns_act
      apply SessionSender.turn_onMessage
  | read k isConnected =>
      rw [step]
      split
      case h_1 i hphase =>
          cases isConnected with
          | true =>
              left
              use i, k, hphase, rfl
              simp only [SessionSender.onSliceRead_of_reading hphase]
              rfl
          | false =>
              right; left
              refine ⟨i, hphase, ?_, ?_⟩
              · rw [lost, hphase]
                rfl
              · simp [SessionSender.onSliceRead_of_reading hphase, act]
      case h_2 hphase =>
          right; right
          constructor
          · rw [lost]
            cases hx : x.page.phase with
            | reading i => cases hphase i hx
            | _ => simp [Phase.isReading]
          · exact ⟨.stay _, rfl, rfl⟩

/-! ### What has been sent -/

section

variable (config : Config) (file : SelectedFile) (encryptChunk : Bytes → ℕ → Bytes)

/-- The page has sent the first `n` slices. -/
structure Cut (n : ℕ) (x : Sending) : Prop where
  slices : x.slices = (List.range n).map (SessionSender.slice config file)
  numbers : ∀ i < n, SessionSender.hasSlice config file i = true
  payloads : Upload.payloadsOf x.frames = x.sent.map fun c => encryptChunk c.1 c.2
  phase : x.page.phase.Sent config file n

end

theorem cut_create :
  Cut config file encryptChunk 0 {}
  where
    slices := rfl
    numbers _ hi := absurd hi (Nat.not_lt_zero _)
    payloads := rfl
    phase := rfl

theorem sent_head (i : ℕ) :
  (Phase.head config file i).Sent config file i
  := by
  rw [Phase.head]
  split
  case isTrue hi => exact ⟨rfl, hi⟩
  case isFalse hi => apply Bool.eq_false_of_not_eq_true hi

theorem sent_of_turn {n : ℕ} {phase phase' : Phase} (h : Turn config file phase phase')
    (hn : phase.Sent config file n) :
  phase'.Sent config file n
  := by
  cases h with
  | stay => apply hn
  | select =>
      obtain rfl : n = 0 := hn
      apply sent_head
  | opened i => apply hn
  | full i => apply hn
  | accepted i | space i =>
      obtain rfl : n = i + 1 := hn
      apply sent_head

/-- One arrival: the page has sent the first slices, and one more if it was reading it. -/
theorem cut_step (x : Sending) (a : Arrival) (h : ∃ n, Cut config file encryptChunk n x) :
  ∃ n, Cut config file encryptChunk n (x.step config file encryptChunk a)
  := by
  obtain ⟨n, h⟩ := h
  obtain ⟨i, k, hphase, -, heq⟩ | ⟨i, hphase, -, heq⟩ | ⟨-, hturns⟩ := x.step_cases a
  · have hsent := h.phase
    rw [hphase] at hsent
    obtain ⟨rfl, hslice⟩ := hsent
    use n + 1
    rw [heq]
    constructor
    case slices =>
        rw [slices, List.map_append, List.range_succ, List.map_append]
        exact congrArg (· ++ _) h.slices
    case numbers =>
        intro j hj
        obtain hlt | rfl := Nat.lt_succ_iff_lt_or_eq.mp hj
        · apply h.numbers j hlt
        · apply hslice
    case payloads =>
        rw [Upload.payloadsOf, List.filterMap_append, List.map_append]
        exact congrArg (· ++ _) h.payloads
    case phase => rfl
  · use n
    rw [heq]
    constructor
    case slices => apply h.slices
    case numbers => apply h.numbers
    case payloads => apply h.payloads
    case phase =>
        have hsent := h.phase
        rw [hphase] at hsent
        apply hsent
  · use n
    constructor
    case slices =>
        rw [slices, hturns.sent]
        apply h.slices
    case numbers => apply h.numbers
    case payloads =>
        rw [hturns.payloads, hturns.sent]
        apply h.payloads
    case phase => apply sent_of_turn hturns.turn h.phase

theorem cut_after (config : Config) (file : SelectedFile) (encryptChunk : Bytes → ℕ → Bytes)
    (as : List Arrival) :
  ∃ n, Cut config file encryptChunk n (after config file encryptChunk as)
  := (Machine.everyState_of_invariant cut_step ⟨0, cut_create⟩ as).last

/-! ### The end of the loop -/

theorem rank_head (config : Config) (file : SelectedFile) (total i : ℕ) :
  (Phase.head config file i).rank total ≤ 3 * (total - i)
  := by
  rw [Phase.head]
  split
  · apply Nat.le_refl
  · apply Nat.zero_le

/-- A turn that moves the loop brings it closer to its end. -/
theorem rank_of_turn {total n : ℕ} {phase phase' : Phase}
    (htotal : ∀ i, SessionSender.hasSlice config file i = true → i < total)
    (h : Turn config file phase phase') (hn : phase.Sent config file n)
    (hnumbers : ∀ i < n, SessionSender.hasSlice config file i = true) :
  phase' = phase ∨ phase'.rank total < phase.rank total
  := by
  cases h with
  | stay => left; rfl
  | select =>
      right
      have hhead := rank_head config file total 0
      rw [Phase.rank]
      omega
  | opened i =>
      right
      rw [Phase.rank, Phase.rank]
      omega
  | full i =>
      obtain rfl : n = i + 1 := hn
      have hi := htotal i (hnumbers i (Nat.lt_succ_self i))
      right
      rw [Phase.rank, Phase.rank]
      omega
  | accepted i | space i =>
      obtain rfl : n = i + 1 := hn
      have hi := htotal i (hnumbers i (Nat.lt_succ_self i))
      have hhead := rank_head config file total (i + 1)
      right
      rw [Phase.rank]
      omega

theorem rank_step {total n : ℕ}
    (htotal : ∀ i, SessionSender.hasSlice config file i = true → i < total)
    (h : Cut config file encryptChunk n x) (a : Arrival) :
  (x.moved config file encryptChunk a).toNat
      + (x.step config file encryptChunk a).page.phase.rank total
    ≤ x.page.phase.rank total + 2 * (x.lost a).toNat
  := by
  have hmoved : (x.moved config file encryptChunk a).toNat ≤ 1 := Bool.toNat_le _
  obtain ⟨i, k, hphase, -, heq⟩ | ⟨i, hphase, hlost, heq⟩ | ⟨-, hturns⟩ := x.step_cases a
  · have hsent := h.phase
    rw [hphase] at hsent
    have hi := htotal i hsent.2
    rw [heq, hphase, Phase.rank, Phase.rank]
    omega
  · rw [heq, hphase, hlost, Bool.toNat_true, Phase.rank, Phase.rank]
    omega
  · obtain hstay | hlt := rank_of_turn htotal hturns.turn h.phase h.numbers
    · rw [moved, hstay]
      simp
    · omega

/-- The loop of `total` slices ends after three moves for each of them. -/
theorem moves_le {total : ℕ}
    (htotal : ∀ i, SessionSender.hasSlice config file i = true → i < total)
    (as : List Arrival) :
  countSteps (step config file encryptChunk) (moved config file encryptChunk) {} as
    ≤ 3 * total + 1 + 2 * countSteps (step config file encryptChunk) lost {} as
  := by
  let rank (x : Sending) : ℕ := x.page.phase.rank total
  have hrank : ∀ x a, (∃ n, Cut config file encryptChunk n x) →
      (moved config file encryptChunk x a).toNat + rank (x.step config file encryptChunk a)
        ≤ rank x + 2 * (x.lost a).toNat := by
    rintro x a ⟨n, hx⟩
    apply rank_step htotal hx
  have hmoves := Machine.countSteps_add_rank_le cut_step hrank ⟨0, cut_create⟩ as
  apply le_trans (Nat.le_add_right _ _) hmoves

/-- Until the loop is done there is something it waits for. -/
theorem awaits_of_cut {n : ℕ} (h : Cut config file encryptChunk n x)
    (hdone : x.page.phase ≠ .done) :
  ∃ a, x.moved config file encryptChunk a = true
  := by
  have hsent := h.phase
  cases hphase : x.page.phase with
  | idle =>
      use .select
      rw [moved, step, act, SessionSender.handleFileSelect, hphase]
      simp only [SessionSender.phase_next, decide_eq_true_eq]
      apply Phase.head_ne
      · rintro ⟨⟩
      · rintro ⟨⟩
  | reading i =>
      use .read 0 true
      simp [moved, step, act, hphase, SessionSender.onSliceRead]
  | waitingConnection i =>
      use .opened
      simp [moved, step, hphase, SessionSender.onOpen]
  | waitingAccepted i =>
      use .message (.newChunk 0 0)
      rw [moved, step, act, SessionSender.onMessage, SessionSender.onNewChunkEvent, hphase]
      simp only [decide_eq_true_eq]
      apply SessionSender.phase_accepted_ne
  | waitingSpace i =>
      use .message (.newChunkAllowed true)
      rw [moved, step, act, SessionSender.onMessage, SessionSender.onNewChunkAllowed, hphase]
      simp only [if_true, SessionSender.phase_next, decide_eq_true_eq]
      apply Phase.head_ne
      · rintro ⟨⟩
      · rintro ⟨⟩
  | done => cases hdone hphase
  | failed =>
      rw [hphase] at hsent
      cases hsent

/-- Without a byte left for the text of a chunk the loop goes on for ever. -/
theorem endless (hlimit : config.transferSessionMaxChunkSize = 40) (hfile : file.data ≠ [])
    (as : List Arrival) :
  (after config file encryptChunk as).page.phase ≠ .done
  := by
  intro hdone
  obtain ⟨n, hcut⟩ := cut_after config file encryptChunk as
  have hsent := hcut.phase
  rw [hdone] at hsent
  have hsize : SessionSender.maxChunkSize config = 0 := by
    rw [SessionSender.maxChunkSize, hlimit]
    rfl
  have hslice : SessionSender.hasSlice config file n = true := by
    rw [SessionSender.hasSlice, hsize, mul_zero, Bool.and_eq_true, decide_eq_true_eq,
      decide_eq_true_eq]
    use le_refl 0
    exact_mod_cast List.length_pos_of_ne_nil hfile
  rw [Phase.Sent, hslice] at hsent
  cases hsent

/-! ### When the chunks are the file -/

theorem lt_totalChunks (hlimit : 40 < config.transferSessionMaxChunkSize ∨ file.data = []) {i : ℕ}
    (hi : SessionSender.hasSlice config file i = true) :
  i < (SessionSender.totalChunks config file).toNat
  := by
  obtain hlimit | hfile := hlimit
  · have hsize := SessionSender.maxChunkSize_of_lt hlimit
    rw [SessionSender.hasSlice_iff (by omega)] at hi
    omega
  · rw [SessionSender.hasSlice_of_empty hfile] at hi
    cases hi

theorem whole_of_cut {n : ℕ} (hlimit : 40 < config.transferSessionMaxChunkSize ∨ file.data = [])
    (h : Cut config file encryptChunk n x) (hdone : x.page.phase = .done) :
  x.slices.flatten = file.data
  := by
  have hsent := h.phase
  rw [hdone] at hsent
  rw [h.slices, ← List.flatMap_def]
  obtain hlimit | hfile := hlimit
  · apply SessionSender.flatMap_slice hlimit hsent
  · have hslice : SessionSender.slice config file = fun _ => [] := by
      funext i
      rw [SessionSender.slice, hfile, List.drop_nil, List.take_nil]
    rw [hslice, hfile, List.flatMap_eq_nil_iff]
    exact fun _ _ => rfl

/-- A slice that was sent, and what it leaves of the limit. -/
theorem of_mem_sent {n : ℕ} (hlimit : 40 < config.transferSessionMaxChunkSize ∨ file.data = [])
    (h : Cut config file encryptChunk n x) {slice : Bytes} (hslice : slice ∈ x.slices) :
  slice ≠ [] ∧ slice.length + 40 ≤ config.transferSessionMaxChunkSize
  := by
  rw [h.slices] at hslice
  obtain ⟨i, hi, rfl⟩ := List.mem_map.mp hslice
  have hnumber := h.numbers i (List.mem_range.mp hi)
  obtain hlimit | hfile := hlimit
  · use SessionSender.slice_ne_nil hlimit hnumber
    have hlength := SessionSender.length_slice_le config file i
    have hsize := SessionSender.maxChunkSize_of_lt hlimit
    omega
  · rw [SessionSender.hasSlice_of_empty hfile] at hnumber
    cases hnumber

theorem partitions_of_limit (hlength : ∀ text k, (encryptChunk text k).length = text.length + 40)
    (hlimit : 40 < config.transferSessionMaxChunkSize ∨ file.data = []) :
  Partitions config file encryptChunk
  := by
  have hsized : ∀ as payload,
      payload ∈ Upload.payloadsOf (after config file encryptChunk as).frames →
        payload.length ≤ config.transferSessionMaxChunkSize := by
    intro as payload hpayload
    obtain ⟨n, hcut⟩ := cut_after config file encryptChunk as
    rw [hcut.payloads] at hpayload
    obtain ⟨c, hc, rfl⟩ := List.mem_map.mp hpayload
    rw [hlength]
    apply (of_mem_sent hlimit hcut (List.mem_map_of_mem hc)).2
  constructor
  case terminates =>
      use 3 * (SessionSender.totalChunks config file).toNat + 1
      apply moves_le
      intro i
      apply lt_totalChunks hlimit
  case awaits =>
      intro as
      obtain ⟨n, hcut⟩ := cut_after config file encryptChunk as
      apply awaits_of_cut hcut
  case whole =>
      intro as
      obtain ⟨n, hcut⟩ := cut_after config file encryptChunk as
      apply whole_of_cut hlimit hcut
  case nonempty =>
      intro as hmem
      obtain ⟨n, hcut⟩ := cut_after config file encryptChunk as
      apply (of_mem_sent hlimit hcut hmem).1 rfl
  case encrypted =>
      intro as
      obtain ⟨n, hcut⟩ := cut_after config file encryptChunk as
      apply hcut.payloads
  case sized => apply hsized
  case admitted =>
      intro as payload hpayload b hb heof hroom
      apply (hb.addChunk_snd payload).mpr
      exact ⟨heof, hsized as payload hpayload, hroom⟩

/-- The first slice is sent when the file has one. -/
theorem sent_of_hasSlice (encryptChunk : Bytes → ℕ → Bytes)
    (h : SessionSender.hasSlice config file 0 = true) :
  (after config file encryptChunk [.select, .read 0 true]).sent
    = [(SessionSender.slice config file 0, 0)]
  := by
  simp [after, step, act, SessionSender.handleFileSelect, SessionSender.next, h,
    SessionSender.onSliceRead]

/-- Otherwise the upload is finished at once. -/
theorem done_of_not_hasSlice (encryptChunk : Bytes → ℕ → Bytes)
    (h : SessionSender.hasSlice config file 0 = false) :
  (after config file encryptChunk [.select]).page.phase = .done
    ∧ (after config file encryptChunk [.select]).slices = []
  := by
  simp [after, step, act, SessionSender.handleFileSelect, SessionSender.next, h, slices]

/-- The chunks are the file exactly where the limit of the server is above what the encryption
adds, or there is nothing to send. -/
theorem partitions_iff (config : Config) (file : SelectedFile) (sodium : Sodium)
    (hsodium : sodium.Sized) :
  Partitions config file sodium.encryptChunk
    ↔ 40 < config.transferSessionMaxChunkSize ∨ file.data = []
  := by
  constructor
  · intro h
    by_contra hlimit
    obtain ⟨hle, hfile⟩ := not_or.mp hlimit
    cases hslice : SessionSender.hasSlice config file 0 with
    | true =>
        have hsent := sent_of_hasSlice sodium.encryptChunk hslice
        have hpayload : sodium.encryptChunk (SessionSender.slice config file 0) 0
            ∈ Upload.payloadsOf
              (after config file sodium.encryptChunk [.select, .read 0 true]).frames := by
          rw [h.encrypted, hsent]
          apply List.mem_singleton_self
        have hempty : SessionSender.slice config file 0 = [] := by
          have hlength := h.sized _ _ hpayload
          rw [hsodium.length_encryptChunk] at hlength
          apply List.eq_nil_of_length_eq_zero
          omega
        apply h.nonempty [.select, .read 0 true]
        rw [slices, hsent, hempty]
        apply List.mem_singleton_self
    | false =>
        obtain ⟨hdone, hnone⟩ := done_of_not_hasSlice sodium.encryptChunk hslice
        have hwhole := h.whole _ hdone
        rw [hnone] at hwhole
        apply hfile hwhole.symm
  · apply partitions_of_limit hsodium.length_encryptChunk

/-! ### Files for sample runs -/

def Sample.sodium : Sodium where
  randombytes k := List.replicate 24 (UInt8.ofNat k)
  encrypt plaintext _ := plaintext ++ List.replicate 16 0

/-- A limit with no room for a text. -/
def Sample.narrow : Config where
  transferSessionMaxChunkSize := 40
  transferSessionChunkQueueMaxSize := 3
  transferSessionMaxConsumerCount := 3

theorem Sample.sized_sodium :
  Sample.sodium.Sized
  where
    randombytes _ := List.length_replicate
    encrypt _ _ := by
      rw [sodium, List.length_append, List.length_replicate]

theorem partitions_sample :
  Sample.sodium.Sized
    ∧ Partitions Upload.Sample.config Upload.Sample.file Sample.sodium.encryptChunk
  := by
  use Sample.sized_sodium
  apply (partitions_iff _ _ _ Sample.sized_sodium).mpr
  left
  decide

/-- With a limit of forty bytes a file of three bytes is uploaded for ever, in empty chunks. -/
theorem not_partitions_narrow :
  (∀ as, (after Sample.narrow Upload.Sample.file Sample.sodium.encryptChunk as).page.phase ≠ .done)
    ∧ ¬∀ (config : Config) (file : SelectedFile) (sodium : Sodium), sodium.Sized →
      Partitions config file sodium.encryptChunk
  := by
  constructor
  · apply endless rfl
    nofun
  · intro h
    have hsample := h Sample.narrow Upload.Sample.file Sample.sodium Sample.sized_sodium
    apply hsample.nonempty [.select, .read 0 true]
    rw [slices, sent_of_hasSlice _ rfl]
    apply List.mem_singleton_self

end Sending

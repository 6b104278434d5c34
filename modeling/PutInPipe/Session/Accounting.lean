import PutInPipe.Session.Joining

/-!
# The bytes downloaded

The buffer counts the bytes of every chunk that is read through its `operator[]`, and shows
the count as `bytesOut`. A download reads the chunk, but so does a confirmation, for the
progress of the receiver. `Accounting` is a session with the bytes it has handed out.
-/

open TransferSessionDetails

namespace TransferSessionDetails.Buffer

variable {b : Buffer}

/-- The bytes an operation reads. -/
def bytesRead (b : Buffer) : Op → ℕ
  | .get index => (b.get index).2.elim 0 List.length
  | _ => 0

theorem bytesOut_get (b : Buffer) (index : ℕ) :
  (b.get index).1.bytesOut = b.bytesOut + b.bytesRead (.get index)
  := by
  rw [bytesRead, get_snd, get]
  split
  · next h => rw [h, Option.map_none, Option.elim_none, Nat.add_zero]
  · next h => rw [h, Option.map_some, Option.elim_some, bytesOut, bytesOut, Chunk.dataSize]

theorem bytesOut_sanitize (b : Buffer) :
  b.sanitize.1.bytesOut = b.bytesOut
  := by
  rw [sanitize]
  split <;> rfl

/-- Only reading a chunk counts. -/
theorem bytesOut_step (config : Config) (b : Buffer) (op : Op) :
  (b.step config op).bytesOut = b.bytesOut + b.bytesRead op
  := by
  cases op with
  | get index => apply bytesOut_get
  | addChunk binaryData =>
      simp only [step, addChunk, insertChunk]
      split_ifs <;> rfl
  | setChunkAsReceived index =>
      rw [step]
      cases hi : b.chunks.find? index with
      | none =>
          rw [setChunkAsReceived_of_none hi]
          rfl
      | some chunk =>
          rw [setChunkAsReceived_of_some hi]
          apply bytesOut_sanitize
  | setEndOfFile =>
      rw [step, setEndOfFile]
      split <;> rfl
  | setInitialChunksFreezingDropped =>
      rw [step]
      cases hf : b.initialChunksFreezing with
      | false =>
          rw [setInitialChunksFreezingDropped_of_not_freezing hf]
          rfl
      | true =>
          rw [setInitialChunksFreezingDropped_of_freezing hf]
          apply bytesOut_sanitize
  | addNewToExpectedConsumers publicId =>
      rw [step]
      cases ha : (b.addNewToExpectedConsumers config publicId).2 with
      | false =>
          rw [addNewToExpectedConsumers_of_false ha]
          rfl
      | true =>
          rw [addNewToExpectedConsumers_of_true ha]
          rfl
  | removeOneFromExpectedConsumers publicId =>
      rw [step]
      by_cases hp : publicId ∈ b.expectedConsumers
      · rw [removeOneFromExpectedConsumers_of_mem hp]
        apply bytesOut_sanitize
      · rw [removeOneFromExpectedConsumers_of_notMem hp]
        rfl

end TransferSessionDetails.Buffer

namespace TransferSession

variable {config : Config} {s : TransferSession}

def bytesOut (s : TransferSession) : ℕ := s.buffer.bytesOut

/-- The size of the chunk that `getChunk` returns. -/
def bytesServed (s : TransferSession) : Op → ℕ
  | .getChunk index client => (s.getChunk index client).2.elim 0 List.length
  | _ => 0

/-- The size of the chunk that is read for a confirmation. -/
def bytesConfirmed (config : Config) (s : TransferSession) : Op → ℕ
  | .setChunkAsReceived index _ => (s.autoDropFreeze config).buffer.bytesRead (.get index)
  | _ => 0

/-- Where a chunk is confirmed, there are no bytes to read: it is not stored any more, or it
is empty, or the confirmation drops the freeze and the chunk waits for nobody. -/
def ConfirmsNothing (s : TransferSession) : Op → Prop
  | .setChunkAsReceived index _ => ∀ chunk, s.buffer.chunks.find? index = some chunk →
      chunk.data = [] ∨ s.autoDrops = true ∧ s.buffer.expectedConsumers.card ≤ chunk.uses
  | _ => True

theorem getChunk_snd (s : TransferSession) (index : ℕ) (client : ClientRef) :
  (s.getChunk index client).2 = (s.buffer.get index).2
  := by
  rw [getChunk]
  dsimp only
  split
  · next h => exact h.symm
  · next h => exact h.symm

theorem bytesOut_apply (config : Config) (s : TransferSession) (op : Op) :
  (s.apply config op).bytesOut = s.bytesOut + s.bytesServed op + s.bytesConfirmed config op
  := by
  have hone : ∀ bufferOp, (Machine.run (Buffer.step config) s.buffer [bufferOp]).bytesOut
      = s.bytesOut + s.buffer.bytesRead bufferOp := Buffer.bytesOut_step config s.buffer
  rw [bytesOut, buffer_apply]
  cases op with
  | addReceiver client =>
      rw [bufferOps]
      split
      · rfl
      · apply hone _
  | destroyClient client =>
      rw [bufferOps]
      split
      · apply hone _
      · rfl
  | getChunk index client =>
      rw [bytesServed, getChunk_snd]
      apply hone _
  | setChunkAsReceived index client =>
      rw [bytesConfirmed, bufferOps, buffer_autoDropFreeze]
      split
      · simp only [Machine.run_cons, Machine.run_nil, Buffer.bytesOut_step]
        rfl
      · simp only [Machine.run_cons, Machine.run_nil, Buffer.bytesOut_step]
        rfl
  | addChunk binaryData => exact hone _
  | removeReceiver publicId => exact hone _
  | setEndOfFile => exact hone _
  | dropInitialChunksFreeze => exact hone _
  | setFileInfo | manualTerminate | lifetimeTimeout | connect | disconnect => rfl

theorem bytesConfirmed_eq_zero {op : Op} :
  s.bytesConfirmed config op = 0 ↔ s.ConfirmsNothing op
  := by
  cases op with
  | setChunkAsReceived index client =>
      have hread : ∀ b : Buffer, b.bytesRead (.get index) = 0
          ↔ ∀ chunk, b.chunks.find? index = some chunk → chunk.data = [] := by
        intro b
        rw [Buffer.bytesRead, Buffer.get_snd]
        cases b.chunks.find? index with
        | none => simp
        | some chunk => simp
      rw [bytesConfirmed, hread, ConfirmsNothing, buffer_autoDropFreeze]
      split
      · next hauto =>
          have hf := initialChunksFreezing_of_autoDrops hauto
          simp only [Buffer.find?_setInitialChunksFreezingDropped hf, and_imp, hauto, true_and]
          constructor
          · intro h chunk hchunk
            obtain hle | hlt := Nat.lt_or_ge chunk.uses s.buffer.expectedConsumers.card
            · exact .inl (h chunk hchunk hle)
            · exact .inr hlt
          · intro h chunk hchunk hlt
            apply (h chunk hchunk).resolve_right (Nat.not_le.mpr hlt)
      · next hauto => simp only [hauto, Bool.false_eq_true, false_and, or_false]
  | _ => exact iff_of_true rfl trivial

end TransferSession

/-- `served` is the sum of the sizes of the chunks that `getChunk` has returned. -/
structure Accounting where
  session : TransferSession
  served : ℕ := 0

namespace Accounting

open TransferSession

variable {config : Config} {a : Accounting}

/-- The size of the chunk that is returned in a step. -/
def serves (a : Accounting) (op : Op) : ℕ :=
  if a.session.listed && a.session.enabled op then a.session.bytesServed op else 0

def step (config : Config) (a : Accounting) (op : Op) : Accounting where
  session := a.session.step config op
  served := a.served + a.serves op

/-- The count is what has been handed out. -/
def Exact (a : Accounting) : Prop := a.session.bytesOut = a.served

instance (a : Accounting) : Decidable a.Exact :=
  inferInstanceAs (Decidable (a.session.bytesOut = a.served))

/-- Where nothing is handed out, the count stays. -/
def CountsDownloadsOnly (config : Config) (a : Accounting) (op : Op) : Prop :=
  a.serves op = 0 → (a.session.step config op).bytesOut = a.session.bytesOut

/-- Where a chunk is confirmed, there are no bytes to read. -/
def ConfirmsNothing (a : Accounting) (op : Op) : Prop :=
  WhenApplied TransferSession.ConfirmsNothing a.session op

theorem bytesOut_step (config : Config) (a : Accounting) (op : Op) :
  ∃ n, (a.step config op).session.bytesOut = a.session.bytesOut + a.serves op + n
    ∧ (n = 0 ↔ a.ConfirmsNothing op)
  := by
  by_cases happlied : a.session.listed = true ∧ a.session.enabled op = true
  · use a.session.bytesConfirmed config op
    constructor
    · rw [step, step_of_enabled happlied.1 happlied.2, bytesOut, buffer_finish, serves,
        if_pos (by simp [happlied])]
      apply bytesOut_apply
    · rw [bytesConfirmed_eq_zero, ConfirmsNothing, WhenApplied]
      simp only [happlied, true_imp_iff]
  · use 0
    constructor
    · rw [step, step_of_not_enabled happlied, serves, if_neg (by simpa using happlied)]
      rfl
    · apply iff_of_true rfl
      exact fun hl he => absurd ⟨hl, he⟩ happlied

theorem Exact.step_iff (h : a.Exact) {op : Op} :
  (a.step config op).Exact ↔ a.ConfirmsNothing op
  := by
  obtain ⟨n, hn, hiff⟩ := bytesOut_step config a op
  rw [Exact] at h
  rw [Exact, hn, ← hiff, h]
  apply Nat.add_eq_left

theorem countsDownloadsOnly_of_confirmsNothing {op : Op} (h : a.ConfirmsNothing op) :
  a.CountsDownloadsOnly config op
  := by
  intro hserves
  obtain ⟨n, hn, hiff⟩ := bytesOut_step config a op
  rw [hserves, hiff.mpr h] at hn
  apply hn

/-- In every run from the creation of a session, `bytesOut` is the sum of the sizes of the
chunks that were returned, and nothing else counts, exactly as long as there is nothing to
read where a chunk is confirmed. -/
theorem bytesOut_eq_served_iff (config : Config) (sender : ClientRef) (auto : Bool)
    (ops : List Op) :
  (Machine.EveryState (step config) Exact ⟨.create sender auto, 0⟩ ops
      ∧ Machine.EveryStep (step config) (CountsDownloadsOnly config) ⟨.create sender auto, 0⟩ ops)
    ↔ Machine.EveryStep (step config) ConfirmsNothing ⟨.create sender auto, 0⟩ ops
  := by
  have hexact : Machine.EveryState (step config) Exact ⟨.create sender auto, 0⟩ ops
      ↔ Machine.EveryStep (step config) ConfirmsNothing ⟨.create sender auto, 0⟩ ops := by
    apply Machine.everyState_iff_everyStep_of_step (fun a op h => h.step_iff)
    rfl
  rw [hexact]
  apply and_iff_left_of_imp
  exact fun h => h.mono fun a op => countsDownloadsOnly_of_confirmsNothing

/-- Alice downloads a chunk of one byte and confirms it. -/
def downloadConfirmed : List Op :=
  [.addReceiver Sample.alice, .addChunk [0], .getChunk 1 Sample.alice,
    .setChunkAsReceived 1 Sample.alice]

theorem not_bytesOut_eq_served :
  ¬∀ (config : Config) (sender : ClientRef) (auto : Bool) (ops : List Op),
    Machine.EveryState (step config) Exact ⟨.create sender auto, 0⟩ ops
      ∧ Machine.EveryStep (step config) (CountsDownloadsOnly config) ⟨.create sender auto, 0⟩ ops
  := by
  intro h
  have hlast := (h Sample.config Sample.sender false downloadConfirmed).1.last
  exact absurd hlast (by decide +kernel)

end Accounting

import PutInPipe.Buffer.Log
import Mathlib.Algebra.Order.BigOperators.Group.List
import Mathlib.Algebra.Order.Ring.Nat

/-!
# The limits of a buffer

A buffer admits a chunk, or a consumer, exactly when its limits allow it, and a call that is
refused leaves it as it is. A consumer is refused besides once some chunk has been removed,
which the buffer remembers in `someChunkWasRemoved`. Hence no run goes beyond the limits, and
the stored bytes are bounded by the size of a full queue.
-/

namespace TransferSessionDetails

namespace Buffer

variable {config : Config} {b b' : Buffer}

/-- The bytes of the stored chunks. -/
def storedBytes (b : Buffer) : ℕ := (b.chunksInfo.map ChunkInfo.size).sum

/-- The operation removes a chunk. -/
def Removes (config : Config) (b : Buffer) (op : Op) : Prop :=
  ∃ i ∈ b.chunksIndex, i ∉ (b.step config op).chunksIndex

/-- The run removes no chunk. -/
def KeepsAll (config : Config) (ops : List Op) : Prop :=
  Machine.EveryStep (step config) (fun b op => ¬b.Removes config op) {} ops

/-- What a buffer admits, where `kept` tells that no chunk was ever removed. -/
structure AdmitsExactly (config : Config) (kept : Prop) (b : Buffer) : Prop where
  addChunk : ∀ binaryData, (b.addChunk config binaryData).2 ≠ 0
    ↔ b.eof = false ∧ binaryData.length ≤ config.transferSessionMaxChunkSize
      ∧ b.chunkCount < config.transferSessionChunkQueueMaxSize
  addChunk_refused : ∀ binaryData, (b.addChunk config binaryData).2 = 0 →
    (b.addChunk config binaryData).1 = b
  addNewToExpectedConsumers : ∀ publicId,
    (b.addNewToExpectedConsumers config publicId).2 = true
      ↔ kept ∧ publicId ∉ b.expectedConsumers
        ∧ b.expectedConsumerCount < config.transferSessionMaxConsumerCount
  addNewToExpectedConsumers_refused : ∀ publicId,
    (b.addNewToExpectedConsumers config publicId).2 = false →
      (b.addNewToExpectedConsumers config publicId).1 = b

structure WithinLimits (config : Config) (b : Buffer) : Prop where
  chunkCount : b.chunkCount ≤ config.transferSessionChunkQueueMaxSize
  storedBytes :
    b.storedBytes ≤ config.transferSessionChunkQueueMaxSize * config.transferSessionMaxChunkSize
  expectedConsumerCount : b.expectedConsumerCount ≤ config.transferSessionMaxConsumerCount

/-! ### What is admitted -/

theorem WellFormed.addChunk_snd (h : b.WellFormed config) (binaryData : Bytes) :
  (b.addChunk config binaryData).2 ≠ 0
    ↔ b.eof = false ∧ binaryData.length ≤ config.transferSessionMaxChunkSize
      ∧ b.chunkCount < config.transferSessionChunkQueueMaxSize
  := by
  constructor
  · intro hne
    obtain ⟨heof, hsize, hroom⟩ | hno := addChunk_cases config b binaryData
    · exact ⟨heof, hsize, newChunkIsAllowed_eq_true.mp hroom⟩
    · rw [hno] at hne
      cases hne rfl
  · rintro ⟨heof, hsize, hroom⟩
    rw [h.addChunk_of_accepted heof hsize (newChunkIsAllowed_eq_true.mpr hroom)]
    apply Nat.succ_ne_zero

theorem WellFormed.addChunk_of_refused (h : b.WellFormed config) {binaryData : Bytes}
    (hno : (b.addChunk config binaryData).2 = 0) :
  (b.addChunk config binaryData).1 = b
  := by
  obtain ⟨heof, hsize, hroom⟩ | heq := addChunk_cases config b binaryData
  · rw [h.addChunk_of_accepted heof hsize hroom] at hno
    cases hno
  · rw [heq]

/-! ### What is removed -/

/-- Where the chunks `ids` have been taken off, the flag tells whether there were any. -/
theorem TakesOff.flag {ids : List ℕ} (h : b.TakesOff b' ids)
    (hflag : b'.someChunkWasRemoved = (b.someChunkWasRemoved || !ids.isEmpty)) :
  b'.someChunkWasRemoved = false
    ↔ b.someChunkWasRemoved = false ∧ ¬∃ i ∈ b.chunksIndex, i ∉ b'.chunksIndex
  := by
  rw [hflag, Bool.or_eq_false_iff, Bool.not_eq_false', List.isEmpty_iff]
  apply and_congr_right'
  constructor
  · rintro rfl ⟨i, hi, hgone⟩
    apply hgone ((h.left i).mpr ⟨hi, List.not_mem_nil⟩)
  · intro hkept
    rw [List.eq_nil_iff_forall_not_mem]
    intro i hi
    apply hkept ⟨i, h.taken i hi, fun hstays => ((h.left i).mp hstays).2 hi⟩

theorem someChunkWasRemoved_setChunkAsReceived (b : Buffer) (i : ℕ) :
  (b.setChunkAsReceived i).1.someChunkWasRemoved
    = (b.someChunkWasRemoved || !(b.setChunkAsReceived i).2.1.isEmpty)
  := by
  cases hi : b.chunks.find? i with
  | none =>
      rw [setChunkAsReceived_of_none hi]
      simp
  | some chunk =>
      rw [setChunkAsReceived_of_some hi]
      apply someChunkWasRemoved_sanitize

theorem someChunkWasRemoved_setInitialChunksFreezingDropped (b : Buffer) :
  b.setInitialChunksFreezingDropped.1.someChunkWasRemoved
    = (b.someChunkWasRemoved || !b.setInitialChunksFreezingDropped.2.1.isEmpty)
  := by
  cases hf : b.initialChunksFreezing with
  | false =>
      rw [setInitialChunksFreezingDropped_of_not_freezing hf]
      simp
  | true =>
      rw [setInitialChunksFreezingDropped_of_freezing hf]
      apply someChunkWasRemoved_sanitize

theorem someChunkWasRemoved_removeOneFromExpectedConsumers (b : Buffer) (publicId : String) :
  (b.removeOneFromExpectedConsumers publicId).1.someChunkWasRemoved
    = (b.someChunkWasRemoved || !(b.removeOneFromExpectedConsumers publicId).2.isEmpty)
  := by
  by_cases hp : publicId ∈ b.expectedConsumers
  · rw [removeOneFromExpectedConsumers_of_mem hp]
    apply someChunkWasRemoved_sanitize
  · rw [removeOneFromExpectedConsumers_of_notMem hp]
    simp

/-- An operation that leaves the chunks and the flag alone removes nothing. -/
theorem someChunkWasRemoved_of_same (hchunks : b'.chunks = b.chunks)
    (hflag : b'.someChunkWasRemoved = b.someChunkWasRemoved) :
  b'.someChunkWasRemoved = false
    ↔ b.someChunkWasRemoved = false ∧ ¬∃ i ∈ b.chunksIndex, i ∉ b'.chunksIndex
  := by
  apply (TakesOff.of_chunks_eq hchunks).flag
  rw [hflag]
  simp

/-- The flag tells that the operation, or an earlier one, has removed a chunk. -/
theorem WellFormed.someChunkWasRemoved_step (h : b.WellFormed config) (op : Op) :
  (b.step config op).someChunkWasRemoved = false
    ↔ b.someChunkWasRemoved = false ∧ ¬b.Removes config op
  := by
  cases op with
  | addChunk binaryData =>
      obtain ⟨heof, hsize, hroom⟩ | hno := addChunk_cases config b binaryData
      · have hacc := h.addChunk_of_accepted heof hsize hroom
        rw [Removes, Buffer.step, hacc, and_iff_left]
        rintro ⟨i, hi, hgone⟩
        obtain ⟨chunk, hchunk⟩ := OrderedMap.mem_keys.mp hi
        apply hgone
        apply OrderedMap.mem_keys.mpr
        rw [OrderedMap.find?_tryEmplace _ h.find?_next]
        split
        · exact ⟨_, rfl⟩
        · exact ⟨chunk, hchunk⟩
      · rw [Removes, Buffer.step, hno]
        apply someChunkWasRemoved_of_same rfl rfl
  | get index =>
      obtain ⟨n, hn⟩ := b.get_fst index
      rw [Removes, Buffer.step, hn]
      apply someChunkWasRemoved_of_same rfl rfl
  | setChunkAsReceived index =>
      apply (TakesOff.setChunkAsReceived b index).flag
      apply someChunkWasRemoved_setChunkAsReceived
  | setEndOfFile =>
      rw [Removes, Buffer.step, Buffer.setEndOfFile]
      split <;> apply someChunkWasRemoved_of_same rfl rfl
  | setInitialChunksFreezingDropped =>
      apply (TakesOff.setInitialChunksFreezingDropped b).flag
      apply someChunkWasRemoved_setInitialChunksFreezingDropped
  | addNewToExpectedConsumers publicId =>
      rw [Removes, Buffer.step]
      cases ha : (b.addNewToExpectedConsumers config publicId).2 with
      | false =>
          rw [addNewToExpectedConsumers_of_false ha]
          apply someChunkWasRemoved_of_same rfl rfl
      | true =>
          rw [addNewToExpectedConsumers_of_true ha]
          apply someChunkWasRemoved_of_same rfl rfl
  | removeOneFromExpectedConsumers publicId =>
      apply (TakesOff.removeOneFromExpectedConsumers b publicId).flag
      apply someChunkWasRemoved_removeOneFromExpectedConsumers

theorem WellFormed.someChunkWasRemoved_run (h : b.WellFormed config) (ops : List Op) :
  (Machine.run (Buffer.step config) b ops).someChunkWasRemoved = false
    ↔ b.someChunkWasRemoved = false
      ∧ Machine.EveryStep (Buffer.step config) (fun b op => ¬b.Removes config op) b ops
  := by
  induction ops generalizing b with
  | nil => exact (and_iff_left trivial).symm
  | cons op ops ih =>
      rw [Machine.run_cons, ih (h.step op), h.someChunkWasRemoved_step, and_assoc]
      rfl

/-! ### What is stored -/

/-- No payload in the log is larger than a chunk may be. -/
theorem Logged.length_le_of_mem_log (config : Config) (ops : List Op) :
  ∀ payload ∈ (Machine.run (Logged.step config) {} ops).log,
    payload.length ≤ config.transferSessionMaxChunkSize
  := by
  have hstep : ∀ (l : Logged) (op : Op),
      (∀ payload ∈ l.log, payload.length ≤ config.transferSessionMaxChunkSize) →
      ∀ payload ∈ (l.step config op).log,
        payload.length ≤ config.transferSessionMaxChunkSize := by
    intro l op hl payload hmem
    obtain hmem | hmem := List.mem_append.mp hmem
    · apply hl payload hmem
    · rw [Option.mem_toList] at hmem
      cases op with
      | addChunk binaryData =>
          rw [accepted] at hmem
          obtain ⟨hne, rfl⟩ := by simpa using hmem
          obtain ⟨-, hsize, -⟩ | hno := addChunk_cases config l.buffer binaryData
          · apply hsize
          · rw [hno] at hne
            cases hne rfl
      | _ => cases hmem
  apply (Machine.everyState_of_invariant hstep _ ops).last
  apply List.forall_mem_nil

theorem ShowsLog.storedBytes_le {log : List Bytes} {n : ℕ} (h : b.ShowsLog config log)
    (hlog : ∀ payload ∈ log, payload.length ≤ n) :
  b.storedBytes ≤ b.chunkCount * n
  := by
  have hsizes : ∀ size ∈ b.chunksInfo.map ChunkInfo.size, size ≤ n := by
    intro size hmem
    obtain ⟨⟨i, _⟩, hinfo, rfl⟩ := List.mem_map.mp hmem
    obtain ⟨data, hdata, rfl⟩ := (h.chunksInfo i _).mp hinfo
    apply hlog
    apply List.mem_of_getElem? (h.get i data hdata).2
  have hlength : (b.chunksInfo.map ChunkInfo.size).length = b.chunkCount := by
    rw [List.length_map, Buffer.chunksInfo, List.length_map]
    rfl
  rw [storedBytes, ← hlength]
  apply List.sum_le_card_nsmul _ _ hsizes

/-- In every run a buffer admits exactly what its limits allow, a call that is refused changes
nothing, and the buffer stays within its limits. -/
theorem admitsExactly_and_withinLimits (config : Config) (ops : List Op) :
  (Machine.run (step config) {} ops).AdmitsExactly config (KeepsAll config ops)
    ∧ (Machine.run (step config) {} ops).WithinLimits config
  := by
  have hw : (Machine.run (step config) {} ops).WellFormed config :=
    (WellFormed.empty config).run ops
  have hkept : (Machine.run (step config) {} ops).someChunkWasRemoved = false
      ↔ KeepsAll config ops := by
    rw [(WellFormed.empty config).someChunkWasRemoved_run ops]
    apply and_iff_right rfl
  have hshows := Logged.showsLog_run config ops
  rw [Logged.buffer_run] at hshows
  refine ⟨⟨hw.addChunk_snd, fun _ => hw.addChunk_of_refused, ?_, ?_⟩, ⟨hw.queue, ?_, hw.consumers⟩⟩
  · intro publicId
    rw [addNewToExpectedConsumers_snd, hkept, and_comm (b := publicId ∉ _)]
    rfl
  · intro publicId
    apply addNewToExpectedConsumers_of_false
  · apply (hshows.storedBytes_le (Logged.length_le_of_mem_log config ops)).trans
    apply Nat.mul_le_mul_right _ hw.queue

end Buffer

end TransferSessionDetails

import PutInPipe.Buffer.Lemmas
import PutInPipe.Library.Run

/-!
# Runs of a buffer

The operations that change a buffer, as the labels of a machine. A buffer is well-formed
when its chunks are numbered from one up to the greatest index it has given out, the queue
and the set of consumers are within their limits, and no chunk was removed while the
freeze is on. Every operation keeps a buffer well-formed.
-/

namespace TransferSessionDetails

namespace Buffer

/-- The operations that change a buffer. -/
inductive Op where
  | addChunk (binaryData : Bytes)
  | get (index : ℕ)
  | setChunkAsReceived (index : ℕ)
  | setEndOfFile
  | setInitialChunksFreezingDropped
  | addNewToExpectedConsumers (publicId : String)
  | removeOneFromExpectedConsumers (publicId : String)
deriving DecidableEq, Repr

def step (config : Config) (b : Buffer) : Op → Buffer
  | .addChunk binaryData => (b.addChunk config binaryData).1
  | .get index => (b.get index).1
  | .setChunkAsReceived index => (b.setChunkAsReceived index).1
  | .setEndOfFile => b.setEndOfFile
  | .setInitialChunksFreezingDropped => b.setInitialChunksFreezingDropped.1
  | .addNewToExpectedConsumers publicId => (b.addNewToExpectedConsumers config publicId).1
  | .removeOneFromExpectedConsumers publicId => (b.removeOneFromExpectedConsumers publicId).1

/-- What holds of a buffer throughout every run. -/
structure WellFormed (config : Config) (b : Buffer) : Prop where
  numbered : ∀ {i chunk}, b.chunks.find? i = some chunk → 1 ≤ i ∧ i ≤ b.chunksMaxIndex
  queue : b.chunkCount ≤ config.transferSessionChunkQueueMaxSize
  consumers : b.expectedConsumers.card ≤ config.transferSessionMaxConsumerCount
  freezing : b.someChunkWasRemoved = true → b.initialChunksFreezing = false

namespace WellFormed

variable {config : Config} {b : Buffer}

theorem empty (config : Config) :
  WellFormed config {}
  := by
  constructor
  · intro i chunk h
    cases h
  · apply Nat.zero_le
  · apply Nat.zero_le
  · intro h
    cases h

/-- The index the next chunk gets is free. -/
theorem find?_next (h : b.WellFormed config) :
  b.chunks.find? (b.chunksMaxIndex + 1) = none
  := by
  apply Option.eq_none_iff_forall_ne_some.mpr
  intro chunk hchunk
  have := (h.numbered hchunk).2
  omega

theorem sanitize (h : b.WellFormed config) :
  b.sanitize.1.WellFormed config
  := by
  constructor
  · intro i chunk hi
    rw [chunksMaxIndex_sanitize]
    apply h.numbered (find?_sanitize.mp hi).1
  · apply b.chunkCount_sanitize_le.trans h.queue
  · rw [expectedConsumers_sanitize]
    apply h.consumers
  · intro hr
    rw [initialChunksFreezing_sanitize]
    by_contra hf
    rw [sanitize_of_freezing (Bool.eq_true_of_not_eq_false hf)] at hr
    apply hf (h.freezing hr)

/-- A chunk is stored when there is room in the queue. -/
theorem insertChunk_of_room (h : b.WellFormed config) (binaryData : Bytes)
    (hroom : b.newChunkIsAllowed config = true) :
  b.insertChunk config binaryData
    = ({ b with
          chunks := (b.chunks.tryEmplace (b.chunksMaxIndex + 1) { data := binaryData }).1
          chunksMaxIndex := b.chunksMaxIndex + 1
          bytesInTotal := b.bytesInTotal + binaryData.length }, b.chunksMaxIndex + 1)
  := by
  have hroom' := newChunkIsAllowed_eq_true.mp hroom
  rw [chunkCount] at hroom'
  rw [Buffer.insertChunk, if_neg (by omega)]
  simp only [OrderedMap.tryEmplace_snd _ h.find?_next, if_true]

/-- A chunk is accepted before the end of file, when it is not too large and there is
room in the queue. -/
theorem addChunk_of_accepted (h : b.WellFormed config) {binaryData : Bytes}
    (heof : b.EOF = false) (hsize : binaryData.length ≤ config.transferSessionMaxChunkSize)
    (hroom : b.newChunkIsAllowed config = true) :
  b.addChunk config binaryData
    = ({ b with
          chunks := (b.chunks.tryEmplace (b.chunksMaxIndex + 1) { data := binaryData }).1
          chunksMaxIndex := b.chunksMaxIndex + 1
          bytesInTotal := b.bytesInTotal + binaryData.length }, b.chunksMaxIndex + 1)
  := by
  rw [Buffer.addChunk, if_neg (by simp [heof]), if_neg (by omega)]
  apply h.insertChunk_of_room binaryData hroom

theorem insertChunk (h : b.WellFormed config) (binaryData : Bytes) :
  (b.insertChunk config binaryData).1.WellFormed config
  := by
  obtain hroom | hno := insertChunk_cases config b binaryData
  · rw [h.insertChunk_of_room binaryData hroom]
    constructor
    · intro i chunk hi
      simp only [OrderedMap.find?_tryEmplace _ h.find?_next] at hi
      split at hi
      · simp only
        omega
      · have := h.numbered hi
        simp only
        omega
    · simp only [chunkCount, OrderedMap.size_tryEmplace _ h.find?_next]
      apply newChunkIsAllowed_eq_true.mp hroom
    · apply h.consumers
    · apply h.freezing
  · rw [hno]
    apply h

theorem addChunk (h : b.WellFormed config) (binaryData : Bytes) :
  (b.addChunk config binaryData).1.WellFormed config
  := by
  rw [Buffer.addChunk]
  split
  · apply h
  split
  · apply h
  · apply h.insertChunk

theorem get (h : b.WellFormed config) (i : ℕ) :
  (b.get i).1.WellFormed config
  := by
  obtain ⟨n, hn⟩ := b.get_fst i
  rw [hn]
  exact ⟨h.numbered, h.queue, h.consumers, h.freezing⟩

theorem setChunkAsReceived (h : b.WellFormed config) (i : ℕ) :
  (b.setChunkAsReceived i).1.WellFormed config
  := by
  cases hi : b.chunks.find? i with
  | none =>
      rw [setChunkAsReceived_of_none hi]
      apply h
  | some chunk =>
      rw [setChunkAsReceived_of_some hi]
      apply sanitize
      refine ⟨?_, ?_, h.consumers, h.freezing⟩
      · intro j chunk' hj
        rw [OrderedMap.find?_modify] at hj
        split at hj
        · obtain ⟨chunk'', hj', -⟩ := Option.map_eq_some_iff.mp hj
          apply h.numbered hj'
        · apply h.numbered hj
      · simp only [chunkCount, OrderedMap.size_modify]
        apply h.queue

theorem setEndOfFile (h : b.WellFormed config) :
  b.setEndOfFile.WellFormed config
  := by
  rw [Buffer.setEndOfFile]
  split
  · apply h
  · exact ⟨h.numbered, h.queue, h.consumers, h.freezing⟩

theorem setInitialChunksFreezingDropped (h : b.WellFormed config) :
  b.setInitialChunksFreezingDropped.1.WellFormed config
  := by
  cases hf : b.initialChunksFreezing with
  | false =>
      rw [setInitialChunksFreezingDropped_of_not_freezing hf]
      apply h
  | true =>
      rw [setInitialChunksFreezingDropped_of_freezing hf]
      apply sanitize
      exact ⟨h.numbered, h.queue, h.consumers, fun _ => rfl⟩

theorem addNewToExpectedConsumers (h : b.WellFormed config) (publicId : String) :
  (b.addNewToExpectedConsumers config publicId).1.WellFormed config
  := by
  cases ha : (b.addNewToExpectedConsumers config publicId).2 with
  | false =>
      rw [addNewToExpectedConsumers_of_false ha]
      apply h
  | true =>
      rw [addNewToExpectedConsumers_of_true ha]
      refine ⟨h.numbered, h.queue, ?_, h.freezing⟩
      obtain ⟨-, hroom, hnew⟩ := addNewToExpectedConsumers_snd.mp ha
      rw [Finset.card_insert_of_notMem hnew]
      apply hroom

theorem removeOneFromExpectedConsumers (h : b.WellFormed config) (publicId : String) :
  (b.removeOneFromExpectedConsumers publicId).1.WellFormed config
  := by
  by_cases hp : publicId ∈ b.expectedConsumers
  · rw [removeOneFromExpectedConsumers_of_mem hp]
    apply sanitize
    refine ⟨h.numbered, h.queue, ?_, h.freezing⟩
    apply (Finset.card_erase_le).trans h.consumers
  · rw [removeOneFromExpectedConsumers_of_notMem hp]
    apply h

/-- Every operation keeps a buffer well-formed. -/
theorem step (h : b.WellFormed config) (op : Op) :
  (b.step config op).WellFormed config
  := by
  cases op with
  | addChunk binaryData => apply h.addChunk
  | get index => apply h.get
  | setChunkAsReceived index => apply h.setChunkAsReceived
  | setEndOfFile => apply h.setEndOfFile
  | setInitialChunksFreezingDropped => apply h.setInitialChunksFreezingDropped
  | addNewToExpectedConsumers publicId => apply h.addNewToExpectedConsumers
  | removeOneFromExpectedConsumers publicId => apply h.removeOneFromExpectedConsumers

/-- Removing a consumer makes room in a full queue exactly when it is expected and some
chunk waits for nobody else. -/
theorem newChunkIsAllowed_removeOne (h : b.WellFormed config) (publicId : String) :
  (b.removeOneFromExpectedConsumers publicId).1.newChunkIsAllowed config
      ≠ b.newChunkIsAllowed config
    ↔ b.newChunkIsAllowed config = false ∧ b.initialChunksFreezing = false
      ∧ publicId ∈ b.expectedConsumers
      ∧ ∃ i chunk, b.chunks.find? i = some chunk
        ∧ (b.expectedConsumers.erase publicId).card ≤ chunk.uses
  := by
  by_cases hp : publicId ∈ b.expectedConsumers
  · rw [removeOneFromExpectedConsumers_of_mem hp]
    have hle := chunkCount_sanitize_le
      { b with expectedConsumers := b.expectedConsumers.erase publicId }
    have hlt := chunkCount_sanitize_lt
      (b := { b with expectedConsumers := b.expectedConsumers.erase publicId })
    rw [ne_eq, sanitize_snd_eq_nil] at hlt
    cases ha : b.newChunkIsAllowed config with
    | true =>
        have hroom := newChunkIsAllowed_eq_true.mp ha
        have hroom' := newChunkIsAllowed_eq_true.mpr (hle.trans_lt hroom)
        simp [hroom']
    | false =>
        have hfull : b.chunkCount = config.transferSessionChunkQueueMaxSize := by
          apply le_antisymm h.queue
          by_contra hno
          rw [newChunkIsAllowed_eq_true.mpr (not_le.mp hno)] at ha
          cases ha
        rw [Bool.ne_false_iff, newChunkIsAllowed_eq_true, ← hfull]
        apply hlt.trans
        simp [hp]
  · rw [removeOneFromExpectedConsumers_of_notMem hp]
    simp [hp]

theorem run (h : b.WellFormed config) (ops : List Op) :
  (Machine.run (Buffer.step config) b ops).WellFormed config
  := by
  apply (Machine.everyState_of_invariant _ h ops).last
  intro b op hb
  apply hb.step

end WellFormed

end Buffer

end TransferSessionDetails

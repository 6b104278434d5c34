import PutInPipe.Buffer.Basic

/-!
# What the operations of a buffer do

Each operation is described by the chunks it finds afterwards and by the fields it
leaves alone. `sanitize` keeps a chunk exactly when the freeze is on or the chunk has
fewer confirmations than there are consumers.
-/

namespace TransferSessionDetails

namespace Buffer

variable {config : Config} {b : Buffer}

/-! ### Sanitizing -/

@[simp]
theorem expectedConsumers_sanitize (b : Buffer) :
  b.sanitize.1.expectedConsumers = b.expectedConsumers
  := by
  rw [sanitize]
  split <;> rfl

@[simp]
theorem chunksMaxIndex_sanitize (b : Buffer) :
  b.sanitize.1.chunksMaxIndex = b.chunksMaxIndex
  := by
  rw [sanitize]
  split <;> rfl

@[simp]
theorem bytesInTotal_sanitize (b : Buffer) :
  b.sanitize.1.bytesInTotal = b.bytesInTotal
  := by
  rw [sanitize]
  split <;> rfl

@[simp]
theorem EOF_sanitize (b : Buffer) :
  b.sanitize.1.EOF = b.EOF
  := by
  rw [sanitize]
  split <;> rfl

@[simp]
theorem initialChunksFreezing_sanitize (b : Buffer) :
  b.sanitize.1.initialChunksFreezing = b.initialChunksFreezing
  := by
  rw [sanitize]
  split <;> rfl

theorem sanitize_of_freezing (h : b.initialChunksFreezing = true) :
  b.sanitize = (b, [])
  := by
  rw [sanitize, if_pos h]

/-- `sanitize` keeps a chunk when the freeze is on or the chunk waits for somebody. -/
theorem find?_sanitize {i : ℕ} {chunk : Chunk} :
  b.sanitize.1.chunks.find? i = some chunk
    ↔ b.chunks.find? i = some chunk
      ∧ (b.initialChunksFreezing = false → chunk.uses < b.expectedConsumers.card)
  := by
  rw [sanitize]
  split
  · rename_i hf
    simp [hf]
  · rename_i hf
    rw [OrderedMap.find?_eraseIf]
    simp only [beq_eq_false_iff_ne, ne_eq, Chunk.howMuchIsLeft_eq_zero, AtomicSet.size,
      Bool.eq_false_of_not_eq_true hf, forall_const, not_le]

/-- `sanitize` reports nothing exactly when it keeps every chunk. -/
theorem sanitize_snd_eq_nil :
  b.sanitize.2 = []
    ↔ b.initialChunksFreezing = true
      ∨ ∀ i chunk, b.chunks.find? i = some chunk → chunk.uses < b.expectedConsumers.card
  := by
  rw [sanitize]
  split
  · rename_i hf
    simp [hf]
  · rename_i hf
    rw [OrderedMap.eraseIf_eq_nil]
    simp [Chunk.howMuchIsLeft_eq_zero, AtomicSet.size, hf]

theorem someChunkWasRemoved_sanitize :
  b.sanitize.1.someChunkWasRemoved = (b.someChunkWasRemoved || !b.sanitize.2.isEmpty)
  := by
  rw [sanitize]
  split
  · simp
  · rfl

theorem chunkCount_sanitize_le (b : Buffer) :
  b.sanitize.1.chunkCount ≤ b.chunkCount
  := by
  rw [sanitize]
  split
  · rfl
  · apply List.length_filter_le

/-- `sanitize` makes the buffer smaller exactly when it reports a chunk. -/
theorem chunkCount_sanitize_lt :
  b.sanitize.1.chunkCount < b.chunkCount ↔ b.sanitize.2 ≠ []
  := by
  rw [sanitize]
  split
  · simp
  · have h := b.chunks.size_eraseIf
      (fun chunk => chunk.howMuchIsLeft b.expectedConsumers.size == 0)
    simp only [chunkCount, ne_eq, ← List.length_eq_zero_iff]
    omega

theorem chunkCount_eq_zero :
  b.chunkCount = 0 ↔ ∀ i, b.chunks.find? i = none
  := OrderedMap.size_eq_zero

theorem newChunkIsAllowed_eq_true :
  b.newChunkIsAllowed config = true
    ↔ b.chunkCount < config.transferSessionChunkQueueMaxSize
  := decide_eq_true_iff

/-! ### Appending -/

/-- A chunk is not stored when the queue is full. -/
theorem insertChunk_cases (config : Config) (b : Buffer) (binaryData : Bytes) :
  b.newChunkIsAllowed config = true ∨ b.insertChunk config binaryData = (b, 0)
  := by
  by_cases hroom : config.transferSessionChunkQueueMaxSize ≤ b.chunks.size
  · right
    rw [insertChunk, if_pos hroom]
  · left
    apply newChunkIsAllowed_eq_true.mpr (not_le.mp hroom)

/-- A chunk is refused after the end of file, when it is too large, and when the queue is
full. -/
theorem addChunk_cases (config : Config) (b : Buffer) (binaryData : Bytes) :
  (b.EOF = false ∧ binaryData.length ≤ config.transferSessionMaxChunkSize
      ∧ b.newChunkIsAllowed config = true)
    ∨ b.addChunk config binaryData = (b, 0)
  := by
  rw [addChunk]
  by_cases heof : b.EOF = true
  · right
    rw [if_pos heof]
  by_cases hsize : binaryData.length > config.transferSessionMaxChunkSize
  · right
    rw [if_neg heof, if_pos hsize]
  rw [if_neg heof, if_neg hsize]
  obtain hroom | hno := insertChunk_cases config b binaryData
  · left
    exact ⟨Bool.eq_false_of_not_eq_true heof, not_lt.mp hsize, hroom⟩
  · exact .inr hno

theorem expectedConsumers_insertChunk (config : Config) (b : Buffer) (binaryData : Bytes) :
  (b.insertChunk config binaryData).1.expectedConsumers = b.expectedConsumers
  := by
  simp only [insertChunk]
  split_ifs <;> rfl

@[simp]
theorem initialChunksFreezing_insertChunk (config : Config) (b : Buffer) (binaryData : Bytes) :
  (b.insertChunk config binaryData).1.initialChunksFreezing = b.initialChunksFreezing
  := by
  simp only [insertChunk]
  split_ifs <;> rfl

@[simp]
theorem EOF_insertChunk (config : Config) (b : Buffer) (binaryData : Bytes) :
  (b.insertChunk config binaryData).1.EOF = b.EOF
  := by
  simp only [insertChunk]
  split_ifs <;> rfl

theorem chunkCount_le_insertChunk (config : Config) (b : Buffer) (binaryData : Bytes) :
  b.chunkCount ≤ (b.insertChunk config binaryData).1.chunkCount
  := by
  rw [insertChunk]
  split
  · apply le_refl
  · cases hf : b.chunks.find? (b.chunksMaxIndex + 1) with
    | none =>
        simp only [OrderedMap.tryEmplace_snd _ hf, if_true, chunkCount,
          OrderedMap.size_tryEmplace _ hf]
        omega
    | some chunk =>
        simp only [OrderedMap.tryEmplace_of_some hf, Bool.false_eq_true, if_false]
        apply le_refl

@[simp]
theorem expectedConsumers_addChunk (config : Config) (b : Buffer) (binaryData : Bytes) :
  (b.addChunk config binaryData).1.expectedConsumers = b.expectedConsumers
  := by
  rw [addChunk]
  split_ifs
  · rfl
  · rfl
  · apply expectedConsumers_insertChunk

@[simp]
theorem initialChunksFreezing_addChunk (config : Config) (b : Buffer) (binaryData : Bytes) :
  (b.addChunk config binaryData).1.initialChunksFreezing = b.initialChunksFreezing
  := by
  rw [addChunk]
  split_ifs
  · rfl
  · rfl
  · apply initialChunksFreezing_insertChunk

/-! ### Confirming -/

theorem setChunkAsReceived_of_none {i : ℕ} (h : b.chunks.find? i = none) :
  b.setChunkAsReceived i = (b, [], false)
  := by
  rw [setChunkAsReceived, h]

/-- A confirmation of a stored chunk counts it and sanitizes. -/
theorem setChunkAsReceived_of_some {i : ℕ} {chunk : Chunk}
    (h : b.chunks.find? i = some chunk) :
  b.setChunkAsReceived i
    = ((sanitize { b with
          chunks := b.chunks.modify i (·.incrementUses b.expectedConsumers.card) }).1,
        (sanitize { b with
          chunks := b.chunks.modify i (·.incrementUses b.expectedConsumers.card) }).2, true)
  := by
  rw [setChunkAsReceived, h]
  rfl

@[simp]
theorem chunksMaxIndex_setChunkAsReceived (b : Buffer) (i : ℕ) :
  (b.setChunkAsReceived i).1.chunksMaxIndex = b.chunksMaxIndex
  := by
  cases h : b.chunks.find? i with
  | none => rw [setChunkAsReceived_of_none h]
  | some chunk => rw [setChunkAsReceived_of_some h, chunksMaxIndex_sanitize]

@[simp]
theorem EOF_setChunkAsReceived (b : Buffer) (i : ℕ) :
  (b.setChunkAsReceived i).1.EOF = b.EOF
  := by
  cases h : b.chunks.find? i with
  | none => rw [setChunkAsReceived_of_none h]
  | some chunk => rw [setChunkAsReceived_of_some h, EOF_sanitize]

@[simp]
theorem expectedConsumers_setChunkAsReceived (b : Buffer) (i : ℕ) :
  (b.setChunkAsReceived i).1.expectedConsumers = b.expectedConsumers
  := by
  cases h : b.chunks.find? i with
  | none => rw [setChunkAsReceived_of_none h]
  | some chunk => rw [setChunkAsReceived_of_some h, expectedConsumers_sanitize]

@[simp]
theorem initialChunksFreezing_setChunkAsReceived (b : Buffer) (i : ℕ) :
  (b.setChunkAsReceived i).1.initialChunksFreezing = b.initialChunksFreezing
  := by
  cases h : b.chunks.find? i with
  | none => rw [setChunkAsReceived_of_none h]
  | some chunk => rw [setChunkAsReceived_of_some h, initialChunksFreezing_sanitize]

@[simp]
theorem bytesInTotal_setChunkAsReceived (b : Buffer) (i : ℕ) :
  (b.setChunkAsReceived i).1.bytesInTotal = b.bytesInTotal
  := by
  cases h : b.chunks.find? i with
  | none => rw [setChunkAsReceived_of_none h]
  | some chunk => rw [setChunkAsReceived_of_some h, bytesInTotal_sanitize]

/-- What a confirmation of a stored chunk leaves in the buffer. -/
theorem find?_setChunkAsReceived {i : ℕ} {chunk : Chunk} (h : b.chunks.find? i = some chunk)
    {j : ℕ} {chunk' : Chunk} :
  (b.setChunkAsReceived i).1.chunks.find? j = some chunk'
    ↔ (∃ c, b.chunks.find? j = some c
        ∧ chunk' = if j = i then c.incrementUses b.expectedConsumers.card else c)
      ∧ (b.initialChunksFreezing = false → chunk'.uses < b.expectedConsumers.card)
  := by
  rw [setChunkAsReceived_of_some h, find?_sanitize]
  simp only [OrderedMap.find?_modify]
  by_cases hj : j = i
  · simp only [if_pos hj, Option.map_eq_some_iff, eq_comm (a := chunk')]
  · simp only [if_neg hj, exists_eq_right']

/-- A frozen buffer keeps the chunks that are confirmed. -/
theorem chunkCount_setChunkAsReceived_of_freezing (h : b.initialChunksFreezing = true)
    (i : ℕ) :
  (b.setChunkAsReceived i).1.chunkCount = b.chunkCount
  := by
  cases hi : b.chunks.find? i with
  | none => rw [setChunkAsReceived_of_none hi]
  | some chunk =>
      rw [setChunkAsReceived_of_some hi, sanitize_of_freezing]
      · apply OrderedMap.size_modify
      · apply h

/-- A chunk is left after a confirmation if it waits for somebody else. -/
theorem chunkCount_setChunkAsReceived_ne_zero (hf : b.initialChunksFreezing = false) {i : ℕ}
    {chunk : Chunk} (h : b.chunks.find? i = some chunk) :
  (b.setChunkAsReceived i).1.chunkCount ≠ 0
    ↔ ∃ j c, b.chunks.find? j = some c
      ∧ c.uses + (if j = i then 1 else 0) < b.expectedConsumers.card
  := by
  rw [ne_eq, chunkCount_eq_zero]
  simp only [not_forall, ← ne_eq, Option.ne_none_iff_exists', find?_setChunkAsReceived h, hf,
    forall_const]
  constructor
  · rintro ⟨j, _, ⟨c, hc, rfl⟩, hlt⟩
    use j, c, hc
    by_cases hj : j = i
    · rw [if_pos hj, Chunk.incrementUses] at hlt
      rw [if_pos hj]
      split at hlt
      · apply hlt
      · omega
    · rw [if_neg hj] at hlt ⊢
      apply hlt
  · rintro ⟨j, c, hc, hlt⟩
    refine ⟨j, _, ⟨c, hc, rfl⟩, ?_⟩
    by_cases hj : j = i
    · rw [if_pos hj] at hlt ⊢
      rw [Chunk.incrementUses, if_pos (by omega)]
      apply hlt
    · rw [if_neg hj] at hlt ⊢
      apply hlt

/-! ### Dropping the freeze -/

theorem setInitialChunksFreezingDropped_of_freezing (h : b.initialChunksFreezing = true) :
  b.setInitialChunksFreezingDropped
    = ((sanitize { b with initialChunksFreezing := false }).1,
        (sanitize { b with initialChunksFreezing := false }).2, true)
  := by
  rw [setInitialChunksFreezingDropped, if_neg (by simp [h])]

theorem setInitialChunksFreezingDropped_of_not_freezing
    (h : b.initialChunksFreezing = false) :
  b.setInitialChunksFreezingDropped = (b, [], false)
  := by
  rw [setInitialChunksFreezingDropped, if_pos (by simp [h])]

@[simp]
theorem expectedConsumers_setInitialChunksFreezingDropped (b : Buffer) :
  b.setInitialChunksFreezingDropped.1.expectedConsumers = b.expectedConsumers
  := by
  cases h : b.initialChunksFreezing with
  | false => rw [setInitialChunksFreezingDropped_of_not_freezing h]
  | true => rw [setInitialChunksFreezingDropped_of_freezing h, expectedConsumers_sanitize]

@[simp]
theorem chunksMaxIndex_setInitialChunksFreezingDropped (b : Buffer) :
  b.setInitialChunksFreezingDropped.1.chunksMaxIndex = b.chunksMaxIndex
  := by
  cases h : b.initialChunksFreezing with
  | false => rw [setInitialChunksFreezingDropped_of_not_freezing h]
  | true => rw [setInitialChunksFreezingDropped_of_freezing h, chunksMaxIndex_sanitize]

@[simp]
theorem EOF_setInitialChunksFreezingDropped (b : Buffer) :
  b.setInitialChunksFreezingDropped.1.EOF = b.EOF
  := by
  cases h : b.initialChunksFreezing with
  | false => rw [setInitialChunksFreezingDropped_of_not_freezing h]
  | true => rw [setInitialChunksFreezingDropped_of_freezing h, EOF_sanitize]

@[simp]
theorem initialChunksFreezing_setInitialChunksFreezingDropped (b : Buffer) :
  b.setInitialChunksFreezingDropped.1.initialChunksFreezing = false
  := by
  cases h : b.initialChunksFreezing with
  | false => rw [setInitialChunksFreezingDropped_of_not_freezing h, h]
  | true => rw [setInitialChunksFreezingDropped_of_freezing h, initialChunksFreezing_sanitize]

theorem find?_setInitialChunksFreezingDropped (h : b.initialChunksFreezing = true) {i : ℕ}
    {chunk : Chunk} :
  b.setInitialChunksFreezingDropped.1.chunks.find? i = some chunk
    ↔ b.chunks.find? i = some chunk ∧ chunk.uses < b.expectedConsumers.card
  := by
  rw [setInitialChunksFreezingDropped_of_freezing h, find?_sanitize]
  simp only [forall_const]

/-- A chunk is left when the freeze is dropped if it waits for somebody. -/
theorem chunkCount_setInitialChunksFreezingDropped_ne_zero
    (h : b.initialChunksFreezing = true) :
  b.setInitialChunksFreezingDropped.1.chunkCount ≠ 0
    ↔ ∃ i chunk, b.chunks.find? i = some chunk ∧ chunk.uses < b.expectedConsumers.card
  := by
  rw [ne_eq, chunkCount_eq_zero]
  simp only [not_forall, ← ne_eq, Option.ne_none_iff_exists',
    find?_setInitialChunksFreezingDropped h]

/-! ### Consumers -/

theorem removeOneFromExpectedConsumers_of_notMem {publicId : String}
    (h : publicId ∉ b.expectedConsumers) :
  b.removeOneFromExpectedConsumers publicId = (b, [])
  := by
  simp [removeOneFromExpectedConsumers, AtomicSet.remove, h]

theorem removeOneFromExpectedConsumers_of_mem {publicId : String}
    (h : publicId ∈ b.expectedConsumers) :
  b.removeOneFromExpectedConsumers publicId
    = sanitize { b with expectedConsumers := b.expectedConsumers.erase publicId }
  := by
  simp [removeOneFromExpectedConsumers, AtomicSet.remove, h]

@[simp]
theorem expectedConsumers_removeOne (publicId : String) :
  (b.removeOneFromExpectedConsumers publicId).1.expectedConsumers
    = b.expectedConsumers.erase publicId
  := by
  by_cases h : publicId ∈ b.expectedConsumers
  · rw [removeOneFromExpectedConsumers_of_mem h, expectedConsumers_sanitize]
  · rw [removeOneFromExpectedConsumers_of_notMem h, Finset.erase_eq_of_notMem h]

@[simp]
theorem chunksMaxIndex_removeOne (publicId : String) :
  (b.removeOneFromExpectedConsumers publicId).1.chunksMaxIndex = b.chunksMaxIndex
  := by
  rw [removeOneFromExpectedConsumers]
  simp only
  split <;> simp

@[simp]
theorem EOF_removeOne (publicId : String) :
  (b.removeOneFromExpectedConsumers publicId).1.EOF = b.EOF
  := by
  rw [removeOneFromExpectedConsumers]
  simp only
  split <;> simp

@[simp]
theorem initialChunksFreezing_removeOne (publicId : String) :
  (b.removeOneFromExpectedConsumers publicId).1.initialChunksFreezing
    = b.initialChunksFreezing
  := by
  rw [removeOneFromExpectedConsumers]
  simp only
  split <;> simp

/-- A frozen buffer keeps its chunks when a consumer is removed. -/
theorem chunks_removeOne_of_freezing (h : b.initialChunksFreezing = true)
    (publicId : String) :
  (b.removeOneFromExpectedConsumers publicId).1.chunks = b.chunks
  := by
  by_cases hp : publicId ∈ b.expectedConsumers
  · rw [removeOneFromExpectedConsumers_of_mem hp, sanitize_of_freezing]
    apply h
  · rw [removeOneFromExpectedConsumers_of_notMem hp]

theorem chunkCount_removeOne_le (publicId : String) :
  (b.removeOneFromExpectedConsumers publicId).1.chunkCount ≤ b.chunkCount
  := by
  by_cases hp : publicId ∈ b.expectedConsumers
  · rw [removeOneFromExpectedConsumers_of_mem hp]
    apply chunkCount_sanitize_le
  · rw [removeOneFromExpectedConsumers_of_notMem hp]

/-- Removing a consumer empties a buffer exactly when the freeze is dropped, the consumer
is expected, and no chunk waits for anybody else. -/
theorem chunkCount_removeOne_eq_zero (publicId : String) (hne : b.chunkCount ≠ 0) :
  (b.removeOneFromExpectedConsumers publicId).1.chunkCount = 0
    ↔ b.initialChunksFreezing = false ∧ publicId ∈ b.expectedConsumers
      ∧ ∀ i chunk, b.chunks.find? i = some chunk →
        (b.expectedConsumers.erase publicId).card ≤ chunk.uses
  := by
  by_cases hp : publicId ∈ b.expectedConsumers
  · rw [removeOneFromExpectedConsumers_of_mem hp, chunkCount_eq_zero]
    cases hf : b.initialChunksFreezing with
    | true =>
        rw [sanitize_of_freezing rfl, ← chunkCount_eq_zero]
        simp only [Bool.true_eq_false, false_and, iff_false]
        apply hne
    | false =>
        simp only [Option.eq_none_iff_forall_ne_some, ne_eq, find?_sanitize, forall_const,
          not_and, not_lt, hp, true_and]
  · rw [removeOneFromExpectedConsumers_of_notMem hp]
    simp [hne, hp]

/-- Only a buffer that is no longer frozen loses chunks when a consumer is removed. -/
theorem someChunkWasRemoved_removeOne_or (publicId : String) :
  ((b.removeOneFromExpectedConsumers publicId).1.someChunkWasRemoved
      || !(b.removeOneFromExpectedConsumers publicId).1.initialChunksFreezing)
    = (b.someChunkWasRemoved || !b.initialChunksFreezing)
  := by
  rw [initialChunksFreezing_removeOne]
  cases hf : b.initialChunksFreezing with
  | false => simp
  | true =>
      by_cases hp : publicId ∈ b.expectedConsumers
      · rw [removeOneFromExpectedConsumers_of_mem hp, sanitize_of_freezing]
        apply hf
      · rw [removeOneFromExpectedConsumers_of_notMem hp]

/-- A consumer is accepted exactly when no chunk was removed, there is room, and it is not
yet expected. -/
theorem addNewToExpectedConsumers_snd {publicId : String} :
  (addNewToExpectedConsumers config b publicId).2 = true
    ↔ b.someChunkWasRemoved = false
      ∧ b.expectedConsumers.card + 1 ≤ config.transferSessionMaxConsumerCount
      ∧ publicId ∉ b.expectedConsumers
  := by
  rw [addNewToExpectedConsumers]
  by_cases hr : b.someChunkWasRemoved <;>
    by_cases hc : b.expectedConsumers.card + 1 > config.transferSessionMaxConsumerCount <;>
    by_cases hp : publicId ∈ b.expectedConsumers <;>
    simp [AtomicSet.add, AtomicSet.size, hr, hc, hp]
  all_goals omega

theorem addNewToExpectedConsumers_of_true {publicId : String}
    (h : (addNewToExpectedConsumers config b publicId).2 = true) :
  (addNewToExpectedConsumers config b publicId).1
    = { b with expectedConsumers := insert publicId b.expectedConsumers }
  := by
  rw [addNewToExpectedConsumers] at h ⊢
  split
  · rename_i hc
    rw [if_pos hc] at h
    cases h
  · simp only
    split <;> rfl

theorem addNewToExpectedConsumers_of_false {publicId : String}
    (h : (addNewToExpectedConsumers config b publicId).2 = false) :
  (addNewToExpectedConsumers config b publicId).1 = b
  := by
  rw [addNewToExpectedConsumers] at h ⊢
  split
  · rfl
  · rename_i hc
    rw [if_neg hc] at h
    by_cases hp : publicId ∈ b.expectedConsumers
    · simp [AtomicSet.add, hp]
    · simp [AtomicSet.add, hp] at h

/-! ### Reading -/

theorem get_snd {i : ℕ} :
  (b.get i).2 = (b.chunks.find? i).map (·.data)
  := by
  rw [get]
  split <;> rename_i h <;> rw [h] <;> rfl

/-- Reading changes only the count of the bytes sent. -/
theorem get_fst (i : ℕ) :
  ∃ n, (b.get i).1 = { b with bytesOutTotal := n }
  := by
  rw [get]
  split
  · use b.bytesOutTotal
  · rename_i chunk _
    use b.bytesOutTotal + chunk.dataSize

@[simp]
theorem expectedConsumers_get (i : ℕ) :
  (b.get i).1.expectedConsumers = b.expectedConsumers
  := by
  obtain ⟨n, h⟩ := b.get_fst i
  rw [h]

@[simp]
theorem chunks_get (i : ℕ) :
  (b.get i).1.chunks = b.chunks
  := by
  obtain ⟨n, h⟩ := b.get_fst i
  rw [h]

@[simp]
theorem chunksMaxIndex_get (i : ℕ) :
  (b.get i).1.chunksMaxIndex = b.chunksMaxIndex
  := by
  obtain ⟨n, h⟩ := b.get_fst i
  rw [h]

@[simp]
theorem bytesInTotal_get (i : ℕ) :
  (b.get i).1.bytesInTotal = b.bytesInTotal
  := by
  obtain ⟨n, h⟩ := b.get_fst i
  rw [h]

@[simp]
theorem EOF_get (i : ℕ) :
  (b.get i).1.EOF = b.EOF
  := by
  obtain ⟨n, h⟩ := b.get_fst i
  rw [h]

@[simp]
theorem initialChunksFreezing_get (i : ℕ) :
  (b.get i).1.initialChunksFreezing = b.initialChunksFreezing
  := by
  obtain ⟨n, h⟩ := b.get_fst i
  rw [h]

end Buffer

end TransferSessionDetails

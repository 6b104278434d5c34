import PutInPipe.Buffer.Run
import PutInPipe.Library.RetainedLog

/-!
# A buffer implements a retained log

The purpose of a buffer is that of a `RetainedLog` of the uploaded payloads, whose members
are the consumers: to keep a chunk until every consumer has confirmed it. The buffer only
counts the confirmations of a chunk. It implements the log as long as the count is the
number of the present consumers that have confirmed the chunk. This fails when a consumer
confirms a chunk again while somebody is still to confirm it, and when a consumer leaves
that has confirmed a chunk which is still stored: neither is allowed below.
-/

namespace TransferSessionDetails

namespace Buffer

variable {config : Config} {b : Buffer} {L : RetainedLog String Bytes}

/-- The log the buffer stands for. -/
structure Represents (b : Buffer) (L : RetainedLog String Bytes) : Prop where
  members : L.members = b.expectedConsumers
  sealed : L.sealed = b.initialChunksFreezing
  length : L.log.length = b.chunksMaxIndex
  held : ∀ i, i ∈ L.held ↔ ∃ chunk, b.chunks.find? i = some chunk
  data : ∀ {i chunk}, b.chunks.find? i = some chunk → L.log[i - 1]? = some chunk.data
  uses : ∀ {i chunk}, b.chunks.find? i = some chunk → chunk.uses = (L.backers i).card

/-- The buffer stands for a log that is safe, and complete if no chunk was removed. -/
structure Implements (b : Buffer) (L : RetainedLog String Bytes) : Prop
    extends b.Represents L where
  safe : L.Safe
  complete : b.someChunkWasRemoved = false → L.Complete

/-- A chunk waits for somebody exactly when its entry is not settled. -/
theorem Represents.uses_lt (h : b.Represents L) {i : ℕ} {chunk : Chunk}
    (hi : b.chunks.find? i = some chunk) :
  chunk.uses < b.expectedConsumers.card ↔ ¬ L.Settled i
  := by
  rw [RetainedLog.settled_iff_card, ← h.uses hi, h.members, not_le]

/-- Counting a confirmation adds its consumer to those that have confirmed the chunk. -/
theorem Represents.uses_incrementUses (h : b.Represents L) {publicId : String} {i : ℕ}
    {chunk : Chunk} (hi : b.chunks.find? i = some chunk) (hp : publicId ∈ L.members)
    (hnew : (publicId, i) ∉ L.acked ∨ b.expectedConsumers.card ≤ chunk.uses) :
  (chunk.incrementUses b.expectedConsumers.card).uses = (insert publicId (L.backers i)).card
  := by
  rcases hnew with hnew | hfull
  · have hno : publicId ∉ L.backers i := fun hb => hnew (RetainedLog.mem_backers.mp hb)
    have hlt : chunk.uses < b.expectedConsumers.card := by
      rw [h.uses_lt hi]
      exact fun hset => hnew (hset publicId hp)
    rw [Finset.card_insert_of_notMem hno, ← h.uses hi, Chunk.incrementUses, if_pos hlt]
  · have hset : L.Settled i := by
      by_contra hset
      have := (h.uses_lt hi).mpr hset
      omega
    have hmem : publicId ∈ L.backers i := RetainedLog.mem_backers.mpr (hset publicId hp)
    rw [Finset.insert_eq_of_mem hmem, Chunk.incrementUses, if_neg (by omega), h.uses hi]

/-! ### Sanitizing releases -/

theorem Represents.sanitize (h : b.Represents L) :
  b.sanitize.1.Represents L.release
  := by
  constructor
  · rw [expectedConsumers_sanitize]
    apply h.members
  · rw [initialChunksFreezing_sanitize]
    apply h.sealed
  · rw [chunksMaxIndex_sanitize]
    apply h.length
  · intro i
    rw [RetainedLog.mem_held_release, h.held, h.sealed]
    simp only [find?_sanitize]
    constructor
    · rintro ⟨⟨chunk, hi⟩, hset⟩
      exact ⟨chunk, hi, fun hf => (h.uses_lt hi).mpr (hset hf)⟩
    · rintro ⟨chunk, hi, hlt⟩
      exact ⟨⟨chunk, hi⟩, fun hf => (h.uses_lt hi).mp (hlt hf)⟩
  · intro i chunk hi
    apply h.data (find?_sanitize.mp hi).1
  · intro i chunk hi
    apply h.uses (find?_sanitize.mp hi).1

/-- A log of which nothing was released stays so if the buffer has nothing to drop. -/
theorem Represents.complete_sanitize (h : b.Represents L)
    (hc : b.someChunkWasRemoved = false → L.Complete)
    (hr : b.sanitize.1.someChunkWasRemoved = false) :
  L.release.Complete
  := by
  rw [someChunkWasRemoved_sanitize] at hr
  simp only [Bool.or_eq_false_iff, Bool.not_eq_false', List.isEmpty_iff,
    sanitize_snd_eq_nil] at hr
  intro i h1 hn
  have hi : i ∈ L.held := hc hr.1 i h1 hn
  apply RetainedLog.mem_held_release.mpr ⟨hi, _⟩
  intro hs
  obtain ⟨chunk, hchunk⟩ := (h.held i).mp hi
  apply (h.uses_lt hchunk).mp
  rw [h.sealed] at hs
  rcases hr.2 with hf | hlt
  · rw [hs] at hf
    cases hf
  · apply hlt i chunk hchunk

namespace Implements

theorem empty :
  Implements {} RetainedLog.empty
  where
    members := rfl
    sealed := rfl
    length := rfl
    held i := by simp [RetainedLog.empty]
    data hi := by cases hi
    uses hi := by cases hi
    safe := RetainedLog.safe_empty
    complete _ := by
      intro i h1 hn
      rw [RetainedLog.empty, List.length_nil] at hn
      omega

/-! ### The operations -/

theorem addChunk (h : b.Implements L) (hw : b.WellFormed config) {binaryData : Bytes}
    (heof : b.EOF = false) (hsize : binaryData.length ≤ config.transferSessionMaxChunkSize)
    (hroom : b.newChunkIsAllowed config = true) :
  (b.addChunk config binaryData).1.Implements (L.append binaryData)
  := by
  have hfind := OrderedMap.find?_tryEmplace ({ data := binaryData } : Chunk) hw.find?_next
  rw [hw.addChunk_of_accepted heof hsize hroom]
  refine ⟨⟨h.members, h.sealed, ?_, ?_, ?_, ?_⟩, h.safe.append binaryData, ?_⟩
  · rw [RetainedLog.append, List.length_append, List.length_singleton, h.length]
  · intro i
    simp only [hfind, RetainedLog.append, Finset.mem_insert, h.length]
    split
    · rename_i hi
      simp [hi]
    · rename_i hi
      simp [hi, h.held]
  · intro i chunk hi
    simp only [hfind] at hi
    simp only [RetainedLog.append]
    split at hi
    · rename_i hnext
      obtain rfl := Option.some.inj hi
      rw [hnext, Nat.add_sub_cancel, ← h.length, List.getElem?_concat_length]
    · have hbound := hw.numbered hi
      rw [List.getElem?_append_left (by rw [h.length]; omega)]
      apply h.data hi
  · intro i chunk hi
    simp only [hfind] at hi
    split at hi
    · rename_i hnext
      obtain rfl := Option.some.inj hi
      have hnone : L.backers i = ∅ := by
        apply RetainedLog.backers_eq_empty
        rw [h.length]
        omega
      apply (congrArg Finset.card hnone).symm
    · apply h.uses hi
  · intro hr i h1 hn
    simp only [RetainedLog.append, List.length_append, List.length_singleton] at hn ⊢
    apply Finset.mem_insert.mpr
    by_cases hi : i = L.log.length + 1
    · apply Or.inl hi
    · apply Or.inr (h.complete hr i h1 (by omega))

theorem get (h : b.Implements L) (i : ℕ) :
  (b.get i).1.Implements L
  := by
  obtain ⟨n, hn⟩ := b.get_fst i
  rw [hn]
  exact ⟨⟨h.members, h.sealed, h.length, h.held, h.data, h.uses⟩, h.safe, h.complete⟩

theorem setEndOfFile (h : b.Implements L) :
  b.setEndOfFile.Implements L
  := by
  rw [Buffer.setEndOfFile]
  split
  · apply h
  · exact ⟨⟨h.members, h.sealed, h.length, h.held, h.data, h.uses⟩, h.safe, h.complete⟩

/-- A confirmation is the acknowledgement by a consumer that has not acknowledged the chunk
before, unless the chunk waits for nobody. -/
theorem setChunkAsReceived (h : b.Implements L) {publicId : String} {i : ℕ}
    (hp : publicId ∈ b.expectedConsumers)
    (hnew : (publicId, i) ∉ L.acked
      ∨ ∀ chunk, b.chunks.find? i = some chunk → b.expectedConsumers.card ≤ chunk.uses) :
  (b.setChunkAsReceived i).1.Implements (L.ack publicId i)
  := by
  have hmem : publicId ∈ L.members := by
    rw [h.members]
    apply hp
  cases hi : b.chunks.find? i with
  | none =>
      have hno : i ∉ L.held := by
        rw [h.held, hi]
        simp
      rw [setChunkAsReceived_of_none hi, RetainedLog.ack, dif_neg (fun hc => hno hc.2)]
      apply h
  | some chunk =>
      have hheld : i ∈ L.held := (h.held i).mpr ⟨chunk, hi⟩
      have hcount : (chunk.incrementUses b.expectedConsumers.card).uses
          = (insert publicId (L.backers i)).card := by
        apply h.uses_incrementUses hi hmem
        apply hnew.imp_right
        exact fun hfull => hfull chunk hi
      have hr : Represents
          { b with chunks := b.chunks.modify i (·.incrementUses b.expectedConsumers.card) }
          (L.record publicId i hmem hheld) := by
        refine ⟨h.members, h.sealed, h.length, ?_, ?_, ?_⟩
        · intro j
          simp only [OrderedMap.find?_modify]
          split
          · rename_i hj
            simp [hj, hi, RetainedLog.record, hheld]
          · apply h.held j
        · intro j chunk' hj
          rw [OrderedMap.find?_modify] at hj
          split at hj
          · obtain ⟨c, hc, rfl⟩ := Option.map_eq_some_iff.mp hj
            rw [Chunk.data_incrementUses]
            apply h.data hc
          · apply h.data hj
        · intro j chunk' hj
          rw [OrderedMap.find?_modify] at hj
          rw [RetainedLog.backers_record]
          split at hj
          · rename_i hji
            subst hji
            rw [hi, Option.map_some] at hj
            rw [if_pos rfl, ← Option.some.inj hj, hcount]
          · rename_i hji
            rw [if_neg hji]
            apply h.uses hj
      have hsafe := h.safe.ack publicId i
      rw [RetainedLog.ack, dif_pos ⟨hmem, hheld⟩] at hsafe ⊢
      rw [setChunkAsReceived_of_some hi]
      use hr.sanitize, hsafe
      apply hr.complete_sanitize h.complete

theorem setInitialChunksFreezingDropped (h : b.Implements L)
    (hf : b.initialChunksFreezing = true) :
  b.setInitialChunksFreezingDropped.1.Implements L.breakSeal
  := by
  have hr : Represents { b with initialChunksFreezing := false } { L with sealed := false } :=
    ⟨h.members, rfl, h.length, h.held, h.data, h.uses⟩
  rw [setInitialChunksFreezingDropped_of_freezing hf]
  use hr.sanitize, h.safe.breakSeal
  apply hr.complete_sanitize h.complete

theorem addNewToExpectedConsumers (h : b.Implements L) {publicId : String}
    (ha : (b.addNewToExpectedConsumers config publicId).2 = true) :
  (b.addNewToExpectedConsumers config publicId).1.Implements (L.join publicId)
  := by
  have hc := h.complete (addNewToExpectedConsumers_snd.mp ha).1
  rw [addNewToExpectedConsumers_of_true ha]
  refine ⟨⟨?_, h.sealed, h.length, h.held, h.data, ?_⟩, RetainedLog.Safe.join hc publicId,
    fun _ => hc⟩
  · apply congrArg (insert publicId) h.members
  · intro i chunk hi
    rw [RetainedLog.backers_join]
    apply h.uses hi

/-- A consumer leaves that has confirmed no chunk which is still stored. -/
theorem removeOneFromExpectedConsumers (h : b.Implements L) {publicId : String}
    (hp : publicId ∈ b.expectedConsumers) (hno : ∀ i ∈ L.held, (publicId, i) ∉ L.acked) :
  (b.removeOneFromExpectedConsumers publicId).1.Implements (L.leave publicId)
  := by
  have hr : Represents { b with expectedConsumers := b.expectedConsumers.erase publicId }
      (L.forget publicId) := by
    refine ⟨?_, h.sealed, h.length, h.held, h.data, ?_⟩
    · apply congrArg (Finset.erase · publicId) h.members
    · intro i chunk hi
      rw [RetainedLog.backers_forget]
      · apply h.uses hi
      · apply hno i ((h.held i).mpr ⟨chunk, hi⟩)
  rw [removeOneFromExpectedConsumers_of_mem hp]
  use hr.sanitize, h.safe.leave publicId
  apply hr.complete_sanitize h.complete

end Implements

end Buffer

end TransferSessionDetails

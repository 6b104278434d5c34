import PutInPipe.Buffer.Run

/-!
# Every confirmed chunk is released

A chunk counts confirmations without asking where they come from, and never beyond the
present number of consumers. The count is therefore no smaller than the number of the
present consumers that have confirmed the chunk since they joined, whoever joins and leaves
in between. Whatever makes a chunk removable is followed by `sanitize`, so that without the
freeze every stored chunk waits for somebody, unless nobody has confirmed it.
-/

namespace TransferSessionDetails

namespace Buffer

variable {config : Config} {b : Buffer} {confirmed : Finset (String × ℕ)}

/-- The present consumers that have confirmed a chunk. -/
def confirmers (b : Buffer) (confirmed : Finset (String × ℕ)) (i : ℕ) : Finset String :=
  b.expectedConsumers.filter (fun p => (p, i) ∈ confirmed)

/-- The confirmations come from present consumers and are for chunks that were uploaded, and
the count of a chunk covers them. -/
structure Covers (b : Buffer) (confirmed : Finset (String × ℕ)) : Prop where
  present : ∀ {p i}, (p, i) ∈ confirmed → p ∈ b.expectedConsumers
  uploaded : ∀ {p i}, (p, i) ∈ confirmed → i ≤ b.chunksMaxIndex
  uses : ∀ {i chunk}, b.chunks.find? i = some chunk →
    (b.confirmers confirmed i).card ≤ chunk.uses

/-- Without the freeze every stored chunk waits for somebody, unless nothing was counted for
it. -/
def Released (b : Buffer) : Prop :=
  b.initialChunksFreezing = false → ∀ {i chunk}, b.chunks.find? i = some chunk →
    chunk.uses < b.expectedConsumers.card ∨ chunk.uses = 0

theorem Released.sanitize (b : Buffer) :
  b.sanitize.1.Released
  := by
  intro hf i chunk hi
  rw [initialChunksFreezing_sanitize] at hf
  rw [expectedConsumers_sanitize]
  apply Or.inl ((find?_sanitize.mp hi).2 hf)

namespace Covers

theorem sanitize (h : b.Covers confirmed) :
  b.sanitize.1.Covers confirmed
  where
    present hc := by
      rw [expectedConsumers_sanitize]
      apply h.present hc
    uploaded hc := by
      rw [chunksMaxIndex_sanitize]
      apply h.uploaded hc
    uses hi := by
      rw [confirmers, expectedConsumers_sanitize]
      apply h.uses (find?_sanitize.mp hi).1

/-- The members of a chunk's confirmers are those recorded. -/
theorem mem_confirmers (h : b.Covers confirmed) {p : String} {i : ℕ} :
  p ∈ b.confirmers confirmed i ↔ (p, i) ∈ confirmed
  := by
  rw [confirmers, Finset.mem_filter]
  exact ⟨And.right, fun hc => ⟨h.present hc, hc⟩⟩

/-- A chunk that waits for somebody has not been confirmed by everybody. -/
theorem exists_notMem (h : b.Covers confirmed) {i : ℕ} {chunk : Chunk}
    (hi : b.chunks.find? i = some chunk) (hlt : chunk.uses < b.expectedConsumers.card) :
  ∃ p ∈ b.expectedConsumers, (p, i) ∉ confirmed
  := by
  obtain ⟨p, hp, hno⟩ :=
    Finset.exists_mem_notMem_of_card_lt_card ((h.uses hi).trans_lt hlt)
  exact ⟨p, hp, fun hc => hno (h.mem_confirmers.mpr hc)⟩

/-! ### The operations -/

theorem addChunk (h : b.Covers confirmed) (hw : b.WellFormed config) (binaryData : Bytes) :
  (b.addChunk config binaryData).1.Covers confirmed
  := by
  rcases addChunk_cases config b binaryData with ⟨heof, hsize, hroom⟩ | hno
  · rw [hw.addChunk_of_accepted heof hsize hroom]
    constructor
    · exact h.present
    · intro p i hc
      apply (h.uploaded hc).trans (Nat.le_succ _)
    · intro i chunk hi
      simp only [OrderedMap.find?_tryEmplace _ hw.find?_next] at hi
      split at hi
      · rename_i hnew
        -- nobody has confirmed an index that was not given out
        have hempty : b.confirmers confirmed i = ∅ := by
          apply Finset.eq_empty_of_forall_notMem
          intro p hp
          have := h.uploaded (h.mem_confirmers.mp hp)
          omega
        simp only [confirmers] at hempty ⊢
        rw [hempty]
        apply Nat.zero_le
      · apply h.uses hi
  · rw [hno]
    apply h

/-- Counting a confirmation covers it, whoever it comes from: the count reaches the number
of consumers at most, and so does the number of those that have confirmed. -/
theorem count (h : b.Covers confirmed) (hw : b.WellFormed config) {i : ℕ} {chunk : Chunk}
    (hi : b.chunks.find? i = some chunk) {confirmed' : Finset (String × ℕ)}
    (hc' : confirmed' = confirmed
      ∨ ∃ p ∈ b.expectedConsumers, confirmed' = insert (p, i) confirmed) :
  Covers { b with
    chunks := b.chunks.modify i (·.incrementUses b.expectedConsumers.card) } confirmed'
  := by
  have hnew : ∀ {q j}, (q, j) ∈ confirmed' →
      (q, j) ∈ confirmed ∨ (q ∈ b.expectedConsumers ∧ j = i) := by
    intro q j hq
    rcases hc' with rfl | ⟨p, hp, rfl⟩
    · apply Or.inl hq
    · apply (Finset.mem_insert.mp hq).symm.imp_right
      intro he
      obtain ⟨rfl, rfl⟩ := Prod.mk.inj he
      exact ⟨hp, rfl⟩
  constructor
  · intro q j hq
    rcases hnew hq with hq | ⟨hp, -⟩
    · apply h.present hq
    · apply hp
  · intro q j hq
    rcases hnew hq with hq | ⟨-, rfl⟩
    · apply h.uploaded hq
    · apply (hw.numbered hi).2
  · intro j chunk' hj
    rw [OrderedMap.find?_modify] at hj
    by_cases hji : j = i
    · rw [if_pos hji, hji, hi, Option.map_some, Option.some.injEq] at hj
      rw [hji, ← hj]
      apply Chunk.le_uses_incrementUses
      · apply le_trans _ (Nat.succ_le_succ (h.uses hi))
        rcases hc' with rfl | ⟨p, hp, rfl⟩
        · apply Nat.le_succ
        · apply (Finset.card_le_card _).trans (Finset.card_insert_le p _)
          intro q hq
          obtain ⟨hmem, hq⟩ := Finset.mem_filter.mp hq
          rcases Finset.mem_insert.mp hq with he | hq
          · rw [(Prod.mk.inj he).1]
            apply Finset.mem_insert_self
          · apply Finset.mem_insert_of_mem (h.mem_confirmers.mpr hq)
      · apply Finset.card_filter_le
    · rw [if_neg hji] at hj
      apply le_trans _ (h.uses hj)
      apply Finset.card_le_card
      intro q hq
      obtain ⟨hmem, hq⟩ := Finset.mem_filter.mp hq
      apply h.mem_confirmers.mpr
      apply (hnew hq).resolve_right
      exact fun hc => hji hc.2

theorem setChunkAsReceived (h : b.Covers confirmed) (hw : b.WellFormed config)
    (p : String) (i : ℕ) :
  (b.setChunkAsReceived i).1.Covers
    (if p ∈ b.expectedConsumers ∧ i ∈ b.chunksIndex then insert (p, i) confirmed
      else confirmed)
  := by
  cases hi : b.chunks.find? i with
  | none =>
      rw [setChunkAsReceived_of_none hi, if_neg]
      · apply h
      · rw [chunksIndex, OrderedMap.mem_keys, hi]
        simp
  | some chunk =>
      rw [setChunkAsReceived_of_some hi]
      apply sanitize
      apply h.count hw hi
      split
      · rename_i hc
        apply Or.inr ⟨p, hc.1, rfl⟩
      · apply Or.inl rfl

theorem setInitialChunksFreezingDropped (h : b.Covers confirmed) :
  b.setInitialChunksFreezingDropped.1.Covers confirmed
  := by
  cases hf : b.initialChunksFreezing with
  | false =>
      rw [setInitialChunksFreezingDropped_of_not_freezing hf]
      apply h
  | true =>
      rw [setInitialChunksFreezingDropped_of_freezing hf]
      apply sanitize
      exact ⟨h.present, h.uploaded, h.uses⟩

theorem addNewToExpectedConsumers (h : b.Covers confirmed) (publicId : String) :
  (b.addNewToExpectedConsumers config publicId).1.Covers confirmed
  := by
  cases ha : (b.addNewToExpectedConsumers config publicId).2 with
  | false =>
      rw [addNewToExpectedConsumers_of_false ha]
      apply h
  | true =>
      have hnew := (addNewToExpectedConsumers_snd.mp ha).2.2
      rw [addNewToExpectedConsumers_of_true ha]
      refine ⟨fun hc => Finset.mem_insert_of_mem (h.present hc), h.uploaded, ?_⟩
      intro i chunk hi
      have hno : (publicId, i) ∉ confirmed := fun hc => hnew (h.present hc)
      rw [confirmers, Finset.filter_insert, if_neg hno]
      apply h.uses hi

/-- A consumer that leaves takes its confirmations with it. -/
theorem removeOneFromExpectedConsumers (h : b.Covers confirmed) (publicId : String) :
  (b.removeOneFromExpectedConsumers publicId).1.Covers
    (confirmed.filter (fun c => c.1 ≠ publicId))
  := by
  by_cases hp : publicId ∈ b.expectedConsumers
  · rw [removeOneFromExpectedConsumers_of_mem hp]
    apply sanitize
    constructor
    · intro p i hc
      obtain ⟨hc, hne⟩ := Finset.mem_filter.mp hc
      apply Finset.mem_erase.mpr ⟨hne, h.present hc⟩
    · intro p i hc
      apply h.uploaded (Finset.mem_filter.mp hc).1
    · intro i chunk hi
      apply le_trans _ (h.uses hi)
      apply Finset.card_le_card
      intro p hc
      obtain ⟨-, hc⟩ := Finset.mem_filter.mp hc
      apply h.mem_confirmers.mpr (Finset.mem_filter.mp hc).1
  · have hall : confirmed.filter (fun c => c.1 ≠ publicId) = confirmed := by
      apply Finset.filter_true_of_mem
      rintro ⟨p, i⟩ hc rfl
      apply hp (h.present hc)
    rw [removeOneFromExpectedConsumers_of_notMem hp, hall]
    apply h

end Covers

/-! ### Runs with the confirmations of the present consumers -/

/-- A buffer with the confirmations its present consumers have given since they joined. -/
structure Confirmed where
  buffer : Buffer := {}
  confirmed : Finset (String × ℕ) := ∅

namespace Confirmed

/-- The confirmations after an operation. A confirmation counts when it comes from a present
consumer and the chunk is stored. -/
def nextConfirmed (s : Confirmed) (consumer : String) : Op → Finset (String × ℕ)
  | .setChunkAsReceived index =>
      if consumer ∈ s.buffer.expectedConsumers ∧ index ∈ s.buffer.chunksIndex then
        insert (consumer, index) s.confirmed
      else s.confirmed
  | .removeOneFromExpectedConsumers publicId => s.confirmed.filter (fun c => c.1 ≠ publicId)
  | _ => s.confirmed

/-- One operation; a confirmation comes from the consumer beside it. -/
def step (config : Config) (s : Confirmed) (a : Op × String) : Confirmed where
  buffer := s.buffer.step config a.1
  confirmed := s.nextConfirmed a.2 a.1

/-- What holds throughout every run. -/
structure Counted (config : Config) (s : Confirmed) : Prop where
  wellFormed : s.buffer.WellFormed config
  covers : s.buffer.Covers s.confirmed
  released : s.buffer.Released

namespace Counted

variable {s : Confirmed}

theorem empty (config : Config) :
  Counted config {}
  where
    wellFormed := WellFormed.empty config
    covers := ⟨fun h => by simp at h, fun h => by simp at h, fun hi => by cases hi⟩
    released _ := by
      intro i chunk hi
      cases hi

theorem covers_step (h : s.Counted config) (a : Op × String) :
  (s.step config a).buffer.Covers (s.step config a).confirmed
  := by
  obtain ⟨op, consumer⟩ := a
  cases op with
  | addChunk binaryData => apply h.covers.addChunk h.wellFormed
  | get index =>
      obtain ⟨n, hn⟩ := s.buffer.get_fst index
      simp only [step, Buffer.step, nextConfirmed, hn]
      exact ⟨h.covers.present, h.covers.uploaded, h.covers.uses⟩
  | setChunkAsReceived index => apply h.covers.setChunkAsReceived h.wellFormed
  | setEndOfFile =>
      simp only [step, Buffer.step, nextConfirmed, setEndOfFile]
      split
      · apply h.covers
      · exact ⟨h.covers.present, h.covers.uploaded, h.covers.uses⟩
  | setInitialChunksFreezingDropped => apply h.covers.setInitialChunksFreezingDropped
  | addNewToExpectedConsumers publicId => apply h.covers.addNewToExpectedConsumers
  | removeOneFromExpectedConsumers publicId => apply h.covers.removeOneFromExpectedConsumers

theorem released_step (h : s.Counted config) (a : Op × String) :
  (s.step config a).buffer.Released
  := by
  obtain ⟨op, consumer⟩ := a
  simp only [step]
  cases op with
  | addChunk binaryData =>
      rw [Buffer.step]
      rcases addChunk_cases config s.buffer binaryData with ⟨heof, hsize, hroom⟩ | hno
      · rw [h.wellFormed.addChunk_of_accepted heof hsize hroom]
        intro hf i chunk hi
        simp only [OrderedMap.find?_tryEmplace _ h.wellFormed.find?_next] at hi
        split at hi
        · rw [← Option.some.inj hi]
          apply Or.inr rfl
        · apply h.released hf hi
      · rw [hno]
        apply h.released
  | get index =>
      obtain ⟨n, hn⟩ := s.buffer.get_fst index
      rw [Buffer.step, hn]
      apply h.released
  | setChunkAsReceived index =>
      rw [Buffer.step]
      cases hi : s.buffer.chunks.find? index with
      | none =>
          rw [setChunkAsReceived_of_none hi]
          apply h.released
      | some chunk =>
          rw [setChunkAsReceived_of_some hi]
          apply Released.sanitize
  | setEndOfFile =>
      rw [Buffer.step, setEndOfFile]
      split
      · apply h.released
      · apply h.released
  | setInitialChunksFreezingDropped =>
      rw [Buffer.step]
      cases hf : s.buffer.initialChunksFreezing with
      | false =>
          rw [setInitialChunksFreezingDropped_of_not_freezing hf]
          apply h.released
      | true =>
          rw [setInitialChunksFreezingDropped_of_freezing hf]
          apply Released.sanitize
  | addNewToExpectedConsumers publicId =>
      rw [Buffer.step]
      cases ha : (s.buffer.addNewToExpectedConsumers config publicId).2 with
      | false =>
          rw [addNewToExpectedConsumers_of_false ha]
          apply h.released
      | true =>
          rw [addNewToExpectedConsumers_of_true ha]
          intro hf i chunk hi
          apply (h.released hf hi).imp_left
          exact fun hlt => hlt.trans_le (Finset.card_le_card (Finset.subset_insert _ _))
  | removeOneFromExpectedConsumers publicId =>
      rw [Buffer.step]
      by_cases hp : publicId ∈ s.buffer.expectedConsumers
      · rw [removeOneFromExpectedConsumers_of_mem hp]
        apply Released.sanitize
      · rw [removeOneFromExpectedConsumers_of_notMem hp]
        apply h.released

theorem step (h : s.Counted config) (a : Op × String) :
  (s.step config a).Counted config
  := ⟨h.wellFormed.step a.1, h.covers_step a, h.released_step a⟩

end Counted

/-- Without the freeze and with consumers present, every stored chunk is still to be
confirmed by some present consumer. -/
def StoresUnconfirmed (s : Confirmed) : Prop :=
  s.buffer.initialChunksFreezing = false → s.buffer.expectedConsumers.Nonempty →
    ∀ i ∈ s.buffer.chunksIndex, ∃ p ∈ s.buffer.expectedConsumers, (p, i) ∉ s.confirmed

theorem Counted.storesUnconfirmed {s : Confirmed} (h : s.Counted config) :
  s.StoresUnconfirmed
  := by
  intro hf hne i hi
  rw [chunksIndex, OrderedMap.mem_keys] at hi
  obtain ⟨chunk, hi⟩ := hi
  apply h.covers.exists_notMem hi
  rcases h.released hf hi with hlt | hzero
  · apply hlt
  · rw [hzero]
    apply Finset.card_pos.mpr hne

/-- No chunk that every present consumer has confirmed is stored in any state of any run. -/
theorem everyState_storesUnconfirmed (config : Config) (ops : List (Op × String)) :
  Machine.EveryState (step config) StoresUnconfirmed {} ops
  := by
  apply (Machine.everyState_of_invariant _ (Counted.empty config) ops).mono
  · exact fun s h => h.storesUnconfirmed
  · exact fun s a h => h.step a

end Confirmed

end Buffer

end TransferSessionDetails

import PutInPipe.Session.Run

/-!
# The end of a transfer

A transfer is complete when the freeze is dropped, the upload is finished and no chunk is
left. Every operation that can complete a transfer takes the session off the list, except
the departure of a receiver who is not the last one.
-/

open TransferSessionDetails

namespace TransferSession

variable {config : Config} {s : TransferSession}

/-- The freeze is dropped, the upload is finished and no chunk is left. -/
def IsComplete (s : TransferSession) : Prop :=
  s.buffer.initialChunksFreezing = false ∧ s.buffer.EOF = true ∧ s.buffer.chunkCount = 0

/-- The departure removes the last chunks of a finished upload. -/
def TakesLastChunks (s : TransferSession) (publicId : String) : Prop :=
  s.buffer.initialChunksFreezing = false ∧ s.buffer.EOF = true ∧ s.buffer.chunkCount ≠ 0
    ∧ publicId ∈ s.buffer.expectedConsumers
    ∧ ∀ i chunk, s.buffer.chunks.find? i = some chunk →
      (s.buffer.expectedConsumers.erase publicId).card ≤ chunk.uses

/-- The departure completes the transfer while other receivers remain. -/
def CompletesTransfer (s : TransferSession) (publicId : String) : Prop :=
  s.TakesLastChunks publicId ∧ s.remaining publicId ≠ []

/-- A session whose freeze is dropped and whose upload is finished ends by a departure
exactly when no receiver remains. -/
theorem endsWithout_of_finished (hf : s.buffer.initialChunksFreezing = false)
    (he : s.buffer.EOF = true) (publicId : String) :
  s.endsWithout publicId = (s.remaining publicId).isEmpty
  := by
  cases hr : (s.remaining publicId).isEmpty with
  | true => simp [endsWithout, desertedWithout, hr, hf]
  | false => simp [endsWithout, desertedWithout, abandonedWithout, hr, he]

/-! ### Completion -/

theorem not_isComplete_removeReceiver (hl : s.listed = true) (hs : ¬ s.IsComplete)
    (publicId : String) :
  WhileListed (¬ IsComplete ·) (s.removeReceiver publicId)
    ↔ ¬ s.CompletesTransfer publicId
  := by
  simp only [WhileListed, IsComplete, listed_removeReceiver, buffer_removeReceiver,
    Buffer.initialChunksFreezing_removeOne, Buffer.EOF_removeOne, hl, Bool.true_and,
    Bool.not_eq_true', CompletesTransfer, TakesLastChunks]
  rw [IsComplete] at hs
  constructor
  · rintro hno ⟨⟨hf, he, hne, hchunks⟩, hr⟩
    rw [endsWithout_of_finished hf he] at hno
    apply hno (List.isEmpty_eq_false_iff.mpr hr)
      ⟨hf, he, (Buffer.chunkCount_removeOne_eq_zero publicId hne).mpr ⟨hf, hchunks⟩⟩
  · rintro hno hends ⟨hf, he, hcount⟩
    rw [endsWithout_of_finished hf he] at hends
    have hne : s.buffer.chunkCount ≠ 0 := fun h => hs ⟨hf, he, h⟩
    apply hno
    exact ⟨⟨hf, he, hne, ((Buffer.chunkCount_removeOne_eq_zero publicId hne).mp hcount).2⟩,
      List.isEmpty_eq_false_iff.mp hends⟩

theorem not_isComplete_dropInitialChunksFreeze (hs : ¬ s.IsComplete) :
  WhileListed (¬ IsComplete ·) (s.dropInitialChunksFreeze config)
  := by
  refine whileListed_dropInitialChunksFreeze (fun _ => hs) ?_
  intro hf hr hn
  rw [dropInitialChunksFreeze_of_ready config hf hr hn]
  rintro hl ⟨-, he, hcount⟩
  rw [Buffer.EOF_setInitialChunksFreezingDropped] at he
  simp [he, hcount] at hl

theorem not_isComplete_confirmChunk (hs : ¬ s.IsComplete) (i : ℕ) (c : ClientRef) :
  WhileListed (¬ IsComplete ·) (s.confirmChunk config i c)
  := by
  cases hi : s.buffer.chunks.find? i with
  | none =>
      rw [confirmChunk_of_none hi]
      exact fun _ => hs
  | some chunk =>
      rw [confirmChunk_of_some config hi]
      rintro hl ⟨-, he, hcount⟩
      rw [Buffer.EOF_setChunkAsReceived, Buffer.EOF_get] at he
      simp [he, hcount] at hl

theorem not_isComplete_setChunkAsReceived (hs : ¬ s.IsComplete) (i : ℕ) (c : ClientRef) :
  WhileListed (¬ IsComplete ·) (s.setChunkAsReceived config i c)
  := by
  refine whileListed_setChunkAsReceived ?_ ?_
  · refine whileListed_autoDropFreeze hs ?_
    intro _
    apply not_isComplete_dropInitialChunksFreeze
    apply hs
  · intro t ht
    apply not_isComplete_confirmChunk ht

/-- An operation applied to a listed session leaves no complete transfer listed exactly
when it is not a departure that completes it while other receivers remain. -/
theorem not_isComplete_apply (h : s.Consistent config) (hl : s.listed = true)
    (hs : ¬ s.IsComplete) (op : Op) :
  WhileListed (¬ IsComplete ·) (s.apply config op) ↔ s.NoDeparture CompletesTransfer op
  := by
  apply whileListed_apply_iff h hl hs (fun _ => hs)
  · intro t publicId _ hlt hst
    apply not_isComplete_removeReceiver hlt hst
  · intro hd
    cases op with
    | addChunk binaryData =>
        rcases Buffer.addChunk_cases config s.buffer binaryData with ⟨heof, hsize, hroom⟩ | hno
        · rintro - ⟨-, he, -⟩
          obtain ⟨es, heq⟩ := s.addChunk_fst config binaryData
          simp only [apply, heq] at he
          rw [h.buffer.addChunk_of_accepted heof hsize hroom, heof] at he
          cases he
        · simp only [apply, addChunk_of_rejected hno]
          exact fun _ => hs
    | removeReceiver publicId => cases hd
    | setChunkAsReceived i c => apply not_isComplete_setChunkAsReceived hs
    | setEndOfFile =>
        cases he : s.buffer.EOF with
        | true =>
            simp only [apply, setEndOfFile_of_eof he]
            exact fun _ => hs
        | false =>
            simp only [apply, setEndOfFile_of_not_eof he]
            rintro hl' ⟨-, -, hcount⟩
            have hcount' : s.buffer.chunkCount = 0 := by
              simpa [Buffer.setEndOfFile, he, Buffer.chunkCount] using hcount
            simp [hcount'] at hl'
    | dropInitialChunksFreeze => apply not_isComplete_dropInitialChunksFreeze hs
    | _ =>
        have hsame := sameChunks_apply config rfl hd
        rintro - ⟨hf, he, hcount⟩
        rw [Buffer.chunkCount, hsame.chunks] at hcount
        apply hs ⟨hsame.initialChunksFreezing.symm.trans hf, hsame.EOF.symm.trans he, hcount⟩

/-- In every run, no session with a complete transfer is listed, exactly when no departure
completes a transfer while other receivers remain. -/
theorem not_isComplete_iff (config : Config) (sender : ClientRef) (auto : Bool)
    (ops : List Op) :
  Machine.EveryState (step config) (WhileListed (¬ IsComplete ·)) (create sender auto) ops
    ↔ Machine.EveryStep (step config) (WhenApplied (NoDeparture CompletesTransfer))
        (create sender auto) ops
  := by
  apply everyState_whileListed_iff
  · intro s op hl _ h hs
    apply not_isComplete_apply h hl hs
  · rintro ⟨hf, -⟩
    cases hf

/-- A run in which Bob, the last to confirm the only chunk of a finished upload, leaves
instead. -/
def completedByDeparture : List Op :=
  [.addReceiver Sample.alice, .addReceiver Sample.bob, .setFileInfo Sample.info,
    .addChunk [1], .setEndOfFile, .dropInitialChunksFreeze,
    .setChunkAsReceived 1 Sample.alice, .removeReceiver "B"]

/-- After that run the transfer is complete, and the session is still listed. -/
theorem isComplete_completedByDeparture :
  ¬ ∀ (config : Config) (sender : ClientRef) (auto : Bool) (ops : List Op),
      Machine.EveryState (step config) (WhileListed (¬ IsComplete ·)) (create sender auto) ops
  := by
  intro h
  apply (h Sample.config Sample.sender false completedByDeparture).last
  · decide
  · rw [IsComplete]
    decide

end TransferSession

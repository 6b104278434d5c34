import PutInPipe.Session.History

/-!
# The progress of the upload

Only an accepted chunk advances the upload and sends `newChunkIsAvailable`, and only
`setEndOfFile` sets the end of file. What is accepted is the log of the history, so that the
index of the last chunk is the length of the log.
-/

open TransferSessionDetails

/-- The index of the new chunk an event tells of. -/
def Event.newChunkIndex : Event → Option ℕ
  | .newChunkIsAvailable index _ => some index
  | _ => none

theorem Event.newChunkIndex_of_quiet {e : Event} (h : e.quiet = true) :
  e.newChunkIndex = none
  := by
  cases e with
  | newChunkIsAvailable index size => cases h
  | _ => rfl

namespace TransferSession

variable {config : Config} {s t u : TransferSession}

/-- No chunk was accepted from `s` to `t`, and the events sent in between tell of none. -/
structure NoNewChunk (s t : TransferSession) : Prop where
  chunksMaxIndex : t.buffer.chunksMaxIndex = s.buffer.chunksMaxIndex
  events : ∃ es, t.events = s.events ++ es ∧ ∀ e ∈ es, Event.newChunkIndex e = none

theorem NoNewChunk.trans (h : s.NoNewChunk t) (h' : t.NoNewChunk u) :
  s.NoNewChunk u
  := by
  obtain ⟨es, hes, hnew⟩ := h.events
  obtain ⟨fs, hfs, hnew'⟩ := h'.events
  refine ⟨h'.chunksMaxIndex.trans h.chunksMaxIndex, es ++ fs, ?_, ?_⟩
  · rw [hfs, hes, List.append_assoc]
  · intro e he
    rcases List.mem_append.mp he with he | he
    · apply hnew e he
    · apply hnew' e he

/-- The upload has not advanced from `s` to `t`. -/
structure SameUpload (s t : TransferSession) : Prop extends s.NoNewChunk t where
  EOF : t.buffer.EOF = s.buffer.EOF

namespace SameUpload

theorem of_quiet (hmax : t.buffer.chunksMaxIndex = s.buffer.chunksMaxIndex)
    (heof : t.buffer.EOF = s.buffer.EOF) {es : List Event}
    (hes : t.events = s.events ++ es) (hq : Event.Quiet es) :
  s.SameUpload t
  := ⟨⟨hmax, es, hes, fun e he => Event.newChunkIndex_of_quiet (hq e he)⟩, heof⟩

theorem of_same (hmax : t.buffer.chunksMaxIndex = s.buffer.chunksMaxIndex)
    (heof : t.buffer.EOF = s.buffer.EOF) (hes : t.events = s.events) :
  s.SameUpload t
  := by
  refine ⟨⟨hmax, [], ?_, List.forall_mem_nil _⟩, heof⟩
  rw [hes, List.append_nil]

theorem of_sameChunks (h : s.SameChunks t) :
  s.SameUpload t
  := by
  obtain ⟨es, hq, hes⟩ := h.events
  apply of_quiet h.chunksMaxIndex h.EOF hes hq

theorem trans (h : s.SameUpload t) (h' : t.SameUpload u) :
  s.SameUpload u
  := ⟨h.toNoNewChunk.trans h'.toNoNewChunk, h'.EOF.trans h.EOF⟩

end SameUpload

theorem newChunkIndex_allowedEdge {old new : Bool} {e : Event} (he : e ∈ allowedEdge old new) :
  e.newChunkIndex = none
  := by
  rw [allowedEdge] at he
  split at he
  · rw [List.mem_singleton.mp he]
    rfl
  · cases he

theorem sameUpload_dropInitialChunksFreeze (config : Config) (s : TransferSession) :
  s.SameUpload (s.dropInitialChunksFreeze config)
  := by
  have hmax : (s.dropInitialChunksFreeze config).buffer.chunksMaxIndex
      = s.buffer.chunksMaxIndex := by
    rw [buffer_dropInitialChunksFreeze, Buffer.chunksMaxIndex_setInitialChunksFreezingDropped]
  have heof : (s.dropInitialChunksFreeze config).buffer.EOF = s.buffer.EOF := by
    rw [buffer_dropInitialChunksFreeze, Buffer.EOF_setInitialChunksFreezingDropped]
  cases hf : s.buffer.initialChunksFreezing with
  | false =>
      apply SameUpload.of_same hmax heof
      rw [dropInitialChunksFreeze_of_not_freezing hf]
  | true =>
      by_cases hun : s.dataReceivers = [] ∨ s.fileInfo.name = []
      · obtain ⟨type, heq⟩ := dropInitialChunksFreeze_of_unready config hf hun
        apply SameUpload.of_same hmax heof
        rw [heq]
      · rw [not_or] at hun
        have heq := dropInitialChunksFreeze_of_ready config hf hun.1 hun.2
        refine ⟨⟨hmax, _, by rw [heq, List.append_assoc], ?_⟩, heof⟩
        intro e he
        rcases List.mem_append.mp he with he | he
        · apply Event.newChunkIndex_of_quiet (quiet_removedEvents _ e he)
        · rcases List.mem_pair.mp he with rfl | rfl <;> rfl

theorem sameUpload_autoDropFreeze (config : Config) (s : TransferSession) :
  s.SameUpload (s.autoDropFreeze config)
  := by
  rw [autoDropFreeze_eq]
  split
  · have h := sameUpload_dropInitialChunksFreeze config { s with autoDropFreezeFired := true }
    exact ⟨⟨h.chunksMaxIndex, h.events⟩, h.EOF⟩
  · apply SameUpload.of_same rfl rfl rfl

theorem sameUpload_confirmChunk (config : Config) (s : TransferSession) (i : ℕ)
    (c : ClientRef) :
  s.SameUpload (s.confirmChunk config i c)
  := by
  cases hi : s.buffer.chunks.find? i with
  | none =>
      rw [confirmChunk_of_none hi]
      apply SameUpload.of_same rfl rfl rfl
  | some chunk =>
      have heq := confirmChunk_of_some config hi c
      refine ⟨⟨?_, _, by rw [heq, List.append_assoc, List.append_assoc, List.append_assoc], ?_⟩, ?_⟩
      · rw [heq, Buffer.chunksMaxIndex_setChunkAsReceived, Buffer.chunksMaxIndex_get]
      · intro e he
        rcases List.mem_append.mp he with he | he
        · rw [List.mem_singleton.mp he]
          rfl
        rcases List.mem_append.mp he with he | he
        · apply Event.newChunkIndex_of_quiet (quiet_removedEvents _ e he)
        rcases List.mem_append.mp he with he | he
        · apply newChunkIndex_allowedEdge he
        · rcases List.mem_pair.mp he with rfl | rfl <;> rfl
      · rw [heq, Buffer.EOF_setChunkAsReceived, Buffer.EOF_get]

/-- The operations by which the sender uploads. -/
def Op.uploads : Op → Bool
  | .addChunk _ | .setEndOfFile => true
  | _ => false

/-- No other operation advances the upload. -/
theorem sameUpload_apply (config : Config) (s : TransferSession) {op : Op}
    (hop : op.uploads = false) :
  s.SameUpload (s.apply config op)
  := by
  cases op with
  | addChunk binaryData => cases hop
  | setEndOfFile => cases hop
  | removeReceiver publicId =>
      obtain ⟨es, hq, heq⟩ := s.removeReceiver_spec publicId
      simp only [apply, heq]
      apply SameUpload.of_quiet (Buffer.chunksMaxIndex_removeOne publicId)
        (Buffer.EOF_removeOne publicId) rfl hq
  | destroyClient c =>
      cases hd : s.departure (.destroyClient c) with
      | none => exact SameUpload.of_sameChunks (sameChunks_apply config rfl hd)
      | some departure =>
          obtain ⟨t, publicId⟩ := departure
          obtain ⟨es, hq, heq⟩ := t.removeReceiver_spec publicId
          rw [apply_of_departure hd, heq]
          rcases departure_eq_some.mp hd with ⟨hop, -⟩ | ⟨c, -, rfl, -⟩
          · cases hop
          · apply SameUpload.of_quiet (Buffer.chunksMaxIndex_removeOne publicId)
              (Buffer.EOF_removeOne publicId) rfl hq
  | setChunkAsReceived i c =>
      apply (sameUpload_autoDropFreeze config s).trans
      apply sameUpload_confirmChunk
  | dropInitialChunksFreeze => apply sameUpload_dropInitialChunksFreeze
  | _ => exact SameUpload.of_sameChunks (sameChunks_apply config rfl rfl)

theorem sameUpload_finish (s : TransferSession) :
  s.SameUpload s.finish
  := by
  rw [finish]
  split
  · apply SameUpload.of_same rfl rfl rfl
  · exact SameUpload.of_quiet rfl rfl rfl (Event.quiet_singleton rfl)

theorem sameUpload_step (config : Config) (s : TransferSession) (op : Op)
    (hop : op.uploads = false) :
  s.SameUpload (s.step config op)
  := by
  by_cases hc : s.listed = true ∧ s.enabled op = true
  · rw [step_of_enabled hc.1 hc.2]
    apply (sameUpload_apply config s hop).trans (sameUpload_finish _)
  · rw [step_of_not_enabled hc]
    apply SameUpload.of_same rfl rfl rfl

/-- The end of file brings no new chunk. -/
theorem noNewChunk_setEndOfFile (config : Config) (s : TransferSession) :
  s.NoNewChunk (s.step config .setEndOfFile)
  := by
  by_cases hc : s.listed = true ∧ s.enabled .setEndOfFile = true
  · rw [step_of_enabled hc.1 hc.2]
    apply NoNewChunk.trans _ (sameUpload_finish _).toNoNewChunk
    cases he : s.buffer.EOF with
    | true =>
        simp only [apply, setEndOfFile_of_eof he]
        apply (SameUpload.of_same rfl rfl rfl).toNoNewChunk
    | false =>
        simp only [apply, setEndOfFile_of_not_eof he, Buffer.setEndOfFile, he]
        refine ⟨rfl, _, rfl, ?_⟩
        intro e he
        rw [List.mem_singleton.mp he]
        rfl
  · rw [step_of_not_enabled hc]
    apply (SameUpload.of_same rfl rfl rfl).toNoNewChunk

end TransferSession

namespace History

variable {config : Config} {h : History}

/-- The index of the last chunk is the number of accepted payloads. -/
def Numbered (h : History) : Prop := h.log.length = h.session.buffer.chunksMaxIndex

/-- The log has not advanced from `h` to `h'`. -/
structure SameUpload (h h' : History) : Prop where
  log : h'.log = h.log
  session : h.session.SameUpload h'.session

/-- The payload is accepted between `h` and `h'`, and the first event sent tells so. -/
structure Accepts (h h' : History) (binaryData : Bytes) : Prop where
  log : h'.log = h.log ++ [binaryData]
  chunksMaxIndex : h'.session.buffer.chunksMaxIndex = h.session.buffer.chunksMaxIndex + 1
  EOF : h'.session.buffer.EOF = h.session.buffer.EOF
  events : ∃ es, h'.session.events = h.session.events
      ++ .newChunkIsAvailable (h.session.buffer.chunksMaxIndex + 1) binaryData.length :: es
    ∧ ∀ e ∈ es, Event.newChunkIndex e = none

theorem sameUpload_step (config : Config) (h : History) (op : TransferSession.Op)
    (hop : op.uploads = false) :
  h.SameUpload (h.step config op)
  := by
  constructor
  · rw [step]
    split
    · cases op <;> first | rfl | cases hop
    · rfl
  · rw [session_step]
    apply TransferSession.sameUpload_step config h.session op hop

/-- An operation that changes nothing. -/
theorem sameUpload_of_apply_eq {op : TransferSession.Op} (hlog : h.nextLog config op = h.log)
    (happly : h.session.apply config op = h.session) :
  h.SameUpload (h.step config op)
  := by
  by_cases ha : h.session.listed = true ∧ h.session.enabled op = true
  · constructor
    · rw [step, if_pos (by simp [ha]), hlog]
    · rw [session_step, TransferSession.step_of_enabled ha.1 ha.2, happly]
      apply TransferSession.sameUpload_finish
  · rw [step_of_not_enabled ha]
    exact ⟨rfl, TransferSession.SameUpload.of_same rfl rfl rfl⟩

/-- A rejected payload changes nothing. -/
theorem sameUpload_of_rejected {binaryData : Bytes}
    (hno : h.session.buffer.addChunk config binaryData = (h.session.buffer, 0)) :
  h.SameUpload (h.step config (.addChunk binaryData))
  := by
  have hadd := TransferSession.addChunk_of_rejected hno
  apply sameUpload_of_apply_eq
  · simp [nextLog, hadd]
  · rw [TransferSession.apply, hadd]

/-- A payload is accepted or changes nothing. -/
theorem step_addChunk (hc : h.Consistent config) (binaryData : Bytes) :
  h.SameUpload (h.step config (.addChunk binaryData))
    ∨ h.Accepts (h.step config (.addChunk binaryData)) binaryData
  := by
  by_cases ha : h.session.listed = true ∧ h.session.enabled (.addChunk binaryData) = true
  · rcases Buffer.addChunk_cases config h.session.buffer binaryData with
      ⟨heof, hsize, hroom⟩ | hno
    · right
      have hacc := (hc ha.1).buffer.addChunk_of_accepted heof hsize hroom
      have hadd := TransferSession.addChunk_of_accepted config h.session
        (show (h.session.buffer.addChunk config binaryData).2 ≠ 0 by simp [hacc])
      have hlisted : (h.session.apply config (.addChunk binaryData)).listed = true := by
        simp only [TransferSession.apply, hadd, ha.1]
      have hsession : (h.step config (.addChunk binaryData)).session
          = (h.session.addChunk config binaryData).1 := by
        rw [session_step, TransferSession.step_of_enabled ha.1 ha.2,
          TransferSession.finish_of_listed hlisted]
        rfl
      constructor
      · rw [step, if_pos (by simp [ha])]
        simp only [nextLog, hadd, if_true]
      · rw [hsession, hadd, hacc]
      · rw [hsession, hadd, hacc]
      · refine ⟨_, by rw [hsession, hadd, hacc]; rfl, ?_⟩
        intro e he
        rcases List.mem_append.mp he with he | he
        · apply TransferSession.newChunkIndex_allowedEdge he
        · rw [List.mem_singleton.mp he]
          rfl
    · left
      apply sameUpload_of_rejected hno
  · left
    rw [step_of_not_enabled ha]
    exact ⟨rfl, TransferSession.SameUpload.of_same rfl rfl rfl⟩

theorem log_setEndOfFile (config : Config) (h : History) :
  (h.step config .setEndOfFile).log = h.log
  := by
  rw [step]
  split <;> rfl

end History

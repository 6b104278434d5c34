import PutInPipe.Session.Basic
import PutInPipe.Buffer.Run

/-!
# What the methods of a session do

The methods that do not touch the membership are given as record updates: the buffer by
the operation of the buffer they call, and the events they add. `departure` tells which
operations take a receiver off the session, and `endsWithout` when a session ends by
such a departure.
-/

open TransferSessionDetails

/-- The status of the queue an event carries. -/
def Event.allowedStatus : Event → Option Bool
  | .newChunkIsAllowed status => some status
  | _ => none

/-- The event tells neither of a new chunk nor of the status of the queue. -/
def Event.quiet : Event → Bool
  | .newChunkIsAvailable _ _ | .newChunkIsAllowed _ => false
  | _ => true

/-- None of the events tells of a new chunk or of the status of the queue. -/
def Event.Quiet (es : List Event) : Prop := ∀ e ∈ es, e.quiet = true

theorem Event.allowedStatus_of_quiet {e : Event} (h : e.quiet = true) :
  e.allowedStatus = none
  := by
  cases e with
  | newChunkIsAllowed status => cases h
  | _ => rfl

theorem Event.Quiet.append {es fs : List Event} (he : Quiet es) (hf : Quiet fs) :
  Quiet (es ++ fs)
  := by
  intro e h
  rcases List.mem_append.mp h with h | h
  · apply he e h
  · apply hf e h

theorem Event.quiet_singleton {e : Event} (h : e.quiet = true) :
  Quiet [e]
  := by
  intro e' he'
  rw [List.mem_singleton.mp he', h]

namespace TransferSession

variable {config : Config} {s : TransferSession}

/-! ### Events -/

/-- The event sent when the status of the queue changes. -/
def allowedEdge (old new : Bool) : List Event :=
  if old != new then [.newChunkIsAllowed new] else []

/-- The event sent for removed chunks. -/
def removedEvents (removedChunks : List ℕ) : List Event :=
  if removedChunks.isEmpty then [] else [.chunksWasRemoved removedChunks]

theorem mem_removedEvents {removedChunks : List ℕ} {e : Event}
    (he : e ∈ removedEvents removedChunks) :
  e = .chunksWasRemoved removedChunks
  := by
  rw [removedEvents] at he
  split at he
  · cases he
  · apply List.mem_singleton.mp he

theorem notifyRemoved_eq (s : TransferSession) (removedChunks : List ℕ) :
  s.notifyRemoved removedChunks
    = { s with events := s.events ++ removedEvents removedChunks }
  := by
  rw [notifyRemoved, removedEvents]
  split
  · rw [List.append_nil]
  · rfl

theorem quiet_removedEvents (removedChunks : List ℕ) :
  Event.Quiet (removedEvents removedChunks)
  := by
  rw [removedEvents]
  split
  · apply List.forall_mem_nil
  · apply Event.quiet_singleton rfl

theorem allowedEdge_if (s : TransferSession) (old new : Bool) :
  (if old != new then s.notify (.newChunkIsAllowed new) else s)
    = { s with events := s.events ++ allowedEdge old new }
  := by
  rw [allowedEdge]
  split
  · rfl
  · rw [List.append_nil]

theorem removeFromList_if (s : TransferSession) (p : Bool) :
  (if p then s.removeFromList else s) = { s with listed := s.listed && !p }
  := by
  cases p with
  | true => simp [removeFromList]
  | false => simp

/-! ### Joining -/

theorem addReceiver_of_false {client : ClientRef} (h : (s.addReceiver config client).2 = false) :
  (s.addReceiver config client).1 = s
  := by
  rw [addReceiver] at h ⊢
  split
  · rfl
  · rename_i hid
    rw [if_neg hid] at h
    simp only at h ⊢
    cases ha : (Buffer.addNewToExpectedConsumers config s.buffer client.publicId).2 with
    | false => simp [Buffer.addNewToExpectedConsumers_of_false ha]
    | true => simp [ha] at h

/-- A receiver that is accepted is expected from then on. -/
theorem addReceiver_of_true {client : ClientRef} (h : (s.addReceiver config client).2 = true) :
  (s.buffer.addNewToExpectedConsumers config client.publicId).2 = true
    ∧ (s.addReceiver config client).1
      = { s with
          buffer := { s.buffer with
            expectedConsumers := insert client.publicId s.buffer.expectedConsumers }
          dataReceivers := s.dataReceivers ++ [client]
          subscribers := (s.addSubscriber client).subscribers
          events := s.events ++ [.newReceiver client] }
  := by
  rw [addReceiver] at h ⊢
  split
  · rename_i hid
    rw [if_pos hid] at h
    cases h
  · rename_i hid
    rw [if_neg hid] at h
    simp only at h ⊢
    cases ha : (Buffer.addNewToExpectedConsumers config s.buffer client.publicId).2 with
    | false => simp [ha] at h
    | true =>
        rw [Buffer.addNewToExpectedConsumers_of_true ha]
        simp only [Bool.not_true, Bool.false_eq_true, if_false, notify, addSubscriber, true_and]
        split <;> rfl

theorem mem_addSubscriber {client c : ClientRef} :
  c ∈ (s.addSubscriber client).subscribers ↔ c ∈ s.subscribers ∨ c = client
  := by
  rw [addSubscriber]
  split
  · rename_i hmem
    constructor
    · apply Or.inl
    · rintro (hc | rfl)
      · apply hc
      · apply hmem
  · simp

/-! ### Chunks -/

/-- A rejected chunk changes nothing. -/
theorem addChunk_of_rejected {binaryData : Bytes}
    (h : s.buffer.addChunk config binaryData = (s.buffer, 0)) :
  s.addChunk config binaryData = (s, false)
  := by
  rw [addChunk, h]
  rfl

theorem addChunk_of_accepted (config : Config) (s : TransferSession)
    {binaryData : Bytes}
    (h : (s.buffer.addChunk config binaryData).2 ≠ 0) :
  s.addChunk config binaryData
    = ({ s with
          buffer := (s.buffer.addChunk config binaryData).1
          events := s.events
            ++ ([.newChunkIsAvailable (s.buffer.addChunk config binaryData).2 binaryData.length]
              ++ allowedEdge (s.buffer.newChunkIsAllowed config)
                  ((s.buffer.addChunk config binaryData).1.newChunkIsAllowed config)
              ++ [.bytesInUpdated (s.buffer.addChunk config binaryData).1.bytesIn]) }, true)
  := by
  rw [addChunk]
  simp only [beq_iff_eq, h, if_false, allowedEdge_if]
  simp only [notify, List.append_assoc]

/-- A chunk changes the buffer and the events. -/
theorem addChunk_fst (config : Config) (s : TransferSession) (binaryData : Bytes) :
  ∃ es : List Event, (s.addChunk config binaryData).1
    = { s with
        buffer := (s.buffer.addChunk config binaryData).1
        events := s.events ++ es }
  := by
  by_cases h : (s.buffer.addChunk config binaryData).2 = 0
  · use []
    simp [addChunk, h]
  · exact ⟨_, congrArg Prod.fst (addChunk_of_accepted config s h)⟩

/-- A download changes the counts of the buffer and sends an event. -/
theorem getChunk_fst (s : TransferSession) (index : ℕ) (client : ClientRef) :
  ∃ es : List Event, Event.Quiet es
    ∧ (s.getChunk index client).1
      = { s with buffer := (s.buffer.get index).1, events := s.events ++ es }
  := by
  rw [getChunk]
  simp only
  split
  · use [], List.forall_mem_nil _
    rw [List.append_nil]
  · use [.chunkDownloadStarted client.publicId index], Event.quiet_singleton rfl
    rfl

theorem setFileInfo_fst (s : TransferSession) (info : FileInfo) :
  ∃ (info' : FileInfo) (es : List Event), Event.Quiet es
    ∧ (s.setFileInfo info).1 = { s with fileInfo := info', events := s.events ++ es }
  := by
  have hsame : ∃ (info' : FileInfo) (es : List Event), Event.Quiet es
      ∧ s = { s with fileInfo := info', events := s.events ++ es } := by
    refine ⟨s.fileInfo, [], List.forall_mem_nil _, ?_⟩
    rw [List.append_nil]
  rw [setFileInfo]
  split
  · apply hsame
  · split
    · apply hsame
    · exact ⟨_, _, Event.quiet_singleton rfl, rfl⟩

/-- The end of file, set once. -/
theorem setEndOfFile_of_not_eof (h : s.buffer.EOF = false) :
  s.setEndOfFile
    = { s with
        buffer := s.buffer.setEndOfFile
        events := s.events ++ [.fileUploadFinished]
        listed := s.listed && !(s.buffer.chunkCount == 0) }
  := by
  rw [setEndOfFile, if_neg (by simp [Buffer.eof, h])]
  simp only [removeFromList_if, notify, Buffer.setEndOfFile, h, Bool.false_eq_true, if_false]
  rfl

theorem setEndOfFile_of_eof (h : s.buffer.EOF = true) :
  s.setEndOfFile = s
  := by
  apply if_pos h

/-! ### The freeze -/

theorem dropInitialChunksFreeze_of_not_freezing (h : s.buffer.initialChunksFreezing = false) :
  s.dropInitialChunksFreeze config = s
  := by
  rw [dropInitialChunksFreeze, Buffer.setInitialChunksFreezingDropped_of_not_freezing h]
  rfl

/-- Dropping the freeze ends a session that has no receivers or no file information. -/
theorem dropInitialChunksFreeze_of_unready (config : Config)
    (hf : s.buffer.initialChunksFreezing = true)
    (h : s.dataReceivers = [] ∨ s.fileInfo.name = []) :
  ∃ type, s.dropInitialChunksFreeze config
    = { s with
        buffer := s.buffer.setInitialChunksFreezingDropped.1
        completeType := type
        listed := false }
  := by
  rw [dropInitialChunksFreeze, Buffer.setInitialChunksFreezingDropped_of_freezing hf]
  simp only [Bool.not_true, Bool.false_eq_true, if_false, List.isEmpty_iff]
  split
  · use .noReceivers
    rfl
  · rename_i hr
    rw [if_pos (h.resolve_left hr)]
    use .senderIsGone
    rfl

/-- Dropping the freeze of any other session sends the status of the queue, and ends the
session when the file is complete. -/
theorem dropInitialChunksFreeze_of_ready (config : Config)
    (hf : s.buffer.initialChunksFreezing = true)
    (hr : s.dataReceivers ≠ []) (hn : s.fileInfo.name ≠ []) :
  s.dropInitialChunksFreeze config
    = { s with
        buffer := s.buffer.setInitialChunksFreezingDropped.1
        events := s.events ++ removedEvents s.buffer.setInitialChunksFreezingDropped.2.1
          ++ [.newChunkIsAllowed
                (s.buffer.setInitialChunksFreezingDropped.1.newChunkIsAllowed config),
              .chunksAreUnfrozen]
        listed := s.listed && !(s.buffer.setInitialChunksFreezingDropped.1.chunkCount == 0
          && s.buffer.EOF) }
  := by
  rw [dropInitialChunksFreeze, Buffer.setInitialChunksFreezingDropped_of_freezing hf]
  simp only [Bool.not_true, Bool.false_eq_true, if_false, List.isEmpty_iff, hr, hn,
    removeFromList_if, notifyRemoved_eq, notify, Buffer.eof, Buffer.EOF_sanitize,
    List.append_assoc, List.cons_append, List.nil_append]

theorem buffer_dropInitialChunksFreeze (config : Config) (s : TransferSession) :
  (s.dropInitialChunksFreeze config).buffer = s.buffer.setInitialChunksFreezingDropped.1
  := by
  cases hf : s.buffer.initialChunksFreezing with
  | false =>
      rw [dropInitialChunksFreeze_of_not_freezing hf,
        Buffer.setInitialChunksFreezingDropped_of_not_freezing hf]
  | true =>
      by_cases h : s.dataReceivers = [] ∨ s.fileInfo.name = []
      · obtain ⟨type, hd⟩ := dropInitialChunksFreeze_of_unready config hf h
        rw [hd]
      · rw [dropInitialChunksFreeze_of_ready config hf (fun hr => h (.inl hr)) (fun hn => h (.inr hn))]

/-! ### Confirming -/

/-- The first confirmation drops the freeze of a session in the automatic mode. -/
def autoDrops (s : TransferSession) : Bool :=
  s.autoDropFreezeOnFirstChunk && s.buffer.initialChunksFreezing && !s.autoDropFreezeFired

theorem autoDropFreeze_eq (config : Config) (s : TransferSession) :
  s.autoDropFreeze config
    = if s.autoDrops then
        { s with autoDropFreezeFired := true }.dropInitialChunksFreeze config
      else s
  := rfl

theorem buffer_autoDropFreeze (config : Config) (s : TransferSession) :
  (s.autoDropFreeze config).buffer
    = if s.autoDrops then s.buffer.setInitialChunksFreezingDropped.1 else s.buffer
  := by
  rw [autoDropFreeze_eq]
  split
  · rw [buffer_dropInitialChunksFreeze]
  · rfl

theorem initialChunksFreezing_of_autoDrops (h : s.autoDrops = true) :
  s.buffer.initialChunksFreezing = true
  := by
  simp only [autoDrops, Bool.and_eq_true] at h
  apply h.1.2

/-- What is stored after the automatic drop of the freeze was stored before. -/
theorem find?_of_autoDropFreeze {i : ℕ} {chunk : Chunk}
    (hi : (s.autoDropFreeze config).buffer.chunks.find? i = some chunk) :
  s.buffer.chunks.find? i = some chunk
  := by
  rw [buffer_autoDropFreeze] at hi
  split at hi
  · rename_i hauto
    have hf := initialChunksFreezing_of_autoDrops hauto
    apply ((Buffer.find?_setInitialChunksFreezingDropped hf).mp hi).1
  · apply hi

theorem incrementReceived_eq (s : TransferSession) (client : ClientRef) (bytes : ℕ) :
  s.incrementReceived client bytes
    = { s with
        bytesReceived := Function.update s.bytesReceived client (s.bytesReceived client + bytes)
        events := s.events
          ++ [.personalReceivedUpdated client (s.bytesReceived client + bytes)] }
  := by
  simp only [incrementReceived, notify, Function.update_self]

theorem confirmChunk_of_none {i : ℕ} (h : s.buffer.chunks.find? i = none) (client : ClientRef) :
  s.confirmChunk config i client = s
  := by
  simp [confirmChunk, Buffer.get, Buffer.setChunkAsReceived_of_none h, h]

/-- A confirmation of a stored chunk counts its bytes for the client and reports what the
buffer did. -/
theorem confirmChunk_of_some (config : Config) {i : ℕ} {chunk : Chunk}
    (h : s.buffer.chunks.find? i = some chunk) (client : ClientRef) :
  s.confirmChunk config i client
    = { s with
        buffer := ((s.buffer.get i).1.setChunkAsReceived i).1
        bytesReceived := Function.update s.bytesReceived client
          (s.bytesReceived client + chunk.data.length)
        events := s.events
          ++ [.personalReceivedUpdated client (s.bytesReceived client + chunk.data.length)]
          ++ removedEvents ((s.buffer.get i).1.setChunkAsReceived i).2.1
          ++ allowedEdge (s.buffer.newChunkIsAllowed config)
              (((s.buffer.get i).1.setChunkAsReceived i).1.newChunkIsAllowed config)
          ++ [.bytesOutUpdated ((s.buffer.get i).1.setChunkAsReceived i).1.bytesOut,
              .chunkDownloadFinished client.publicId i]
        listed := s.listed && !(((s.buffer.get i).1.setChunkAsReceived i).1.chunkCount == 0
          && s.buffer.EOF) }
  := by
  have hget : (s.buffer.get i).1.chunks.find? i = some chunk := by
    rw [Buffer.chunks_get, h]
  have hfound : ((s.buffer.get i).1.setChunkAsReceived i).2.2 = true := by
    rw [Buffer.setChunkAsReceived_of_some hget]
  have hallowed : (s.buffer.get i).1.newChunkIsAllowed config
      = s.buffer.newChunkIsAllowed config := by
    rw [Buffer.newChunkIsAllowed, Buffer.chunkCount, Buffer.chunks_get]
    rfl
  have hdata : (s.buffer.get i).2 = some chunk.data := by
    rw [Buffer.get_snd, h]
    rfl
  have heof : ((s.buffer.get i).1.setChunkAsReceived i).1.eof = s.buffer.EOF := by
    rw [Buffer.eof, Buffer.EOF_setChunkAsReceived, Buffer.EOF_get]
  simp only [confirmChunk, hdata, incrementReceived_eq, hfound, hallowed, Bool.not_true,
    Bool.false_eq_true, if_false, notifyRemoved_eq, allowedEdge_if, removeFromList_if]
  simp only [notify, heof, List.append_assoc, List.cons_append, List.nil_append]

theorem buffer_confirmChunk (config : Config) (s : TransferSession) (i : ℕ) (c : ClientRef) :
  (s.confirmChunk config i c).buffer = ((s.buffer.get i).1.setChunkAsReceived i).1
  := by
  cases hi : s.buffer.chunks.find? i with
  | none =>
      have hget : s.buffer.get i = (s.buffer, none) := by
        rw [Buffer.get, hi]
      rw [confirmChunk_of_none hi, hget, Buffer.setChunkAsReceived_of_none hi]
  | some chunk => rw [confirmChunk_of_some config hi]

end TransferSession

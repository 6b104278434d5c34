import PutInPipe.Session.Run

/-!
# The status of the queue

The sender learns whether the queue has room from the events `newChunkIsAllowed` alone.
The last one it was sent agrees with the buffer as long as no departure frees a full queue:
`removeReceiver` does not send the event.
-/

open TransferSessionDetails

namespace TransferSession

variable {config : Config} {s : TransferSession}

/-- The status the last `newChunkIsAllowed` event carried, true if there was none. -/
def lastAllowed (events : List Event) : Bool :=
  (events.filterMap Event.allowedStatus).getLast?.getD true

/-- The sender knows whether the queue has room. -/
def AllowedIsKnown (config : Config) (s : TransferSession) : Prop :=
  lastAllowed s.events = s.buffer.newChunkIsAllowed config

/-- The queue is full, the freeze is dropped, and the departure of the receiver makes room
without ending the session: some chunk waits for nobody else. -/
def MakesRoom (config : Config) (s : TransferSession) (publicId : String) : Prop :=
  s.buffer.newChunkIsAllowed config = false ∧ s.buffer.initialChunksFreezing = false
    ∧ publicId ∈ s.buffer.expectedConsumers
    ∧ (∃ i chunk, s.buffer.chunks.find? i = some chunk
        ∧ (s.buffer.expectedConsumers.erase publicId).card ≤ chunk.uses)
    ∧ s.endsWithout publicId = false

/-! ### The last status -/

theorem lastAllowed_append_quiet {es fs : List Event} (h : Event.Quiet fs) :
  lastAllowed (es ++ fs) = lastAllowed es
  := by
  have hnil : fs.filterMap Event.allowedStatus = [] :=
    List.filterMap_eq_nil_iff.mpr fun e he => Event.allowedStatus_of_quiet (h e he)
  rw [lastAllowed, List.filterMap_append, hnil, List.append_nil]
  rfl

theorem lastAllowed_append_newChunkIsAvailable (es : List Event) (index size : ℕ) :
  lastAllowed (es ++ [.newChunkIsAvailable index size]) = lastAllowed es
  := by
  simp [lastAllowed, Event.allowedStatus]

theorem lastAllowed_append_newChunkIsAllowed (es : List Event) (status : Bool) :
  lastAllowed (es ++ [.newChunkIsAllowed status]) = status
  := by
  simp [lastAllowed, Event.allowedStatus]

/-- Sending the edges keeps the last status up to date. -/
theorem lastAllowed_append_allowedEdge {es : List Event} {old new : Bool}
    (h : lastAllowed es = old) :
  lastAllowed (es ++ allowedEdge old new) = new
  := by
  rw [allowedEdge]
  split
  · apply lastAllowed_append_newChunkIsAllowed
  · rename_i heq
    rw [List.append_nil, h]
    simpa using heq

/-! ### What the operations do to it -/

/-- A departure keeps the sender informed exactly when it makes no room. -/
theorem allowedIsKnown_removeReceiver (h : s.Consistent config) (hl : s.listed = true)
    (hs : s.AllowedIsKnown config) (publicId : String) :
  WhileListed (AllowedIsKnown config) (s.removeReceiver publicId)
    ↔ ¬ s.MakesRoom config publicId
  := by
  obtain ⟨es, hq, heq⟩ := s.removeReceiver_spec publicId
  have hroom := h.buffer.newChunkIsAllowed_removeOne publicId
  rw [heq]
  simp only [WhileListed, AllowedIsKnown, lastAllowed_append_quiet hq, hl, Bool.true_and,
    Bool.not_eq_true']
  rw [hs, MakesRoom]
  constructor
  · rintro hkept ⟨hfull, hfreeze, hmem, hchunk, hends⟩
    apply hroom.mpr ⟨hfull, hfreeze, hmem, hchunk⟩ (hkept hends).symm
  · intro hno hends
    by_contra hne
    obtain ⟨hfull, hfreeze, hmem, hchunk⟩ := hroom.mp (Ne.symm hne)
    apply hno ⟨hfull, hfreeze, hmem, hchunk, hends⟩

theorem allowedIsKnown_addChunk (h : s.Consistent config) (hs : s.AllowedIsKnown config)
    (binaryData : Bytes) :
  (s.addChunk config binaryData).1.AllowedIsKnown config
  := by
  rcases Buffer.addChunk_cases config s.buffer binaryData with ⟨heof, hsize, hroom⟩ | hno
  · have hacc := h.buffer.addChunk_of_accepted heof hsize hroom
    rw [addChunk_of_accepted config _ (by simp [hacc]), AllowedIsKnown, ← List.append_assoc,
      ← List.append_assoc, lastAllowed_append_quiet (Event.quiet_singleton rfl)]
    apply lastAllowed_append_allowedEdge
    rw [lastAllowed_append_newChunkIsAvailable, hs]
  · rw [addChunk_of_rejected hno]
    apply hs

theorem allowedIsKnown_confirmChunk (hs : s.AllowedIsKnown config) (i : ℕ) (c : ClientRef) :
  (s.confirmChunk config i c).AllowedIsKnown config
  := by
  cases hi : s.buffer.chunks.find? i with
  | none =>
      rw [confirmChunk_of_none hi]
      apply hs
  | some chunk =>
      have hend : Event.Quiet [.bytesOutUpdated ((s.buffer.get i).1.setChunkAsReceived i).1.bytesOut,
          .chunkDownloadFinished c.publicId i] :=
        (Event.quiet_singleton rfl).append (Event.quiet_singleton rfl)
      rw [confirmChunk_of_some config hi, AllowedIsKnown, lastAllowed_append_quiet hend]
      apply lastAllowed_append_allowedEdge
      rw [lastAllowed_append_quiet (quiet_removedEvents _),
        lastAllowed_append_quiet (Event.quiet_singleton rfl), hs]

theorem allowedIsKnown_dropInitialChunksFreeze (hs : s.AllowedIsKnown config) :
  WhileListed (AllowedIsKnown config) (s.dropInitialChunksFreeze config)
  := by
  apply whileListed_dropInitialChunksFreeze (fun _ => hs)
  intro hf hr hn _
  rw [dropInitialChunksFreeze_of_ready config hf hr hn, AllowedIsKnown,
    ← List.singleton_append, ← List.append_assoc,
    lastAllowed_append_quiet (Event.quiet_singleton rfl)]
  apply lastAllowed_append_newChunkIsAllowed

theorem allowedIsKnown_setChunkAsReceived (hs : s.AllowedIsKnown config) (i : ℕ)
    (c : ClientRef) :
  WhileListed (AllowedIsKnown config) (s.setChunkAsReceived config i c)
  := by
  apply whileListed_setChunkAsReceived
  · apply whileListed_autoDropFreeze hs
    intro _
    apply allowedIsKnown_dropInitialChunksFreeze
    apply hs
  · intro t ht _
    apply allowedIsKnown_confirmChunk ht

/-- An operation applied to a listed session keeps the sender informed exactly when it is
not a departure that makes room in a full queue. -/
theorem allowedIsKnown_apply (h : s.Consistent config) (hl : s.listed = true)
    (hs : s.AllowedIsKnown config) (op : Op) :
  WhileListed (AllowedIsKnown config) (s.apply config op) ↔ s.NoDeparture (MakesRoom config) op
  := by
  apply whileListed_apply_iff h hl hs (fun _ => hs)
  · intro t publicId ht hlt hst
    apply allowedIsKnown_removeReceiver ht hlt hst
  · intro hd
    cases op with
    | addChunk binaryData => exact fun _ => allowedIsKnown_addChunk h hs binaryData
    | removeReceiver publicId => cases hd
    | setChunkAsReceived i c => apply allowedIsKnown_setChunkAsReceived hs
    | setEndOfFile =>
        intro _
        cases he : s.buffer.EOF with
        | true =>
            simp only [apply, setEndOfFile_of_eof he]
            apply hs
        | false =>
            simp only [apply, setEndOfFile_of_not_eof he, AllowedIsKnown,
              Buffer.setEndOfFile, he]
            rw [lastAllowed_append_quiet (Event.quiet_singleton rfl)]
            apply hs
    | dropInitialChunksFreeze => apply allowedIsKnown_dropInitialChunksFreeze hs
    | _ =>
        have hsame := sameChunks_apply config rfl hd
        obtain ⟨es, hq, hevents⟩ := hsame.events
        intro _
        rw [AllowedIsKnown, hevents, lastAllowed_append_quiet hq, Buffer.newChunkIsAllowed,
          Buffer.chunkCount, hsame.chunks]
        apply hs

/-- In every run with a queue limit of at least one, the last status the sender was told
agrees with the buffer as long as the session is listed, exactly when no departure makes
room in a full queue. -/
theorem allowedIsKnown_iff (config : Config)
    (hlimit : 0 < config.transferSessionChunkQueueMaxSize) (sender : ClientRef) (auto : Bool)
    (ops : List Op) :
  Machine.EveryState (step config) (WhileListed (AllowedIsKnown config)) (create sender auto) ops
    ↔ Machine.EveryStep (step config) (WhenApplied (NoDeparture (MakesRoom config))) (create sender auto) ops
  := by
  apply everyState_whileListed_iff
  · intro s op hl _ h hs
    apply allowedIsKnown_apply h hl hs
  · simp only [AllowedIsKnown, create, lastAllowed, Buffer.newChunkIsAllowed]
    apply (decide_eq_true hlimit).symm

/-- A run in which Bob, the last to confirm the only chunk, leaves instead. -/
def roomByDeparture : List Op :=
  [.addReceiver Sample.alice, .addReceiver Sample.bob, .setFileInfo Sample.info,
    .addChunk [1], .dropInitialChunksFreeze, .setChunkAsReceived 1 Sample.alice,
    .removeReceiver "B"]

theorem allowedIsKnown_iff_roomByDeparture :
  0 < Sample.config.transferSessionChunkQueueMaxSize
    ∧ (Machine.EveryState (step Sample.config) (WhileListed (AllowedIsKnown Sample.config))
          (create Sample.sender false) roomByDeparture
        ↔ Machine.EveryStep (step Sample.config) (WhenApplied (NoDeparture (MakesRoom Sample.config)))
            (create Sample.sender false) roomByDeparture)
  := ⟨by decide, allowedIsKnown_iff Sample.config (by decide) Sample.sender false roomByDeparture⟩

/-- After that run the session is listed and its queue is empty, but the sender was last
told that the queue is full. -/
theorem not_allowedIsKnown_roomByDeparture :
  ¬ ∀ (config : Config), 0 < config.transferSessionChunkQueueMaxSize →
      ∀ (sender : ClientRef) (auto : Bool) (ops : List Op),
        Machine.EveryState (step config) (WhileListed (AllowedIsKnown config))
          (create sender auto) ops
  := by
  intro h
  have hlast := (h Sample.config (by decide) Sample.sender false roomByDeparture).last
  have hlisted : (Machine.run (step Sample.config) (create Sample.sender false)
      roomByDeparture).listed = true := by decide
  revert hlast
  simp only [WhileListed, hlisted, forall_const]
  rw [AllowedIsKnown]
  decide

end TransferSession

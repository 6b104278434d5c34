import PutInPipe.Session.Completion
import PutInPipe.Session.Delivery

/-!
# The status after the last departure

The departure of the last receiver ends the session with the status `ok` when it finds the
upload finished and no chunk left. It looks at the buffer after the receiver was removed
from the consumers, and it does not look at who has confirmed what. So it takes chunks that
the receiver never confirmed for delivered, whether it removes them itself or an earlier
operation did.
-/

open TransferSessionDetails

namespace TransferSession

variable {config : Config} {s : TransferSession}

/-- The last receiver leaves, is kicked or is destroyed. -/
structure LastDeparture (s : TransferSession) (op : Op) (c : ClientRef) : Prop where
  receiver : c ∈ s.liveReceivers
  last : ∀ d ∈ s.liveReceivers, d = c
  op : op = .removeReceiver c.publicId ∨ op = .destroyClient c

/-- A destruction that is taken for the sender although the client is not the sender comes
after the destruction of the sender, when the upload is finished. -/
theorem EOF_of_takenForSender (h : s.Consistent config) {c : ClientRef}
    (hne : c.publicId ≠ s.dataSender.publicId)
    (ht : (s.expire c).takenForSender c.publicId = true) :
  s.buffer.EOF = true
  := by
  apply h.sender.resolve_left
  intro ha
  have hsender : s.dataSender ≠ c := fun heq => hne (congrArg ClientRef.publicId heq.symm)
  have hfalse : (s.expire c).takenForSender c.publicId = false :=
    takenForSender_eq_false.mpr ⟨alive_expire.mpr ⟨hsender, ha⟩, hne.symm⟩
  rw [ht] at hfalse
  cases hfalse

/-- The destruction of the last receiver ends the session only as a departure. -/
theorem LastDeparture.departure (h : s.Consistent config) (hl : s.listed = true) {op : Op}
    {c : ClientRef} (hop : s.LastDeparture op c) (hne : c.publicId ≠ s.dataSender.publicId)
    (hend : (s.apply config op).listed = false) :
  ∃ t, s.departure op = some (t, c.publicId) ∧ (t = s ∨ t = s.expire c)
  := by
  have hmem : c ∈ s.dataReceivers := (mem_liveReceivers.mp hop.receiver).1
  rcases hop.op with rfl | rfl
  · exact ⟨s, rfl, Or.inl rfl⟩
  · cases ht : (s.expire c).takenForSender c.publicId with
    | false =>
        use s.expire c
        use departure_eq_some.mpr
          (Or.inr ⟨c, rfl, rfl, rfl, h.receivers_mem c hmem, ht⟩)
        apply Or.inr rfl
    | true =>
        have he := EOF_of_takenForSender h hne ht
        have hnil : s.dataReceivers.isEmpty = false :=
          List.isEmpty_eq_false_iff.mpr (List.ne_nil_of_mem hmem)
        simp [apply, destroyClient_of_taken (h.receivers_mem c hmem) ht, hl, he, hnil] at hend

/-- The status a session in the default mode has after a departure that leaves no receiver
and ends the session. -/
theorem typeWithout_of_last (h : s.Consistent config) {publicId : String}
    (hauto : s.autoDropFreezeOnFirstChunk = false) (hr : s.remaining publicId = [])
    (hne : publicId ≠ s.dataSender.publicId) (hends : s.endsWithout publicId = true) :
  s.typeWithout publicId
    = if s.buffer.EOF = true
        ∧ (s.buffer.removeOneFromExpectedConsumers publicId).1.chunkCount = 0
      then .ok else .noReceivers
  := by
  cases hf : s.buffer.initialChunksFreezing with
  | true =>
      have hrem : s.buffer.someChunkWasRemoved = false := by
        apply Bool.eq_false_of_not_eq_true
        intro hrem
        rw [h.buffer.freezing hrem] at hf
        cases hf
      have hdes : s.desertedWithout publicId = false := by
        simp [desertedWithout, hauto, hrem, hf]
      have hab : s.abandonedWithout publicId = true := by
        simpa [endsWithout, hdes] using hends
      have he : s.buffer.EOF = true := by
        cases hexp : s.expelled publicId with
        | none => simp [abandonedWithout, hexp] at hab
        | some c =>
            obtain ⟨-, -, rfl, -⟩ := expelled_eq_some hexp
            simp only [abandonedWithout, hexp, Option.any_some, Bool.and_eq_true] at hab
            apply EOF_of_takenForSender h hne hab.1.2
      -- frozen chunks stay when a consumer goes
      have hcount : (s.buffer.removeOneFromExpectedConsumers publicId).1.chunkCount ≠ 0 := by
        rw [ne_eq, Buffer.chunkCount_removeOne_eq_zero publicId (h.pending hf he), hf]
        simp
      simp [typeWithout, hdes, hab, he, hcount]
  | false =>
      have hdes : s.desertedWithout publicId = true := by
        simp [desertedWithout, hr, hf]
      simp [typeWithout, hdes, hauto]

/-- The departing receiver finds the upload finished and no chunk left when none was left
before, and when his own departure takes the last ones. -/
theorem finished_removeOne_iff {publicId : String}
    (hmem : publicId ∈ s.buffer.expectedConsumers) :
  s.buffer.EOF = true ∧ (s.buffer.removeOneFromExpectedConsumers publicId).1.chunkCount = 0
    ↔ (s.buffer.EOF = true ∧ s.buffer.chunkCount = 0) ∨ s.TakesLastChunks publicId
  := by
  by_cases hcount : s.buffer.chunkCount = 0
  · have hcount' : (s.buffer.removeOneFromExpectedConsumers publicId).1.chunkCount = 0 := by
      have hle := s.buffer.chunkCount_removeOne_le publicId
      omega
    simp [hcount, hcount', TakesLastChunks]
  · have hzero := Buffer.chunkCount_removeOne_eq_zero publicId hcount
    simp only [hzero, hcount, and_false, false_or, TakesLastChunks, ne_eq, not_false_eq_true,
      hmem, true_and]
    apply and_left_comm

/-- The status in the `complete` event, when the departure of the last receiver ends a
session in the default mode. -/
theorem complete_of_lastDeparture {sender : ClientRef}
    (hs : Machine.Reachable (step config) (create sender false) s) (hl : s.listed = true)
    {op : Op} {c : ClientRef} (hop : s.LastDeparture op c)
    (hne : c.publicId ≠ s.dataSender.publicId) (hend : (s.step config op).listed = false) :
  (s.step config op).events.getLast? = some (.complete
    (if s.buffer.EOF = true
        ∧ (s.buffer.removeOneFromExpectedConsumers c.publicId).1.chunkCount = 0
      then .ok else .noReceivers))
  := by
  have h : s.Consistent config := Consistent.of_reachable hs hl
  obtain ⟨hmem, halive⟩ := mem_liveReceivers.mp hop.receiver
  have henabled : s.enabled op = true := by
    rcases hop.op with rfl | rfl
    · rfl
    · apply halive
  rw [step_of_enabled hl henabled] at hend ⊢
  have hend' : (s.apply config op).listed = false := by
    by_contra hlist
    rw [finish_of_listed (Bool.eq_true_of_not_eq_false hlist)] at hend
    apply hlist hend
  obtain ⟨t, hd, ht⟩ := hop.departure h hl hne hend'
  have hsame : t.buffer = s.buffer ∧ t.dataSender = s.dataSender ∧ t.listed = s.listed
      ∧ t.dataReceivers = s.dataReceivers
      ∧ t.autoDropFreezeOnFirstChunk = s.autoDropFreezeOnFirstChunk := by
    rcases ht with rfl | rfl <;> exact ⟨rfl, rfl, rfl, rfl, rfl⟩
  have hr : t.remaining c.publicId = [] := by
    apply List.eq_nil_iff_forall_not_mem.mpr
    intro d hd
    obtain ⟨hdmem, hdalive, hdne⟩ := mem_remaining.mp hd
    have hdalive' : s.alive d = true := by
      rcases ht with rfl | rfl
      · apply hdalive
      · apply (alive_expire.mp hdalive).2
    rw [hsame.2.2.2.1] at hdmem
    apply hdne
    rw [hop.last d (mem_liveReceivers.mpr ⟨hdmem, hdalive'⟩)]
  rw [apply_of_departure hd] at hend' ⊢
  have hends : t.endsWithout c.publicId = true := by
    simpa [hsame.2.2.1, hl] using hend'
  have hauto : t.autoDropFreezeOnFirstChunk = false := by
    rw [hsame.2.2.2.2]
    apply autoDropFreezeOnFirstChunk_of_reachable hs
  have htype := typeWithout_of_last (h.departure hd) hauto hr
    (by rw [hsame.2.1]; exact hne) hends
  rw [finish, if_neg (Bool.eq_false_iff.mp hend'), notify, List.getLast?_concat,
    completeType_removeReceiver, htype, hsame.1]

end TransferSession

namespace History

variable {config : Config} {h : History}

/-- Every receiver has confirmed every accepted chunk. -/
def ConfirmedByReceivers (h : History) : Prop :=
  ∀ c ∈ h.session.liveReceivers, ∀ i < h.log.length, (c, i + 1) ∈ h.confirmed

instance : Decidable h.ConfirmedByReceivers :=
  inferInstanceAs (Decidable (∀ c ∈ h.session.liveReceivers, ∀ i < h.log.length, _))

/-- The status the session should end with when its last receiver leaves: `ok` when the
upload is finished and every chunk has been confirmed and removed. -/
def deliveryStatus (h : History) : TransferSessionCompleteType :=
  if h.session.buffer.EOF = true ∧ h.session.buffer.chunkCount = 0 ∧ h.ConfirmedByReceivers
  then .ok else .noReceivers

/-- No chunk of the finished upload is left, and one of them was removed that a receiver had
not confirmed. -/
def LostChunks (h : History) : Prop :=
  h.session.buffer.EOF = true ∧ h.session.buffer.chunkCount = 0
    ∧ ∃ c ∈ h.session.liveReceivers, ∃ i < h.log.length, (c, i + 1) ∉ h.confirmed

instance : Decidable h.LostChunks :=
  inferInstanceAs
    (Decidable (_ ∧ _ ∧ ∃ c ∈ h.session.liveReceivers, ∃ i < h.log.length, _))

/-- As long as the operations keep the counts, no chunk is lost. -/
theorem not_lostChunks_of_keepsCounts {sender : ClientRef} {auto : Bool}
    {ops : List TransferSession.Op}
    (hops : Machine.EveryStep (step config) (WhenApplied KeepsCounts) (create sender auto) ops) :
  Machine.EveryState (step config) (WhileListed (¬ LostChunks ·)) (create sender auto) ops
  := by
  apply (everyState_tracks hops).mono
  intro h hs hl
  obtain ⟨hc, L, ht⟩ := hs hl
  rintro ⟨-, hcount, r, hr, i, hi, hno⟩
  have hmax : i + 1 ≤ h.session.buffer.chunksMaxIndex := by
    rw [← ht.implements.length, ht.log]
    apply hi
  rcases ht.noDataLoss hc r hr (i + 1) (by omega) hmax with hconf | ⟨data, hget, -⟩
  · apply hno hconf
  · rw [Buffer.get_snd, Buffer.chunkCount_eq_zero.mp hcount] at hget
    cases hget

theorem lostChunks_iff :
  h.LostChunks ↔ h.session.buffer.EOF = true ∧ h.session.buffer.chunkCount = 0
    ∧ ¬ h.ConfirmedByReceivers
  := by
  simp [LostChunks, ConfirmedByReceivers]

/-- The buffer after the departure tells whether the file was delivered exactly when the
departure does not take the last chunks and none was lost before. -/
theorem finished_eq_deliveryStatus_iff {publicId : String}
    (hmem : publicId ∈ h.session.buffer.expectedConsumers) :
  (if h.session.buffer.EOF = true
        ∧ (h.session.buffer.removeOneFromExpectedConsumers publicId).1.chunkCount = 0
      then TransferSessionCompleteType.ok else .noReceivers) = h.deliveryStatus
    ↔ ¬ h.session.TakesLastChunks publicId ∧ ¬ h.LostChunks
  := by
  have hfinished := TransferSession.finished_removeOne_iff hmem
  rw [deliveryStatus, lostChunks_iff]
  by_cases ht : h.session.TakesLastChunks publicId
  · have hcount : h.session.buffer.chunkCount ≠ 0 := ht.2.2.1
    rw [if_pos (hfinished.mpr (Or.inr ht)), if_neg (fun hall => hcount hall.2.1)]
    simp [ht]
  · by_cases hdone : h.session.buffer.EOF = true ∧ h.session.buffer.chunkCount = 0
    · rw [if_pos (hfinished.mpr (Or.inl hdone))]
      by_cases hall : h.ConfirmedByReceivers
      · simp [hdone, hall, ht]
      · simp [hdone, hall]
    · have hno : ¬ (h.session.buffer.EOF = true
          ∧ (h.session.buffer.removeOneFromExpectedConsumers publicId).1.chunkCount = 0) :=
        fun hall => (hfinished.mp hall).elim hdone ht
      rw [if_neg hno, if_neg (fun hall => hdone ⟨hall.1, hall.2.1⟩)]
      simp only [true_iff]
      exact ⟨ht, fun hall => hdone ⟨hall.1, hall.2.1⟩⟩

/-- When the departure of the last receiver ends a session in the default mode, the
`complete` event tells whether the file was delivered, exactly when the departure does not
itself remove the last chunks of a finished upload and no chunk was removed before that the
receiver had not confirmed. The receiver is not the sender: a client that has joined a
session, as the sender has, is not let in again. -/
theorem complete_lastDeparture_iff (config : Config) (sender : ClientRef)
    {h : History} (hs : Machine.Reachable (step config) (create sender false) h)
    (hl : h.session.listed = true) {op : TransferSession.Op} {c : ClientRef}
    (hop : h.session.LastDeparture op c)
    (hne : c.publicId ≠ h.session.dataSender.publicId)
    (hend : (h.session.step config op).listed = false) :
  (h.session.step config op).events.getLast? = some (.complete h.deliveryStatus)
    ↔ ¬ h.session.TakesLastChunks c.publicId ∧ ¬ h.LostChunks
  := by
  have hreach : Machine.Reachable (TransferSession.step config)
      (TransferSession.create sender false) h.session := by
    obtain ⟨ops, rfl⟩ := hs
    use ops
    rw [session_run]
    rfl
  have hc : h.session.Consistent config := TransferSession.Consistent.of_reachable hreach hl
  obtain ⟨hmem, halive⟩ := TransferSession.mem_liveReceivers.mp hop.receiver
  rw [← finished_eq_deliveryStatus_iff (hc.expected c hmem),
    TransferSession.complete_of_lastDeparture hreach hl hop hne hend, Option.some.injEq,
    Event.complete.injEq]

/-! ### Undelivered files -/

/-- A run in which the upload is finished and Alice has confirmed nothing. -/
def nothingConfirmed : List TransferSession.Op :=
  [.addReceiver TransferSession.Sample.alice, .setFileInfo TransferSession.Sample.info,
    .addChunk [1], .setEndOfFile, .dropInitialChunksFreeze]

/-- A run in which Alice and Bob confirm one of two chunks each and Alice leaves, which
removes both. -/
def sharedOut : List TransferSession.Op :=
  [.addReceiver TransferSession.Sample.alice, .addReceiver TransferSession.Sample.bob,
    .setFileInfo TransferSession.Sample.info, .addChunk [1], .addChunk [2],
    .dropInitialChunksFreeze, .setChunkAsReceived 1 TransferSession.Sample.alice,
    .setChunkAsReceived 2 TransferSession.Sample.bob, .setEndOfFile, .removeReceiver "A"]

example :
  LostChunks (Machine.run (step TransferSession.Sample.config)
    (create TransferSession.Sample.sender false) sharedOut)
  := by
  decide

theorem lastDeparture_nothingConfirmed :
  TransferSession.LastDeparture (Machine.run (step TransferSession.Sample.config)
      (create TransferSession.Sample.sender false) nothingConfirmed).session
    (.removeReceiver "A") TransferSession.Sample.alice
  := by
  refine ⟨?_, ?_, Or.inl rfl⟩
  · decide
  · decide

theorem complete_lastDeparture_iff_nothingConfirmed :
  (TransferSession.step TransferSession.Sample.config
      (Machine.run (step TransferSession.Sample.config)
        (create TransferSession.Sample.sender false) nothingConfirmed).session
      (.removeReceiver "A")).events.getLast?
      = some (.complete (deliveryStatus (Machine.run (step TransferSession.Sample.config)
          (create TransferSession.Sample.sender false) nothingConfirmed)))
    ↔ ¬ TransferSession.TakesLastChunks (Machine.run (step TransferSession.Sample.config)
          (create TransferSession.Sample.sender false) nothingConfirmed).session "A"
      ∧ ¬ LostChunks (Machine.run (step TransferSession.Sample.config)
          (create TransferSession.Sample.sender false) nothingConfirmed)
  := by
  apply complete_lastDeparture_iff TransferSession.Sample.config TransferSession.Sample.sender
    ⟨nothingConfirmed, rfl⟩ _ lastDeparture_nothingConfirmed
  · decide
  · decide
  · decide

/-- When Alice leaves after that run, the session ends with the status `ok`. -/
theorem complete_ok_nothingConfirmed :
  ¬ ∀ (config : Config) (sender : ClientRef) (h : History),
      Machine.Reachable (step config) (create sender false) h → h.session.listed = true →
      ∀ (op : TransferSession.Op) (c : ClientRef), h.session.LastDeparture op c →
        c.publicId ≠ h.session.dataSender.publicId →
        (h.session.step config op).listed = false →
        (h.session.step config op).events.getLast? = some (.complete h.deliveryStatus)
  := by
  intro h
  have hcomplete := h TransferSession.Sample.config TransferSession.Sample.sender _
    ⟨nothingConfirmed, rfl⟩ (by decide) (.removeReceiver "A") TransferSession.Sample.alice
    lastDeparture_nothingConfirmed (by decide) (by decide)
  revert hcomplete
  decide

end History

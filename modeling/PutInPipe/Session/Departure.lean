import PutInPipe.Session.Lemmas

/-!
# Departures

What `removeReceiver` does, computed from the state before it: the receivers that remain,
the client that is destroyed because it has no live WebSocket to acknowledge the `kicked`
message, whether the session ends, and with which status.
-/

open TransferSessionDetails

namespace TransferSession

variable {config : Config} {s : TransferSession}

/-- The client that `removeReceiver` destroys: the removed one, if it has no live
WebSocket. -/
def expelled (s : TransferSession) (publicId : String) : Option ClientRef :=
  (s.removedClient publicId).filter (fun client => client ∉ s.connected)

/-- No receiver remains, and nobody can join any more or the session is in the automatic
mode. -/
def desertedWithout (s : TransferSession) (publicId : String) : Bool :=
  (s.remaining publicId).isEmpty
    && (s.autoDropFreezeOnFirstChunk || s.buffer.someChunkWasRemoved
      || !s.buffer.initialChunksFreezing)

/-- The destruction of the removed client is taken for the departure of the sender, and
ends the session. -/
def abandonedWithout (s : TransferSession) (publicId : String) : Bool :=
  (s.expelled publicId).any (fun client =>
    decide (client ∈ s.subscribers) && (s.expire client).takenForSender publicId
      && (!s.buffer.EOF || (s.remaining publicId).isEmpty))

/-- The departure of the receiver ends the session. -/
def endsWithout (s : TransferSession) (publicId : String) : Bool :=
  s.desertedWithout publicId || s.abandonedWithout publicId

/-- The status of the session after the departure. -/
def typeWithout (s : TransferSession) (publicId : String) : TransferSessionCompleteType :=
  if s.desertedWithout publicId then
    if s.autoDropFreezeOnFirstChunk then .ok
    else if s.buffer.EOF
        && (s.buffer.removeOneFromExpectedConsumers publicId).1.chunkCount == 0 then .ok
    else .noReceivers
  else if s.abandonedWithout publicId then
    if s.buffer.EOF then .noReceivers else .senderIsGone
  else s.completeType

/-! ### The receivers that remain -/

theorem alive_iff {c : ClientRef} :
  s.alive c = true ↔ c ∉ s.destroyed
  := decide_eq_true_iff

theorem alive_expire {c x : ClientRef} :
  (s.expire c).alive x = true ↔ x ≠ c ∧ s.alive x = true
  := by
  rw [alive_iff, alive_iff, expire, List.mem_cons, not_or]

theorem mem_remaining {publicId : String} {c : ClientRef} :
  c ∈ s.remaining publicId ↔ c ∈ s.dataReceivers ∧ s.alive c = true ∧ c.publicId ≠ publicId
  := by
  simp [remaining]

theorem mem_liveReceivers {c : ClientRef} :
  c ∈ s.liveReceivers ↔ c ∈ s.dataReceivers ∧ s.alive c = true
  := by
  simp [liveReceivers]

theorem removedClient_eq_some {publicId : String} {c : ClientRef}
    (h : s.removedClient publicId = some c) :
  c ∈ s.dataReceivers ∧ s.alive c = true ∧ c.publicId = publicId
  := by
  have hmem := List.mem_of_getLast? h
  simpa [and_assoc] using hmem

theorem expelled_eq_some {publicId : String} {c : ClientRef}
    (h : s.expelled publicId = some c) :
  c ∈ s.dataReceivers ∧ s.alive c = true ∧ c.publicId = publicId ∧ c ∉ s.connected
  := by
  obtain ⟨hc, hn⟩ := Option.filter_eq_some_iff.mp h
  obtain ⟨hr, ha, hp⟩ := removedClient_eq_some hc
  exact ⟨hr, ha, hp, by simpa using hn⟩

theorem takenForSender_eq_false {publicId : String} :
  s.takenForSender publicId = false
    ↔ s.alive s.dataSender = true ∧ s.dataSender.publicId ≠ publicId
  := by
  simp [takenForSender]

/-- A sender that is expelled as a receiver leaves before the upload is finished. -/
theorem abandonedWithout_of_sender {publicId : String}
    (h : s.expelled publicId = some s.dataSender) (hmem : s.dataSender ∈ s.subscribers)
    (he : s.buffer.EOF = false) :
  s.abandonedWithout publicId = true
  := by
  have htaken : (s.expire s.dataSender).takenForSender publicId = true := by
    apply Bool.eq_true_of_not_eq_false
    intro ht
    apply (alive_expire.mp (takenForSender_eq_false.mp ht).1).1 rfl
  simp [abandonedWithout, h, hmem, htaken, he]

/-! ### Termination -/

theorem terminateIfDeserted_eq (s : TransferSession) (noReceiversLeft : Bool) :
  s.terminateIfDeserted noReceiversLeft
    = { s with
        listed := s.listed && !(noReceiversLeft && (s.autoDropFreezeOnFirstChunk
          || s.buffer.someChunkWasRemoved || !s.buffer.initialChunksFreezing))
        completeType :=
          if noReceiversLeft && (s.autoDropFreezeOnFirstChunk
              || s.buffer.someChunkWasRemoved || !s.buffer.initialChunksFreezing) then
            if s.autoDropFreezeOnFirstChunk then .ok
            else if s.buffer.EOF && s.buffer.chunkCount == 0 then .ok
            else .noReceivers
          else s.completeType }
  := by
  cases noReceiversLeft with
  | false => simp [terminateIfDeserted]
  | true =>
      by_cases ha : s.autoDropFreezeOnFirstChunk = true
      · simp [terminateIfDeserted, terminate, removeFromList, ha]
      · by_cases hr : (s.buffer.someChunkWasRemoved || !s.buffer.initialChunksFreezing) = true
        · by_cases he : (s.buffer.EOF && s.buffer.chunkCount == 0) = true
          · simp [terminateIfDeserted, terminate, removeFromList, ha, hr, he, Buffer.eof,
              Buffer.someChunksWasRemoved]
          · simp [terminateIfDeserted, terminate, removeFromList, ha, hr, he, Buffer.eof,
              Buffer.someChunksWasRemoved]
        · have hd : (true && (s.autoDropFreezeOnFirstChunk || s.buffer.someChunkWasRemoved
              || !s.buffer.initialChunksFreezing)) = false := by
            rw [Bool.true_and, Bool.or_assoc, Bool.eq_false_of_not_eq_true ha, Bool.false_or,
              Bool.eq_false_of_not_eq_true hr]
          rw [terminateIfDeserted, if_pos rfl, if_neg ha, Buffer.someChunksWasRemoved,
            if_neg hr, hd]
          simp only [Bool.not_false, Bool.and_true, Bool.false_eq_true, if_false]

/-! ### The call from the destructor -/

/-- A departure that finds nobody to remove only announces itself, and ends the session
when it is deserted. -/
theorem removeReceiverWith_of_gone (kick : ClientRef → TransferSession → TransferSession)
    {publicId : String} (hr : ∀ c ∈ s.dataReceivers, s.alive c = true ∧ c.publicId ≠ publicId)
    (hb : publicId ∉ s.buffer.expectedConsumers) :
  s.removeReceiverWith kick publicId
    = (s.notify (.receiverRemoved publicId)).terminateIfDeserted s.dataReceivers.isEmpty
  := by
  have hclient : s.removedClient publicId = none := by
    apply Option.eq_none_iff_forall_ne_some.mpr
    intro c hc
    obtain ⟨hmem, -, hp⟩ := removedClient_eq_some hc
    apply (hr c hmem).2 hp
  have hremaining : s.remaining publicId = s.dataReceivers := by
    apply List.filter_eq_self.mpr
    intro c hc
    simp [hr c hc]
  rw [removeReceiverWith, hclient, hremaining,
    Buffer.removeOneFromExpectedConsumers_of_notMem hb]
  simp only [notifyRemoved, List.isEmpty_nil, if_true]

/-- Kicking a removed client that has no live WebSocket. Its destructor is taken for the
departure of the sender, or calls `removeReceiver` once more. -/
theorem kick_of_gone {c : ClientRef} (hconn : c ∉ s.connected)
    (hr : ∀ x ∈ s.dataReceivers, s.alive x = true ∧ x.publicId ≠ c.publicId)
    (hb : c.publicId ∉ s.buffer.expectedConsumers) :
  kick c s
    = if c ∈ s.subscribers then
        if (s.expire c).takenForSender c.publicId then
          if s.buffer.EOF then
            if s.dataReceivers.isEmpty then (s.expire c).terminate .noReceivers
            else s.expire c
          else (s.expire c).terminate .senderIsGone
        else
          ((s.expire c).notify (.receiverRemoved c.publicId)).terminateIfDeserted
            s.dataReceivers.isEmpty
      else s.expire c
  := by
  have hr' : ∀ x ∈ (s.expire c).dataReceivers,
      (s.expire c).alive x = true ∧ x.publicId ≠ c.publicId := by
    intro x hx
    obtain ⟨ha, hp⟩ := hr x hx
    have hne : x ≠ c := fun h => hp (congrArg ClientRef.publicId h)
    exact ⟨alive_expire.mpr ⟨hne, ha⟩, hp⟩
  have hinner := removeReceiverWith_of_gone (s := s.expire c) (fun _ s => s) hr' hb
  rw [kick, if_neg hconn]
  simp only [destroyWith, update, hinner]
  rfl

/-- The kick in one record. Whether the session is still listed, and its status, matter
only when the session is not deserted. -/
theorem kick_spec {c : ClientRef} (hconn : c ∉ s.connected)
    (hr : ∀ x ∈ s.dataReceivers, s.alive x = true ∧ x.publicId ≠ c.publicId)
    (hb : c.publicId ∉ s.buffer.expectedConsumers) {abandoned : Bool}
    (ha : abandoned = (decide (c ∈ s.subscribers)
      && (s.expire c).takenForSender c.publicId && (!s.buffer.EOF || s.dataReceivers.isEmpty))) :
  ∃ es listed type, Event.Quiet es
    ∧ kick c s = { s with
        destroyed := c :: s.destroyed
        listed := listed
        completeType := type
        events := s.events ++ es }
    ∧ ((s.dataReceivers.isEmpty && (s.autoDropFreezeOnFirstChunk
          || s.buffer.someChunkWasRemoved || !s.buffer.initialChunksFreezing)) = false →
        listed = (s.listed && !abandoned)
          ∧ type = if abandoned then if s.buffer.EOF then .noReceivers else .senderIsGone
            else s.completeType)
  := by
  have hnil : Event.Quiet [] := List.forall_mem_nil _
  rw [kick_of_gone hconn hr hb]
  by_cases hsub : c ∈ s.subscribers
  · rw [if_pos hsub]
    by_cases ht : (s.expire c).takenForSender c.publicId = true
    · rw [if_pos ht]
      by_cases he : s.buffer.EOF = true
      · rw [if_pos he]
        by_cases hempty : s.dataReceivers.isEmpty = true
        · rw [if_pos hempty]
          refine ⟨[], false, .noReceivers, hnil, ?_, ?_⟩
          · rw [List.append_nil]
            rfl
          · simp [ha, hsub, ht, he, hempty]
        · rw [if_neg hempty]
          refine ⟨[], s.listed, s.completeType, hnil, ?_, ?_⟩
          · rw [List.append_nil]
            rfl
          · simp [ha, hsub, ht, he, hempty]
      · rw [if_neg he]
        refine ⟨[], false, .senderIsGone, hnil, ?_, ?_⟩
        · rw [List.append_nil]
          rfl
        · simp [ha, hsub, ht, he]
    · rw [if_neg ht, terminateIfDeserted_eq]
      refine ⟨[.receiverRemoved c.publicId], _, _, Event.quiet_singleton rfl, rfl, ?_⟩
      have hno : abandoned = false := by
        rw [ha, Bool.eq_false_of_not_eq_true ht, Bool.and_false, Bool.false_and]
      intro hd
      simp only [notify, expire, hd, hno, Bool.not_false, Bool.and_true, Bool.false_eq_true,
        if_false, and_self]
  · rw [if_neg hsub]
    refine ⟨[], s.listed, s.completeType, hnil, ?_, ?_⟩
    · rw [List.append_nil]
      rfl
    · simp [ha, hsub]

/-! ### The whole departure -/

/-- The session without the receiver. -/
def without (s : TransferSession) (publicId : String) : TransferSession :=
  { s with
    dataReceivers := s.remaining publicId
    buffer := (s.buffer.removeOneFromExpectedConsumers publicId).1 }

/-- `removeReceiver`, step by step. -/
theorem removeReceiver_eq (publicId : String) (s : TransferSession) :
  s.removeReceiver publicId
    = ((match s.removedClient publicId with
        | some client =>
            kick client
              (((s.without publicId).notifyRemoved
                (s.buffer.removeOneFromExpectedConsumers publicId).2).notify (.kicked client))
        | none =>
            (s.without publicId).notifyRemoved
              (s.buffer.removeOneFromExpectedConsumers publicId).2
      ).notify (.receiverRemoved publicId)).terminateIfDeserted (s.remaining publicId).isEmpty
  := rfl

theorem desertedWithout_eq (publicId : String) :
  ((s.remaining publicId).isEmpty && (s.autoDropFreezeOnFirstChunk
      || (s.buffer.removeOneFromExpectedConsumers publicId).1.someChunkWasRemoved
      || !(s.buffer.removeOneFromExpectedConsumers publicId).1.initialChunksFreezing))
    = s.desertedWithout publicId
  := by
  rw [desertedWithout, Bool.or_assoc, Bool.or_assoc, Buffer.someChunkWasRemoved_removeOne_or]

/-- A departure, in one record: what remains, who was destroyed, whether the session goes
on and with which status. -/
theorem removeReceiver_spec (publicId : String) (s : TransferSession) :
  ∃ es, Event.Quiet es ∧ s.removeReceiver publicId
    = { s with
        dataReceivers := s.remaining publicId
        buffer := (s.buffer.removeOneFromExpectedConsumers publicId).1
        destroyed := (s.expelled publicId).toList ++ s.destroyed
        listed := s.listed && !s.endsWithout publicId
        completeType := s.typeWithout publicId
        events := s.events ++ es }
  := by
  have hq := quiet_removedEvents (s.buffer.removeOneFromExpectedConsumers publicId).2
  have hend : Event.Quiet [.receiverRemoved publicId] := Event.quiet_singleton rfl
  have hdes := s.desertedWithout_eq publicId
  rw [removeReceiver_eq]
  cases hexp : s.expelled publicId with
  | none =>
      -- either nobody is removed, or the removed client has a live WebSocket
      have hab : s.abandonedWithout publicId = false := by
        rw [abandonedWithout, hexp]
        rfl
      cases hc : s.removedClient publicId with
      | none =>
          refine ⟨_, hq.append hend, ?_⟩
          simp only [terminateIfDeserted_eq, notify, notifyRemoved_eq, without, hdes]
          simp [endsWithout, typeWithout, hab]
      | some c =>
          have hconn : c ∈ s.connected := by
            by_contra hn
            rw [expelled, hc, Option.filter_some_pos (by simpa using hn)] at hexp
            cases hexp
          have hk : Event.Quiet [.kicked c] := Event.quiet_singleton rfl
          refine ⟨_, (hq.append hk).append hend, ?_⟩
          simp only [terminateIfDeserted_eq, notify, notifyRemoved_eq, without, hdes, kick,
            if_pos hconn]
          simp [endsWithout, typeWithout, hab]
  | some c =>
      obtain ⟨-, -, hp, hconn⟩ := expelled_eq_some hexp
      have hc : s.removedClient publicId = some c := (Option.filter_eq_some_iff.mp hexp).1
      have hk : Event.Quiet [.kicked c] := Event.quiet_singleton rfl
      have hr : ∀ x ∈ (s.without publicId).dataReceivers,
          s.alive x = true ∧ x.publicId ≠ c.publicId := by
        intro x hx
        rw [hp]
        apply (mem_remaining.mp hx).2
      have hb : c.publicId ∉ (s.without publicId).buffer.expectedConsumers := by
        simp [without, hp]
      have hab : s.abandonedWithout publicId = (decide (c ∈ s.subscribers)
          && (s.expire c).takenForSender c.publicId
          && (!(s.buffer.removeOneFromExpectedConsumers publicId).1.EOF
            || (s.remaining publicId).isEmpty)) := by
        rw [Buffer.EOF_removeOne, abandonedWithout, hexp, hp]
        rfl
      obtain ⟨fs, listed, type, hfs, hkick, hgo⟩ := kick_spec
        (s := { s.without publicId with
          events := s.events
            ++ removedEvents (s.buffer.removeOneFromExpectedConsumers publicId).2
            ++ [.kicked c] }) hconn hr hb hab
      refine ⟨_, ((hq.append hk).append hfs).append hend, ?_⟩
      simp only [hc, notifyRemoved_eq, notify, without] at hkick hgo ⊢
      rw [hkick]
      simp only [terminateIfDeserted_eq, hdes] at hgo ⊢
      cases hD : s.desertedWithout publicId with
      | true => simp [endsWithout, typeWithout, hD]
      | false =>
          obtain ⟨rfl, rfl⟩ := hgo hD
          simp [endsWithout, typeWithout, hD]

@[simp]
theorem dataReceivers_removeReceiver (publicId : String) (s : TransferSession) :
  (s.removeReceiver publicId).dataReceivers = s.remaining publicId
  := by
  obtain ⟨es, -, heq⟩ := s.removeReceiver_spec publicId
  rw [heq]

@[simp]
theorem buffer_removeReceiver (publicId : String) (s : TransferSession) :
  (s.removeReceiver publicId).buffer = (s.buffer.removeOneFromExpectedConsumers publicId).1
  := by
  obtain ⟨es, -, heq⟩ := s.removeReceiver_spec publicId
  rw [heq]

@[simp]
theorem listed_removeReceiver (publicId : String) (s : TransferSession) :
  (s.removeReceiver publicId).listed = (s.listed && !s.endsWithout publicId)
  := by
  obtain ⟨es, -, heq⟩ := s.removeReceiver_spec publicId
  rw [heq]

@[simp]
theorem completeType_removeReceiver (publicId : String) (s : TransferSession) :
  (s.removeReceiver publicId).completeType = s.typeWithout publicId
  := by
  obtain ⟨es, -, heq⟩ := s.removeReceiver_spec publicId
  rw [heq]

/-- The receivers that remain are alive after the departure. -/
theorem alive_removeReceiver {publicId : String} {c : ClientRef}
    (hc : c ∈ s.remaining publicId) :
  (s.removeReceiver publicId).alive c = true
  := by
  obtain ⟨es, -, heq⟩ := s.removeReceiver_spec publicId
  obtain ⟨-, ha, hp⟩ := mem_remaining.mp hc
  rw [heq, alive_iff, List.mem_append, not_or]
  constructor
  · intro hexp
    apply hp (expelled_eq_some (Option.mem_toList.mp hexp)).2.2.1
  · apply alive_iff.mp ha

/-! ### The destruction of a client -/

theorem destroyClient_of_stranger {c : ClientRef} (h : c ∉ s.subscribers) :
  s.destroyClient c = s.expire c
  := by
  simp only [destroyClient, destroyWith]
  apply if_neg h

/-- The destruction of a receiver is its departure. -/
theorem destroyClient_of_receiver {c : ClientRef} (h : c ∈ s.subscribers)
    (ht : (s.expire c).takenForSender c.publicId = false) :
  s.destroyClient c = (s.expire c).removeReceiver c.publicId
  := by
  have h' : c ∈ (s.expire c).subscribers := h
  simp only [destroyClient, destroyWith]
  rw [if_pos h', update, ht]
  rfl

/-- A destruction that is taken for the departure of the sender ends the session, unless
the upload is finished and the list of receivers is not empty. -/
theorem destroyClient_of_taken {c : ClientRef} (h : c ∈ s.subscribers)
    (ht : (s.expire c).takenForSender c.publicId = true) :
  s.destroyClient c
    = { s.expire c with
        listed := s.listed && (s.buffer.EOF && !s.dataReceivers.isEmpty)
        completeType :=
          if s.buffer.EOF then
            if s.dataReceivers.isEmpty then .noReceivers else s.completeType
          else .senderIsGone }
  := by
  have h' : c ∈ (s.expire c).subscribers := h
  simp only [destroyClient, destroyWith]
  rw [if_pos h', update, if_pos ht]
  cases he : s.buffer.EOF with
  | false => simp [expire, Buffer.eof, he, terminate, removeFromList]
  | true =>
      cases hr : s.dataReceivers.isEmpty with
      | false => simp [expire, Buffer.eof, he, hr]
      | true => simp [expire, Buffer.eof, he, hr, terminate, removeFromList]

/-- The departure an operation makes: the state in which `removeReceiver` is called, and
the public id it is called with. -/
def departure (s : TransferSession) : Op → Option (TransferSession × String)
  | .removeReceiver publicId => some (s, publicId)
  | .destroyClient client =>
      if client ∈ s.subscribers && !(s.expire client).takenForSender client.publicId then
        some (s.expire client, client.publicId)
      else none
  | _ => none

/-- A departure is a call of `removeReceiver`, or the destruction of a subscribed client
that is not taken for the sender. -/
theorem departure_eq_some {op : Op} {t : TransferSession} {publicId : String} :
  s.departure op = some (t, publicId)
    ↔ (op = .removeReceiver publicId ∧ t = s)
      ∨ ∃ c, op = .destroyClient c ∧ t = s.expire c ∧ publicId = c.publicId
        ∧ c ∈ s.subscribers ∧ (s.expire c).takenForSender c.publicId = false
  := by
  cases op with
  | removeReceiver p =>
      simp only [departure, Option.some.injEq, Prod.mk.injEq, Op.removeReceiver.injEq, reduceCtorEq,
        false_and, exists_false, or_false]
      tauto
  | destroyClient c =>
      simp only [departure, Option.ite_none_right_eq_some, Bool.and_eq_true, decide_eq_true_eq,
        Bool.not_eq_eq_eq_not, Bool.not_true, Option.some.injEq, Prod.mk.injEq, reduceCtorEq,
        false_and, Op.destroyClient.injEq, false_or]
      constructor
      · rintro ⟨⟨hmem, ht⟩, rfl, rfl⟩
        exact ⟨c, rfl, rfl, rfl, hmem, ht⟩
      · rintro ⟨_, rfl, rfl, rfl, hmem, ht⟩
        exact ⟨⟨hmem, ht⟩, rfl, rfl⟩
  | _ => simp [departure]

theorem apply_of_departure {op : Op} {t : TransferSession} {publicId : String}
    (h : s.departure op = some (t, publicId)) :
  s.apply config op = t.removeReceiver publicId
  := by
  rcases departure_eq_some.mp h with ⟨rfl, rfl⟩ | ⟨c, rfl, rfl, rfl, hmem, ht⟩
  · rfl
  · apply destroyClient_of_receiver hmem ht

/-- The destruction of a client that is no departure leaves the members alone. The session
is still listed after it only if the client is a stranger, or the upload is finished and
the list of receivers is not empty. -/
theorem destroyClient_of_departure_none {c : ClientRef}
    (h : s.departure (.destroyClient c) = none) :
  ∃ listed type,
    s.destroyClient c = { s.expire c with listed := listed, completeType := type }
      ∧ (listed = true → s.listed = true
        ∧ (c ∈ s.subscribers → s.buffer.EOF = true ∧ s.dataReceivers ≠ []))
  := by
  by_cases hmem : c ∈ s.subscribers
  · have ht : (s.expire c).takenForSender c.publicId = true := by
      apply Bool.eq_true_of_not_eq_false
      intro hf
      simp [departure, hmem, hf] at h
    refine ⟨_, _, destroyClient_of_taken hmem ht, ?_⟩
    intro hl
    simp only [Bool.and_eq_true, Bool.not_eq_eq_eq_not, Bool.not_true,
      List.isEmpty_eq_false_iff] at hl
    exact ⟨hl.1, fun _ => hl.2⟩
  · refine ⟨s.listed, s.completeType, destroyClient_of_stranger hmem, ?_⟩
    exact fun hl => ⟨hl, fun hc => absurd hc hmem⟩

/-! ### What the steps of a departure keep -/

/-- A relation between a session and what becomes of it that holds of the steps of a
departure. -/
structure Departs (R : TransferSession → TransferSession → Prop) : Prop where
  refl : ∀ s, R s s
  trans : ∀ {s t u}, R s t → R t u → R s u
  without : ∀ s publicId, R s ((s.without publicId).notifyRemoved
    (s.buffer.removeOneFromExpectedConsumers publicId).2)
  kicked : ∀ s c, R s (s.notify (.kicked c))
  receiverRemoved : ∀ s publicId, R s (s.notify (.receiverRemoved publicId))
  expire : ∀ s c, R s (s.expire c)
  terminate : ∀ s type, R s (s.terminate type)

namespace Departs

variable {R : TransferSession → TransferSession → Prop}

theorem terminateIfDeserted (h : Departs R) (s : TransferSession) (noReceiversLeft : Bool) :
  R s (s.terminateIfDeserted noReceiversLeft)
  := by
  rw [TransferSession.terminateIfDeserted]
  split_ifs
  · apply h.terminate
  · apply h.terminate
  · apply h.terminate
  · apply h.refl
  · apply h.refl

theorem removeReceiverWith (h : Departs R) {kick : ClientRef → TransferSession → TransferSession}
    (hkick : ∀ c s, R s (kick c s)) (publicId : String) (s : TransferSession) :
  R s (s.removeReceiverWith kick publicId)
  := by
  have hend : ∀ {t : TransferSession}, R s t →
      R s ((t.notify (.receiverRemoved publicId)).terminateIfDeserted
        (s.remaining publicId).isEmpty) := by
    intro t ht
    apply h.trans ht
    apply h.trans (h.receiverRemoved t publicId)
    apply h.terminateIfDeserted
  cases hc : s.removedClient publicId with
  | none =>
      simp only [TransferSession.removeReceiverWith, hc]
      apply hend (h.without s publicId)
  | some client =>
      simp only [TransferSession.removeReceiverWith, hc]
      apply hend
      apply h.trans (h.without s publicId)
      apply h.trans (h.kicked _ client)
      apply hkick

theorem destroyWith (h : Departs R) {remove : String → TransferSession → TransferSession}
    (hremove : ∀ publicId s, R s (remove publicId s)) (c : ClientRef) (s : TransferSession) :
  R s (s.destroyWith remove c)
  := by
  rw [TransferSession.destroyWith]
  apply h.trans (h.expire s c)
  split
  · rw [update]
    split_ifs
    · apply h.terminate
    · apply h.refl
    · apply h.terminate
    · apply hremove
  · apply h.refl

/-- A departure is made of its steps, and so is the departure within it when the removed
client is destroyed. -/
theorem removeReceiver (h : Departs R) (publicId : String) (s : TransferSession) :
  R s (s.removeReceiver publicId)
  := by
  apply h.removeReceiverWith
  intro c t
  rw [kick]
  split
  · apply h.refl
  · apply h.destroyWith
    intro publicId u
    apply h.removeReceiverWith
    exact fun _ v => h.refl v

theorem destroyClient (h : Departs R) (c : ClientRef) (s : TransferSession) :
  R s (s.destroyClient c)
  := by
  apply h.destroyWith
  apply h.removeReceiver

end Departs

end TransferSession

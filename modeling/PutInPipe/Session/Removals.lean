import PutInPipe.Session.Published

/-!
# Removing somebody who is no receiver

`removeReceiver` announces a departure, and ends a deserted session, whether or not it has
found a receiver to remove. It is called with any string that the sender sends, with the public
id of a client that is destroyed, and once more from within, by the destructor of a removed
client that has no live WebSocket.
-/

open TransferSessionDetails

/-- The event tells that a client with this public id has joined. -/
def Event.joins (publicId : String) : Event → Bool
  | .newReceiver c => c.publicId == publicId
  | _ => false

namespace TransferSession

variable {config : Config} {s t : TransferSession} {publicId : String}

/-- An entry of the list of receivers has this public id. -/
def HasReceiver (s : TransferSession) (publicId : String) : Prop :=
  ∃ c ∈ s.dataReceivers, c.publicId = publicId

/-- The state in which the destructor of the removed client is called. -/
def kickedState (s : TransferSession) (publicId : String) (client : ClientRef) :
    TransferSession :=
  ((s.without publicId).notifyRemoved
    (s.buffer.removeOneFromExpectedConsumers publicId).2).notify (.kicked client)

/-- The calls of `removeReceiver` in an operation, each with the state in which it is made. -/
def removals (s : TransferSession) (op : Op) : List (TransferSession × String) :=
  match s.departure op with
  | none => []
  | some (t, publicId) =>
      (t, publicId) ::
        if t.announcesTwice publicId then
          (t.expelled publicId).toList.map fun c => ((t.kickedState publicId c).expire c, publicId)
        else []

/-- The call announces no departure, and leaves the buffer and the list of sessions alone. -/
def RemovalIsInert (s : TransferSession) (publicId : String) : Prop :=
  (∀ id, .receiverRemoved id ∉ (s.removeReceiver publicId).events.drop s.events.length)
    ∧ (s.removeReceiver publicId).listed = s.listed
    ∧ (s.removeReceiver publicId).buffer = s.buffer

/-- Removing somebody who is no receiver has no effect. -/
def IgnoresStrangers (s : TransferSession) (op : Op) : Prop :=
  ∀ call ∈ s.removals op, ¬call.1.HasReceiver call.2 → call.1.RemovalIsInert call.2

/-- Nobody's departure is announced more often than he has joined. -/
def AnnouncesOnce (s : TransferSession) : Prop :=
  ∀ publicId, s.events.count (.receiverRemoved publicId) ≤ s.events.countP (Event.joins publicId)

/-- A departure is that of an entry of the list, and the removed client is not destroyed
meanwhile by a destructor that announces it too. -/
def RemovesReceivers (s : TransferSession) (op : Op) : Prop :=
  ∀ t publicId, s.departure op = some (t, publicId) →
    t.HasReceiver publicId ∧ t.announcesTwice publicId = false

/-! ### The calls -/

/-- A call always announces the departure. -/
theorem not_removalIsInert (s : TransferSession) (publicId : String) :
  ¬s.RemovalIsInert publicId
  := by
  rintro ⟨hsilent, -⟩
  apply hsilent publicId
  rw [events_removeReceiver, List.drop_left, departureEvents]
  apply List.mem_append_right
  rw [List.mem_replicate]
  split <;> simp

/-- Where the destructor announces the departure too, it calls `removeReceiver`, with the public
id of somebody who is no receiver any more. -/
theorem kick_of_announcesTwice (h : s.announcesTwice publicId = true) :
  ∃ c, s.expelled publicId = some c
    ∧ kick c (s.kickedState publicId c)
      = ((s.kickedState publicId c).expire c).removeReceiver publicId
    ∧ ¬((s.kickedState publicId c).expire c).HasReceiver publicId
  := by
  obtain ⟨c, hc, htwice⟩ := (Option.any_eq_true _ _).mp h
  rw [Bool.and_eq_true, decide_eq_true_eq, Bool.not_eq_true'] at htwice
  obtain ⟨-, -, rfl, hconn⟩ := expelled_eq_some hc
  have hsame : s.kickedState c.publicId c
      = { s.without c.publicId with events := (s.kickedState c.publicId c).events } := by
    rw [kickedState, notifyRemoved_eq]
    rfl
  have hr : ∀ x ∈ ((s.kickedState c.publicId c).expire c).dataReceivers,
      ((s.kickedState c.publicId c).expire c).alive x = true ∧ x.publicId ≠ c.publicId := by
    rw [hsame]
    intro x hx
    obtain ⟨-, halive, hne⟩ := mem_remaining.mp hx
    refine ⟨alive_expire.mpr ⟨fun heq => hne (congrArg ClientRef.publicId heq), halive⟩, hne⟩
  have hb : c.publicId ∉ ((s.kickedState c.publicId c).expire c).buffer.expectedConsumers := by
    rw [hsame]
    simp [without, expire]
  have htaken : ((s.kickedState c.publicId c).expire c).takenForSender c.publicId = false := by
    rw [hsame]
    apply htwice.2
  have hconn' : c ∉ (s.kickedState c.publicId c).connected := by
    rw [hsame]
    apply hconn
  have hsub : c ∈ ((s.kickedState c.publicId c).expire c).subscribers := by
    rw [hsame]
    apply htwice.1
  refine ⟨c, hc, ?_, ?_⟩
  · rw [kick, if_neg hconn', removeReceiver, removeReceiverWith_of_gone kick hr hb]
    simp only [destroyWith, if_pos hsub, update, htaken, Bool.false_eq_true, if_false]
    apply removeReceiverWith_of_gone _ hr hb
  · rintro ⟨x, hx, heq⟩
    apply (hr x hx).2 heq

/-- A step ignores strangers exactly when it removes receivers only. -/
theorem ignoresStrangers_iff {op : Op} :
  s.IgnoresStrangers op ↔ s.RemovesReceivers op
  := by
  cases hd : s.departure op with
  | none => simp [IgnoresStrangers, RemovesReceivers, removals, hd]
  | some d =>
      obtain ⟨t, publicId⟩ := d
      have hcall : ∀ (u : TransferSession) (id : String),
          (¬u.HasReceiver id → u.RemovalIsInert id) ↔ u.HasReceiver id := by
        intro u id
        rw [← not_iff_not, Classical.not_imp, and_iff_left (not_removalIsInert u id)]
      simp only [IgnoresStrangers, RemovesReceivers, removals, hd, hcall, Option.some.injEq,
        Prod.mk.injEq, and_imp, List.forall_mem_cons]
      cases htwice : t.announcesTwice publicId with
      | true =>
          obtain ⟨c, hc, -, hgone⟩ := kick_of_announcesTwice htwice
          apply iff_of_false
          · rintro ⟨-, hinner⟩
            apply hgone
            apply hinner ((t.kickedState publicId c).expire c, publicId)
            rw [if_pos rfl, hc]
            apply List.mem_singleton_self
          · intro h
            rw [(h t publicId rfl rfl).2] at htwice
            cases htwice
      | false =>
          constructor
          · rintro ⟨houter, -⟩ t' id rfl rfl
            exact ⟨houter, htwice⟩
          · intro h
            exact ⟨(h t publicId rfl rfl).1, List.forall_mem_nil _⟩

/-! ### Counting the announcements -/

/-- Every announced departure and every entry of the list goes back to a joining of its own. -/
def Accounted (s : TransferSession) : Prop :=
  ∀ publicId,
    s.events.count (.receiverRemoved publicId) + s.dataReceivers.countP (·.publicId == publicId)
      ≤ s.events.countP (Event.joins publicId)

theorem Accounted.announcesOnce (h : s.Accounted) :
  s.AnnouncesOnce
  := fun publicId => Nat.le_trans (Nat.le_add_right ..) (h publicId)

/-- Events that tell neither that somebody has joined nor that somebody has left leave the
account as it is. -/
theorem Accounted.of_events {es : List Event} (h : s.Accounted)
    (hevents : t.events = s.events ++ es)
    (hjoins : ∀ publicId, es.countP (Event.joins publicId) = 0)
    (hremoved : ∀ publicId, .receiverRemoved publicId ∉ es)
    (hreceivers : t.dataReceivers = s.dataReceivers) :
  t.Accounted
  := by
  intro publicId
  rw [hevents, hreceivers, List.count_append, List.countP_append, hjoins,
    List.count_eq_zero_of_not_mem (hremoved publicId)]
  apply h publicId

theorem countP_joins_departureEvents (s : TransferSession) (publicId id : String) :
  (s.departureEvents publicId).countP (Event.joins id) = 0
  := by
  rw [List.countP_eq_zero]
  intro e he
  obtain ⟨_, rfl⟩ | ⟨_, -, rfl⟩ | rfl := mem_departureEvents he
  all_goals apply Bool.false_ne_true

theorem count_departureEvents (htwice : s.announcesTwice publicId = false) (id : String) :
  (s.departureEvents publicId).count (.receiverRemoved id) = if publicId = id then 1 else 0
  := by
  have hremoved : (removedEvents (s.buffer.removeOneFromExpectedConsumers publicId).2).count
      (.receiverRemoved id) = 0 := by
    rw [removedEvents]
    split <;> simp
  have hkicked : ((s.removedClient publicId).toList.map Event.kicked).count
      (.receiverRemoved id) = 0 := by
    rw [List.count_eq_zero]
    simp
  rw [departureEvents, htwice, List.count_append, List.count_append, hremoved, hkicked]
  simp [List.count_singleton]

theorem countP_remaining_add_le (h : s.HasReceiver publicId) (id : String) :
  (s.remaining publicId).countP (·.publicId == id) + (if publicId = id then 1 else 0)
    ≤ s.dataReceivers.countP (·.publicId == id)
  := by
  by_cases heq : publicId = id
  · have hnone : (s.remaining publicId).countP (·.publicId == id) = 0 := by
      rw [List.countP_eq_zero]
      intro c hc
      rw [← heq]
      simpa using (mem_remaining.mp hc).2.2
    rw [hnone, if_pos heq, Nat.zero_add, Nat.one_le_iff_ne_zero, ← Nat.pos_iff_ne_zero,
      List.countP_pos_iff]
    obtain ⟨c, hc, hid⟩ := h
    use c, hc
    simp [hid, heq]
  · rw [if_neg heq, Nat.add_zero]
    apply List.Sublist.countP_le List.filter_sublist

theorem Accounted.departure (h : s.Accounted) (hreceiver : s.HasReceiver publicId)
    (htwice : s.announcesTwice publicId = false) :
  (s.removeReceiver publicId).Accounted
  := by
  intro id
  have hold := h id
  have hremaining := countP_remaining_add_le hreceiver id
  rw [events_removeReceiver, dataReceivers_removeReceiver, List.count_append, List.countP_append,
    countP_joins_departureEvents, count_departureEvents htwice]
  omega

theorem Accounted.finish (h : s.Accounted) :
  s.finish.Accounted
  := by
  apply h.of_events (events_finish s)
  · intro id
    rw [endEvents]
    split <;> rfl
  · intro id
    rw [endEvents]
    split <;> simp
  · rw [TransferSession.finish]
    split <;> rfl

theorem Accounted.addReceiver (h : s.Accounted) (c : ClientRef) :
  (s.addReceiver config c).1.Accounted
  := by
  cases ha : (s.addReceiver config c).2 with
  | false =>
      rw [addReceiver_of_false ha]
      apply h
  | true =>
      rw [(addReceiver_of_true ha).2]
      intro id
      have hold := h id
      have hnew : [Event.newReceiver c].countP (Event.joins id)
          = [c].countP (·.publicId == id) := by
        rw [List.countP_singleton, List.countP_singleton]
        rfl
      have hcount : [Event.newReceiver c].count (.receiverRemoved id) = 0 := by simp
      simp only [List.count_append, List.countP_append, hnew, hcount]
      omega

/-- An operation that neither lets somebody in nor removes somebody tells of neither. -/
theorem Accounted.apply_of_publishes (h : s.Accounted) {op : Op} (hd : s.departure op = none)
    (hop : ∀ c, op.publishes (.newReceiver c) = false)
    (hreceivers : (s.apply config op).dataReceivers = s.dataReceivers) :
  (s.apply config op).Accounted
  := by
  obtain ⟨es, hes, hp⟩ := publishes_apply config hd
  apply h.of_events hes _ _ hreceivers
  · intro id
    rw [List.countP_eq_zero]
    intro e he hjoins
    cases e with
    | newReceiver c =>
        have hpublishes := hp _ he
        rw [hop c] at hpublishes
        cases hpublishes
    | _ => cases hjoins
  · intro id hid
    have hpublishes := hp _ hid
    cases op <;> cases hpublishes

theorem Accounted.apply (h : s.Accounted) {op : Op} (hop : s.RemovesReceivers op) :
  (s.apply config op).Accounted
  := by
  cases hd : s.departure op with
  | some d =>
      obtain ⟨t, publicId⟩ := d
      obtain ⟨hreceiver, htwice⟩ := hop t publicId hd
      rw [apply_of_departure hd]
      apply Accounted.departure _ hreceiver htwice
      obtain ⟨-, rfl⟩ | ⟨_, -, rfl, -⟩ := departure_eq_some.mp hd
      · apply h
      · apply h
  | none =>
      cases op with
      | addReceiver c => apply h.addReceiver
      | removeReceiver publicId => cases hd
      | destroyClient c =>
          apply h.apply_of_publishes hd (fun _ => rfl)
          obtain ⟨listed, type, heq, -⟩ := destroyClient_of_departure_none hd
          rw [TransferSession.apply, heq]
          rfl
      | _ =>
          apply h.apply_of_publishes hd (fun _ => rfl)
          apply (sameMembers_apply config s rfl).dataReceivers

theorem Accounted.step (h : s.Accounted) {op : Op} (hop : WhenApplied RemovesReceivers s op) :
  (s.step config op).Accounted
  := by
  by_cases happlied : s.listed = true ∧ s.enabled op = true
  · rw [step_of_enabled happlied.1 happlied.2]
    apply (h.apply (hop happlied.1 happlied.2)).finish
  · rw [step_of_not_enabled happlied]
    apply h

/-- In every run from the creation of a session, removing somebody who is no receiver has no
effect, and nobody's departure is announced more often than he has joined, exactly as long as
only receivers are removed, and none of them is destroyed meanwhile. -/
theorem ignoresStrangers_announcesOnce_iff (config : Config) (sender : ClientRef) (auto : Bool)
    (ops : List Op) :
  (Machine.EveryStep (step config) (WhenApplied IgnoresStrangers) (create sender auto) ops
      ∧ Machine.EveryState (step config) AnnouncesOnce (create sender auto) ops)
    ↔ Machine.EveryStep (step config) (WhenApplied RemovesReceivers) (create sender auto) ops
  := by
  have hiff : ∀ (s : TransferSession) (op : Op),
      WhenApplied IgnoresStrangers s op ↔ WhenApplied RemovesReceivers s op := by
    intro s op
    rw [WhenApplied, WhenApplied, ignoresStrangers_iff]
  constructor
  · rintro ⟨hignores, -⟩
    apply hignores.mono fun s op => (hiff s op).mp
  · intro hremoves
    use hremoves.mono fun s op => (hiff s op).mpr
    apply Machine.EveryState.mono fun s h => Accounted.announcesOnce h
    apply Machine.everyState_of_everyStep (fun s op h hop => h.step hop) _ hremoves
    exact fun _ => Nat.le_refl 0

/-- The sender kicks nobody, before anybody has joined. -/
theorem not_ignoresStrangers_announcesOnce :
  ¬∀ (config : Config) (sender : ClientRef) (auto : Bool) (ops : List Op),
    Machine.EveryStep (step config) (WhenApplied IgnoresStrangers) (create sender auto) ops
      ∧ Machine.EveryState (step config) AnnouncesOnce (create sender auto) ops
  := by
  intro h
  have hinert := (h Sample.config Sample.sender true [.removeReceiver "nobody"]).1.1 rfl rfl
    (create Sample.sender true, "nobody") (List.mem_singleton_self _)
    (by simp [HasReceiver, create])
  exact absurd hinert.2.1 (by decide)

end TransferSession

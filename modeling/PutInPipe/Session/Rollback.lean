import PutInPipe.Session.Run

/-!
# A receiver whose joining fails

`addReceiver` lets the receiver into the expected consumers first. Then it subscribes the
receiver to the other members and them to it, appends it to the list, subscribes the session to
it and it to the session, and tells the subscribers. When one of these steps throws, `addReceiver`
takes the receiver off the expected consumers again and throws on: of what the steps before have
done, nothing is undone, and the chunks that `removeOneFromExpectedConsumers` reports as removed
are forgotten.
-/

open TransferSessionDetails

/-- A session with the subscriptions of its clients: the subscribers to the `ClientsDirect`
events of each client, and the clients whose `ClientInternal` events the session is subscribed
to. -/
structure Wired where
  session : TransferSession
  direct : ClientRef → List ClientRef := fun _ => []
  internal : List ClientRef := []

/-- `Publisher::addSubscriber`, on the list of the subscribers. -/
def addedTo (subscribers : List ClientRef) (c : ClientRef) : List ClientRef :=
  if c ∈ subscribers then subscribers else subscribers ++ [c]

namespace TransferSessionDetails.Buffer

variable {b : Buffer}

/-- `sanitize` leaves the chunks alone exactly when it reports none. -/
theorem chunks_sanitize_eq :
  b.sanitize.1.chunks = b.chunks ↔ b.sanitize.2 = []
  := by
  constructor
  · intro h
    by_contra hne
    have hlt := chunkCount_sanitize_lt.mpr hne
    rw [chunkCount, h] at hlt
    apply Nat.lt_irrefl _ hlt
  · intro h
    rw [sanitize] at h ⊢
    split
    · rfl
    · next hf =>
        rw [if_neg hf] at h
        dsimp only at h ⊢
        apply OrderedMap.keepUnless_eq_self (OrderedMap.eraseIf_eq_nil.mp h)

/-- Letting a consumer in and taking it off again comes to a call of `sanitize`. -/
theorem removeOne_insert {publicId : String} (h : publicId ∉ b.expectedConsumers) :
  removeOneFromExpectedConsumers
      { b with expectedConsumers := insert publicId b.expectedConsumers } publicId
    = b.sanitize
  := by
  rw [removeOneFromExpectedConsumers_of_mem (Finset.mem_insert_self _ _)]
  dsimp only
  rw [Finset.erase_insert h]

end TransferSessionDetails.Buffer

namespace Wired

open TransferSession

variable {config : Config} {w w' : Wired} {client : ClientRef}

/-! ### The steps -/

/-- The steps in the `try` block of `addReceiver`. -/
inductive JoinStep where
  | direct (publisher subscriber : ClientRef)
  | pushBack
  | internal
  | subscribe
  | notify
  | update (subscriber : ClientRef)
deriving DecidableEq, Repr

def subscribeDirect (direct : ClientRef → List ClientRef) (subscription : ClientRef × ClientRef) :
    ClientRef → List ClientRef :=
  Function.update direct subscription.1 (addedTo (direct subscription.1) subscription.2)

/-- What a step does that does not throw. `notify` is the first part of `notifySubscribers`, that
forgets the expired subscribers; the `update` of a subscriber changes nothing here. -/
def joinStep (client : ClientRef) (w : Wired) : JoinStep → Wired
  | .direct publisher subscriber =>
      { w with direct := subscribeDirect w.direct (publisher, subscriber) }
  | .pushBack =>
      { w with session := { w.session with
          dataReceivers := w.session.dataReceivers ++ [client] } }
  | .internal => { w with internal := addedTo w.internal client }
  | .subscribe =>
      { w with session := { w.session with
          subscribers := addedTo w.session.subscribers client } }
  | .notify =>
      { w with session := { w.session with
          subscribers := w.session.subscribers.filter w.session.alive
          events := w.session.events ++ [.newReceiver client] } }
  | .update _ => w

/-- The subscriptions between the new receiver and each member, publisher and subscriber. -/
def crossSubscriptions (w : Wired) (client : ClientRef) : List (ClientRef × ClientRef) :=
  ((w.session.liveReceivers.filter (·.publicId != client.publicId)).flatMap
      fun another => [(client, another), (another, client)])
    ++ if w.session.alive w.session.dataSender then
        [(client, w.session.dataSender), (w.session.dataSender, client)]
      else []

def joinSteps (w : Wired) (client : ClientRef) : List JoinStep :=
  (w.crossSubscriptions client).map (fun p => .direct p.1 p.2)
    ++ .pushBack :: .internal :: .subscribe :: .notify
      :: (((addedTo w.session.subscribers client).filter w.session.alive).map .update)

/-- The `catch` block. -/
def rollback (w : Wired) (client : ClientRef) : Wired :=
  let (buffer, _) := w.session.buffer.removeOneFromExpectedConsumers client.publicId
  { w with session := { w.session with buffer } }

/-- `addReceiver`, where the step `throwsAt` throws, and `none` stands for the exception that
leaves it. -/
def addReceiver (config : Config) (w : Wired) (client : ClientRef) (throwsAt : Option ℕ) :
    Wired × Option Bool :=
  if w.session.dataReceivers.any (fun c => w.session.alive c && c.id == client.id) then
    (w, some false)
  else
    let (buffer, added) := w.session.buffer.addNewToExpectedConsumers config client.publicId
    let w := { w with session := { w.session with buffer } }
    if !added then (w, some false)
    else
      match throwsAt.filter (· < (w.joinSteps client).length) with
      | some n => ((((w.joinSteps client).take n).foldl (joinStep client) w).rollback client, none)
      | none => ((w.joinSteps client).foldl (joinStep client) w, some true)

/-- Everything is as it was, and no chunk is gone without an event. -/
structure Restored (w w' : Wired) : Prop where
  dataReceivers : w'.session.dataReceivers = w.session.dataReceivers
  expectedConsumers : w'.session.buffer.expectedConsumers = w.session.buffer.expectedConsumers
  chunks : w'.session.buffer.chunks = w.session.buffer.chunks
  subscribers : w'.session.subscribers = w.session.subscribers
  direct : w'.direct = w.direct
  internal : w'.internal = w.internal
  announced : ∀ i ∈ w.session.buffer.chunksIndex, i ∉ w'.session.buffer.chunksIndex →
    ∃ ids, i ∈ ids ∧ .chunksWasRemoved ids ∈ w'.session.events.drop w.session.events.length

/-- The step that throws is one of the cross-subscriptions, or the insertion into the list after
them, those before it had all been made already, and no chunk waits for nobody. -/
structure Undone (w : Wired) (client : ClientRef) (n : ℕ) : Prop where
  throwsEarly : n ≤ (w.crossSubscriptions client).length
  subscribed : ∀ p ∈ (w.crossSubscriptions client).take n, p.2 ∈ w.direct p.1
  waited : w.session.buffer.initialChunksFreezing = true
    ∨ ∀ i chunk, w.session.buffer.chunks.find? i = some chunk →
      chunk.uses < w.session.buffer.expectedConsumers.card

/-! ### Subscribing -/

theorem addedTo_eq_self {subscribers : List ClientRef} {c : ClientRef} :
  addedTo subscribers c = subscribers ↔ c ∈ subscribers
  := by
  rw [addedTo]
  split
  · next h => exact iff_of_true rfl h
  · next h =>
      apply iff_of_false _ h
      intro heq
      have hlength := congrArg List.length heq
      rw [List.length_append, List.length_singleton] at hlength
      omega

theorem prefix_addedTo (subscribers : List ClientRef) (c : ClientRef) :
  subscribers <+: addedTo subscribers c
  := by
  rw [addedTo]
  split
  · apply List.prefix_rfl
  · apply List.prefix_append

theorem subscribeDirect_eq_self {direct : ClientRef → List ClientRef}
    {p : ClientRef × ClientRef} :
  subscribeDirect direct p = direct ↔ p.2 ∈ direct p.1
  := by
  rw [subscribeDirect, Function.update_eq_self_iff, addedTo_eq_self]

theorem prefix_subscribeDirect (direct : ClientRef → List ClientRef) (p : ClientRef × ClientRef)
    (c : ClientRef) :
  direct c <+: subscribeDirect direct p c
  := by
  rw [subscribeDirect, Function.update_apply]
  split
  · next h =>
      rw [h]
      apply prefix_addedTo
  · apply List.prefix_rfl

theorem prefix_foldl_subscribeDirect (ps : List (ClientRef × ClientRef))
    (direct : ClientRef → List ClientRef) (c : ClientRef) :
  direct c <+: ps.foldl subscribeDirect direct c
  := by
  induction ps generalizing direct with
  | nil => apply List.prefix_rfl
  | cons p ps ih => exact (prefix_subscribeDirect direct p c).trans (ih _)

/-- Subscriptions change nothing exactly when they have all been made before: a list of
subscribers only grows. -/
theorem foldl_subscribeDirect_eq_self {ps : List (ClientRef × ClientRef)}
    {direct : ClientRef → List ClientRef} :
  ps.foldl subscribeDirect direct = direct ↔ ∀ p ∈ ps, p.2 ∈ direct p.1
  := by
  induction ps generalizing direct with
  | nil => simp
  | cons p ps ih =>
      rw [List.foldl_cons, List.forall_mem_cons]
      constructor
      · intro h
        have hp : subscribeDirect direct p = direct := by
          funext c
          have hgrows := prefix_foldl_subscribeDirect ps (subscribeDirect direct p) c
          rw [h] at hgrows
          apply hgrows.eq_of_length_le (prefix_subscribeDirect direct p c).length_le
        rw [hp] at h
        exact ⟨subscribeDirect_eq_self.mp hp, ih.mp h⟩
      · rintro ⟨hp, hps⟩
        rw [subscribeDirect_eq_self.mpr hp]
        apply ih.mpr hps

/-! ### The steps before the exception -/

theorem foldl_joinStep_direct (client : ClientRef) (ps : List (ClientRef × ClientRef))
    (w : Wired) :
  (ps.map fun p => JoinStep.direct p.1 p.2).foldl (joinStep client) w
    = { w with direct := ps.foldl subscribeDirect w.direct }
  := by
  induction ps generalizing w with
  | nil => rfl
  | cons p ps ih =>
      rw [List.map_cons, List.foldl_cons, ih]
      rfl

/-- The steps take nobody off the list. -/
theorem dataReceivers_foldl_joinStep (client : ClientRef) (steps : List JoinStep) (w : Wired) :
  w.session.dataReceivers <+: (steps.foldl (joinStep client) w).session.dataReceivers
  := by
  induction steps generalizing w with
  | nil => apply List.prefix_rfl
  | cons step steps ih =>
      refine List.IsPrefix.trans ?_ (ih (joinStep client w step))
      cases step with
      | pushBack => apply List.prefix_append
      | _ => apply List.prefix_rfl

/-- The steps before the exception are cross-subscriptions, or the receiver is in the list. -/
theorem foldl_take_joinSteps (w w' : Wired) (client : ClientRef) (n : ℕ) :
  (n ≤ (w.crossSubscriptions client).length
      ∧ ((w.joinSteps client).take n).foldl (joinStep client) w'
        = { w' with
            direct := ((w.crossSubscriptions client).take n).foldl subscribeDirect w'.direct })
    ∨ (w.crossSubscriptions client).length < n
      ∧ w'.session.dataReceivers ++ [client]
        <+: (((w.joinSteps client).take n).foldl (joinStep client) w').session.dataReceivers
  := by
  have hlength : ((w.crossSubscriptions client).map fun p => JoinStep.direct p.1 p.2).length
      = (w.crossSubscriptions client).length := List.length_map _
  obtain hlt | hle := Nat.lt_or_ge (w.crossSubscriptions client).length n
  · right
    use hlt
    obtain ⟨k, rfl⟩ := Nat.exists_eq_add_of_lt hlt
    have htake : (w.joinSteps client).take ((w.crossSubscriptions client).length + k + 1)
        = ((w.crossSubscriptions client).map fun p => .direct p.1 p.2) ++ .pushBack
          :: ((.internal :: .subscribe :: .notify
            :: (((addedTo w.session.subscribers client).filter w.session.alive).map
              JoinStep.update)).take k) := by
      rw [joinSteps, ← hlength, Nat.add_assoc, List.take_length_add_append]
      rfl
    rw [htake, List.foldl_append, foldl_joinStep_direct, List.foldl_cons]
    apply List.IsPrefix.trans _ (dataReceivers_foldl_joinStep client _ _)
    apply List.prefix_rfl
  · left
    use hle
    rw [joinSteps, List.take_append_of_le_length (by rw [hlength]; exact hle), ← List.map_take,
      foldl_joinStep_direct]

/-! ### Without an exception -/

theorem addSubscriber_eq (s : TransferSession) (c : ClientRef) :
  s.addSubscriber c = { s with subscribers := addedTo s.subscribers c }
  := by
  rw [addSubscriber, addedTo]
  split <;> rfl

theorem foldl_joinStep_update (client : ClientRef) (cs : List ClientRef) (w : Wired) :
  (cs.map JoinStep.update).foldl (joinStep client) w = w
  := by
  induction cs with
  | nil => rfl
  | cons c cs ih => exact ih

/-- Where no step throws, the session does what `TransferSession.addReceiver` says, and forgets
the expired subscribers. -/
theorem addReceiver_none (config : Config) (w : Wired) (client : ClientRef) :
  (w.addReceiver config client none).2 = some (w.session.addReceiver config client).2
    ∧ (w.addReceiver config client none).1.session
      = if (w.session.addReceiver config client).2 then
          { (w.session.addReceiver config client).1 with
            subscribers := (w.session.addReceiver config client).1.subscribers.filter
              w.session.alive }
        else (w.session.addReceiver config client).1
  := by
  rw [addReceiver, TransferSession.addReceiver]
  split
  · exact ⟨rfl, rfl⟩
  · cases hadd : (w.session.buffer.addNewToExpectedConsumers config client.publicId).2 with
    | false => simp [hadd]
    | true =>
        simp only [hadd, Bool.not_true, Bool.false_eq_true, if_false, Option.filter_none, joinSteps,
          List.foldl_append, foldl_joinStep_direct, List.foldl_cons, foldl_joinStep_update,
          addSubscriber_eq, if_true, true_and]
        rfl

/-! ### What the exception leaves -/

/-- The state in which an exception leaves `addReceiver`. -/
theorem addReceiver_of_throw {n : ℕ} (h : (w.addReceiver config client (some n)).2 = none) :
  client.publicId ∉ w.session.buffer.expectedConsumers
    ∧ (w.addReceiver config client (some n)).1
      = (((w.joinSteps client).take n).foldl (joinStep client)
          { w with session := { w.session with
            buffer := { w.session.buffer with
              expectedConsumers := insert client.publicId
                w.session.buffer.expectedConsumers } } }).rollback client
  := by
  rw [addReceiver] at h ⊢
  split at h
  · cases h
  · next hany =>
      rw [if_neg hany]
      cases hadd : (w.session.buffer.addNewToExpectedConsumers config client.publicId).2 with
      | false => simp [hadd] at h
      | true =>
          use (Buffer.addNewToExpectedConsumers_snd.mp hadd).2.2
          have hbuffer := Buffer.addNewToExpectedConsumers_of_true hadd
          simp only [hadd, hbuffer, Bool.not_true, Bool.false_eq_true, if_false] at h ⊢
          have hsteps : ∀ buffer : Buffer,
              ({ w with session := { w.session with buffer } } : Wired).joinSteps client
                = w.joinSteps client := fun _ => rfl
          rw [hsteps] at h ⊢
          by_cases hn : n < (w.joinSteps client).length
          · rw [Option.filter_some_pos (by simpa using hn)]
          · rw [Option.filter_some_neg (by simpa using hn)] at h
            cases h

/-- An exception leaves everything as it was exactly when it comes from a cross-subscription or
from the insertion into the list, the cross-subscriptions before had all been made already, and
taking the receiver off the expected consumers removes no chunk. -/
theorem restored_iff {n : ℕ} (h : (w.addReceiver config client (some n)).2 = none) :
  w.Restored (w.addReceiver config client (some n)).1 ↔ w.Undone client n
  := by
  obtain ⟨hnew, heq⟩ := addReceiver_of_throw h
  obtain ⟨hle, hfold⟩ | ⟨hlt, hprefix⟩ := foldl_take_joinSteps w
    { w with
      session := { w.session with
        buffer := { w.session.buffer with
          expectedConsumers := insert client.publicId w.session.buffer.expectedConsumers } } }
    client n
  · rw [heq, hfold, rollback]
    simp only [Buffer.removeOne_insert hnew]
    constructor
    · intro hrestored
      refine ⟨hle, foldl_subscribeDirect_eq_self.mp hrestored.direct, ?_⟩
      apply Buffer.sanitize_snd_eq_nil.mp
      apply Buffer.chunks_sanitize_eq.mp hrestored.chunks
    · rintro ⟨-, hsubscribed, hwaited⟩
      have hchunks : w.session.buffer.sanitize.1.chunks = w.session.buffer.chunks :=
        Buffer.chunks_sanitize_eq.mpr (Buffer.sanitize_snd_eq_nil.mpr hwaited)
      refine ⟨rfl, Buffer.expectedConsumers_sanitize _, hchunks, rfl,
        foldl_subscribeDirect_eq_self.mpr hsubscribed, rfl, ?_⟩
      intro i hi hgone
      apply absurd _ hgone
      rw [Buffer.chunksIndex, hchunks]
      apply hi
  · apply iff_of_false
    · intro hrestored
      have hlength := hprefix.length_le
      have hsame := hrestored.dataReceivers
      rw [heq, rollback] at hsame
      rw [hsame, List.length_append, List.length_singleton] at hlength
      apply Nat.not_succ_le_self _ hlength
    · exact fun hundone => Nat.not_le.mpr hlt hundone.throwsEarly

/-- A session with a chunk that nobody has confirmed; Alice joins, and telling the sender
throws. -/
def untold : Wired where
  session := TransferSession.step Sample.config (.create Sample.sender false) (.addChunk [0])

/-- The exception leaves Alice in the list of receivers, though she is not expected. -/
theorem not_restored :
  ¬∀ (config : Config) (w : Wired) (client : ClientRef) (n : ℕ),
    (w.addReceiver config client (some n)).2 = none →
      w.Restored (w.addReceiver config client (some n)).1
  := by
  intro h
  have hsame := (h Sample.config untold Sample.alice 6 (by decide +kernel)).dataReceivers
  exact absurd hsame (by decide +kernel)

/-- When already the first subscription throws, everything is as it was. -/
theorem restored_untold :
  (untold.addReceiver Sample.config Sample.alice (some 0)).2 = none
    ∧ untold.Restored (untold.addReceiver Sample.config Sample.alice (some 0)).1
  := by
  use by decide +kernel
  apply (restored_iff (by decide +kernel)).mpr
  exact ⟨by decide +kernel, List.forall_mem_nil _, .inl (by decide +kernel)⟩

end Wired

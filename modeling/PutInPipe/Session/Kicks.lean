import PutInPipe.Session.Published

/-!
# What a kicked receiver is sent

A receiver that is kicked leaves the receivers and the expected consumers, but stays among
the subscribers until it is destroyed, which with a live WebSocket is after its
acknowledgement. `Audience` is a session with the events each client has been sent.

`removeReceiver` publishes that the receiver was removed right after it has sent `kicked`,
so that no client with a live WebSocket is ever sent `kicked` as its last event.
-/

open TransferSessionDetails

namespace TransferSession

variable {config : Config} {s t : TransferSession}

/-- The client is sent the event: it has a live WebSocket, and the event is its own or comes
from a publisher it is subscribed to. The status of the queue is published for the sender. -/
def hears (s : TransferSession) (c : ClientRef) (e : Event) : Bool :=
  s.alive c && decide (c ∈ s.connected)
    && match e with
      | .kicked client | .personalReceivedUpdated client _ => client == c
      | .newChunkIsAllowed _ => s.dataSender == c
      | _ => decide (c ∈ s.subscribers)

/-- The receiver that the operation kicks. -/
def kickedBy (s : TransferSession) (op : Op) : Option ClientRef :=
  (s.departure op).bind (fun d => d.1.removedClient d.2)

/-- The operation kicks no receiver that has a live WebSocket. -/
def KicksNoneLive (s : TransferSession) (op : Op) : Prop :=
  ∀ c, s.kickedBy op = some c → c ∉ s.connected

/-! ### The events of a kick -/

theorem kicked_mem_departureEvents {c : ClientRef} {publicId : String} :
  .kicked c ∈ s.departureEvents publicId ↔ s.removedClient publicId = some c
  := by
  constructor
  · intro he
    obtain ⟨ids, h⟩ | ⟨c', hc', h⟩ | h := mem_departureEvents he
    · cases h
    · cases h
      apply hc'
    · cases h
  · intro hc
    simp [departureEvents, hc]

theorem kicked_notMem_endEvents (c : ClientRef) (s : TransferSession) :
  .kicked c ∉ s.endEvents
  := by
  intro he
  cases mem_endEvents he

/-- A step tells a client that it was kicked only if it kicks it. -/
theorem kicked_published {op : Op} {c : ClientRef} (hc : .kicked c ∈ s.published config op) :
  s.kickedBy op = some c
  := by
  by_cases happlied : s.listed = true ∧ s.enabled op = true
  · cases hd : s.departure op with
    | none =>
        obtain hp | ⟨_, ⟨⟩⟩ := mem_published hd hc
        cases op <;> cases hp
    | some d =>
        obtain ⟨t, publicId⟩ := d
        rw [published_of_departure happlied.1 happlied.2 hd, List.mem_append] at hc
        rw [kickedBy, hd]
        apply kicked_mem_departureEvents.mp
        apply hc.resolve_right (kicked_notMem_endEvents c _)
  · rw [published_of_not_applied happlied] at hc
    cases hc

theorem connected_step_of_kickedBy {op : Op} {c : ClientRef} (hk : s.kickedBy op = some c) :
  (s.step config op).connected = s.connected
  := by
  by_cases happlied : s.listed = true ∧ s.enabled op = true
  · obtain ⟨⟨t, publicId⟩, hd, -⟩ := Option.bind_eq_some_iff.mp hk
    have hsame : t.connected = s.connected := by
      obtain ⟨-, rfl⟩ | ⟨_, -, rfl, -⟩ := departure_eq_some.mp hd <;> rfl
    obtain ⟨_, -, hspec⟩ := t.removeReceiver_spec publicId
    have hconnected : (t.removeReceiver publicId).connected = s.connected := by
      rw [hspec, ← hsame]
    rw [step_of_enabled happlied.1 happlied.2, apply_of_departure hd, finish]
    split <;> exact hconnected
  · rw [step_of_not_enabled happlied]

/-- What becomes of a receiver with a live WebSocket that is kicked: it is told, and still
hears of the events of the session, the next of which announces its own departure. -/
theorem published_of_kickedBy (h : s.Consistent config) (hl : s.listed = true) {op : Op}
    (he : s.enabled op = true) {c : ClientRef} (hk : s.kickedBy op = some c)
    (hconn : c ∈ s.connected) :
  (∃ pre post, s.published config op
      = pre ++ .kicked c :: .receiverRemoved c.publicId :: post)
    ∧ ∀ publicId, (s.step config op).hears c (.kicked c) = true
      ∧ (s.step config op).hears c (.receiverRemoved publicId) = true
  := by
  obtain ⟨⟨t, publicId⟩, hd, hremoved⟩ := Option.bind_eq_some_iff.mp hk
  obtain ⟨hmem, halive, rfl⟩ := removedClient_eq_some hremoved
  have hsame : t.events = s.events ∧ t.connected = s.connected := by
    obtain ⟨-, rfl⟩ | ⟨_, -, rfl, -⟩ := departure_eq_some.mp hd <;> exact ⟨rfl, rfl⟩
  have hexpelled : t.expelled c.publicId = none := by
    rw [expelled, hremoved, Option.filter_some_neg]
    simpa [hsame.2] using hconn
  have htwice : t.announcesTwice c.publicId = false := by
    rw [announcesTwice, hexpelled, Option.any_none]
  obtain ⟨_, -, hspec⟩ := t.removeReceiver_spec c.publicId
  have hstep : s.step config op = (t.removeReceiver c.publicId).finish := by
    rw [step_of_enabled hl he, apply_of_departure hd]
  constructor
  · use removedEvents (t.buffer.removeOneFromExpectedConsumers c.publicId).2,
      (t.removeReceiver c.publicId).endEvents
    rw [published_of_departure hl he hd, departureEvents, hremoved, htwice]
    simp
  · intro publicId'
    have hconsistent : t.Consistent config := h.departure hd
    have hfinish : ∀ e, (s.step config op).hears c e
        = (t.removeReceiver c.publicId).hears c e := by
      intro e
      rw [hstep, finish]
      split <;> rfl
    have hafter : (t.removeReceiver c.publicId).alive c = true := by
      rw [hspec, hexpelled]
      apply halive
    have hsubscribers : (t.removeReceiver c.publicId).subscribers = t.subscribers := by
      rw [hspec]
    have hconnected : (t.removeReceiver c.publicId).connected = s.connected := by
      rw [hspec, ← hsame.2]
    rw [hfinish, hfinish]
    simp [hears, hafter, hsubscribers, hconnected, hconn, hconsistent.receivers_mem c hmem]

end TransferSession

/-- A session with the events each client has been sent. -/
structure Audience where
  session : TransferSession
  received : ClientRef → List Event := fun _ => []

namespace Audience

open TransferSession

variable {config : Config} {a : Audience}

/-- The events a client is sent in a step. -/
def sent (config : Config) (a : Audience) (op : Op) (c : ClientRef) : List Event :=
  (a.session.published config op).filter ((a.session.step config op).hears c)

def step (config : Config) (a : Audience) (op : Op) : Audience where
  session := a.session.step config op
  received c := a.received c ++ a.sent config op c

/-- A client that has been told that it was kicked is sent nothing more. -/
def KickedIsOut (a : Audience) : Prop :=
  ∀ c pre post, a.received c = pre ++ .kicked c :: post → post = []

/-- Every client that was told that it was kicked has been sent another event after that. -/
structure Sound (config : Config) (a : Audience) : Prop where
  consistent : WhileListed (Consistent config) a.session
  followed : ∀ c, .kicked c ∈ a.received c →
    ∃ pre e post, a.received c = pre ++ .kicked c :: e :: post

theorem Sound.kickedIsOut_iff (h : a.Sound config) :
  a.KickedIsOut ↔ ∀ c, .kicked c ∉ a.received c
  := by
  constructor
  · intro hout c hc
    obtain ⟨pre, e, post, heq⟩ := h.followed c hc
    cases hout c pre (e :: post) heq
  · intro hno c pre post heq
    apply absurd _ (hno c)
    rw [heq]
    simp

/-- A client with a live WebSocket that is kicked is sent the announcement of its own
departure after that. -/
theorem sent_of_kickedBy (h : a.Sound config) {op : Op} {c : ClientRef}
    (hl : a.session.listed = true) (he : a.session.enabled op = true)
    (hk : a.session.kickedBy op = some c) (hconn : c ∈ a.session.connected) :
  ∃ pre post, a.sent config op c = pre ++ .kicked c :: .receiverRemoved c.publicId :: post
  := by
  obtain ⟨⟨pre, post, heq⟩, hhears⟩ :=
    published_of_kickedBy (h.consistent hl) hl he hk hconn
  use pre.filter ((a.session.step config op).hears c),
    post.filter ((a.session.step config op).hears c)
  rw [sent, heq, List.filter_append, List.filter_cons_of_pos (hhears c.publicId).1,
    List.filter_cons_of_pos (hhears c.publicId).2]

/-- A client is sent `kicked` exactly when it is kicked while it has a live WebSocket. -/
theorem kicked_mem_sent (h : a.Sound config) {op : Op} {c : ClientRef} :
  .kicked c ∈ a.sent config op c
    ↔ a.session.listed = true ∧ a.session.enabled op = true ∧ a.session.kickedBy op = some c
      ∧ c ∈ a.session.connected
  := by
  constructor
  · intro hc
    obtain ⟨hpub, hhears⟩ := List.mem_filter.mp hc
    have hk : a.session.kickedBy op = some c := kicked_published hpub
    have hconn : c ∈ a.session.connected := by
      have hsame : (a.session.step config op).connected = a.session.connected :=
        connected_step_of_kickedBy hk
      rw [← hsame]
      simp only [hears, Bool.and_eq_true, decide_eq_true_eq] at hhears
      apply hhears.1.2
    by_cases happlied : a.session.listed = true ∧ a.session.enabled op = true
    · exact ⟨happlied.1, happlied.2, hk, hconn⟩
    · rw [published, step_of_not_enabled happlied, List.drop_length] at hpub
      cases hpub
  · rintro ⟨hl, he, hk, hconn⟩
    obtain ⟨pre, post, heq⟩ := sent_of_kickedBy h hl he hk hconn
    rw [heq]
    simp

theorem Sound.step (h : a.Sound config) (op : Op) :
  (a.step config op).Sound config
  where
    consistent := Consistent.step h.consistent op
    followed c hc := by
      rw [Audience.step] at hc ⊢
      obtain hc | hc := List.mem_append.mp hc
      · obtain ⟨pre, e, post, heq⟩ := h.followed c hc
        use pre, e, post ++ a.sent config op c
        simp only [heq, List.append_assoc, List.cons_append]
      · obtain ⟨hl, he, hk, hconn⟩ := (kicked_mem_sent h).mp hc
        obtain ⟨pre, post, heq⟩ := sent_of_kickedBy h hl he hk hconn
        use a.received c ++ pre, .receiverRemoved c.publicId, post
        simp only [heq, List.append_assoc]

/-- In every run from the creation of a session, no client is sent anything after it was told
that it was kicked exactly when no receiver with a live WebSocket is kicked. -/
theorem everyState_kickedIsOut_iff (config : Config) (sender : ClientRef) (auto : Bool)
    (ops : List Op) :
  Machine.EveryState (step config) KickedIsOut ⟨.create sender auto, fun _ => []⟩ ops
    ↔ Machine.EveryStep (step config)
      (fun a op => WhenApplied KicksNoneLive a.session op) ⟨.create sender auto, fun _ => []⟩ ops
  := by
  have hinv : ∀ (a : Audience) (op : Op), a.Sound config → (a.step config op).Sound config :=
    fun a op h => h.step op
  have hstep : ∀ (a : Audience) (op : Op), a.Sound config → a.KickedIsOut →
      ((a.step config op).KickedIsOut ↔ WhenApplied KicksNoneLive a.session op) := by
    intro a op h hout
    rw [(h.step op).kickedIsOut_iff]
    rw [h.kickedIsOut_iff] at hout
    constructor
    · intro hno hl he c hk hconn
      apply hno c
      apply List.mem_append_right _ ((kicked_mem_sent h).mpr ⟨hl, he, hk, hconn⟩)
    · intro hnone c hc
      obtain hc | hc := List.mem_append.mp hc
      · apply hout c hc
      · obtain ⟨hl, he, hk, hconn⟩ := (kicked_mem_sent h).mp hc
        apply hnone hl he c hk hconn
  apply Machine.everyState_iff_everyStep hinv hstep
  · exact ⟨fun _ => Consistent.create config sender auto, by simp⟩
  · simp [KickedIsOut]

/-- Alice has joined and her WebSocket is open. She is kicked. -/
def kickedAlive : List Op :=
  [.addReceiver Sample.alice, .connect Sample.alice, .removeReceiver "A"]

theorem not_everyState_kickedIsOut_kickedAlive :
  ¬ ∀ (config : Config) (sender : ClientRef) (auto : Bool) (ops : List Op),
      Machine.EveryState (step config) KickedIsOut ⟨.create sender auto, fun _ => []⟩ ops
  := by
  intro h
  have hlast := (h Sample.config Sample.sender false kickedAlive).last Sample.alice
    [] [.receiverRemoved "A"] (by decide)
  cases hlast

end Audience

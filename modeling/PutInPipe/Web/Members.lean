import PutInPipe.Session.Published

/-!
# The receivers on the page of the sender

The page of the sender shows the receivers of the session. It never asks for them: it starts
with nobody, adds who is announced and takes off whose departure is announced, and changes the
entries when it hears of names, connections and downloads. What it shows of the clients that
still exist is what the session knows of them; a receiver whose destruction is taken for that of
the sender is not announced, and stays on the page.
-/

open Machine TransferSessionDetails TransferSession

/-- An entry of `receivers`. -/
structure ShownReceiver where
  id : String
  name : Bytes
  isOnline : Bool := true
  currentChunk : Option ℕ := none
  done : Bool := false
deriving DecidableEq, Repr

/-- What the page of the sender holds for the list of the receivers. -/
structure SenderPanel where
  receivers : List ShownReceiver := []
  receiverChunksDone : String → ℕ := fun _ => 0
  uploadFinished : Bool := false
  highestChunkIndex : ℕ := 0

namespace SenderPanel

/-- Change the entries of a public id. -/
def change (p : SenderPanel) (id : String) (f : ShownReceiver → ShownReceiver) : SenderPanel :=
  { p with receivers := p.receivers.map fun r => if r.id = id then f r else r }

def onNewReceiver (p : SenderPanel) (id : String) (name : Bytes) : SenderPanel :=
  { p with receivers := p.receivers ++ [{ id, name }] }

def onReceiverRemoved (p : SenderPanel) (id : String) : SenderPanel :=
  { p with receivers := p.receivers.filter (·.id != id) }

def onNameChanged (p : SenderPanel) (id : String) (name : Bytes) : SenderPanel :=
  p.change id fun r => { r with name }

def onOnline (p : SenderPanel) (id : String) (status : Bool) : SenderPanel :=
  p.change id fun r => { r with isOnline := status }

def onChunkDownload (p : SenderPanel) (id : String) (index : ℕ) (finished : Bool) : SenderPanel :=
  let p := if finished then
      { p with receiverChunksDone :=
          Function.update p.receiverChunksDone id (p.receiverChunksDone id + 1) }
    else p
  let done := p.uploadFinished && p.highestChunkIndex > 0
    && p.receiverChunksDone id ≥ p.highestChunkIndex
  p.change id fun r => { r with currentChunk := some index, done }

def onNewChunkEvent (p : SenderPanel) (index : ℕ) : SenderPanel :=
  if index > p.highestChunkIndex then { p with highestChunkIndex := index } else p

/-- What the page does with an event of the session. -/
def onEvent (name : ClientRef → Bytes) (p : SenderPanel) : Event → SenderPanel
  | .newReceiver c => p.onNewReceiver c.publicId (name c)
  | .receiverRemoved publicId => p.onReceiverRemoved publicId
  | .chunkDownloadStarted publicId index => p.onChunkDownload publicId index false
  | .chunkDownloadFinished publicId index => p.onChunkDownload publicId index true
  | .newChunkIsAvailable index _ => p.onNewChunkEvent index
  | _ => p

def ids (p : SenderPanel) : List String := p.receivers.map ShownReceiver.id

end SenderPanel

/-- A session, the page of its sender, whose connection lasts, and the names of the clients. -/
structure Watching where
  session : TransferSession
  panel : SenderPanel := {}
  name : ClientRef → Bytes := fun _ => []

namespace Watching

/-- An operation of the session, a client that changes its name or opens or loses its
connection, and the end of the upload on the page. -/
inductive Step where
  | op (op : Op)
  | setName (c : ClientRef) (name : Bytes)
  | online (c : ClientRef) (status : Bool)
  | uploadFinished
deriving DecidableEq, Repr

/-- The sender is subscribed to the client, as to everybody who has joined. -/
def hears (w : Watching) (c : ClientRef) : Bool :=
  c ∈ w.session.subscribers && c != w.session.dataSender

def step (config : Config) (w : Watching) : Step → Watching
  | .op op =>
      { w with
        session := w.session.step config op
        panel := (w.session.published config op).foldl (SenderPanel.onEvent w.name) w.panel }
  | .setName c name =>
      { w with
        name := Function.update w.name c name
        panel := if w.hears c then w.panel.onNameChanged c.publicId name else w.panel }
  | .online c status =>
      if w.hears c then { w with panel := w.panel.onOnline c.publicId status } else w
  | .uploadFinished => { w with panel := { w.panel with uploadFinished := true } }

end Watching

/-! ### Who is announced -/

namespace Event

/-- Who has been announced, after an event more. -/
def replayMembers (members : List ClientRef) : Event → List ClientRef
  | .newReceiver c => members ++ [c]
  | .receiverRemoved publicId => members.filter (·.publicId != publicId)
  | _ => members

/-- Those who were announced, in that order, and whose departure was not. -/
def members (events : List Event) : List ClientRef := events.foldl replayMembers []

/-- The event is neither an arrival nor a departure. -/
def isOther : Event → Bool
  | .newReceiver _ | .receiverRemoved _ => false
  | _ => true

theorem foldl_replayMembers_of_isOther {es : List Event} (h : ∀ e ∈ es, e.isOther = true)
    (members : List ClientRef) :
  es.foldl replayMembers members = members
  := by
  induction es generalizing members with
  | nil => rfl
  | cons e es ih =>
      rw [List.forall_mem_cons] at h
      have he : replayMembers members e = members := by
        cases e with
        | newReceiver c => cases h.1
        | receiverRemoved publicId => cases h.1
        | _ => rfl
      rw [List.foldl_cons, he]
      apply ih h.2

theorem foldl_replayMembers_replicate {n : ℕ} (hn : n ≠ 0) (publicId : String)
    (members : List ClientRef) :
  (List.replicate n (receiverRemoved publicId)).foldl replayMembers members
    = members.filter (·.publicId != publicId)
  := by
  induction n generalizing members with
  | zero => cases hn rfl
  | succ n ih =>
      rw [List.replicate_succ, List.foldl_cons, replayMembers]
      cases n with
      | zero => rfl
      | succ n =>
          rw [ih (Nat.succ_ne_zero n), List.filter_filter]
          congr 1
          funext c
          apply Bool.and_self

theorem foldl_replayMembers_departureEvents (s : TransferSession) (publicId : String)
    (members : List ClientRef) :
  (s.departureEvents publicId).foldl replayMembers members
    = members.filter (·.publicId != publicId)
  := by
  rw [departureEvents, List.foldl_append, foldl_replayMembers_replicate,
    foldl_replayMembers_of_isOther]
  case hn =>
    split
    · apply Nat.succ_ne_zero
    · apply Nat.succ_ne_zero
  case h =>
    rw [List.forall_mem_append]
    constructor
    · intro e he
      rw [mem_removedEvents he]
      rfl
    · intro e he
      obtain ⟨c, -, rfl⟩ := List.mem_map.mp he
      rfl

end Event

/-! ### The page against the announcements -/

namespace SenderPanel

variable {p : SenderPanel} {members : List ClientRef}

theorem ids_change (p : SenderPanel) (id : String) {f : ShownReceiver → ShownReceiver}
    (hf : ∀ r, (f r).id = r.id) :
  (p.change id f).ids = p.ids
  := by
  rw [ids, change, List.map_map, ids]
  apply List.map_congr_left
  intro r _
  rw [Function.comp_apply]
  split
  · apply hf
  · rfl

theorem ids_onChunkDownload (p : SenderPanel) (id : String) (index : ℕ) (finished : Bool) :
  (p.onChunkDownload id index finished).ids = p.ids
  := by
  rw [onChunkDownload, ids_change]
  · split
    · rfl
    · rfl
  · exact fun _ => rfl

/-- The page shows who has been announced. -/
theorem ids_onEvent (name : ClientRef → Bytes) (h : p.ids = members.map ClientRef.publicId)
    (e : Event) :
  (p.onEvent name e).ids = (e.replayMembers members).map ClientRef.publicId
  := by
  cases e with
  | newReceiver c =>
      rw [onEvent, onNewReceiver, ids, List.map_append, ← ids, h, Event.replayMembers,
        List.map_append]
      rfl
  | receiverRemoved publicId =>
      have hfilter : (p.onReceiverRemoved publicId).ids = p.ids.filter (· != publicId) := by
        rw [ids, onReceiverRemoved, ids, List.filter_map]
        rfl
      rw [onEvent, hfilter, h, Event.replayMembers, List.filter_map]
      rfl
  | chunkDownloadStarted publicId index =>
      rw [onEvent, ids_onChunkDownload]
      apply h
  | chunkDownloadFinished publicId index =>
      rw [onEvent, ids_onChunkDownload]
      apply h
  | newChunkIsAvailable index size =>
      rw [onEvent, onNewChunkEvent]
      split
      · apply h
      · apply h
  | _ => apply h

theorem ids_foldl_onEvent (name : ClientRef → Bytes)
    (h : p.ids = members.map ClientRef.publicId) (es : List Event) :
  (es.foldl (onEvent name) p).ids = (es.foldl Event.replayMembers members).map ClientRef.publicId
  := by
  induction es generalizing p members with
  | nil => apply h
  | cons e es ih => apply ih (ids_onEvent name h e)

end SenderPanel

/-! ### The announcements against the session -/

namespace TransferSession

variable {config : Config} {s t : TransferSession}

/-- Of those who were announced, the ones that exist are the receivers of the session, in the
order in which they joined. -/
def ShowsLive (s : TransferSession) : Prop :=
  (Event.members s.events).filter s.alive = s.liveReceivers

/-- Receivers with `q` and those that are destroyed are taken off on both sides. -/
theorem ShowsLive.narrow (h : s.ShowsLive) {q : ClientRef → Bool}
    (halive : ∀ c, t.alive c = true → s.alive c = true)
    (hmembers : Event.members t.events = (Event.members s.events).filter q)
    (hreceivers : t.liveReceivers = s.dataReceivers.filter fun c => t.alive c && q c) :
  t.ShowsLive
  := by
  have hnarrow : ∀ l : List ClientRef, (l.filter fun c => t.alive c && q c)
      = (l.filter s.alive).filter fun c => t.alive c && q c := by
    intro l
    rw [List.filter_filter]
    apply List.filter_congr
    intro c _
    cases hc : t.alive c with
    | false => rfl
    | true => rw [halive c hc, Bool.and_true]
  rw [ShowsLive, hmembers, List.filter_filter, hnarrow (Event.members s.events), h, hreceivers,
    hnarrow s.dataReceivers, liveReceivers]

/-- Nobody joins, and nobody's departure is announced. -/
theorem ShowsLive.of_isOther (h : s.ShowsLive) {es : List Event}
    (hevents : t.events = s.events ++ es) (hes : ∀ e ∈ es, e.isOther = true)
    (hreceivers : t.dataReceivers = s.dataReceivers)
    (halive : ∀ c, t.alive c = true → s.alive c = true) :
  t.ShowsLive
  := by
  apply h.narrow (q := fun _ => true) halive
  · rw [hevents, Event.members, List.foldl_append, Event.foldl_replayMembers_of_isOther hes,
      List.filter_true, Event.members]
  · rw [liveReceivers, hreceivers]
    simp only [Bool.and_true]

theorem ShowsLive.finish (h : s.ShowsLive) :
  s.finish.ShowsLive
  := by
  apply h.of_isOther (events_finish s)
  · intro e he
    rw [mem_endEvents he]
    rfl
  · rw [TransferSession.finish]
    split
    · rfl
    · rfl
  · intro c hc
    rw [TransferSession.finish] at hc
    split at hc
    · apply hc
    · apply hc

theorem ShowsLive.addReceiver (h : s.ShowsLive) (c : ClientRef) :
  (s.addReceiver config c).1.ShowsLive
  := by
  cases ha : (s.addReceiver config c).2 with
  | false =>
      rw [addReceiver_of_false ha]
      apply h
  | true =>
      rw [(addReceiver_of_true ha).2, ShowsLive, Event.members, List.foldl_append]
      change (Event.members s.events ++ [c]).filter s.alive
        = (s.dataReceivers ++ [c]).filter s.alive
      rw [List.filter_append, List.filter_append]
      congr 1

theorem ShowsLive.removeReceiver (h : s.ShowsLive) {publicId : String}
    (hevents : t.events = s.events) (hreceivers : t.dataReceivers = s.dataReceivers)
    (halive : ∀ c, t.alive c = true → s.alive c = true) :
  (t.removeReceiver publicId).ShowsLive
  := by
  have hless : ∀ c, (t.removeReceiver publicId).alive c = true → t.alive c = true := by
    obtain ⟨es, -, heq⟩ := t.removeReceiver_spec publicId
    intro c
    rw [heq, alive_iff, alive_iff, List.mem_append, not_or]
    exact fun hc => hc.2
  apply h.narrow (q := fun c => c.publicId != publicId) fun c hc => halive c (hless c hc)
  · rw [events_removeReceiver, hevents, Event.members, List.foldl_append,
      Event.foldl_replayMembers_departureEvents, Event.members]
  · rw [liveReceivers, dataReceivers_removeReceiver, remaining, List.filter_filter, hreceivers]
    apply List.filter_congr
    intro c _
    cases hc : (t.removeReceiver publicId).alive c with
    | false => rfl
    | true => rw [hless c hc, Bool.true_and]

theorem ShowsLive.apply (h : s.ShowsLive) (op : Op) :
  (s.apply config op).ShowsLive
  := by
  cases hd : s.departure op with
  | some d =>
      obtain ⟨t, publicId⟩ := d
      rw [apply_of_departure hd]
      obtain ⟨-, rfl⟩ | ⟨c, -, rfl, -⟩ := departure_eq_some.mp hd
      · exact h.removeReceiver rfl rfl fun _ hc => hc
      · exact h.removeReceiver rfl rfl fun _ hc => (alive_expire.mp hc).2
  | none =>
      obtain ⟨es, hes, hp⟩ := publishes_apply config hd
      have hother : (∀ c, op.publishes (.newReceiver c) = false) → ∀ e ∈ es, e.isOther = true := by
        intro hop e he
        have hpublishes := hp e he
        cases e with
        | newReceiver c =>
            rw [hop c] at hpublishes
            cases hpublishes
        | receiverRemoved publicId => cases op <;> cases hpublishes
        | _ => rfl
      cases op with
      | addReceiver c => apply h.addReceiver
      | removeReceiver publicId => cases hd
      | destroyClient c =>
          obtain ⟨listed, type, heq, -⟩ := destroyClient_of_departure_none hd
          apply h.of_isOther hes (hother fun _ => rfl)
          · rw [TransferSession.apply, heq]
            rfl
          · intro x hx
            rw [TransferSession.apply, heq] at hx
            apply (alive_expire.mp hx).2
      | _ =>
          apply h.of_isOther hes (hother fun _ => rfl)
          · apply (sameMembers_apply config s rfl).dataReceivers
          · intro x hx
            rw [(sameMembers_apply config s rfl).alive] at hx
            apply hx

theorem ShowsLive.step (h : s.ShowsLive) (op : Op) :
  (s.step config op).ShowsLive
  := by
  by_cases happlied : s.listed = true ∧ s.enabled op = true
  · rw [step_of_enabled happlied.1 happlied.2]
    apply (h.apply op).finish
  · rw [step_of_not_enabled happlied]
    apply h

end TransferSession

/-! ### Every run -/

namespace Watching

/-- The page shows those who were announced, and these are, but for those who do not exist any
more, the receivers of the session. -/
structure Mirrors (w : Watching) : Prop where
  shown : w.panel.ids = (Event.members w.session.events).map ClientRef.publicId
  live : w.session.ShowsLive

theorem Mirrors.step {config : Config} {w : Watching} (h : w.Mirrors) (a : Step) :
  (w.step config a).Mirrors
  := by
  cases a with
  | op op =>
      constructor
      · rw [Watching.step, events_step, Event.members, List.foldl_append]
        apply SenderPanel.ids_foldl_onEvent w.name h.shown
      · apply h.live.step
  | setName c name =>
      use ?_, h.live
      rw [Watching.step]
      dsimp only
      split
      · rw [SenderPanel.onNameChanged, SenderPanel.ids_change]
        · apply h.shown
        · exact fun _ => rfl
      · apply h.shown
  | online c status =>
      rw [Watching.step]
      split
      · use ?_, h.live
        dsimp only
        rw [SenderPanel.onOnline, SenderPanel.ids_change]
        · apply h.shown
        · exact fun _ => rfl
      · exact h
  | uploadFinished => exact ⟨h.shown, h.live⟩

end Watching

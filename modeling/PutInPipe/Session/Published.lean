import PutInPipe.Session.Run

/-!
# What an operation publishes

Each operation publishes events of a few kinds only. A departure publishes the chunks it
removes, tells the removed client that it was kicked, and announces itself, also where nobody
is removed. A removed client that has no live WebSocket is destroyed meanwhile, and its
destructor may announce the departure a first time.
-/

open TransferSessionDetails

namespace TransferSession

variable {config : Config} {s t u : TransferSession} {p q : Event → Bool}

/-- From `s` to `t` events with `p` are published. -/
def Publishes (p : Event → Bool) (s t : TransferSession) : Prop :=
  ∃ es, t.events = s.events ++ es ∧ ∀ e ∈ es, p e = true

theorem Publishes.of_events_eq (h : t.events = s.events) :
  Publishes p s t
  := ⟨[], by rw [h, List.append_nil], List.forall_mem_nil _⟩

theorem Publishes.trans (h : Publishes p s t) (h' : Publishes p t u) :
  Publishes p s u
  := by
  obtain ⟨es, he, hes⟩ := h
  obtain ⟨es', he', hes'⟩ := h'
  use es ++ es'
  constructor
  · rw [he', he, List.append_assoc]
  · intro e hmem
    obtain hmem | hmem := List.mem_append.mp hmem
    · apply hes e hmem
    · apply hes' e hmem

theorem Publishes.mono (hpq : ∀ e, p e = true → q e = true) (h : Publishes p s t) :
  Publishes q s t
  := by
  obtain ⟨es, he, hes⟩ := h
  use es, he
  exact fun e hmem => hpq e (hes e hmem)

/-- The events an operation may publish, but for those of a departure. -/
def Op.publishes : Op → Event → Bool
  | .addChunk _, .newChunkIsAvailable _ _ | .addChunk _, .newChunkIsAllowed _
  | .addChunk _, .bytesInUpdated _ => true
  | .addReceiver c, .newReceiver c' => c' == c
  | .setFileInfo _, .fileInfoUpdated _ => true
  | .getChunk _ _, .chunkDownloadStarted _ _ => true
  | .setChunkAsReceived _ _, .personalReceivedUpdated _ _
  | .setChunkAsReceived _ _, .chunksWasRemoved _ | .setChunkAsReceived _ _, .newChunkIsAllowed _
  | .setChunkAsReceived _ _, .bytesOutUpdated _ | .setChunkAsReceived _ _, .chunksAreUnfrozen
  | .setChunkAsReceived _ _, .chunkDownloadFinished _ _ => true
  | .setEndOfFile, .fileUploadFinished => true
  | .dropInitialChunksFreeze, .chunksWasRemoved _ | .dropInitialChunksFreeze, .newChunkIsAllowed _
  | .dropInitialChunksFreeze, .chunksAreUnfrozen => true
  | _, _ => false

theorem forall_removedEvents (hp : ∀ ids, p (.chunksWasRemoved ids) = true) (ids : List ℕ) :
  ∀ e ∈ removedEvents ids, p e = true
  := by
  intro e he
  rw [mem_removedEvents he]
  apply hp

theorem forall_allowedEdge (hp : ∀ status, p (.newChunkIsAllowed status) = true)
    (old new : Bool) :
  ∀ e ∈ allowedEdge old new, p e = true
  := by
  rw [allowedEdge]
  split
  · rw [List.forall_mem_singleton]
    apply hp
  · apply List.forall_mem_nil

theorem publishes_addChunk (config : Config) (s : TransferSession) (binaryData : Bytes) :
  Publishes (Op.addChunk binaryData).publishes s (s.addChunk config binaryData).1
  := by
  by_cases h : (s.buffer.addChunk config binaryData).2 = 0
  · apply Publishes.of_events_eq
    simp [addChunk, h]
  · rw [addChunk_of_accepted config s h]
    refine ⟨_, rfl, ?_⟩
    simp only [List.forall_mem_append, List.forall_mem_singleton]
    exact ⟨⟨rfl, forall_allowedEdge (fun _ => rfl) _ _⟩, rfl⟩

theorem publishes_addReceiver (config : Config) (s : TransferSession) (c : ClientRef) :
  Publishes (Op.addReceiver c).publishes s (s.addReceiver config c).1
  := by
  cases ha : (s.addReceiver config c).2 with
  | false =>
      rw [addReceiver_of_false ha]
      apply Publishes.of_events_eq rfl
  | true =>
      rw [(addReceiver_of_true ha).2]
      use [.newReceiver c], rfl
      simp [Op.publishes]

theorem publishes_dropInitialChunksFreeze (config : Config) (s : TransferSession) :
  Publishes Op.dropInitialChunksFreeze.publishes s (s.dropInitialChunksFreeze config)
  := by
  cases hf : s.buffer.initialChunksFreezing with
  | false =>
      rw [dropInitialChunksFreeze_of_not_freezing hf]
      apply Publishes.of_events_eq rfl
  | true =>
      by_cases hun : s.dataReceivers = [] ∨ s.fileInfo.name = []
      · obtain ⟨type, heq⟩ := dropInitialChunksFreeze_of_unready config hf hun
        rw [heq]
        apply Publishes.of_events_eq rfl
      · rw [not_or] at hun
        rw [dropInitialChunksFreeze_of_ready config hf hun.1 hun.2, List.append_assoc]
        refine ⟨_, rfl, ?_⟩
        simp only [List.forall_mem_append, List.forall_mem_cons, List.not_mem_nil, false_imp_iff,
          implies_true, and_true]
        exact ⟨forall_removedEvents (fun _ => rfl) _, rfl, rfl⟩

theorem publishes_confirmChunk (config : Config) (s : TransferSession) (i : ℕ) (c : ClientRef) :
  Publishes (Op.setChunkAsReceived i c).publishes s (s.confirmChunk config i c)
  := by
  cases hi : s.buffer.chunks.find? i with
  | none =>
      rw [confirmChunk_of_none hi]
      apply Publishes.of_events_eq rfl
  | some chunk =>
      rw [confirmChunk_of_some config hi, List.append_assoc, List.append_assoc,
        List.append_assoc]
      refine ⟨_, rfl, ?_⟩
      simp only [List.forall_mem_append, List.forall_mem_cons, List.not_mem_nil, false_imp_iff,
          implies_true, and_true]
      exact ⟨rfl, forall_removedEvents (fun _ => rfl) _, forall_allowedEdge (fun _ => rfl) _ _,
        rfl, rfl⟩

theorem publishes_setChunkAsReceived (config : Config) (s : TransferSession) (i : ℕ)
    (c : ClientRef) :
  Publishes (Op.setChunkAsReceived i c).publishes s (s.setChunkAsReceived config i c)
  := by
  refine Publishes.trans ?_ (publishes_confirmChunk config (s.autoDropFreeze config) i c)
  rw [autoDropFreeze_eq]
  split
  · refine Publishes.mono ?_
      (publishes_dropInitialChunksFreeze config { s with autoDropFreezeFired := true })
    intro e he
    cases e with
    | chunksWasRemoved | newChunkIsAllowed | chunksAreUnfrozen => rfl
    | _ => cases he
  · apply Publishes.of_events_eq rfl

theorem publishes_setFileInfo (s : TransferSession) (info : FileInfo) :
  Publishes (Op.setFileInfo info).publishes s (s.setFileInfo info).1
  := by
  rw [setFileInfo]
  split_ifs
  · apply Publishes.of_events_eq rfl
  · apply Publishes.of_events_eq rfl
  · refine ⟨[.fileInfoUpdated _], rfl, ?_⟩
    rw [List.forall_mem_singleton]
    rfl

theorem publishes_getChunk (s : TransferSession) (i : ℕ) (c : ClientRef) :
  Publishes (Op.getChunk i c).publishes s (s.getChunk i c).1
  := by
  rw [getChunk]
  dsimp only
  split
  · apply Publishes.of_events_eq rfl
  · use [.chunkDownloadStarted c.publicId i], rfl
    rw [List.forall_mem_singleton]
    rfl

theorem publishes_setEndOfFile (s : TransferSession) :
  Publishes Op.setEndOfFile.publishes s s.setEndOfFile
  := by
  cases he : s.buffer.EOF with
  | true =>
      rw [setEndOfFile_of_eof he]
      apply Publishes.of_events_eq rfl
  | false =>
      rw [setEndOfFile_of_not_eof he]
      use [.fileUploadFinished], rfl
      rw [List.forall_mem_singleton]
      rfl

theorem publishes_apply (config : Config) {op : Op} (hd : s.departure op = none) :
  Publishes op.publishes s (s.apply config op)
  := by
  cases op with
  | addChunk binaryData => apply publishes_addChunk
  | addReceiver c => apply publishes_addReceiver
  | removeReceiver publicId => cases hd
  | destroyClient c =>
      obtain ⟨listed, type, heq, -⟩ := destroyClient_of_departure_none hd
      rw [apply, heq]
      apply Publishes.of_events_eq rfl
  | setFileInfo info => apply publishes_setFileInfo
  | getChunk i c => apply publishes_getChunk
  | setChunkAsReceived i c => apply publishes_setChunkAsReceived
  | setEndOfFile => apply publishes_setEndOfFile
  | dropInitialChunksFreeze => apply publishes_dropInitialChunksFreeze
  | manualTerminate | lifetimeTimeout | connect | disconnect =>
      apply Publishes.of_events_eq rfl

/-! ### Departures -/

/-- The removed client is destroyed meanwhile, and its destructor announces the departure. -/
def announcesTwice (s : TransferSession) (publicId : String) : Bool :=
  (s.expelled publicId).any fun client =>
    decide (client ∈ s.subscribers) && !(s.expire client).takenForSender publicId

/-- The events of a departure. -/
def departureEvents (s : TransferSession) (publicId : String) : List Event :=
  removedEvents (s.buffer.removeOneFromExpectedConsumers publicId).2
    ++ (s.removedClient publicId).toList.map .kicked
    ++ List.replicate (if s.announcesTwice publicId then 2 else 1) (.receiverRemoved publicId)

theorem mem_departureEvents {publicId : String} {e : Event}
    (he : e ∈ s.departureEvents publicId) :
  (∃ ids, e = .chunksWasRemoved ids) ∨ (∃ c, s.removedClient publicId = some c ∧ e = .kicked c)
    ∨ e = .receiverRemoved publicId
  := by
  rw [departureEvents, List.mem_append, List.mem_append] at he
  obtain (he | he) | he := he
  · exact Or.inl ⟨_, mem_removedEvents he⟩
  · obtain ⟨c, hc, rfl⟩ := List.mem_map.mp he
    right; left
    use c, Option.mem_toList.mp hc
  · right; right
    apply List.eq_of_mem_replicate he

theorem events_kick {c : ClientRef} (hconn : c ∉ s.connected)
    (hr : ∀ x ∈ s.dataReceivers, s.alive x = true ∧ x.publicId ≠ c.publicId)
    (hb : c.publicId ∉ s.buffer.expectedConsumers) {twice : Bool}
    (ht : (decide (c ∈ s.subscribers) && !(s.expire c).takenForSender c.publicId) = twice) :
  (kick c s).events = s.events ++ if twice then [.receiverRemoved c.publicId] else []
  := by
  rw [kick_of_gone hconn hr hb, ← ht]
  by_cases hsub : c ∈ s.subscribers
  · cases (s.expire c).takenForSender c.publicId with
    | true =>
        simp only [hsub, if_true, decide_true, Bool.not_true, Bool.and_false, Bool.false_eq_true,
          if_false, List.append_nil]
        split_ifs <;> rfl
    | false =>
        simp only [hsub, if_true, Bool.false_eq_true, if_false, decide_true, Bool.not_false,
          Bool.and_true, terminateIfDeserted_eq]
        rfl
  · simp only [hsub, if_false, decide_false, Bool.false_and, Bool.false_eq_true, List.append_nil]
    rfl

theorem events_removeReceiver (publicId : String) (s : TransferSession) :
  (s.removeReceiver publicId).events = s.events ++ s.departureEvents publicId
  := by
  rw [removeReceiver_eq, terminateIfDeserted_eq, departureEvents]
  cases hc : s.removedClient publicId with
  | none => simp [announcesTwice, expelled, hc, notifyRemoved_eq, notify, without]
  | some c =>
      obtain ⟨-, -, rfl⟩ := removedClient_eq_some hc
      by_cases hconn : c ∈ s.connected
      · simp [announcesTwice, expelled, hc, kick, hconn, notifyRemoved_eq, notify, without]
      · have hr : ∀ x ∈ (s.without c.publicId).dataReceivers,
            s.alive x = true ∧ x.publicId ≠ c.publicId := fun x hx => (mem_remaining.mp hx).2
        have hb : c.publicId ∉ (s.without c.publicId).buffer.expectedConsumers := by
          simp [without]
        have htwice : (decide (c ∈ s.subscribers) && !(s.expire c).takenForSender c.publicId)
            = s.announcesTwice c.publicId := by
          rw [announcesTwice, expelled, hc, Option.filter_some_pos (by simpa using hconn)]
          rfl
        have hkick := events_kick (s := { s.without c.publicId with
          events := s.events
            ++ removedEvents (s.buffer.removeOneFromExpectedConsumers c.publicId).2
            ++ [.kicked c] }) hconn hr hb htwice
        simp only [notify, notifyRemoved_eq, without] at hkick ⊢
        rw [hkick]
        cases s.announcesTwice c.publicId with
        | true => simp [List.replicate]
        | false => simp

/-! ### The events of a step -/

/-- The events an operation publishes. -/
def published (config : Config) (s : TransferSession) (op : Op) : List Event :=
  (s.step config op).events.drop s.events.length

/-- The event of the destructor. -/
def endEvents (s : TransferSession) : List Event :=
  if s.listed then [] else [.complete s.completeType]

theorem mem_endEvents {e : Event} (he : e ∈ s.endEvents) :
  e = .complete s.completeType
  := by
  rw [endEvents] at he
  split at he
  · cases he
  · apply List.mem_singleton.mp he

theorem events_finish (s : TransferSession) :
  s.finish.events = s.events ++ s.endEvents
  := by
  rw [finish, endEvents]
  split
  · rw [List.append_nil]
  · rfl

theorem published_of_not_applied {op : Op} (h : ¬(s.listed = true ∧ s.enabled op = true)) :
  s.published config op = []
  := by
  rw [published, step_of_not_enabled h, List.drop_length]

theorem published_of_departure {op : Op} (hl : s.listed = true) (he : s.enabled op = true)
    {publicId : String} (hd : s.departure op = some (t, publicId)) :
  s.published config op = t.departureEvents publicId ++ (t.removeReceiver publicId).endEvents
  := by
  have hevents : t.events = s.events := by
    obtain ⟨-, rfl⟩ | ⟨_, -, rfl, -⟩ := departure_eq_some.mp hd <;> rfl
  rw [published, step_of_enabled hl he, apply_of_departure hd, events_finish,
    events_removeReceiver, hevents, List.append_assoc, List.drop_left]

/-- An operation that is no departure publishes its own events, and `complete` where it ends
the session. -/
theorem published_of_no_departure (config : Config) {op : Op} (hl : s.listed = true)
    (he : s.enabled op = true) (hd : s.departure op = none) :
  ∃ es, s.published config op = es ++ (s.apply config op).endEvents
    ∧ ∀ e ∈ es, op.publishes e = true
  := by
  obtain ⟨es, hes, hp⟩ := publishes_apply config hd
  use es
  constructor
  · rw [published, step_of_enabled hl he, events_finish, hes, List.append_assoc, List.drop_left]
  · apply hp

theorem mem_published {op : Op} (hd : s.departure op = none) {e : Event}
    (he : e ∈ s.published config op) :
  op.publishes e = true ∨ ∃ type, e = .complete type
  := by
  by_cases happlied : s.listed = true ∧ s.enabled op = true
  · obtain ⟨es, heq, hp⟩ := published_of_no_departure config happlied.1 happlied.2 hd
    rw [heq, List.mem_append, endEvents] at he
    obtain he | he := he
    · exact .inl (hp e he)
    · split at he
      · cases he
      · exact .inr ⟨_, List.mem_singleton.mp he⟩
  · rw [published_of_not_applied happlied] at he
    cases he

theorem events_step (config : Config) (s : TransferSession) (op : Op) :
  (s.step config op).events = s.events ++ s.published config op
  := by
  have hprefix : s.events <+: (s.step config op).events := by
    by_cases happlied : s.listed = true ∧ s.enabled op = true
    · rw [step_of_enabled happlied.1 happlied.2, events_finish]
      apply List.IsPrefix.trans _ (List.prefix_append ..)
      cases hd : s.departure op with
      | none =>
          obtain ⟨es, hes, -⟩ := publishes_apply config hd
          rw [hes]
          apply List.prefix_append
      | some d =>
          have hevents : d.1.events = s.events := by
            obtain ⟨-, h⟩ | ⟨_, -, h, -⟩ := departure_eq_some.mp hd
            · rw [h]
            · rw [h]
              rfl
          rw [apply_of_departure hd, events_removeReceiver, hevents]
          apply List.prefix_append
    · rw [step_of_not_enabled happlied]
  rw [published, ← List.prefix_iff_eq_append.mp hprefix, List.drop_left]

end TransferSession

import PutInPipe.Buffer.Log
import PutInPipe.Session.History
import PutInPipe.Web.Sender

/-!
# The events mirror the buffer

Whoever gets the events of a session from its creation knows which chunks are stored: it
adds an index when the chunk is announced as new, and deletes those announced as removed.
`Mirrored` says so, and that each index is announced once in each way, in that order. The
page of the sender keeps only the number of the chunks.

Chunks are taken off on behalf of a confirmation, of the end of the freeze and of a
departure, and each may come about within another. `Reports` is what an operation, or a part
of one, has to say of the chunks it takes off, so that the parts can be put together.
-/

open TransferSessionDetails TransferSession

namespace Event

/-- The index the event announces as new. -/
def added : Event → List ℕ
  | .newChunkIsAvailable index _ => [index]
  | _ => []

/-- The indices the event announces as removed. -/
def removed : Event → List ℕ
  | .chunksWasRemoved ids => ids
  | _ => []

/-- Add the index that is announced as new, delete those announced as removed. -/
def replay (stored : Finset ℕ) : Event → Finset ℕ
  | .newChunkIsAvailable index _ => insert index stored
  | .chunksWasRemoved ids => stored \ ids.toFinset
  | _ => stored

/-- The indices announced as new, in the order of the events. -/
def announced (events : List Event) : List ℕ := events.flatMap added

/-- The indices announced as removed, in the order of the events. -/
def reported (events : List Event) : List ℕ := events.flatMap removed

variable {es es' : List Event}

@[simp]
theorem announced_append :
  announced (es ++ es') = announced es ++ announced es'
  := List.flatMap_append

@[simp]
theorem reported_append :
  reported (es ++ es') = reported es ++ reported es'
  := List.flatMap_append

theorem replay_eq (stored : Finset ℕ) (e : Event) :
  e.replay stored = (stored ∪ e.added.toFinset) \ e.removed.toFinset
  := by
  cases e with
  | newChunkIsAvailable index size => simp [replay, added, removed, Finset.union_singleton]
  | chunksWasRemoved ids => simp [replay, added, removed]
  | _ => simp [replay, added, removed]

/-- Where nothing is announced as removed, a replay adds what is announced as new. -/
theorem replay_of_reported_nil (h : reported es = []) (stored : Finset ℕ) :
  es.foldl replay stored = stored ∪ (announced es).toFinset
  := by
  induction es generalizing stored with
  | nil => simp [announced]
  | cons e es ih =>
      obtain ⟨he, hes⟩ := List.append_eq_nil_iff.mp h
      rw [List.foldl_cons, ih hes, replay_eq, he]
      simp [announced, Finset.union_assoc]

/-- Where nothing is announced as new, a replay deletes what is announced as removed. -/
theorem replay_of_announced_nil (h : announced es = []) (stored : Finset ℕ) :
  es.foldl replay stored = stored \ (reported es).toFinset
  := by
  induction es generalizing stored with
  | nil => simp [reported]
  | cons e es ih =>
      obtain ⟨he, hes⟩ := List.append_eq_nil_iff.mp h
      rw [List.foldl_cons, ih hes, replay_eq, he]
      simp [reported, sdiff_sdiff_left]

theorem reported_removedEvents (ids : List ℕ) :
  reported (removedEvents ids) = ids
  := by
  rw [removedEvents]
  split
  · next h => rw [List.isEmpty_iff.mp h]; rfl
  · simp [reported, removed]

theorem announced_removedEvents (ids : List ℕ) :
  announced (removedEvents ids) = []
  := by
  rw [removedEvents]
  split <;> rfl

theorem reported_allowedEdge (old new : Bool) :
  reported (allowedEdge old new) = []
  := by
  rw [allowedEdge]
  split <;> rfl

theorem announced_allowedEdge (old new : Bool) :
  announced (allowedEdge old new) = []
  := by
  rw [allowedEdge]
  split <;> rfl

end Event

namespace TransferSession

variable {config : Config} {s t u : TransferSession} {es es' : List Event}

/-! ### What an operation reports -/

/-- From `s` to `t` the events `es` are sent, and chunks are taken off, each of them reported
once. -/
structure Reports (s t : TransferSession) (es : List Event) : Prop where
  events : t.events = s.events ++ es
  announced : Event.announced es = []
  maxIndex : t.buffer.chunksMaxIndex = s.buffer.chunksMaxIndex
  takesOff : s.buffer.TakesOff t.buffer (Event.reported es)

namespace Reports

theorem trans (h : s.Reports t es) (h' : t.Reports u es') :
  s.Reports u (es ++ es')
  where
    events := by rw [h'.events, h.events, List.append_assoc]
    announced := by rw [Event.announced_append, h.announced, h'.announced, List.append_nil]
    maxIndex := h'.maxIndex.trans h.maxIndex
    takesOff := by
      rw [Event.reported_append]
      apply h.takesOff.trans h'.takesOff

/-- Silent events report that the chunks are the same. -/
theorem of_silent (he : t.events = s.events ++ es)
    (hs : Event.announced es = [] ∧ Event.reported es = [])
    (hchunks : t.buffer.chunks = s.buffer.chunks)
    (hmax : t.buffer.chunksMaxIndex = s.buffer.chunksMaxIndex) :
  s.Reports t es
  where
    events := he
    announced := hs.1
    maxIndex := hmax
    takesOff := by
      rw [hs.2]
      exact .of_chunks_eq hchunks

/-- Nothing has happened to the events and to the buffer. -/
theorem of_same (he : t.events = s.events) (hb : t.buffer = s.buffer) :
  s.Reports t []
  := of_silent (by rw [he, List.append_nil]) ⟨rfl, rfl⟩ (by rw [hb]) (by rw [hb])

end Reports

/-- A departure reports the chunks it takes off, and so does the departure of a destroyed
client within it. -/
theorem departs_reports :
  Departs (fun s t => ∃ es, s.Reports t es)
  where
    refl s := ⟨[], .of_same rfl rfl⟩
    trans := by
      rintro s t u ⟨es, h⟩ ⟨es', h'⟩
      exact ⟨es ++ es', h.trans h'⟩
    without s publicId := by
      rw [notifyRemoved_eq]
      exact ⟨_, {
        events := rfl
        announced := Event.announced_removedEvents _
        maxIndex := Buffer.chunksMaxIndex_removeOne publicId
        takesOff := by
          rw [Event.reported_removedEvents]
          exact .removeOneFromExpectedConsumers s.buffer publicId }⟩
    kicked s c := ⟨[.kicked c], .of_silent rfl ⟨rfl, rfl⟩ rfl rfl⟩
    receiverRemoved s publicId := ⟨[.receiverRemoved publicId], .of_silent rfl ⟨rfl, rfl⟩ rfl rfl⟩
    expire s c := ⟨[], .of_same rfl rfl⟩
    terminate s type := ⟨[], .of_same rfl rfl⟩

/-- The end of the freeze reports what it takes off a session that goes on. -/
theorem reports_dropInitialChunksFreeze (config : Config) (s : TransferSession) :
  WhileListed (fun t => ∃ es, s.Reports t es) (s.dropInitialChunksFreeze config)
  := by
  apply whileListed_dropInitialChunksFreeze
  · exact fun _ => ⟨[], .of_same rfl rfl⟩
  · intro hf hr hn _
    rw [dropInitialChunksFreeze_of_ready config hf hr hn, List.append_assoc]
    refine ⟨_, rfl, ?_, ?_, ?_⟩
    · rw [Event.announced_append, Event.announced_removedEvents]
      rfl
    · apply Buffer.chunksMaxIndex_setInitialChunksFreezingDropped
    · rw [Event.reported_append, Event.reported_removedEvents]
      apply (Buffer.TakesOff.setInitialChunksFreezingDropped s.buffer).trans (.of_chunks_eq rfl)

theorem reports_autoDropFreeze (config : Config) (s : TransferSession) :
  WhileListed (fun t => ∃ es, s.Reports t es) (s.autoDropFreeze config)
  := by
  rw [autoDropFreeze_eq]
  split
  · intro hl
    obtain ⟨es, h⟩ :=
      reports_dropInitialChunksFreeze config { s with autoDropFreezeFired := true } hl
    exact ⟨es, h.events, h.announced, h.maxIndex, h.takesOff⟩
  · exact fun _ => ⟨[], .of_same rfl rfl⟩

theorem reports_confirmChunk (config : Config) (s : TransferSession) (i : ℕ) (c : ClientRef) :
  ∃ es, s.Reports (s.confirmChunk config i c) es
  := by
  cases hi : s.buffer.chunks.find? i with
  | none =>
      rw [confirmChunk_of_none hi]
      exact ⟨[], .of_same rfl rfl⟩
  | some chunk =>
      rw [confirmChunk_of_some config hi, List.append_assoc, List.append_assoc,
        List.append_assoc]
      refine ⟨_, rfl, ?_, ?_, ?_⟩
      · simp only [Event.announced_append, Event.announced_removedEvents,
          Event.announced_allowedEdge]
        rfl
      · rw [Buffer.chunksMaxIndex_setChunkAsReceived, Buffer.chunksMaxIndex_get]
      · simp only [Event.reported_append, Event.reported_removedEvents,
          Event.reported_allowedEdge]
        have hget : s.buffer.TakesOff (s.buffer.get i).1 [] :=
          .of_chunks_eq (Buffer.chunks_get i)
        apply (hget.trans (.setChunkAsReceived _ i)).trans (.of_chunks_eq rfl)

/-- A confirmation reports what the end of the freeze takes off, and then what it takes off
itself. -/
theorem reports_setChunkAsReceived (config : Config) (s : TransferSession) (i : ℕ)
    (c : ClientRef) :
  WhileListed (fun t => ∃ es, s.Reports t es) (s.setChunkAsReceived config i c)
  := by
  apply whileListed_setChunkAsReceived
  · apply reports_autoDropFreeze
  · rintro t ⟨es, h⟩ _
    obtain ⟨es', h'⟩ := reports_confirmChunk config t i c
    exact ⟨es ++ es', h.trans h'⟩

/-- From `s` to `t` a chunk is stored, and the events `es` are sent, which announce it. -/
structure Adds (s t : TransferSession) (es : List Event) : Prop where
  events : t.events = s.events ++ es
  announced : Event.announced es = [s.buffer.chunksMaxIndex + 1]
  reported : Event.reported es = []
  maxIndex : t.buffer.chunksMaxIndex = s.buffer.chunksMaxIndex + 1
  stored : ∀ i, i ∈ t.buffer.chunksIndex
    ↔ i ∈ s.buffer.chunksIndex ∨ i = s.buffer.chunksMaxIndex + 1
  count : t.buffer.chunkCount = s.buffer.chunkCount + 1

/-- A payload is rejected and nothing happens, or it is accepted and announced. -/
theorem adds_addChunk (hw : s.buffer.WellFormed config) (binaryData : Bytes) :
  s.addChunk config binaryData = (s, false)
    ∨ (s.addChunk config binaryData).2 = true
      ∧ ∃ es, s.Adds (s.addChunk config binaryData).1 es
  := by
  obtain ⟨heof, hsize, hroom⟩ | hno := Buffer.addChunk_cases config s.buffer binaryData
  · right
    have hacc := hw.addChunk_of_accepted heof hsize hroom
    have hne : (s.buffer.addChunk config binaryData).2 ≠ 0 := by simp [hacc]
    rw [addChunk_of_accepted config s hne]
    refine ⟨rfl, _, rfl, ?_, ?_, ?_, ?_, ?_⟩
    · simp only [Event.announced_append, Event.announced_allowedEdge, hacc]
      rfl
    · simp only [Event.reported_append, Event.reported_allowedEdge]
      rfl
    · rw [hacc]
    · intro i
      simp only [hacc, Buffer.chunksIndex, OrderedMap.mem_keys,
        OrderedMap.find?_tryEmplace _ hw.find?_next]
      split
      · next hi => simp [hi]
      · next hi => simp [hi]
    · simp only [hacc, Buffer.chunkCount, OrderedMap.size_tryEmplace _ hw.find?_next]
  · exact .inl (addChunk_of_rejected hno)

theorem reports_setEndOfFile (s : TransferSession) :
  ∃ es, s.Reports s.setEndOfFile es
  := by
  cases he : s.buffer.EOF with
  | true =>
      rw [setEndOfFile_of_eof he]
      exact ⟨[], .of_same rfl rfl⟩
  | false =>
      rw [setEndOfFile_of_not_eof he]
      refine ⟨_, .of_silent rfl ⟨rfl, rfl⟩ ?_ ?_⟩
      · rw [Buffer.setEndOfFile, he]
        rfl
      · rw [Buffer.setEndOfFile, he]
        rfl

theorem reports_addReceiver (config : Config) (s : TransferSession) (c : ClientRef) :
  ∃ es, s.Reports (s.addReceiver config c).1 es
  := by
  cases ha : (s.addReceiver config c).2 with
  | false =>
      rw [addReceiver_of_false ha]
      exact ⟨[], .of_same rfl rfl⟩
  | true =>
      rw [(addReceiver_of_true ha).2]
      exact ⟨_, .of_silent rfl ⟨rfl, rfl⟩ rfl rfl⟩

theorem reports_setFileInfo (s : TransferSession) (info : FileInfo) :
  ∃ es, s.Reports (s.setFileInfo info).1 es
  := by
  rw [setFileInfo]
  split
  · exact ⟨[], .of_same rfl rfl⟩
  split
  · exact ⟨[], .of_same rfl rfl⟩
  · exact ⟨_, .of_silent rfl ⟨rfl, rfl⟩ rfl rfl⟩

theorem reports_getChunk (s : TransferSession) (i : ℕ) (c : ClientRef) :
  ∃ es, s.Reports (s.getChunk i c).1 es
  := by
  rw [getChunk]
  dsimp only
  split
  · refine ⟨[], .of_silent (List.append_nil _).symm ⟨rfl, rfl⟩ ?_ ?_⟩
    · apply Buffer.chunks_get
    · apply Buffer.chunksMaxIndex_get
  · refine ⟨_, .of_silent rfl ⟨rfl, rfl⟩ ?_ ?_⟩
    · apply Buffer.chunks_get
    · apply Buffer.chunksMaxIndex_get

/-- An operation that is not the upload of a chunk reports what it takes off a session that
goes on. -/
theorem reports_apply (config : Config) (s : TransferSession) {op : Op}
    (hop : ∀ binaryData, op ≠ .addChunk binaryData) :
  WhileListed (fun t => ∃ es, s.Reports t es) (s.apply config op)
  := by
  cases op with
  | addChunk binaryData => exact absurd rfl (hop binaryData)
  | addReceiver c => exact fun _ => reports_addReceiver config s c
  | removeReceiver publicId => exact fun _ => departs_reports.removeReceiver publicId s
  | destroyClient c => exact fun _ => departs_reports.destroyClient c s
  | setFileInfo info => exact fun _ => reports_setFileInfo s info
  | getChunk i c => exact fun _ => reports_getChunk s i c
  | setChunkAsReceived i c => exact reports_setChunkAsReceived config s i c
  | setEndOfFile => exact fun _ => reports_setEndOfFile s
  | dropInitialChunksFreeze => exact reports_dropInitialChunksFreeze config s
  | manualTerminate => exact fun _ => ⟨[], .of_same rfl rfl⟩
  | lifetimeTimeout => exact fun _ => ⟨[], .of_same rfl rfl⟩
  | connect c => exact fun _ => ⟨[], .of_same rfl rfl⟩
  | disconnect c => exact fun _ => ⟨[], .of_same rfl rfl⟩

end TransferSession

/-! ### The page of the sender -/

/-- The number of the chunks the page counts after a message. -/
def Message.count (n : ℕ) : Message → ℕ
  | .newChunk _ _ => n + 1
  | .chunkRemoved ids => n - ids.length
  | .startInit chunks _ => chunks.length
  | _ => n

namespace SessionSender

/-- What happens to the page: the file is selected, the loop goes on with the bytes of a
slice, fails or finds the WebSocket open again, or a message comes. -/
inductive Action where
  | select
  | read (isConnected : Bool) (payload : Bytes)
  | error
  | connect
  | get (message : Message)
deriving DecidableEq, Repr

def Action.got : Action → Option Message
  | .get message => some message
  | _ => none

variable (config : Config) (file : SelectedFile)

def act (p : SessionSender) : Action → SessionSender
  | .select => (p.handleFileSelect config file).1
  | .read isConnected payload => (p.onSliceRead isConnected payload).1
  | .error => p.onError
  | .connect => p.onOpen
  | .get message => (p.onMessage config file message).1

variable {config : Config} {file : SelectedFile}

theorem bufferUsed_next (p : SessionSender) (i : ℕ) :
  (p.next config file i).1.bufferUsed = p.bufferUsed
  := by
  rw [next]
  split <;> rfl

theorem bufferUsed_accepted (p : SessionSender) (i : ℕ) :
  (p.accepted config file i).1.bufferUsed = p.bufferUsed
  := by
  rw [accepted]
  dsimp only
  split
  · rfl
  · apply bufferUsed_next

theorem bufferUsed_onMessage (p : SessionSender) (message : Message) :
  (p.onMessage config file message).1.bufferUsed = message.count p.bufferUsed
  := by
  cases message with
  | newChunk index size =>
      simp only [onMessage, onNewChunkEvent]
      split
      · apply bufferUsed_accepted
      · rfl
  | newChunkAllowed status =>
      simp only [onMessage, onNewChunkAllowed]
      split
      · split
        · apply bufferUsed_next
        · rfl
      · rfl
  | chunkRemoved ids => rfl
  | addChunkFailure => rfl
  | startInit chunks currentChunk =>
      simp only [onMessage, onReconnectInit]
      split
      · apply bufferUsed_accepted
      · split
        · apply bufferUsed_next
        · rfl
      · rfl

/-- The page counts the chunks by the messages alone. -/
theorem bufferUsed_act (p : SessionSender) (action : Action) :
  (p.act config file action).bufferUsed
    = action.got.elim p.bufferUsed (Message.count p.bufferUsed)
  := by
  cases action with
  | select =>
      simp only [act, handleFileSelect]
      split
      · apply bufferUsed_next
      · rfl
  | read isConnected payload =>
      simp only [act, onSliceRead]
      split
      · split <;> rfl
      · rfl
  | error =>
      simp only [act, onError]
      split <;> rfl
  | connect =>
      simp only [act, onOpen]
      split <;> rfl
  | get message => apply bufferUsed_onMessage

theorem bufferUsed_run (p : SessionSender) (actions : List Action) :
  (Machine.run (act config file) p actions).bufferUsed
    = (actions.filterMap Action.got).foldl Message.count p.bufferUsed
  := by
  induction actions generalizing p with
  | nil => rfl
  | cons action actions ih =>
      rw [Machine.run_cons, ih, bufferUsed_act, List.filterMap_cons]
      cases action.got with
      | none => rfl
      | some message => rfl

end SessionSender

namespace Event

/-- What the page counts by the messages made of events. -/
def counted (n : ℕ) (es : List Event) : ℕ := (es.filterMap Message.ofEvent).foldl Message.count n

theorem counted_append (n : ℕ) (es es' : List Event) :
  counted n (es ++ es') = counted (counted n es) es'
  := by
  rw [counted, List.filterMap_append, List.foldl_append]
  rfl

theorem counted_eq (n : ℕ) (e : Event) :
  counted n [e] = n + e.added.length - e.removed.length
  := by
  cases e <;> rfl

theorem counted_of_reported_nil {es : List Event} (h : reported es = []) (n : ℕ) :
  counted n es = n + (announced es).length
  := by
  induction es generalizing n with
  | nil => rfl
  | cons e es ih =>
      obtain ⟨he, hes⟩ := List.append_eq_nil_iff.mp h
      rw [← List.singleton_append, counted_append, ih hes, counted_eq, he, announced_append]
      simp [announced, Nat.add_assoc]

theorem counted_of_announced_nil {es : List Event} (h : announced es = []) (n : ℕ) :
  counted n es = n - (reported es).length
  := by
  induction es generalizing n with
  | nil => rfl
  | cons e es ih =>
      obtain ⟨he, hes⟩ := List.append_eq_nil_iff.mp h
      rw [← List.singleton_append, counted_append, ih hes, counted_eq, he, reported_append]
      simp [reported, Nat.sub_sub]

/-- What is announced as removed has been announced as new before. -/
def InOrder (events : List Event) : Prop :=
  ∀ pre ids post, events = pre ++ .chunksWasRemoved ids :: post → ∀ i ∈ ids, i ∈ announced pre

theorem InOrder.append {events es : List Event} (h : InOrder events)
    (hes : ∀ i ∈ reported es, i ∈ announced events) :
  InOrder (events ++ es)
  := by
  have hnew : ∀ as ids post, es = as ++ .chunksWasRemoved ids :: post →
      ∀ i ∈ ids, i ∈ announced (events ++ as) := by
    rintro as ids post rfl i hi
    rw [announced_append]
    apply List.mem_append_left
    apply hes i
    rw [reported_append]
    apply List.mem_append_right _ (List.mem_append_left _ hi)
  intro pre ids post heq
  obtain ⟨as, rfl, hpost⟩ | ⟨bs, rfl, hpost⟩ := List.append_eq_append_iff.mp heq
  · apply hnew as ids post hpost
  · cases bs with
    | nil =>
        rw [List.append_nil] at hnew
        have hnil := hnew [] ids post hpost.symm
        rwa [List.append_nil] at hnil
    | cons e bs =>
        obtain ⟨rfl, -⟩ := List.cons_eq_cons.mp hpost
        apply h pre ids bs rfl

end Event

namespace History

variable {config : Config} {h : History}

/-! ### The mirror -/

/-- The events say which chunks are stored. The chunks are numbered in the order in which
they are accepted; each is announced as new once, each that is not stored any more as
removed once and after that. The page of the sender, once it has got the messages, whatever
else has happened to it, counts the chunks that are stored. -/
structure Mirrored (h : History) : Prop where
  numbered : h.session.buffer.currentMaxChunkIndex = h.log.length
  replayed : h.session.events.foldl Event.replay ∅ = h.session.buffer.chunksIndex.toFinset
  announced : Event.announced h.session.events = List.range' 1 h.log.length
  reported : (Event.reported h.session.events).Nodup
  removed : ∀ i, i ∈ Event.reported h.session.events
    ↔ (1 ≤ i ∧ i ≤ h.log.length) ∧ i ∉ h.session.buffer.chunksIndex
  inOrder : Event.InOrder h.session.events
  counted : ∀ (config : Config) (file : SelectedFile) (actions : List SessionSender.Action),
    actions.filterMap SessionSender.Action.got = h.session.events.filterMap Message.ofEvent →
      (Machine.run (SessionSender.act config file) {} actions).bufferUsed
        = h.session.buffer.chunkCount

/-- The page counts the chunks whatever else happens to it. -/
theorem counted_iff {events : List Event} {n : ℕ} :
  (∀ (config : Config) (file : SelectedFile) (actions : List SessionSender.Action),
      actions.filterMap SessionSender.Action.got = events.filterMap Message.ofEvent →
        (Machine.run (SessionSender.act config file) {} actions).bufferUsed = n)
    ↔ Event.counted 0 events = n
  := by
  constructor
  · intro hrun
    have hgot : ((events.filterMap Message.ofEvent).map SessionSender.Action.get).filterMap
        SessionSender.Action.got = events.filterMap Message.ofEvent := by
      rw [List.filterMap_map]
      apply List.filterMap_some
    rw [← hrun ⟨0, 0, 0⟩ ⟨[], []⟩ _ hgot, SessionSender.bufferUsed_run, hgot]
    rfl
  · intro hn config file actions hgot
    rw [SessionSender.bufferUsed_run, hgot]
    apply hn

theorem Mirrored.create (sender : ClientRef) (auto : Bool) :
  (create sender auto).Mirrored
  where
    numbered := rfl
    replayed := rfl
    announced := rfl
    reported := List.nodup_nil
    removed i := by
      simp only [History.create, TransferSession.create, Event.reported, List.flatMap_nil,
        List.not_mem_nil, List.length_nil, false_iff, not_and]
      omega
    inOrder pre ids post heq := by simp [History.create, TransferSession.create] at heq
    counted := counted_iff.mpr rfl

/-- A chunk that is stored has been announced. -/
theorem Mirrored.mem_announced (hm : h.Mirrored) (hw : h.session.buffer.WellFormed config) {i : ℕ}
    (hi : i ∈ h.session.buffer.chunksIndex) :
  i ∈ Event.announced h.session.events
  := by
  obtain ⟨chunk, hchunk⟩ := OrderedMap.mem_keys.mp hi
  have hnum := hw.numbered hchunk
  rw [hm.announced, List.mem_range'_1, ← hm.numbered, Buffer.currentMaxChunkIndex]
  omega

/-- The chunks that are taken off are reported. -/
theorem Mirrored.reports {h' : History} {es : List Event} (hm : h.Mirrored)
    (hw : h.session.buffer.WellFormed config) (hlog : h'.log = h.log)
    (hr : h.session.Reports h'.session es) :
  h'.Mirrored
  where
    numbered := by
      rw [hlog, Buffer.currentMaxChunkIndex, hr.maxIndex]
      apply hm.numbered
    replayed := by
      rw [hr.events, List.foldl_append, hm.replayed, Event.replay_of_announced_nil hr.announced]
      ext i
      rw [Finset.mem_sdiff, List.mem_toFinset, List.mem_toFinset, List.mem_toFinset,
        hr.takesOff.left]
    announced := by
      rw [hr.events, Event.announced_append, hr.announced, List.append_nil, hlog, hm.announced]
    reported := by
      rw [hr.events, Event.reported_append]
      apply hm.reported.append hr.takesOff.once
      intro i hi hi'
      apply ((hm.removed i).mp hi).2 (hr.takesOff.taken i hi')
    removed i := by
      rw [hr.events, Event.reported_append, List.mem_append, hm.removed, hlog, hr.takesOff.left]
      constructor
      · rintro (⟨hle, hno⟩ | hi)
        · exact ⟨hle, fun hi => hno hi.1⟩
        · have hann := hm.mem_announced hw (hr.takesOff.taken i hi)
          rw [hm.announced, List.mem_range'_1] at hann
          exact ⟨⟨hann.1, by omega⟩, fun hi' => hi'.2 hi⟩
      · rintro ⟨hle, hno⟩
        by_cases hi : i ∈ Event.reported es
        · exact .inr hi
        · exact .inl ⟨hle, fun hi' => hno ⟨hi', hi⟩⟩
    inOrder := by
      rw [hr.events]
      apply hm.inOrder.append
      exact fun i hi => hm.mem_announced hw (hr.takesOff.taken i hi)
    counted := by
      rw [counted_iff, hr.events, Event.counted_append, counted_iff.mp hm.counted,
        Event.counted_of_announced_nil hr.announced, ← hr.takesOff.chunkCount]
      omega

/-- The chunk that is stored is announced. -/
theorem Mirrored.adds {h' : History} {es : List Event} (hm : h.Mirrored) {binaryData : Bytes}
    (hlog : h'.log = h.log ++ [binaryData]) (ha : h.session.Adds h'.session es) :
  h'.Mirrored
  := by
  have hlength : h'.log.length = h.session.buffer.chunksMaxIndex + 1 := by
    rw [hlog, List.length_append, ← hm.numbered]
    rfl
  constructor
  · rw [hlength, Buffer.currentMaxChunkIndex, ha.maxIndex]
  · rw [ha.events, List.foldl_append, hm.replayed, Event.replay_of_reported_nil ha.reported,
      ha.announced]
    ext i
    simp [ha.stored, or_comm]
  · rw [ha.events, Event.announced_append, ha.announced, hm.announced, hlength, ← hm.numbered,
      Buffer.currentMaxChunkIndex, List.range'_1_concat, Nat.add_comm]
  · rw [ha.events, Event.reported_append, ha.reported, List.append_nil]
    apply hm.reported
  · intro i
    rw [ha.events, Event.reported_append, ha.reported, List.append_nil, hm.removed, hlength,
      ha.stored, ← hm.numbered, Buffer.currentMaxChunkIndex]
    constructor
    · rintro ⟨hle, hno⟩
      exact ⟨by omega, by rintro (hi | rfl); exacts [hno hi, by omega]⟩
    · rintro ⟨hle, hno⟩
      rw [not_or] at hno
      exact ⟨by omega, hno.1⟩
  · rw [ha.events]
    apply hm.inOrder.append
    simp [ha.reported]
  · rw [counted_iff, ha.events, Event.counted_append, counted_iff.mp hm.counted,
      Event.counted_of_reported_nil ha.reported, ha.announced, ha.count]
    rfl

/-- An operation on a listed session keeps the mirror. -/
theorem Mirrored.applied (hm : h.Mirrored) (hw : h.session.buffer.WellFormed config)
    (op : TransferSession.Op) :
  WhileListed Mirrored (h.applied config op)
  := by
  by_cases hop : ∃ binaryData, op = .addChunk binaryData
  · obtain ⟨binaryData, rfl⟩ := hop
    intro _
    obtain hno | ⟨hacc, es, ha⟩ := TransferSession.adds_addChunk hw binaryData
    · have hsame : h.session.Reports (h.session.addChunk config binaryData).1 [] := by
        rw [hno]
        exact .of_same rfl rfl
      apply hm.reports hw _ hsame
      simp [History.applied, nextLog, hno]
    · have hlog : (h.applied config (.addChunk binaryData)).log = h.log ++ [binaryData] := by
        simp only [History.applied, nextLog, hacc, if_true]
      apply hm.adds hlog ha
  · rw [not_exists] at hop
    intro hl
    obtain ⟨es, hr⟩ := h.session.reports_apply config hop hl
    apply hm.reports hw _ hr
    cases op with
    | addChunk binaryData => exact absurd rfl (hop binaryData)
    | _ => rfl

theorem Mirrored.step (hc : h.Consistent config) (hm : WhileListed Mirrored h)
    (op : TransferSession.Op) :
  WhileListed Mirrored (h.step config op)
  := by
  by_cases ha : h.session.listed = true ∧ h.session.enabled op = true
  · apply (whileListed_step (Q := Mirrored) ha.1 ha.2).mpr
    apply (hm ha.1).applied (hc ha.1).buffer op
  · rw [step_of_not_enabled ha]
    apply hm

/-- In every run, as long as the session is listed, its sender gets its events, and they
mirror its buffer. -/
theorem everyState_mirrored (config : Config) (sender : ClientRef) (auto : Bool)
    (ops : List TransferSession.Op) :
  Machine.EveryState (step config)
    (WhileListed fun h => h.session.dataSender ∈ h.session.subscribers ∧ h.Mirrored)
    (create sender auto) ops
  := by
  have hstep : ∀ (h : History) (op : TransferSession.Op),
      h.Consistent config ∧ WhileListed Mirrored h →
        (h.step config op).Consistent config ∧ WhileListed Mirrored (h.step config op) :=
    fun h op hinv => ⟨hinv.1.step op, Mirrored.step hinv.1 hinv.2 op⟩
  have hinv := Machine.everyState_of_invariant hstep
    ⟨Consistent.create config sender auto, fun _ => Mirrored.create sender auto⟩ ops
  apply hinv.mono fun h hm hl => ⟨(hm.1 hl).sender_mem, hm.2 hl⟩

end History

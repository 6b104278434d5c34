import PutInPipe.Socket.Steps

/-!
# Writing frames

What is sent waits in the buffers while the frames before it are written. As long as no write
fails, what has been written and what waits are the frames that were sent, in their order, and the
texts and the binaries among them are those that were posted: `Writes` says this of what happens
between two states.
-/

open Text (Bytes)

namespace WebSocket

/-- The frame of a text or of something binary. -/
def isData (p : Opcode × Bytes) : Bool := p.1 = .text || p.1 = .binary

/-- The frame that a task sends. -/
def Task.frame : Task → Option (Opcode × Bytes)
  | .send opcode msg => some (opcode, msg)
  | .close _ _ => none

/-- The bytes of a frame that is sent. -/
def frameBytes (p : Opcode × Bytes) : Bytes := buildHeader p.1.toNat p.2.length ++ p.2

namespace Connection

/-- What was written and what waits. -/
def output (c : Connection) : Bytes :=
  c.written ++ c.sendingBuffers.flatten ++ c.writeBuffers.flatten

/-- The data that was sent and that is going to be sent. -/
def data (c : Connection) : List (Opcode × Bytes) :=
  (c.sent ++ c.tasks.filterMap Task.frame).filter isData

/-- Nothing waits when nothing is being written. -/
def Flows (c : Connection) : Prop :=
  c.closeConnection = false → c.sendingBuffers = [] → c.writeBuffers = []

end Connection

/-- Some frames are sent, and some data is posted. -/
structure Writes (posted : List (Opcode × Bytes)) (c c' : Connection) : Prop where
  output : ∃ ps, c'.sent = c.sent ++ ps ∧ c'.output = c.output ++ ps.flatMap frameBytes
  data : c'.data = c.data ++ posted
  flows : c.Flows → c'.Flows

namespace Writes

variable {posted posted' : List (Opcode × Bytes)} {c c' c'' : Connection}

theorem refl (c : Connection) :
  Writes [] c c
  := ⟨⟨[], by simp⟩, (List.append_nil _).symm, id⟩

theorem trans (h : Writes posted c c') (h' : Writes posted' c' c'') :
  Writes (posted ++ posted') c c''
  where
    output := by
      obtain ⟨ps, hsent, houtput⟩ := h.output
      obtain ⟨ps', hsent', houtput'⟩ := h'.output
      use ps ++ ps'
      rw [hsent', hsent, houtput', houtput, List.flatMap_append, List.append_assoc,
        List.append_assoc]
      exact ⟨rfl, rfl⟩
    data := by rw [h'.data, h.data, List.append_assoc]
    flows hflows := h'.flows (h.flows hflows)

end Writes

/-- The buffers stay as they are. -/
structure Quiet (c c' : Connection) : Prop where
  sendingBuffers : c'.sendingBuffers = c.sendingBuffers
  writeBuffers : c'.writeBuffers = c.writeBuffers
  written : c'.written = c.written
  sent : c'.sent = c.sent
  tasks : c'.tasks = c.tasks
  closeConnection : c.closeConnection = true → c'.closeConnection = true

namespace Quiet

variable {maxPayloadBytes : ℕ} {c c' c'' : Connection}

theorem trans (h : Quiet c c') (h' : Quiet c' c'') :
  Quiet c c''
  where
    sendingBuffers := h'.sendingBuffers.trans h.sendingBuffers
    writeBuffers := h'.writeBuffers.trans h.writeBuffers
    written := h'.written.trans h.written
    sent := h'.sent.trans h.sent
    tasks := h'.tasks.trans h.tasks
    closeConnection hclose := h'.closeConnection (h.closeConnection hclose)

theorem writes (h : Quiet c c') :
  Writes [] c c'
  where
    output := by
      use []
      rw [h.sent, Connection.output, Connection.output, h.written, h.sendingBuffers,
        h.writeBuffers]
      simp
    data := by rw [Connection.data, Connection.data, h.sent, h.tasks, List.append_nil]
    flows hflows hclose := by
      rw [h.sendingBuffers, h.writeBuffers]
      apply hflows
      cases hthis : c.closeConnection with
      | false => rfl
      | true => exact absurd (hclose.symm.trans (h.closeConnection hthis)) Bool.false_ne_true

theorem checkDestroy (c : Connection) (code : ℕ) :
  Quiet c (c.checkDestroy code)
  := ⟨rfl, rfl, rfl, rfl, rfl, id⟩

theorem doRead (c : Connection) :
  Quiet c (c.doRead maxPayloadBytes)
  := by
  rw [Connection.doRead]
  split
  · exact ⟨rfl, rfl, rfl, rfl, rfl, fun _ => rfl⟩
  · simp only
    split
    case h_4 =>
      split
      · exact ⟨rfl, rfl, rfl, rfl, rfl, fun _ => rfl⟩
      split
      · exact ⟨rfl, rfl, rfl, rfl, rfl, id⟩
      · exact ⟨rfl, rfl, rfl, rfl, rfl, id⟩
    all_goals exact ⟨rfl, rfl, rfl, rfl, rfl, id⟩

theorem onBytes (c : Connection) (r : Reading) (n : ℕ) :
  Quiet c ((c.onBytes r n).doRead maxPayloadBytes)
  := by
  apply trans _ (doRead _)
  exact ⟨rfl, rfl, rfl, rfl, rfl, id⟩

theorem onMiniHeader (c : Connection) (got : Bytes) :
  Quiet c (c.onMiniHeader maxPayloadBytes got)
  := by
  have hheader : ∀ c' : Connection, Quiet c c' → Quiet c (c'.onHeader maxPayloadBytes) := by
    intro c' h
    rw [Connection.onHeader]
    apply trans _ (doRead _)
    exact ⟨h.1, h.2, h.3, h.4, h.5, h.6⟩
  rw [Connection.onMiniHeader]
  apply hheader
  split
  · exact ⟨rfl, rfl, rfl, rfl, rfl, id⟩
  · exact ⟨rfl, rfl, rfl, rfl, rfl, fun _ => rfl⟩

end Quiet

section

variable {maxPayloadBytes : ℕ} {onMessage : List Handled → Option (Bytes × ℕ)}
  {posted : List (Opcode × Bytes)} {c c' c'' : Connection}

theorem Quiet.trans_writes (h : Quiet c c') (h' : Writes posted c' c'') :
  Writes posted c c''
  := h.writes.trans h'

theorem Writes.trans_quiet (h : Writes posted c c') (h' : Quiet c' c'') :
  Writes posted c c''
  := by
  rw [← List.append_nil posted]
  exact h.trans h'.writes

/-! ### Sending -/

/-- The waiting frames start to be written if nothing is. -/
theorem doWrite_spec (c : Connection) :
  c.doWrite.sent = c.sent ∧ c.doWrite.tasks = c.tasks ∧ c.doWrite.output = c.output
    ∧ c.doWrite.Flows
  := by
  rw [Connection.doWrite]
  split
  case isTrue h =>
    rw [List.isEmpty_iff] at h
    refine ⟨rfl, rfl, ?_, fun _ _ => rfl⟩
    rw [Connection.output, Connection.output, h]
    simp
  case isFalse h => exact ⟨rfl, rfl, rfl, fun _ hnil => absurd (List.isEmpty_iff.mpr hnil) h⟩

theorem write_spec (c : Connection) (opcode : Opcode) (pieces : List Bytes) :
  (c.write opcode pieces).sent = c.sent ++ [(opcode, pieces.flatten)]
    ∧ (c.write opcode pieces).tasks = c.tasks
    ∧ (c.write opcode pieces).output = c.output ++ frameBytes (opcode, pieces.flatten)
    ∧ (c.write opcode pieces).Flows
  := by
  rw [Connection.write]
  obtain ⟨hsent, htasks, houtput, hflows⟩ := doWrite_spec { c with
    writeBuffers := c.writeBuffers ++ buildHeader opcode.toNat pieces.flatten.length :: pieces
    sent := c.sent ++ [(opcode, pieces.flatten)] }
  refine ⟨hsent, htasks, houtput.trans ?_, hflows⟩
  rw [Connection.output, Connection.output, frameBytes]
  simp

/-- What is not data is sent. -/
theorem writes_write (c : Connection) {opcode : Opcode} {pieces : List Bytes}
    (hdata : isData (opcode, pieces.flatten) = false) :
  Writes [] c (c.write opcode pieces)
  := by
  obtain ⟨hsent, htasks, houtput, hflows⟩ := write_spec c opcode pieces
  refine ⟨⟨_, hsent, ?_⟩, ?_, fun _ => hflows⟩
  · rw [houtput, List.flatMap_singleton]
  · rw [Connection.data, Connection.data, hsent, htasks, List.filter_append, List.filter_append,
      List.filter_append, List.filter_cons_of_neg (by rw [hdata]; exact Bool.false_ne_true)]
    simp

theorem writes_close (c : Connection) (msg : Bytes) (status : ℕ) :
  Writes [] c (c.close msg status)
  := by
  rw [Connection.close]
  apply Quiet.trans_writes _ (writes_write _ rfl)
  split
  · exact ⟨rfl, rfl, rfl, rfl, rfl, id⟩
  · exact ⟨rfl, rfl, rfl, rfl, rfl, id⟩

/-! ### Frames that come in -/

theorem writes_appendFragment (c : Connection) (fin : Bool) (fragment : Bytes) :
  Writes [] c (c.appendFragment onMessage fin fragment)
  := by
  rw [Connection.appendFragment]
  split
  · simp only
    split
    · rename_i msg status _
      have hclose := writes_close { c with
        message := c.message ++ fragment
        handled := c.handled ++ [.message (c.message ++ fragment) c.isBinary] } msg status
      have hquiet : Quiet c { c with
          message := c.message ++ fragment
          handled := c.handled ++ [.message (c.message ++ fragment) c.isBinary] } :=
        ⟨rfl, rfl, rfl, rfl, rfl, id⟩
      exact (hquiet.trans_writes hclose).trans_quiet ⟨rfl, rfl, rfl, rfl, rfl, id⟩
    · exact Quiet.writes ⟨rfl, rfl, rfl, rfl, rfl, id⟩
  · exact Quiet.writes ⟨rfl, rfl, rfl, rfl, rfl, id⟩

theorem writes_onClose (c : Connection) (fragment : Bytes) :
  Writes [] c (c.onClose fragment).1
  := by
  rw [Connection.onClose]
  simp only
  split
  · split
    · exact Quiet.writes ⟨rfl, rfl, rfl, rfl, rfl, fun _ => rfl⟩
    · exact Quiet.writes ⟨rfl, rfl, rfl, rfl, rfl, fun _ => rfl⟩
  · apply Quiet.trans_writes _ (writes_close _ _ _)
    exact ⟨rfl, rfl, rfl, rfl, rfl, id⟩

theorem writes_handleFrame (c : Connection) (fin : Bool) (opcode : ℕ) (fragment : Bytes) :
  Writes [] c (c.handleFrame onMessage fin opcode fragment).1
  := by
  rw [Connection.handleFrame.eq_def]
  split
  case h_1 => apply writes_appendFragment
  case h_2 =>
    apply Quiet.trans_writes _ (writes_appendFragment _ _ _)
    exact ⟨rfl, rfl, rfl, rfl, rfl, id⟩
  case h_3 =>
    apply Quiet.trans_writes _ (writes_appendFragment _ _ _)
    exact ⟨rfl, rfl, rfl, rfl, rfl, id⟩
  case h_4 => apply writes_onClose
  case h_5 =>
    -- a pong is no data
    refine ⟨⟨[], by simp [Connection.output]⟩, ?_, id⟩
    rw [Connection.data, Connection.data, List.filterMap_append]
    simp [Task.frame, isData]
  case h_6 => exact Quiet.writes ⟨rfl, rfl, rfl, rfl, rfl, id⟩
  case h_7 => apply Writes.refl

theorem writes_onRead (c : Connection) (k : ℕ) :
  Writes [] c (c.onRead maxPayloadBytes onMessage k)
  := by
  have hfragment : ∀ c : Connection, Writes [] c (c.onFragment maxPayloadBytes onMessage) := by
    intro c
    have hframe : Writes [] c (c.handleFrame onMessage _ _ _).1 :=
      writes_handleFrame c c.reading.isFIN c.reading.opcode c.reading.unmasked
    rw [Connection.onFragment]
    split
    case h_1 c' hresult =>
      rw [hresult] at hframe
      apply hframe.trans_quiet
      apply Quiet.trans _ (Quiet.doRead _)
      exact ⟨rfl, rfl, rfl, rfl, rfl, id⟩
    case h_2 c' hresult =>
      rw [hresult] at hframe
      exact hframe
  rw [Connection.onRead]
  split
  case h_1 =>
    split
    · apply Writes.refl
    · exact (Quiet.onMiniHeader c _).writes
  case h_2 =>
    split
    · apply Writes.refl
    · exact (Quiet.onBytes c _ _).writes
  case h_3 =>
    split
    · apply Writes.refl
    · exact (Quiet.onBytes c _ _).writes
  case h_4 =>
    split
    · apply Writes.refl
    · exact (Quiet.onBytes c _ _).writes
  case h_5 =>
    simp only
    split
    · apply Writes.refl
    · rw [Connection.onPayload]
      simp only
      split
      · apply Quiet.trans_writes _ (hfragment _)
        exact ⟨rfl, rfl, rfl, rfl, rfl, id⟩
      · exact (Quiet.onBytes c _ _).writes

/-! ### Steps -/

/-- What waits is written next. -/
theorem doWrite_of_nil (c : Connection) :
  (if c.writeBuffers.isEmpty then c else c.doWrite).sent = c.sent
    ∧ (if c.writeBuffers.isEmpty then c else c.doWrite).tasks = c.tasks
    ∧ (if c.writeBuffers.isEmpty then c else c.doWrite).output = c.output
    ∧ (if c.writeBuffers.isEmpty then c else c.doWrite).Flows
  := by
  split
  case isTrue hempty => exact ⟨rfl, rfl, rfl, fun _ _ => List.isEmpty_iff.mp hempty⟩
  case isFalse hempty => apply doWrite_spec

/-- A write that has succeeded loses nothing. -/
theorem writes_onWritten (c : Connection) (n : ℕ) :
  Writes [] c (c.onWritten true n)
  := by
  have hwritten : ∀ c' : Connection, c'.sent = c.sent → c'.tasks = c.tasks →
      c'.output = c.written ++ c.sendingBuffers.flatten ++ c.writeBuffers.flatten → c'.Flows →
      Writes [] c c' := by
    intro c' hsent htasks houtput hflows
    refine ⟨⟨[], ?_, ?_⟩, ?_, fun _ => hflows⟩
    · rw [hsent, List.append_nil]
    · rw [houtput, List.flatMap_nil, List.append_nil, Connection.output]
    · rw [Connection.data, Connection.data, hsent, htasks, List.append_nil]
  have hclose : ∀ c' : Connection, Writes [] c c' →
      Writes [] c (if c'.hasSentClose then { c' with closeConnection := true } else c') := by
    intro c' h
    split
    · exact h.trans_quiet ⟨rfl, rfl, rfl, rfl, rfl, fun _ => rfl⟩
    · exact h
  rw [Connection.onWritten]
  split
  · obtain ⟨hsent, htasks, houtput, hflows⟩ := doWrite_of_nil { c with
      written := c.written ++ c.sendingBuffers.flatten
      sendingBuffers := [] }
    apply hclose
    exact hwritten _ hsent htasks (houtput.trans (by simp [Connection.output])) hflows
  · apply Writes.trans_quiet _ (Quiet.checkDestroy _ _)
    refine hwritten _ rfl rfl ?_ ?_
    · simp [Connection.output]
    · rintro ⟨⟩

theorem writes_runTask (c : Connection) {task : Task} {tasks : List Task}
    (htasks : c.tasks = task :: tasks) :
  Writes [] c ({ c with tasks }.runTask task)
  := by
  cases task with
  | send opcode msg =>
      obtain ⟨hsent, htasks', houtput, hflows⟩ := write_spec { c with tasks } opcode [msg]
      rw [List.flatten_singleton] at hsent houtput
      refine ⟨⟨[(opcode, msg)], hsent, ?_⟩, ?_, fun _ => hflows⟩
      · rw [List.flatMap_singleton]
        exact houtput
      · rw [Connection.data, Connection.data, Connection.runTask, hsent, htasks', htasks,
          List.append_nil, List.append_assoc]
        rfl
  | close msg status =>
      have hdata : Writes [] c { c with tasks } := by
        refine ⟨⟨[], by simp [Connection.output]⟩, ?_, id⟩
        rw [Connection.data, Connection.data, htasks, List.append_nil]
        rfl
      exact hdata.trans (writes_close _ _ _)

namespace Connection.Step

/-- The data that a step posts. -/
def data : Step → List (Opcode × Bytes)
  | .post t => t.frame.toList.filter isData
  | _ => []

/-- A write that does not fail. -/
def WritesWell : Step → Prop
  | .written ok _ => ok = true
  | _ => True

end Connection.Step

theorem writes_step (c : Connection) (hdeleted : c.deleted = false) {l : Connection.Step}
    (hwell : l.WritesWell) :
  Writes l.data c (c.step maxPayloadBytes onMessage l)
  := by
  rw [Connection.step.eq_def, if_neg (hdeleted ▸ Bool.false_ne_true)]
  cases l with
  | read k =>
      simp only [Connection.Step.data]
      split
      · apply writes_onRead
      · apply Writes.refl
  | readError =>
      simp only [Connection.Step.data]
      split
      · exact Quiet.writes ⟨rfl, rfl, rfl, rfl, rfl, fun _ => rfl⟩
      · apply Writes.refl
  | post task =>
      refine ⟨⟨[], by simp [Connection.output]⟩, ?_, id⟩
      rw [Connection.data, Connection.data, List.filterMap_append, ← List.append_assoc,
        List.filter_append]
      cases task with
      | send opcode msg => rfl
      | close msg status => rfl
  | task =>
      simp only [Connection.Step.data]
      split
      · apply Writes.refl
      case h_2 task tasks htasks => exact writes_runTask c htasks
  | close msg status => apply writes_close
  | written ok n =>
      cases hwell
      simp only [Connection.Step.data]
      split
      · apply Writes.refl
      · apply writes_onWritten

theorem run_of_deleted (hdeleted : c.deleted = true) (ls : List Connection.Step) :
  Machine.run (Connection.step maxPayloadBytes onMessage) c ls = c
  := by
  induction ls with
  | nil => rfl
  | cons l ls ih => rw [Machine.run_cons, Connection.step.eq_def, hdeleted, if_pos rfl, ih]

/-- A run without a failed write sends what was posted until the connection was deleted. -/
theorem writes_run (c : Connection) {ls : List Connection.Step} (hwell : ∀ l ∈ ls, l.WritesWell) :
  ∃ posted, Writes posted c (Machine.run (Connection.step maxPayloadBytes onMessage) c ls)
    ∧ posted <+: ls.flatMap Connection.Step.data
    ∧ ((Machine.run (Connection.step maxPayloadBytes onMessage) c ls).deleted = false →
      posted = ls.flatMap Connection.Step.data)
  := by
  induction ls generalizing c with
  | nil => exact ⟨[], .refl c, List.nil_prefix, fun _ => rfl⟩
  | cons l ls ih =>
      cases hdeleted : c.deleted with
      | true =>
          rw [run_of_deleted hdeleted, hdeleted]
          exact ⟨[], .refl c, List.nil_prefix, fun h => absurd h.symm Bool.false_ne_true⟩
      | false =>
          rw [Machine.run_cons, List.flatMap_cons]
          obtain ⟨posted, hwrites, hfirst, hall⟩ :=
            ih (c.step maxPayloadBytes onMessage l) fun l' hl =>
              hwell l' (List.mem_cons_of_mem l hl)
          have hstep : Writes l.data c (c.step maxPayloadBytes onMessage l) :=
            writes_step c hdeleted (hwell l List.mem_cons_self)
          use l.data ++ posted
          refine ⟨hstep.trans hwrites, ?_, ?_⟩
          · rw [List.prefix_append_right_inj]
            exact hfirst
          · intro hthis
            rw [hall hthis]

end

/-- The frame that is sent for a text or something else. -/
def Frame.whole (p : Opcode × Bytes) (h : p.2.length < 2 ^ 64) : Frame :=
  ⟨true, p.1.toNat, none, p.2, p.1.toNat_lt, by rintro _ ⟨⟩, h⟩

theorem flatMap_frameBytes (ps : List (Opcode × Bytes)) (h : ∀ p ∈ ps, p.2.length < 2 ^ 64) :
  ps.flatMap frameBytes = (ps.pmap Frame.whole h).flatMap Frame.encode
  := by
  induction ps with
  | nil => rfl
  | cons p ps ih =>
      rw [List.flatMap_cons, List.pmap_cons, List.flatMap_cons, frameBytes,
        buildHeader_append p.1.toNat_lt (h p List.mem_cons_self)]
      congr 1
      apply ih

section

variable {maxPayloadBytes : ℕ} {onMessage : List Handled → Option (Bytes × ℕ)}

end

namespace Sample

/-- A text is posted and written after the handshake. -/
def steps : List Connection.Step :=
  [.post (.send .text [104, 105]), .task, .written true 0, .written true 0]

def sent : Connection :=
  Machine.run (Connection.step 64 fun _ => none) (Connection.start false [[72]] []) steps

end Sample

end WebSocket

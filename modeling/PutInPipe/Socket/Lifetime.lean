import PutInPipe.Socket.Steps

/-!
# The life of a connection

A connection is deleted by `check_destroy` when nothing is pending any more, since the handlers of
what is pending hold the connection. The close handler, which tells the application that the
connection is gone, has been called when the socket is closed.

There are two exceptions. Where a frame is refused that has no mask, `do_read` is called after
`check_destroy` and starts another read, whose handler holds a deleted connection. A connection that
refuses a frame because of its length is never deleted.
-/

open Text (Bytes)
open Endian (toBE)

namespace WebSocket

namespace Connection

/-- The close handler has been called. -/
def Closed (c : Connection) : Prop := ∃ reason status, Handled.closed reason status ∈ c.handled

/-- After a header without a mask nothing is being written, so that the connection is deleted, and
`do_read` goes on to read. -/
def GoesOn (maxPayloadBytes : ℕ) (c : Connection) (header : ℕ) : Prop :=
  ¬header &&& 0x80 = 0x80 ∧ c.sendingBuffers = []
    ∧ (126 ≤ header &&& 0x7f ∨ header &&& 0x7f ≤ maxPayloadBytes)

/-- The step in which `do_read` goes on with a deleted connection. -/
def GoesOnIn (maxPayloadBytes : ℕ) (c : Connection) : Step → Prop
  | .read k =>
      c.isOpen = true ∧ c.isPending = true ∧ c.reading.state = .miniHeader ∧ c.incoming ≠ []
        ∧ c.GoesOn maxPayloadBytes (miniHeaderOf (c.incoming.take (min 2 (max 1 k))))
  | _ => False

end Connection

/-- What holds between the steps. -/
structure Life (c : Connection) : Prop where
  pending : c.isPending = true → c.isReading = true
  deleted : c.deleted = true → c.sendingBuffers = [] ∧ c.isPending = false
  hasRecvClose : c.hasRecvClose = true → c.hasSentClose = true ∧ c.isPending = false
  closed : c.isOpen = false → c.Closed
  called : c.isCloseHandlerCalled = true → c.Closed

/-- The connection has been deleted, and a read is pending. -/
structure Lost (c : Connection) : Prop where
  deleted : c.deleted = true
  isPending : c.isPending = true
  sendingBuffers : c.sendingBuffers = []
  closed : c.Closed

/-- The connection is lost where `P` holds, and elsewhere it is in order. -/
def LostIff (P : Prop) (c : Connection) : Prop := Lost c ∧ P ∨ Life c ∧ ¬P

theorem LostIff.congr {P Q : Prop} {c : Connection} (h : LostIff P c) (hPQ : P ↔ Q) :
  LostIff Q c
  := h.imp (And.imp_right hPQ.mp) (And.imp_right (mt hPQ.mpr))

/-- Nothing starts and nothing ends. -/
structure Keeps (c c' : Connection) : Prop where
  isPending : c'.isPending = c.isPending
  isReading : c'.isReading = c.isReading
  deleted : c'.deleted = c.deleted
  isOpen : c'.isOpen = c.isOpen
  hasRecvClose : c'.hasRecvClose = c.hasRecvClose
  hasSentClose : c.hasSentClose = true → c'.hasSentClose = true
  closed : c.Closed → c'.Closed
  called : c'.isCloseHandlerCalled = true → c.isCloseHandlerCalled = true ∨ c'.Closed

namespace Keeps

variable {c c' c'' : Connection}

theorem trans (h : Keeps c c') (h' : Keeps c' c'') :
  Keeps c c''
  where
    isPending := h'.isPending.trans h.isPending
    isReading := h'.isReading.trans h.isReading
    deleted := h'.deleted.trans h.deleted
    isOpen := h'.isOpen.trans h.isOpen
    hasRecvClose := h'.hasRecvClose.trans h.hasRecvClose
    hasSentClose hsent := h'.hasSentClose (h.hasSentClose hsent)
    closed hclosed := h'.closed (h.closed hclosed)
    called hcalled := by
      obtain hcalled | hclosed := h'.called hcalled
      · exact (h.called hcalled).imp_right h'.closed
      · exact .inr hclosed

theorem doWrite (c : Connection) :
  Keeps c c.doWrite
  := by
  rw [Connection.doWrite]
  split
  · exact ⟨rfl, rfl, rfl, rfl, rfl, id, id, Or.inl⟩
  · exact ⟨rfl, rfl, rfl, rfl, rfl, id, id, Or.inl⟩

theorem close (c : Connection) (msg : Bytes) (status : ℕ) :
  Keeps c (c.close msg status)
  := by
  apply trans _ (doWrite _)
  split
  · refine ⟨rfl, rfl, rfl, rfl, rfl, fun _ => rfl, ?_, fun _ => .inr ⟨msg, status, ?_⟩⟩
    · rintro ⟨reason, code, hmem⟩
      exact ⟨reason, code, List.mem_append_left _ hmem⟩
    · exact List.mem_append_right _ List.mem_cons_self
  · exact ⟨rfl, rfl, rfl, rfl, rfl, fun _ => rfl, id, Or.inl⟩

theorem life (h : Life c) (hdeleted : c.deleted = false) (hkeeps : Keeps c c') :
  Life c'
  where
    pending := by
      rw [hkeeps.isPending, hkeeps.isReading]
      apply h.pending
    deleted hthis := by
      rw [hkeeps.deleted, hdeleted] at hthis
      cases hthis
    hasRecvClose hrecv := by
      obtain ⟨hsent, hpending⟩ := h.hasRecvClose (hkeeps.hasRecvClose ▸ hrecv)
      exact ⟨hkeeps.hasSentClose hsent, hkeeps.isPending.trans hpending⟩
    closed hopen := hkeeps.closed (h.closed (hkeeps.isOpen ▸ hopen))
    called hcalled := by
      obtain hcalled | hclosed := hkeeps.called hcalled
      · exact hkeeps.closed (h.called hcalled)
      · exact hclosed

end Keeps

section

variable {maxPayloadBytes : ℕ} {onMessage : List Handled → Option (Bytes × ℕ)} {c c' : Connection}

/-- `check_destroy` deletes what nothing is pending for, and the close handler has been called. -/
theorem life_checkDestroy (hpending : c.isPending = true → c.isReading = true)
    (hdeleted : c.deleted = true → c.sendingBuffers = [] ∧ c.isPending = false)
    (hrecv : c.hasRecvClose = true → c.hasSentClose = true ∧ c.isPending = false)
    (hcalled : c.isCloseHandlerCalled = true → c.Closed) (code : ℕ) :
  Life (c.checkDestroy code)
  := by
  have hclosed : (c.checkDestroy code).Closed := by
    rw [Connection.checkDestroy, Connection.Closed]
    split
    case isTrue h => exact hcalled h
    case isFalse h => exact ⟨_, code, List.mem_append_right _ List.mem_cons_self⟩
  refine ⟨hpending, ?_, hrecv, fun _ => hclosed, fun _ => hclosed⟩
  rw [Connection.checkDestroy, Bool.or_eq_true, Bool.and_eq_true, List.isEmpty_iff,
    Bool.not_eq_true']
  rintro (hthis | ⟨hempty, hreading⟩)
  · exact hdeleted hthis
  use hempty
  cases hthis : c.isPending with
  | false => rfl
  | true => exact absurd (hreading.symm.trans (hpending hthis)) Bool.false_ne_true

theorem Life.doRead (h : Life c) (hdeleted : c.deleted = false) :
  Life (c.doRead maxPayloadBytes)
  := by
  rw [Connection.doRead]
  split
  case isTrue =>
    apply life_checkDestroy
    · exact h.pending
    · exact h.deleted
    · exact h.hasRecvClose
    · exact h.called
  case isFalse hboth =>
    have hrecv : c.hasRecvClose ≠ true := by
      intro hthis
      rw [(h.hasRecvClose hthis).1, hthis] at hboth
      exact hboth rfl
    have hnext : ∀ r : Reading,
        Life { c with isReading := true, isPending := true, reading := r } :=
      fun r => ⟨fun _ => rfl, fun hthis => absurd (hdeleted.symm.trans hthis) Bool.false_ne_true,
        fun hthis => absurd hthis hrecv, h.closed, h.called⟩
    simp only
    split
    case h_4 =>
      split
      · apply life_checkDestroy
        · exact fun _ => rfl
        · exact h.deleted
        · exact h.hasRecvClose
        · exact h.called
      split
      · apply hnext
      · apply hnext
    all_goals apply hnext

theorem Life.onBytes (h : Life c) (hdeleted : c.deleted = false) (r : Reading) (n : ℕ) :
  Life (c.onBytes r n)
  where
    pending := by rintro ⟨⟩
    deleted hthis := absurd (hdeleted.symm.trans hthis) Bool.false_ne_true
    hasRecvClose hrecv := ⟨(h.hasRecvClose hrecv).1, rfl⟩
    closed := h.closed
    called := h.called

theorem Life.onHeader (h : Life c) (hdeleted : c.deleted = false) :
  Life (c.onHeader maxPayloadBytes)
  := by
  rw [Connection.onHeader]
  refine Life.doRead ?_ hdeleted
  exact ⟨h.1, h.2, h.3, h.4, h.5⟩

/-! ### A frame without a mask -/

/-- `do_read` goes on with a deleted connection, or refuses the length in the header. -/
theorem onHeader_of_deleted (h : Life c) (hdeleted : c.deleted = true) (hopen : c.isOpen = false)
    (hrecv : c.hasRecvClose = false) :
  LostIff (126 ≤ c.reading.miniHeader &&& 0x7f ∨ c.reading.miniHeader &&& 0x7f ≤ maxPayloadBytes)
    (c.onHeader maxPayloadBytes)
  := by
  have hlost : ∀ r : Reading, Lost { c with isReading := true, isPending := true, reading := r } :=
    fun r => ⟨hdeleted, rfl, (h.deleted hdeleted).1, h.closed hopen⟩
  rw [Connection.onHeader, Connection.doRead,
    if_neg (by rw [hrecv, Bool.and_false]; exact Bool.false_ne_true)]
  simp only
  have hle : c.reading.miniHeader &&& 0x7f ≤ 127 := Nat.and_le_right
  generalize c.reading.miniHeader &&& 0x7f = length at hle ⊢
  by_cases hlong : length = 127
  · rw [if_pos hlong]
    exact .inl ⟨hlost _, by omega⟩
  by_cases hmiddle : length = 126
  · rw [if_neg hlong, if_pos hmiddle]
    exact .inl ⟨hlost _, by omega⟩
  rw [if_neg hlong, if_neg hmiddle]
  simp only
  split
  case isTrue hlength =>
    right
    constructor
    · apply life_checkDestroy
      · exact fun _ => rfl
      · exact h.deleted
      · exact h.hasRecvClose
      · exact h.called
    · omega
  case isFalse hlength =>
    left
    constructor
    · split
      · apply hlost
      · apply hlost
    · omega

/-- What follows when the header has no mask. -/
theorem onHeader_of_refused (h : Life c) (hdeleted : c.deleted = false)
    (hreading : c.isReading = false) (hrecv : c.hasRecvClose = false) :
  LostIff (c.sendingBuffers = [] ∧ (126 ≤ c.reading.miniHeader &&& 0x7f
      ∨ c.reading.miniHeader &&& 0x7f ≤ maxPayloadBytes))
    (({ c with closeConnection := true, isOpen := false }.checkDestroy
      UnacceptableData).onHeader maxPayloadBytes)
  := by
  have hlife : Life ({ c with closeConnection := true, isOpen := false }.checkDestroy
      UnacceptableData) := by
    apply life_checkDestroy
    · exact h.pending
    · exact h.deleted
    · exact h.hasRecvClose
    · exact h.called
  have hdestroyed : ({ c with closeConnection := true, isOpen := false }.checkDestroy
      UnacceptableData).deleted = c.sendingBuffers.isEmpty := by
    rw [Connection.checkDestroy, hdeleted, hreading, Bool.false_or, Bool.not_false, Bool.and_true]
  by_cases hsending : c.sendingBuffers = []
  · rw [List.isEmpty_iff.mpr hsending] at hdestroyed
    apply (onHeader_of_deleted hlife hdestroyed rfl hrecv).congr
    exact ⟨fun hlength => ⟨hsending, hlength⟩, And.right⟩
  · rw [List.isEmpty_eq_false_iff.mpr hsending] at hdestroyed
    exact .inr ⟨hlife.onHeader hdestroyed, fun hgoes => hsending hgoes.1⟩

theorem onMiniHeader_cases (h : Life c) (hdeleted : c.deleted = false)
    (hpending : c.isPending = true) (got : Bytes) :
  LostIff (c.GoesOn maxPayloadBytes (miniHeaderOf got)) (c.onMiniHeader maxPayloadBytes got)
  := by
  have hrecv : c.hasRecvClose = false := by
    cases hthis : c.hasRecvClose with
    | false => rfl
    | true => exact absurd ((h.hasRecvClose hthis).2.symm.trans hpending) Bool.false_ne_true
  have hbytes := h.onBytes hdeleted { c.reading with miniHeader := miniHeaderOf got } got.length
  rw [Connection.onMiniHeader, Connection.GoesOn]
  simp only
  split
  case isTrue hmask =>
    refine .inr ⟨Life.onHeader ?_ hdeleted, fun hgoes => hgoes.1 hmask⟩
    exact ⟨hbytes.1, hbytes.2, hbytes.3, hbytes.4, hbytes.5⟩
  case isFalse hmask =>
    apply (onHeader_of_refused hbytes hdeleted rfl hrecv).congr
    exact ⟨fun hgoes => ⟨hmask, hgoes⟩, And.right⟩

/-! ### Frames -/

theorem keeps_appendFragment (c : Connection) (fin : Bool) (fragment : Bytes) :
  Keeps c (c.appendFragment onMessage fin fragment)
  := by
  have hhandled : Keeps c { c with
      message := c.message ++ fragment
      handled := c.handled ++ [.message (c.message ++ fragment) c.isBinary] } := by
    refine ⟨rfl, rfl, rfl, rfl, rfl, id, ?_, Or.inl⟩
    rintro ⟨reason, code, hmem⟩
    exact ⟨reason, code, List.mem_append_left _ hmem⟩
  have hclear : ∀ c' : Connection, Keeps c c' → Keeps c { c' with message := [] } :=
    fun c' h => h.trans ⟨rfl, rfl, rfl, rfl, rfl, id, id, Or.inl⟩
  rw [Connection.appendFragment]
  split
  · apply hclear
    split
    · exact hhandled.trans (Keeps.close _ _ _)
    · exact hhandled
  · exact ⟨rfl, rfl, rfl, rfl, rfl, id, id, Or.inl⟩

theorem Life.handleFrame (h : Life c) (hdeleted : c.deleted = false)
    (hpending : c.isPending = false) (fin : Bool) (opcode : ℕ) (fragment : Bytes) :
  Life (c.handleFrame onMessage fin opcode fragment).1
    ∧ ((c.handleFrame onMessage fin opcode fragment).2 = true →
      (c.handleFrame onMessage fin opcode fragment).1.deleted = false)
  := by
  have hkeeps : ∀ c' : Connection, Keeps c c' →
      Life c' ∧ (true = true → c'.deleted = false) :=
    fun c' hc' => ⟨hc'.life h hdeleted, fun _ => hc'.deleted.trans hdeleted⟩
  have happend : ∀ isBinary,
      Keeps c ({ c with isBinary }.appendFragment onMessage fin fragment) := by
    intro isBinary
    refine Keeps.trans ?_ (keeps_appendFragment _ _ _)
    exact ⟨rfl, rfl, rfl, rfl, rfl, id, id, Or.inl⟩
  rw [Connection.handleFrame.eq_def]
  split
  case h_1 => exact hkeeps _ (happend _)
  case h_2 => exact hkeeps _ (happend _)
  case h_3 => exact hkeeps _ (happend _)
  case h_4 =>
    rw [Connection.onClose]
    simp only
    split
    case isTrue hsent =>
      refine ⟨?_, fun hthis => absurd hthis Bool.false_ne_true⟩
      split
      case isTrue hcalled =>
        apply life_checkDestroy
        · exact h.pending
        · exact h.deleted
        · exact fun _ => ⟨hsent, hpending⟩
        · exact fun _ => h.called hcalled
      case isFalse hcalled =>
        apply life_checkDestroy
        · exact h.pending
        · exact h.deleted
        · exact fun _ => ⟨hsent, hpending⟩
        · exact fun _ => ⟨_, _, List.mem_append_right _ List.mem_cons_self⟩
    case isFalse hsent =>
      -- `close` is what sets the flag that a close frame has been sent
      have hlife : Life { c with hasRecvClose := true, hasSentClose := true } :=
        ⟨h.pending, h.deleted, fun _ => ⟨rfl, hpending⟩, h.closed, h.called⟩
      have hclose : ∀ msg status, Keeps { c with hasRecvClose := true, hasSentClose := true }
          ({ c with hasRecvClose := true }.close msg status) :=
        fun _ _ => Keeps.close _ _ _
      exact ⟨(hclose _ _).life hlife hdeleted, fun _ => (hclose _ _).deleted.trans hdeleted⟩
  case h_5 => exact hkeeps _ ⟨rfl, rfl, rfl, rfl, rfl, id, id, Or.inl⟩
  case h_6 => exact hkeeps _ ⟨rfl, rfl, rfl, rfl, rfl, id, id, Or.inl⟩
  case h_7 => exact hkeeps _ ⟨rfl, rfl, rfl, rfl, rfl, id, id, Or.inl⟩

theorem Life.onFragment (h : Life c) (hdeleted : c.deleted = false)
    (hpending : c.isPending = false) :
  Life (c.onFragment maxPayloadBytes onMessage)
  := by
  have hframe : Life (c.handleFrame onMessage _ _ _).1 ∧ _ :=
    h.handleFrame hdeleted hpending c.reading.isFIN c.reading.opcode c.reading.unmasked
  rw [Connection.onFragment]
  split
  case h_1 c' hresult =>
    rw [hresult] at hframe
    obtain ⟨hlife, hkept⟩ := hframe
    refine Life.doRead ?_ (hkept rfl)
    exact ⟨hlife.1, hlife.2, hlife.3, hlife.4, hlife.5⟩
  case h_2 c' hresult =>
    rw [hresult] at hframe
    exact hframe.1

theorem onRead_cases (h : Life c) (hdeleted : c.deleted = false) (hopen : c.isOpen = true)
    (hpending : c.isPending = true) (k : ℕ) :
  LostIff (c.GoesOnIn maxPayloadBytes (.read k)) (c.onRead maxPayloadBytes onMessage k)
  := by
  have hbytes : ∀ (r : Reading) (n : ℕ), Life ((c.onBytes r n).doRead maxPayloadBytes) :=
    fun r n => (h.onBytes hdeleted r n).doRead hdeleted
  have hother : ∀ {s : ReadState}, c.reading.state = s → s ≠ .miniHeader →
      ¬c.GoesOnIn maxPayloadBytes (.read k) :=
    fun hstate hne hgoes => hne (hstate.symm.trans hgoes.2.2.1)
  rw [Connection.onRead]
  split
  case h_1 hstate =>
    split
    case isTrue hempty =>
      exact .inr ⟨h, fun hgoes => hgoes.2.2.2.1 (List.isEmpty_iff.mp hempty)⟩
    case isFalse hempty =>
      rw [List.isEmpty_iff] at hempty
      apply (onMiniHeader_cases h hdeleted hpending _).congr
      exact ⟨fun hgoes => ⟨hopen, hpending, hstate, hempty, hgoes⟩, fun hgoes => hgoes.2.2.2.2⟩
  case h_2 hstate =>
    refine .inr ⟨?_, hother hstate (by decide)⟩
    split
    · exact h
    · apply hbytes
  case h_3 hstate =>
    refine .inr ⟨?_, hother hstate (by decide)⟩
    split
    · exact h
    · apply hbytes
  case h_4 hstate =>
    refine .inr ⟨?_, hother hstate (by decide)⟩
    split
    · exact h
    · apply hbytes
  case h_5 hstate =>
    refine .inr ⟨?_, hother hstate (by decide)⟩
    simp only
    split
    · exact h
    · rw [Connection.onPayload]
      simp only
      split
      · exact (h.onBytes hdeleted _ _).onFragment hdeleted rfl
      · apply hbytes

/-! ### Steps -/

theorem keeps_runTask (c : Connection) (task : Task) (tasks : List Task) :
  Keeps c ({ c with tasks }.runTask task)
  := by
  have htasks : Keeps c { c with tasks } := ⟨rfl, rfl, rfl, rfl, rfl, id, id, Or.inl⟩
  cases task with
  | send opcode msg =>
      refine htasks.trans (Keeps.trans ?_ (Keeps.doWrite _))
      exact ⟨rfl, rfl, rfl, rfl, rfl, id, id, Or.inl⟩
  | close msg status => exact htasks.trans (Keeps.close _ _ _)

/-- A write comes back, and the connection goes on or may be deleted. -/
theorem onWritten_cases (c : Connection) (ok : Bool) (n : ℕ) :
  Keeps c (c.onWritten ok n)
    ∨ ∃ c', Keeps c c' ∧ c.onWritten ok n = c'.checkDestroy ClosedAbnormally
  := by
  have hclose : ∀ c' : Connection, Keeps c c' →
      Keeps c (if c'.hasSentClose then { c' with closeConnection := true } else c') := by
    intro c' hc'
    split
    · exact hc'.trans ⟨rfl, rfl, rfl, rfl, rfl, id, id, Or.inl⟩
    · exact hc'
  rw [Connection.onWritten]
  split
  · left
    apply hclose
    split
    · exact ⟨rfl, rfl, rfl, rfl, rfl, id, id, Or.inl⟩
    · refine Keeps.trans ?_ (Keeps.doWrite _)
      exact ⟨rfl, rfl, rfl, rfl, rfl, id, id, Or.inl⟩
  · refine .inr ⟨_, ?_, rfl⟩
    exact ⟨rfl, rfl, rfl, rfl, rfl, id, id, Or.inl⟩

theorem Life.onWritten (h : Life c) (hdeleted : c.deleted = false) (ok : Bool) (n : ℕ) :
  Life (c.onWritten ok n)
  := by
  obtain hkeeps | ⟨c', hkeeps, hdestroy⟩ := onWritten_cases c ok n
  · exact hkeeps.life h hdeleted
  · have hlife := hkeeps.life h hdeleted
    rw [hdestroy]
    exact life_checkDestroy hlife.pending hlife.deleted hlife.hasRecvClose hlife.called _

/-- A step keeps the connection in order, unless `do_read` goes on with a deleted connection. -/
theorem step_cases (h : Life c) (hdeleted : c.deleted = false) (l : Connection.Step) :
  LostIff (c.GoesOnIn maxPayloadBytes l) (c.step maxPayloadBytes onMessage l)
  := by
  rw [Connection.step.eq_def, if_neg (hdeleted ▸ Bool.false_ne_true)]
  cases l with
  | read k =>
      simp only
      split
      case isTrue hreading =>
        rw [Bool.and_eq_true] at hreading
        exact onRead_cases h hdeleted hreading.1 hreading.2 k
      case isFalse hreading =>
        refine .inr ⟨h, fun hgoes => hreading ?_⟩
        rw [hgoes.1, hgoes.2.1, Bool.and_self]
  | readError =>
      refine .inr ⟨?_, id⟩
      simp only
      split
      · apply life_checkDestroy
        · rintro ⟨⟩
        · exact fun hthis => absurd (hdeleted.symm.trans hthis) Bool.false_ne_true
        · exact fun hrecv => ⟨(h.hasRecvClose hrecv).1, rfl⟩
        · exact h.called
      · exact h
  | post task => exact .inr ⟨⟨h.1, h.2, h.3, h.4, h.5⟩, id⟩
  | task =>
      refine .inr ⟨?_, id⟩
      simp only
      split
      · exact h
      case h_2 task tasks _ => exact (keeps_runTask c task tasks).life h hdeleted
  | close msg status => exact .inr ⟨(Keeps.close c msg status).life h hdeleted, id⟩
  | written ok n =>
      refine .inr ⟨?_, id⟩
      simp only
      split
      · exact h
      · exact h.onWritten hdeleted ok n

theorem step_of_deleted (hdeleted : c.deleted = true) (l : Connection.Step) :
  c.step maxPayloadBytes onMessage l = c
  := by rw [Connection.step.eq_def, if_pos hdeleted]

theorem lost_or_life_step (h : Lost c ∨ Life c) (l : Connection.Step) :
  Lost (c.step maxPayloadBytes onMessage l) ∨ Life (c.step maxPayloadBytes onMessage l)
  := by
  cases hdeleted : c.deleted with
  | true =>
      rw [step_of_deleted hdeleted]
      exact h
  | false =>
      obtain hlost | hlife := h
      · exact absurd (hdeleted.symm.trans hlost.deleted) Bool.false_ne_true
      · exact (step_cases hlife hdeleted l).imp And.left And.left

/-- In every state of every run, when the socket has been closed, the close handler has been called,
and when the connection has been deleted, nothing is being written. It is deleted in a step after
which a read is pending exactly when `do_read` goes on with it. -/
theorem everyState_life (isBinary : Bool) (hello : List Bytes) (incoming : Bytes)
    (ls : List Connection.Step) :
  Machine.EveryState (Connection.step maxPayloadBytes onMessage)
      (fun c => (c.isOpen = false → c.Closed) ∧ (c.deleted = true → c.sendingBuffers = []))
      (Connection.start isBinary hello incoming) ls
    ∧ Machine.EveryStep (Connection.step maxPayloadBytes onMessage)
      (fun c l => c.deleted = false →
        ((c.step maxPayloadBytes onMessage l).deleted = true
            ∧ (c.step maxPayloadBytes onMessage l).isPending = true
          ↔ c.GoesOnIn maxPayloadBytes l))
      (Connection.start isBinary hello incoming) ls
  := by
  have hstart : Life (Connection.start isBinary hello incoming) := by
    refine ⟨fun _ => rfl, ?_, ?_, ?_, ?_⟩ <;> rintro ⟨⟩
  have hrun : Machine.EveryState (Connection.step maxPayloadBytes onMessage)
      (fun c => Lost c ∨ Life c) (Connection.start isBinary hello incoming) ls := by
    apply Machine.everyState_of_invariant _ (.inr hstart)
    exact fun c l h => lost_or_life_step h l
  constructor
  · apply hrun.mono
    rintro c (hlost | hlife)
    · exact ⟨fun _ => hlost.closed, fun _ => hlost.sendingBuffers⟩
    · exact ⟨hlife.closed, fun hdeleted => (hlife.deleted hdeleted).1⟩
  · apply hrun.everyStep
    rintro c l (hlost | hlife) hdeleted
    · exact absurd (hdeleted.symm.trans hlost.deleted) Bool.false_ne_true
    · obtain ⟨hlost', hgoes⟩ | ⟨hlife', hgoes⟩ := step_cases hlife hdeleted l
      · exact ⟨fun _ => hgoes, fun _ => ⟨hlost'.deleted, hlost'.isPending⟩⟩
      · refine ⟨?_, fun hthis => absurd hthis hgoes⟩
        rintro ⟨hdeleted', hpending⟩
        exact absurd ((hlife'.deleted hdeleted').2.symm.trans hpending) Bool.false_ne_true

/-- When the handshake has been written, a text without a mask is such a frame. -/
example :
  ((Connection.start false [[72]] [0x81, 0]).step 64 (fun _ => none) (.written true 0)).GoesOnIn 64
    (.read 2)
  := ⟨rfl, rfl, rfl, List.cons_ne_nil _ _, by decide, rfl, .inr (by decide)⟩

/-! ### A frame that is too big -/

/-- The connection takes itself to be reading, but nothing is pending. -/
structure Stuck (c : Connection) : Prop where
  isReading : c.isReading = true
  isPending : c.isPending = false
  deleted : c.deleted = false

theorem Same.not_deleted (h : Same c c') (hdeleted : c.deleted = false)
    (hreading : c.isReading = true) :
  c'.deleted = false
  := by
  apply Bool.eq_false_of_not_eq_true
  intro hthis
  obtain hthis | hthis := h.deleted hthis
  · exact absurd (hdeleted.symm.trans hthis) Bool.false_ne_true
  · exact absurd (hthis.symm.trans hreading) Bool.false_ne_true

theorem Stuck.of_same (h : Stuck c) (hsame : Same c c') :
  Stuck c'
  := ⟨hsame.isReading.trans h.isReading, hsame.isPending.trans h.isPending,
    hsame.not_deleted h.deleted h.isReading⟩

theorem Stuck.step (h : Stuck c) (l : Connection.Step) :
  Stuck (c.step maxPayloadBytes onMessage l)
  := by
  have hpending : ¬c.isPending = true := by
    rw [h.isPending]
    exact Bool.false_ne_true
  cases l with
  | read k =>
      rw [Connection.step.eq_def, if_neg (h.deleted ▸ Bool.false_ne_true)]
      simp only
      rw [h.isPending, Bool.and_false, if_neg Bool.false_ne_true]
      exact h
  | readError =>
      rw [Connection.step.eq_def, if_neg (h.deleted ▸ Bool.false_ne_true)]
      simp only
      rw [if_neg hpending]
      exact h
  | post task => exact h.of_same (Same.step c rfl)
  | task => exact h.of_same (Same.step c rfl)
  | close msg status => exact h.of_same (Same.step c rfl)
  | written ok n => exact h.of_same (Same.step c rfl)

theorem Stuck.run (h : Stuck c) (ls : List Connection.Step) :
  Stuck (Machine.run (Connection.step maxPayloadBytes onMessage) c ls)
  := by
  apply (Machine.everyState_of_invariant _ h ls).last
  exact fun c' l h' => h'.step l

/-- A length above the limit closes the socket, and the connection is stuck. -/
theorem stuck_doRead (hstate : c.reading.state = .mask)
    (hlength : maxPayloadBytes < c.reading.remainingLength) (hpending : c.isPending = false)
    (hdeleted : c.deleted = false) (hrecv : c.hasRecvClose = false) :
  Stuck (c.doRead maxPayloadBytes) ∧ (c.doRead maxPayloadBytes).isOpen = false
  := by
  rw [Connection.doRead, if_neg (by rw [hrecv, Bool.and_false]; exact Bool.false_ne_true)]
  simp only [hstate]
  rw [if_pos hlength]
  refine ⟨?_, rfl⟩
  apply Stuck.of_same _ (Same.checkDestroy _ _)
  exact ⟨rfl, hpending, hdeleted⟩

/-- The read that is pending reads the length of the frame. -/
structure ReadsLength (f : Frame) (c : Connection) : Prop where
  isOpen : c.isOpen = true
  isReading : c.isReading = true
  isPending : c.isPending = true
  deleted : c.deleted = false
  hasRecvClose : c.hasRecvClose = false
  incoming : ∃ rest, c.incoming = f.longLength ++ rest
  state : c.reading.state = .len16 ∧ f.longLength = toBE 2 f.payload.length
        ∧ f.payload.length < 0x10000
      ∨ c.reading.state = .len64 ∧ f.longLength = toBE 8 f.payload.length

theorem ReadsLength.of_same {f : Frame} (h : ReadsLength f c) (hsame : Same c c') :
  ReadsLength f c'
  where
    isOpen := hsame.isOpen.trans h.isOpen
    isReading := hsame.isReading.trans h.isReading
    isPending := hsame.isPending.trans h.isPending
    deleted := hsame.not_deleted h.deleted h.isReading
    hasRecvClose := hsame.hasRecvClose.trans h.hasRecvClose
    incoming := hsame.incoming ▸ h.incoming
    state := hsame.reading ▸ h.state

/-- After the first two bytes the connection is stuck, or it reads the length. -/
theorem onMiniHeader_of_length {f : Frame} (hmask : f.mask.isSome = true)
    (hlength : maxPayloadBytes < f.payload.length) (hopen : c.isOpen = true)
    (hdeleted : c.deleted = false) (hrecv : c.hasRecvClose = false) {rest : Bytes}
    (hin : c.incoming = f.encode ++ rest) :
  (Stuck (c.onMiniHeader maxPayloadBytes (c.incoming.take 2))
      ∧ (c.onMiniHeader maxPayloadBytes (c.incoming.take 2)).isOpen = false)
    ∨ ReadsLength f (c.onMiniHeader maxPayloadBytes (c.incoming.take 2))
  := by
  have hnot : ¬(c.hasSentClose && c.hasRecvClose) = true := by
    rw [hrecv, Bool.and_false]
    exact Bool.false_ne_true
  rw [onMiniHeader_header _ c hmask hin, Connection.onHeader]
  simp only [f.header_low.2, Frame.shortLength]
  split
  case isTrue hshort =>
    left
    rw [if_neg (by omega), if_neg (by omega)]
    exact stuck_doRead rfl hlength rfl hdeleted hrecv
  case isFalse hshort =>
    right
    split
    case isTrue hmiddle =>
      rw [if_neg (by decide), if_pos rfl, Connection.doRead, if_neg hnot]
      refine ⟨hopen, rfl, rfl, hdeleted, hrecv, ⟨f.maskBytes ++ f.body ++ rest, ?_⟩,
        .inl ⟨rfl, ?_, hmiddle⟩⟩
      · simp only [List.append_assoc]
      · rw [Frame.longLength, if_neg hshort, if_pos hmiddle]
    case isFalse hmiddle =>
      rw [if_pos rfl, Connection.doRead, if_neg hnot]
      refine ⟨hopen, rfl, rfl, hdeleted, hrecv, ⟨f.maskBytes ++ f.body ++ rest, ?_⟩,
        .inr ⟨rfl, ?_⟩⟩
      · simp only [List.append_assoc]
      · rw [Frame.longLength, if_neg hshort, if_neg hmiddle]

/-- The length of the frame is read. -/
theorem ReadsLength.stuck_onRead {f : Frame} (h : ReadsLength f c)
    (hlength : maxPayloadBytes < f.payload.length) (k : ℕ) :
  Stuck (c.onRead maxPayloadBytes onMessage k)
    ∧ (c.onRead maxPayloadBytes onMessage k).isOpen = false
  := by
  obtain ⟨rest, hin⟩ := h.incoming
  rw [Connection.onRead]
  obtain ⟨hstate, hlong, hlt⟩ | ⟨hstate, hlong⟩ := h.state
  · have htwo : (toBE 2 f.payload.length).length = 2 := Endian.length_toBE 2 _
    simp only [hstate]
    rw [hin, hlong, if_neg (by rw [List.length_append, htwo]; omega), Connection.onLen16, hin,
      hlong, List.take_left' htwo, ofBE_toBE hlt]
    exact stuck_doRead rfl hlength rfl h.deleted h.hasRecvClose
  · have height : (toBE 8 f.payload.length).length = 8 := Endian.length_toBE 8 _
    have hlt : f.payload.length < 256 ^ 8 := by
      have hpow : 256 ^ 8 = 2 ^ 64 := by norm_num
      rw [hpow]
      apply f.length_payload
    simp only [hstate]
    rw [hin, hlong, if_neg (by rw [List.length_append, height]; omega), Connection.onLen64, hin,
      hlong, List.take_left' height, swap_eq_ofBE height, ofBE_toBE hlt]
    exact stuck_doRead rfl hlength rfl h.deleted h.hasRecvClose

theorem run_of_stuck (h : Stuck c) (hclosed : c.isOpen = false) (ls : List Connection.Step) :
  Stuck (Machine.run (Connection.step maxPayloadBytes onMessage) c ls)
    ∧ (Machine.run (Connection.step maxPayloadBytes onMessage) c ls).isOpen = false
  := ⟨h.run ls, (Closes.run hclosed ls).isOpen⟩

/-- Whatever else happens until the length is read, the connection gets stuck. -/
theorem ReadsLength.run {f : Frame} (h : ReadsLength f c)
    (hlength : maxPayloadBytes < f.payload.length) {ls : List Connection.Step}
    (herror : Connection.Step.readError ∉ ls) (k : ℕ) (ls' : List Connection.Step) :
  Stuck (Machine.run (Connection.step maxPayloadBytes onMessage) c (ls ++ .read k :: ls'))
    ∧ (Machine.run (Connection.step maxPayloadBytes onMessage) c
      (ls ++ .read k :: ls')).isOpen = false
  := by
  have hread : ∀ {c : Connection} (k : ℕ) (ls : List Connection.Step), ReadsLength f c →
      Stuck (Machine.run (Connection.step maxPayloadBytes onMessage) c (.read k :: ls))
        ∧ (Machine.run (Connection.step maxPayloadBytes onMessage) c
          (.read k :: ls)).isOpen = false := by
    intro c k ls h
    rw [Machine.run_cons, step_read h.isOpen h.isPending h.deleted]
    obtain ⟨hstuck, hclosed⟩ := h.stuck_onRead hlength k
    exact run_of_stuck hstuck hclosed ls
  induction ls generalizing c with
  | nil => exact hread k ls' h
  | cons l ls ih =>
      rw [List.mem_cons, not_or] at herror
      have hother : l.endsRead = false →
          Stuck (Machine.run (Connection.step maxPayloadBytes onMessage) c
            (l :: ls ++ .read k :: ls')) ∧ _ :=
        fun hl => ih (h.of_same (Same.step c hl)) herror.2
      cases l with
      | read k₁ => exact hread k₁ _ h
      | readError => exact absurd rfl herror.1
      | post task => exact hother rfl
      | task => exact hother rfl
      | close msg status => exact hother rfl
      | written ok n => exact hother rfl

/-- Nobody deletes a connection whose peer has sent a frame with a payload above the limit, when
both bytes of its header have come in one read and its length has been read. -/
theorem deleted_of_length {f : Frame} (hmask : f.mask.isSome = true)
    (hlength : maxPayloadBytes < f.payload.length) (hopen : c.isOpen = true)
    (hpending : c.isPending = true) (hstate : c.reading.state = .miniHeader)
    (hdeleted : c.deleted = false) (hrecv : c.hasRecvClose = false) {rest : Bytes}
    (hin : c.incoming = f.encode ++ rest) {k k' : ℕ} (hk : 2 ≤ k) {ls : List Connection.Step}
    (herror : Connection.Step.readError ∉ ls) (ls' : List Connection.Step) {c' : Connection}
    (hrun : Machine.run (Connection.step maxPayloadBytes onMessage) c
      (.read k :: (ls ++ .read k' :: ls')) = c') :
  c'.isOpen = false ∧ c'.isReading = true ∧ c'.isPending = false ∧ c'.deleted = false
  := by
  have hread : c.onRead maxPayloadBytes onMessage k
      = c.onMiniHeader maxPayloadBytes (c.incoming.take 2) := by
    have hmin : min 2 (max 1 k) = 2 := by omega
    rw [Connection.onRead]
    simp only [hstate]
    rw [hmin, if_neg (by rw [hin, f.encode_append]; exact Bool.false_ne_true)]
  suffices hstuck : Stuck c' ∧ c'.isOpen = false from
    ⟨hstuck.2, hstuck.1.isReading, hstuck.1.isPending, hstuck.1.deleted⟩
  rw [← hrun, Machine.run_cons, step_read hopen hpending hdeleted, hread]
  obtain ⟨hstuck, hclosed⟩ | hreads := onMiniHeader_of_length hmask hlength hopen hdeleted hrecv hin
  · exact run_of_stuck hstuck hclosed _
  · exact hreads.run hlength herror k' ls'

end

namespace Sample

/-- A frame whose length takes two more bytes. -/
def long : Frame := ⟨true, 2, some [1, 2, 3, 4], List.replicate 126 5, by decide,
  by rintro _ ⟨⟩; rfl, by simp⟩

/-- The handshake has been written before the length is read, and the read fails afterwards. -/
theorem deleted_of_length_long :
  (Machine.run (Connection.step 100 fun _ => none)
    (Connection.start false [[72]] (long.encode ++ []))
    (.read 2 :: ([.written true 0] ++ .read 2 :: [.readError]))).deleted = false
  := by
  have hlength : 100 < long.payload.length := by simp [long]
  have herror : Connection.Step.readError ∉ [.written true 0] := by decide
  exact (deleted_of_length (f := long) rfl hlength rfl rfl rfl rfl rfl rfl le_rfl herror
    [.readError] rfl).2.2.2

end Sample

end WebSocket

import PutInPipe.Socket.Messages

/-!
# What the steps leave alone

What is written, and what is closed, says nothing about what is read: `Same` relates states between
which nothing is read, and `Closes` those between which the socket is closed.
-/

open Text (Bytes)

namespace WebSocket

/-- A read comes back, with bytes or an error. -/
def Connection.Step.endsRead : Connection.Step → Bool
  | .read _ | .readError => true
  | _ => false

/-- Nothing happens to what is read. -/
structure Same (c c' : Connection) : Prop where
  reading : c'.reading = c.reading
  incoming : c'.incoming = c.incoming
  isReading : c'.isReading = c.isReading
  isPending : c'.isPending = c.isPending
  isOpen : c'.isOpen = c.isOpen
  message : c'.message = c.message
  isBinary : c'.isBinary = c.isBinary
  hasRecvClose : c'.hasRecvClose = c.hasRecvClose
  messages : received c'.handled = received c.handled
  deleted : c'.deleted = true → c.deleted = true ∨ c.isReading = false

namespace Same

variable {c c' c'' : Connection}

theorem refl (c : Connection) :
  Same c c
  := ⟨rfl, rfl, rfl, rfl, rfl, rfl, rfl, rfl, rfl, Or.inl⟩

theorem trans (h : Same c c') (h' : Same c' c'') :
  Same c c''
  where
    reading := h'.reading.trans h.reading
    incoming := h'.incoming.trans h.incoming
    isReading := h'.isReading.trans h.isReading
    isPending := h'.isPending.trans h.isPending
    isOpen := h'.isOpen.trans h.isOpen
    message := h'.message.trans h.message
    isBinary := h'.isBinary.trans h.isBinary
    hasRecvClose := h'.hasRecvClose.trans h.hasRecvClose
    messages := h'.messages.trans h.messages
    deleted hdeleted := by
      obtain hdeleted | hreading := h'.deleted hdeleted
      · apply h.deleted hdeleted
      · exact .inr (h.isReading ▸ hreading)

theorem doWrite (c : Connection) :
  Same c c.doWrite
  := by
  rw [Connection.doWrite]
  split
  · exact ⟨rfl, rfl, rfl, rfl, rfl, rfl, rfl, rfl, rfl, Or.inl⟩
  · apply refl

theorem write (c : Connection) (opcode : Opcode) (pieces : List Bytes) :
  Same c (c.write opcode pieces)
  := by
  apply trans _ (doWrite _)
  exact ⟨rfl, rfl, rfl, rfl, rfl, rfl, rfl, rfl, rfl, Or.inl⟩

theorem close (c : Connection) (msg : Bytes) (status : ℕ) :
  Same c (c.close msg status)
  := by
  apply trans _ (write _ .close _)
  split
  · exact ⟨rfl, rfl, rfl, rfl, rfl, rfl, rfl, rfl, received_closed _ _ _, Or.inl⟩
  · exact ⟨rfl, rfl, rfl, rfl, rfl, rfl, rfl, rfl, rfl, Or.inl⟩

theorem checkDestroy (c : Connection) (code : ℕ) :
  Same c (c.checkDestroy code)
  where
    reading := rfl
    incoming := rfl
    isReading := rfl
    isPending := rfl
    isOpen := rfl
    message := rfl
    isBinary := rfl
    hasRecvClose := rfl
    messages := by
      rw [Connection.checkDestroy]
      simp only
      split
      · rfl
      · apply received_closed
    deleted hdeleted := by
      rw [Connection.checkDestroy, Bool.or_eq_true, Bool.and_eq_true, Bool.not_eq_true'] at hdeleted
      exact hdeleted.imp_right And.right

theorem onWritten (c : Connection) (ok : Bool) (n : ℕ) :
  Same c (c.onWritten ok n)
  := by
  rw [Connection.onWritten]
  split
  · simp only
    have hwritten : Same c { c with
        written := c.written ++ c.sendingBuffers.flatten, sendingBuffers := [] } :=
      ⟨rfl, rfl, rfl, rfl, rfl, rfl, rfl, rfl, rfl, Or.inl⟩
    have hwrite := hwritten.trans (doWrite _)
    split
    · split
      · exact ⟨rfl, rfl, rfl, rfl, rfl, rfl, rfl, rfl, rfl, Or.inl⟩
      · exact ⟨rfl, rfl, rfl, rfl, rfl, rfl, rfl, rfl, rfl, Or.inl⟩
    · split
      · exact hwrite.trans ⟨rfl, rfl, rfl, rfl, rfl, rfl, rfl, rfl, rfl, Or.inl⟩
      · exact hwrite
  · apply trans _ (checkDestroy _ _)
    exact ⟨rfl, rfl, rfl, rfl, rfl, rfl, rfl, rfl, rfl, Or.inl⟩

theorem runTask (c : Connection) (task : Task) :
  Same c (c.runTask task)
  := by
  cases task with
  | send opcode msg => apply write
  | close msg status => apply close

/-- The steps in which no read comes back. -/
theorem step {maxPayloadBytes : ℕ} {onMessage : List Handled → Option (Bytes × ℕ)} (c : Connection)
    {l : Connection.Step} (hl : l.endsRead = false) :
  Same c (c.step maxPayloadBytes onMessage l)
  := by
  rw [Connection.step.eq_def]
  split
  · apply refl
  cases l with
  | read k => cases hl
  | readError => cases hl
  | post task => exact ⟨rfl, rfl, rfl, rfl, rfl, rfl, rfl, rfl, rfl, Or.inl⟩
  | task =>
      simp only
      split
      · apply refl
      case h_2 task tasks _ =>
        apply trans _ (runTask _ task)
        exact ⟨rfl, rfl, rfl, rfl, rfl, rfl, rfl, rfl, rfl, Or.inl⟩
  | close msg status => apply close
  | written ok n =>
      simp only
      split
      · apply refl
      · apply onWritten

end Same

/-- The socket is closed, and nothing is handed over. -/
structure Closes (c c' : Connection) : Prop where
  isOpen : c'.isOpen = false
  message : c'.message = c.message
  isBinary : c'.isBinary = c.isBinary
  messages : received c'.handled = received c.handled

namespace Closes

variable {maxPayloadBytes : ℕ} {onMessage : List Handled → Option (Bytes × ℕ)}
  {c c' c'' : Connection}

theorem refl (hopen : c.isOpen = false) :
  Closes c c
  := ⟨hopen, rfl, rfl, rfl⟩

theorem trans (h : Closes c c') (h' : Closes c' c'') :
  Closes c c''
  where
    isOpen := h'.isOpen
    message := h'.message.trans h.message
    isBinary := h'.isBinary.trans h.isBinary
    messages := h'.messages.trans h.messages

theorem of_same (hopen : c.isOpen = false) (h : Same c c') :
  Closes c c'
  := ⟨h.isOpen.trans hopen, h.message, h.isBinary, h.messages⟩

/-- The socket is closed and `check_destroy` is called. -/
theorem checkDestroy (c : Connection) (c' : Connection)
    (h : Closes c c') (code : ℕ) :
  Closes c (c'.checkDestroy code)
  := h.trans (of_same h.isOpen (Same.checkDestroy _ _))

/-- Nothing opens a closed socket again. -/
theorem doRead (hopen : c.isOpen = false) :
  Closes c (c.doRead maxPayloadBytes)
  := by
  rw [Connection.doRead]
  split
  · apply checkDestroy
    exact ⟨rfl, rfl, rfl, rfl⟩
  · simp only
    split
    case h_4 =>
      split
      · apply checkDestroy
        exact ⟨rfl, rfl, rfl, rfl⟩
      split
      · exact ⟨hopen, rfl, rfl, rfl⟩
      · exact ⟨hopen, rfl, rfl, rfl⟩
    all_goals exact ⟨hopen, rfl, rfl, rfl⟩

theorem onHeader (hopen : c.isOpen = false) :
  Closes c (c.onHeader maxPayloadBytes)
  := by
  rw [Connection.onHeader]
  refine trans ?_ (doRead hopen)
  exact ⟨hopen, rfl, rfl, rfl⟩

/-- A header that has no mask closes the connection. -/
theorem onMiniHeader (c : Connection) {got : Bytes}
    (hmask : ¬miniHeaderOf got &&& 0x80 = 0x80) :
  Closes c (c.onMiniHeader maxPayloadBytes got)
  := by
  rw [Connection.onMiniHeader]
  simp only [if_neg hmask]
  refine trans ?_ (onHeader rfl)
  apply checkDestroy
  exact ⟨rfl, rfl, rfl, rfl⟩

theorem step (hopen : c.isOpen = false) (l : Connection.Step) :
  Closes c (c.step maxPayloadBytes onMessage l)
  := by
  cases l with
  | read k =>
      rw [Connection.step.eq_def]
      simp only
      rw [hopen, Bool.false_and, if_neg Bool.false_ne_true, ite_self]
      exact refl hopen
  | readError =>
      rw [Connection.step.eq_def]
      split
      · exact refl hopen
      simp only
      split
      · apply checkDestroy
        exact ⟨rfl, rfl, rfl, rfl⟩
      · exact refl hopen
  | post task => exact .of_same hopen (Same.step c rfl)
  | task => exact .of_same hopen (Same.step c rfl)
  | close msg status => exact .of_same hopen (Same.step c rfl)
  | written ok n => exact .of_same hopen (Same.step c rfl)

/-- Nothing is handed over when the socket has been closed. -/
theorem run (hopen : c.isOpen = false) (ls : List Connection.Step) :
  Closes c (Machine.run (Connection.step maxPayloadBytes onMessage) c ls)
  := by
  have hstep : ∀ (c' : Connection) (l : Connection.Step), Closes c c' →
      Closes c (c'.step maxPayloadBytes onMessage l) :=
    fun c' l h => h.trans (step h.isOpen l)
  exact (Machine.everyState_of_invariant hstep (refl hopen) ls).last

end Closes

theorem step_read {maxPayloadBytes : ℕ} {onMessage : List Handled → Option (Bytes × ℕ)}
    {c : Connection} (hopen : c.isOpen = true) (hpending : c.isPending = true)
    (hdeleted : c.deleted = false) (k : ℕ) :
  c.step maxPayloadBytes onMessage (.read k) = c.onRead maxPayloadBytes onMessage k
  := by
  rw [Connection.step.eq_def, if_neg (hdeleted ▸ Bool.false_ne_true)]
  simp only
  rw [hopen, hpending, Bool.and_self, if_pos rfl]

end WebSocket

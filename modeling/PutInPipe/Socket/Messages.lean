import PutInPipe.Socket.Frames

/-!
# The messages in frames

A message comes in one frame or in fragments, with pings and pongs between them. `Carries` says
which messages the frames of a peer carry, and `messagesOf` reads them from the frames.
-/

open Text (Bytes)

namespace WebSocket

/-- Whether the message is binary that a frame belongs to. -/
def Frame.isBinary (f : Frame) (isBinary : Bool) : Bool :=
  if f.opcode = 1 then false else if f.opcode = 2 then true else isBinary

/-- A frame that closes, or is not allowed because it has no mask. -/
def Frame.IsLast (f : Frame) : Prop := f.opcode = 8 ∨ f.mask = none

instance (f : Frame) : Decidable f.IsLast := inferInstanceAs (Decidable (_ ∨ _))

/-- The messages in frames that come after the beginning of a message. -/
def messagesOf : Bytes → Bool → List Frame → List (Bytes × Bool)
  | _, _, [] => []
  | message, isBinary, f :: fs =>
      if f.IsLast then []
      else if f.opcode ≤ 2 then
        if f.fin then
          (message ++ f.payload, f.isBinary isBinary) :: messagesOf [] (f.isBinary isBinary) fs
        else messagesOf (message ++ f.payload) (f.isBinary isBinary) fs
      else messagesOf message isBinary fs

/-- A ping or a pong, which may come between the fragments of a message. -/
def Frame.IsControl (f : Frame) : Prop := (f.opcode = 9 ∨ f.opcode = 10) ∧ f.mask.isSome = true

/-- A fragment that goes on with a message. -/
def Frame.IsContinuation (f : Frame) (fin : Bool) : Prop :=
  f.opcode = 0 ∧ f.fin = fin ∧ f.mask.isSome = true

/-- The first fragment of a message. -/
def Frame.IsStart (f : Frame) (fin : Bool) : Prop :=
  (f.opcode = 1 ∨ f.opcode = 2) ∧ f.fin = fin ∧ f.mask.isSome = true

/-- The frames go on with a message until its end. -/
inductive Continues : Bytes → List Frame → Prop where
  | last {f : Frame} (hf : f.IsContinuation true) : Continues f.payload [f]
  | more {f : Frame} {fs : List Frame} {rest : Bytes} (hf : f.IsContinuation false)
      (h : Continues rest fs) : Continues (f.payload ++ rest) (f :: fs)
  | control {f : Frame} {fs : List Frame} {rest : Bytes} (hf : f.IsControl)
      (h : Continues rest fs) : Continues rest (f :: fs)

/-- The frames carry the messages, each of them whole or in fragments. Nothing that comes after a
last frame counts. -/
inductive Carries : List (Bytes × Bool) → List Frame → Prop where
  | nil : Carries [] []
  | last {f : Frame} (hf : f.IsLast) (fs : List Frame) : Carries [] (f :: fs)
  | control {f : Frame} {fs : List Frame} {ms : List (Bytes × Bool)} (hf : f.IsControl)
      (h : Carries ms fs) : Carries ms (f :: fs)
  | whole {f : Frame} {fs : List Frame} {ms : List (Bytes × Bool)} (hf : f.IsStart true)
      (h : Carries ms fs) : Carries ((f.payload, f.opcode = 2) :: ms) (f :: fs)
  | fragments {f : Frame} {fs gs : List Frame} {ms : List (Bytes × Bool)} {rest : Bytes}
      (hf : f.IsStart false) (hrest : Continues rest fs) (h : Carries ms gs) :
      Carries ((f.payload ++ rest, f.opcode = 2) :: ms) (f :: (fs ++ gs))

theorem Frame.not_isLast {f : Frame} (hopcode : f.opcode ≠ 8) (hmask : f.mask.isSome = true) :
  ¬f.IsLast
  := by
  rintro (hlast | hlast)
  · exact hopcode hlast
  · rw [hlast] at hmask
    cases hmask

theorem messagesOf_control {f : Frame} (hf : f.IsControl) (message : Bytes) (isBinary : Bool)
    (fs : List Frame) :
  messagesOf message isBinary (f :: fs) = messagesOf message isBinary fs
  := by
  obtain ⟨hopcode, hmask⟩ := hf
  have hbounds : f.opcode ≠ 8 ∧ ¬f.opcode ≤ 2 := by
    obtain hopcode | hopcode := hopcode
    · rw [hopcode]
      decide
    · rw [hopcode]
      decide
  rw [messagesOf, if_neg (Frame.not_isLast hbounds.1 hmask), if_neg hbounds.2]

theorem messagesOf_continuation {f : Frame} {fin : Bool} (hf : f.IsContinuation fin)
    (message : Bytes) (isBinary : Bool) (fs : List Frame) :
  messagesOf message isBinary (f :: fs)
    = if fin then (message ++ f.payload, isBinary) :: messagesOf [] isBinary fs
      else messagesOf (message ++ f.payload) isBinary fs
  := by
  obtain ⟨hopcode, hfin, hmask⟩ := hf
  have hne : f.opcode ≠ 8 := by
    rw [hopcode]
    decide
  rw [messagesOf, if_neg (Frame.not_isLast hne hmask), Frame.isBinary, hfin, hopcode]
  rfl

theorem messagesOf_start {f : Frame} {fin : Bool} (hf : f.IsStart fin) (message : Bytes)
    (isBinary : Bool) (fs : List Frame) :
  messagesOf message isBinary (f :: fs)
    = if fin then (message ++ f.payload, decide (f.opcode = 2)) :: messagesOf [] (f.opcode = 2) fs
      else messagesOf (message ++ f.payload) (f.opcode = 2) fs
  := by
  obtain ⟨hopcode, hfin, hmask⟩ := hf
  have hthis : f.opcode ≠ 8 ∧ f.opcode ≤ 2 ∧ f.isBinary isBinary = decide (f.opcode = 2) := by
    rw [Frame.isBinary]
    obtain hopcode | hopcode := hopcode
    · rw [hopcode]
      exact ⟨by decide, by decide, rfl⟩
    · rw [hopcode]
      exact ⟨by decide, by decide, rfl⟩
  obtain ⟨hne, hle, hbinary⟩ := hthis
  rw [messagesOf, if_neg (Frame.not_isLast hne hmask), if_pos hle, hbinary, hfin]

theorem messagesOf_continues {rest : Bytes} {fs : List Frame} (h : Continues rest fs)
    (message : Bytes) (isBinary : Bool) (gs : List Frame) :
  messagesOf message isBinary (fs ++ gs)
    = (message ++ rest, isBinary) :: messagesOf [] isBinary gs
  := by
  induction h generalizing message with
  | last hf => exact messagesOf_continuation hf message isBinary gs
  | more hf h ih =>
      rw [List.cons_append, messagesOf_continuation hf, if_neg Bool.false_ne_true, ih,
        List.append_assoc]
  | control hf h ih =>
      rw [List.cons_append, messagesOf_control hf]
      apply ih

/-- The messages are those that the frames carry. -/
theorem Carries.messagesOf_eq {ms : List (Bytes × Bool)} {fs : List Frame} (h : Carries ms fs)
    (isBinary : Bool) :
  messagesOf [] isBinary fs = ms
  := by
  induction h generalizing isBinary with
  | nil => rfl
  | last hf fs => rw [messagesOf, if_pos hf]
  | control hf h ih =>
      rw [messagesOf_control hf]
      apply ih
  | whole hf h ih => rw [messagesOf_start hf, if_pos rfl, ih, List.nil_append]
  | fragments hf hrest h ih =>
      rw [messagesOf_start hf, if_neg Bool.false_ne_true, messagesOf_continues hrest, ih,
        List.nil_append]

/-- The messages that were handed over. -/
def received (handled : List Handled) : List (Bytes × Bool) :=
  handled.filterMap fun call =>
    match call with
    | .message data isBinary => some (data, isBinary)
    | .closed _ _ => none

@[simp]
theorem received_closed (handled : List Handled) (reason : Bytes) (status : ℕ) :
  received (handled ++ [.closed reason status]) = received handled
  := by simp [received]

@[simp]
theorem received_message (handled : List Handled) (data : Bytes) (isBinary : Bool) :
  received (handled ++ [.message data isBinary]) = received handled ++ [(data, isBinary)]
  := by simp [received]

end WebSocket

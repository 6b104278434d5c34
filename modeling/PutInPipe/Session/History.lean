import PutInPipe.Session.Run

/-!
# Sessions with a history

A `History` is a session together with what has happened to it: the payloads it has
accepted, the confirmations that reached a stored chunk, and the receivers that have joined
and neither left nor been removed nor destroyed. The history is recorded from the
operations and their results; nothing the session does depends on it.
-/

open TransferSessionDetails

structure History where
  session : TransferSession
  log : List Bytes := []
  confirmed : List (ClientRef × ℕ) := []
  present : List ClientRef := []

namespace History

variable {config : Config} {h : History}

def create (sender : ClientRef) (autoDropFreezeOnFirstChunk : Bool) : History where
  session := .create sender autoDropFreezeOnFirstChunk

/-- The payloads after an operation. -/
def nextLog (config : Config) (h : History) : TransferSession.Op → List Bytes
  | .addChunk binaryData =>
      if (h.session.addChunk config binaryData).2 then h.log ++ [binaryData] else h.log
  | _ => h.log

/-- The confirmations after an operation. -/
def nextConfirmed (h : History) : TransferSession.Op → List (ClientRef × ℕ)
  | .setChunkAsReceived index client =>
      if (h.session.buffer.chunks.find? index).isSome then (client, index) :: h.confirmed
      else h.confirmed
  | _ => h.confirmed

/-- The receivers after an operation. -/
def nextPresent (config : Config) (h : History) : TransferSession.Op → List ClientRef
  | .addReceiver client =>
      if (h.session.addReceiver config client).2 then h.present ++ [client] else h.present
  | .removeReceiver publicId => h.present.filter (fun c => c.publicId ≠ publicId)
  | .destroyClient client => h.present.filter (fun c => c ≠ client)
  | _ => h.present

/-- One operation of a sequential run, with its history. -/
def step (config : Config) (h : History) (op : TransferSession.Op) : History :=
  if h.session.listed && h.session.enabled op then
    { session := h.session.step config op
      log := h.nextLog config op
      confirmed := h.nextConfirmed op
      present := h.nextPresent config op }
  else h

theorem session_step (config : Config) (h : History) (op : TransferSession.Op) :
  (h.step config op).session = h.session.step config op
  := by
  rw [step]
  split
  · rfl
  · rename_i hc
    rw [TransferSession.step, if_neg hc]

/-- The sessions of a run with history are those of the run without. -/
theorem session_run (config : Config) (h : History) (ops : List TransferSession.Op) :
  (Machine.run (step config) h ops).session
    = Machine.run (TransferSession.step config) h.session ops
  := by
  induction ops generalizing h with
  | nil => rfl
  | cons op ops ih => rw [Machine.run_cons, Machine.run_cons, ih, session_step]

/-- The history after an operation that is applied. -/
def applied (config : Config) (h : History) (op : TransferSession.Op) : History where
  session := h.session.apply config op
  log := h.nextLog config op
  confirmed := h.nextConfirmed op
  present := h.nextPresent config op

theorem step_of_not_enabled {op : TransferSession.Op}
    (hc : ¬ (h.session.listed = true ∧ h.session.enabled op = true)) :
  h.step config op = h
  := by
  rw [step, if_neg (by simpa using hc)]

/-! ### Properties of listed sessions -/

/-- `Q` holds while the session is listed. -/
def WhileListed (Q : History → Prop) (h : History) : Prop :=
  h.session.listed = true → Q h

/-- A condition on the operations that are applied to a listed session. -/
def WhenApplied (C : History → TransferSession.Op → Prop) (h : History)
    (op : TransferSession.Op) : Prop :=
  h.session.listed = true → h.session.enabled op = true → C h op

/-- A step that is applied keeps a property of listed sessions when the operation does. -/
theorem whileListed_step {Q : History → Prop} {op : TransferSession.Op}
    (hl : h.session.listed = true) (he : h.session.enabled op = true) :
  WhileListed Q (h.step config op) ↔ WhileListed Q (h.applied config op)
  := by
  have hstep : h.step config op
      = { h.applied config op with session := (h.session.apply config op).finish } := by
    rw [step, if_pos (by simp [hl, he]), TransferSession.step_of_enabled hl he]
    rfl
  rw [hstep]
  cases hlisted : (h.session.apply config op).listed with
  | true =>
      rw [TransferSession.finish_of_listed hlisted]
      rfl
  | false => simp [WhileListed, TransferSession.finish, TransferSession.notify, applied, hlisted]

/-- The session of a history is consistent while it is listed. -/
def Consistent (config : Config) (h : History) : Prop :=
  TransferSession.WhileListed (TransferSession.Consistent config) h.session

theorem Consistent.create (config : Config) (sender : ClientRef) (auto : Bool) :
  (create sender auto).Consistent config
  := fun _ => TransferSession.Consistent.create config sender auto

theorem Consistent.step (hc : h.Consistent config) (op : TransferSession.Op) :
  (h.step config op).Consistent config
  := by
  rw [Consistent, session_step]
  apply TransferSession.Consistent.step hc

/-- Where an operation applied to a consistent listed session keeps `Q` exactly when it
meets `C`, a run has `Q` while the session is listed exactly when all the operations it
applies meet `C`. -/
theorem everyState_whileListed_iff {Q : History → Prop}
    {C : History → TransferSession.Op → Prop}
    (hstep : ∀ h op, h.session.listed = true → h.session.enabled op = true →
      h.session.Consistent config → Q h → (WhileListed Q (h.applied config op) ↔ C h op))
    {sender : ClientRef} {auto : Bool} (hQ : Q (create sender auto))
    (ops : List TransferSession.Op) :
  Machine.EveryState (step config) (WhileListed Q) (create sender auto) ops
    ↔ Machine.EveryStep (step config) (WhenApplied C) (create sender auto) ops
  := by
  apply Machine.everyState_iff_everyStep _ _ (Consistent.create config sender auto)
    (fun _ => hQ)
  · intro h op hc
    apply hc.step
  · intro h op hc hQ
    by_cases ha : h.session.listed = true ∧ h.session.enabled op = true
    · rw [whileListed_step ha.1 ha.2, hstep h op ha.1 ha.2 (hc ha.1) (hQ ha.1)]
      simp [WhenApplied, ha]
    · rw [step_of_not_enabled ha]
      constructor
      · intro _ hl he
        apply absurd ⟨hl, he⟩ ha
      · exact fun _ => hQ

end History

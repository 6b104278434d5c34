import PutInPipe.Concurrent.Calls
import PutInPipe.Web.Sender

/-!
# Uploading under concurrency

`Uploading` is a session with calls of `addChunk` and `setChunkAsReceived` in progress, the
page of the sender, and the frames and messages between them. The messages reach the page
in the order in which the calls have published the events. The page is stuck when it waits
for space and nothing is on its way that tells it of the space there is.

A call publishes `new_chunk_allowed` when it has seen the status change: it owes the message
from the time it has changed the queue, having seen it full. Whenever the page waits, or is
made to wait by what is on its way to it, the queue has to be full or some call owes it the
message.
-/

open TransferSessionDetails TransferSession

namespace SessionSender

variable (config : Config) (file : SelectedFile)

/-- The page is blocked in `waitForBufferSpace`. -/
def waitsForSpace (p : SessionSender) : Bool :=
  match p.phase with
  | .waitingSpace _ => true
  | _ => false

/-- The page once it has got the messages, as long as nothing else happens to it. -/
def settle (p : SessionSender) (messages : List Message) : SessionSender :=
  messages.foldl (fun p message => (p.onMessage config file message).1) p

end SessionSender

/-- The call publishes that a chunk is allowed before it returns, unless the queue is full
when it looks. -/
def TransferSession.Call.owes : Call → Bool
  | .addChunkNotify _ _ oldAllowed | .addChunkCompare oldAllowed
  | .confirmCount _ oldAllowed _ | .confirmRemoved _ oldAllowed _ _
  | .confirmCompare _ oldAllowed _ => !oldAllowed
  | .addChunkAllowed newAllowed | .confirmAllowed _ newAllowed _ => newAllowed
  | _ => false

structure Uploading where
  running : Running
  page : SessionSender := {}
  toServer : List Frame := []
  toClient : List Message := []

namespace Uploading

variable (config : Config) (file : SelectedFile) (encryptChunk : Bytes → ℕ → Bytes)

/-- What happens next: the file is selected, a slice has been read and is encrypted with a
nonce, the loop fails, the server takes the next frame, the page gets the next message, a
method is called, or call `k` makes its next step. -/
inductive Step where
  | select
  | read (nonce : ℕ)
  | error
  | serve
  | receive
  | addChunk (binaryData : Bytes)
  | setChunkAsReceived (c : Confirmation)
  | advance (k : ℕ)
deriving DecidableEq, Repr

/-- What the page does, and what it sends. -/
def act (u : Uploading) (r : SessionSender × List Frame) : Uploading :=
  { u with page := r.1, toServer := u.toServer ++ r.2 }

/-- A method is called. -/
def start (u : Uploading) (call : Call) : Uploading :=
  { u with running := u.running.start call }

/-- Nothing observes the steps of `setFileInfo`, and the failure of `addChunk` is not
reported here, for the page ignores it. -/
def serve (u : Uploading) : Frame → Uploading
  | .binary data => u.start (.addChunk data)
  | .setFileInfo info =>
      { u with running.session :=
          if u.running.session.listed then (u.running.session.setFileInfo info).1
          else u.running.session }
  | .uploadFinished => u.start .endOfFile

def step (u : Uploading) : Step → Uploading
  | .select => u.act (u.page.handleFileSelect config file)
  | .read nonce =>
      match u.page.phase with
      | .reading i =>
          u.act (u.page.onSliceRead true (encryptChunk (SessionSender.slice config file i) nonce))
      | _ => u
  | .error => { u with page := u.page.onError }
  | .serve =>
      match u.toServer with
      | [] => u
      | frame :: rest => { u with toServer := rest }.serve frame
  | .receive =>
      match u.toClient with
      | [] => u
      | message :: rest => { u with toClient := rest }.act (u.page.onMessage config file message)
  | .addChunk binaryData => u.start (.addChunk binaryData)
  | .setChunkAsReceived c => u.start (.confirm c)
  | .advance k =>
      let running := u.running.advance config k
      { u with
        running
        toClient := u.toClient ++ Upload.messagesSince u.running.session running.session }

/-- Nothing is on its way to the page, which waits although there is space. -/
def Stuck (u : Uploading) : Prop :=
  u.running.calls = [] ∧ u.toClient = [] ∧ u.page.waitsForSpace = true
    ∧ u.running.session.buffer.newChunkIsAllowed config = true

/-- The freeze is off, nothing is on its way, and the page does not wait in vain. -/
structure Starts (u : Uploading) : Prop where
  unfrozen : u.running.session.buffer.initialChunksFreezing = false
  calls : u.running.calls = []
  toClient : u.toClient = []
  waits : u.page.waitsForSpace = true → u.running.session.buffer.newChunkIsAllowed config = false

/-! ### The condition -/

/-- The page waits for space once it has got the messages on their way, and then
`messages`. -/
def wouldWait (u : Uploading) (page : SessionSender) (messages : List Message) : Bool :=
  (page.settle config file (u.toClient ++ messages)).waitsForSpace

/-- A call owes the page a message. -/
def owed (u : Uploading) : Bool := u.running.calls.any Call.owes

/-- The queue is full, or a call owes the page a message. -/
def mayWait (u : Uploading) : Bool :=
  !u.running.session.buffer.newChunkIsAllowed config || u.owed

/-- The page as it waits for the acceptance of the slice it reads. -/
def afterRead (p : SessionSender) : SessionSender :=
  match p.phase with
  | .reading i => { p with phase := .waitingAccepted i }
  | _ => p

/-- The queue is full, and the confirmation takes a chunk off it. -/
def makesRoom (b : Buffer) (index : ℕ) : Bool :=
  !b.newChunkIsAllowed config && (b.setChunkAsReceived index).1.newChunkIsAllowed config

/-- A step keeps up with the queue. The page is made to wait, by the message `new_chunk` or
because the message has come before it waits for it, only while the queue is full or a call
owes it a message. And a confirmation that makes room while the page waits has seen the
queue full, or another call owes the message. -/
def keepsUp (u : Uploading) : Step → Bool
  | .read _ => if u.wouldWait config file (afterRead u.page) [] then u.mayWait config else true
  | .advance k =>
      match u.running.calls[k]? with
      | some (.addChunkNotify newIndex size _) =>
          if u.wouldWait config file u.page [.newChunk newIndex size] then u.mayWait config
          else true
      | some (.confirmStore c oldAllowed) =>
          if u.wouldWait config file u.page []
              && makesRoom config u.running.session.buffer c.index then
            !oldAllowed || u.owed
          else true
      | _ => true
  | _ => true

/-! ### What the messages do to the page -/

variable {config : Config} {file : SelectedFile} {encryptChunk : Bytes → ℕ → Bytes}

theorem settle_append (p : SessionSender) (messages messages' : List Message) :
  p.settle config file (messages ++ messages')
    = (p.settle config file messages).settle config file messages'
  := List.foldl_append

theorem waitsForSpace_iff {p : SessionSender} :
  p.waitsForSpace = true ↔ ∃ i, p.phase = .waitingSpace i
  := by
  rw [SessionSender.waitsForSpace]
  split
  · next i hi => simp [hi]
  · next h => simpa using h

theorem waitsForSpace_next (p : SessionSender) (i : ℕ) :
  (p.next config file i).1.waitsForSpace = false
  := by
  rw [SessionSender.next]
  split <;> rfl

/-- The page does not wait for space once it has heard that a chunk is allowed. -/
theorem waitsForSpace_newChunkAllowed (p : SessionSender) :
  (p.onMessage config file (.newChunkAllowed true)).1.waitsForSpace = false
  := by
  simp only [SessionSender.onMessage, SessionSender.onNewChunkAllowed]
  split
  · apply waitsForSpace_next
  · next h =>
    rw [Bool.eq_false_iff, ne_eq, waitsForSpace_iff]
    rintro ⟨i, hi⟩
    apply h i hi

/-- The events of the session, apart from a new chunk, do not make the page wait for
space. -/
theorem waitsForSpace_of_settle {p : SessionSender} {events : List Event}
    (hnew : ∀ (index size : ℕ), .newChunkIsAvailable index size ∉ events)
    (hw : (p.settle config file (events.filterMap Message.ofEvent)).waitsForSpace = true) :
  p.waitsForSpace = true
  := by
  induction events generalizing p with
  | nil => exact hw
  | cons e events ih =>
      have hnew' : ∀ (index size : ℕ), .newChunkIsAvailable index size ∉ events :=
        fun index size h => hnew index size (List.mem_cons_of_mem _ h)
      cases e with
      | newChunkIsAvailable index size => exact absurd List.mem_cons_self (hnew index size)
      | chunksWasRemoved ids => exact ih (p := p.onChunkRemoved ids) hnew' hw
      | newChunkIsAllowed status =>
          have h := ih (p := (p.onNewChunkAllowed config file status).1) hnew' hw
          simp only [SessionSender.onNewChunkAllowed] at h
          split at h
          · next i hi => exact waitsForSpace_iff.mpr ⟨i, hi⟩
          · apply h
      | _ => exact ih hnew' hw

/-- The loop does not wait for a message. -/
def rests : Phase → Bool
  | .waitingAccepted _ | .waitingSpace _ => false
  | _ => true

theorem phase_onMessage {p : SessionSender} (hp : rests p.phase = true) (message : Message) :
  (p.onMessage config file message).1.phase = p.phase
  := by
  cases message with
  | newChunk index size =>
      simp only [SessionSender.onMessage, SessionSender.onNewChunkEvent]
      split
      · next i hi => simp [hi, rests] at hp
      · rfl
  | chunkRemoved ids => rfl
  | newChunkAllowed status =>
      simp only [SessionSender.onMessage, SessionSender.onNewChunkAllowed]
      split
      · next i hi => simp [hi, rests] at hp
      · rfl
  | addChunkFailure => rfl
  | startInit chunks currentChunk =>
      simp only [SessionSender.onMessage, SessionSender.onReconnectInit]
      split
      · next i hi => simp [hi, rests] at hp
      · next i hi => simp [hi, rests] at hp
      · rfl

theorem phase_settle {p : SessionSender} (hp : rests p.phase = true) (messages : List Message) :
  (p.settle config file messages).phase = p.phase
  := by
  induction messages generalizing p with
  | nil => rfl
  | cons message messages ih =>
      have hphase : (p.onMessage config file message).1.phase = p.phase :=
        phase_onMessage hp message
      rw [← hphase]
      apply ih (by rw [hphase, hp])

/-! ### What a call does to the queue and to the page -/

/-- While the freeze is off, it takes a confirmation to make room in a full queue. -/
theorem makesRoom_of_onBuffer {b : Buffer} {call : Call}
    (hf : b.initialChunksFreezing = false) (hc : call.departs = false)
    (hfull : b.newChunkIsAllowed config = false)
    (hroom : (call.onBuffer config b).newChunkIsAllowed config = true) :
  ∃ (c : Confirmation) (oldAllowed : Bool), call = .confirmStore c oldAllowed
    ∧ makesRoom config b c.index = true
  := by
  have hne : (call.onBuffer config b).chunks ≠ b.chunks := by
    intro hb
    rw [Buffer.newChunkIsAllowed, Buffer.chunkCount, hb] at hroom
    rw [Buffer.newChunkIsAllowed, Buffer.chunkCount, hroom] at hfull
    cases hfull
  cases call with
  | confirmStore c oldAllowed =>
      use c, oldAllowed, rfl
      rw [makesRoom, hfull]
      apply hroom
  | addChunkStore binaryData oldAllowed =>
      obtain ha | ha := b.insertChunk_cases config binaryData
      · rw [ha] at hfull
        cases hfull
      · exact absurd (by rw [Call.onBuffer, ha]) hne
  | confirmGet c => exact absurd (b.chunks_get c.index) hne
  | drop next =>
      apply absurd _ hne
      rw [Call.onBuffer, b.setInitialChunksFreezingDropped_of_not_freezing hf]
  | removeConsumer => cases hc
  | endOfFileStore =>
      apply absurd _ hne
      rw [Call.onBuffer, Buffer.setEndOfFile]
      split <;> rfl
  | _ => exact absurd rfl hne

theorem unfrozen_onBuffer {b : Buffer} (call : Call) (hf : b.initialChunksFreezing = false) :
  (call.onBuffer config b).initialChunksFreezing = false
  := by
  cases call with
  | endOfFileStore =>
      rw [Call.onBuffer, Buffer.setEndOfFile]
      split <;> exact hf
  | _ => simp [Call.onBuffer, hf]

/-- A call that owes the page a message goes on to owe it, sends it, or sees the queue
full. -/
theorem owes_advance {s : TransferSession} {call : Call} (hc : call.owes = true)
    (ha : (call.onBuffer config s.buffer).newChunkIsAllowed config = true) :
  (∃ next, (call.advance config s).2 = some next ∧ next.owes = true)
    ∨ call.publishes s = [.newChunkIsAllowed true]
  := by
  cases call with
  | addChunkNotify _ _ oldAllowed => exact .inl ⟨_, rfl, hc⟩
  | addChunkCompare oldAllowed =>
      left
      simp only [Call.owes, Bool.not_eq_true'] at hc
      simp only [Call.onBuffer] at ha
      simp [Call.advance, hc, ha, Call.owes]
  | addChunkAllowed newAllowed =>
      right
      rw [show newAllowed = true from hc]
      rfl
  | confirmCount c oldAllowed _ => exact .inl ⟨_, rfl, hc⟩
  | confirmRemoved c oldAllowed _ _ => exact .inl ⟨_, rfl, hc⟩
  | confirmCompare c oldAllowed _ =>
      left
      simp only [Call.owes, Bool.not_eq_true'] at hc
      simp only [Call.onBuffer] at ha
      simp [Call.advance, hc, ha, Call.owes]
  | confirmAllowed c newAllowed _ =>
      right
      rw [show newAllowed = true from hc]
      rfl
  | _ => cases hc

/-- What the page gets when a call makes a step. -/
def messages (s : TransferSession) (call : Call) : List Message :=
  (call.publishes s).filterMap Message.ofEvent

theorem messagesSince_advance (s : TransferSession) (call : Call) :
  Upload.messagesSince s (call.advance config s).1 = messages s call
  := by
  rw [Upload.messagesSince, call.events_advance, List.drop_left, messages]

theorem found_of_makesRoom {b : Buffer} {index : ℕ} (h : makesRoom config b index = true) :
  (b.setChunkAsReceived index).2.2 = true
  := by
  cases hf : b.chunks.find? index with
  | none => simp [makesRoom, Buffer.setChunkAsReceived_of_none hf] at h
  | some chunk => rw [Buffer.setChunkAsReceived_of_some hf]

/-! ### Runs -/

/-- Calls never depart, and whenever the page would wait, it may. -/
structure Inv (config : Config) (file : SelectedFile) (u : Uploading) : Prop where
  unfrozen : u.running.session.buffer.initialChunksFreezing = false
  stays : ∀ call ∈ u.running.calls, call.departs = false
  waits : u.wouldWait config file u.page [] = true → u.mayWait config = true

theorem mayWait_iff {u : Uploading} :
  u.mayWait config = true
    ↔ u.running.session.buffer.newChunkIsAllowed config = false
      ∨ ∃ call ∈ u.running.calls, call.owes = true
  := by
  simp [mayWait, owed]

theorem Inv.of_starts {u : Uploading} (h : u.Starts config) :
  u.Inv config file
  where
  unfrozen := h.unfrozen
  stays := by simp [h.calls]
  waits := by
    intro hw
    rw [wouldWait, h.toClient] at hw
    apply mayWait_iff.mpr (.inl (h.waits hw))

theorem Inv.not_stuck {u : Uploading} (h : u.Inv config file) :
  ¬u.Stuck config
  := by
  rintro ⟨hcalls, hclient, hw, ha⟩
  have hm : u.mayWait config = true := h.waits (by rw [wouldWait, hclient]; exact hw)
  simp [mayWait_iff, hcalls, ha] at hm

/-- A page that has got no further than to read a slice does not wait for space. -/
theorem Inv.of_rests {u u' : Uploading} (h : u.Inv config file) (hr : u'.running = u.running)
    (hp : rests u'.page.phase = true) :
  u'.Inv config file
  where
  unfrozen := by rw [hr, h.unfrozen]
  stays := by rw [hr]; exact h.stays
  waits := by
    intro hw
    rw [wouldWait, waitsForSpace_iff] at hw
    obtain ⟨i, hi⟩ := hw
    rw [phase_settle hp] at hi
    rw [hi] at hp
    cases hp

/-- Apart from the page, the messages and the calls, only the buffer matters. -/
theorem Inv.of_buffer {u u' : Uploading} (h : u.Inv config file)
    (hb : u'.running.session.buffer = u.running.session.buffer)
    (hc : u'.running.calls = u.running.calls) (hp : u'.page = u.page)
    (hm : u'.toClient = u.toClient) :
  u'.Inv config file
  where
  unfrozen := by rw [hb, h.unfrozen]
  stays := by rw [hc]; exact h.stays
  waits := by
    rw [wouldWait, hp, hm, mayWait, hb, owed, hc]
    apply h.waits

theorem buffer_setFileInfo (s : TransferSession) (info : FileInfo) :
  (s.setFileInfo info).1.buffer = s.buffer
  := by
  rw [setFileInfo]
  split_ifs <;> rfl

/-- The server starts a call. -/
theorem Inv.start {u : Uploading} (h : u.Inv config file) {call : Call}
    (hc : call.departs = false) :
  (u.start call).Inv config file
  := by
  rw [Uploading.start, Running.start]
  split
  · exact {
      unfrozen := h.unfrozen
      stays := by
        intro c hmem
        obtain hmem | hmem := List.mem_append.mp hmem
        · apply h.stays c hmem
        · rw [List.mem_singleton.mp hmem, hc]
      waits := by
        intro hw
        obtain ha | ⟨c, hmem, ho⟩ := mayWait_iff.mp (h.waits hw)
        · exact mayWait_iff.mpr (.inl ha)
        · exact mayWait_iff.mpr (.inr ⟨c, List.mem_append_left _ hmem, ho⟩) }
  · apply h

/-- A message owed before a step is owed after it, unless it is the one that has been
sent. -/
theorem owed_goOn {r : Running} {k : ℕ} {call : Call} (hk : r.calls[k]? = some call)
    (ha : (call.onBuffer config r.session.buffer).newChunkIsAllowed config = true)
    (hsent : call.publishes r.session ≠ [.newChunkIsAllowed true])
    (h : ∃ c ∈ r.calls, c.owes = true) :
  ∃ c ∈ Threads.goOn r.calls k (call.advance config r.session).2, c.owes = true
  := by
  obtain ⟨c, hmem, ho⟩ := h
  obtain rfl | hmem := (Threads.mem_iff hk).mp hmem
  · obtain ⟨next, hnext, ho'⟩ | hp := owes_advance ho ha
    · exact ⟨next, Threads.mem_goOn.mpr (.inl hnext), ho'⟩
    · exact absurd hp hsent
  · exact ⟨c, Threads.mem_goOn.mpr (.inr hmem), ho⟩

/-- A call that makes a step while the page waits, or is made to wait, leaves the queue full
or a message owed. -/
theorem mayWait_advance {u : Uploading} (h : u.Inv config file) {k : ℕ} {call : Call}
    (hk : u.running.calls[k]? = some call) (hok : u.keepsUp config file (.advance k) = true)
    (hw : (u.step config file encryptChunk (.advance k)).wouldWait config file u.page [] = true) :
  (u.step config file encryptChunk (.advance k)).mayWait config = true
  := by
  have hadvance := Running.advance_of_getElem? config hk
  simp only [step, wouldWait, List.append_nil, hadvance, messagesSince_advance,
    settle_append] at hw
  simp only [mayWait_iff, step, hadvance, call.buffer_advance]
  by_cases ha : (call.onBuffer config u.running.session.buffer).newChunkIsAllowed config = true
  · right
    have hsent : call.publishes u.running.session ≠ [.newChunkIsAllowed true] := by
      intro hp
      rw [messages, hp] at hw
      exact absurd hw (by rw [Bool.not_eq_true]; exact waitsForSpace_newChunkAllowed _)
    have howed := owed_goOn hk ha hsent
    by_cases hnew : ∃ (newIndex size : ℕ) (oldAllowed : Bool),
        call = .addChunkNotify newIndex size oldAllowed
    · -- the page is made to wait
      obtain ⟨newIndex, size, oldAllowed, rfl⟩ := hnew
      simp only [keepsUp, hk] at hok
      rw [if_pos (by rw [wouldWait, settle_append]; exact hw), mayWait_iff] at hok
      obtain hfull | howes := hok
      · have hroom : u.running.session.buffer.newChunkIsAllowed config = true := ha
        rw [hfull] at hroom
        cases hroom
      · apply howed howes
    · -- the page waits already
      have hw' : u.wouldWait config file u.page [] = true := by
        rw [wouldWait, List.append_nil]
        apply waitsForSpace_of_settle _ hw
        intro index size hmem
        obtain ⟨oldAllowed, rfl⟩ := Call.eq_of_newChunkIsAvailable_mem hmem
        apply hnew ⟨_, _, _, rfl⟩
      obtain hfull | howes := mayWait_iff.mp (h.waits hw')
      · obtain ⟨c, oldAllowed, rfl, hroom⟩ := makesRoom_of_onBuffer h.unfrozen
          (h.stays call (List.mem_of_getElem? hk)) hfull ha
        simp only [keepsUp, hk] at hok
        rw [if_pos (by rw [hw', hroom]; rfl), Bool.or_eq_true] at hok
        obtain hold | howes := hok
        · have hnext : ((Call.confirmStore c oldAllowed).advance config u.running.session).2
              = some (.confirmCount c oldAllowed
                (u.running.session.buffer.setChunkAsReceived c.index).2.1) := by
            simp [Call.advance, found_of_makesRoom hroom]
          exact ⟨_, Threads.mem_goOn.mpr (.inl hnext), hold⟩
        · apply howed (by simpa [owed] using howes)
      · apply howed howes
  · left
    rw [Bool.not_eq_true] at ha
    apply ha

theorem Inv.advance {u : Uploading} (h : u.Inv config file) {k : ℕ}
    (hok : u.keepsUp config file (.advance k) = true) :
  (u.step config file encryptChunk (.advance k)).Inv config file
  := by
  cases hk : u.running.calls[k]? with
  | none =>
      have hstep : u.step config file encryptChunk (.advance k) = u := by
        simp [Uploading.step, Running.advance, hk, Upload.messagesSince]
      rw [hstep]
      apply h
  | some call =>
      have hadvance := Running.advance_of_getElem? config hk
      exact {
        unfrozen := by
          simp only [Uploading.step, hadvance, call.buffer_advance]
          apply unfrozen_onBuffer call h.unfrozen
        stays := by
          simp only [Uploading.step, hadvance]
          intro c hmem
          obtain hnext | hmem := Threads.mem_goOn.mp hmem
          · apply Call.departs_advance (h.stays call (List.mem_of_getElem? hk)) hnext
          · apply h.stays c ((Threads.mem_iff hk).mpr (.inr hmem))
        waits := mayWait_advance h hk hok }

theorem Inv.step {u : Uploading} (h : u.Inv config file) (label : Step)
    (hok : u.keepsUp config file label = true) :
  (u.step config file encryptChunk label).Inv config file
  := by
  cases label with
  | select =>
      rw [Uploading.step, SessionSender.handleFileSelect]
      split
      · refine h.of_rests ?_ ?_
        · rfl
        · simp only [act, SessionSender.next]
          split <;> rfl
      · exact ⟨h.unfrozen, h.stays, h.waits⟩
  | read nonce =>
      rw [Uploading.step]
      split
      · next i hi =>
        simp only [keepsUp, afterRead, hi] at hok
        simp only [SessionSender.onSliceRead, hi, if_true]
        use h.unfrozen, h.stays
        intro hw
        split at hok
        · apply hok
        · next hn => exact absurd hw hn
      · apply h
  | error =>
      rw [Uploading.step, SessionSender.onError]
      split
      · exact h.of_rests rfl rfl
      · exact h.of_rests rfl rfl
      · exact h
  | serve =>
      rw [Uploading.step]
      split
      · apply h
      · next frame rest hrest =>
        have h' : ({ u with toServer := rest } : Uploading).Inv config file :=
          ⟨h.unfrozen, h.stays, h.waits⟩
        cases frame with
        | binary data => exact h'.start rfl
        | uploadFinished => exact h'.start rfl
        | setFileInfo info =>
            simp only [serve]
            split
            · exact h'.of_buffer (buffer_setFileInfo u.running.session info) rfl rfl rfl
            · exact h'
  | receive =>
      rw [Uploading.step]
      split
      · apply h
      · next message rest hclient =>
        use h.unfrozen, h.stays
        intro hw
        apply h.waits
        rw [wouldWait, hclient]
        apply hw
  | addChunk binaryData => exact h.start rfl
  | setChunkAsReceived c => exact h.start rfl
  | advance k => exact h.advance hok

/-- In a run whose steps keep up with the queue, the page is never stuck. -/
theorem everyState_not_stuck_of_keepsUp {u : Uploading} (hu : u.Starts config)
    {steps : List Step}
    (hok : Machine.EveryStep (step config file encryptChunk)
      (fun u label => u.keepsUp config file label = true) u steps) :
  Machine.EveryState (step config file encryptChunk) (fun u => ¬u.Stuck config) u steps
  := by
  have hstep : ∀ (u : Uploading) (label : Step), u.Inv config file →
      u.keepsUp config file label = true →
      (u.step config file encryptChunk label).Inv config file :=
    fun u label h hok => h.step label hok
  apply (Machine.everyState_of_everyStep hstep (Inv.of_starts hu) hok).mono
  exact fun u h => h.not_stuck

end Uploading

/-! ### Sample runs -/

namespace Uploading.Sample

/-- A queue of two chunks. -/
def config : Config := { Upload.Sample.config with transferSessionChunkQueueMaxSize := 2 }

/-- A file of four slices. -/
def file : SelectedFile := { name := [0x66], data := [1, 2, 3, 4, 5, 6, 7] }

/-- A session with a sender and a receiver, the freeze dropped. -/
def session : TransferSession :=
  Machine.run (TransferSession.step config) (.create TransferSession.Sample.sender false)
    [.addReceiver TransferSession.Sample.alice, .setFileInfo file.info, .dropInitialChunksFreeze]

def start : Uploading where
  running := { session }

/-- The first slice is uploaded, and the second one is sent. -/
def firstSlice : List Step :=
  [.select, .serve, .read 0, .serve] ++ List.replicate 7 (.advance 0)
    ++ [.receive, .read 0, .serve]

end Uploading.Sample

namespace Uploading

/-- The second chunk is added, the page waits, and the first chunk is confirmed. -/
def confirmedAfterwards : List Step :=
  Sample.firstSlice ++ List.replicate 8 (.advance 0) ++ [.receive, .receive]
    ++ .setChunkAsReceived ⟨1, TransferSession.Sample.alice⟩ :: List.replicate 12 (.advance 0)
    ++ [.receive, .receive]

theorem everyState_not_stuck_confirmedAfterwards :
  Machine.EveryState (step Sample.config Sample.file Upload.Sample.encryptChunk)
    (fun u => ¬u.Stuck Sample.config) Sample.start confirmedAfterwards
  := by
  apply everyState_not_stuck_of_keepsUp
  · exact ⟨rfl, rfl, rfl, nofun⟩
  · simp only [confirmedAfterwards, Sample.firstSlice, List.replicate, List.cons_append,
      List.nil_append, Machine.EveryStep, and_true]
    decide

/-- The second chunk is added between the time the confirmation of the first has seen room in
the queue and the time it makes room. -/
def confirmedMeanwhile : List Step :=
  Sample.firstSlice ++ [.advance 0, .setChunkAsReceived ⟨1, TransferSession.Sample.alice⟩]
    ++ List.replicate 4 (.advance 1) ++ List.replicate 7 (.advance 0)
    ++ List.replicate 7 (.advance 0) ++ [.receive, .receive, .receive]


theorem not_everyState_not_stuck_confirmedMeanwhile :
  ¬ ∀ (config : Config) (file : SelectedFile) (encryptChunk : Bytes → ℕ → Bytes)
      (u : Uploading) (steps : List Step), u.Starts config →
      Machine.EveryState (step config file encryptChunk) (fun u => ¬u.Stuck config) u steps
  := by
  intro h
  have hstarts : Sample.start.Starts Sample.config := ⟨rfl, rfl, rfl, nofun⟩
  apply (h Sample.config Sample.file Upload.Sample.encryptChunk Sample.start
    confirmedMeanwhile hstarts).last
  exact ⟨by decide, by decide, by decide, by decide⟩

end Uploading

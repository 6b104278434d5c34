import PutInPipe.Buffer.Log
import PutInPipe.Concurrent.Calls
import PutInPipe.Library.Ledger
import PutInPipe.Web.Sender

/-!
# A client connects under concurrency

`Connecting` is a session with calls in progress and a client whose WebSocket connects to
it. `wsOnConnect` attaches the connection to the client, reads the list of the chunks and the
highest index, and sends `start_init`, each at its own time. From the moment the connection
is attached the client is sent the events of the session. It ignores what comes before
`start_init`.

The chunks of the session are a ledger: a chunk that is stored, or taken off, is announced
when the call goes on. The list read by `wsOnConnect`, and later what the client knows once
it has got the messages on their way, is a view of it.
-/

open TransferSessionDetails TransferSession

/-- The message a client makes of an event about chunks. -/
def Message.ofChunkEvent : Event → Option Message
  | .newChunkIsAvailable index size => some (.newChunk index size)
  | .chunksWasRemoved ids => some (.chunkRemoved ids)
  | _ => none

/-- What the client knows of the chunks after a message, if it has been told at all. -/
def Message.apply (known : Option (Finset ℕ)) : Message → Option (Finset ℕ)
  | .startInit chunks _ => some chunks.toFinset
  | .newChunk index _ => known.map (insert index)
  | .chunkRemoved ids => known.map (· \ ids.toFinset)
  | _ => known

namespace TransferSession.Call

/-- The chunk that the next step of the call announces as new. -/
def news : Call → List ℕ
  | .addChunkNotify newIndex _ _ => [newIndex]
  | _ => []

/-- The chunks that the next step of the call announces as removed. -/
def tells : Call → List ℕ
  | .confirmRemoved _ _ removedChunks _ | .dropRemoved removedChunks _
  | .removeChunks _ _ _ removedChunks => removedChunks
  | _ => []

/-- The chunks the call has taken off the buffer and has not announced as removed. -/
def removes : Call → List ℕ
  | .confirmCount _ _ removedChunks | .confirmRemoved _ _ removedChunks _
  | .dropTest removedChunks _ | .dropType _ removedChunks _ | .dropErase removedChunks _
  | .dropRemoved removedChunks _ | .removeChunks _ _ _ removedChunks => removedChunks
  | _ => []

end TransferSession.Call

/-- Where `wsOnConnect` is. -/
inductive Greeting where
  | arrives
  | attached
  | readChunks (chunks : List ChunkInfo)
  | readCurrent (chunks : List ChunkInfo) (currentChunk : ℕ)
  | sent
  | closed
deriving DecidableEq, Repr

namespace Greeting

/-- The client has the connection. -/
def isAttached : Greeting → Bool
  | .arrives | .closed => false
  | _ => true

end Greeting

structure Connecting where
  running : Running
  greeting : Greeting := .arrives
  toClient : List Message := []
  known : Option (Finset ℕ) := none

namespace Connecting

/-- What happens next: `wsOnConnect` goes on, the client gets the next message, a method is
called, call `k` makes its next step, or a receiver joins. -/
inductive Step where
  | greet
  | receive
  | call (call : Call)
  | advance (k : ℕ)
  | addReceiver (client : ClientRef)
deriving DecidableEq, Repr

def greet (c : Connecting) : Connecting :=
  let session := c.running.session
  match c.greeting with
  | .arrives => { c with greeting := .attached }
  | .attached =>
      { c with
        greeting := if session.listed then .readChunks session.buffer.chunksInfo else .closed }
  | .readChunks chunks =>
      { c with greeting := .readCurrent chunks session.buffer.currentMaxChunkIndex }
  | .readCurrent chunks currentChunk =>
      { c with
        greeting := .sent
        toClient := c.toClient ++ [.startInit (chunks.map ChunkInfo.index) currentChunk] }
  | _ => c

/-- The messages made of the events the session has sent since `s`. -/
def messagesSince (s t : TransferSession) : List Message :=
  (t.events.drop s.events.length).filterMap Message.ofChunkEvent

/-- The session goes on, and its events are sent to the client. -/
def goOn (c : Connecting) (running : Running) : Connecting :=
  { c with
    running
    toClient :=
      if c.greeting.isAttached then
        c.toClient ++ messagesSince c.running.session running.session
      else c.toClient }

def step (config : Config) (c : Connecting) : Step → Connecting
  | .greet => c.greet
  | .receive =>
      match c.toClient with
      | [] => c
      | message :: rest => { c with toClient := rest, known := message.apply c.known }
  | .call call => if call.begins then { c with running := c.running.start call } else c
  | .advance k => c.goOn (c.running.advance config k)
  | .addReceiver client =>
      if c.running.session.listed then
        c.goOn { c.running with session := (c.running.session.addReceiver config client).1 }
      else c

/-- When nothing is on its way, the client knows exactly the chunks that are stored. -/
def Informed (c : Connecting) : Prop :=
  c.running.session.listed = true → c.running.calls = [] → c.greeting = .sent →
    c.toClient = [] → c.known = some c.running.session.buffer.chunksIndex.toFinset

/-- Nobody has called a method, and the connection has yet to be attached. -/
structure Starts (config : Config) (c : Connecting) : Prop where
  wellFormed : c.running.session.buffer.WellFormed config
  calls : c.running.calls = []
  greeting : c.greeting = .arrives

/-! ### The condition -/

/-- The step of the call tells the client what it has to know. Between the list of the chunks
and `start_init`, a chunk announced as new is on the list, unless it has been taken off, and
a chunk announced as removed is not on it. Later on, a chunk announced as new is stored, or
is still to be announced as removed. -/
def informs (c : Connecting) (call : Call) : Bool :=
  let stored := c.running.session.buffer.chunksIndex
  match c.greeting with
  | .readChunks chunks | .readCurrent chunks _ =>
      call.news.all (fun i => i ∈ chunks.map ChunkInfo.index || i ∉ stored)
        && call.tells.all (fun i => i ∉ chunks.map ChunkInfo.index)
  | .sent =>
      call.news.all (fun i => i ∈ stored || c.running.calls.any (fun call => i ∈ call.removes))
  | _ => true

def keepsInformed (c : Connecting) : Step → Bool
  | .advance k => (c.running.calls[k]?).all c.informs
  | _ => true

end Connecting

/-! ### What a step of a call does to the chunks -/

namespace TransferSession.Call

variable {config : Config} {s : TransferSession} {call : Call}

theorem tells_subset_removes {i : ℕ} (h : i ∈ call.tells) :
  i ∈ call.removes
  := by
  cases call with
  | confirmRemoved => exact h
  | dropRemoved => exact h
  | removeChunks => exact h
  | _ => cases h

/-- What a call has taken off stays to be announced until it is, or the session ends. -/
theorem mem_removes_advance {i : ℕ} (hi : i ∈ call.removes)
    (hl : (call.advance config s).1.listed = true) :
  i ∈ call.tells ∨ ∃ next ∈ (call.advance config s).2, i ∈ next.removes
  := by
  cases call with
  | confirmCount => exact .inr ⟨_, rfl, hi⟩
  | confirmRemoved => exact .inl hi
  | dropTest removedChunks next =>
      right
      simp only [advance]
      split_ifs
      · exact ⟨_, rfl, hi⟩
      · exact ⟨_, rfl, hi⟩
      · exact ⟨_, rfl, hi⟩
  | dropType => exact .inr ⟨_, rfl, hi⟩
  | dropErase => cases hl
  | dropRemoved => exact .inl hi
  | removeChunks => exact .inl hi
  | _ => cases hi

theorem removes_returned {o : Option Confirmation} {next : Call} (h : next ∈ returned o) :
  next.removes = []
  := by
  cases o with
  | none => cases h
  | some c =>
      cases h
      rfl

/-- The step of the call may take chunks off the buffer. -/
def takes : Call → Bool
  | .confirmStore _ _ | .drop _ | .removeConsumer _ _ _ => true
  | _ => false

theorem mem_removes_of_next {next : Call} {i : ℕ} (hc : call.takes = false)
    (hnext : next ∈ (call.advance config s).2) (hi : i ∈ next.removes) :
  i ∈ call.removes
  := by
  cases call with
  | confirmStore | drop | removeConsumer => cases hc
  | removeKick =>
      cases hnext
      cases hi
  | _ => grind [advance, removes, removes_returned]

/-- A step stores a chunk and goes on to announce it, or it takes chunks off and goes on to
announce that. -/
theorem stored_cases (hw : s.buffer.WellFormed config) (call : Call) :
  (∃ (size : ℕ) (oldAllowed : Bool),
    (call.advance config s).2 = some (.addChunkNotify (s.buffer.chunksMaxIndex + 1) size oldAllowed)
      ∧ (call.advance config s).1.buffer.chunksMaxIndex = s.buffer.chunksMaxIndex + 1
      ∧ ∀ i, i ∈ (call.advance config s).1.buffer.chunksIndex
        ↔ i ∈ s.buffer.chunksIndex ∨ i = s.buffer.chunksMaxIndex + 1)
    ∨ (call.advance config s).1.buffer.chunksMaxIndex = s.buffer.chunksMaxIndex
      ∧ ∃ ids, s.buffer.TakesOff (call.advance config s).1.buffer ids
        ∧ (∀ i ∈ ids, ∃ next ∈ (call.advance config s).2, i ∈ next.removes)
        ∧ ∀ next ∈ (call.advance config s).2, ∀ i ∈ next.removes, i ∈ ids ∨ i ∈ call.removes
  := by
  rw [call.buffer_advance]
  cases call with
  | addChunkStore binaryData oldAllowed =>
      obtain hno | ⟨hn, hmax, hi⟩ := hw.chunksIndex_insertChunk binaryData
      · right
        simp only [onBuffer, advance, hno]
        exact ⟨trivial, [], .refl _, by simp, by simp⟩
      · left
        simp only [onBuffer, advance, hn]
        exact ⟨_, _, rfl, hmax, hi⟩
  | confirmStore c oldAllowed =>
      right
      cases hf : s.buffer.chunks.find? c.index with
      | none =>
          simp only [onBuffer, advance, Buffer.setChunkAsReceived_of_none hf]
          exact ⟨trivial, [], .refl _, by simp, by simp⟩
      | some chunk =>
          have hfound : (s.buffer.setChunkAsReceived c.index).2.2 = true := by
            rw [Buffer.setChunkAsReceived_of_some hf]
          simp only [onBuffer, advance, hfound, if_true]
          exact ⟨Buffer.chunksMaxIndex_setChunkAsReceived _ _, _, .setChunkAsReceived _ _,
            fun i hi => ⟨_, rfl, hi⟩, by rintro next ⟨⟩ i hi; exact .inl hi⟩
  | drop o =>
      right
      cases hf : s.buffer.initialChunksFreezing with
      | false =>
          simp only [onBuffer, advance, Buffer.setInitialChunksFreezingDropped_of_not_freezing hf]
          exact ⟨trivial, [], .refl _, by simp, by
            intro next hnext i hi
            rw [removes_returned hnext] at hi
            cases hi⟩
      | true =>
          have hdropped : s.buffer.setInitialChunksFreezingDropped.2.2 = true := by
            rw [Buffer.setInitialChunksFreezingDropped_of_freezing hf]
          simp only [onBuffer, advance, hdropped, if_true]
          exact ⟨Buffer.chunksMaxIndex_setInitialChunksFreezingDropped _, _,
            .setInitialChunksFreezingDropped _, fun i hi => ⟨_, rfl, hi⟩,
            by rintro next ⟨⟩ i hi; exact .inl hi⟩
  | removeConsumer publicId removedClient noReceiversLeft =>
      right
      exact ⟨Buffer.chunksMaxIndex_removeOne _, _, .removeOneFromExpectedConsumers _ _,
        fun i hi => ⟨_, rfl, hi⟩, by rintro next ⟨⟩ i hi; exact .inl hi⟩
  | confirmGet c =>
      right
      exact ⟨Buffer.chunksMaxIndex_get _, [], .of_chunks_eq (Buffer.chunks_get _), by simp,
        fun next hnext i hi => .inr (mem_removes_of_next rfl hnext hi)⟩
  | endOfFileStore =>
      right
      have hchunks : s.buffer.setEndOfFile.chunks = s.buffer.chunks := by
        rw [Buffer.setEndOfFile]
        split <;> rfl
      have hmax : s.buffer.setEndOfFile.chunksMaxIndex = s.buffer.chunksMaxIndex := by
        rw [Buffer.setEndOfFile]
        split <;> rfl
      exact ⟨hmax, [], .of_chunks_eq hchunks, by simp,
        fun next hnext i hi => .inr (mem_removes_of_next rfl hnext hi)⟩
  | _ =>
      right
      exact ⟨rfl, [], .refl _, by simp,
        fun next hnext i hi => .inr (mem_removes_of_next rfl hnext hi)⟩

theorem wellFormed_onBuffer {b : Buffer} (hw : b.WellFormed config) (call : Call) :
  (call.onBuffer config b).WellFormed config
  := by
  cases call with
  | addChunkStore binaryData => exact hw.insertChunk binaryData
  | confirmGet c => exact hw.get c.index
  | confirmStore c => exact hw.setChunkAsReceived c.index
  | drop => exact hw.setInitialChunksFreezingDropped
  | removeConsumer publicId => exact hw.removeOneFromExpectedConsumers publicId
  | endOfFileStore => exact hw.setEndOfFile
  | _ => exact hw

end TransferSession.Call

/-! ### The chunks as a ledger -/

namespace Running

variable {config : Config} {r : Running} {k : ℕ} {call : Call}

/-- The chunks of the session, and those to be announced as new and as removed. -/
def ledger (r : Running) : Ledger ℕ where
  stored := {i | i ∈ r.session.buffer.chunksIndex}
  news := {i | ∃ call ∈ r.calls, i ∈ call.news}
  removed := {i | ∃ call ∈ r.calls, i ∈ call.removes}

/-- The buffer is well-formed, and what is to be announced as removed has gone for good. -/
structure Sound (config : Config) (r : Running) : Prop where
  wellFormed : r.session.buffer.WellFormed config
  removed : ∀ i ∈ r.ledger.removed,
    i ∉ r.session.buffer.chunksIndex ∧ i ≤ r.session.buffer.chunksMaxIndex

theorem le_chunksMaxIndex {b : Buffer} (hw : b.WellFormed config) {i : ℕ}
    (hi : i ∈ b.chunksIndex) :
  i ≤ b.chunksMaxIndex
  := by
  obtain ⟨chunk, hchunk⟩ := OrderedMap.mem_keys.mp hi
  apply (hw.numbered hchunk).2

theorem Sound.of_calls_nil (hw : r.session.buffer.WellFormed config) (hc : r.calls = []) :
  r.Sound config
  where
    wellFormed := hw
    removed := by simp [ledger, hc]

/-- Calls that are added have nothing to announce. -/
theorem ledger_start {call : Call} (hc : call.begins = true) :
  (r.start call).ledger = r.ledger
  := by
  have hnews : call.news = [] := by
    cases call <;> first | rfl | cases hc
  have hremoves : call.removes = [] := by
    cases call <;> first | rfl | cases hc
  rw [start]
  split
  · simp [ledger, or_and_right, exists_or, hnews, hremoves]
  · rfl

theorem Sound.start (h : r.Sound config) (hc : call.begins = true) :
  (r.start call).Sound config
  where
    wellFormed := by rw [session_start]; exact h.wellFormed
    removed := by rw [ledger_start hc, session_start]; exact h.removed

theorem Sound.advance (h : r.Sound config) (hk : r.calls[k]? = some call) :
  (r.advance config k).Sound config
  := by
  have hcall : call ∈ r.calls := List.mem_of_getElem? hk
  rw [advance_of_getElem? config hk]
  constructor
  · simp only [call.buffer_advance]
    apply Call.wellFormed_onBuffer h.wellFormed call
  · rintro i ⟨c, hc, hi⟩
    obtain ⟨size, oldAllowed, hnext, hmax, hidx⟩ | ⟨hmax, ids, htakes, -, hremoves⟩ :=
      Call.stored_cases h.wellFormed call
    · obtain hc | hc := Threads.mem_goOn.mp hc
      · rw [hnext] at hc
        cases hc
        cases hi
      · obtain ⟨hgone, hle⟩ := h.removed i ⟨c, (Threads.mem_iff hk).mpr (.inr hc), hi⟩
        rw [hidx, hmax]
        exact ⟨by rintro (h | rfl); exacts [hgone h, absurd hle (by omega)], by omega⟩
    · rw [htakes.left, hmax]
      have hold : i ∈ r.ledger.removed → ¬(i ∈ r.session.buffer.chunksIndex ∧ i ∉ ids)
          ∧ i ≤ r.session.buffer.chunksMaxIndex :=
        fun hr => ⟨fun hi => (h.removed i hr).1 hi.1, (h.removed i hr).2⟩
      obtain hc | hc := Threads.mem_goOn.mp hc
      · obtain htaken | hr := hremoves c hc i hi
        · exact ⟨fun hi => hi.2 htaken, le_chunksMaxIndex h.wellFormed (htakes.taken i htaken)⟩
        · apply hold ⟨call, hcall, hr⟩
      · apply hold ⟨c, (Threads.mem_iff hk).mpr (.inr hc), hi⟩

/-- A step of a call moves the ledger, as long as the session is listed. -/
theorem moves_advance (h : r.Sound config) (hk : r.calls[k]? = some call)
    (hl : (r.advance config k).session.listed = true) :
  r.ledger.Moves (r.advance config k).ledger {i | i ∈ call.news} {i | i ∈ call.tells}
  := by
  rw [advance_of_getElem? config hk] at hl ⊢
  have hcases := Call.stored_cases h.wellFormed call
  constructor
  · -- what is added is to be announced
    intro i hi
    obtain ⟨size, oldAllowed, hnext, -, hidx⟩ | ⟨-, ids, htakes, -⟩ := hcases
    · obtain hi | rfl := (hidx i).mp hi
      · exact .inl hi
      · exact .inr ⟨_, Threads.mem_goOn.mpr (.inl hnext), List.mem_singleton.mpr rfl⟩
    · exact .inl ((htakes.left i).mp hi).1
  · -- what is taken off is to be announced
    intro i hi
    obtain ⟨size, oldAllowed, -, -, hidx⟩ | ⟨-, ids, htakes, hnext, -⟩ := hcases
    · exact .inl ((hidx i).mpr (.inl hi))
    · by_cases htaken : i ∈ ids
      · obtain ⟨next, hmem, hi⟩ := hnext i htaken
        exact .inr ⟨next, Threads.mem_goOn.mpr (.inl hmem), hi⟩
      · exact .inl ((htakes.left i).mpr ⟨hi, htaken⟩)
  · rintro i ⟨c, hc, hi⟩
    obtain rfl | hc := (Threads.mem_iff hk).mp hc
    · exact .inr hi
    · exact .inl ⟨c, Threads.mem_goOn.mpr (.inr hc), hi⟩
  · rintro i ⟨c, hc, hi⟩
    obtain rfl | hc := (Threads.mem_iff hk).mp hc
    · obtain htells | ⟨next, hmem, hi⟩ := Call.mem_removes_advance hi hl
      · exact .inr htells
      · exact .inl ⟨next, Threads.mem_goOn.mpr (.inl hmem), hi⟩
    · exact .inl ⟨c, Threads.mem_goOn.mpr (.inr hc), hi⟩
  · intro i hi htells
    apply (h.removed i ⟨call, List.mem_of_getElem? hk, Call.tells_subset_removes htells⟩).1 hi

end Running

/-! ### The client's view -/

namespace Connecting

variable {config : Config} {c : Connecting}

/-- What is on the list, once it is read, and what the client will know once it has got the
messages on their way. -/
def view (c : Connecting) : Option (Finset ℕ) :=
  match c.greeting with
  | .readChunks chunks | .readCurrent chunks _ => some (chunks.map ChunkInfo.index).toFinset
  | .sent => c.toClient.foldl Message.apply c.known
  | _ => none

/-- The calls are sound, and as long as the session is listed the view follows its chunks. -/
structure Inv (config : Config) (c : Connecting) : Prop where
  sound : c.running.Sound config
  follows : c.running.session.listed = true → ∀ view, c.view = some view →
    c.running.ledger.Follows (↑view : Set ℕ)
  sent : c.greeting = .sent → c.view ≠ none

theorem Inv.of_starts (h : c.Starts config) :
  c.Inv config
  where
    sound := .of_calls_nil h.wellFormed h.calls
    follows := by simp [view, h.greeting]
    sent := by simp [h.greeting]

theorem Inv.informed (h : c.Inv config) :
  c.Informed
  := by
  intro hl hcalls hsent hclient
  have hview : c.view = c.known := by simp [view, hsent, hclient]
  obtain ⟨known, hknown⟩ := Option.ne_none_iff_exists'.mp (hview ▸ h.sent hsent)
  have hf := h.follows hl known (hview.trans hknown)
  rw [hknown]
  congr 1
  ext i
  rw [List.mem_toFinset, ← Finset.mem_coe, hf.eq_stored]
  · rfl
  · simp [Running.ledger, hcalls]
  · simp [Running.ledger, hcalls]

/-- The messages made of what the step of a call publishes. -/
theorem messagesSince_advance (s : TransferSession) (call : Call) :
  messagesSince s (call.advance config s).1 = (call.publishes s).filterMap Message.ofChunkEvent
  := by
  rw [messagesSince, call.events_advance, List.drop_left]

theorem apply_removedEvents (ids : List ℕ) (known : Finset ℕ) :
  ((removedEvents ids).filterMap Message.ofChunkEvent).foldl Message.apply (some known)
    = some (known \ ids.toFinset)
  := by
  rw [removedEvents]
  cases ids with
  | nil => simp
  | cons i ids => rfl

/-- They tell the client what is new and what has been removed. -/
theorem apply_publishes (s : TransferSession) (call : Call) (known : Finset ℕ) :
  ((call.publishes s).filterMap Message.ofChunkEvent).foldl Message.apply (some known)
    = some ((known ∪ call.news.toFinset) \ call.tells.toFinset)
  := by
  cases call with
  | addChunkNotify newIndex =>
      simp [Call.publishes, Call.news, Call.tells, Message.ofChunkEvent, Message.apply]
  | confirmRemoved | dropRemoved | removeChunks =>
      simp only [Call.publishes, apply_removedEvents, Call.news, Call.tells, List.toFinset_nil,
        Finset.union_empty]
  | removeKick _ removedClient =>
      cases removedClient with
      | none => simp [Call.publishes, Call.news, Call.tells]
      | some client =>
          simp [Call.publishes, Call.news, Call.tells, Message.ofChunkEvent, List.filterMap_cons]
  | _ =>
      simp [Call.publishes, Call.news, Call.tells, Message.ofChunkEvent, List.filterMap_cons]

/-- A session that goes on without a change of the chunks and without an announcement. -/
theorem Inv.goOn_of_quiet (h : c.Inv config) {running : Running}
    (hs : running.Sound config) (hledger : running.ledger = c.running.ledger)
    (hl : running.session.listed = true → c.running.session.listed = true)
    (hquiet : messagesSince c.running.session running.session = []) :
  (c.goOn running).Inv config
  := by
  have hview : (c.goOn running).view = c.view := by
    simp only [view, goOn, hquiet, List.append_nil, ite_self]
  constructor
  · apply hs
  · intro hlisted view hv
    rw [hview] at hv
    have hf := h.follows (hl hlisted) view hv
    rw [← hledger] at hf
    apply hf
  · intro hsent
    rw [hview]
    apply h.sent hsent

section Advance

variable {k : ℕ} {call : Call}

/-- Before `start_init` is sent the list stays a view of the chunks. -/
theorem Inv.follows_list (h : c.Inv config) (hk : c.running.calls[k]? = some call)
    (hl : (c.running.advance config k).session.listed = true) {chunks : List ChunkInfo}
    (hv : c.view = some (chunks.map ChunkInfo.index).toFinset)
    (hnew : ∀ i ∈ call.news, i ∈ chunks.map ChunkInfo.index
      ∨ i ∉ c.running.session.buffer.chunksIndex)
    (htells : ∀ i ∈ call.tells, i ∉ chunks.map ChunkInfo.index) :
  (c.running.advance config k).ledger.Follows
    (↑(chunks.map ChunkInfo.index).toFinset : Set ℕ)
  := by
  have hl₀ : c.running.session.listed = true := by
    rw [Running.advance_of_getElem? config hk] at hl
    apply Call.listed_of_advance hl
  apply (h.follows hl₀ _ hv).miss (Running.moves_advance h.sound hk hl)
  · rintro i ⟨hi, hs⟩
    rw [List.coe_toFinset]
    apply (hnew i hi).resolve_right (not_not_intro hs)
  · intro i hi htold
    rw [List.coe_toFinset] at hi
    apply htells i htold hi

/-- After `start_init` the client hears what is announced. -/
theorem Inv.follows_known (h : c.Inv config) (hk : c.running.calls[k]? = some call)
    (hl : (c.running.advance config k).session.listed = true) {known : Finset ℕ}
    (hv : c.view = some known)
    (hnew : ∀ i ∈ call.news, i ∈ c.running.session.buffer.chunksIndex
      ∨ ∃ call ∈ c.running.calls, i ∈ call.removes) :
  (c.running.advance config k).ledger.Follows
    (↑((known ∪ call.news.toFinset) \ call.tells.toFinset) : Set ℕ)
  := by
  have hl₀ : c.running.session.listed = true := by
    rw [Running.advance_of_getElem? config hk] at hl
    apply Call.listed_of_advance hl
  rw [Finset.coe_sdiff, Finset.coe_union, List.coe_toFinset, List.coe_toFinset]
  apply (h.follows hl₀ _ hv).hear (Running.moves_advance h.sound hk hl) hnew

theorem Inv.advance (h : c.Inv config) (hok : c.keepsInformed (.advance k) = true) :
  (c.step config (.advance k)).Inv config
  := by
  rw [step]
  cases hk : c.running.calls[k]? with
  | none =>
      have hrun : c.running.advance config k = c.running := by rw [Running.advance, hk]
      rw [hrun]
      apply h.goOn_of_quiet h.sound rfl id (by simp [messagesSince])
  | some call =>
      simp only [keepsInformed, hk, Option.all_some, informs] at hok
      have hmessages : messagesSince c.running.session (c.running.advance config k).session
          = (call.publishes c.running.session).filterMap Message.ofChunkEvent := by
        rw [Running.advance_of_getElem? config hk, messagesSince_advance]
      have hsent : ∀ known, c.greeting = .sent → c.view = some known →
          (c.goOn (c.running.advance config k)).view
            = some ((known ∪ call.news.toFinset) \ call.tells.toFinset) := by
        intro known hg hv
        simp only [view, hg] at hv
        simp only [view, goOn, hg, Greeting.isAttached, if_true, List.foldl_append, hv, hmessages]
        apply apply_publishes
      constructor
      · apply h.sound.advance hk
      · intro hl view hv
        cases hg : c.greeting with
        | arrives | attached | closed => simp [Connecting.view, goOn, hg] at hv
        | readChunks chunks | readCurrent chunks _ =>
            simp only [hg, Bool.and_eq_true, List.all_eq_true, Bool.or_eq_true,
              decide_eq_true_eq] at hok
            simp only [Connecting.view, goOn, hg, Option.some.injEq] at hv
            rw [← hv]
            apply h.follows_list hk hl (by simp only [Connecting.view, hg]) hok.1 hok.2
        | sent =>
            obtain ⟨known, hknown⟩ := Option.ne_none_iff_exists'.mp (h.sent hg)
            simp only [hg, List.all_eq_true, Bool.or_eq_true, decide_eq_true_eq,
              List.any_eq_true] at hok
            rw [hsent known hg hknown, Option.some.injEq] at hv
            rw [← hv]
            apply h.follows_known hk hl hknown hok
      · intro hg
        obtain ⟨known, hknown⟩ := Option.ne_none_iff_exists'.mp (h.sent hg)
        rw [hsent known hg hknown]
        apply Option.some_ne_none

end Advance

theorem map_index_chunksInfo (b : Buffer) :
  b.chunksInfo.map ChunkInfo.index = b.chunksIndex
  := by
  rw [Buffer.chunksInfo, List.map_map]
  rfl

/-- What is known follows when `wsOnConnect` or the client goes on. -/
theorem Inv.of_view (h : c.Inv config) {c' : Connecting} (hr : c'.running = c.running)
    (hview : c'.view = c.view) (hsent : c'.greeting = .sent → c.view ≠ none) :
  c'.Inv config
  where
    sound := by rw [hr]; exact h.sound
    follows := by rw [hr, hview]; exact h.follows
    sent := by rw [hview]; exact hsent

/-- `wsOnConnect` takes the list of the chunks that are stored. -/
theorem Inv.greet (h : c.Inv config) :
  c.greet.Inv config
  := by
  cases hg : c.greeting with
  | arrives =>
      simp only [Connecting.greet, hg]
      exact h.of_view rfl (by simp [Connecting.view, hg]) nofun
  | attached =>
      simp only [Connecting.greet, hg]
      cases hl : c.running.session.listed with
      | false => exact h.of_view rfl (by simp [Connecting.view, hg]) nofun
      | true =>
          use h.sound
          · intro _ view hv
            simp only [Connecting.view, if_true, Option.some.injEq, map_index_chunksInfo] at hv
            rw [← hv, List.coe_toFinset]
            apply Ledger.follows_stored
          · exact nofun
  | readChunks chunks =>
      simp only [Connecting.greet, hg]
      exact h.of_view rfl (by simp [Connecting.view, hg]) nofun
  | readCurrent chunks currentChunk =>
      simp only [Connecting.greet, hg]
      refine h.of_view rfl ?_ (fun _ => by simp [Connecting.view, hg])
      simp [Connecting.view, hg, Message.apply]
  | sent =>
      simp only [Connecting.greet, hg]
      apply h
  | closed =>
      simp only [Connecting.greet, hg]
      apply h

/-- Whoever joins, the chunks stay. -/
theorem Inv.addReceiver (h : c.Inv config) (client : ClientRef) :
  (c.goOn { c.running with
    session := (c.running.session.addReceiver config client).1 }).Inv config
  := by
  cases ha : (c.running.session.addReceiver config client).2 with
  | false =>
      rw [addReceiver_of_false ha]
      apply h.goOn_of_quiet h.sound rfl id (by simp [messagesSince])
  | true =>
      obtain ⟨hadd, heq⟩ := addReceiver_of_true ha
      rw [heq]
      have hw := h.sound.wellFormed.addNewToExpectedConsumers client.publicId
      rw [Buffer.addNewToExpectedConsumers_of_true hadd] at hw
      exact h.goOn_of_quiet ⟨hw, h.sound.removed⟩ rfl id
        (by simp [messagesSince, Message.ofChunkEvent])

theorem Inv.step (h : c.Inv config) (label : Step) (hok : c.keepsInformed label = true) :
  (c.step config label).Inv config
  := by
  cases label with
  | greet => exact h.greet
  | receive =>
      rw [Connecting.step]
      split
      · apply h
      · next message rest hclient =>
        have hview : ({ c with toClient := rest, known := message.apply c.known } :
            Connecting).view = c.view := by
          cases hg : c.greeting <;> simp [Connecting.view, hg, hclient]
        exact h.of_view rfl hview h.sent
  | call call =>
      rw [Connecting.step]
      split
      · next hb =>
        constructor
        · apply h.sound.start hb
        · rw [Running.ledger_start hb, Running.session_start]
          apply h.follows
        · apply h.sent
      · apply h
  | advance k => exact h.advance hok
  | addReceiver client =>
      rw [Connecting.step]
      split
      · apply h.addReceiver client
      · apply h

/-- In a run whose steps keep the client informed, it knows the chunks that are stored
whenever nothing is on its way. -/
theorem everyState_informed_of_keepsInformed (hc : c.Starts config) {steps : List Step}
    (hok : Machine.EveryStep (step config)
      (fun c label => c.keepsInformed label = true) c steps) :
  Machine.EveryState (step config) Informed c steps
  := by
  have hstep : ∀ (c : Connecting) (label : Step), c.Inv config →
      c.keepsInformed label = true → (c.step config label).Inv config :=
    fun c label h hok => h.step label hok
  apply (Machine.everyState_of_everyStep hstep (Inv.of_starts hc) hok).mono
  exact fun c h => h.informed

end Connecting

/-! ### Sample runs -/

namespace Connecting.Sample

open TransferSession.Sample

/-- A receiver has joined, and connects. -/
def start : Connecting where
  running := { session := (TransferSession.create sender false).step config (.addReceiver alice) }

/-- A chunk is added without interruption. -/
def upload : List Step :=
  .call (.addChunk [1]) :: List.replicate 8 (.advance 0)

end Connecting.Sample

namespace Connecting

/-- A chunk is added once `start_init` has been sent. -/
def addedAfterwards : List Step :=
  List.replicate 4 .greet ++ Sample.upload ++ [.receive, .receive]

theorem everyState_informed_addedAfterwards :
  Machine.EveryState (step TransferSession.Sample.config) Informed Sample.start addedAfterwards
  := by
  apply everyState_informed_of_keepsInformed
  · exact ⟨(Buffer.WellFormed.empty _).addNewToExpectedConsumers "A", rfl, rfl⟩
  · simp only [addedAfterwards, Sample.upload, List.replicate, List.cons_append, List.nil_append,
      Machine.EveryStep, and_true]
    decide

/-- A chunk is added after the list of the chunks has been read and before it is sent. -/
def addedMeanwhile : List Step :=
  List.replicate 2 .greet ++ Sample.upload ++ [.greet, .greet, .receive, .receive]

theorem not_everyState_informed_addedMeanwhile :
  ¬ ∀ (config : Config) (c : Connecting) (steps : List Step), c.Starts config →
      Machine.EveryState (step config) Informed c steps
  := by
  intro h
  have hstarts : Sample.start.Starts TransferSession.Sample.config :=
    ⟨(Buffer.WellFormed.empty _).addNewToExpectedConsumers "A", rfl, rfl⟩
  have hlast := (h TransferSession.Sample.config Sample.start addedMeanwhile hstarts).last
  have hknown := hlast (by decide) (by decide) (by decide) (by decide)
  revert hknown
  decide

end Connecting

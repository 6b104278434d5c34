import PutInPipe.Buffer.Log
import PutInPipe.Concurrent.Calls
import PutInPipe.Session.Run

/-!
# The end of an upload under concurrency

A transfer ends when the upload is finished and no chunk is left. The last confirmation,
`setEndOfFile` and `dropInitialChunksFreeze` each bring about a part of that, and read the
rest at their own time. `Ending` says that whoever comes last sees all of it.

`addChunk` tests whether the upload is finished before it locks the buffer to store the
chunk. `Uploaded` says that nothing is stored or announced once `setEndOfFile` has set the
flag, which holds as long as no call of `addChunk` is between the test and the announcement
when that happens.
-/

open TransferSessionDetails TransferSession

namespace TransferSession

/-- The upload is finished and no chunk is left. -/
def IsFinished (s : TransferSession) : Prop := s.buffer.EOF = true ∧ s.buffer.chunkCount = 0

namespace Call

/-- The call takes the session off the list, or has yet to look at the end of file or at the
number of the chunks, and has not seen any chunk. -/
def looks : Call → Bool
  | .endOfFileNotify | .endOfFileCount | .erase | .confirmCount _ _ _
  | .dropTest _ _ | .dropType _ _ _ | .dropErase _ _ | .dropRemoved _ _ | .dropSample _
  | .dropAllowed _ _ | .dropUnfrozen _ | .dropCount _ | .dropEof _ | .dropComplete _ => true
  | .confirmRemoved _ _ _ newCount | .confirmCompare _ _ newCount | .confirmAllowed _ _ newCount
  | .confirmRead _ newCount | .confirmBytesOut _ newCount _ | .confirmFinished _ newCount
  | .confirmEof newCount => newCount == 0
  | _ => false

variable {config : Config} {s : TransferSession} {call : Call}

/-- A call that looks at a finished transfer goes on to look, or takes the session off the
list. -/
theorem looks_advance (hc : call.looks = true) (he : (call.onBuffer config s.buffer).EOF = true)
    (hn : (call.onBuffer config s.buffer).chunkCount = 0) :
  (call.advance config s).1.listed = false
    ∨ ∃ next, (call.advance config s).2 = some next ∧ next.looks = true
  := by
  cases call with
  | erase => exact .inl rfl
  | dropErase => exact .inl rfl
  | dropComplete => exact .inl rfl
  | dropTest removedChunks next =>
      right
      simp only [advance]
      split_ifs
      · exact ⟨_, rfl, rfl⟩
      · exact ⟨_, rfl, rfl⟩
      · exact ⟨_, rfl, rfl⟩
  | dropCount next =>
      right
      simp only [onBuffer] at hn
      exact ⟨.dropEof next, by simp [advance, hn], rfl⟩
  | dropEof next =>
      right
      simp only [onBuffer] at he
      exact ⟨.dropComplete next, by simp [advance, Buffer.eof, he], rfl⟩
  | endOfFileCount =>
      right
      simp only [onBuffer] at hn
      exact ⟨.erase, by simp [advance, hn], rfl⟩
  | confirmCount c oldAllowed removedChunks =>
      right
      simp only [onBuffer] at hn
      exact ⟨_, rfl, by simp [looks, hn]⟩
  | confirmCompare c oldAllowed newCount =>
      right
      simp only [advance]
      split_ifs
      · exact ⟨_, rfl, hc⟩
      · exact ⟨_, rfl, hc⟩
  | confirmFinished c newCount =>
      right
      rw [looks] at hc
      exact ⟨.confirmEof newCount, by simp [advance, hc], hc⟩
  | confirmEof newCount =>
      right
      simp only [onBuffer] at he
      exact ⟨.erase, by simp [advance, Buffer.eof, he], rfl⟩
  | confirmRemoved => exact .inr ⟨_, rfl, hc⟩
  | confirmAllowed => exact .inr ⟨_, rfl, hc⟩
  | confirmRead => exact .inr ⟨_, rfl, hc⟩
  | confirmBytesOut => exact .inr ⟨_, rfl, hc⟩
  | dropType => exact .inr ⟨_, rfl, rfl⟩
  | dropRemoved => exact .inr ⟨_, rfl, rfl⟩
  | dropSample => exact .inr ⟨_, rfl, rfl⟩
  | dropAllowed => exact .inr ⟨_, rfl, rfl⟩
  | dropUnfrozen => exact .inr ⟨_, rfl, rfl⟩
  | endOfFileNotify => exact .inr ⟨_, rfl, rfl⟩
  | _ => cases hc

/-- A call that finishes the transfer, and is not a departure, goes on to look at it. -/
theorem looks_of_isFinished (hd : call.departs = false) (hs : ¬ s.IsFinished)
    (he : (call.onBuffer config s.buffer).EOF = true)
    (hn : (call.onBuffer config s.buffer).chunkCount = 0) :
  ∃ next, (call.advance config s).2 = some next ∧ next.looks = true
  := by
  have hne : call.onBuffer config s.buffer ≠ s.buffer := by
    intro h
    rw [h] at he hn
    apply hs ⟨he, hn⟩
  cases call with
  | addChunkStore binaryData oldAllowed =>
      rw [onBuffer, Buffer.EOF_insertChunk] at he
      exact absurd ⟨he, Nat.le_zero.mp ((Buffer.chunkCount_le_insertChunk _ _ _).trans_eq hn)⟩ hs
  | confirmGet c =>
      rw [onBuffer, Buffer.EOF_get] at he
      rw [onBuffer, Buffer.chunkCount, Buffer.chunks_get] at hn
      exact absurd ⟨he, hn⟩ hs
  | confirmStore c oldAllowed =>
      cases hf : s.buffer.chunks.find? c.index with
      | none => exact absurd (by rw [onBuffer, Buffer.setChunkAsReceived_of_none hf]) hne
      | some chunk =>
          exact ⟨_, by rw [advance, Buffer.setChunkAsReceived_of_some hf]; rfl, rfl⟩
  | drop next =>
      cases hf : s.buffer.initialChunksFreezing with
      | false =>
          exact absurd (by rw [onBuffer, Buffer.setInitialChunksFreezingDropped_of_not_freezing hf])
            hne
      | true =>
          exact ⟨_, by rw [advance, Buffer.setInitialChunksFreezingDropped_of_freezing hf]; rfl, rfl⟩
  | removeConsumer => cases hd
  | endOfFileStore => exact ⟨_, rfl, rfl⟩
  | _ => exact absurd rfl hne

/-- The call of `addChunk` has passed the test and has yet to store the chunk or to announce
it. -/
def uploads : Call → Bool
  | .addChunkStore _ _ | .addChunkNotify _ _ _ => true
  | _ => false

/-- The call of `setEndOfFile` has set the flag. -/
def ends : Call → Bool
  | .endOfFileNotify | .endOfFileCount => true
  | _ => false

/-- The upload stays finished. -/
theorem EOF_onBuffer {b : Buffer} (h : b.EOF = true) (call : Call) :
  (call.onBuffer config b).EOF = true
  := by
  cases call with
  | endOfFileStore => rw [onBuffer, Buffer.setEndOfFile, if_pos h, h]
  | _ => simp [onBuffer, h]

/-- Only `setEndOfFile` finishes the upload. -/
theorem eq_endOfFileStore_of_EOF {b : Buffer} (h : (call.onBuffer config b).EOF = true)
    (hb : b.EOF = false) :
  call = .endOfFileStore
  := by
  cases call with
  | endOfFileStore => rfl
  | _ => simp [onBuffer, hb] at h

theorem uploads_returned {o : Option Confirmation} {next : Call} (h : returned o = some next) :
  next.uploads = false
  := by
  cases o with
  | none => cases h
  | some c =>
      cases h
      rfl

/-- Once the upload is finished, no call passes the test. -/
theorem uploads_advance {next : Call} (he : s.buffer.EOF = true) (hc : call.uploads = false)
    (hnext : (call.advance config s).2 = some next) :
  next.uploads = false
  := by
  cases call with
  | addChunkStore => cases hc
  | addChunkNotify => cases hc
  | addChunkTest => simp [advance, he] at hnext
  | removeKick =>
      cases hnext
      rfl
  | _ => grind [advance, uploads, uploads_returned]

theorem ends_returned {o : Option Confirmation} {next : Call} (h : returned o = some next) :
  next.ends = false
  := by
  cases o with
  | none => cases h
  | some c =>
      cases h
      rfl

/-- The flag has been set by the call itself. -/
theorem ends_of_next {next : Call} (hnext : (call.advance config s).2 = some next)
    (h : next.ends = true) :
  call = .endOfFileStore ∨ call.ends = true
  := by
  cases call with
  | endOfFileStore => exact .inl rfl
  | endOfFileNotify => exact .inr rfl
  | removeKick =>
      cases hnext
      cases h
  | _ => grind [advance, ends, ends_returned]

/-- A call that stores no chunk leaves the chunks, or takes some off. -/
theorem mem_chunksIndex_of_onBuffer {b : Buffer} (hc : call.uploads = false) {i : ℕ}
    (hi : i ∈ (call.onBuffer config b).chunksIndex) :
  i ∈ b.chunksIndex
  := by
  cases call with
  | addChunkStore => cases hc
  | confirmGet c => rwa [onBuffer, Buffer.chunksIndex, Buffer.chunks_get] at hi
  | confirmStore c => exact (((Buffer.TakesOff.setChunkAsReceived b c.index).left i).mp hi).1
  | drop => exact (((Buffer.TakesOff.setInitialChunksFreezingDropped b).left i).mp hi).1
  | removeConsumer publicId =>
      apply (((Buffer.TakesOff.removeOneFromExpectedConsumers b publicId).left i).mp hi).1
  | endOfFileStore =>
      rw [onBuffer, Buffer.setEndOfFile] at hi
      split at hi <;> exact hi
  | _ => exact hi

theorem chunksMaxIndex_onBuffer {b : Buffer} (hc : call.uploads = false) :
  (call.onBuffer config b).chunksMaxIndex = b.chunksMaxIndex
  := by
  cases call with
  | addChunkStore => cases hc
  | endOfFileStore =>
      rw [onBuffer, Buffer.setEndOfFile]
      split <;> rfl
  | _ => simp [onBuffer]

end Call

end TransferSession

structure Ending where
  running : Running
  foundEmpty : Bool := false

namespace Ending

/-- What happens next: a method is called, or call `k` makes its next step. -/
inductive Step where
  | call (call : Call)
  | advance (k : ℕ)
deriving DecidableEq, Repr

/-- `setEndOfFile` finds no chunk in the buffer. -/
def findsEmpty (e : Ending) (k : ℕ) : Bool :=
  match e.running.calls[k]? with
  | some .endOfFileCount => e.running.session.buffer.chunkCount == 0
  | _ => false

def step (config : Config) (e : Ending) : Step → Ending
  | .call call => if call.begins then { e with running := e.running.start call } else e
  | .advance k =>
      { running := e.running.advance config k
        foundEmpty := e.foundEmpty || e.findsEmpty k }

/-- Nobody has called a method. -/
structure Starts (e : Ending) : Prop where
  calls : e.running.calls = []
  foundEmpty : e.foundEmpty = false

/-- When all calls have returned, a transfer that is finished is off the list. -/
def Detected (e : Ending) : Prop :=
  e.running.calls = [] → e.running.session.IsFinished → e.running.session.listed = false

/-- The events of the session in the next step. -/
def published (config : Config) (e : Ending) (label : Step) : List Event :=
  (e.step config label).running.session.events.drop e.running.session.events.length

/-- Once the upload is finished, the step stores no chunk and announces none as new. -/
structure UploadsNothing (config : Config) (e : Ending) (label : Step) : Prop where
  stored : e.running.session.buffer.EOF = true →
    ∀ i ∈ (e.step config label).running.session.buffer.chunksIndex,
      i ∈ e.running.session.buffer.chunksIndex
  count : e.running.session.buffer.EOF = true →
    (e.step config label).running.session.buffer.currentMaxChunkIndex
      = e.running.session.buffer.currentMaxChunkIndex
  announced : e.running.session.buffer.EOF = true →
    ∀ index size, .newChunkIsAvailable index size ∉ e.published config label

/-- A session that `setEndOfFile` has found empty has no chunk. -/
def StaysEmpty (e : Ending) : Prop :=
  e.foundEmpty = true → e.running.session.buffer.chunkCount = 0

/-! ### The conditions -/

/-- No receiver departs. -/
def stays : Step → Bool
  | .call call => !call.departs
  | .advance _ => true

/-- When `setEndOfFile` sets the flag, every call of `addChunk` has yet to test it, or has
announced its chunk. -/
def keepsEnd (e : Ending) : Step → Bool
  | .call _ => true
  | .advance k =>
      match e.running.calls[k]? with
      | some .endOfFileStore => e.running.calls.all (fun call => !call.uploads)
      | _ => true

variable {config : Config}

/-! ### Who comes last -/

/-- Nobody departs, and while a finished transfer is listed, somebody looks at it. -/
structure Watched (r : Running) : Prop where
  remain : ∀ call ∈ r.calls, call.departs = false
  looks : r.session.listed = true → r.session.IsFinished → ∃ call ∈ r.calls, call.looks = true

theorem Watched.start {r : Running} (h : Watched r) {call : Call} (hc : call.departs = false) :
  Watched (r.start call)
  where
    remain c hmem := by
      obtain rfl | hmem := Running.mem_calls_start hmem
      · apply hc
      · apply h.remain c hmem
    looks := by
      rw [Running.session_start]
      intro hl hf
      obtain ⟨c, hmem, hlook⟩ := h.looks hl hf
      use c, Running.mem_calls_start_of_mem hmem, hlook

theorem Watched.advance {r : Running} (h : Watched r) (k : ℕ) :
  Watched (r.advance config k)
  := by
  cases hk : r.calls[k]? with
  | none =>
      rw [Running.advance, hk]
      apply h
  | some call =>
      have hremains : call.departs = false := h.remain call (List.mem_of_getElem? hk)
      constructor
      · apply Running.forall_calls_advance h.remain hk
        intro next hnext
        apply Call.departs_advance hremains hnext
      · rw [Running.advance_of_getElem? config hk]
        simp only [IsFinished, call.buffer_advance]
        rintro hl ⟨he, hn⟩
        by_cases hs : r.session.IsFinished
        · obtain ⟨c, hmem, hlook⟩ := h.looks (Call.listed_of_advance hl) hs
          obtain rfl | hmem := (Threads.mem_iff hk).mp hmem
          · obtain hgone | ⟨next, hnext, hlook'⟩ := Call.looks_advance hlook he hn
            · rw [hgone] at hl
              cases hl
            · use next, Threads.mem_goOn.mpr (.inl hnext), hlook'
          · use c, Threads.mem_goOn.mpr (.inr hmem), hlook
        · obtain ⟨next, hnext, hlook⟩ := Call.looks_of_isFinished hremains hs he hn
          use next, Threads.mem_goOn.mpr (.inl hnext), hlook

theorem Watched.step {e : Ending} (h : Watched e.running) {label : Step}
    (hok : stays label = true) :
  Watched (e.step config label).running
  := by
  cases label with
  | call call =>
      simp only [stays, Bool.not_eq_true'] at hok
      simp only [Ending.step]
      split
      · apply h.start hok
      · apply h
  | advance k => exact h.advance k

/-- A transfer that is finished when all calls have returned is off the list, whatever the
order of their steps, as long as no receiver departs. -/
theorem everyState_detected {e : Ending} (hcalls : e.running.calls = [])
    (hlisted : e.running.session.listed = true → ¬e.running.session.IsFinished)
    {steps : List Step} (hstays : ∀ label ∈ steps, stays label = true) :
  Machine.EveryState (step config) Detected e steps
  := by
  have hwatched : Watched e.running :=
    ⟨by simp [hcalls], fun hl hf => absurd hf (hlisted hl)⟩
  have hstep : ∀ (e : Ending) (label : Step), Watched e.running → stays label = true →
      Watched (e.step config label).running :=
    fun e label h hok => h.step hok
  apply (Machine.everyState_of_everyStep hstep hwatched
    (Machine.everyStep_of_forall_mem hstays)).mono
  intro e h hnil hf
  by_contra hl
  obtain ⟨call, hmem, -⟩ := h.looks (Bool.eq_true_of_not_eq_false hl) hf
  rw [hnil] at hmem
  cases hmem

/-! ### After the end of file -/

/-- Once the upload is finished, no call has passed the test, and none does. What
`setEndOfFile` has found empty stays so. -/
structure Closed (e : Ending) : Prop where
  uploads : e.running.session.buffer.EOF = true → ∀ call ∈ e.running.calls, call.uploads = false
  ends : ∀ call ∈ e.running.calls, call.ends = true → e.running.session.buffer.EOF = true
  empty : e.foundEmpty = true →
    e.running.session.buffer.EOF = true ∧ e.running.session.buffer.chunkCount = 0

theorem Closed.of_starts {e : Ending} (h : e.Starts) :
  e.Closed
  where
    uploads := by simp [h.calls]
    ends := by simp [h.calls]
    empty hf := by
      rw [h.foundEmpty] at hf
      cases hf

theorem Closed.call {e : Ending} (h : e.Closed) (call : Call) :
  (e.step config (.call call)).Closed
  := by
  rw [step]
  split
  · next hc =>
    have huploads : call.uploads = false := by
      cases call <;> first | rfl | cases hc
    have hends : call.ends = false := by
      cases call <;> first | rfl | cases hc
    constructor
    · rw [Running.session_start]
      intro he c hmem
      obtain rfl | hmem := Running.mem_calls_start hmem
      · apply huploads
      · apply h.uploads he c hmem
    · rw [Running.session_start]
      intro c hmem hend
      obtain rfl | hmem := Running.mem_calls_start hmem
      · rw [hends] at hend
        cases hend
      · apply h.ends c hmem hend
    · rw [Running.session_start]
      apply h.empty
  · apply h

/-- What is before a step of a call says what it may do. -/
theorem keepsEnd_advance {e : Ending} {k : ℕ} (hk : e.running.calls[k]? = some .endOfFileStore)
    (hok : e.keepsEnd (.advance k) = true) :
  ∀ call ∈ e.running.calls, call.uploads = false
  := by
  simpa only [keepsEnd, hk, List.all_eq_true, Bool.not_eq_true'] using hok

theorem Closed.advance {e : Ending} (h : e.Closed) {k : ℕ}
    (hok : e.keepsEnd (.advance k) = true) :
  (e.step config (.advance k)).Closed
  := by
  cases hk : e.running.calls[k]? with
  | none =>
      simp only [step, Running.advance, findsEmpty, hk, Bool.or_false]
      apply h
  | some call =>
      have hcall : call ∈ e.running.calls := List.mem_of_getElem? hk
      have hbuffer : (e.running.advance config k).session.buffer
          = call.onBuffer config e.running.session.buffer := by
        rw [Running.advance_of_getElem? config hk, call.buffer_advance]
      simp only [step]
      constructor
      · simp only [hbuffer]
        intro he
        cases heof : e.running.session.buffer.EOF with
        | true =>
            apply Running.forall_calls_advance (h.uploads heof) hk
            intro next hnext
            apply Call.uploads_advance heof (h.uploads heof call hcall) hnext
        | false =>
            -- the flag is being set
            obtain rfl := Call.eq_endOfFileStore_of_EOF he heof
            apply Running.forall_calls_advance (keepsEnd_advance hk hok) hk
            rintro next ⟨⟩
            rfl
      · simp only [hbuffer]
        intro c hmem hc
        rw [Running.advance_of_getElem? config hk] at hmem
        obtain hnext | hmem := Threads.mem_goOn.mp hmem
        · obtain rfl | hends := Call.ends_of_next hnext hc
          · simp only [Call.onBuffer, Buffer.setEndOfFile]
            split
            · assumption
            · rfl
          · apply Call.EOF_onBuffer (h.ends call hcall hends) call
        · apply Call.EOF_onBuffer
          apply h.ends c ((Threads.mem_iff hk).mpr (.inr hmem)) hc
      · simp only [hbuffer, Bool.or_eq_true]
        intro hf
        have hempty : e.running.session.buffer.EOF = true
            ∧ e.running.session.buffer.chunkCount = 0 := by
          obtain hf | hf := hf
          · apply h.empty hf
          · rw [findsEmpty, hk] at hf
            cases call with
            | endOfFileCount => exact ⟨h.ends _ hcall rfl, by simpa using hf⟩
            | _ => cases hf
        obtain ⟨he, hn⟩ := hempty
        use Call.EOF_onBuffer he call
        rw [Buffer.chunkCount_eq_zero_iff] at hn ⊢
        intro i hi
        apply hn i (Call.mem_chunksIndex_of_onBuffer (h.uploads he call hcall) hi)

theorem Closed.step {e : Ending} (h : e.Closed) {label : Step} (hok : e.keepsEnd label = true) :
  (e.step config label).Closed
  := by
  cases label with
  | call call => exact h.call call
  | advance k => exact h.advance hok

theorem Closed.uploadsNothing {e : Ending} (h : e.Closed) (label : Step) :
  e.UploadsNothing config label
  := by
  have hstill : ∀ {e' : Ending}, e.step config label = e' →
      e'.running.session = e.running.session → e.UploadsNothing config label := by
    rintro e' rfl hs
    exact ⟨by simp [hs], by simp [hs], by simp [published, hs]⟩
  cases label with
  | call call =>
      apply hstill rfl
      rw [Ending.step]
      split
      · apply Running.session_start
      · rfl
  | advance k =>
      cases hk : e.running.calls[k]? with
      | none =>
          apply hstill rfl
          simp only [Ending.step, Running.advance, hk]
      | some call =>
          have hadvance : (e.step config (.advance k)).running.session
              = (call.advance config e.running.session).1 := by
            rw [Ending.step, Running.advance_of_getElem? config hk]
          have huploads : e.running.session.buffer.EOF = true → call.uploads = false :=
            fun he => h.uploads he call (List.mem_of_getElem? hk)
          constructor
          · rw [hadvance, call.buffer_advance]
            intro he i hi
            apply Call.mem_chunksIndex_of_onBuffer (huploads he) hi
          · rw [hadvance, call.buffer_advance]
            intro he
            apply Call.chunksMaxIndex_onBuffer (huploads he)
          · intro he index size hmem
            rw [published, hadvance, call.events_advance, List.drop_left] at hmem
            obtain ⟨oldAllowed, rfl⟩ := Call.eq_of_newChunkIsAvailable_mem hmem
            cases huploads he

/-- Nothing is uploaded after the end of file in a run in which no call of `addChunk` is
between its test and its announcement when the flag is set. -/
theorem uploadsNothing_of_keepsEnd {e : Ending} (he : e.Starts) {steps : List Step}
    (hok : Machine.EveryStep (step config) (fun e label => e.keepsEnd label = true) e steps) :
  Machine.EveryStep (step config) (UploadsNothing config) e steps
    ∧ Machine.EveryState (step config) StaysEmpty e steps
  := by
  have hstep : ∀ (e : Ending) (label : Step), e.Closed → e.keepsEnd label = true →
      (e.step config label).Closed :=
    fun e label h hok => h.step hok
  have hclosed : Machine.EveryState (step config) Closed e steps :=
    Machine.everyState_of_everyStep hstep (Closed.of_starts he) hok
  constructor
  · apply hclosed.everyStep (fun e label h => h.uploadsNothing label)
  · apply hclosed.mono
    exact fun e h hf => (h.empty hf).2

end Ending

/-! ### Sample runs -/

namespace Ending.Sample

/-- A session with two receivers whose sender has told the file. -/
def session : TransferSession :=
  Machine.run (TransferSession.step TransferSession.Sample.config)
    (.create TransferSession.Sample.sender false)
    [.addReceiver TransferSession.Sample.alice, .addReceiver TransferSession.Sample.bob,
      .setFileInfo ⟨[0x66], 1⟩]

/-- One chunk is stored. -/
def uploaded : Ending where
  running := { session := session.step TransferSession.Sample.config (.addChunk [1]) }

def start : Ending where
  running := { session }

/-- Call `k` makes `n` steps. -/
def advances (n k : ℕ) : List Step := List.replicate n (.advance k)

end Ending.Sample

namespace Ending

/-- The two confirmations count the chunk while it is frozen, the freeze is dropped, and the
upload is finished before the call that drops the freeze looks. -/
def confirmedTogether : List Step :=
  [.call (.confirm ⟨1, TransferSession.Sample.alice⟩),
    .call (.confirm ⟨1, TransferSession.Sample.bob⟩), .call .endOfFile, .call (.drop none)]
    ++ Sample.advances 5 0 ++ Sample.advances 5 1 ++ [.advance 3, .advance 2, .advance 2]
    ++ Sample.advances 30 0

theorem everyState_detected_confirmedTogether :
  Machine.EveryState (step TransferSession.Sample.config) Detected Sample.uploaded
    confirmedTogether
  := by
  apply everyState_detected
  · rfl
  · rintro - ⟨he, -⟩
    cases he
  · decide

/-- A chunk is added without interruption, and then the upload is finished. -/
def finishedAfterwards : List Step :=
  .call (.addChunk [1]) :: Sample.advances 8 0 ++ .call .endOfFile :: Sample.advances 4 0

theorem uploadsNothing_finishedAfterwards :
  Machine.EveryStep (step TransferSession.Sample.config)
      (UploadsNothing TransferSession.Sample.config) Sample.start finishedAfterwards
    ∧ Machine.EveryState (step TransferSession.Sample.config) StaysEmpty Sample.start
      finishedAfterwards
  := by
  apply uploadsNothing_of_keepsEnd
  · exact ⟨rfl, rfl⟩
  · decide

/-- The upload is finished between the test of `addChunk` and the time it stores the
chunk. -/
def finishedMeanwhile : List Step :=
  [.call (.addChunk [1]), .advance 0, .advance 0, .call .endOfFile]
    ++ Sample.advances 5 1 ++ Sample.advances 6 0

theorem not_uploadsNothing_finishedMeanwhile :
  ¬ ∀ (config : Config) (e : Ending) (steps : List Step), e.Starts →
      Machine.EveryStep (step config) (UploadsNothing config) e steps
        ∧ Machine.EveryState (step config) StaysEmpty e steps
  := by
  intro h
  obtain ⟨-, hempty⟩ := h TransferSession.Sample.config Sample.start finishedMeanwhile ⟨rfl, rfl⟩
  have hlast := hempty.last (by decide)
  revert hlast
  decide

end Ending

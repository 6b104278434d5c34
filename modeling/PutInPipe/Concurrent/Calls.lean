import PutInPipe.Session.Lemmas
import PutInPipe.Library.Run
import PutInPipe.Library.Threads

/-!
# Calls in progress

The methods of a session hold a lock only inside the calls of the buffer. `Call` is a call
of a method together with the values it has read so far, and `Call.advance` the next call
of the buffer, test of a flag or publication of an event it makes. A call that runs without
interruption does what the method of the sequential model does.
-/

open TransferSessionDetails

namespace TransferSession

/-- The arguments of `setChunkAsReceived`. -/
structure Confirmation where
  index : ℕ
  client : ClientRef
deriving DecidableEq, Repr

/-- Where a call is. `drop` is `dropInitialChunksFreeze`, which `setChunkAsReceived` may call
before it goes on with a confirmation, `senderDestroyed` is `update` for the sender, and
`setType` what `manualTerminate` and the timer of the session begin with. -/
inductive Call where
  | addChunk (binaryData : Bytes)
  | addChunkTest (binaryData : Bytes) (oldAllowed : Bool)
  | addChunkStore (binaryData : Bytes) (oldAllowed : Bool)
  | addChunkNotify (newIndex size : ℕ) (oldAllowed : Bool)
  | addChunkCompare (oldAllowed : Bool)
  | addChunkAllowed (newAllowed : Bool)
  | addChunkRead
  | addChunkBytesIn (value : ℕ)
  | confirm (c : Confirmation)
  | confirmFire (c : Confirmation)
  | confirmGet (c : Confirmation)
  | confirmReceived (c : Confirmation) (bytes : ℕ)
  | confirmSample (c : Confirmation)
  | confirmStore (c : Confirmation) (oldAllowed : Bool)
  | confirmCount (c : Confirmation) (oldAllowed : Bool) (removedChunks : List ℕ)
  | confirmRemoved (c : Confirmation) (oldAllowed : Bool) (removedChunks : List ℕ) (newCount : ℕ)
  | confirmCompare (c : Confirmation) (oldAllowed : Bool) (newCount : ℕ)
  | confirmAllowed (c : Confirmation) (newAllowed : Bool) (newCount : ℕ)
  | confirmRead (c : Confirmation) (newCount : ℕ)
  | confirmBytesOut (c : Confirmation) (newCount value : ℕ)
  | confirmFinished (c : Confirmation) (newCount : ℕ)
  | confirmEof (newCount : ℕ)
  | drop (next : Option Confirmation)
  | dropTest (removedChunks : List ℕ) (next : Option Confirmation)
  | dropType (type : TransferSessionCompleteType) (removedChunks : List ℕ)
      (next : Option Confirmation)
  | dropErase (removedChunks : List ℕ) (next : Option Confirmation)
  | dropRemoved (removedChunks : List ℕ) (next : Option Confirmation)
  | dropSample (next : Option Confirmation)
  | dropAllowed (newAllowed : Bool) (next : Option Confirmation)
  | dropUnfrozen (next : Option Confirmation)
  | dropCount (next : Option Confirmation)
  | dropEof (next : Option Confirmation)
  | dropComplete (next : Option Confirmation)
  | removeReceiver (publicId : String)
  | removeConsumer (publicId : String) (removedClient : Option ClientRef)
      (noReceiversLeft : Bool)
  | removeChunks (publicId : String) (removedClient : Option ClientRef) (noReceiversLeft : Bool)
      (removedChunks : List ℕ)
  | removeKick (publicId : String) (removedClient : Option ClientRef) (noReceiversLeft : Bool)
  | removeNotify (publicId : String) (noReceiversLeft : Bool)
  | removeTest (noReceiversLeft : Bool)
  | removeFreeze
  | removeEof
  | removeCount
  | endOfFile
  | endOfFileStore
  | endOfFileNotify
  | endOfFileCount
  | senderDestroyed
  | senderReceivers
  | setType (type : TransferSessionCompleteType)
  | erase
deriving DecidableEq, Repr

namespace Call

/-- `dropInitialChunksFreeze` returns. -/
def returned : Option Confirmation → Option Call
  | some c => some (.confirmGet c)
  | none => none

/-- The next step of a call: what it does to the session, and where the call is then, unless
it has returned. The `kicked` message is only sent. -/
def advance (config : Config) (s : TransferSession) : Call → TransferSession × Option Call
  | .addChunk binaryData =>
      (s, some (.addChunkTest binaryData (s.buffer.newChunkIsAllowed config)))
  | .addChunkTest binaryData oldAllowed =>
      -- `m_EOF` and the size are tested before the mutex is locked
      (s, if s.buffer.EOF then none
        else if binaryData.length > config.transferSessionMaxChunkSize then none
        else some (.addChunkStore binaryData oldAllowed))
  | .addChunkStore binaryData oldAllowed =>
      let (buffer, newIndex) := s.buffer.insertChunk config binaryData
      ({ s with buffer },
        if newIndex == 0 then none else some (.addChunkNotify newIndex binaryData.length oldAllowed))
  | .addChunkNotify newIndex size oldAllowed =>
      (s.notify (.newChunkIsAvailable newIndex size), some (.addChunkCompare oldAllowed))
  | .addChunkCompare oldAllowed =>
      let newAllowed := s.buffer.newChunkIsAllowed config
      (s, if oldAllowed != newAllowed then some (.addChunkAllowed newAllowed)
        else some .addChunkRead)
  | .addChunkAllowed newAllowed => (s.notify (.newChunkIsAllowed newAllowed), some .addChunkRead)
  | .addChunkRead => (s, some (.addChunkBytesIn s.buffer.bytesIn))
  | .addChunkBytesIn value => (s.notify (.bytesInUpdated value), none)
  | .confirm c =>
      (s, if s.autoDropFreezeOnFirstChunk && s.buffer.initialChunksFreezing then
          some (.confirmFire c)
        else some (.confirmGet c))
  | .confirmFire c =>
      if s.autoDropFreezeFired then (s, some (.confirmGet c))
      else ({ s with autoDropFreezeFired := true }, some (.drop (some c)))
  | .confirmGet c =>
      let (buffer, chunk) := s.buffer.get c.index
      ({ s with buffer },
        match chunk with
        | some data => some (.confirmReceived c data.length)
        | none => some (.confirmSample c))
  | .confirmReceived c bytes => (s.incrementReceived c.client bytes, some (.confirmSample c))
  | .confirmSample c => (s, some (.confirmStore c (s.buffer.newChunkIsAllowed config)))
  | .confirmStore c oldAllowed =>
      let (buffer, removedChunks, found) := s.buffer.setChunkAsReceived c.index
      ({ s with buffer }, if found then some (.confirmCount c oldAllowed removedChunks) else none)
  | .confirmCount c oldAllowed removedChunks =>
      (s, some (.confirmRemoved c oldAllowed removedChunks s.buffer.chunkCount))
  | .confirmRemoved c oldAllowed removedChunks newCount =>
      (s.notifyRemoved removedChunks, some (.confirmCompare c oldAllowed newCount))
  | .confirmCompare c oldAllowed newCount =>
      let newAllowed := s.buffer.newChunkIsAllowed config
      (s, if oldAllowed != newAllowed then some (.confirmAllowed c newAllowed newCount)
        else some (.confirmRead c newCount))
  | .confirmAllowed c newAllowed newCount =>
      (s.notify (.newChunkIsAllowed newAllowed), some (.confirmRead c newCount))
  | .confirmRead c newCount => (s, some (.confirmBytesOut c newCount s.buffer.bytesOut))
  | .confirmBytesOut c newCount value =>
      (s.notify (.bytesOutUpdated value), some (.confirmFinished c newCount))
  | .confirmFinished c newCount =>
      (s.notify (.chunkDownloadFinished c.client.publicId c.index),
        if newCount == 0 then some (.confirmEof newCount) else none)
  | .confirmEof _ => (s, if s.buffer.eof then some .erase else none)
  | .drop next =>
      let (buffer, removedChunks, dropped) := s.buffer.setInitialChunksFreezingDropped
      ({ s with buffer }, if dropped then some (.dropTest removedChunks next) else returned next)
  | .dropTest removedChunks next =>
      (s, if s.dataReceivers.isEmpty then some (.dropType .noReceivers removedChunks next)
        else if s.fileInfo.name.isEmpty then some (.dropType .senderIsGone removedChunks next)
        else some (.dropRemoved removedChunks next))
  | .dropType type removedChunks next =>
      ({ s with completeType := type }, some (.dropErase removedChunks next))
  | .dropErase _ next => (s.removeFromList, returned next)
  | .dropRemoved removedChunks next => (s.notifyRemoved removedChunks, some (.dropSample next))
  | .dropSample next => (s, some (.dropAllowed (s.buffer.newChunkIsAllowed config) next))
  | .dropAllowed newAllowed next =>
      (s.notify (.newChunkIsAllowed newAllowed), some (.dropUnfrozen next))
  | .dropUnfrozen next => (s.notify .chunksAreUnfrozen, some (.dropCount next))
  | .dropCount next => (s, if s.buffer.chunkCount == 0 then some (.dropEof next) else returned next)
  | .dropEof next => (s, if s.buffer.eof then some (.dropComplete next) else returned next)
  | .dropComplete next => (s.removeFromList, returned next)
  | .removeReceiver publicId =>
      ({ s with dataReceivers := s.remaining publicId },
        some (.removeConsumer publicId (s.removedClient publicId)
          (s.remaining publicId).isEmpty))
  | .removeConsumer publicId removedClient noReceiversLeft =>
      let (buffer, removedChunks) := s.buffer.removeOneFromExpectedConsumers publicId
      ({ s with buffer }, some (.removeChunks publicId removedClient noReceiversLeft removedChunks))
  | .removeChunks publicId removedClient noReceiversLeft removedChunks =>
      (s.notifyRemoved removedChunks, some (.removeKick publicId removedClient noReceiversLeft))
  | .removeKick publicId removedClient noReceiversLeft =>
      (match removedClient with
        | some client => s.notify (.kicked client)
        | none => s,
        some (.removeNotify publicId noReceiversLeft))
  | .removeNotify publicId noReceiversLeft =>
      (s.notify (.receiverRemoved publicId), some (.removeTest noReceiversLeft))
  | .removeTest noReceiversLeft =>
      (s, if !noReceiversLeft then none
        else if s.autoDropFreezeOnFirstChunk then some (.setType .ok)
        else if s.buffer.someChunksWasRemoved then some .removeEof
        else some .removeFreeze)
  | .removeFreeze => (s, if s.buffer.initialChunksFreezing then none else some .removeEof)
  | .removeEof => (s, if s.buffer.eof then some .removeCount else some (.setType .noReceivers))
  | .removeCount =>
      (s, if s.buffer.chunkCount == 0 then some (.setType .ok) else some (.setType .noReceivers))
  | .endOfFile => (s, if s.buffer.eof then none else some .endOfFileStore)
  | .endOfFileStore => ({ s with buffer := s.buffer.setEndOfFile }, some .endOfFileNotify)
  | .endOfFileNotify => (s.notify .fileUploadFinished, some .endOfFileCount)
  | .endOfFileCount => (s, if s.buffer.chunkCount == 0 then some .erase else none)
  | .senderDestroyed =>
      (s, if s.buffer.eof then some .senderReceivers else some (.setType .senderIsGone))
  | .senderReceivers => (s, if s.dataReceivers.isEmpty then some (.setType .noReceivers) else none)
  | .setType type => ({ s with completeType := type }, some .erase)
  | .erase => (s.removeFromList, none)

/-- The call has yet to make its first step. -/
def begins : Call → Bool
  | .addChunk _ | .confirm _ | .drop none | .removeReceiver _ | .endOfFile
  | .setType .senderIsGone => true
  | _ => false

/-- The call belongs to the departure of a receiver. -/
def departs : Call → Bool
  | .removeReceiver _ | .removeConsumer _ _ _ => true
  | _ => false

/-- The call, unless it has returned, runs to its end without interruption. -/
inductive Runs (config : Config) : TransferSession → Option Call → TransferSession → Prop where
  | returned (s : TransferSession) : Runs config s none s
  | advance {s s' : TransferSession} {call : Call}
      (h : Runs config (call.advance config s).1 (call.advance config s).2 s') :
      Runs config s (some call) s'

/-! ### What a step does -/

/-- What the step of a call does to the buffer. -/
def onBuffer (config : Config) (b : Buffer) : Call → Buffer
  | .addChunkStore binaryData _ => (b.insertChunk config binaryData).1
  | .confirmGet c => (b.get c.index).1
  | .confirmStore c _ => (b.setChunkAsReceived c.index).1
  | .drop _ => b.setInitialChunksFreezingDropped.1
  | .removeConsumer publicId _ _ => (b.removeOneFromExpectedConsumers publicId).1
  | .endOfFileStore => b.setEndOfFile
  | _ => b

/-- The events the step of a call publishes. -/
def publishes (s : TransferSession) : Call → List Event
  | .addChunkNotify newIndex size _ => [.newChunkIsAvailable newIndex size]
  | .addChunkAllowed newAllowed | .confirmAllowed _ newAllowed _ | .dropAllowed newAllowed _ =>
      [.newChunkIsAllowed newAllowed]
  | .addChunkBytesIn value => [.bytesInUpdated value]
  | .confirmReceived c bytes =>
      [.personalReceivedUpdated c.client (s.bytesReceived c.client + bytes)]
  | .confirmRemoved _ _ removedChunks _ | .dropRemoved removedChunks _
  | .removeChunks _ _ _ removedChunks =>
      removedEvents removedChunks
  | .confirmBytesOut _ _ value => [.bytesOutUpdated value]
  | .confirmFinished c _ => [.chunkDownloadFinished c.client.publicId c.index]
  | .dropUnfrozen _ => [.chunksAreUnfrozen]
  | .removeKick _ removedClient _ => removedClient.toList.map .kicked
  | .removeNotify publicId _ => [.receiverRemoved publicId]
  | .endOfFileNotify => [.fileUploadFinished]
  | _ => []

variable {config : Config}

section

attribute [local simp] advance onBuffer publishes

theorem buffer_advance (s : TransferSession) (call : Call) :
  (call.advance config s).1.buffer = call.onBuffer config s.buffer
  := by
  cases call with
  | confirmRemoved | dropRemoved | removeChunks => simp only [advance, notifyRemoved_eq, onBuffer]
  | confirmFire | removeKick =>
      simp only [advance]
      split <;> rfl
  | _ => rfl

theorem events_advance (s : TransferSession) (call : Call) :
  (call.advance config s).1.events = s.events ++ call.publishes s
  := by
  cases call with
  | confirmRemoved | dropRemoved | removeChunks => simp only [advance, notifyRemoved_eq, publishes]
  | confirmFire =>
      simp only [advance]
      split <;> simp
  | removeKick _ removedClient =>
      cases removedClient with
      | none => simp
      | some => rfl
  | confirmReceived => simp [incrementReceived, notify]
  | _ => simp [notify, removeFromList]

/-- A session that is not listed is not listed again. -/
theorem listed_of_advance {s : TransferSession} {call : Call}
    (h : (call.advance config s).1.listed = true) :
  s.listed = true
  := by
  cases call with
  | confirmRemoved | dropRemoved | removeChunks =>
      simpa only [advance, notifyRemoved_eq] using h
  | confirmFire | removeKick =>
      simp only [advance] at h
      split at h <;> exact h
  | dropErase | dropComplete | erase => cases h
  | _ => exact h

theorem departs_returned {o : Option Confirmation} {next : Call}
    (h : returned o = some next) :
  next.departs = false
  := by
  cases o with
  | none => cases h
  | some c =>
      cases h
      rfl

theorem departs_advance {s : TransferSession} {call next : Call} (hc : call.departs = false)
    (hnext : (call.advance config s).2 = some next) :
  next.departs = false
  := by
  cases call with
  | removeReceiver => cases hc
  | removeConsumer => cases hc
  | removeKick =>
      cases hnext
      rfl
  | _ => grind [advance, departs, departs_returned]

theorem eq_of_newChunkIsAvailable_mem {s : TransferSession} {call : Call} {index size : ℕ}
    (h : .newChunkIsAvailable index size ∈ call.publishes s) :
  ∃ oldAllowed, call = .addChunkNotify index size oldAllowed
  := by
  cases call with
  | addChunkNotify newIndex newSize oldAllowed =>
      simp only [publishes, List.mem_singleton, Event.newChunkIsAvailable.injEq] at h
      obtain ⟨rfl, rfl⟩ := h
      use oldAllowed
  | _ => simp [removedEvents] at h

end

/-! ### Calls that run alone -/

theorem runs_addChunk (s : TransferSession) (binaryData : Bytes) :
  Runs config s (some (.addChunk binaryData)) (s.addChunk config binaryData).1
  := by
  rw [TransferSession.addChunk, Buffer.addChunk]
  apply Runs.advance
  apply Runs.advance
  dsimp only [advance]
  split
  · apply Runs.returned
  split
  · apply Runs.returned
  apply Runs.advance
  dsimp only [advance]
  split
  · apply Runs.returned
  · apply Runs.advance
    apply Runs.advance
    dsimp only [advance]
    split
    · exact .advance (.advance (.advance (.returned _)))
    · exact .advance (.advance (.returned _))

/-- The end of a confirmation, from where `chunk_removed` has been sent. -/
def confirmed (config : Config) (s : TransferSession) (c : Confirmation) (oldAllowed : Bool)
    (newCount : ℕ) : TransferSession :=
  let newAllowed := s.buffer.newChunkIsAllowed config
  let s := if oldAllowed != newAllowed then s.notify (.newChunkIsAllowed newAllowed) else s
  let s := s.notify (.bytesOutUpdated s.buffer.bytesOut)
  let s := s.notify (.chunkDownloadFinished c.client.publicId c.index)
  if newCount == 0 && s.buffer.eof then s.removeFromList else s

theorem runs_confirmRead (s : TransferSession) (c : Confirmation) (newCount : ℕ) :
  Runs config s (some (.confirmRead c newCount))
    (let s := s.notify (.bytesOutUpdated s.buffer.bytesOut)
    let s := s.notify (.chunkDownloadFinished c.client.publicId c.index)
    if newCount == 0 && s.buffer.eof then s.removeFromList else s)
  := by
  apply Runs.advance
  apply Runs.advance
  apply Runs.advance
  dsimp only [advance]
  by_cases hn : newCount = 0
  · simp only [hn, beq_self_eq_true, Bool.true_and, if_true]
    apply Runs.advance
    dsimp only [advance]
    split
    · exact .advance (.returned _)
    · apply Runs.returned
  · have hn' : (newCount == 0) = false := by simp [hn]
    simp only [hn', Bool.false_and, Bool.false_eq_true, if_false]
    apply Runs.returned

theorem runs_confirmCompare (s : TransferSession) (c : Confirmation) (oldAllowed : Bool)
    (newCount : ℕ) :
  Runs config s (some (.confirmCompare c oldAllowed newCount))
    (confirmed config s c oldAllowed newCount)
  := by
  rw [confirmed]
  apply Runs.advance
  dsimp only [advance]
  split
  · apply Runs.advance
    apply runs_confirmRead
  · apply runs_confirmRead

/-- A confirmation, from where its bytes have been counted. -/
def counted (config : Config) (s : TransferSession) (c : Confirmation) : TransferSession :=
  let oldAllowed := s.buffer.newChunkIsAllowed config
  let (buffer, removedChunks, found) := s.buffer.setChunkAsReceived c.index
  let s := { s with buffer }
  if !found then s
  else confirmed config (s.notifyRemoved removedChunks) c oldAllowed s.buffer.chunkCount

theorem runs_confirmSample (s : TransferSession) (c : Confirmation) :
  Runs config s (some (.confirmSample c)) (counted config s c)
  := by
  rw [counted]
  apply Runs.advance
  apply Runs.advance
  dsimp only [advance]
  cases hfound : (s.buffer.setChunkAsReceived c.index).2.2 with
  | false => exact .returned _
  | true =>
      apply Runs.advance
      apply Runs.advance
      apply runs_confirmCompare

theorem runs_confirmGet (s : TransferSession) (c : Confirmation) :
  Runs config s (some (.confirmGet c)) (s.confirmChunk config c.index c.client)
  := by
  rw [confirmChunk]
  apply Runs.advance
  dsimp only [advance]
  cases hget : (s.buffer.get c.index).2 with
  | none => apply runs_confirmSample
  | some data =>
      apply Runs.advance
      apply runs_confirmSample

theorem runs_drop {s s' : TransferSession} (next : Option Confirmation)
    (h : Runs config (s.dropInitialChunksFreeze config) (returned next) s') :
  Runs config s (some (.drop next)) s'
  := by
  rw [dropInitialChunksFreeze] at h
  dsimp only at h
  apply Runs.advance
  dsimp only [advance]
  split at h
  · next hd =>
    rw [if_neg (by simpa using hd)]
    apply h
  · next hd =>
    rw [if_pos (by simpa using hd)]
    apply Runs.advance
    dsimp only [advance]
    split at h
    · next hr =>
      rw [if_pos hr]
      exact .advance (.advance h)
    · next hr =>
      rw [if_neg hr]
      split at h
      · next hf =>
        rw [if_pos hf]
        exact .advance (.advance h)
      · next hf =>
        rw [if_neg hf]
        apply Runs.advance
        apply Runs.advance
        apply Runs.advance
        apply Runs.advance
        apply Runs.advance
        dsimp only [advance]
        split at h
        · next hc =>
          simp only [Bool.and_eq_true] at hc
          rw [if_pos hc.1]
          apply Runs.advance
          dsimp only [advance]
          rw [if_pos hc.2]
          exact .advance h
        · next hc =>
          split
          · next he =>
            apply Runs.advance
            dsimp only [advance]
            rw [if_neg (fun h => hc (by simp [he, h]))]
            apply h
          · apply h

theorem runs_dropInitialChunksFreeze (s : TransferSession) :
  Runs config s (some (.drop none)) (s.dropInitialChunksFreeze config)
  := by
  apply runs_drop
  apply Runs.returned

theorem runs_setChunkAsReceived (s : TransferSession) (c : Confirmation) :
  Runs config s (some (.confirm c)) (s.setChunkAsReceived config c.index c.client)
  := by
  rw [setChunkAsReceived, autoDropFreeze]
  apply Runs.advance
  dsimp only [advance]
  by_cases hd : s.autoDropFreezeOnFirstChunk && s.buffer.initialChunksFreezing
  · rw [if_pos hd]
    apply Runs.advance
    dsimp only [advance]
    cases hf : s.autoDropFreezeFired with
    | true =>
        simp only [hd, Bool.not_true, Bool.and_false, Bool.false_eq_true, if_false, if_true]
        apply runs_confirmGet
    | false =>
        simp only [hd, Bool.not_false, Bool.and_true, Bool.false_eq_true, if_false, if_true]
        apply runs_drop
        apply runs_confirmGet
  · simp only [hd, Bool.false_and, Bool.false_eq_true, if_false]
    apply runs_confirmGet

theorem runs_setEndOfFile (s : TransferSession) :
  Runs config s (some .endOfFile) s.setEndOfFile
  := by
  rw [setEndOfFile]
  apply Runs.advance
  dsimp only [advance]
  split
  · apply Runs.returned
  · apply Runs.advance
    apply Runs.advance
    apply Runs.advance
    dsimp only [advance]
    split
    · exact .advance (.returned _)
    · apply Runs.returned

theorem runs_setType (s : TransferSession) (type : TransferSessionCompleteType) :
  Runs config s (some (.setType type)) (s.terminate type)
  := .advance (.advance (.returned _))

theorem runs_manualTerminate (s : TransferSession) :
  Runs config s (some (.setType .senderIsGone)) s.manualTerminate
  := runs_setType s .senderIsGone

/-- The timer of the session. -/
theorem runs_setTimedout (s : TransferSession) :
  Runs config s (some (.setType .timeout)) s.setTimedout.removeFromList
  := runs_setType s .timeout

/-- The sender, or a client of a session whose sender is gone, is destroyed. -/
theorem runs_senderDestroyed {s : TransferSession} {publicId : String}
    (h : s.takenForSender publicId = true)
    (removeReceiver : String → TransferSession → TransferSession) :
  Runs config s (some .senderDestroyed) (s.update removeReceiver publicId)
  := by
  rw [update, if_pos h]
  apply Runs.advance
  dsimp only [advance]
  split
  · apply Runs.advance
    dsimp only [advance]
    split
    · apply runs_setType
    · apply Runs.returned
  · apply runs_setType

theorem runs_removeTest (s : TransferSession) (noReceiversLeft : Bool) :
  Runs config s (some (.removeTest noReceiversLeft)) (s.terminateIfDeserted noReceiversLeft)
  := by
  have heof : Runs config s (some .removeEof)
      (if s.buffer.eof && s.buffer.chunkCount == 0 then s.terminate .ok
        else s.terminate .noReceivers) := by
    apply Runs.advance
    dsimp only [advance]
    cases he : s.buffer.eof with
    | false => apply runs_setType
    | true =>
        apply Runs.advance
        dsimp only [advance]
        simp only [Bool.true_and]
        split
        · apply runs_setType
        · apply runs_setType
  rw [terminateIfDeserted]
  apply Runs.advance
  dsimp only [advance]
  cases noReceiversLeft with
  | false => exact .returned s
  | true =>
      simp only [Bool.not_true, Bool.false_eq_true, if_false, if_true]
      split
      · apply runs_setType
      · cases hr : s.buffer.someChunksWasRemoved with
        | true => apply heof
        | false =>
            apply Runs.advance
            dsimp only [advance]
            cases hf : s.buffer.initialChunksFreezing with
            | true => exact .returned s
            | false => apply heof

/-- A receiver with a live WebSocket leaves: the `kicked` message changes nothing. -/
theorem runs_removeReceiver (s : TransferSession) (publicId : String) :
  Runs config s (some (.removeReceiver publicId))
    (s.removeReceiverWith (fun _ s => s) publicId)
  := by
  apply Runs.advance
  apply Runs.advance
  apply Runs.advance
  apply Runs.advance
  apply Runs.advance
  apply runs_removeTest

end Call

end TransferSession

open TransferSession

/-- A session and the calls of its methods in progress. -/
structure Running where
  session : TransferSession
  calls : List Call := []

namespace Running

variable {config : Config}

/-- A method of the session is called. -/
def start (r : Running) (call : Call) : Running :=
  if r.session.listed then { r with calls := r.calls ++ [call] } else r

/-- Call `k` makes its next step. -/
def advance (config : Config) (r : Running) (k : ℕ) : Running :=
  match r.calls[k]? with
  | none => r
  | some call =>
      let (session, next) := call.advance config r.session
      { session, calls := Threads.goOn r.calls k next }

theorem advance_of_getElem? (config : Config) {r : Running} {k : ℕ} {call : Call}
    (hk : r.calls[k]? = some call) :
  r.advance config k
    = ⟨(call.advance config r.session).1, Threads.goOn r.calls k (call.advance config r.session).2⟩
  := by
  rw [advance, hk]

/-- A call that is not interrupted does what the method does. -/
theorem reachable_of_runs {s s' : TransferSession} {call : Option Call}
    (h : Call.Runs config s call s') (calls : List Call) :
  Machine.Reachable (advance config) ⟨s, calls ++ call.toList⟩ ⟨s', calls⟩
  := by
  induction h with
  | returned s =>
      use []
      simp
  | advance h ih =>
      next s s' call =>
      obtain ⟨ks, hks⟩ := ih
      use calls.length :: ks
      rw [Machine.run_cons, ← hks]
      congr 1
      have hcall : (calls ++ (some call).toList)[calls.length]? = some call := by simp
      rw [advance_of_getElem? config hcall]
      simp [Threads.goOn]

/-! ### The calls after a step -/

variable {r : Running} {k : ℕ} {call : Call}

/-- What holds of every call and of the next step of call `k` holds of every call then. -/
theorem forall_calls_advance {P : Call → Prop} (h : ∀ c ∈ r.calls, P c)
    (hk : r.calls[k]? = some call)
    (hnext : ∀ next, (call.advance config r.session).2 = some next → P next) :
  ∀ c ∈ (r.advance config k).calls, P c
  := by
  intro c hc
  rw [advance_of_getElem? config hk] at hc
  obtain hc | hc := Threads.mem_goOn.mp hc
  · apply hnext c hc
  · apply h c ((Threads.mem_iff hk).mpr (.inr hc))

theorem session_start (call : Call) :
  (r.start call).session = r.session
  := by
  rw [start]
  split <;> rfl

theorem mem_calls_start_of_mem {c : Call} (h : c ∈ r.calls) :
  c ∈ (r.start call).calls
  := by
  rw [start]
  split
  · apply List.mem_append_left _ h
  · apply h

theorem mem_calls_start {c : Call} (h : c ∈ (r.start call).calls) :
  c = call ∨ c ∈ r.calls
  := by
  rw [start] at h
  split at h
  · obtain h | h := List.mem_append.mp h
    · exact .inr h
    · exact .inl (List.mem_singleton.mp h)
  · exact .inr h

end Running

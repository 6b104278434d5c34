import PutInPipe.Session.Basic
import PutInPipe.Library.Run
import Mathlib.Order.Interval.Finset.Nat

/-!
# The page of a receiver

`SessionReceiver` is the part of the page of that name that downloads the chunks and decides
when the file is complete. Its asynchronous functions are cut at each `await`: `fetches`
holds the downloads that are waiting, each with what it waits for and what its caller does
afterwards, and `resume` continues one of them.

A result is reported once, by `oncomplete`. A report records besides the result which chunks
the page held at that moment, and the highest index it knew of.
-/

open TransferSessionDetails

/-- Set the value under a key, like `Map.set`. -/
def OrderedMap.set (m : OrderedMap ℕ Bytes) (k : ℕ) (v : Bytes) : OrderedMap ℕ Bytes :=
  ((m.modify k fun _ => v).tryEmplace k v).1

/-- The result the page reports. -/
inductive ReceiveStatus where
  | ok (blob : Option Bytes) (savedToDisk : Bool)
  | incomplete (missing : List ℕ)
  | server (status : TransferSessionCompleteType)
  | kicked
  | error
  | left
deriving DecidableEq, Repr

def ReceiveStatus.isOk : ReceiveStatus → Bool
  | .ok _ _ => true
  | _ => false

/-- A call of `oncomplete`. -/
structure Report where
  status : ReceiveStatus
  highestKnownChunk : ℕ
  held : Finset ℕ
deriving DecidableEq

/-- The part of `start_init` the page reads. -/
structure ServerState where
  uploadFinished : Bool := false
  currentChunk : ℕ := 0
  chunks : List ℕ := []
deriving DecidableEq, Repr

/-- What a download waits for: the dialog that chooses the file, the response of the server,
the writing of its data, the writing of a buffered chunk, the connection to confirm it, or
the delay before the next attempt. -/
inductive FetchPhase where
  | waitingWritable
  | downloading (attempt : ℕ)
  | writing (attempt : ℕ) (data : Bytes)
  | draining (attempt : ℕ) (data : Bytes)
  | confirming (attempt : ℕ)
  | sleeping (attempt : ℕ)
deriving DecidableEq, Repr

/-- A waiting call of `fetchAndDecryptChunk`. Its caller goes on with the chunks `rest`, and
calls `checkIfDone` at the end if `check` is set. -/
structure Fetch where
  index : ℕ
  phase : FetchPhase
  rest : List ℕ := []
  check : Bool
deriving DecidableEq, Repr

/-- How what a download waits for ends. -/
inductive Awaited where
  | resolved
  | rejected
  | response (status : ℕ) (data : Option Bytes)
deriving DecidableEq, Repr

structure SessionReceiver where
  hasFSAccess : Bool := false
  chunks : OrderedMap ℕ Bytes := .empty
  chunksConfirmed : ℕ := 0
  chunksAcknowledged : ℕ := 0
  lastChunkIndex : ℕ := 0
  highestKnownChunk : ℕ := 0
  fileInfo : Option FileInfo := none
  uploadFinished : Bool := false
  pendingFetches : Finset ℕ := ∅
  failedChunks : Finset ℕ := ∅
  -- a file is open to write to, and what was written to it
  writable : Bool := false
  disk : Bytes := []
  nextWriteIndex : ℕ := 1
  chunkBuffer : ℕ → Option Bytes := fun _ => none
  writtenChunks : Finset ℕ := ∅
  -- the promise of the dialog, and whether it is resolved
  writableReady : Option Bool := none
  completeHandled : Bool := false
  -- the timers of `onWsClose` that have not fired
  closeTimers : ℕ := 0
  fetches : List Fetch := []
  reports : List Report := []

namespace SessionReceiver

/-- The indices of the chunks the page holds: those written to the file when there is one,
else those in memory. -/
def held (s : SessionReceiver) : Finset ℕ :=
  if s.writable then s.writtenChunks else s.chunks.keys.toFinset

/-- The number of chunks the page holds. -/
def haveCount (s : SessionReceiver) : ℕ :=
  if s.writable then s.writtenChunks.card else s.chunks.size

/-! ### Completion -/

def oncomplete (s : SessionReceiver) (status : ReceiveStatus) : SessionReceiver :=
  { s with reports := s.reports ++ [⟨status, s.highestKnownChunk, s.held⟩] }

/-- Close the file. A report made in the same step is taken before that. -/
def closeWritable (s : SessionReceiver) : SessionReceiver := { s with writable := false }

def assembleFile (s : SessionReceiver) : Option Bytes :=
  if s.fileInfo.isNone || s.chunks.size == 0 then none
  else some (s.chunks.entries.flatMap Prod.snd)

def finishWithBlob (s : SessionReceiver) : SessionReceiver :=
  if s.completeHandled then s
  else
    let s := { s with completeHandled := true }
    if s.writable then (s.oncomplete (.ok none true)).closeWritable
    else s.oncomplete (.ok s.assembleFile false)

def computeMissingIndices (s : SessionReceiver) : List ℕ :=
  if s.highestKnownChunk = 0 then []
  else (List.range' 1 s.highestKnownChunk).filter (fun i => i ∉ s.held)

def finalizeStrict (s : SessionReceiver) : SessionReceiver :=
  if s.completeHandled then s
  else
    let missing := s.computeMissingIndices
    if missing.length > 0 then
      ({ s with completeHandled := true }.oncomplete (.incomplete missing)).closeWritable
    else s.finishWithBlob

def checkIfDone (s : SessionReceiver) : SessionReceiver :=
  if s.completeHandled then s
  else if !s.uploadFinished then s
  else if s.pendingFetches.card > 0 then s
  else if s.chunksAcknowledged < s.chunksConfirmed then s
  else if s.highestKnownChunk = 0 then s
  else if s.haveCount + s.failedChunks.card < s.highestKnownChunk then s
  else s.finalizeStrict

/-! ### Downloads -/

def retries : ℕ := 3

def markFetchDone (s : SessionReceiver) (index : ℕ) : SessionReceiver :=
  { s with pendingFetches := s.pendingFetches.erase index }

def markFetchFailed (s : SessionReceiver) (index : ℕ) : SessionReceiver :=
  { s with failedChunks := insert index s.failedChunks }.markFetchDone index

/-- Let a download wait. -/
def await (s : SessionReceiver) (f : Fetch) : SessionReceiver :=
  { s with fetches := s.fetches ++ [f] }

/-- The loops raise the highest known index, unless they fetch what was there when the page
was loaded. -/
def raiseKnown (s : SessionReceiver) (check : Bool) (index : ℕ) : SessionReceiver :=
  if check then { s with highestKnownChunk := max s.highestKnownChunk index } else s

/-- Fetch the chunks one after the other. -/
def fetchLoop (s : SessionReceiver) (check : Bool) : List ℕ → SessionReceiver
  | [] => if check then s.checkIfDone else s
  | index :: rest =>
      let s := s.raiseKnown check index
      if s.writableReady.isSome then s.await { index, phase := .waitingWritable, rest, check }
      else if index ∈ s.held || index ∈ s.pendingFetches then s.fetchLoop check rest
      else
        { s with pendingFetches := insert index s.pendingFetches }.await
          { index, phase := .downloading 0, rest, check }

/-- The call returns, and its caller goes on. -/
def goOn (s : SessionReceiver) (f : Fetch) : SessionReceiver := s.fetchLoop f.check f.rest

/-- An attempt has failed. -/
def retryLater (s : SessionReceiver) (f : Fetch) (attempt : ℕ) : SessionReceiver :=
  s.await { f with phase := .sleeping attempt }

/-- The chunk is confirmed, at once if there is a connection. -/
def confirm (s : SessionReceiver) (f : Fetch) (attempt : ℕ) (isConnected : Bool) :
    SessionReceiver :=
  let s := { s with lastChunkIndex := max s.lastChunkIndex f.index }
  if isConnected then
    ({ s with chunksConfirmed := s.chunksConfirmed + 1 }.markFetchDone f.index).goOn f
  else s.await { f with phase := .confirming attempt }

/-- The end of `flushChunkToDisk` or the next turn of its loop: write the next chunk if it is
buffered. -/
def drain (s : SessionReceiver) (f : Fetch) (attempt : ℕ) (isConnected : Bool) :
    SessionReceiver :=
  match s.chunkBuffer s.nextWriteIndex with
  | some data =>
      if s.writable then s.await { f with phase := .draining attempt data }
      else s.retryLater f attempt
  | none =>
      { s with writtenChunks := insert f.index s.writtenChunks }.confirm f attempt isConnected

/-- The decrypted data is stored. -/
def store (s : SessionReceiver) (f : Fetch) (attempt : ℕ) (data : Bytes) (isConnected : Bool) :
    SessionReceiver :=
  if s.writable then
    if f.index = s.nextWriteIndex then s.await { f with phase := .writing attempt data }
    else
      { s with
        chunkBuffer := Function.update s.chunkBuffer f.index (some data)
        writtenChunks := insert f.index s.writtenChunks }.confirm f attempt isConnected
  else { s with chunks := s.chunks.set f.index data }.confirm f attempt isConnected

/-- What a waiting download does when what it waits for has ended. -/
def resume (decryptChunk : Bytes → Option Bytes) (s : SessionReceiver) (f : Fetch)
    (isConnected : Bool) : Awaited → SessionReceiver
  | .response status data =>
      match f.phase with
      | .downloading attempt =>
          match status, data with
          | 200, some data =>
              match decryptChunk data with
              | some decrypted => s.store f attempt decrypted isConnected
              | none => s.retryLater f attempt
          | 404, _ => (s.markFetchFailed f.index).goOn f
          | _, _ => s.retryLater f attempt
      | _ => s.await f
  | .resolved =>
      match f.phase with
      | .waitingWritable =>
          if s.writableReady ≠ some true then s.await f
          else if f.index ∈ s.held || f.index ∈ s.pendingFetches then s.goOn f
          else
            { s with pendingFetches := insert f.index s.pendingFetches }.await
              { f with phase := .downloading 0 }
      | .downloading _ => s.await f
      | .writing attempt data =>
          { s with disk := s.disk ++ data, nextWriteIndex := s.nextWriteIndex + 1 }.drain f
            attempt isConnected
      | .draining attempt data =>
          { s with
            disk := s.disk ++ data
            chunkBuffer := Function.update s.chunkBuffer s.nextWriteIndex none
            nextWriteIndex := s.nextWriteIndex + 1 }.drain f attempt isConnected
      | .confirming _ =>
          ({ s with chunksConfirmed := s.chunksConfirmed + 1 }.markFetchDone f.index).goOn f
      | .sleeping attempt =>
          if attempt + 1 < retries then s.await { f with phase := .downloading (attempt + 1) }
          else (s.markFetchFailed f.index).goOn f
  | .rejected =>
      match f.phase with
      | .writing attempt _ | .draining attempt _ | .confirming attempt => s.retryLater f attempt
      | _ => s.await f

/-! ### The handlers -/

/-- `promptSaveFile`: the dialog is shown. -/
def promptSaveFile (s : SessionReceiver) : SessionReceiver :=
  { s with writableReady := some false }

def onFileInfo (s : SessionReceiver) (info : FileInfo) : SessionReceiver :=
  let s := { s with fileInfo := some info }
  if s.hasFSAccess && s.writableReady.isNone then s.promptSaveFile else s

def onUploadFinished (s : SessionReceiver) : SessionReceiver :=
  { s with uploadFinished := true }.checkIfDone

/-- `finished` says that the server acknowledges a confirmation of this page. -/
def onChunkDownload (s : SessionReceiver) (finished : Bool) : SessionReceiver :=
  if finished then { s with chunksAcknowledged := s.chunksAcknowledged + 1 }.checkIfDone else s

/-- The chunks below the lowest one in the buffer of the server that the page does not
hold. -/
def markUnrecoverable (s : SessionReceiver) (state : ServerState) : SessionReceiver :=
  let minBuf := state.chunks.min?.getD (state.currentChunk + 1)
  { s with
    failedChunks := s.failedChunks ∪ (Finset.Ico 1 minBuf).filter (fun i => i ∉ s.held) }

def onReconnectInit (s : SessionReceiver) (state : ServerState) : SessionReceiver :=
  let s := { s with
    uploadFinished := s.uploadFinished || state.uploadFinished
    highestKnownChunk := max s.highestKnownChunk state.currentChunk }
  (s.markUnrecoverable state).fetchLoop true state.chunks

def onNewChunk (s : SessionReceiver) (index : ℕ) : SessionReceiver :=
  s.fetchLoop true [index]

def onPersonalReceived (s : SessionReceiver) : SessionReceiver := s.checkIfDone

def onSessionComplete (s : SessionReceiver) (status : TransferSessionCompleteType) :
    SessionReceiver :=
  if s.completeHandled then s
  else
    match status with
    | .ok => s.finalizeStrict
    | status => { s with completeHandled := true }.oncomplete (.server status)

def onKicked (s : SessionReceiver) : SessionReceiver :=
  if s.completeHandled then s
  else ({ s with completeHandled := true }.oncomplete .kicked).closeWritable

/-- The connection is closed for good: a timer is set. -/
def onWsClose (s : SessionReceiver) : SessionReceiver :=
  if s.completeHandled then s else { s with closeTimers := s.closeTimers + 1 }

/-- The timer of `onWsClose` fires. -/
def onCloseTimer (s : SessionReceiver) : SessionReceiver :=
  if s.closeTimers = 0 then s
  else
    let s := { s with closeTimers := s.closeTimers - 1 }
    if s.completeHandled then s
    else if s.uploadFinished && s.haveCount > 0 then s.finishWithBlob
    else ({ s with completeHandled := true }.oncomplete .error).closeWritable

def handleLeave (s : SessionReceiver) : SessionReceiver :=
  { s with completeHandled := true }.oncomplete .left

/-- The dialog is closed: a file was chosen or not. -/
def onSaveDialog (s : SessionReceiver) (chosen : Bool) : SessionReceiver :=
  if s.writableReady = some false then { s with writableReady := some true, writable := chosen }
  else s

/-! ### Runs -/

/-- The page after it was loaded with the state of the server. -/
def create (hasFSAccess : Bool) (state : ServerState) (fileInfo : Option FileInfo) :
    SessionReceiver :=
  let s : SessionReceiver := {
    hasFSAccess
    fileInfo
    uploadFinished := state.uploadFinished
    highestKnownChunk := state.chunks.foldl max state.currentChunk }
  let s := if hasFSAccess && fileInfo.isSome then s.promptSaveFile else s
  (s.markUnrecoverable state).fetchLoop false state.chunks

/-- What happens to the page: the messages of the server, the end of what a download waits
for, and what the user does. -/
inductive Event where
  | fileInfo (info : FileInfo)
  | uploadFinished
  | newChunk (index : ℕ)
  | chunkDownload (finished : Bool)
  | personalReceived
  | complete (status : TransferSessionCompleteType)
  | kicked
  | startInit (state : ServerState)
  | close
  | closeTimer
  | saveDialog (chosen : Bool)
  | awaited (k : ℕ) (isConnected : Bool) (result : Awaited)
  | leave
deriving DecidableEq, Repr

def step (decryptChunk : Bytes → Option Bytes) (s : SessionReceiver) : Event → SessionReceiver
  | .fileInfo info => s.onFileInfo info
  | .uploadFinished => s.onUploadFinished
  | .newChunk index => s.onNewChunk index
  | .chunkDownload finished => s.onChunkDownload finished
  | .personalReceived => s.onPersonalReceived
  | .complete status => s.onSessionComplete status
  | .kicked => s.onKicked
  | .startInit state => s.onReconnectInit state
  | .close => s.onWsClose
  | .closeTimer => s.onCloseTimer
  | .saveDialog chosen => s.onSaveDialog chosen
  | .awaited k isConnected result =>
      match s.fetches[k]? with
      | none => s
      | some f =>
          { s with fetches := s.fetches.eraseIdx k }.resume decryptChunk f isConnected result
  | .leave => s.handleLeave

end SessionReceiver

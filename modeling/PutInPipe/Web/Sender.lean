import PutInPipe.Session.Progress

/-!
# The page of the sender

`SessionSender` is the part of the page of that name that uploads the file: its loop, which
is in one of the phases of `Phase` whenever it waits, and the handlers of the messages the
loop depends on. `Upload` is the page together with the server and the WebSocket between
them.

The loop reads a slice, encrypts it and sends it, and waits for the message `new_chunk`
before it goes on. After a loss of the WebSocket the server greets the page with
`start_init`, and the page goes on as if the slice it waits for had been accepted.
-/

open TransferSessionDetails

/-- A frame the page sends. -/
inductive Frame where
  | binary (data : Bytes)
  | setFileInfo (info : FileInfo)
  | uploadFinished
deriving DecidableEq, Repr

/-- A message the page gets from the server, of those that concern the upload. -/
inductive Message where
  | newChunk (index size : ℕ)
  | newChunkAllowed (status : Bool)
  | chunkRemoved (ids : List ℕ)
  | addChunkFailure
  | startInit (chunks : List ℕ) (currentChunk : ℕ)
deriving DecidableEq, Repr

/-- The message the client of the sender makes of an event. -/
def Message.ofEvent : Event → Option Message
  | .newChunkIsAvailable index size => some (.newChunk index size)
  | .newChunkIsAllowed status => some (.newChunkAllowed status)
  | .chunksWasRemoved ids => some (.chunkRemoved ids)
  | _ => none

/-- The file the sender has selected. -/
structure SelectedFile where
  name : Bytes
  data : Bytes
deriving DecidableEq, Repr

def SelectedFile.info (file : SelectedFile) : FileInfo where
  name := file.name
  size := file.data.length

/-- Where the loop of `startUpload` waits: for the bytes of a slice, for the connection to
send it, for its acceptance, for space in the queue after it. -/
inductive Phase where
  | idle
  | reading (i : ℕ)
  | waitingConnection (i : ℕ)
  | waitingAccepted (i : ℕ)
  | waitingSpace (i : ℕ)
  | done
  | failed
deriving DecidableEq, Repr

structure SessionSender where
  phase : Phase := .idle
  bufferUsed : ℕ := 0
  canSendChunk : Bool := true
  chunksSent : ℕ := 0
  highestChunkIndex : ℕ := 0
  uploadFinished : Bool := false
deriving DecidableEq, Repr

namespace SessionSender

/-- The bytes the encryption adds. -/
def CRYPTO_OVERHEAD : ℤ := 40

def maxChunkSize (config : Config) : ℤ :=
  (if config.transferSessionMaxChunkSize = 0 then 65536
    else config.transferSessionMaxChunkSize) - CRYPTO_OVERHEAD

def bufferMax (config : Config) : ℕ :=
  if config.transferSessionChunkQueueMaxSize = 0 then 10
  else config.transferSessionChunkQueueMaxSize

/-- `i < totalChunks`: the file has a slice number `i`. The number of slices is the size of
the file divided by the size of a slice, rounded up. -/
def hasSlice (config : Config) (file : SelectedFile) (i : ℕ) : Bool :=
  0 ≤ maxChunkSize config && i * maxChunkSize config < file.data.length

/-- The bytes of slice `i`. -/
def slice (config : Config) (file : SelectedFile) (i : ℕ) : Bytes :=
  (file.data.drop (i * (maxChunkSize config).toNat)).take (maxChunkSize config).toNat

variable (config : Config) (file : SelectedFile)

/-- The head of the loop with the number of the next slice. After the last one the frame
`upload_finished` is sent. -/
def next (p : SessionSender) (i : ℕ) : SessionSender × List Frame :=
  if hasSlice config file i then ({ p with phase := .reading i }, [])
  else ({ p with phase := .done, uploadFinished := true }, [.uploadFinished])

/-- The loop goes on after slice `i` was accepted. -/
def accepted (p : SessionSender) (i : ℕ) : SessionSender × List Frame :=
  let p := { p with chunksSent := p.chunksSent + 1 }
  if p.bufferUsed ≥ bufferMax config then
    ({ p with canSendChunk := false, phase := .waitingSpace i }, [])
  else p.next config file (i + 1)

/-- `handleFileSelect` and `startUpload`, up to the first time the loop waits. -/
def handleFileSelect (p : SessionSender) : SessionSender × List Frame :=
  match p.phase with
  | .idle =>
      let (p, frames) := { p with chunksSent := 0 }.next config file 0
      (p, .setFileInfo file.info :: frames)
  | _ => (p, [])

/-- The loop goes on with the bytes of a slice, encrypted as `payload`. -/
def onSliceRead (p : SessionSender) (isConnected : Bool) (payload : Bytes) :
    SessionSender × List Frame :=
  match p.phase with
  | .reading i =>
      if isConnected then ({ p with phase := .waitingAccepted i }, [.binary payload])
      else ({ p with phase := .waitingConnection i }, [])
  | _ => (p, [])

/-- The loop ends with an error: the slice could not be read, or the connection was not
re-established in time. -/
def onError (p : SessionSender) : SessionSender :=
  match p.phase with
  | .reading _ | .waitingConnection _ => { p with phase := .failed }
  | _ => p

/-- The WebSocket is open again: the slice is read once more. -/
def onOpen (p : SessionSender) : SessionSender :=
  match p.phase with
  | .waitingConnection i => { p with phase := .reading i }
  | _ => p

/-! ### The handlers of the messages -/

def onNewChunkAllowed (p : SessionSender) (status : Bool) : SessionSender × List Frame :=
  let p := { p with canSendChunk := status }
  match p.phase with
  | .waitingSpace i => if status then p.next config file (i + 1) else (p, [])
  | _ => (p, [])

def onNewChunkEvent (p : SessionSender) (index : ℕ) : SessionSender × List Frame :=
  let p := { p with
    highestChunkIndex := max p.highestChunkIndex index
    bufferUsed := p.bufferUsed + 1 }
  match p.phase with
  | .waitingAccepted i => p.accepted config file i
  | _ => (p, [])

def onChunkRemoved (p : SessionSender) (ids : List ℕ) : SessionSender :=
  { p with bufferUsed := p.bufferUsed - ids.length }

/-- The loop is resumed whether it waits for the acceptance of a slice or for space. -/
def onReconnectInit (p : SessionSender) (chunks : List ℕ) : SessionSender × List Frame :=
  let p := { p with
    bufferUsed := chunks.length
    canSendChunk := decide (chunks.length < bufferMax config) }
  match p.phase with
  | .waitingAccepted i => p.accepted config file i
  | .waitingSpace i => if p.canSendChunk then p.next config file (i + 1) else (p, [])
  | _ => (p, [])

/-- The page has no handler for a failure to add a chunk. -/
def onMessage (p : SessionSender) : Message → SessionSender × List Frame
  | .newChunk index _ => p.onNewChunkEvent config file index
  | .newChunkAllowed status => p.onNewChunkAllowed config file status
  | .chunkRemoved ids => (p.onChunkRemoved ids, [])
  | .addChunkFailure => (p, [])
  | .startInit chunks _ => p.onReconnectInit config file chunks

end SessionSender

/-- The page of the sender, the server, and the frames and messages between them. -/
structure Upload where
  history : History
  page : SessionSender := {}
  -- the page and the server are connected
  connected : Bool := true
  -- the server sends the events of the session over this connection
  attached : Bool := true
  toServer : List Frame := []
  toClient : List Message := []
  -- frames of lost connections that the server has still to process
  stale : List Frame := []

namespace Upload

variable (config : Config) (file : SelectedFile) (encryptChunk : Bytes → ℕ → Bytes)

def create (sender : ClientRef) (autoDropFreezeOnFirstChunk : Bool) : Upload where
  history := .create sender autoDropFreezeOnFirstChunk

/-- What happens next: the file is selected, a slice has been read and is encrypted with a
nonce, the loop fails, the server processes the next frame or a frame of a lost connection,
the page gets the next message, the connection is lost and the server still gets the frames
`kept`, it is re-established, the close handler of an earlier connection detaches the client
from this one, or the session performs an operation of somebody else. -/
inductive Step where
  | select
  | read (nonce : ℕ)
  | error
  | serve
  | serveStale (k : ℕ)
  | receive
  | lose (kept : List Frame)
  | reconnect
  | detach
  | session (op : TransferSession.Op)
deriving DecidableEq, Repr

/-- What the page does, and what it sends. -/
def act (u : Upload) (r : SessionSender × List Frame) : Upload :=
  { u with
    page := r.1
    toServer := if u.connected then u.toServer ++ r.2 else u.toServer }

/-- The messages made of the events the session has sent since `s`. -/
def messagesSince (s t : TransferSession) : List Message :=
  (t.events.drop s.events.length).filterMap Message.ofEvent

/-- The session performs an operation and sends the events to the page. -/
def perform (u : Upload) (op : TransferSession.Op) : Upload :=
  let history := u.history.step config op
  let messages := messagesSince u.history.session history.session
  { u with
    history
    toClient := if u.connected && u.attached then u.toClient ++ messages else u.toClient }

/-- The server sends messages over the connection of the page. -/
def send (u : Upload) (messages : List Message) : Upload :=
  { u with toClient := if u.connected then u.toClient ++ messages else u.toClient }

/-- The operation by which the server processes a frame. -/
def opOfFrame : Frame → TransferSession.Op
  | .binary data => .addChunk data
  | .setFileInfo info => .setFileInfo info
  | .uploadFinished => .setEndOfFile

/-- The answer to a chunk that was not added, over the connection it came from. -/
def failure (s : TransferSession) : Frame → List Message
  | .binary data => if s.listed && !(s.addChunk config data).2 then [.addChunkFailure] else []
  | _ => []

/-- The greeting of a new connection. -/
def startInit (s : TransferSession) : Message :=
  .startInit s.buffer.chunksIndex s.buffer.currentMaxChunkIndex

def step (u : Upload) : Step → Upload
  | .select => u.act (u.page.handleFileSelect config file)
  | .read nonce =>
      match u.page.phase with
      | .reading i =>
          u.act (u.page.onSliceRead u.connected
            (encryptChunk (SessionSender.slice config file i) nonce))
      | _ => u
  | .error => { u with page := u.page.onError }
  | .serve =>
      match u.toServer with
      | [] => u
      | frame :: rest =>
          ({ u with toServer := rest }.perform config (opOfFrame frame)).send
            (failure config u.history.session frame)
  | .serveStale k =>
      match u.stale[k]? with
      | none => u
      | some frame => { u with stale := u.stale.eraseIdx k }.perform config (opOfFrame frame)
  | .receive =>
      match u.toClient with
      | [] => u
      | message :: rest => { u with toClient := rest }.act (u.page.onMessage config file message)
  | .lose kept =>
      if u.connected && kept.isSublist u.toServer then
        { u with connected := false, toServer := [], toClient := [], stale := u.stale ++ kept }
      else u
  | .reconnect =>
      if !u.connected && u.history.session.listed
          && u.history.session.alive u.history.session.dataSender then
        { u with
          connected := true
          attached := true
          page := u.page.onOpen
          toClient := [startInit u.history.session] }
      else u
  | .detach => { u with attached := false }
  | .session op => if op.uploads then u else u.perform config op

end Upload

/-! ### A file for sample runs -/

namespace Upload.Sample

/-- Slices of two bytes. -/
def config : Config where
  transferSessionMaxChunkSize := 42
  transferSessionChunkQueueMaxSize := 3
  transferSessionMaxConsumerCount := 3

/-- A file of two slices. -/
def file : SelectedFile := { name := [0x66], data := [1, 2, 3] }

/-- A nonce of 24 bytes before the text and a tag of 16 bytes behind it. -/
def encryptChunk (text : Bytes) (nonce : ℕ) : Bytes :=
  List.replicate 24 (UInt8.ofNat nonce) ++ text ++ List.replicate 16 0

end Upload.Sample

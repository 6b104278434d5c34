import PutInPipe.Web.Sender
import PutInPipe.Web.Receiver

/-!
# A transfer

`Transfer` puts the upload of the sender together with the page of one receiver, `me`: the
WebSocket over which the server sends it the events of the session, and the downloads of its
chunks over HTTP. What the other receivers do are operations of the session, and so is what
the server makes of the frames and requests of `me` itself, other than downloads.

The page is loaded with the first message of its WebSocket, `start_init`. A request for a
chunk and its answer may take any time, and the answer may be lost.
-/

open TransferSessionDetails

/-- A message the page of a receiver gets from the server, of those it has a handler for. -/
inductive Notice where
  | startInit (state : ServerState) (fileInfo : Option FileInfo)
  | fileInfo (info : FileInfo)
  | uploadFinished
  | newChunk (index : ℕ)
  | chunkDownload (finished : Bool)
  | personalReceived
  | complete (status : TransferSessionCompleteType)
  | kicked
deriving DecidableEq, Repr

namespace Notice

/-- The message the client `me` makes of an event. -/
def ofEvent (me : ClientRef) : Event → Option Notice
  | .fileInfoUpdated info => some (.fileInfo info)
  | .chunkDownloadStarted _ _ => some (.chunkDownload false)
  | .chunkDownloadFinished publicId _ => some (.chunkDownload (publicId == me.publicId))
  | .newChunkIsAvailable index _ => some (.newChunk index)
  | .fileUploadFinished => some .uploadFinished
  | .complete type => some (.complete type)
  | .kicked client => if client = me then some .kicked else none
  | .personalReceivedUpdated client _ => if client = me then some .personalReceived else none
  | _ => none

/-- The event of the page that is loaded. -/
def event : Notice → SessionReceiver.Event
  | .startInit state _ => .startInit state
  | .fileInfo info => .fileInfo info
  | .uploadFinished => .uploadFinished
  | .newChunk index => .newChunk index
  | .chunkDownload finished => .chunkDownload finished
  | .personalReceived => .personalReceived
  | .complete status => .complete status
  | .kicked => .kicked

/-- The page after the message. Only `start_init` loads it. -/
def deliver (hasFSAccess : Bool) (decryptChunk : Bytes → Option Bytes) :
    Option SessionReceiver → Notice → Option SessionReceiver
  | some page, m => some (page.step decryptChunk m.event)
  | none, .startInit state info => some (.create hasFSAccess state info)
  | none, _ => none

end Notice

/-- The upload of the sender, and the receiver. -/
structure Transfer where
  upload : Upload
  page : Option SessionReceiver := none
  -- the WebSocket of the receiver is open
  attached : Bool := false
  toReceiver : List Notice := []
  -- the answers to the downloads of the receiver that are under way
  responses : List (ℕ × Bytes) := []

namespace Transfer

def history (t : Transfer) : History := t.upload.history

def session (t : Transfer) : TransferSession := t.history.session

def create (sender : ClientRef) (autoDropFreezeOnFirstChunk : Bool) : Transfer where
  upload := .create sender autoDropFreezeOnFirstChunk

/-- What happens next: a step of the upload, which may be an operation of somebody else, the
receiver connects, the server answers a download of the receiver, the page of the receiver
gets the next message or the answer to a download, or something else happens to it. -/
inductive Step where
  | upload (l : Upload.Step)
  | connect
  | answer (index : ℕ)
  | receive
  | downloaded (k j : ℕ) (isConnected : Bool)
  | page (e : SessionReceiver.Event)
deriving DecidableEq, Repr

/-- The events of the page that neither a message nor the data of a chunk cause. -/
def isLocal : SessionReceiver.Event → Bool
  | .awaited _ _ (.response _ (some _)) => false
  | .awaited _ _ _ | .saveDialog _ | .close | .closeTimer | .leave => true
  | _ => false

section

variable (config : Config) (file : SelectedFile) (encryptChunk : Bytes → ℕ → Bytes)
  (decryptChunk : Bytes → Option Bytes) (hasFSAccess : Bool) (me : ClientRef)

/-- The messages made of the events the session has sent since `s`. -/
def noticesSince (s t : TransferSession) : List Notice :=
  (t.events.drop s.events.length).filterMap (Notice.ofEvent me)

/-- The upload goes on, and the server sends the events to the receiver. -/
def advance (t : Transfer) (l : Upload.Step) : Transfer :=
  let upload := t.upload.step config file encryptChunk l
  let notices := noticesSince me t.session upload.history.session
  { t with
    upload
    toReceiver :=
      if t.attached && upload.history.session.alive me then t.toReceiver ++ notices
      else t.toReceiver }

/-- The greeting of a new connection. The page takes a file without a name for none. -/
def startInit (s : TransferSession) : Notice :=
  .startInit
    { uploadFinished := s.buffer.eof
      currentChunk := s.buffer.currentMaxChunkIndex
      chunks := s.buffer.chunksInfo.map ChunkInfo.index }
    (if s.fileInfo.name.isEmpty then none else some s.fileInfo)

/-- The receiver opens its WebSocket and is greeted. A receiver that is taken off the list
before that is destroyed, so that it does not get here. -/
def connect (t : Transfer) : Transfer :=
  let t := t.advance config file encryptChunk me (.session (.connect me))
  { t with attached := true, toReceiver := [startInit t.session] }

/-- The server answers a download. -/
def answer (t : Transfer) (index : ℕ) : Transfer :=
  { t.advance config file encryptChunk me (.session (.getChunk index me)) with
    responses := t.responses ++ ((t.session.getChunk index me).2.map (index, ·)).toList }

/-- The download `k` of the page gets the answer `j`, if it is one to its request. -/
def download (t : Transfer) (page : SessionReceiver) (k j : ℕ) (isConnected : Bool) : Transfer :=
  match t.responses[j]? with
  | none => t
  | some (index, data) =>
      if (page.fetches[k]?).map Fetch.index = some index then
        { t with
          page := some (page.step decryptChunk
            (.awaited k isConnected (.response 200 (some data))))
          responses := t.responses.eraseIdx j }
      else t

def step (t : Transfer) : Step → Transfer
  | .upload l => t.advance config file encryptChunk me l
  | .connect =>
      if !t.attached && t.session.listed && t.session.alive me && me ∈ t.session.dataReceivers then
        t.connect config file encryptChunk me
      else t
  | .answer index =>
      if t.session.listed && t.session.alive me then t.answer config file encryptChunk me index
      else t
  | .receive =>
      match t.toReceiver with
      | [] => t
      | m :: rest =>
          { t with toReceiver := rest, page := m.deliver hasFSAccess decryptChunk t.page }
  | .downloaded k j isConnected =>
      match t.page with
      | none => t
      | some page => t.download decryptChunk page k j isConnected
  | .page e => if isLocal e then { t with page := t.page.map (·.step decryptChunk e) } else t

end

/-- The step loses neither the connection of the sender nor that of the receiver. -/
def Step.keepsConnections (me : ClientRef) : Step → Bool
  | .upload (.lose _) | .upload .detach | .page .close => false
  | .upload (.session (.disconnect client)) => client ≠ me
  | _ => true

/-- Every blob that the page of the receiver has reported is the file of the sender. -/
def ReportsFile (file : SelectedFile) (t : Transfer) : Prop :=
  ∀ page, t.page = some page → ∀ r ∈ page.reports, ∀ blob savedToDisk,
    r.status = .ok (some blob) savedToDisk → blob = file.data

end Transfer

import PutInPipe.Session.Kicks
import PutInPipe.Server.Basic
import PutInPipe.Server.Json

/-!
# Messages

`WebAPI` is the server as the handler of WebSocket messages sees it: the listed clients with
what the handler reads and changes of them, and the sessions. A message or a request is one
step. A session that is off the list stays in `sessions`, where nothing finds it any more.

A client that is removed from `ClientList` is destroyed in the same step. When the client
removes itself by its acknowledgement, the handler that has the last reference to it does
nothing more. The `complete` event of an ended session makes its clients leave, by their
acknowledgement or by a timer. These departures are steps of their own, `removeClient`.
-/

open TransferSessionDetails

/-- What the handlers read and change of a client, besides its ids. `pendingAcks` has the
numbers of the events it was told to acknowledge, all of which make it leave. -/
structure ClientState where
  name : String := ""
  joinedSession : String := ""
  currentChunkIndex : ℕ := 0
  nextAckId : ℕ := 1
  pendingAcks : List ℕ := []
deriving DecidableEq, Repr

namespace ClientState

def NAME_MAX_LENGTH : ℕ := 20

def setName (client : ClientState) (name : String) : ClientState :=
  if name = "" then client
  else if name.length > NAME_MAX_LENGTH then
    { client with name := String.ofList (name.toList.take NAME_MAX_LENGTH) }
  else { client with name }

def setCurrentChunkIndex (client : ClientState) (index : ℕ) : ClientState :=
  { client with currentChunkIndex := index }

end ClientState

structure WebAPI where
  -- all clients made so far, and those that are listed
  clients : List ClientRef := []
  clientList : List ClientRef := []
  client : ClientRef → ClientState := fun _ => {}
  sessions : List TransferSession := []

namespace WebAPI

open Server (Response Body)

inductive CloseStatusCode where
  | normalClosure
  | closedAbnormally
  | unacceptableData
deriving DecidableEq, Repr

/-- What the handler of a message sends to the connection it came from. -/
inductive Reply where
  | nothing
  | closed (reason : String) (code : CloseStatusCode)
  | chunk (data : Bytes)
  | addingChunkFailure
  | setFileInfoFailure
  | getChunkFailure (available : List ChunkInfo)
  | unknownAction (action : String)
deriving DecidableEq, Repr

inductive Frame where
  | binary (data : Bytes)
  | text (data : Bytes)
deriving DecidableEq, Repr

/-! ### The two lists -/

/-- `ClientList::get`. -/
def getClient (s : WebAPI) (id : String) : Option ClientRef := s.clientList.find? (·.id == id)

/-- The client a request comes from. -/
def identified (s : WebAPI) (cookie : String) : Option ClientRef :=
  if cookie = "" then none else s.getClient cookie

/-- `TransferSessionList::get`. -/
def getSession (s : WebAPI) (id : String) : Option ℕ :=
  s.sessions.findIdx? (fun t => t.listed && t.sessionId == id)

def setClient (s : WebAPI) (c : ClientRef) (client : ClientState) : WebAPI :=
  { s with client := Function.update s.client c client }

/-- Every session does the same. -/
def onSessions (config : Server.Config) (s : WebAPI) (op : TransferSession.Op) : WebAPI :=
  { s with sessions := s.sessions.map (·.step config.toConfig op) }

/-- `ClientList::remove`. The client is destroyed, of which the sessions it has joined are
notified. -/
def removeClient (config : Server.Config) (s : WebAPI) (id : String) : WebAPI :=
  match s.getClient id with
  | none => s
  | some c => { s with clientList := s.clientList.erase c }.onSessions config (.destroyClient c)

/-- `Client::sendTextWithAck`, for an event whose acknowledgement removes the client. -/
def sendTextWithAck (config : Server.Config) (s : WebAPI) (connected : Bool) (c : ClientRef) :
    WebAPI :=
  let client := { s.client c with nextAckId := (s.client c).nextAckId + 1 }
  if connected then
    s.setClient c { client with pendingAcks := client.pendingAcks ++ [(s.client c).nextAckId] }
  else (s.setClient c client).removeClient config c.id

/-- `Client::processAck`. -/
def processAck (config : Server.Config) (s : WebAPI) (c : ClientRef) (ackId : ℕ) : WebAPI :=
  if ackId ∈ (s.client c).pendingAcks then
    (s.setClient c { s.client c with pendingAcks := (s.client c).pendingAcks.erase ackId }
      ).removeClient config c.id
  else s

/-- A method of a listed session is called. A client it kicks is sent `kicked`. -/
def perform (config : Server.Config) (s : WebAPI) (k : ℕ) (op : TransferSession.Op) : WebAPI :=
  match s.sessions[k]? with
  | none => s
  | some t =>
      let s := { s with sessions := s.sessions.set k (t.step config.toConfig op) }
      if t.listed then
        match t.kickedBy op with
        | some c => s.sendTextWithAck config (decide (c ∈ t.connected)) c
        | none => s
      else s

/-- What is read of a session. -/
def ofSession {α : Type} (s : WebAPI) (k : ℕ) (default : α) (read : TransferSession → α) : α :=
  (s.sessions[k]?.map read).getD default

/-- The session was created by the client, and its creator exists. -/
def isCreator (s : WebAPI) (k : ℕ) (c : ClientRef) : Bool :=
  s.ofSession k false (fun t => t.alive t.dataSender && t.dataSender.id == c.id)

/-! ### The text of a message -/

inductive Action where
  | setFileInfo
  | uploadFinished
  | kickReceiver
  | terminateSession
  | dropFreeze
  | newName
  | getChunk
  | confirmChunk
  | ack
  | unknown (action : String)
deriving DecidableEq, Repr

def Action.ofString (action : String) : Action :=
  if action = "set_file_info" then .setFileInfo
  else if action = "upload_finished" then .uploadFinished
  else if action = "kick_receiver" then .kickReceiver
  else if action = "terminate_session" then .terminateSession
  else if action = "drop_freeze" then .dropFreeze
  else if action = "new_name" then .newName
  else if action = "get_chunk" then .getChunk
  else if action = "confirm_chunk" then .confirmChunk
  else if action = "ack" then .ack
  else .unknown action

def exception (what : String) : Reply := .closed ("Exception: " ++ what) .unacceptableData

/-- The object has the key, and its value is of the type. -/
def hasField (json : Rvalue) (key : String) (isType : Rvalue → Bool) : Except String Bool := do
  if !(← json.has key) then return false
  return isType (← json.get key)

/-- The tests `wsOnMessage` makes before it calls `internalWsMessageProcessing`, and the
arguments of the call. -/
def envelope (json : Rvalue) : Except Reply (Action × Rvalue) :=
  match hasField json "action" Rvalue.isString with
  | .error what => .error (exception what)
  | .ok false => .error
      (.closed "Invalid JSON: the 'action' string must be passed" .unacceptableData)
  | .ok true =>
      match hasField json "data" Rvalue.isObject with
      | .error what => .error (exception what)
      | .ok false => .error
          (.closed "Invalid JSON: the 'data' object must be passed" .unacceptableData)
      | .ok true =>
          match json.get "action" >>= Rvalue.s, json.get "data" with
          | .ok action, .ok data => .ok (Action.ofString action, data)
          | .error what, _ | _, .error what => .error (exception what)

/-! ### The handlers of messages -/

/-- What a handler that may throw leaves behind: the state and the reply or the exception. -/
abbrev Outcome := WebAPI × Except String Reply

/-- Go on with the value that was read, or throw. -/
def reading {α : Type} (s : WebAPI) (value : Except String α) (next : α → Outcome) : Outcome :=
  match value with
  | .error what => (s, .error what)
  | .ok value => next value

/-- The guard of an action that is for the creator. -/
def creatorOnly (s : WebAPI) (k : ℕ) (c : ClientRef) (refusal : Reply) (next : Outcome) :
    Outcome :=
  if s.isCreator k c then next else (s, .ok refusal)

section Handlers

variable (config : Server.Config) (uninitialized : ℕ) (s : WebAPI) (c : ClientRef) (k : ℕ)
  (data : Rvalue)

def onSetFileInfo : Outcome :=
  s.creatorOnly k c
    (.closed "Only the session creator can set the file information" .unacceptableData)
    (s.reading (data.get "name" >>= Rvalue.s) fun name =>
      s.reading (data.get "size" >>= Rvalue.u uninitialized) fun size =>
        (s.perform config k (.setFileInfo ⟨bytes name, size⟩),
          .ok (if s.ofSession k false (fun t => (t.setFileInfo ⟨bytes name, size⟩).2) then .nothing
            else .setFileInfoFailure)))

def onUploadFinished : Outcome :=
  s.creatorOnly k c
    (.closed "Only the session creator can set the upload finish" .unacceptableData)
    (s.perform config k .setEndOfFile, .ok .nothing)

def onKickReceiver : Outcome :=
  s.creatorOnly k c
    (.closed "Only the session creator can delete participants" .unacceptableData)
    (s.reading (data.get "id" >>= Rvalue.s) fun publicId =>
      if c.publicId = publicId then
        (s, .ok (.closed "You can't delete yourself" .unacceptableData))
      else (s.perform config k (.removeReceiver publicId), .ok .nothing))

def onTerminateSession : Outcome :=
  s.creatorOnly k c
    (.closed "Only the creator of the session can forcibly terminate it" .unacceptableData)
    (s.perform config k .manualTerminate, .ok .nothing)

def onDropFreeze : Outcome :=
  s.creatorOnly k c .nothing (s.perform config k .dropInitialChunksFreeze, .ok .nothing)

def onNewName : Outcome :=
  s.reading (data.get "name" >>= Rvalue.s) fun name =>
    (s.setClient c ((s.client c).setName name), .ok .nothing)

def onGetChunk : Outcome :=
  s.reading (data.get "index" >>= Rvalue.u uninitialized) fun index =>
    (s.perform config k (.getChunk index c),
      .ok (s.ofSession k .nothing (fun t =>
        match (t.getChunk index c).2 with
        | some chunk => .chunk chunk
        | none => .getChunkFailure t.buffer.chunksInfo)))

def onConfirmChunk : Outcome :=
  s.reading (data.get "index" >>= Rvalue.u uninitialized) fun index =>
    ((s.setClient c ((s.client c).setCurrentChunkIndex index)).perform config k
      (.setChunkAsReceived index c), .ok .nothing)

def onAck : Outcome :=
  s.reading (data.has "id") fun hasId =>
    if hasId then
      s.reading (data.get "id" >>= Rvalue.u uninitialized) fun id =>
        (s.processAck config c id, .ok .nothing)
    else (s, .ok .nothing)

def internalWsMessageProcessing : Action → Outcome
  | .setFileInfo => s.onSetFileInfo config uninitialized c k data
  | .uploadFinished => s.onUploadFinished config c k
  | .kickReceiver => s.onKickReceiver config c k data
  | .terminateSession => s.onTerminateSession config c k
  | .dropFreeze => s.onDropFreeze config c k
  | .newName => s.onNewName c data
  | .getChunk => s.onGetChunk config uninitialized c k data
  | .confirmChunk => s.onConfirmChunk config uninitialized c k data
  | .ack => s.onAck config uninitialized c data
  | .unknown action => (s, .ok (.unknownAction action))

/-- The part of `wsOnMessage` for binary data. -/
def onBinary (binaryData : Bytes) : WebAPI × Reply :=
  if !s.ofSession k false (fun t => t.alive t.dataSender) then
    (s, .closed "It is impossible to verify the session creator" .unacceptableData)
  else if !s.isCreator k c then
    (s, .closed "Only the session creator can send binary data" .unacceptableData)
  else
    (s.perform config k (.addChunk binaryData),
      if s.ofSession k false (fun t => (t.addChunk config.toConfig binaryData).2) then .nothing
      else .addingChunkFailure)

/-- The part of `wsOnMessage` for text, with what `crow::json::load` returns. -/
def onText : Option Rvalue → WebAPI × Reply
  | none => (s, .closed "Text messages are expected only in JSON format" .unacceptableData)
  | some json =>
      match envelope json with
      | .error reply => (s, reply)
      | .ok (action, data) =>
          match s.internalWsMessageProcessing config uninitialized c k data action with
          | (s, .ok reply) => (s, reply)
          | (s, .error what) => (s, exception what)

def wsOnMessage (load : Bytes → Option Rvalue) (frame : Frame) : WebAPI × Reply :=
  if c ∉ s.clientList then (s, .closed "Client not found" .closedAbnormally)
  else if (s.client c).joinedSession = "" then
    (s, .closed "Protocol error: it is impossible to receive data before connecting to the session"
      .closedAbnormally)
  else
    match s.getSession (s.client c).joinedSession with
    | none => (s, .closed "Session not found" .normalClosure)
    | some k =>
        match frame with
        | .binary binaryData => s.onBinary config c k binaryData
        | .text text => s.onText config uninitialized c k (load text)

end Handlers

/-! ### Requests -/

section Requests

variable (config : Server.Config) (s : WebAPI)

section

variable (cookie : String)

def sessionChunkPost (body : Bytes) : WebAPI × Response :=
  match s.identified cookie with
  | none => (s, ⟨401, "You have not been identified"⟩)
  | some c =>
      if (s.client c).joinedSession = "" then
        (s, ⟨400, "You are not connected to the transfer session"⟩)
      else
        match s.getSession (s.client c).joinedSession with
        | none => (s, ⟨500, "Session not found"⟩)
        | some k =>
            if !s.isCreator k c then (s, ⟨403, "Only the session creator can send data"⟩)
            else if body.length > config.transferSessionMaxChunkSize then
              (s, ⟨400, "The data size exceeds the maximum allowed chunk size"⟩)
            else
              (s.perform config k (.addChunk body),
                if s.ofSession k false (fun t => (t.addChunk config.toConfig body).2) then ⟨202, ""⟩
                else ⟨421, "Adding a chunk failed"⟩)

/-- `sessionChunkGet`, for a request that has the number of a chunk. -/
def sessionChunkGet (index : ℕ) : WebAPI :=
  match s.identified cookie with
  | none => s
  | some c =>
      if (s.client c).joinedSession = "" then s
      else
        match s.getSession (s.client c).joinedSession with
        | none => s
        | some k => s.perform config k (.getChunk index c)

end

/-- `Client::joinSession`. -/
def joinSession (c : ClientRef) (id : String) : WebAPI × Bool :=
  if id = "" then (s, false)
  else if (s.client c).joinedSession ≠ "" then (s, false)
  else (s.setClient c { s.client c with joinedSession := id }, true)

def possibleToCreateNew : Bool :=
  config.transferSessionCountLimit > (s.sessions.filter (·.listed)).length

def sessionCreate (cookie : String) (body : Body) : WebAPI × Response :=
  match s.identified cookie with
  | none => (s, ⟨401, "You have not been identified"⟩)
  | some c =>
      if (s.client c).joinedSession ≠ "" then
        (s, ⟨403, "You are already a participant in the session"⟩)
      else if !s.possibleToCreateNew config then
        (s, ⟨503, "The maximum number of sessions has been reached, please try again later"⟩)
      else
        match body with
        | .invalid => (s, ⟨400, "Invalid JSON body"⟩)
        | .notBoolean => (s, ⟨400, ".auto_drop_freeze must be a boolean"⟩)
        | .options auto =>
            if (s.getSession c.publicId).isSome then (s, ⟨500, "Session creation failed"⟩)
            else
              -- a session that its creator cannot join is taken off the list at once
              match s.joinSession c c.publicId with
              | (s, false) => (s, ⟨500, "Session creation failed"⟩)
              | (s, true) =>
                  ({ s with sessions := s.sessions ++ [TransferSession.create c auto] },
                    ⟨201, c.publicId⟩)

/-- The end of `sessionJoin`, after its tests. -/
def letIn (c : ClientRef) (k : ℕ) (id : String) : WebAPI × Response :=
  if !s.ofSession k false (fun t => (t.addReceiver config.toConfig c).2) then
    (s, ⟨500, "Couldn't join the session"⟩)
  else
    match (s.perform config k (.addReceiver c)).joinSession c id with
    | (s, false) => (s, ⟨500, "Couldn't join the session (2)"⟩)
    | (s, true) => (s, ⟨202, id⟩)

def sessionJoin (cookie : String) (id? : Option String) : WebAPI × Response :=
  match s.identified cookie with
  | none => (s, ⟨401, "You have not been identified"⟩)
  | some c =>
      match id? with
      | none => (s, ⟨400, "You need to send the session ID"⟩)
      | some id =>
          match s.getSession id with
          | none => (s, ⟨404, "Session not found"⟩)
          | some k =>
              if (s.client c).joinedSession ≠ "" then
                if id = (s.client c).joinedSession then (s, ⟨202, id⟩)
                else (s, ⟨400, "You are already a participant in some another session"⟩)
              else if s.ofSession k false (fun t => t.buffer.someChunksWasRemoved
                  && !t.liveReceivers.any (·.id == c.id)) then
                (s, ⟨403, "It is impossible to join the session"⟩)
              else s.letIn config c k id

/-- `ClientList::create` and `Client::setName`. -/
def internalCreateClient (id name : String) : WebAPI × Response :=
  if (s.getClient id).isSome then (s, ⟨403, "The captcha has already been used"⟩)
  else
    let c : ClientRef := ⟨s.clients.length, id, config.sign id⟩
    ({ s with
        clients := s.clients ++ [c]
        clientList := s.clientList ++ [c] }.setClient c ((s.client c).setName name),
      ⟨201, config.sign id⟩)

end Requests

/-! ### Runs -/

/-- What happens to the server. `letIn` is the end of a request to join a session that has made
its tests before some earlier steps. `removeClient` is the timer of a client, or the fallback
timer of an event it did not acknowledge. -/
inductive Input where
  | internalCreateClient (id name : String)
  | sessionCreate (cookie : String) (body : Body)
  | sessionJoin (cookie : String) (id? : Option String)
  | letIn (c : ClientRef) (id : String)
  | sessionChunkPost (cookie : String) (body : Bytes)
  | sessionChunkGet (cookie : String) (index : ℕ)
  | message (c : ClientRef) (frame : Frame) (uninitialized : ℕ)
  | connect (c : ClientRef)
  | disconnect (c : ClientRef)
  | removeClient (id : String)
  | freezeTimeout (k : ℕ)
  | lifetimeTimeout (k : ℕ)

def step (config : Server.Config) (load : Bytes → Option Rvalue) (s : WebAPI) : Input → WebAPI
  | .internalCreateClient id name => (s.internalCreateClient config id name).1
  | .sessionCreate cookie body => (s.sessionCreate config cookie body).1
  | .sessionJoin cookie id? => (s.sessionJoin config cookie id?).1
  | .letIn c id =>
      match s.getSession id with
      | some k => if c ∈ s.clientList then (s.letIn config c k id).1 else s
      | none => s
  | .sessionChunkPost cookie body => (s.sessionChunkPost config cookie body).1
  | .sessionChunkGet cookie index => s.sessionChunkGet config cookie index
  | .message c frame uninitialized => (s.wsOnMessage config uninitialized c load frame).1
  | .connect c => if c ∈ s.clientList then s.onSessions config (.connect c) else s
  | .disconnect c => s.onSessions config (.disconnect c)
  | .removeClient id => s.removeClient config id
  | .freezeTimeout k => s.perform config k .dropInitialChunksFreeze
  | .lifetimeTimeout k => s.perform config k .lifetimeTimeout

end WebAPI

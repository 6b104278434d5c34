import PutInPipe.Buffer.Basic

/-!
# Transfer sessions

`TransferSession` is the object of that name together with the part of the server its
methods read and change: which client objects have been destroyed, so that the weak
pointers to them are expired, which clients have a live WebSocket, whether
`TransferSessionList` still holds the session, and the events the session has sent, in
order.

A method is a function on `TransferSession`. `destroyClient` is what happens to the
session when the last reference to a client object is dropped: the destructor notifies
the sessions the client has joined, which call `removeReceiver`. Kicking a client without
a live WebSocket destroys it inside `removeReceiver`.
-/

open TransferSessionDetails

/-- A `Client` object. `ref` tells objects apart; `publicId` is the signature of `id`. -/
structure ClientRef where
  ref : ℕ
  id : String
  publicId : String
deriving DecidableEq, Repr

structure FileInfo where
  name : Bytes := []
  size : ℕ := 0
deriving DecidableEq, Repr

def FileInfo.NAME_MAX_LENGTH : ℕ := 255

inductive TransferSessionCompleteType where
  | ok
  | timeout
  | senderIsGone
  | noReceivers
deriving DecidableEq, Repr

/-- What a session sends: the events of its two publishers, and the two messages sent to
one client alone, `kicked` and `personalReceivedUpdated`. -/
inductive Event where
  | newReceiver (client : ClientRef)
  | receiverRemoved (publicId : String)
  | fileInfoUpdated (info : FileInfo)
  | chunkDownloadStarted (publicId : String) (chunkId : ℕ)
  | chunkDownloadFinished (publicId : String) (chunkId : ℕ)
  | newChunkIsAvailable (index size : ℕ)
  | chunksWasRemoved (ids : List ℕ)
  | bytesInUpdated (value : ℕ)
  | bytesOutUpdated (value : ℕ)
  | chunksAreUnfrozen
  | fileUploadFinished
  | complete (type : TransferSessionCompleteType)
  | newChunkIsAllowed (status : Bool)
  | kicked (client : ClientRef)
  | personalReceivedUpdated (client : ClientRef) (bytes : ℕ)
deriving DecidableEq, Repr

structure TransferSession where
  dataSender : ClientRef
  dataReceivers : List ClientRef := []
  fileInfo : FileInfo := {}
  buffer : Buffer := {}
  autoDropFreezeOnFirstChunk : Bool
  autoDropFreezeFired : Bool := false
  completeType : TransferSessionCompleteType := .ok
  -- the clients subscribed to the session; the session is subscribed to each of them
  subscribers : List ClientRef
  bytesReceived : ClientRef → ℕ := fun _ => 0
  connected : List ClientRef := []
  destroyed : List ClientRef := []
  listed : Bool := true
  events : List Event := []

namespace TransferSession

/-- The session `TransferSessionList::create` makes for a sender. -/
def create (sender : ClientRef) (autoDropFreezeOnFirstChunk : Bool) : TransferSession where
  dataSender := sender
  autoDropFreezeOnFirstChunk
  subscribers := [sender]

/-- A weak pointer to the client can be locked. -/
def alive (s : TransferSession) (c : ClientRef) : Bool := c ∉ s.destroyed

/-- The receivers whose weak pointers can be locked. -/
def liveReceivers (s : TransferSession) : List ClientRef := s.dataReceivers.filter s.alive

/-- The weak pointers to a client expire. -/
def expire (s : TransferSession) (client : ClientRef) : TransferSession :=
  { s with destroyed := client :: s.destroyed }

/-- Send an event. -/
def notify (s : TransferSession) (e : Event) : TransferSession :=
  { s with events := s.events ++ [e] }

/-- Send `chunksWasRemoved`, unless the list is empty. -/
def notifyRemoved (s : TransferSession) (removedChunks : List ℕ) : TransferSession :=
  if removedChunks.isEmpty then s else s.notify (.chunksWasRemoved removedChunks)

/-- `TransferSessionList::remove`, which the methods call with the id of the session. -/
def removeFromList (s : TransferSession) : TransferSession := { s with listed := false }

/-- Set the status of the `complete` event and take the session off the list. -/
def terminate (s : TransferSession) (type : TransferSessionCompleteType) : TransferSession :=
  { s with completeType := type }.removeFromList

/-! ### Joining -/

def addSubscriber (s : TransferSession) (c : ClientRef) : TransferSession :=
  if c ∈ s.subscribers then s else { s with subscribers := s.subscribers ++ [c] }

def addReceiver (config : Config) (s : TransferSession) (client : ClientRef) :
    TransferSession × Bool :=
  if s.dataReceivers.any (fun c => s.alive c && c.id == client.id) then (s, false)
  else
    let (buffer, added) := s.buffer.addNewToExpectedConsumers config client.publicId
    if !added then ({ s with buffer }, false)
    else
      let s := { s with buffer, dataReceivers := s.dataReceivers ++ [client] }
      ((s.addSubscriber client).notify (.newReceiver client), true)

/-! ### Leaving -/

/-- The entries of the receiver list that survive the loop of `removeReceiver`. -/
def remaining (s : TransferSession) (publicId : String) : List ClientRef :=
  s.dataReceivers.filter (fun c => s.alive c && c.publicId != publicId)

/-- The live receiver the loop of `removeReceiver` takes off the list last. -/
def removedClient (s : TransferSession) (publicId : String) : Option ClientRef :=
  (s.dataReceivers.filter (fun c => s.alive c && c.publicId == publicId)).getLast?

/-- The end of `removeReceiver`: terminate when no receivers are left. -/
def terminateIfDeserted (s : TransferSession) (noReceiversLeft : Bool) : TransferSession :=
  if noReceiversLeft then
    if s.autoDropFreezeOnFirstChunk then s.terminate .ok
    else if s.buffer.someChunksWasRemoved || !s.buffer.initialChunksFreezing then
      if s.buffer.eof && s.buffer.chunkCount == 0 then s.terminate .ok
      else s.terminate .noReceivers
    else s
  else s

/-- `removeReceiver`, with `kick` for what the removed client does with the `kicked`
message. -/
def removeReceiverWith (kick : ClientRef → TransferSession → TransferSession)
    (publicId : String) (s : TransferSession) : TransferSession :=
  let client? := s.removedClient publicId
  let s := { s with dataReceivers := s.remaining publicId }
  let noReceiversLeft := s.dataReceivers.isEmpty
  let (buffer, removedChunks) := s.buffer.removeOneFromExpectedConsumers publicId
  let s := { s with buffer }.notifyRemoved removedChunks
  let s := match client? with
    | some client => kick client (s.notify (.kicked client))
    | none => s
  (s.notify (.receiverRemoved publicId)).terminateIfDeserted noReceiversLeft

/-- The test of `update` by which the destroyed client is taken for the sender. -/
def takenForSender (s : TransferSession) (publicId : String) : Bool :=
  !s.alive s.dataSender || s.dataSender.publicId == publicId

/-- `update(Event::ClientInternal::destroyed, publicId)`. -/
def update (removeReceiver : String → TransferSession → TransferSession) (publicId : String)
    (s : TransferSession) : TransferSession :=
  if s.takenForSender publicId then
    if s.buffer.eof then
      if s.dataReceivers.isEmpty then s.terminate .noReceivers else s
    else s.terminate .senderIsGone
  else removeReceiver publicId s

/-- A client object is destroyed: the weak pointers to it expire, and then the session is
notified if it is subscribed to the client. -/
def destroyWith (removeReceiver : String → TransferSession → TransferSession)
    (client : ClientRef) (s : TransferSession) : TransferSession :=
  let s := s.expire client
  if client ∈ s.subscribers then s.update removeReceiver client.publicId else s

/-- What the `kicked` message does: with a live WebSocket the client waits for the
acknowledgement, without one it is destroyed at once. The call of `removeReceiver` from
its destructor finds no receiver to kick. -/
def kick (client : ClientRef) (s : TransferSession) : TransferSession :=
  if client ∈ s.connected then s
  else s.destroyWith (fun id s => s.removeReceiverWith (fun _ s => s) id) client

def removeReceiver (publicId : String) (s : TransferSession) : TransferSession :=
  s.removeReceiverWith kick publicId

def destroyClient (client : ClientRef) (s : TransferSession) : TransferSession :=
  s.destroyWith removeReceiver client

/-! ### File information and chunks -/

/-- The bytes `setFileInfo` replaces in a file name. -/
def forbiddenInName (c : UInt8) : Bool :=
  c < 0x20 || c == 0x2f || c == 0x5c || c == 0x3a || c == 0x2a || c == 0x3f || c == 0x22
    || c == 0x3c || c == 0x3e || c == 0x7c

def setFileInfo (s : TransferSession) (info : FileInfo) : TransferSession × Bool :=
  if info.name.isEmpty || info.name.length > FileInfo.NAME_MAX_LENGTH then (s, false)
  else if info.size == 0 then (s, false)
  else
    let name := info.name.map (fun c => if forbiddenInName c then 0x5f else c)
    let s := { s with fileInfo := { info with name } }
    (s.notify (.fileInfoUpdated s.fileInfo), true)

def addChunk (config : Config) (s : TransferSession) (binaryData : Bytes) :
    TransferSession × Bool :=
  let oldAllowed := s.buffer.newChunkIsAllowed config
  let (buffer, newIndex) := s.buffer.addChunk config binaryData
  let s := { s with buffer }
  if newIndex == 0 then (s, false)
  else
    let s := s.notify (.newChunkIsAvailable newIndex binaryData.length)
    let newAllowed := s.buffer.newChunkIsAllowed config
    let s := if oldAllowed != newAllowed then s.notify (.newChunkIsAllowed newAllowed) else s
    (s.notify (.bytesInUpdated s.buffer.bytesIn), true)

def getChunk (s : TransferSession) (index : ℕ) (client : ClientRef) :
    TransferSession × Option Bytes :=
  let (buffer, data) := s.buffer.get index
  let s := { s with buffer }
  match data with
  | none => (s, none)
  | some data => (s.notify (.chunkDownloadStarted client.publicId index), some data)

def dropInitialChunksFreeze (config : Config) (s : TransferSession) : TransferSession :=
  let (buffer, removedChunks, dropped) := s.buffer.setInitialChunksFreezingDropped
  let s := { s with buffer }
  if !dropped then s
  else if s.dataReceivers.isEmpty then s.terminate .noReceivers
  else if s.fileInfo.name.isEmpty then s.terminate .senderIsGone
  else
    let s := s.notifyRemoved removedChunks
    let s := s.notify (.newChunkIsAllowed (s.buffer.newChunkIsAllowed config))
    let s := s.notify .chunksAreUnfrozen
    if s.buffer.chunkCount == 0 && s.buffer.eof then s.removeFromList else s

/-- `Client::incrementReceived`. -/
def incrementReceived (s : TransferSession) (client : ClientRef) (bytes : ℕ) :
    TransferSession :=
  let s := { s with
    bytesReceived := Function.update s.bytesReceived client (s.bytesReceived client + bytes) }
  s.notify (.personalReceivedUpdated client (s.bytesReceived client))

/-- The first step of `setChunkAsReceived`: with the automatic mode the first confirmation
drops the freeze. -/
def autoDropFreeze (config : Config) (s : TransferSession) : TransferSession :=
  if s.autoDropFreezeOnFirstChunk && s.buffer.initialChunksFreezing
      && !s.autoDropFreezeFired then
    { s with autoDropFreezeFired := true }.dropInitialChunksFreeze config
  else s

/-- The rest of `setChunkAsReceived`. -/
def confirmChunk (config : Config) (s : TransferSession) (index : ℕ) (client : ClientRef) :
    TransferSession :=
  let (buffer, chunk) := s.buffer.get index
  let s := { s with buffer }
  let s := match chunk with
    | some data => s.incrementReceived client data.length
    | none => s
  let oldAllowed := s.buffer.newChunkIsAllowed config
  let (buffer, removedChunks, found) := s.buffer.setChunkAsReceived index
  let s := { s with buffer }
  if !found then s
  else
    let newCount := s.buffer.chunkCount
    let s := s.notifyRemoved removedChunks
    let newAllowed := s.buffer.newChunkIsAllowed config
    let s := if oldAllowed != newAllowed then s.notify (.newChunkIsAllowed newAllowed) else s
    let s := s.notify (.bytesOutUpdated s.buffer.bytesOut)
    let s := s.notify (.chunkDownloadFinished client.publicId index)
    if newCount == 0 && s.buffer.eof then s.removeFromList else s

def setChunkAsReceived (config : Config) (s : TransferSession) (index : ℕ)
    (client : ClientRef) : TransferSession :=
  (s.autoDropFreeze config).confirmChunk config index client

def setEndOfFile (s : TransferSession) : TransferSession :=
  if s.buffer.eof then s
  else
    let s := { s with buffer := s.buffer.setEndOfFile }.notify .fileUploadFinished
    if s.buffer.chunkCount == 0 then s.removeFromList else s

def manualTerminate (s : TransferSession) : TransferSession := s.terminate .senderIsGone

def setTimedout (s : TransferSession) : TransferSession := { s with completeType := .timeout }

/-! ### Sequential runs -/

/-- The operations on a session. `lifetimeTimeout` is the lifetime timer of
`TransferSessionList`. -/
inductive Op where
  | addChunk (binaryData : Bytes)
  | addReceiver (client : ClientRef)
  | removeReceiver (publicId : String)
  | destroyClient (client : ClientRef)
  | setFileInfo (info : FileInfo)
  | getChunk (index : ℕ) (client : ClientRef)
  | setChunkAsReceived (index : ℕ) (client : ClientRef)
  | setEndOfFile
  | dropInitialChunksFreeze
  | manualTerminate
  | lifetimeTimeout
  | connect (client : ClientRef)
  | disconnect (client : ClientRef)
deriving DecidableEq, Repr

/-- The clients an operation is called with exist. -/
def enabled (s : TransferSession) : Op → Bool
  | .addReceiver client | .destroyClient client | .getChunk _ client
  | .setChunkAsReceived _ client | .connect client | .disconnect client => s.alive client
  | _ => true

def apply (config : Config) (s : TransferSession) : Op → TransferSession
  | .addChunk binaryData => (s.addChunk config binaryData).1
  | .addReceiver client => (s.addReceiver config client).1
  | .removeReceiver publicId => s.removeReceiver publicId
  | .destroyClient client => s.destroyClient client
  | .setFileInfo info => (s.setFileInfo info).1
  | .getChunk index client => (s.getChunk index client).1
  | .setChunkAsReceived index client => s.setChunkAsReceived config index client
  | .setEndOfFile => s.setEndOfFile
  | .dropInitialChunksFreeze => s.dropInitialChunksFreeze config
  | .manualTerminate => s.manualTerminate
  | .lifetimeTimeout => s.setTimedout.removeFromList
  | .connect client => { s with connected := client :: s.connected }
  | .disconnect client => { s with connected := s.connected.filter (· != client) }

/-- The destructor of a session that is no longer listed publishes `complete`. -/
def finish (s : TransferSession) : TransferSession :=
  if s.listed then s else s.notify (.complete s.completeType)

/-- One operation of a sequential run. A session that is not listed has been destroyed. -/
def step (config : Config) (s : TransferSession) (op : Op) : TransferSession :=
  if s.listed && s.enabled op then (s.apply config op).finish else s

end TransferSession

import PutInPipe.Session.Run

/-!
# The server

A `Server` is the list of clients, the list of sessions and the requests that are being
handled. Sessions are objects: one that is off the list lives on until nobody refers to it
any more, and only then does its destructor run. A session is named by the position at
which it was created, and a client by its `ClientRef`.

A request to create or to join a session is the sequence of calls of its handler, and other
steps may come between two of them. What every other handler or timer does to a session is
one step, `operate`, which needs a reference to the session.
-/

open TransferSessionDetails

namespace TransferSession

/-- `m_id`, the public id of the creator. -/
def sessionId (s : TransferSession) : String := s.dataSender.publicId

/-- A method as the session carries it out. The `kicked` message is left to the server. -/
def call (config : Config) (s : TransferSession) : Op → TransferSession
  | .removeReceiver publicId => s.removeReceiverWith (fun _ s => s) publicId
  | .destroyClient c => s.destroyWith (fun id s => s.removeReceiverWith (fun _ s => s) id) c
  | op => s.apply config op

/-- The client that is sent the `kicked` message. -/
def kicks (s : TransferSession) : Op → Option ClientRef
  | .removeReceiver publicId => s.removedClient publicId
  | .destroyClient c =>
      if c ∈ s.subscribers && !(s.expire c).takenForSender c.publicId then
        (s.expire c).removedClient c.publicId
      else none
  | _ => none

/-- What the session records of its members, and whether it is listed. -/
def membership (s : TransferSession) :
    ClientRef × List ClientRef × AtomicSet String × Bool :=
  (s.dataSender, s.dataReceivers, s.buffer.expectedConsumers, s.listed)

end TransferSession

namespace Server

/-- The settings, and `HashSignature::sign`, which makes the public id of a client. -/
structure Config extends TransferSessionDetails.Config where
  transferSessionCountLimit : ℕ
  sign : String → String

/-- The events that wait for an acknowledgement. -/
inductive Awaited where
  | complete (session : ℕ)
  | kicked
deriving DecidableEq, Repr

/-- The body of a request to create a session. -/
inductive Body where
  | invalid
  | notBoolean
  | options (autoDropFreezeOnFirstChunk : Bool)
deriving DecidableEq, Repr

/-- The call the handler of a request makes next. -/
inductive Call where
  | join (id? : Option String)
  | joinFind (client : ClientRef) (id : String)
  | joinTest (client : ClientRef) (session : ℕ)
  | joinRemoved (client : ClientRef) (session : ℕ)
  | joinMember (client : ClientRef) (session : ℕ)
  | joinAdd (client : ClientRef) (session : ℕ)
  | joinSet (client : ClientRef) (session : ℕ)
  | create (body : Body)
  | createTest (client : ClientRef) (body : Body)
  | createLimit (client : ClientRef) (body : Body)
  | createAdd (client : ClientRef) (autoDropFreezeOnFirstChunk : Bool)
  | createSet (client : ClientRef) (session : ℕ)
  | createUndo (client : ClientRef) (session : ℕ)
deriving DecidableEq, Repr

/-- The client object the handler has got hold of. -/
def Call.client? : Call → Option ClientRef
  | .join _ | .create _ => none
  | .joinFind c _ | .joinTest c _ | .joinRemoved c _ | .joinMember c _ | .joinAdd c _
  | .joinSet c _ | .createTest c _ | .createLimit c _ | .createAdd c _ | .createSet c _
  | .createUndo c _ => some c

/-- The session object the handler has got hold of. -/
def Call.session? : Call → Option ℕ
  | .joinTest _ k | .joinRemoved _ k | .joinMember _ k | .joinAdd _ k | .joinSet _ k
  | .createSet _ k | .createUndo _ k => some k
  | _ => none

/-- A request that is being handled. `changed` tells whether one of its calls has changed
the clients, the session its client has joined, or the membership or listing of a session. -/
structure Request where
  cookie : String
  call : Call
  changed : Bool := false
deriving DecidableEq, Repr

structure Response where
  code : ℕ
  body : String
deriving DecidableEq, Repr

/-- An answered request. -/
structure Answer where
  cookie : String
  response : Response
  changed : Bool
deriving DecidableEq, Repr

end Server

structure Server where
  -- all client objects made so far, and those whose destructor has not run
  clients : List ClientRef := []
  live : List ClientRef := []
  clientList : List ClientRef := []
  joinedSession : ClientRef → String := fun _ => ""
  -- the object whose id the client was given
  joined : ClientRef → Option ℕ := fun _ => none
  connected : List ClientRef := []
  sessions : List TransferSession := []
  -- the sessions whose destructor has run
  ended : List ℕ := []
  requests : List Server.Request := []
  -- the references of other handlers and of timers
  holders : List ℕ := []
  pendingAcks : List (ClientRef × Server.Awaited) := []
  completes : List (ClientRef × ℕ × TransferSessionCompleteType) := []
  -- the complete events that were acknowledged, timed out or could not be sent
  settled : List (ClientRef × ℕ) := []
  answers : List Server.Answer := []

namespace Server

/-! ### The two lists -/

/-- `ClientList::get`. -/
def getClient (s : Server) (id : String) : Option ClientRef :=
  s.clientList.find? (·.id == id)

/-- `ClientList::remove`. -/
def removeClient (s : Server) (id : String) : Server :=
  { s with clientList := s.clientList.filter (·.id != id) }

/-- `TransferSessionList::get`. -/
def getSession (s : Server) (id : String) : Option ℕ :=
  s.sessions.findIdx? (fun t => t.listed && t.sessionId == id)

def unlist (id : String) (t : TransferSession) : TransferSession :=
  if t.listed && t.sessionId == id then { t with listed := false } else t

/-- `TransferSessionList::remove`, which takes off whatever session is listed under the id. -/
def removeSession (s : Server) (id : String) : Server :=
  { s with sessions := s.sessions.map (unlist id) }

def possibleToCreateNew (config : Config) (s : Server) : Bool :=
  config.transferSessionCountLimit > (s.sessions.filter (·.listed)).length

def setSession (s : Server) (k : ℕ) (t : TransferSession) : Server :=
  { s with sessions := s.sessions.set k t }

/-- `TransferSessionList::create`: no session is made while one is listed under the id. -/
def createSession (s : Server) (creator : ClientRef) (autoDropFreezeOnFirstChunk : Bool) :
    Option Server :=
  if (s.getSession creator.publicId).isSome then none
  else some { s with
    sessions := s.sessions ++ [TransferSession.create creator autoDropFreezeOnFirstChunk] }

/-- Some handler or timer refers to the session. -/
def referenced (s : Server) (k : ℕ) : Bool :=
  s.holders.contains k || s.requests.any (fun r => r.call.session? == some k)

/-- A weak pointer to the session can be locked. -/
def lockable (s : Server) (k : ℕ) : Bool :=
  s.sessions[k]?.any (·.listed) || s.referenced k

/-- The id of a session object. -/
def sessionId (s : Server) (k : ℕ) : String := (s.sessions[k]?.map TransferSession.sessionId).getD ""

/-- `Client::joinSession`. -/
def joinSession (s : Server) (c : ClientRef) (k : ℕ) (id : String) : Server × Bool :=
  if id = "" then (s, false)
  else if s.joinedSession c ≠ "" then (s, false)
  else
    ({ s with
        joinedSession := Function.update s.joinedSession c id
        joined := Function.update s.joined c (some k) }, true)

/-! ### Events that wait for an acknowledgement -/

/-- The event was acknowledged, timed out or could not be sent. -/
def noteSettled (s : Server) (c : ClientRef) : Awaited → Server
  | .complete k => { s with settled := (c, k) :: s.settled }
  | .kicked => s

/-- The callback of the event runs: it removes the client. -/
def settle (s : Server) (c : ClientRef) (event : Awaited) : Server :=
  (s.noteSettled c event).removeClient c.id

/-- `Client::sendTextWithAck`. Without a WebSocket the callback runs at once. -/
def sendTextWithAck (s : Server) (c : ClientRef) (event : Awaited) : Server :=
  if c ∈ s.connected then { s with pendingAcks := (c, event) :: s.pendingAcks }
  else s.settle c event

/-- `Client::resolveAck`. -/
def resolveAck (s : Server) (c : ClientRef) (event : Awaited) : Server :=
  { s with pendingAcks := s.pendingAcks.erase (c, event) }.settle c event

def closeConnection (s : Server) (c : ClientRef) : Server :=
  { s with connected := s.connected.filter (· != c) }

/-- The session `wsOnMessage` works on. -/
def messageSession (s : Server) (c : ClientRef) : Option ℕ :=
  if s.joinedSession c = "" then none else s.getSession (s.joinedSession c)

/-- `wsOnMessage` for the acknowledgement. Without a session the message is not looked at
and the connection is closed. -/
def acknowledge (s : Server) (c : ClientRef) (event : Awaited) : Server :=
  match s.messageSession c with
  | some _ => s.resolveAck c event
  | none => (s.noteSettled c event).closeConnection c

/-! ### Methods of a session -/

/-- The `kicked` message to the client a method has removed. -/
def sendKicked (s : Server) : Option ClientRef → Server
  | some c => s.sendTextWithAck c .kicked
  | none => s

/-- A method of a session. The session calls `TransferSessionList::remove` with its id. -/
def perform (config : Config) (s : Server) (k : ℕ) (op : TransferSession.Op) : Server :=
  match s.sessions[k]? with
  | none => s
  | some t =>
      let t' := { t with listed := true }.call config.toConfig op
      let s := (s.setSession k { t' with listed := t.listed }).sendKicked (t.kicks op)
      if t'.listed then s else s.removeSession t.sessionId

/-- A client object is destroyed: what a session does about it. -/
def notifyDestroyed (config : Config) (c : ClientRef) (s : Server) (k : ℕ) : Server :=
  if s.lockable k then s.perform config k (.destroyClient c)
  else match s.sessions[k]? with
    | none => s
    | some t => s.setSession k (t.expire c)

/-- The destructor of a client runs the callbacks of the events still pending. -/
def runCallbacks (s : Server) (c : ClientRef) : Server :=
  let s := if s.pendingAcks.any (·.1 == c) then s.removeClient c.id else s
  { s with pendingAcks := s.pendingAcks.filter (·.1 != c) }

/-- The destructor of a client. -/
def destroyClient (config : Config) (s : Server) (c : ClientRef) : Server :=
  let s := { s with live := s.live.filter (· != c), connected := s.connected.filter (· != c) }
  (List.range s.sessions.length).foldl (notifyDestroyed config c) (s.runCallbacks c)

/-- A subscriber gets the `complete` event. -/
def sendComplete (k : ℕ) (type : TransferSessionCompleteType) (s : Server) (c : ClientRef) :
    Server :=
  { s with completes := (c, k, type) :: s.completes }.sendTextWithAck c (.complete k)

/-- The destructor of a session. -/
def destruct (s : Server) (k : ℕ) : Server :=
  match s.sessions[k]? with
  | none => s
  | some t =>
      (t.subscribers.filter t.alive).foldl (sendComplete k t.completeType)
        { s with ended := k :: s.ended }

/-! ### Requests -/

/-- One call of `WebAPI::sessionJoin` or `WebAPI::sessionCreate`: the state after it, and the
next call or the response. -/
def serve (config : Config) (s : Server) (cookie : String) : Call → Server × (Call ⊕ Response)
  | .join id? =>
      match s.getClient cookie, id? with
      | none, _ => (s, .inr ⟨401, "You have not been identified"⟩)
      | some _, none => (s, .inr ⟨400, "You need to send the session ID"⟩)
      | some c, some id => (s, .inl (.joinFind c id))
  | .joinFind c id =>
      match s.getSession id with
      | none => (s, .inr ⟨404, "Session not found"⟩)
      | some k => (s, .inl (.joinTest c k))
  | .joinTest c k =>
      if s.joinedSession c = "" then (s, .inl (.joinRemoved c k))
      else if s.sessionId k = s.joinedSession c then (s, .inr ⟨202, s.sessionId k⟩)
      else (s, .inr ⟨400, "You are already a participant in some another session"⟩)
  | .joinRemoved c k =>
      if s.sessions[k]?.any (fun t => t.buffer.someChunksWasRemoved) then
        (s, .inl (.joinMember c k))
      else (s, .inl (.joinAdd c k))
  | .joinMember c k =>
      if s.sessions[k]?.any (fun t => t.liveReceivers.any (·.id == c.id)) then
        (s, .inl (.joinAdd c k))
      else (s, .inr ⟨403, "It is impossible to join the session"⟩)
  | .joinAdd c k =>
      match s.sessions[k]? with
      | none => (s, .inr ⟨500, "Couldn't join the session"⟩)
      | some t =>
          match t.addReceiver config.toConfig c with
          | (t, false) => (s.setSession k t, .inr ⟨500, "Couldn't join the session"⟩)
          | (t, true) => (s.setSession k t, .inl (.joinSet c k))
  | .joinSet c k =>
      match s.joinSession c k (s.sessionId k) with
      | (s, false) => (s, .inr ⟨500, "Couldn't join the session (2)"⟩)
      | (s, true) => (s, .inr ⟨202, s.sessionId k⟩)
  | .create body =>
      match s.getClient cookie with
      | none => (s, .inr ⟨401, "You have not been identified"⟩)
      | some c => (s, .inl (.createTest c body))
  | .createTest c body =>
      if s.joinedSession c = "" then (s, .inl (.createLimit c body))
      else (s, .inr ⟨403, "You are already a participant in the session"⟩)
  | .createLimit c body =>
      if s.possibleToCreateNew config then
        match body with
        | .invalid => (s, .inr ⟨400, "Invalid JSON body"⟩)
        | .notBoolean => (s, .inr ⟨400, ".auto_drop_freeze must be a boolean"⟩)
        | .options auto => (s, .inl (.createAdd c auto))
      else
        (s, .inr ⟨503, "The maximum number of sessions has been reached, please try again later"⟩)
  | .createAdd c auto =>
      match s.createSession c auto with
      | none => (s, .inr ⟨500, "Session creation failed"⟩)
      | some s' => (s', .inl (.createSet c s.sessions.length))
  | .createSet c k =>
      match s.joinSession c k (s.sessionId k) with
      | (s, false) => (s, .inl (.createUndo c k))
      | (s, true) => (s, .inr ⟨201, s.sessionId k⟩)
  | .createUndo _ k =>
      (s.removeSession (s.sessionId k), .inr ⟨500, "Session creation failed"⟩)

/-- What a failed request must leave as it is is not the same: the clients, the session the
client has joined, the members and the listing of the sessions. -/
def differs (s s' : Server) (client? : Option ClientRef) : Bool :=
  s'.clientList != s.clientList
    || client?.map s'.joinedSession != client?.map s.joinedSession
    || s'.sessions.map TransferSession.membership != s.sessions.map TransferSession.membership

/-- A request makes its next call. -/
def advance (config : Config) (s : Server) (r : Request) : Server :=
  let s := { s with requests := s.requests.erase r }
  let (s', next) := s.serve config r.cookie r.call
  let changed := r.changed || s.differs s' r.call.client?
  match next with
  | .inl call => { s' with requests := ⟨r.cookie, call, changed⟩ :: s'.requests }
  | .inr response => { s' with answers := ⟨r.cookie, response, changed⟩ :: s'.answers }

/-! ### Runs -/

/-- The steps of the server and of what is around it. -/
inductive Action where
  -- a client is made, leaves or times out, and opens or loses its WebSocket
  | register (id : String)
  | leave (id : String)
  | connect (c : ClientRef)
  | disconnect (c : ClientRef)
  | destroyClient (c : ClientRef)
  -- the fallback timer of an event expires, or the client acknowledges the event
  | timeout (c : ClientRef) (event : Awaited)
  | acknowledge (c : ClientRef) (event : Awaited)
  -- a handler or timer gets and drops a reference to a session, and calls a method of it
  | hold (k : ℕ)
  | release (k : ℕ)
  | operate (k : ℕ) (op : TransferSession.Op)
  | destruct (k : ℕ)
  -- a request to create or to join a session comes in, and makes its next call
  | requestCreate (cookie : String) (body : Body)
  | requestJoin (cookie : String) (id? : Option String)
  | advance (r : Request)

/-- The methods called by handlers and timers that refer to the session. -/
def called (s : Server) : TransferSession.Op → Bool
  | .addReceiver _ | .destroyClient _ | .connect _ | .disconnect _ => false
  | .getChunk _ c | .setChunkAsReceived _ c => c ∈ s.live
  | _ => true

/-- A step that is not possible changes nothing. -/
def step (config : Config) (s : Server) : Action → Server
  | .register id =>
      if (s.getClient id).isSome then s
      else
        let c : ClientRef := ⟨s.clients.length, id, config.sign id⟩
        { s with
          clients := s.clients ++ [c]
          live := c :: s.live
          clientList := c :: s.clientList }
  | .leave id => s.removeClient id
  | .connect c =>
      if c ∈ s.live ∧ s.joinedSession c ≠ "" then { s with connected := c :: s.connected } else s
  | .disconnect c => s.closeConnection c
  | .destroyClient c =>
      if c ∈ s.live ∧ c ∉ s.clientList ∧ ∀ r ∈ s.requests, r.call.client? ≠ some c then
        s.destroyClient config c
      else s
  | .timeout c event =>
      if (c, event) ∈ s.pendingAcks ∧ c ∈ s.clientList then s.resolveAck c event else s
  | .acknowledge c event =>
      if (c, event) ∈ s.pendingAcks ∧ c ∈ s.connected then s.acknowledge c event else s
  | .hold k => if s.lockable k then { s with holders := k :: s.holders } else s
  | .release k => { s with holders := s.holders.erase k }
  | .operate k op => if k ∈ s.holders ∧ s.called op then s.perform config k op else s
  | .destruct k => if s.lockable k ∨ k ∈ s.ended then s else s.destruct k
  | .requestCreate cookie body =>
      { s with requests := ⟨cookie, .create body, false⟩ :: s.requests }
  | .requestJoin cookie id? =>
      { s with requests := ⟨cookie, .join id?, false⟩ :: s.requests }
  | .advance r => if r ∈ s.requests then s.advance config r else s

end Server

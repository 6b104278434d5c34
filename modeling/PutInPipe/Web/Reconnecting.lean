import Mathlib.Algebra.Order.Ring.Rat
import PutInPipe.Client.Envelope
import PutInPipe.Library.Run
import PutInPipe.Web.Inbox

/-!
# The connection of a page

`Ws` is the module `ws.js` together with what the browser holds for it: the sockets that the
module has made and the timers that it has set. The module knows one of the sockets and one
of the timers, and the handlers of a socket do not look whether they belong to that one. So
the variables describe the connection as long as `connect` is called only when nothing is
left of an earlier one, which `disconnect` does not wait for.

Sockets, timers and waits are numbered in the order in which they are made.
-/

open Text (Bytes)

/-- `readyState` of a `WebSocket`. -/
inductive ReadyState where
  | CONNECTING
  | OPEN
  | CLOSING
  | CLOSED
deriving DecidableEq, Repr

namespace Ws

/-- The promise of `connect`; a socket made by the timer has none. -/
inductive Promise where
  | absent
  | pending
  | resolved
  | rejected
deriving DecidableEq, Repr

def Promise.settle (p outcome : Promise) : Promise := if p = .pending then outcome else p

structure Socket where
  readyState : ReadyState := .CONNECTING
  promise : Promise := .absent
deriving DecidableEq, Repr

/-- What `dispatch` hands to the listeners. -/
inductive Dispatched where
  | null
  | error
  | close (code : ℕ) (reason : Bytes)
  | reconnecting (attempt : ℕ)
  | binary (data : Bytes)
  | message (msg : Json)

/-- What is sent. The number of an acknowledgement is the literal of the message. -/
inductive Sent where
  | ack (id : Bytes)
  | text (data : Bytes)
  | binary (data : Bytes)
deriving DecidableEq, Repr

/-- What a socket receives. -/
inductive Data where
  | arrayBuffer (data : Bytes)
  | text (data : Bytes)
deriving DecidableEq, Repr

def MAX_RECONNECT_DELAY : ℚ := 10000

end Ws

open Machine
open Ws (Socket Promise Dispatched Sent Data MAX_RECONNECT_DELAY)

structure Ws where
  socket : Option ℕ := none
  autoReconnect : Bool := false
  reconnectAttempts : ℕ := 0
  reconnectTimer : Option ℕ := none
  sockets : List Socket := []
  -- the timers that have neither expired nor been cleared, with their delays
  timers : List (ℕ × ℚ) := []
  timersSet : ℕ := 0
  -- the calls of `waitForConnection` that listen for the event `open`
  waiting : List ℕ := []
  waits : ℕ := 0
  -- the calls that have come to an end, and whether with a connection
  waited : List (ℕ × Bool) := []
  dispatched : List (Bytes × Dispatched) := []
  sent : List (ℕ × Sent) := []

namespace Ws

def readyState (s : Ws) (i : ℕ) : ReadyState :=
  ((s.sockets[i]?).map Socket.readyState).getD .CLOSED

def setReadyState (s : Ws) (i : ℕ) (readyState : ReadyState) : Ws :=
  { s with sockets := s.sockets.modify i fun x => { x with readyState } }

def settle (s : Ws) (i : ℕ) (outcome : Promise) : Ws :=
  { s with sockets := s.sockets.modify i fun x => { x with promise := x.promise.settle outcome } }

/-- `dispatch`. The listeners of the module itself are those of `waitForConnection`. -/
def dispatch (s : Ws) (eventName : Bytes) (data : Dispatched) : Ws :=
  let s := { s with dispatched := s.dispatched ++ [(eventName, data)] }
  if eventName = bytes "open" then
    { s with waiting := [], waited := s.waited ++ s.waiting.map (·, true) }
  else s

def isConnected (s : Ws) : Bool := s.socket.any fun i => s.readyState i == .OPEN

/-- `socket.send`, where the module checks that its socket is open. -/
def send (s : Ws) (data : Sent) : Ws :=
  match s.socket with
  | some i => if s.readyState i = .OPEN then { s with sent := s.sent ++ [(i, data)] } else s
  | none => s

/-- The delay before an attempt, in milliseconds. `Math.pow` is exact here: the powers that
are not below the limit of the delay do not matter. -/
def delay (reconnectAttempts : ℕ) : ℚ :=
  min (1000 * (3 / 2) ^ (reconnectAttempts - 1)) MAX_RECONNECT_DELAY

def createSocket (s : Ws) (promise : Promise) : Ws :=
  { s with socket := some s.sockets.length, sockets := s.sockets ++ [{ promise }] }

def scheduleReconnect (s : Ws) : Ws :=
  let s := { s with reconnectAttempts := s.reconnectAttempts + 1 }
  { s with
    reconnectTimer := some s.timersSet
    timers := s.timers ++ [(s.timersSet, delay s.reconnectAttempts)]
    timersSet := s.timersSet + 1 }

/-! ### The handlers of a socket -/

def onopen (s : Ws) (i : ℕ) : Ws :=
  ({ s with reconnectAttempts := 0 }.dispatch (bytes "open") .null).settle i .resolved

def onerror (s : Ws) (i : ℕ) : Ws := (s.dispatch (bytes "error") .error).settle i .rejected

def onclose (s : Ws) (code : ℕ) (reason : Bytes) : Ws :=
  let s := { s with socket := none }
  if !s.autoReconnect || code == 1000 then s.dispatch (bytes "close") (.close code reason)
  else
    let s := s.dispatch (bytes "reconnecting") (.reconnecting (s.reconnectAttempts + 1))
    s.scheduleReconnect

/-- What a message asks to be acknowledged is acknowledged on the socket of the module. -/
def acknowledge (s : Ws) (msg : Json) : Ws :=
  match Wvalue.ackedId msg with
  | some id => s.send (.ack id)
  | none => s

/-- Nobody listens to a name that is not a string. -/
def dispatchMessage (s : Ws) (msg : Json) : Ws :=
  match Msg.event msg with
  | some event => if event.isEmpty then s else s.dispatch event (.message msg)
  | none => s

def onmessage (s : Ws) : Data → Ws
  | .arrayBuffer data => s.dispatch (bytes "binary") (.binary data)
  | .text data =>
      match Json.parse data with
      | some msg => (s.acknowledge msg).dispatchMessage msg
      | none => s

/-! ### The functions of the module -/

def connect (s : Ws) : Ws :=
  { s with autoReconnect := true, reconnectAttempts := 0 }.createSocket .pending

def clearReconnectTimer (s : Ws) : Ws :=
  match s.reconnectTimer with
  | some id => { s with timers := s.timers.filter (·.1 != id), reconnectTimer := none }
  | none => s

/-- `close` of a socket, which begins to close it. -/
def close (s : Ws) (i : ℕ) : Ws :=
  if s.readyState i = .CONNECTING ∨ s.readyState i = .OPEN then s.setReadyState i .CLOSING else s

def closeSocket (s : Ws) : Ws :=
  match s.socket with
  | some i => { s.close i with socket := none }
  | none => s

def disconnect (s : Ws) : Ws :=
  ({ s with autoReconnect := false }.clearReconnectTimer).closeSocket

def waitForConnection (s : Ws) : Ws :=
  if s.isConnected then { s with waits := s.waits + 1, waited := s.waited ++ [(s.waits, true)] }
  else { s with waits := s.waits + 1, waiting := s.waiting ++ [s.waits] }

/-! ### Runs -/

/-- What happens: the page calls a function of the module, a socket is opened, begins to be
closed by the other side, is closed or receives a message, or a timer expires. -/
inductive Step where
  | connect
  | disconnect
  | sendAction (text : Bytes)
  | sendBinary (data : Bytes)
  | waitForConnection
  | opened (i : ℕ)
  | closing (i : ℕ)
  | closed (i : ℕ) (failed : Bool) (code : ℕ) (reason : Bytes)
  | message (i : ℕ) (data : Data)
  | reconnect (id : ℕ)
  | timeout (id : ℕ)
deriving DecidableEq, Repr

/-- One step. What the browser does not do in a state changes nothing. -/
def step (s : Ws) : Step → Ws
  | .connect => s.connect
  | .disconnect => s.disconnect
  | .sendAction text => s.send (.text text)
  | .sendBinary data => s.send (.binary data)
  | .waitForConnection => s.waitForConnection
  | .opened i =>
      if s.readyState i = .CONNECTING then (s.setReadyState i .OPEN).onopen i else s
  | .closing i => if s.readyState i = .OPEN then s.setReadyState i .CLOSING else s
  | .closed i failed code reason =>
      if s.readyState i = .CLOSED then s
      else
        let s := s.setReadyState i .CLOSED
        (if failed then s.onerror i else s).onclose code reason
  | .message i data => if s.readyState i = .OPEN then s.onmessage data else s
  | .reconnect id =>
      if id ∈ s.timers.map Prod.fst then
        let s := { s with timers := s.timers.filter (·.1 != id), reconnectTimer := none }
        if s.autoReconnect then s.createSocket .absent else s
      else s
  | .timeout id =>
      if id ∈ s.waiting then
        { s with waiting := s.waiting.filter (· != id), waited := s.waited ++ [(id, false)] }
      else s

variable {s t : Ws}

/-! ### What the steps change -/

/-- The parts that make up the connection are the same, whatever has been told and sent. -/
structure SameLink (s t : Ws) : Prop where
  readyState : ∀ i, t.readyState i = s.readyState i
  socket : t.socket = s.socket
  autoReconnect : t.autoReconnect = s.autoReconnect
  reconnectAttempts : t.reconnectAttempts = s.reconnectAttempts
  reconnectTimer : t.reconnectTimer = s.reconnectTimer
  timers : t.timers = s.timers

theorem SameLink.trans {u : Ws} (h : s.SameLink t) (h' : t.SameLink u) :
  s.SameLink u
  where
    readyState i := (h'.readyState i).trans (h.readyState i)
    socket := h'.socket.trans h.socket
    autoReconnect := h'.autoReconnect.trans h.autoReconnect
    reconnectAttempts := h'.reconnectAttempts.trans h.reconnectAttempts
    reconnectTimer := h'.reconnectTimer.trans h.reconnectTimer
    timers := h'.timers.trans h.timers

theorem SameLink.refl (s : Ws) :
  s.SameLink s
  := ⟨fun _ => rfl, rfl, rfl, rfl, rfl, rfl⟩

theorem sameLink_dispatch (s : Ws) (eventName : Bytes) (data : Dispatched) :
  s.SameLink (s.dispatch eventName data)
  := by
  rw [dispatch]
  split
  · exact ⟨fun _ => rfl, rfl, rfl, rfl, rfl, rfl⟩
  · exact ⟨fun _ => rfl, rfl, rfl, rfl, rfl, rfl⟩

theorem sameLink_send (s : Ws) (data : Sent) :
  s.SameLink (s.send data)
  := by
  rw [send]
  split
  · split
    · exact ⟨fun _ => rfl, rfl, rfl, rfl, rfl, rfl⟩
    · apply SameLink.refl
  · apply SameLink.refl

theorem sameLink_settle (s : Ws) (i : ℕ) (outcome : Promise) :
  s.SameLink (s.settle i outcome)
  where
    readyState j := by
      rw [readyState, readyState, settle, List.getElem?_modify, Option.map_eq_map, Option.map_map]
      congr 2
      split
      · rfl
      · rfl
    socket := rfl
    autoReconnect := rfl
    reconnectAttempts := rfl
    reconnectTimer := rfl
    timers := rfl

theorem sameLink_onerror (s : Ws) (i : ℕ) :
  s.SameLink (s.onerror i)
  := (sameLink_dispatch s _ _).trans (sameLink_settle _ i _)

theorem sameLink_acknowledge (s : Ws) (msg : Json) :
  s.SameLink (s.acknowledge msg)
  := by
  rw [acknowledge]
  split
  · apply sameLink_send
  · apply SameLink.refl

theorem sameLink_dispatchMessage (s : Ws) (msg : Json) :
  s.SameLink (s.dispatchMessage msg)
  := by
  rw [dispatchMessage]
  split
  · split
    · apply SameLink.refl
    · apply sameLink_dispatch
  · apply SameLink.refl

theorem sameLink_onmessage (s : Ws) (data : Data) :
  s.SameLink (s.onmessage data)
  := by
  rw [onmessage.eq_def]
  split
  · apply sameLink_dispatch
  · split
    · apply (sameLink_acknowledge s _).trans (sameLink_dispatchMessage _ _)
    · apply SameLink.refl

theorem sameLink_waitForConnection (s : Ws) :
  s.SameLink s.waitForConnection
  := by
  rw [waitForConnection]
  split
  · exact ⟨fun _ => rfl, rfl, rfl, rfl, rfl, rfl⟩
  · exact ⟨fun _ => rfl, rfl, rfl, rfl, rfl, rfl⟩

theorem sameLink_timeout (s : Ws) (id : ℕ) :
  s.SameLink (s.step (.timeout id))
  := by
  rw [step]
  split
  · exact ⟨fun _ => rfl, rfl, rfl, rfl, rfl, rfl⟩
  · apply SameLink.refl

theorem readyState_of_le (s : Ws) {i : ℕ} (h : s.sockets.length ≤ i) :
  s.readyState i = .CLOSED
  := by rw [readyState, List.getElem?_eq_none h, Option.map_none, Option.getD_none]

theorem readyState_setReadyState (s : Ws) {i : ℕ} (h : s.readyState i ≠ .CLOSED)
    (r : ReadyState) (j : ℕ) :
  (s.setReadyState i r).readyState j = if j = i then r else s.readyState j
  := by
  have hi : i < s.sockets.length := by
    by_contra hle
    apply h (s.readyState_of_le (Nat.le_of_not_lt hle))
  rw [readyState, setReadyState, List.getElem?_modify, Option.map_eq_map, Option.map_map]
  split
  · next heq =>
      subst heq
      rw [if_pos rfl, List.getElem?_eq_getElem hi]
      rfl
  · next hne =>
      rw [if_neg (Ne.symm hne)]
      rfl

theorem readyState_createSocket (s : Ws) (promise : Promise) (j : ℕ) :
  (s.createSocket promise).readyState j
    = if j = s.sockets.length then .CONNECTING else s.readyState j
  := by
  rw [readyState, createSocket, List.getElem?_append]
  split
  · next hlt => rw [if_neg hlt.ne, readyState]
  · next hle =>
      rcases Nat.eq_or_lt_of_not_lt hle with heq | hlt
      · rw [if_pos heq, heq, Nat.sub_self]
        rfl
      · rw [if_neg hlt.ne', s.readyState_of_le hlt.le, List.getElem?_eq_none]
        · rfl
        · rw [List.length_singleton]
          omega

/-! ### One connection -/

/-- The socket that is not closed is the only one, there is a timer only when there is no such
socket, and the module knows what there is; once the page has disconnected there is neither. -/
structure Single (s : Ws) : Prop where
  sockets : ∀ i j, s.readyState i ≠ .CLOSED → s.readyState j ≠ .CLOSED → i = j
  timers : s.timers.length ≤ 1
  apart : s.timers ≠ [] → ∀ i, s.readyState i = .CLOSED
  socket : ∀ i, s.readyState i = .CONNECTING ∨ s.readyState i = .OPEN → s.socket = some i
  refers : ∀ i, s.socket = some i → s.readyState i ≠ .CLOSED
  reconnectTimer : s.reconnectTimer = (s.timers.head?).map Prod.fst
  delays : ∀ timer ∈ s.timers,
    1 ≤ s.reconnectAttempts ∧ timer.2 = delay s.reconnectAttempts
  disconnected : s.autoReconnect = false → s.socket = none ∧ s.timers = []

/-- Nothing is left of a connection. -/
def Idle (s : Ws) : Prop := (∀ i, s.readyState i = .CLOSED) ∧ s.timers = []

/-- The page connects only where nothing is left of an earlier connection. -/
def ConnectsIdle (s : Ws) (a : Step) : Prop := a = .connect → s.Idle

namespace Single

theorem init :
  ({} : Ws).Single
  where
    sockets _ _ h := (h rfl).elim
    timers := Nat.zero_le 1
    apart h := (h rfl).elim
    socket _ h := by rcases h with ⟨⟨⟩⟩ | ⟨⟨⟩⟩
    refers _ h := by cases h
    reconnectTimer := rfl
    delays _ h := by cases h
    disconnected _ := ⟨rfl, rfl⟩

theorem congr (h : s.Single) (hst : s.SameLink t) :
  t.Single
  where
    sockets i j := by
      rw [hst.readyState, hst.readyState]
      apply h.sockets
    timers := by
      rw [hst.timers]
      apply h.timers
    apart := by
      rw [hst.timers]
      simp only [hst.readyState]
      apply h.apart
    socket i := by
      rw [hst.readyState, hst.socket]
      apply h.socket
    refers i := by
      rw [hst.readyState, hst.socket]
      apply h.refers
    reconnectTimer := by
      rw [hst.reconnectTimer, hst.timers]
      apply h.reconnectTimer
    delays := by
      rw [hst.reconnectAttempts, hst.timers]
      apply h.delays
    disconnected := by
      rw [hst.autoReconnect, hst.socket, hst.timers]
      apply h.disconnected

theorem timers_eq (h : s.Single) {i : ℕ} (hi : s.readyState i ≠ .CLOSED) :
  s.timers = []
  := by
  by_contra hne
  apply hi (h.apart hne i)

/-- A timer that has been set is the one that the module knows. -/
theorem timers_eq_singleton (h : s.Single) {id : ℕ} (hid : id ∈ s.timers.map Prod.fst) :
  s.timers = [(id, delay s.reconnectAttempts)]
  := by
  obtain ⟨timer, hmem, rfl⟩ := List.mem_map.mp hid
  obtain ⟨timer', heq⟩ : ∃ timer', s.timers = [timer'] := by
    apply List.length_eq_one_iff.mp
    have hpos := List.length_pos_of_mem hmem
    have hle := h.timers
    omega
  rw [heq, List.mem_singleton] at hmem
  have hdelay := (h.delays timer (by rw [heq, hmem]; apply List.mem_singleton_self)).2
  rw [heq, hmem, ← hdelay, ← hmem]

theorem createSocket (h : s.Idle) (promise : Promise) (hauto : s.autoReconnect = true)
    (htimer : s.reconnectTimer = none) :
  (s.createSocket promise).Single
  where
    sockets i j := by
      rw [readyState_createSocket, readyState_createSocket, h.1, h.1]
      grind
    timers := by
      change s.timers.length ≤ 1
      rw [h.2]
      apply Nat.zero_le
    apart hne := (hne h.2).elim
    socket i := by
      rw [readyState_createSocket, h.1]
      split
      · next heq => exact fun _ => congrArg some heq.symm
      · rintro (⟨⟨⟩⟩ | ⟨⟨⟩⟩)
    refers i hi := by
      rw [readyState_createSocket, if_pos (Option.some.inj hi).symm]
      rintro ⟨⟩
    reconnectTimer := by
      change s.reconnectTimer = (s.timers.head?).map Prod.fst
      rw [htimer, h.2]
      rfl
    delays timer hmem := by
      have hmem : timer ∈ s.timers := hmem
      rw [h.2] at hmem
      cases hmem
    disconnected hoff := by
      have hoff : s.autoReconnect = false := hoff
      rw [hauto] at hoff
      cases hoff

theorem connect (h : s.Single) (hidle : s.Idle) :
  s.connect.Single
  := by
  have htimer : s.reconnectTimer = none := by
    rw [h.reconnectTimer, hidle.2]
    rfl
  have hidle' : ({ s with autoReconnect := true, reconnectAttempts := 0 } : Ws).Idle := hidle
  apply createSocket hidle' _ rfl htimer

/-- A page that connects while something is left of a connection has two. -/
theorem idle_of_connect (h : s.connect.Single) :
  s.Idle
  := by
  have hnew : s.connect.readyState s.sockets.length = .CONNECTING := by
    rw [Ws.connect, readyState_createSocket, if_pos rfl]
  constructor
  · intro i
    by_contra hi
    have hlt : i ≠ s.sockets.length := by
      rintro rfl
      apply hi (s.readyState_of_le (Nat.le_refl _))
    have hi' : s.connect.readyState i ≠ .CLOSED := by
      rw [Ws.connect, readyState_createSocket, if_neg hlt]
      apply hi
    apply hlt (h.sockets i _ hi' (by rw [hnew]; rintro ⟨⟩))
  · by_contra hne
    have hclosed := h.apart hne s.sockets.length
    rw [hnew] at hclosed
    cases hclosed

/-- Where the module knows of nothing, and at most one socket is still being closed. -/
theorem of_closing
    (hsockets : ∀ i j, s.readyState i ≠ .CLOSED → s.readyState j ≠ .CLOSED → i = j)
    (hclosing : ∀ i, s.readyState i ≠ .CONNECTING ∧ s.readyState i ≠ .OPEN)
    (htimers : s.timers = []) (hsocket : s.socket = none) (htimer : s.reconnectTimer = none) :
  s.Single
  where
    sockets := hsockets
    timers := by
      rw [htimers]
      apply Nat.zero_le
    apart hne := (hne htimers).elim
    socket i hi := (not_or.mpr (hclosing i) hi).elim
    refers i hi := by
      rw [hsocket] at hi
      cases hi
    reconnectTimer := by
      rw [htimer, htimers]
      rfl
    delays timer hmem := by
      rw [htimers] at hmem
      cases hmem
    disconnected _ := ⟨hsocket, htimers⟩

theorem of_idle (h : s.Idle) (hsocket : s.socket = none) (htimer : s.reconnectTimer = none) :
  s.Single
  := by
  apply of_closing _ _ h.2 hsocket htimer
  · exact fun i _ hi => (hi (h.1 i)).elim
  · intro i
    rw [h.1]
    constructor
    · rintro ⟨⟩
    · rintro ⟨⟩

theorem scheduleReconnect (h : s.Idle) (hsocket : s.socket = none)
    (hauto : s.autoReconnect = true) :
  s.scheduleReconnect.Single
  where
    sockets i _ hi := (hi (h.1 i)).elim
    timers := by rw [Ws.scheduleReconnect, h.2, List.nil_append, List.length_singleton]
    apart _ := h.1
    socket i := by
      have hclosed : s.scheduleReconnect.readyState i = .CLOSED := h.1 i
      rw [hclosed]
      rintro (⟨⟨⟩⟩ | ⟨⟨⟩⟩)
    refers i hi := by
      have hi : s.socket = some i := hi
      rw [hsocket] at hi
      cases hi
    reconnectTimer := by
      rw [Ws.scheduleReconnect, h.2]
      rfl
    delays timer hmem := by
      rw [Ws.scheduleReconnect, h.2, List.nil_append, List.mem_singleton] at hmem
      rw [hmem]
      exact ⟨Nat.le_add_left 1 _, rfl⟩
    disconnected hoff := by
      have hoff : s.autoReconnect = false := hoff
      rw [hauto] at hoff
      cases hoff

/-- The socket of the module goes to another state, which is not that of a closed one. -/
theorem moved (h : s.Single) {i : ℕ} (hi : s.readyState i ≠ .CLOSED) (hsocket : s.socket = some i)
    {r : ReadyState} (hr : r ≠ .CLOSED) (n : ℕ) :
  ({ s.setReadyState i r with reconnectAttempts := n } : Ws).Single
  := by
  have hstate : ∀ j, ({ s.setReadyState i r with reconnectAttempts := n } : Ws).readyState j
      = if j = i then r else s.readyState j := s.readyState_setReadyState hi r
  have htimers : s.timers = [] := h.timers_eq hi
  have hclosed : ∀ j, j ≠ i → s.readyState j = .CLOSED := by
    intro j hne
    by_contra hj
    apply hne (h.sockets j i hj hi)
  constructor
  case sockets =>
    intro j k
    rw [hstate, hstate]
    grind
  case timers => apply h.timers
  case apart => exact fun hne => (hne htimers).elim
  case socket =>
    intro j
    rw [hstate]
    split
    · next heq => exact fun _ => hsocket.trans (congrArg some heq.symm)
    · apply h.socket
  case refers =>
    intro j hj
    have hj : s.socket = some j := hj
    rw [hstate, if_pos (Option.some.inj (hj.symm.trans hsocket))]
    apply hr
  case reconnectTimer => apply h.reconnectTimer
  case delays =>
    intro timer hmem
    have hmem : timer ∈ s.timers := hmem
    rw [htimers] at hmem
    cases hmem
  case disconnected => apply h.disconnected

theorem opened (h : s.Single) (i : ℕ) :
  (s.step (.opened i)).Single
  := by
  rw [Ws.step]
  split
  · next hi =>
      have hmoved := h.moved (by rw [hi]; rintro ⟨⟩) (h.socket i (.inl hi)) (r := .OPEN)
        (by rintro ⟨⟩) 0
      apply hmoved.congr
      apply (sameLink_dispatch _ _ _).trans (sameLink_settle _ _ _)
  · exact h

theorem closing (h : s.Single) (i : ℕ) :
  (s.step (.closing i)).Single
  := by
  rw [Ws.step]
  split
  · next hi =>
      apply h.moved (by rw [hi]; rintro ⟨⟩) (h.socket i (.inr hi)) (r := .CLOSING)
        (by rintro ⟨⟩) s.reconnectAttempts
  · exact h

theorem onclose (h : s.Idle) (htimer : s.reconnectTimer = none) (code : ℕ) (reason : Bytes) :
  (s.onclose code reason).Single
  := by
  have hidle : ({ s with socket := none } : Ws).Idle := h
  rw [Ws.onclose]
  dsimp only
  split
  · have hsingle : ({ s with socket := none } : Ws).Single := of_idle hidle rfl htimer
    apply hsingle.congr (sameLink_dispatch _ _ _)
  · next hcode =>
      have hauto : s.autoReconnect = true := by
        cases hoff : s.autoReconnect with
        | true => rfl
        | false =>
            rw [hoff] at hcode
            apply (hcode rfl).elim
      have hsame := sameLink_dispatch ({ s with socket := none } : Ws) (bytes "reconnecting")
        (.reconnecting (s.reconnectAttempts + 1))
      apply scheduleReconnect
      · exact ⟨fun i => (hsame.readyState i).trans (hidle.1 i), hsame.timers.trans hidle.2⟩
      · exact hsame.socket
      · exact hsame.autoReconnect.trans hauto

theorem closed (h : s.Single) (i : ℕ) (failed : Bool) (code : ℕ) (reason : Bytes) :
  (s.step (.closed i failed code reason)).Single
  := by
  rw [Ws.step]
  split
  · exact h
  · next hi =>
      have htimers : s.timers = [] := h.timers_eq hi
      have hidle : (s.setReadyState i .CLOSED).Idle := by
        use ?_, htimers
        intro j
        rw [readyState_setReadyState s hi]
        split
        · rfl
        · next hne =>
            by_contra hj
            apply hne (h.sockets j i hj hi)
      have htimer : s.reconnectTimer = none := by
        rw [h.reconnectTimer, htimers]
        rfl
      have hsame : (s.setReadyState i .CLOSED).SameLink
          (if failed then (s.setReadyState i .CLOSED).onerror i
            else s.setReadyState i .CLOSED) := by
        split
        · apply sameLink_onerror
        · apply SameLink.refl
      apply onclose
      · exact ⟨fun j => (hsame.readyState j).trans (hidle.1 j), hsame.timers.trans hidle.2⟩
      · exact hsame.reconnectTimer.trans htimer

theorem reconnect (h : s.Single) (id : ℕ) :
  (s.step (.reconnect id)).Single
  := by
  rw [Ws.step]
  split
  · next hid =>
      have htimers := h.timers_eq_singleton hid
      have hidle : ({ s with
          timers := s.timers.filter (·.1 != id), reconnectTimer := none } : Ws).Idle := by
        constructor
        · apply h.apart
          rw [htimers]
          apply List.cons_ne_nil
        · change s.timers.filter (·.1 != id) = []
          rw [htimers, List.filter_singleton, bne_self_eq_false, cond_false]
      dsimp only
      split
      · next hauto => apply createSocket hidle _ hauto rfl
      · next hoff =>
          have hnone := (h.disconnected (Bool.eq_false_of_not_eq_true hoff)).1
          apply of_idle hidle hnone rfl
  · exact h

theorem clearReconnectTimer (h : s.Single) :
  ({ s with autoReconnect := false } : Ws).clearReconnectTimer
    = { s with autoReconnect := false, timers := [], reconnectTimer := none }
  := by
  rw [Ws.clearReconnectTimer]
  cases hid : s.reconnectTimer with
  | none =>
      have htimers : s.timers = [] := by
        rw [h.reconnectTimer, Option.map_eq_none_iff, List.head?_eq_none_iff] at hid
        apply hid
      cases s
      cases hid
      cases htimers
      rfl
  | some id =>
      have hmem : id ∈ s.timers.map Prod.fst := by
        rw [h.reconnectTimer, ← List.head?_map] at hid
        apply List.mem_of_head? hid
      dsimp only
      rw [h.timers_eq_singleton hmem, List.filter_singleton, bne_self_eq_false, cond_false]

theorem close
    (hsockets : ∀ i j, s.readyState i ≠ .CLOSED → s.readyState j ≠ .CLOSED → i = j)
    {i : ℕ} (hi : s.readyState i ≠ .CLOSED) (htimers : s.timers = [])
    (htimer : s.reconnectTimer = none) :
  ({ s.close i with socket := none } : Ws).Single
  := by
  have hother : ∀ j, j ≠ i → s.readyState j = .CLOSED := by
    intro j hne
    by_contra hj
    apply hne (hsockets j i hj hi)
  rw [Ws.close]
  split
  · have hstate : ∀ j, ({ s.setReadyState i .CLOSING with socket := none } : Ws).readyState j
        = if j = i then .CLOSING else s.readyState j := s.readyState_setReadyState hi _
    refine of_closing ?_ ?_ htimers rfl htimer
    · intro j k
      rw [hstate, hstate]
      grind
    · intro j
      rw [hstate]
      grind
  · next hclosing =>
      refine of_closing hsockets ?_ htimers rfl htimer
      intro j
      change s.readyState j ≠ _ ∧ s.readyState j ≠ _
      grind

theorem closeSocket (h : s.Single) (htimers : t.timers = []) (htimer : t.reconnectTimer = none)
    (hsocket : t.socket = s.socket) (hsockets : t.sockets = s.sockets) :
  t.closeSocket.Single
  := by
  have hstate : t.readyState = s.readyState := by
    funext i
    rw [readyState, readyState, hsockets]
  rw [Ws.closeSocket]
  split
  · next i hi =>
      apply close _ _ htimers htimer
      · rw [hstate]
        apply h.sockets
      · rw [hstate]
        apply h.refers i (hsocket.symm.trans hi)
  · next hnone =>
      apply of_closing _ _ htimers hnone htimer
      · rw [hstate]
        apply h.sockets
      · intro i
        rw [hstate, ← not_or]
        intro hi
        cases (hsocket.symm.trans hnone).symm.trans (h.socket i hi)

theorem disconnect (h : s.Single) :
  s.disconnect.Single
  := by
  rw [Ws.disconnect, h.clearReconnectTimer]
  exact h.closeSocket rfl rfl rfl rfl

theorem step (h : s.Single) (a : Step) :
  (s.step a).Single ↔ s.ConnectsIdle a
  := by
  have hother : a ≠ .connect → (s.step a).Single → ((s.step a).Single ↔ s.ConnectsIdle a) :=
    fun hne hstep => ⟨fun _ heq => (hne heq).elim, fun _ => hstep⟩
  cases a with
  | connect =>
      constructor
      · exact fun hstep _ => idle_of_connect hstep
      · exact fun hidle => h.connect (hidle rfl)
  | disconnect => apply hother (by rintro ⟨⟩) h.disconnect
  | sendAction text => apply hother (by rintro ⟨⟩) (h.congr (sameLink_send s _))
  | sendBinary data => apply hother (by rintro ⟨⟩) (h.congr (sameLink_send s _))
  | waitForConnection => apply hother (by rintro ⟨⟩) (h.congr (sameLink_waitForConnection s))
  | opened i => apply hother (by rintro ⟨⟩) (h.opened i)
  | closing i => apply hother (by rintro ⟨⟩) (h.closing i)
  | closed i failed code reason =>
      apply hother (by rintro ⟨⟩) (h.closed i failed code reason)
  | message i data =>
      apply hother (by rintro ⟨⟩)
      rw [Ws.step]
      split
      · apply h.congr (sameLink_onmessage s data)
      · exact h
  | reconnect id => apply hother (by rintro ⟨⟩) (h.reconnect id)
  | timeout id => apply hother (by rintro ⟨⟩) (h.congr (sameLink_timeout s id))

end Single

/-- The page has one connection in every state of a run, and the module knows which, exactly
when it connects only where nothing is left of an earlier connection. -/
theorem everyState_single_iff (steps : List Step) :
  EveryState step Single {} steps ↔ EveryStep step ConnectsIdle {} steps
  := everyState_iff_everyStep_of_step (fun _ a h => h.step a) Single.init steps

/-! ### No connection is given up in silence -/

/-- A page that wants a connection has something of one, or it has been told last that the
other side closed it in the ordinary way. -/
def Kept (s : Ws) : Prop :=
  s.autoReconnect = true → s.Idle →
    ∃ reason, s.dispatched.getLast? = some (bytes "close", .close 1000 reason)

theorem Kept.of_unclosed {i : ℕ} (h : s.readyState i ≠ .CLOSED) :
  s.Kept
  := fun _ hidle => (h (hidle.1 i)).elim

theorem Kept.of_off (h : s.autoReconnect = false) :
  s.Kept
  := by
  intro hauto
  rw [h] at hauto
  cases hauto

theorem Kept.congr (h : s.Kept) (hst : s.SameLink t) (hdispatched : t.dispatched = s.dispatched) :
  t.Kept
  := by
  rintro hauto ⟨hclosed, htimers⟩
  rw [hdispatched]
  apply h (hst.autoReconnect.symm.trans hauto)
  exact ⟨fun i => (hst.readyState i).symm.trans (hclosed i), hst.timers.symm.trans htimers⟩

theorem kept_createSocket (s : Ws) (promise : Promise) :
  (s.createSocket promise).Kept
  := by
  apply Kept.of_unclosed (i := s.sockets.length)
  rw [readyState_createSocket, if_pos rfl]
  rintro ⟨⟩

theorem dispatched_send (s : Ws) (data : Sent) :
  (s.send data).dispatched = s.dispatched
  := by
  rw [send]
  split
  · split
    · rfl
    · rfl
  · rfl

/-- Disconnecting changes the connection, and nothing that has been told or sent. -/
theorem exists_disconnect (s : Ws) :
  ∃ socket reconnectTimer sockets timers,
    s.disconnect = { s with autoReconnect := false, socket, reconnectTimer, sockets, timers }
  := by
  have hclear : ∃ reconnectTimer timers,
      ({ s with autoReconnect := false } : Ws).clearReconnectTimer
        = { s with autoReconnect := false, reconnectTimer, timers } := by
    rw [clearReconnectTimer]
    split
    · exact ⟨_, _, rfl⟩
    · exact ⟨_, _, rfl⟩
  obtain ⟨reconnectTimer, timers, hclear⟩ := hclear
  rw [disconnect, hclear, closeSocket]
  split
  · rw [close]
    split
    · exact ⟨_, _, _, _, rfl⟩
    · exact ⟨_, _, _, _, rfl⟩
  · exact ⟨_, _, _, _, rfl⟩

theorem dispatched_dispatch (s : Ws) (eventName : Bytes) (data : Dispatched) :
  (s.dispatch eventName data).dispatched = s.dispatched ++ [(eventName, data)]
  := by
  rw [dispatch]
  split
  · rfl
  · rfl

theorem kept_onclose (s : Ws) (code : ℕ) (reason : Bytes) :
  (s.onclose code reason).Kept
  := by
  rw [onclose]
  dsimp only
  split
  · next hcode =>
      intro hauto _
      have hauto : s.autoReconnect = true := by
        rw [(sameLink_dispatch _ _ _).autoReconnect] at hauto
        apply hauto
      rw [hauto, Bool.not_true, Bool.false_or, beq_iff_eq] at hcode
      use reason
      rw [dispatched_dispatch, List.getLast?_append, List.getLast?_singleton, hcode]
      rfl
  · rintro - ⟨-, htimers⟩
    apply (List.append_ne_nil_of_right_ne_nil _ (List.cons_ne_nil _ _) htimers).elim

theorem Kept.step (h : s.Kept) (a : Step) :
  (s.step a).Kept
  := by
  cases a with
  | connect => apply kept_createSocket
  | disconnect =>
      obtain ⟨_, _, _, _, heq⟩ := s.exists_disconnect
      rw [Ws.step, heq]
      exact Kept.of_off rfl
  | sendAction text => apply h.congr (sameLink_send s _) (dispatched_send s _)
  | sendBinary data => apply h.congr (sameLink_send s _) (dispatched_send s _)
  | waitForConnection =>
      apply h.congr (sameLink_waitForConnection s)
      rw [waitForConnection]
      split
      · rfl
      · rfl
  | opened i =>
      rw [Ws.step]
      split
      · next hi =>
          have hi : s.readyState i ≠ .CLOSED := by
            rw [hi]
            rintro ⟨⟩
          have hsame := (sameLink_dispatch ({ s.setReadyState i .OPEN with
            reconnectAttempts := 0 } : Ws) (bytes "open") .null).trans
              (sameLink_settle _ i .resolved)
          apply Kept.of_unclosed (i := i)
          rw [onopen, hsame.readyState]
          change (s.setReadyState i .OPEN).readyState i ≠ _
          rw [readyState_setReadyState s hi, if_pos rfl]
          rintro ⟨⟩
      · exact h
  | closing i =>
      rw [Ws.step]
      split
      · next hi =>
          apply Kept.of_unclosed (i := i)
          rw [readyState_setReadyState s (by rw [hi]; rintro ⟨⟩), if_pos rfl]
          rintro ⟨⟩
      · exact h
  | closed i failed code reason =>
      rw [Ws.step]
      split
      · exact h
      · apply kept_onclose
  | message i data =>
      rw [Ws.step]
      split
      · next hi =>
          apply Kept.of_unclosed (i := i)
          rw [(sameLink_onmessage s data).readyState, hi]
          rintro ⟨⟩
      · exact h
  | reconnect id =>
      rw [Ws.step]
      split
      · dsimp only
        split
        · apply kept_createSocket
        · next hoff => exact Kept.of_off (Bool.eq_false_of_not_eq_true hoff)
      · exact h
  | timeout id =>
      apply h.congr (sameLink_timeout s id)
      rw [Ws.step]
      split
      · rfl
      · rfl

/-- Whatever happens, a page that wants a connection does not lose it in silence. -/
theorem everyState_kept (steps : List Step) :
  EveryState step Kept {} steps
  := everyState_of_invariant (fun _ a h => h.step a) (Kept.of_off rfl) steps

/-! ### Acknowledgements -/

def Sent.acked : Sent → Option Bytes
  | .ack id => some id
  | _ => none

/-- The numbers that have been acknowledged, with the sockets they went to. -/
def acks (s : Ws) : List (ℕ × Bytes) :=
  s.sent.filterMap fun sent => (sent.2.acked).map (sent.1, ·)

/-- What a step asks to be acknowledged, with the socket it comes from. -/
def owed (s : Ws) : Step → List (ℕ × Bytes)
  | .message i (.text data) =>
      if s.readyState i = .OPEN then
        (((Json.parse data).bind Wvalue.ackedId).map (i, ·)).toList
      else []
  | _ => []

theorem acks_of_sent {l : List (ℕ × Sent)} (h : t.sent = s.sent ++ l) :
  t.acks = s.acks ++ l.filterMap fun sent => (sent.2.acked).map (sent.1, ·)
  := by rw [acks, acks, h, List.filterMap_append]

theorem acks_of_same (h : t.sent = s.sent) :
  t.acks = s.acks
  := by rw [acks, acks, h]

theorem acks_send_of_acked_none (s : Ws) {data : Sent} (h : data.acked = none) :
  (s.send data).acks = s.acks
  := by
  rw [send]
  split
  · next i hi =>
      split
      · have happend : ({ s with sent := s.sent ++ [(i, data)] } : Ws).sent
            = s.sent ++ [(i, data)] := rfl
        rw [acks_of_sent happend, List.filterMap_cons, h]
        apply List.append_nil
      · rfl
  · rfl

theorem sent_dispatch (s : Ws) (eventName : Bytes) (data : Dispatched) :
  (s.dispatch eventName data).sent = s.sent
  := by
  rw [dispatch]
  split
  · rfl
  · rfl

theorem sent_dispatchMessage (s : Ws) (msg : Json) :
  (s.dispatchMessage msg).sent = s.sent
  := by
  rw [dispatchMessage]
  split
  · split
    · rfl
    · apply sent_dispatch
  · rfl

/-- What comes on the socket of the module is acknowledged on it. -/
theorem acks_acknowledge (msg : Json) {i : ℕ} (hsocket : s.socket = some i)
    (hi : s.readyState i = .OPEN) :
  (s.acknowledge msg).acks = s.acks ++ ((Wvalue.ackedId msg).map (i, ·)).toList
  := by
  rw [acknowledge]
  cases Wvalue.ackedId msg with
  | none => exact (List.append_nil _).symm
  | some id =>
      have hsent : (s.send (.ack id)).sent = s.sent ++ [(i, .ack id)] := by
        rw [send, hsocket]
        dsimp only
        rw [if_pos hi]
      apply acks_of_sent hsent

theorem acks_onmessage (data : Data) {i : ℕ} (hsocket : s.socket = some i)
    (hi : s.readyState i = .OPEN) :
  (s.onmessage data).acks = s.acks ++ s.owed (.message i data)
  := by
  cases data with
  | arrayBuffer data =>
      rw [show s.owed (.message i (.arrayBuffer data)) = [] from rfl, List.append_nil]
      apply acks_of_same (sent_dispatch s _ _)
  | text data =>
      rw [owed, if_pos hi, onmessage]
      cases Json.parse data with
      | none => exact (List.append_nil _).symm
      | some msg =>
          dsimp only
          rw [acks_of_same (sent_dispatchMessage _ msg), acks_acknowledge msg hsocket hi,
            Option.bind_some]

theorem sent_onclose (s : Ws) (code : ℕ) (reason : Bytes) :
  (s.onclose code reason).sent = s.sent
  := by
  rw [onclose]
  dsimp only
  split
  · apply sent_dispatch
  · apply sent_dispatch

theorem acks_step (h : s.Single) (a : Step) :
  (s.step a).acks = s.acks ++ s.owed a
  := by
  cases a with
  | message i data =>
      rw [Ws.step]
      split
      · next hi => apply acks_onmessage data (h.socket i (.inr hi)) hi
      · next hi =>
          have howed : s.owed (.message i data) = [] := by
            cases data with
            | arrayBuffer data => rfl
            | text data => rw [owed, if_neg hi]
          rw [howed, List.append_nil]
  | sendAction text =>
      rw [show s.owed (.sendAction text) = [] from rfl, List.append_nil]
      apply acks_send_of_acked_none s rfl
  | sendBinary data =>
      rw [show s.owed (.sendBinary data) = [] from rfl, List.append_nil]
      apply acks_send_of_acked_none s rfl
  | connect => exact (List.append_nil _).symm
  | disconnect =>
      obtain ⟨_, _, _, _, heq⟩ := s.exists_disconnect
      rw [Ws.step, heq]
      exact (List.append_nil _).symm
  | waitForConnection =>
      rw [show s.owed .waitForConnection = [] from rfl, List.append_nil, Ws.step, waitForConnection]
      split
      · rfl
      · rfl
  | opened i =>
      rw [show s.owed (.opened i) = [] from rfl, List.append_nil, Ws.step]
      split
      · apply acks_of_same (sent_dispatch _ _ _)
      · rfl
  | closing i =>
      rw [show s.owed (.closing i) = [] from rfl, List.append_nil, Ws.step]
      split
      · rfl
      · rfl
  | closed i failed code reason =>
      rw [show s.owed (.closed i failed code reason) = [] from rfl, List.append_nil, Ws.step]
      split
      · rfl
      · apply acks_of_same
        rw [sent_onclose]
        split
        · apply sent_dispatch
        · rfl
  | reconnect id =>
      rw [show s.owed (.reconnect id) = [] from rfl, List.append_nil, Ws.step]
      split
      · dsimp only
        split
        · rfl
        · rfl
      · rfl
  | timeout id =>
      rw [show s.owed (.timeout id) = [] from rfl, List.append_nil, Ws.step]
      split
      · rfl
      · rfl

/-- As long as the page has one connection, each message that asks for it is acknowledged once,
in the order of the messages and on the socket it came from. -/
theorem acks_run {steps : List Step} (h : EveryStep step ConnectsIdle {} steps) :
  (run step {} steps).acks = outputs step owed {} steps
  := by
  have hinv : ∀ s a, Single s → ConnectsIdle s a → (s.step a).Single :=
    fun _ a hs ha => (hs.step a).mpr ha
  apply read_run hinv (fun _ a hs => acks_step hs a) Single.init h

namespace Sample

/-- A page connects, and receives an event with a number and one without. -/
def steps : List Step :=
  [.connect, .opened 0, .message 0 (.text (bytes "\x7b\"id\":7,\"event\":\"kicked\"\x7d")),
    .message 0 (.text (bytes "\x7b\"event\":\"upload_finished\"\x7d"))]

theorem acks_run_steps :
  EveryStep step ConnectsIdle {} steps ∧ (run step {} steps).acks = [(0, bytes "7")]
  := by
  have h : EveryStep step ConnectsIdle {} steps := by
    have hidle : ({} : Ws).Idle := ⟨fun _ => rfl, rfl⟩
    refine ⟨fun _ => hidle, ?_, ?_, ?_, trivial⟩
    all_goals rintro ⟨⟩
  use h
  rw [acks_run h]
  decide +kernel

end Sample

/-! ### Waiting for the connection -/

/-- Each call of `waitForConnection` waits or has come to an end, once, and none waits while
there is a connection. -/
structure Waits (s : Ws) : Prop where
  accounted : (s.waiting ++ s.waited.map Prod.fst).Perm (List.range s.waits)
  connected : s.isConnected = true → s.waiting = []

namespace Waits

/-- A step that tells nobody of an event leaves those who wait where they are. -/
theorem congr (h : s.Waits) (hwaiting : t.waiting = s.waiting) (hwaits : t.waits = s.waits)
    (hwaited : t.waited = s.waited) (hconnected : t.isConnected = true → s.isConnected = true) :
  t.Waits
  where
    accounted := by
      rw [hwaiting, hwaits, hwaited]
      apply h.accounted
    connected := by
      rw [hwaiting]
      exact fun ht => h.connected (hconnected ht)

/-- Whoever waits is told, and nobody waits after that. -/
theorem told (h : s.Waits) (hwaiting : t.waiting = []) (hwaits : t.waits = s.waits)
    (hwaited : t.waited = s.waited ++ s.waiting.map (·, true)) :
  t.Waits
  where
    accounted := by
      have hfst : (Prod.fst ∘ fun id : ℕ => (id, true)) = id := rfl
      rw [hwaiting, hwaits, hwaited, List.nil_append, List.map_append, List.map_map, hfst,
        List.map_id]
      apply List.perm_append_comm.trans h.accounted
    connected _ := hwaiting

end Waits

theorem SameLink.isConnected (h : s.SameLink t) :
  t.isConnected = s.isConnected
  := by
  rw [Ws.isConnected, Ws.isConnected, h.socket]
  congr 1
  funext i
  rw [h.readyState]

theorem isConnected_of_ne_open {i : ℕ} (hsocket : s.socket = some i) (hi : s.readyState i ≠ .OPEN) :
  s.isConnected = false
  := by
  rw [isConnected, hsocket, Option.any_some, beq_eq_false_iff_ne]
  apply hi

/-- An event of the name `open` ends all waits, and another one none. -/
theorem Waits.dispatch (h : s.Waits) (eventName : Bytes) (data : Dispatched) :
  (s.dispatch eventName data).Waits
  := by
  rw [Ws.dispatch]
  dsimp only
  split
  · exact h.told rfl rfl rfl
  · exact h.congr rfl rfl rfl id

theorem Waits.send (h : s.Waits) (data : Sent) :
  (s.send data).Waits
  := by
  rw [Ws.send]
  split
  · split
    · exact h.congr rfl rfl rfl id
    · exact h
  · exact h

theorem Waits.onmessage (h : s.Waits) (data : Data) :
  (s.onmessage data).Waits
  := by
  rw [onmessage.eq_def]
  split
  · apply h.dispatch
  · split
    · next msg _ =>
        have hack : (s.acknowledge msg).Waits := by
          rw [acknowledge]
          split
          · apply h.send
          · exact h
        rw [dispatchMessage]
        split
        · split
          · exact hack
          · apply hack.dispatch
        · exact hack
    · exact h

theorem Waits.onclose (h : s.Waits) (code : ℕ) (reason : Bytes) :
  (s.onclose code reason).Waits
  := by
  have hnone : ({ s with socket := none } : Ws).Waits := by
    refine h.congr rfl rfl rfl ?_
    rintro ⟨⟩
  rw [Ws.onclose]
  dsimp only
  split
  · apply hnone.dispatch
  · have hdispatch := hnone.dispatch (bytes "reconnecting")
      (.reconnecting (s.reconnectAttempts + 1))
    exact hdispatch.congr rfl rfl rfl id

theorem Waits.settle (h : s.Waits) (i : ℕ) (outcome : Promise) :
  (s.settle i outcome).Waits
  := by
  refine h.congr rfl rfl rfl ?_
  rw [(sameLink_settle s i outcome).isConnected]
  exact id

theorem Waits.createSocket (h : s.Waits) (promise : Promise) :
  (s.createSocket promise).Waits
  := by
  refine h.congr rfl rfl rfl ?_
  have hnew : (s.createSocket promise).isConnected = false := by
    apply isConnected_of_ne_open (i := s.sockets.length) rfl
    rw [readyState_createSocket, if_pos rfl]
    rintro ⟨⟩
  rw [hnew]
  rintro ⟨⟩

theorem Waits.disconnect (h : s.Waits) :
  s.disconnect.Waits
  := by
  have hclear : ({ s with autoReconnect := false } : Ws).clearReconnectTimer.Waits := by
    rw [clearReconnectTimer]
    split
    · exact h.congr rfl rfl rfl id
    · exact h.congr rfl rfl rfl id
  rw [Ws.disconnect, closeSocket]
  split
  · rw [close]
    split
    · refine hclear.congr rfl rfl rfl ?_
      rintro ⟨⟩
    · refine hclear.congr rfl rfl rfl ?_
      rintro ⟨⟩
  · exact hclear

theorem Waits.waitForConnection (h : s.Waits) :
  s.waitForConnection.Waits
  := by
  rw [Ws.waitForConnection]
  split
  · next hconnected =>
      constructor
      case accounted =>
        dsimp only
        rw [List.map_append, ← List.append_assoc, List.range_succ]
        apply h.accounted.append_right
      case connected => apply h.connected
  · next hconnected =>
      constructor
      case accounted =>
        dsimp only
        rw [List.append_assoc, List.range_succ]
        apply List.Perm.trans _ (h.accounted.append_right [s.waits])
        rw [List.append_assoc]
        apply List.perm_append_comm.append_left
      case connected => exact fun hc => (hconnected hc).elim

/-- The state of a socket changes to one that is not open. -/
theorem Waits.setReadyState (h : s.Waits) {i : ℕ} (hi : s.readyState i ≠ .CLOSED)
    {r : ReadyState} (hr : r ≠ .OPEN) :
  (s.setReadyState i r).Waits
  := by
  refine h.congr rfl rfl rfl ?_
  rw [isConnected, isConnected, Option.any_eq_true, Option.any_eq_true]
  rintro ⟨j, hj, hopen⟩
  use j, hj
  rw [beq_iff_eq, readyState_setReadyState s hi] at hopen
  split at hopen
  · apply (hr hopen).elim
  · rw [beq_iff_eq]
    apply hopen

theorem Waits.opened (h : s.Waits) (i : ℕ) :
  (s.step (.opened i)).Waits
  := by
  rw [Ws.step]
  split
  · -- whoever waits is told in the step in which the socket is opened
    apply Waits.settle
    rw [Ws.dispatch]
    dsimp only
    rw [if_pos rfl]
    exact h.told rfl rfl rfl
  · exact h

theorem Waits.timeout (h : s.Waits) (id : ℕ) :
  (s.step (.timeout id)).Waits
  := by
  rw [Ws.step]
  split
  · next hid =>
      have hnodup : s.waiting.Nodup := by
        apply List.Nodup.of_append_left
        apply h.accounted.nodup_iff.mpr List.nodup_range
      constructor
      case accounted =>
        dsimp only
        apply List.Perm.trans _ h.accounted
        rw [List.map_append, ← List.append_assoc]
        apply List.perm_append_comm.trans
        rw [← List.append_assoc]
        apply List.Perm.append_right
        rw [← List.Nodup.erase_eq_filter hnodup]
        apply (List.perm_cons_erase hid).symm
      case connected =>
        intro hc
        dsimp only
        rw [h.connected hc]
        rfl
  · exact h

theorem Waits.step (h : s.Waits) (a : Step) :
  (s.step a).Waits
  := by
  cases a with
  | connect =>
      apply Waits.createSocket
      exact h.congr rfl rfl rfl id
  | disconnect => apply h.disconnect
  | sendAction text => apply h.send
  | sendBinary data => apply h.send
  | waitForConnection => apply h.waitForConnection
  | opened i => apply h.opened
  | closing i =>
      rw [Ws.step]
      split
      · next hi => apply h.setReadyState (by rw [hi]; rintro ⟨⟩) (by rintro ⟨⟩)
      · exact h
  | closed i failed code reason =>
      rw [Ws.step]
      split
      · exact h
      · next hi =>
          have hclosed : (s.setReadyState i .CLOSED).Waits := h.setReadyState hi (by rintro ⟨⟩)
          apply Waits.onclose
          split
          · apply (hclosed.dispatch _ _).settle
          · exact hclosed
  | message i data =>
      rw [Ws.step]
      split
      · apply h.onmessage
      · exact h
  | reconnect id =>
      rw [Ws.step]
      split
      · have hfired : ({ s with
            timers := s.timers.filter (·.1 != id), reconnectTimer := none } : Ws).Waits :=
          h.congr rfl rfl rfl fun hc => hc
        dsimp only
        split
        · apply hfired.createSocket
        · exact hfired
      · exact h
  | timeout id => apply h.timeout

end Ws

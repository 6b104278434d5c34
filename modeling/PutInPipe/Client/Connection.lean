import PutInPipe.Library.Run

/-!
# The connections of a client

A client refers to its WebSocket by a weak pointer and has a timer that removes it from
`ClientList`. The handlers of the server stop the timer when a connection is opened and
start it when one is closed; the latter tells them which client the connection belongs to,
not which connection it is. So the client keeps track of its connections as long as a
connection is only closed when no other one is open.

Connections are numbered in the order in which they are opened.
-/

/-- `TimerCallback`: whether the timer is running. -/
structure TimerCallback where
  isRunning : Bool := false
deriving DecidableEq, Repr

namespace TimerCallback

/-- Starting a timer that is running does nothing. -/
def start (t : TimerCallback) : TimerCallback :=
  if t.isRunning then t else { isRunning := true }

def stop (t : TimerCallback) : TimerCallback :=
  if t.isRunning then { isRunning := false } else t

def restart (t : TimerCallback) : TimerCallback := t.stop.start

@[simp]
theorem isRunning_start (t : TimerCallback) :
  t.start.isRunning = true
  := by
  rw [start]
  split
  · assumption
  · rfl

@[simp]
theorem isRunning_stop (t : TimerCallback) :
  t.stop.isRunning = false
  := by
  rw [stop]
  split
  · rfl
  · rename_i h
    simpa using h

end TimerCallback

/-- What a client publishes about its connection. -/
inductive ClientsDirect where
  | connected
  | disconnected
deriving DecidableEq, Repr

/-- The part of a `Client` that deals with its connection. -/
structure Client where
  webSocketConnection : Option ℕ := none
  wsTimeoutTimer : TimerCallback := TimerCallback.start {}
  -- the connections the server has asked to close
  closeRequests : List ℕ := []
  published : List ClientsDirect := []
deriving DecidableEq, Repr

namespace Client

def online (c : Client) : Bool := !c.wsTimeoutTimer.isRunning

def dropCurrentWsConnection (c : Client) : Client :=
  match c.webSocketConnection with
  | some ws => { c with closeRequests := c.closeRequests ++ [ws] }
  | none => c

def onWebSocketDisconnected (c : Client) : Client :=
  { c with
    webSocketConnection := none
    wsTimeoutTimer := c.wsTimeoutTimer.start
    published := c.published ++ [.disconnected] }

def onWebSocketConnected (c : Client) (connection : ℕ) : Client :=
  { c with
    webSocketConnection := some connection
    wsTimeoutTimer := c.wsTimeoutTimer.stop
    published := c.published ++ [.connected] }

def resetWsTimeoutTimerIfItActive (c : Client) : Client :=
  if c.wsTimeoutTimer.isRunning then { c with wsTimeoutTimer := c.wsTimeoutTimer.restart }
  else c

end Client

/-- A client together with its open connections. -/
structure Connections where
  client : Client := {}
  -- `ClientList` holds the client
  listed : Bool := true
  -- the number of connections opened so far
  opened : ℕ := 0
  openConnections : List ℕ := []
deriving DecidableEq, Repr

namespace Connections

/-- What happens to a client: a connection is accepted and opened, the close handler of a
connection runs, the timer expires, or the client sends a request. -/
inductive Event where
  | opened
  | closed (connection : ℕ)
  | timeout
  | request
deriving DecidableEq, Repr

/-- `wsOnAccept` asks for the current connection to be closed. -/
def wsOnAccept (s : Connections) : Connections :=
  if s.client.online then { s with client := s.client.dropCurrentWsConnection } else s

/-- `wsOnConnect` hands the connection to the client. -/
def wsOnConnect (s : Connections) : Connections :=
  { s with
    client := s.client.onWebSocketConnected s.opened
    opened := s.opened + 1
    openConnections := s.openConnections ++ [s.opened] }

/-- `wsOnClose` destroys the `WebSocketConnection`, whose destructor notifies the client if
it still exists. -/
def wsOnClose (s : Connections) (connection : ℕ) : Connections :=
  if connection ∈ s.openConnections then
    { s with
      client := if s.listed then s.client.onWebSocketDisconnected else s.client
      openConnections := s.openConnections.erase connection }
  else s

/-- The timer removes the client, and the destructor of the client asks for its connection
to be closed. -/
def onTimeout (s : Connections) : Connections :=
  if s.listed && s.client.wsTimeoutTimer.isRunning then
    { s with
      client := { s.client with wsTimeoutTimer := {} }.dropCurrentWsConnection
      listed := false }
  else s

/-- A client that is not listed cannot be found by its token, and its handshakes are not
accepted. -/
def step (s : Connections) : Event → Connections
  | .opened => if s.listed then s.wsOnAccept.wsOnConnect else s
  | .closed connection => s.wsOnClose connection
  | .timeout => s.onTimeout
  | .request =>
      if s.listed then { s with client := s.client.resetWsTimeoutTimerIfItActive } else s

/-! ### Tracking the connections -/

/-- The client refers to the newest connection while that one is open, its timer is running
exactly when no connection is open, and it is only removed then. -/
structure Tracked (s : Connections) : Prop where
  newest : s.listed = true → ∀ k, s.opened = k + 1 → k ∈ s.openConnections →
    s.client.webSocketConnection = some k
  timer : s.listed = true →
    (s.client.wsTimeoutTimer.isRunning = true ↔ s.openConnections = [])
  kept : s.openConnections ≠ [] → s.listed = true

/-- A connection is closed only when no other one is open. -/
def ClosesOnlyOne (s : Connections) : Event → Prop
  | .closed connection => connection ∈ s.openConnections → s.openConnections = [connection]
  | _ => True

variable {s : Connections}

theorem tracked_opened (hs : s.Tracked) :
  (s.step .opened).Tracked
  := by
  rw [step]
  split
  · rename_i hl
    constructor
    · intro _ k hk _
      have hnewest : s.wsOnAccept.opened = k := by
        simp only [wsOnConnect] at hk
        omega
      apply congrArg some hnewest
    · simp [wsOnConnect, Client.onWebSocketConnected]
    · intro _
      rw [wsOnConnect, wsOnAccept]
      split <;> exact hl
  · apply hs

/-- Closing one of the open connections is tracked exactly when it is the only one. -/
theorem tracked_closed (hs : s.Tracked) {connection : ℕ} :
  (s.step (.closed connection)).Tracked ↔ s.ClosesOnlyOne (.closed connection)
  := by
  rw [step, wsOnClose, ClosesOnlyOne]
  split
  · rename_i hmem
    have hl : s.listed = true := hs.kept (List.ne_nil_of_mem hmem)
    simp only [hl, if_true, hmem, forall_const]
    constructor
    · intro h
      have hnil : s.openConnections.erase connection = [] := by
        apply (h.timer rfl).mp
        simp [Client.onWebSocketDisconnected]
      rcases List.erase_eq_nil_iff.mp hnil with hnil | hone
      · rw [hnil] at hmem
        cases hmem
      · apply hone
    · intro hone
      constructor
      · simp [hone]
      · simp [hone, Client.onWebSocketDisconnected]
      · simp
  · rename_i hmem
    simp [hs, hmem]

theorem tracked_timeout (hs : s.Tracked) :
  (s.step .timeout).Tracked
  := by
  rw [step, onTimeout]
  split
  · rename_i h
    rw [Bool.and_eq_true] at h
    have hnil := (hs.timer h.1).mp h.2
    constructor
    · intro hl
      cases hl
    · intro hl
      cases hl
    · intro hne
      exact absurd hnil hne
  · apply hs

theorem tracked_request (hs : s.Tracked) :
  (s.step .request).Tracked
  := by
  rw [step]
  split
  · rw [Client.resetWsTimeoutTimerIfItActive]
    split
    · rename_i hrun
      constructor
      · apply hs.newest
      · intro hl
        simp [TimerCallback.restart, ← hs.timer hl, hrun]
      · apply hs.kept
    · apply hs
  · apply hs

/-- An event keeps the connections tracked exactly when it closes no connection beside an
open one. -/
theorem tracked_step (hs : s.Tracked) (e : Event) :
  (s.step e).Tracked ↔ s.ClosesOnlyOne e
  := by
  cases e with
  | opened => exact iff_of_true (tracked_opened hs) trivial
  | closed connection => apply tracked_closed hs
  | timeout => exact iff_of_true (tracked_timeout hs) trivial
  | request => exact iff_of_true (tracked_request hs) trivial

/-- Throughout a run of events the client keeps track of its connections, exactly when
every connection is closed while no other one is open. -/
theorem tracked_iff (events : List Event) :
  Machine.EveryState step Tracked {} events ↔ Machine.EveryStep step ClosesOnlyOne {} events
  := by
  apply Machine.everyState_iff_everyStep_of_step
  · intro s e hs
    apply tracked_step hs
  · constructor
    · intro _ k _ hmem
      cases hmem
    · exact fun _ => iff_of_true rfl rfl
    · exact fun h => absurd rfl h

/-- A second connection is opened before the first one is closed, and the timer expires. -/
def overlapping : List Event := [.opened, .opened, .closed 0, .timeout]

/-- After those events the client is removed although its second connection is open. -/
theorem not_tracked_overlapping :
  ¬ ∀ events, Machine.EveryState step Tracked {} events
  := by
  intro h
  have hkept := (h overlapping).last.kept (by decide)
  revert hkept
  decide

/-! ### The timer of a client without connections -/

/-- A client without connections has its timer running. -/
def Watched (s : Connections) : Prop :=
  s.listed = true → s.openConnections = [] → s.client.wsTimeoutTimer.isRunning = true

theorem watched_step (hs : s.Watched) (e : Event) :
  (s.step e).Watched
  := by
  cases e with
  | opened =>
      rw [step]
      split
      · intro _ hnil
        simp [wsOnConnect] at hnil
      · apply hs
  | closed connection =>
      rw [step, wsOnClose]
      split
      · intro hl _
        replace hl : s.listed = true := hl
        simp [hl, Client.onWebSocketDisconnected]
      · apply hs
  | timeout =>
      rw [step, onTimeout]
      split
      · intro hl
        cases hl
      · apply hs
  | request =>
      rw [step]
      split
      · rename_i hl
        intro _ hnil
        simp [Client.resetWsTimeoutTimerIfItActive, hs hl hnil, TimerCallback.restart]
      · apply hs

/-- Whatever the order of the events, a client without connections has its timer running,
so that it does not stay forever. -/
theorem watched_of_reachable (hs : Machine.Reachable step {} s) :
  s.Watched
  := by
  apply hs.invariant
  · exact fun s e hs => watched_step hs e
  · exact fun _ _ => rfl

end Connections

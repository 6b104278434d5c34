import PutInPipe.Library.Endian
import PutInPipe.Library.Run

/-!
# A WebSocket connection

`Connection` is `crow::websocket::Connection` after the handshake: the machine of `do_read`, which
reads a frame in pieces, `handle_fragment`, the buffers of `do_write`, and the tasks that are
posted to the context of the connection, where one thing happens after the other. The machine
is little-endian, and the connection is compiled with `CROW_ENFORCE_WS_SPEC`.

`async_read` comes back with as many bytes as it is asked for, `async_read_some` with at least one
of them, and it is also how the first two bytes of a frame are read. A handler that has deleted its
connection with `check_destroy` goes on with it as the code does. After that handler a deleted
connection takes no step: what still comes back to it would use what is no longer there.
-/

open Text (Bytes)
open Endian (ofLE toLE toBE)

namespace WebSocket

inductive ReadState where
  | miniHeader
  | len16
  | len64
  | mask
  | payload
deriving DecidableEq, Repr

def UnacceptableData : ℕ := 1003

def NoStatusCodePresent : ℕ := 1005

def ClosedAbnormally : ℕ := 1006

def MessageTooBig : ℕ := 1009

/-- The number of bytes in the most significant order. -/
def ofBE (b : Bytes) : ℕ := ofLE b.reverse

/-- `htonl` and `ntohl`. -/
def swap32 (n : ℕ) : ℕ := ofBE (toLE 4 n)

/-- `mini_header_` when `got` has come of its two bytes. The others are zero. -/
def miniHeaderOf (got : Bytes) : ℕ := (got.getD 0 0).toNat * 256 + (got.getD 1 0).toNat

/-- What `do_read` knows of the frame that it reads. -/
structure Reading where
  state : ReadState := .miniHeader
  miniHeader : ℕ := 0
  remainingLength : ℕ := 0
  hasMask : Bool := false
  mask : Bytes := []
  fragment : Bytes := []
deriving DecidableEq, Repr

namespace Reading

def isFIN (r : Reading) : Bool := r.miniHeader &&& 0x8000 ≠ 0

def opcode (r : Reading) : ℕ := (r.miniHeader &&& 0x0f00) >>> 8

/-- The fragment without its mask. -/
def unmasked (r : Reading) : Bytes :=
  if r.hasMask then r.fragment.mapIdx fun i c => c ^^^ r.mask.getD (i % 4) 0 else r.fragment

end Reading

/-- A call of a handler. -/
inductive Handled where
  | message (data : Bytes) (isBinary : Bool)
  | closed (reason : Bytes) (status : ℕ)
deriving DecidableEq, Repr

/-- What is sent. -/
inductive Opcode where
  | text
  | binary
  | close
  | ping
  | pong
deriving DecidableEq, Repr

def Opcode.toNat : Opcode → ℕ
  | .text => 1
  | .binary => 2
  | .close => 8
  | .ping => 9
  | .pong => 10

/-- What is posted to the context of the connection. -/
inductive Task where
  | send (opcode : Opcode) (msg : Bytes)
  | close (msg : Bytes) (status : ℕ)
deriving DecidableEq, Repr

structure Connection where
  reading : Reading := {}
  isReading : Bool := true
  -- whether an operation that reads has been started and has not come back
  isPending : Bool := true
  isBinary : Bool
  message : Bytes := []
  sendingBuffers : List Bytes := []
  writeBuffers : List Bytes := []
  closeConnection : Bool := false
  hasSentClose : Bool := false
  hasRecvClose : Bool := false
  pongReceived : Bool := false
  isCloseHandlerCalled : Bool := false
  tasks : List Task := []
  -- the socket is open, what comes from it, and what was written to it
  isOpen : Bool := true
  incoming : Bytes
  written : Bytes := []
  deleted : Bool := false
  handled : List Handled := []
  -- the frames that were put into the buffers
  sent : List (Opcode × Bytes) := []
deriving DecidableEq, Repr

/-- `build_header`. -/
def buildHeader (opcode size : ℕ) : Bytes :=
  let first := UInt8.ofNat (0x80 + opcode)
  if size < 126 then [first, UInt8.ofNat size]
  else if size < 0x10000 then first :: 126 :: toLE 2 (ofBE (toLE 2 size))
  else first :: 127 :: toLE 8 (swap32 (size &&& 0xFFFFFFFF) <<< 32 ||| swap32 (size >>> 32))

namespace Connection

/-! ### Writing -/

def doWrite (c : Connection) : Connection :=
  if c.sendingBuffers.isEmpty then
    { c with sendingBuffers := c.writeBuffers, writeBuffers := [] }
  else c

/-- The buffers of a frame are appended and `do_write` is called. -/
def write (c : Connection) (opcode : Opcode) (pieces : List Bytes) : Connection :=
  { c with
    writeBuffers := c.writeBuffers ++ buildHeader opcode.toNat pieces.flatten.length :: pieces
    sent := c.sent ++ [(opcode, pieces.flatten)] }.doWrite

def close (c : Connection) (msg : Bytes) (status : ℕ) : Connection :=
  let c := { c with hasSentClose := true }
  let c :=
    if c.hasRecvClose && !c.isCloseHandlerCalled then
      { c with isCloseHandlerCalled := true, handled := c.handled ++ [.closed msg status] }
    else c
  c.write .close [toBE 2 status, msg]

/-- The close handler is called whether it was called here before or not. -/
def checkDestroy (c : Connection) (code : ℕ) : Connection :=
  { c with
    handled :=
      if c.isCloseHandlerCalled then c.handled
      else c.handled ++ [.closed [117, 110, 99, 108, 101, 97, 110, 108, 121] code]
    deleted := c.deleted || c.sendingBuffers.isEmpty && !c.isReading }

/-- The completion handler of `async_write`. -/
def onWritten (c : Connection) (ok : Bool) (n : ℕ) : Connection :=
  let bytes := c.sendingBuffers.flatten
  if ok && !c.closeConnection then
    let c := { c with written := c.written ++ bytes, sendingBuffers := [] }
    let c := if c.writeBuffers.isEmpty then c else c.doWrite
    if c.hasSentClose then { c with closeConnection := true } else c
  else
    { c with
      written := c.written ++ (if ok then bytes else bytes.take n)
      sendingBuffers := []
      closeConnection := true }.checkDestroy ClosedAbnormally

/-- A task of the context. -/
def runTask (c : Connection) : Task → Connection
  | .send opcode msg => c.write opcode [msg]
  | .close msg status => c.close msg status

/-! ### Messages -/

section

-- the message handler may close the connection
variable (maxPayloadBytes : ℕ) (onMessage : List Handled → Option (Bytes × ℕ))

/-- A fragment is appended to the message, which is handed over after the last one. -/
def appendFragment (c : Connection) (fin : Bool) (fragment : Bytes) : Connection :=
  let c := { c with message := c.message ++ fragment }
  if fin then
    let c := { c with handled := c.handled ++ [Handled.message c.message c.isBinary] }
    let c :=
      match onMessage c.handled with
      | some (msg, status) => c.close msg status
      | none => c
    { c with message := [] }
  else c

/-- The branch of `handle_fragment` for the opcode of closing. -/
def onClose (c : Connection) (fragment : Bytes) : Connection × Bool :=
  let c := { c with hasRecvClose := true }
  let status := if 2 ≤ fragment.length then ofBE (fragment.take 2) else NoStatusCodePresent
  let reason := if 2 ≤ fragment.length then fragment.drop 2 else fragment
  if c.hasSentClose then
    let c := { c with closeConnection := true }
    let c :=
      if c.isCloseHandlerCalled then c
      else { c with isCloseHandlerCalled := true, handled := c.handled ++ [.closed reason status] }
    ({ c with isOpen := false }.checkDestroy ClosedAbnormally, false)
  else (c.close reason status, true)

/-- `handle_fragment`, for a fragment without its mask. The flag says whether to go on. -/
def handleFrame (c : Connection) (fin : Bool) (opcode : ℕ) (fragment : Bytes) :
    Connection × Bool :=
  match opcode with
  | 0 => (c.appendFragment onMessage fin fragment, true)
  | 1 => ({ c with isBinary := false }.appendFragment onMessage fin fragment, true)
  | 2 => ({ c with isBinary := true }.appendFragment onMessage fin fragment, true)
  | 8 => c.onClose fragment
  | 9 => ({ c with tasks := c.tasks ++ [.send .pong fragment] }, true)
  | 10 => ({ c with pongReceived := true }, true)
  | _ => (c, true)

/-! ### Reading -/

/-- `do_read`, up to the start of the next operation. -/
def doRead (c : Connection) : Connection :=
  if c.hasSentClose && c.hasRecvClose then
    { c with closeConnection := true, isOpen := false }.checkDestroy ClosedAbnormally
  else
    let c := { c with isReading := true }
    let r := c.reading
    match r.state with
    | .miniHeader => { c with isPending := true, reading := { r with miniHeader := 0 } }
    | .len16 => { c with isPending := true, reading := { r with remainingLength := 0 } }
    | .len64 => { c with isPending := true }
    | .mask =>
        if maxPayloadBytes < r.remainingLength then
          { c with closeConnection := true, isOpen := false }.checkDestroy MessageTooBig
        else if r.hasMask then { c with isPending := true }
        else { c with isPending := true, reading := { r with state := .payload } }
    | .payload => { c with isPending := true }

/-- The operation has got `n` bytes. -/
def onBytes (c : Connection) (r : Reading) (n : ℕ) : Connection :=
  { c with isReading := false, isPending := false, reading := r, incoming := c.incoming.drop n }

/-- What the header says of the length. -/
def onHeader (c : Connection) : Connection :=
  let length := c.reading.miniHeader &&& 0x7f
  let r :=
    if length = 127 then { c.reading with state := .len64 }
    else if length = 126 then { c.reading with state := .len16 }
    else { c.reading with remainingLength := length, state := .mask }
  { c with reading := r }.doRead maxPayloadBytes

/-- `async_read_some` has got `got` of the first two bytes. -/
def onMiniHeader (c : Connection) (got : Bytes) : Connection :=
  let header := miniHeaderOf got
  let c := c.onBytes { c.reading with miniHeader := header } got.length
  let c :=
    if header &&& 0x80 = 0x80 then { c with reading := { c.reading with hasMask := true } }
    else { c with closeConnection := true, isOpen := false }.checkDestroy UnacceptableData
  -- also when `check_destroy` has deleted the connection
  c.onHeader maxPayloadBytes

def onLen16 (c : Connection) : Connection :=
  let r := { c.reading with remainingLength := ofBE (c.incoming.take 2), state := .mask }
  (c.onBytes r 2).doRead maxPayloadBytes

def onLen64 (c : Connection) : Connection :=
  let n := ofLE (c.incoming.take 8)
  let length := swap32 (n &&& 0xFFFFFFFF) <<< 32 ||| swap32 (n >>> 32)
  (c.onBytes { c.reading with remainingLength := length, state := .mask } 8).doRead maxPayloadBytes

def onMask (c : Connection) : Connection :=
  (c.onBytes { c.reading with mask := c.incoming.take 4, state := .payload } 4).doRead
    maxPayloadBytes

/-- The payload of a frame has been read. -/
def onFragment (c : Connection) : Connection :=
  match c.handleFrame onMessage c.reading.isFIN c.reading.opcode c.reading.unmasked with
  | (c, true) =>
      { c with reading := { c.reading with fragment := [], state := .miniHeader } }.doRead
        maxPayloadBytes
  | (c, false) => c

def onPayload (c : Connection) (got : Bytes) : Connection :=
  let r := { c.reading with
    fragment := c.reading.fragment ++ got
    remainingLength := c.reading.remainingLength - got.length }
  let c := c.onBytes r got.length
  if r.remainingLength = 0 then c.onFragment maxPayloadBytes onMessage
  else c.doRead maxPayloadBytes

/-- The operation comes back, if there is something to come back with. Where it may come back with
less than it is asked for, it has at most `k` bytes. -/
def onRead (c : Connection) (k : ℕ) : Connection :=
  match c.reading.state with
  | .miniHeader =>
      if c.incoming.isEmpty then c
      else c.onMiniHeader maxPayloadBytes (c.incoming.take (min 2 (max 1 k)))
  | .len16 => if c.incoming.length < 2 then c else c.onLen16 maxPayloadBytes
  | .len64 => if c.incoming.length < 8 then c else c.onLen64 maxPayloadBytes
  | .mask => if c.incoming.length < 4 then c else c.onMask maxPayloadBytes
  | .payload =>
      let toRead := min 4096 c.reading.remainingLength
      if toRead ≠ 0 ∧ c.incoming.isEmpty then c
      else c.onPayload maxPayloadBytes onMessage (c.incoming.take (min toRead (max 1 k)))

/-! ### Runs -/

/-- What happens next: the pending read comes back, with at most `k` bytes or an error, something
is posted, the next task runs, another handler of the same thread closes the connection, which
`dispatch` does at once, or the pending write comes back, after `n` bytes if it fails. -/
inductive Step where
  | read (k : ℕ)
  | readError
  | post (task : Task)
  | task
  | close (msg : Bytes) (status : ℕ)
  | written (ok : Bool) (n : ℕ)
deriving DecidableEq, Repr

def step (c : Connection) (l : Step) : Connection :=
  if c.deleted then c
  else
    match l with
    | .read k => if c.isOpen && c.isPending then c.onRead maxPayloadBytes onMessage k else c
    | .readError =>
        if c.isPending then
          { c with
            isReading := false
            isPending := false
            closeConnection := true
            isOpen := false }.checkDestroy ClosedAbnormally
        else c
    | .post task => { c with tasks := c.tasks ++ [task] }
    | .task =>
        match c.tasks with
        | [] => c
        | task :: tasks => { c with tasks }.runTask task
    | .close msg status => c.close msg status
    | .written ok n => if c.sendingBuffers.isEmpty then c else c.onWritten ok n

end

/-- The connection when the handshake is about to be sent. -/
def start (isBinary : Bool) (hello : List Bytes) (incoming : Bytes) : Connection where
  isBinary
  sendingBuffers := hello
  incoming

end Connection

end WebSocket

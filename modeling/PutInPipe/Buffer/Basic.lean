import PutInPipe.Library.OrderedMap
import Mathlib.Data.Finset.Card

/-!
# The chunk buffer

`Buffer` holds the uploaded chunks of a session by index, together with the set of the
public ids of the receivers that are expected to download each of them. A chunk counts
the confirmations it has received; the number it waits for is the present size of the
shared set of consumers. `sanitize` drops the chunks that wait for nobody, unless the
initial freeze is on.

The locks of the source are not modelled: an operation runs as one step. Sizes and
counters are natural numbers.
-/

namespace TransferSessionDetails

abbrev Bytes := List UInt8

/-- The settings of `Config` that a buffer reads. -/
structure Config where
  transferSessionMaxChunkSize : ℕ
  transferSessionChunkQueueMaxSize : ℕ
  transferSessionMaxConsumerCount : ℕ

/-! ### The set of consumers -/

abbrev AtomicSet (α : Type) := Finset α

namespace AtomicSet

variable {α : Type} [DecidableEq α]

def size (s : AtomicSet α) : ℕ := s.card

/-- Erase `value`; the flag tells whether it was present. -/
def remove (s : AtomicSet α) (value : α) : AtomicSet α × Bool :=
  (s.erase value, decide (value ∈ s))

/-- Insert `value`; the flag tells whether it was absent. -/
def add (s : AtomicSet α) (value : α) : AtomicSet α × Bool :=
  (insert value s, decide (value ∉ s))

end AtomicSet

/-! ### Chunks -/

structure Chunk where
  data : Bytes
  uses : ℕ := 0
deriving DecidableEq, Repr

namespace Chunk

/-- The number of confirmations still to come, for `expected` consumers. -/
def howMuchIsLeft (chunk : Chunk) (expected : ℕ) : ℕ :=
  if chunk.uses ≥ expected then 0 else expected - chunk.uses

def incrementUses (chunk : Chunk) (expected : ℕ) : Chunk :=
  if expected > chunk.uses then { chunk with uses := chunk.uses + 1 } else chunk

def dataSize (chunk : Chunk) : ℕ := chunk.data.length

theorem howMuchIsLeft_eq (chunk : Chunk) (expected : ℕ) :
  chunk.howMuchIsLeft expected = expected - chunk.uses
  := by
  rw [howMuchIsLeft]
  split <;> omega

theorem howMuchIsLeft_eq_zero {chunk : Chunk} {expected : ℕ} :
  chunk.howMuchIsLeft expected = 0 ↔ expected ≤ chunk.uses
  := by
  rw [howMuchIsLeft_eq]
  omega

/-- Counting a confirmation reaches what is one more than before, within the limit. -/
theorem le_uses_incrementUses {chunk : Chunk} {n expected : ℕ} (h : n ≤ chunk.uses + 1)
    (hn : n ≤ expected) :
  n ≤ (chunk.incrementUses expected).uses
  := by
  rw [incrementUses]
  split
  · apply h
  · omega

@[simp]
theorem data_incrementUses (chunk : Chunk) (expected : ℕ) :
  (chunk.incrementUses expected).data = chunk.data
  := by
  rw [incrementUses]
  split <;> rfl

end Chunk

/-! ### The buffer -/

/-- `Event::Data::ChunkInfo`. -/
structure ChunkInfo where
  index : ℕ
  size : ℕ
deriving DecidableEq, Repr

structure Buffer where
  expectedConsumers : AtomicSet String := ∅
  chunks : OrderedMap ℕ Chunk := .empty
  chunksMaxIndex : ℕ := 0
  bytesInTotal : ℕ := 0
  bytesOutTotal : ℕ := 0
  someChunkWasRemoved : Bool := false
  EOF : Bool := false
  initialChunksFreezing : Bool := true

namespace Buffer

def bytesIn (b : Buffer) : ℕ := b.bytesInTotal

def bytesOut (b : Buffer) : ℕ := b.bytesOutTotal

def currentMaxChunkIndex (b : Buffer) : ℕ := b.chunksMaxIndex

def chunkCount (b : Buffer) : ℕ := b.chunks.size

def newChunkIsAllowed (config : Config) (b : Buffer) : Bool :=
  config.transferSessionChunkQueueMaxSize > b.chunkCount

def chunksIndex (b : Buffer) : List ℕ := b.chunks.keys

def chunksInfo (b : Buffer) : List ChunkInfo :=
  b.chunks.entries.map (fun c => ⟨c.1, c.2.dataSize⟩)

def eof (b : Buffer) : Bool := b.EOF

def someChunksWasRemoved (b : Buffer) : Bool := b.someChunkWasRemoved

def expectedConsumerCount (b : Buffer) : ℕ := b.expectedConsumers.size

/-- The part of `addChunk` that holds the mutex. -/
def insertChunk (config : Config) (b : Buffer) (binaryData : Bytes) : Buffer × ℕ :=
  if config.transferSessionChunkQueueMaxSize ≤ b.chunks.size then (b, 0)
  else
    let index := b.chunksMaxIndex + 1
    let (chunks, inserted) := b.chunks.tryEmplace index { data := binaryData }
    if inserted then
      ({ b with
          chunks
          chunksMaxIndex := index
          bytesInTotal := b.bytesInTotal + binaryData.length }, index)
    else ({ b with chunks, chunksMaxIndex := index - 1 }, index - 1)

/-- Append a chunk. The second component is the index of the new chunk, or 0. Whether the upload is
finished, and the size, are tested before the mutex is locked. -/
def addChunk (config : Config) (b : Buffer) (binaryData : Bytes) : Buffer × ℕ :=
  if b.EOF then (b, 0)
  else if binaryData.length > config.transferSessionMaxChunkSize then (b, 0)
  else b.insertChunk config binaryData

/-- `operator[]`: the data of a chunk. Reading it counts its bytes as sent. -/
def get (b : Buffer) (index : ℕ) : Buffer × Option Bytes :=
  match b.chunks.find? index with
  | none => (b, none)
  | some chunk =>
      ({ b with bytesOutTotal := b.bytesOutTotal + chunk.dataSize }, some chunk.data)

/-- Drop the chunks that wait for nobody. The second component lists their indices. -/
def sanitize (b : Buffer) : Buffer × List ℕ :=
  if b.initialChunksFreezing then (b, [])
  else
    let (chunks, removed) :=
      b.chunks.eraseIf (fun chunk => chunk.howMuchIsLeft b.expectedConsumers.size == 0)
    ({ b with
        chunks
        someChunkWasRemoved := b.someChunkWasRemoved || !removed.isEmpty }, removed)

/-- Count one more confirmation of a chunk. The last component is false when there is no
such chunk. -/
def setChunkAsReceived (b : Buffer) (index : ℕ) : Buffer × List ℕ × Bool :=
  match b.chunks.find? index with
  | none => (b, [], false)
  | some _ =>
      let chunks := b.chunks.modify index (·.incrementUses b.expectedConsumers.size)
      let (b, removedChunks) := sanitize { b with chunks }
      (b, removedChunks, true)

def setEndOfFile (b : Buffer) : Buffer :=
  if b.EOF then b else { b with EOF := true }

/-- Drop the freeze. The last component is false when it was dropped before. -/
def setInitialChunksFreezingDropped (b : Buffer) : Buffer × List ℕ × Bool :=
  if !b.initialChunksFreezing then (b, [], false)
  else
    let (b, removedChunks) := sanitize { b with initialChunksFreezing := false }
    (b, removedChunks, true)

def addNewToExpectedConsumers (config : Config) (b : Buffer) (publicId : String) :
    Buffer × Bool :=
  if b.someChunkWasRemoved
      || b.expectedConsumers.size + 1 > config.transferSessionMaxConsumerCount then (b, false)
  else
    let (expectedConsumers, inserted) := b.expectedConsumers.add publicId
    if !inserted then ({ b with expectedConsumers }, false)
    else ({ b with expectedConsumers }, true)

def removeOneFromExpectedConsumers (b : Buffer) (publicId : String) : Buffer × List ℕ :=
  let (expectedConsumers, erased) := b.expectedConsumers.remove publicId
  if erased then sanitize { b with expectedConsumers } else ({ b with expectedConsumers }, [])

end Buffer

end TransferSessionDetails

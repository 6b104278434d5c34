import PutInPipe.Buffer.Run
import PutInPipe.Library.PrunedLog
import Mathlib.Algebra.Ring.Nat

/-!
# A buffer stores a pruned log

Whatever is done to a buffer, it stores a `PrunedLog` of the payloads it has accepted: an
accepted chunk is appended, and the chunks that `sanitize` drops are pruned. The flag
`someChunkWasRemoved` tells whether anything was pruned. Hence the indices of the chunks
are consecutive, an index is never used twice, and a chunk that is gone stays gone.
-/

namespace TransferSessionDetails

namespace Buffer

variable {config : Config} {b : Buffer} {L : PrunedLog Bytes}

/-- The payload an operation makes the buffer accept. -/
def accepted (config : Config) (b : Buffer) : Op → Option Bytes
  | .addChunk binaryData =>
      if (b.addChunk config binaryData).2 ≠ 0 then some binaryData else none
  | _ => none

/-- The buffer stores the held entries of the log. -/
structure Stores (b : Buffer) (L : PrunedLog Bytes) : Prop where
  maxIndex : b.chunksMaxIndex = L.entries.length
  bytesIn : b.bytesInTotal = (L.entries.map List.length).sum
  data : ∀ i, (b.chunks.find? i).map Chunk.data = L.read i
  removed : b.someChunkWasRemoved = false ↔ L.Complete

namespace Stores

theorem empty :
  Stores {} PrunedLog.empty
  where
    maxIndex := rfl
    bytesIn := rfl
    data i := by simp [PrunedLog.read, PrunedLog.empty]
    removed := iff_of_true rfl PrunedLog.complete_empty

theorem mem_held (h : b.Stores L) {i : ℕ} :
  i ∈ L.held ↔ ∃ chunk, b.chunks.find? i = some chunk
  := by
  rw [← not_iff_not, ← PrunedLog.read_eq_none, ← h.data, Option.map_eq_none_iff, not_exists]
  apply Option.eq_none_iff_forall_ne_some

/-! ### The operations -/

theorem addChunk (h : b.Stores L) (hw : b.WellFormed config) {binaryData : Bytes}
    (heof : b.EOF = false) (hsize : binaryData.length ≤ config.transferSessionMaxChunkSize)
    (hroom : b.newChunkIsAllowed config = true) :
  (b.addChunk config binaryData).1.Stores (L.append binaryData)
  := by
  rw [hw.addChunk_of_accepted heof hsize hroom]
  constructor
  · simp [PrunedLog.append, h.maxIndex]
  · simp [PrunedLog.append, h.bytesIn]
  · intro i
    rw [PrunedLog.read_append, ← h.maxIndex, ← h.data,
      OrderedMap.find?_tryEmplace _ hw.find?_next]
    split <;> rfl
  · rw [PrunedLog.complete_append]
    apply h.removed

/-- The chunks `sanitize` drops are pruned. -/
theorem sanitize (h : b.Stores L) :
  ∃ L', b.sanitize.1.Stores L' ∧ L.Evolves L' ∧ L'.entries = L.entries
  := by
  let p (i : ℕ) : Prop := (b.sanitize.1.chunks.find? i).isSome = true
  use L.prune p
  refine ⟨⟨?_, ?_, ?_, ?_⟩, PrunedLog.Evolves.prune L p, rfl⟩
  · rw [chunksMaxIndex_sanitize, h.maxIndex]
    rfl
  · rw [bytesInTotal_sanitize, h.bytesIn]
    rfl
  · intro i
    rw [PrunedLog.read_prune, ← h.data]
    simp only [p]
    cases hi : b.sanitize.1.chunks.find? i with
    | none => simp
    | some chunk =>
        rw [(find?_sanitize.mp hi).1]
        simp
  · rw [PrunedLog.complete_prune, ← h.removed, someChunkWasRemoved_sanitize,
      Bool.or_eq_false_iff, Bool.not_eq_false', List.isEmpty_iff]
    apply and_congr_right'
    rw [sanitize_snd_eq_nil]
    constructor
    · intro hkeep i hi
      obtain ⟨chunk, hchunk⟩ := h.mem_held.mp hi
      have : b.sanitize.1.chunks.find? i = some chunk := by
        apply find?_sanitize.mpr ⟨hchunk, _⟩
        intro hf
        apply (hkeep.resolve_left (by simp [hf])) i chunk hchunk
      simp [p, this]
    · intro hp
      cases hf : b.initialChunksFreezing with
      | true => exact Or.inl rfl
      | false =>
          right
          intro i chunk hi
          obtain ⟨chunk', hi'⟩ := Option.isSome_iff_exists.mp (hp i (h.mem_held.mpr ⟨chunk, hi⟩))
          obtain ⟨hi'', hlt⟩ := find?_sanitize.mp hi'
          obtain rfl := Option.some.inj (hi.symm.trans hi'')
          apply hlt hf

/-- What is stored depends on the payloads and on three fields. -/
theorem congr (h : b.Stores L) {b' : Buffer} (hmax : b'.chunksMaxIndex = b.chunksMaxIndex)
    (hbytes : b'.bytesInTotal = b.bytesInTotal)
    (hdata : ∀ i, (b'.chunks.find? i).map Chunk.data = (b.chunks.find? i).map Chunk.data)
    (hremoved : b'.someChunkWasRemoved = b.someChunkWasRemoved) :
  b'.Stores L
  where
    maxIndex := hmax.trans h.maxIndex
    bytesIn := hbytes.trans h.bytesIn
    data i := (hdata i).trans (h.data i)
    removed := by
      rw [hremoved]
      apply h.removed

theorem setChunkAsReceived (h : b.Stores L) (i : ℕ) :
  ∃ L', (b.setChunkAsReceived i).1.Stores L' ∧ L.Evolves L' ∧ L'.entries = L.entries
  := by
  cases hi : b.chunks.find? i with
  | none =>
      rw [setChunkAsReceived_of_none hi]
      exact ⟨L, h, PrunedLog.Evolves.refl L, rfl⟩
  | some chunk =>
      rw [setChunkAsReceived_of_some hi]
      apply sanitize
      refine h.congr rfl rfl ?_ rfl
      intro j
      rw [OrderedMap.find?_modify]
      split
      · rw [Option.map_map]
        congr 1
        funext chunk'
        apply Chunk.data_incrementUses
      · rfl

theorem setInitialChunksFreezingDropped (h : b.Stores L) :
  ∃ L', b.setInitialChunksFreezingDropped.1.Stores L' ∧ L.Evolves L'
    ∧ L'.entries = L.entries
  := by
  cases hf : b.initialChunksFreezing with
  | false =>
      rw [setInitialChunksFreezingDropped_of_not_freezing hf]
      exact ⟨L, h, PrunedLog.Evolves.refl L, rfl⟩
  | true =>
      rw [setInitialChunksFreezingDropped_of_freezing hf]
      apply sanitize
      exact h.congr rfl rfl (fun _ => rfl) rfl

theorem removeOneFromExpectedConsumers (h : b.Stores L) (publicId : String) :
  ∃ L', (b.removeOneFromExpectedConsumers publicId).1.Stores L' ∧ L.Evolves L'
    ∧ L'.entries = L.entries
  := by
  by_cases hp : publicId ∈ b.expectedConsumers
  · rw [removeOneFromExpectedConsumers_of_mem hp]
    apply sanitize
    exact h.congr rfl rfl (fun _ => rfl) rfl
  · rw [removeOneFromExpectedConsumers_of_notMem hp]
    exact ⟨L, h, PrunedLog.Evolves.refl L, rfl⟩

theorem addNewToExpectedConsumers (h : b.Stores L) (publicId : String) :
  (b.addNewToExpectedConsumers config publicId).1.Stores L
  := by
  cases ha : (b.addNewToExpectedConsumers config publicId).2 with
  | false =>
      rw [addNewToExpectedConsumers_of_false ha]
      apply h
  | true =>
      rw [addNewToExpectedConsumers_of_true ha]
      exact h.congr rfl rfl (fun _ => rfl) rfl

theorem setEndOfFile (h : b.Stores L) :
  b.setEndOfFile.Stores L
  := by
  rw [Buffer.setEndOfFile]
  split
  · apply h
  · exact h.congr rfl rfl (fun _ => rfl) rfl

theorem get (h : b.Stores L) (i : ℕ) :
  (b.get i).1.Stores L
  := by
  obtain ⟨n, hn⟩ := b.get_fst i
  rw [hn]
  exact h.congr rfl rfl (fun _ => rfl) rfl

/-- An operation appends the payload it makes the buffer accept and may prune. -/
theorem step (h : b.Stores L) (hw : b.WellFormed config) (op : Op) :
  ∃ L', (b.step config op).Stores L' ∧ L.Evolves L'
    ∧ L'.entries = L.entries ++ (b.accepted config op).toList
  := by
  have hsame : b.accepted config op = none → (b.step config op).Stores L →
      ∃ L', (b.step config op).Stores L' ∧ L.Evolves L'
        ∧ L'.entries = L.entries ++ (b.accepted config op).toList := by
    intro hacc hL
    use L, hL, PrunedLog.Evolves.refl L
    rw [hacc, Option.toList_none, List.append_nil]
  cases op with
  | addChunk binaryData =>
      rcases addChunk_cases config b binaryData with ⟨heof, hsize, hroom⟩ | hno
      · use L.append binaryData, h.addChunk hw heof hsize hroom, PrunedLog.Evolves.append L _
        rw [accepted, if_pos (by simp [hw.addChunk_of_accepted heof hsize hroom])]
        rfl
      · apply hsame
        · rw [accepted, if_neg (by simp [hno])]
        · rw [Buffer.step, hno]
          apply h
  | get index => apply hsame rfl (h.get index)
  | setChunkAsReceived index =>
      simp only [accepted, Option.toList_none, List.append_nil]
      apply h.setChunkAsReceived
  | setEndOfFile => apply hsame rfl h.setEndOfFile
  | setInitialChunksFreezingDropped =>
      simp only [accepted, Option.toList_none, List.append_nil]
      apply h.setInitialChunksFreezingDropped
  | addNewToExpectedConsumers publicId => apply hsame rfl (h.addNewToExpectedConsumers publicId)
  | removeOneFromExpectedConsumers publicId =>
      simp only [accepted, Option.toList_none, List.append_nil]
      apply h.removeOneFromExpectedConsumers

end Stores

/-! ### The index of the stored chunks -/

theorem mem_chunksIndex {i : ℕ} :
  i ∈ b.chunksIndex ↔ ∃ data, (b.get i).2 = some data
  := by
  rw [chunksIndex, OrderedMap.mem_keys, get_snd]
  simp only [Option.map_eq_some_iff, exists_comm, exists_eq_right']

theorem mem_chunksInfo {info : ChunkInfo} :
  info ∈ b.chunksInfo ↔ ∃ data, (b.get info.index).2 = some data ∧ data.length = info.size
  := by
  obtain ⟨i, n⟩ := info
  rw [chunksInfo, List.mem_map, get_snd]
  simp only [Option.map_eq_some_iff, OrderedMap.find?_eq_some, Prod.exists, ChunkInfo.mk.injEq,
    Chunk.dataSize]
  constructor
  · rintro ⟨j, chunk, hmem, rfl, rfl⟩
    exact ⟨_, ⟨chunk, hmem, rfl⟩, rfl⟩
  · rintro ⟨_, ⟨chunk, hmem, rfl⟩, hn⟩
    exact ⟨i, chunk, hmem, rfl, hn⟩

theorem sorted_chunksInfo (b : Buffer) :
  (b.chunksInfo.map ChunkInfo.index).Pairwise (· < ·)
  := by
  rw [chunksInfo, List.map_map]
  apply b.chunks.sorted_keys

theorem chunkCount_eq_zero_iff {b : Buffer} :
  b.chunkCount = 0 ↔ ∀ i, i ∉ b.chunksIndex
  := by
  simp only [chunkCount, OrderedMap.size_eq_zero, chunksIndex, OrderedMap.mem_keys, not_exists,
    Option.eq_none_iff_forall_ne_some, ne_eq]

/-- There is no room for a chunk, or it is stored with the next index. -/
theorem WellFormed.chunksIndex_insertChunk (hw : b.WellFormed config) (binaryData : Bytes) :
  b.insertChunk config binaryData = (b, 0)
    ∨ (b.insertChunk config binaryData).2 = b.chunksMaxIndex + 1
      ∧ (b.insertChunk config binaryData).1.chunksMaxIndex = b.chunksMaxIndex + 1
      ∧ ∀ i, i ∈ (b.insertChunk config binaryData).1.chunksIndex
        ↔ i ∈ b.chunksIndex ∨ i = b.chunksMaxIndex + 1
  := by
  obtain hroom | hno := insertChunk_cases config b binaryData
  · right
    rw [hw.insertChunk_of_room binaryData hroom]
    use rfl, rfl
    intro i
    simp only [chunksIndex, OrderedMap.mem_keys, OrderedMap.find?_tryEmplace _ hw.find?_next]
    split
    · next hi => simp [hi]
    · next hi => simp [hi]
  · exact .inl hno

theorem nodup_chunksIndex (b : Buffer) :
  b.chunksIndex.Nodup
  := b.chunks.sorted_keys.imp (fun h => h.ne)

theorem length_chunksIndex (b : Buffer) :
  b.chunksIndex.length = b.chunkCount
  := List.length_map _

/-! ### The chunks taken off -/

/-- `b'` is what is left of `b` once the chunks `ids` have been taken off. -/
structure TakesOff (b b' : Buffer) (ids : List ℕ) : Prop where
  left : ∀ i, i ∈ b'.chunksIndex ↔ i ∈ b.chunksIndex ∧ i ∉ ids
  taken : ∀ i ∈ ids, i ∈ b.chunksIndex
  once : ids.Nodup

namespace TakesOff

theorem of_chunks_eq {b b' : Buffer} (h : b'.chunks = b.chunks) :
  b.TakesOff b' []
  := ⟨by simp [chunksIndex, h], by simp, List.nodup_nil⟩

theorem refl (b : Buffer) :
  b.TakesOff b []
  := of_chunks_eq rfl

theorem sanitize (b : Buffer) :
  b.TakesOff b.sanitize.1 b.sanitize.2
  := by
  rw [Buffer.sanitize]
  split
  · apply refl
  · dsimp only
    constructor
    · intro i
      simp only [chunksIndex, OrderedMap.mem_keys, OrderedMap.find?_eraseIf,
        OrderedMap.mem_eraseIf]
      constructor
      · rintro ⟨chunk, hi, hp⟩
        use ⟨chunk, hi⟩
        rintro ⟨chunk', hi', hp'⟩
        obtain rfl := Option.some.inj (hi.symm.trans hi')
        rw [hp] at hp'
        cases hp'
      · rintro ⟨⟨chunk, hi⟩, hp⟩
        use chunk, hi
        rw [Bool.eq_false_iff]
        exact fun hp' => hp ⟨chunk, hi, hp'⟩
    · intro i hi
      obtain ⟨chunk, hchunk, -⟩ := OrderedMap.mem_eraseIf.mp hi
      apply OrderedMap.mem_keys.mpr ⟨chunk, hchunk⟩
    · apply OrderedMap.nodup_eraseIf

/-- What is taken off in two steps. -/
theorem trans {b b' b'' : Buffer} {ids ids' : List ℕ} (h : b.TakesOff b' ids)
    (h' : b'.TakesOff b'' ids') :
  b.TakesOff b'' (ids ++ ids')
  where
    left i := by rw [h'.left, h.left, List.mem_append, not_or, and_assoc]
    taken i hmem := by
      obtain hmem | hmem := List.mem_append.mp hmem
      · apply h.taken i hmem
      · apply ((h.left i).mp (h'.taken i hmem)).1
    once := by
      apply h.once.append h'.once
      intro i hmem hmem'
      apply ((h.left i).mp (h'.taken i hmem')).2 hmem

/-- Each index that is taken off is one chunk less. -/
theorem chunkCount {b b' : Buffer} {ids : List ℕ} (h : b.TakesOff b' ids) :
  b'.chunkCount + ids.length = b.chunkCount
  := by
  have hnodup : (b'.chunksIndex ++ ids).Nodup := by
    apply (nodup_chunksIndex b').append h.once
    exact fun i hmem hmem' => ((h.left i).mp hmem).2 hmem'
  have hperm : (b'.chunksIndex ++ ids).Perm b.chunksIndex := by
    apply (List.perm_ext_iff_of_nodup hnodup (nodup_chunksIndex b)).mpr
    intro i
    rw [List.mem_append, h.left]
    constructor
    · rintro (hi | hi)
      · apply hi.1
      · apply h.taken i hi
    · intro hi
      by_cases hmem : i ∈ ids
      · exact .inr hmem
      · exact .inl ⟨hi, hmem⟩
  rw [← length_chunksIndex, ← length_chunksIndex, ← List.length_append, hperm.length_eq]

/-- Only the indices of the chunks matter. -/
theorem congr {b₁ b₂ b' : Buffer} {ids : List ℕ} (h : b₁.TakesOff b' ids)
    (hi : ∀ i, i ∈ b₁.chunksIndex ↔ i ∈ b₂.chunksIndex) :
  b₂.TakesOff b' ids
  where
    left i := by rw [h.left, hi]
    taken i hmem := (hi i).mp (h.taken i hmem)
    once := h.once

theorem setChunkAsReceived (b : Buffer) (index : ℕ) :
  b.TakesOff (b.setChunkAsReceived index).1 (b.setChunkAsReceived index).2.1
  := by
  cases hf : b.chunks.find? index with
  | none =>
      rw [setChunkAsReceived_of_none hf]
      apply refl
  | some chunk =>
      rw [setChunkAsReceived_of_some hf]
      apply (sanitize _).congr
      intro i
      simp only [chunksIndex, OrderedMap.mem_keys, OrderedMap.find?_modify]
      split
      · next h => simp [h, hf]
      · rfl

theorem setInitialChunksFreezingDropped (b : Buffer) :
  b.TakesOff b.setInitialChunksFreezingDropped.1 b.setInitialChunksFreezingDropped.2.1
  := by
  cases hf : b.initialChunksFreezing with
  | false =>
      rw [setInitialChunksFreezingDropped_of_not_freezing hf]
      apply refl
  | true =>
      rw [setInitialChunksFreezingDropped_of_freezing hf]
      exact (sanitize _).congr fun _ => Iff.rfl

theorem removeOneFromExpectedConsumers (b : Buffer) (publicId : String) :
  b.TakesOff (b.removeOneFromExpectedConsumers publicId).1
    (b.removeOneFromExpectedConsumers publicId).2
  := by
  by_cases hp : publicId ∈ b.expectedConsumers
  · rw [removeOneFromExpectedConsumers_of_mem hp]
    exact (sanitize _).congr fun _ => Iff.rfl
  · rw [removeOneFromExpectedConsumers_of_notMem hp]
    apply refl

end TakesOff

/-! ### Runs with the log of the accepted payloads -/

/-- A buffer with the payloads it has accepted. -/
@[ext]
structure Logged where
  buffer : Buffer := {}
  log : List Bytes := []

/-- What a buffer shows of the log of the payloads it has accepted. -/
structure ShowsLog (config : Config) (b : Buffer) (log : List Bytes) : Prop where
  next : ∀ binaryData, (b.addChunk config binaryData).2 ≠ 0 →
    (b.addChunk config binaryData).2 = log.length + 1
  currentMaxChunkIndex : b.currentMaxChunkIndex = log.length
  bytesIn : b.bytesIn = (log.map List.length).sum
  get : ∀ i data, (b.get i).2 = some data → 1 ≤ i ∧ log[i - 1]? = some data
  chunksInfo : ∀ i size, ⟨i, size⟩ ∈ b.chunksInfo
    ↔ ∃ data, (b.get i).2 = some data ∧ data.length = size
  ascending : (b.chunksInfo.map ChunkInfo.index).Pairwise (· < ·)

theorem Stores.showsLog (h : b.Stores L) (hw : b.WellFormed config) :
  b.ShowsLog config L.entries
  where
    next binaryData hne := by
      rcases addChunk_cases config b binaryData with ⟨heof, hsize, hroom⟩ | hno
      · rw [hw.addChunk_of_accepted heof hsize hroom, h.maxIndex]
      · rw [hno] at hne
        cases hne rfl
    currentMaxChunkIndex := h.maxIndex
    bytesIn := h.bytesIn
    get i data hi := by
      rw [get_snd, h.data, PrunedLog.read_eq_some] at hi
      exact ⟨(PrunedLog.held_bounds hi.1).1, hi.2⟩
    chunksInfo i size := mem_chunksInfo
    ascending := b.sorted_chunksInfo

namespace Logged

def step (config : Config) (l : Logged) (op : Op) : Logged where
  buffer := l.buffer.step config op
  log := l.log ++ (l.buffer.accepted config op).toList

theorem buffer_run (config : Config) (l : Logged) (ops : List Op) :
  (Machine.run (step config) l ops).buffer = Machine.run (Buffer.step config) l.buffer ops
  := by
  induction ops generalizing l with
  | nil => rfl
  | cons op ops ih =>
      rw [Machine.run_cons, Machine.run_cons, ih]
      rfl

/-- Only `addChunk` makes the log longer. -/
theorem log_run (config : Config) (l : Logged) {ops : List Op}
    (h : ∀ binaryData, .addChunk binaryData ∉ ops) :
  (Machine.run (step config) l ops).log = l.log
  := by
  induction ops generalizing l with
  | nil => rfl
  | cons op ops ih =>
      rw [Machine.run_cons, ih]
      · cases op with
        | addChunk binaryData => cases h binaryData List.mem_cons_self
        | _ => apply List.append_nil
      · intro binaryData hmem
        apply h binaryData (List.mem_cons_of_mem _ hmem)

/-- The buffer is well-formed and stores the held entries of `L`, whose payloads are those
of the log. -/
structure Stores (config : Config) (l : Logged) (L : PrunedLog Bytes) : Prop where
  wellFormed : l.buffer.WellFormed config
  stores : l.buffer.Stores L
  entries : L.entries = l.log

theorem Stores.empty (config : Config) :
  Stores config {} PrunedLog.empty
  := ⟨WellFormed.empty config, Buffer.Stores.empty, rfl⟩

theorem Stores.step {l : Logged} (h : l.Stores config L) (op : Op) :
  ∃ L', (l.step config op).Stores config L' ∧ L.Evolves L'
  := by
  obtain ⟨L', hL', hev, hentries⟩ := h.stores.step h.wellFormed op
  refine ⟨L', ⟨h.wellFormed.step op, hL', ?_⟩, hev⟩
  rw [hentries, h.entries]
  rfl

theorem Stores.run {l : Logged} (h : l.Stores config L) (ops : List Op) :
  ∃ L', (Machine.run (Logged.step config) l ops).Stores config L' ∧ L.Evolves L'
  := by
  induction ops generalizing l L with
  | nil => exact ⟨L, h, PrunedLog.Evolves.refl L⟩
  | cons op ops ih =>
      obtain ⟨L', hL', hev⟩ := h.step op
      obtain ⟨L'', hL'', hev'⟩ := ih hL'
      exact ⟨L'', hL'', hev.trans hev'⟩

theorem showsLog_run (config : Config) (ops : List Op) :
  (Machine.run (step config) {} ops).buffer.ShowsLog config (Machine.run (step config) {} ops).log
  := by
  obtain ⟨L, hL, -⟩ := (Stores.empty config).run ops
  rw [← hL.entries]
  apply hL.stores.showsLog hL.wellFormed

/-- In every run the buffer shows the log of the accepted payloads, and an index that has
become null stays null. -/
theorem showsLog_and_staysNull (config : Config) (ops : List Op) :
  (Machine.run (step config) {} ops).buffer.ShowsLog config (Machine.run (step config) {} ops).log
  ∧ ∀ i ops', i ≤ (Machine.run (step config) {} ops).log.length →
      ((Machine.run (step config) {} ops).buffer.get i).2 = none →
      ((Machine.run (step config) {} (ops ++ ops')).buffer.get i).2 = none
  := by
  constructor
  · apply showsLog_run
  · intro i ops' hi hnone
    obtain ⟨L, hL, -⟩ := (Stores.empty config).run ops
    obtain ⟨L', hL', hev⟩ := hL.run ops'
    rw [Machine.run_append]
    rw [get_snd, hL.stores.data] at hnone
    rw [get_snd, hL'.stores.data]
    apply hev.read_eq_none _ hnone
    rw [hL.entries]
    apply hi

end Logged

end Buffer

end TransferSessionDetails

import PutInPipe.Web.Download

/-!
# Writing the chunks to the disk in order

The chunks are downloaded in any order. `flushChunkToDisk` writes the one that is next and those
after it that have come before, and keeps any other for later. The calls run at the same time: a
call is cut where it awaits a write, and `waiting` holds the calls that do. While one of them
waits, the chunk that is next has come already, so that no other call writes.

The downloads of `SessionReceiver` do to the file of the page what these calls do.
-/

/-- Where a call of `flushChunkToDisk` waits: for the write of its own chunk, or for the write of
one that was kept. -/
inductive FlushPhase where
  | writing
  | draining
deriving DecidableEq, Repr

/-- What a call does next: it calls `write` and awaits it, or it returns. -/
inductive FlushOutcome where
  | awaits (phase : FlushPhase) (chunk : List UInt8)
  | returns (result : Bool)
deriving DecidableEq, Repr

/-- A call of `flushChunkToDisk` that waits. -/
structure FlushCall where
  index : ℕ
  phase : FlushPhase
deriving DecidableEq, Repr

/-- What `flushChunkToDisk` reads and changes. -/
structure DiskFile where
  writable : Bool := true
  nextWriteIndex : ℕ := 1
  chunkBuffer : ℕ → Option (List UInt8) := fun _ => none
  writtenChunks : Finset ℕ := ∅

/-- The file and what has become of the calls. -/
structure DiskWriter extends DiskFile where
  -- what `write` has been called with
  handed : List (List UInt8) := []
  waiting : List FlushCall := []
  called : List ℕ := []
  returned : List ℕ := []

namespace DiskFile

/-! ### The function -/

/-- The end of a call. -/
def finishCall (s : DiskFile) (index : ℕ) : DiskFile × FlushOutcome :=
  ({ s with writtenChunks := insert index s.writtenChunks }, .returns true)

/-- The test of the loop, and its body up to the write. -/
def drain (s : DiskFile) (index : ℕ) : DiskFile × FlushOutcome :=
  match s.chunkBuffer s.nextWriteIndex with
  | some chunk => (s, .awaits .draining chunk)
  | none => s.finishCall index

/-- A call, up to its first write or to its end. -/
def flushChunkToDisk (s : DiskFile) (index : ℕ) (chunk : List UInt8) :
    DiskFile × FlushOutcome :=
  if !s.writable then (s, .returns false)
  else if index = s.nextWriteIndex then (s, .awaits .writing chunk)
  else
    { s with chunkBuffer := Function.update s.chunkBuffer index (some chunk) }.finishCall index

/-- A call goes on when its write has succeeded. -/
def resume (s : DiskFile) (c : FlushCall) : DiskFile × FlushOutcome :=
  match c.phase with
  | .writing => { s with nextWriteIndex := s.nextWriteIndex + 1 }.drain c.index
  | .draining =>
      { s with
        chunkBuffer := Function.update s.chunkBuffer s.nextWriteIndex none
        nextWriteIndex := s.nextWriteIndex + 1 }.drain c.index

/-- What the calls change for each other. -/
def state (s : DiskFile) : ℕ × (ℕ → Option (List UInt8)) × Finset ℕ :=
  (s.nextWriteIndex, s.chunkBuffer, s.writtenChunks)

theorem flushChunkToDisk_of_writable {s : DiskFile} (hwritable : s.writable = true) (index : ℕ)
  (chunk : List UInt8) :
  s.flushChunkToDisk index chunk =
    if index = s.nextWriteIndex then (s, .awaits .writing chunk)
    else
      { s with
        chunkBuffer := Function.update s.chunkBuffer index (some chunk) }.finishCall index
  := by
  apply if_neg
  simp [hwritable]

end DiskFile

namespace DiskWriter

variable {n : ℕ} {data : ℕ → List UInt8} {s : DiskWriter} {c : FlushCall}

/-! ### The calls -/

/-- A call with this index has run up to the outcome. -/
def record (s : DiskWriter) (index : ℕ) : DiskFile × FlushOutcome → DiskWriter
  | (file, .awaits phase chunk) =>
      { s with
        toDiskFile := file
        handed := s.handed ++ [chunk]
        waiting := s.waiting ++ [⟨index, phase⟩] }
  | (file, .returns _) => { s with toDiskFile := file, returned := index :: s.returned }

/-- A call, up to its first write or to its end. -/
def call (s : DiskWriter) (index : ℕ) (chunk : List UInt8) : DiskWriter :=
  { s with called := index :: s.called }.record index (s.flushChunkToDisk index chunk)

/-- A call goes on when its write has succeeded. -/
def goOn (s : DiskWriter) (c : FlushCall) : DiskWriter := s.record c.index (s.resume c)

/-- `flushChunkToDisk` is called, or the write of a waiting call succeeds. -/
inductive Event where
  | call (index : ℕ)
  | resume (k : ℕ)
deriving DecidableEq, Repr

/-- The steps where `flushChunkToDisk` is called at most once for each index from 1 to `n`. -/
def step (n : ℕ) (data : ℕ → List UInt8) (s : DiskWriter) : Event → DiskWriter
  | .call index =>
      if 1 ≤ index ∧ index ≤ n ∧ index ∉ s.called then s.call index (data index) else s
  | .resume k =>
      match s.waiting[k]? with
      | some c => { s with waiting := s.waiting.eraseIdx k }.goOn c
      | none => s

/-- The chunks from 1 to `k`. -/
def chunksTo (data : ℕ → List UInt8) (k : ℕ) : List (List UInt8) := (List.range' 1 k).map data

/-- `flushChunkToDisk` has been called for each index. -/
def AllCalled (n : ℕ) (s : DiskWriter) : Prop := ∀ i, 1 ≤ i → i ≤ n → i ∈ s.called

def AllReturned (n : ℕ) (s : DiskWriter) : Prop := ∀ i, 1 ≤ i → i ≤ n → i ∈ s.returned

/-! ### The order -/

/-- What holds whenever `written` chunks have been handed over and `buffered` tells which of the
chunks that have come are kept. -/
structure Keeps (n : ℕ) (data : ℕ → List UInt8) (written : ℕ) (buffered : ℕ → Prop)
    (s : DiskWriter) : Prop where
  writable : s.writable = true
  called : ∀ i ∈ s.called, 1 ≤ i ∧ i ≤ n
  handed : s.handed = chunksTo data written
  written : ∀ i, 1 ≤ i → i ≤ written → i ∈ s.called
  kept : ∀ i, i ∈ s.called ∧ buffered i → s.chunkBuffer i = some (data i)
  empty : ∀ i, ¬(i ∈ s.called ∧ buffered i) → s.chunkBuffer i = none

/-- A call has returned unless it waits. -/
structure Returns (waiting : List ℕ) (s : DiskWriter) : Prop where
  called : ∀ i, i ∈ s.called ↔ i ∈ s.returned ∨ i ∈ waiting
  waiting : ∀ i ∈ waiting, i ∉ s.returned

/-- Nobody writes, and the next chunk has not come. -/
structure Idle (n : ℕ) (data : ℕ → List UInt8) (s : DiskWriter) : Prop where
  waiting : s.waiting = []
  keeps : s.Keeps n data (s.nextWriteIndex - 1) (s.nextWriteIndex < ·)
  next : 1 ≤ s.nextWriteIndex
  missing : s.nextWriteIndex ∉ s.called
  returns : s.Returns []

/-- The call `c` writes the next chunk. -/
structure Writing (n : ℕ) (data : ℕ → List UInt8) (c : FlushCall) (s : DiskWriter) : Prop where
  waiting : s.waiting = [c]
  keeps : s.Keeps n data s.nextWriteIndex
    fun i => s.nextWriteIndex < i ∨ i = s.nextWriteIndex ∧ c.phase = .draining
  next : 1 ≤ s.nextWriteIndex
  returns : s.Returns [c.index]

/-- At most one call writes. -/
def Ordered (n : ℕ) (data : ℕ → List UInt8) (s : DiskWriter) : Prop :=
  s.Idle n data ∨ ∃ c, s.Writing n data c

theorem chunksTo_succ (data : ℕ → List UInt8) (k : ℕ) :
  chunksTo data (k + 1) = chunksTo data k ++ [data (k + 1)]
  := by
  rw [chunksTo, List.range'_concat, List.map_append, Nat.one_mul, Nat.add_comm 1 k]
  rfl

theorem idle_empty (n : ℕ) (data : ℕ → List UInt8) :
  Idle n data {}
  := by
  refine ⟨rfl, ⟨rfl, List.forall_mem_nil _, rfl, ?_, ?_, fun _ _ => rfl⟩, Nat.le_refl 1,
    List.not_mem_nil, ⟨by simp, List.forall_mem_nil _⟩⟩
  · intro i h1 h0
    have h0 : i ≤ 0 := h0
    omega
  · rintro i ⟨hi, -⟩
    cases hi

/-! ### One step -/

theorem Keeps.of_eq {s' : DiskWriter} {k : ℕ} {P : ℕ → Prop} (h : s.Keeps n data k P)
  (hwritable : s'.writable = s.writable) (hcalled : s'.called = s.called)
  (hhanded : s'.handed = s.handed) (hbuffer : s'.chunkBuffer = s.chunkBuffer) :
  s'.Keeps n data k P
  := by
  obtain ⟨h1, h2, h3, h4, h5, h6⟩ := h
  rw [← hwritable] at h1
  rw [← hhanded] at h3
  rw [← hcalled] at h2 h4 h5 h6
  rw [← hbuffer] at h5 h6
  exact ⟨h1, h2, h3, h4, h5, h6⟩

/-- The chunks kept are the same if the two conditions agree on the chunks that have come. -/
theorem Keeps.of_iff {k : ℕ} {P Q : ℕ → Prop} (h : s.Keeps n data k P)
  (hPQ : ∀ i ∈ s.called, P i ↔ Q i) :
  s.Keeps n data k Q
  := by
  refine ⟨h.writable, h.called, h.handed, h.written, ?_, ?_⟩
  · rintro i ⟨hi, hQ⟩
    apply h.kept i
    exact ⟨hi, (hPQ i hi).2 hQ⟩
  · intro i hi
    apply h.empty i
    rintro ⟨hc, hP⟩
    apply hi ⟨hc, (hPQ i hc).1 hP⟩

theorem Keeps.handed_next {k : ℕ} {P : ℕ → Prop} (h : s.Keeps n data (k - 1) P) (hk : 1 ≤ k) :
  s.handed ++ [data k] = chunksTo data k
  := by
  have hsucc := chunksTo_succ data (k - 1)
  rw [Nat.sub_add_cancel hk, ← h.handed] at hsucc
  rw [hsucc]

theorem Keeps.eq_or_mem {k i : ℕ} {P : ℕ → Prop} (h : s.Keeps n data (k - 1) P) (h1 : 1 ≤ i)
  (hi : i ≤ k) :
  i = k ∨ i ∈ s.called
  := by
  refine (Nat.eq_or_lt_of_le hi).imp_right ?_
  intro hlt
  apply h.written i h1 (Nat.le_sub_one_of_lt hlt)

/-- A chunk is kept that may not be written yet. -/
theorem Keeps.buffer {k index : ℕ} {P : ℕ → Prop} (h : s.Keeps n data k P)
  (hrange : 1 ≤ index ∧ index ≤ n) (hP : P index) :
  { s with
    called := index :: s.called
    chunkBuffer := Function.update s.chunkBuffer index (some (data index)) }.Keeps n data k P
  := by
  refine ⟨h.writable, ?_, h.handed, ?_, ?_, ?_⟩
  · exact List.forall_mem_cons.2 ⟨hrange, h.called⟩
  · intro i h1 hi
    apply List.mem_cons_of_mem _ (h.written i h1 hi)
  · rintro i ⟨hi, hPi⟩
    obtain rfl | hne := eq_or_ne i index
    · apply Function.update_self ..
    · apply (Function.update_of_ne hne _ s.chunkBuffer).trans
      apply h.kept i ⟨List.mem_of_ne_of_mem hne hi, hPi⟩
  · intro i hi
    obtain rfl | hne := eq_or_ne i index
    · exact absurd ⟨List.mem_cons_self, hP⟩ hi
    · apply (Function.update_of_ne hne _ s.chunkBuffer).trans
      apply h.empty i
      rintro ⟨hc, hPi⟩
      apply hi ⟨List.mem_cons_of_mem _ hc, hPi⟩

/-- A call returns. -/
theorem Returns.finish {index : ℕ} (h : s.Returns [index]) :
  (s.record index (s.finishCall index)).Returns []
  := by
  refine ⟨?_, List.forall_mem_nil _⟩
  intro i
  simp only [record, DiskFile.finishCall, h.called i, List.mem_cons, List.not_mem_nil, or_false]
  apply or_comm

/-- The chunk `s.nextWriteIndex - 1` has just been written by the call with this index. -/
structure Written (n : ℕ) (data : ℕ → List UInt8) (index : ℕ) (s : DiskWriter) : Prop where
  waiting : s.waiting = []
  keeps : s.Keeps n data (s.nextWriteIndex - 1) (s.nextWriteIndex ≤ ·)
  next : 1 ≤ s.nextWriteIndex
  returns : s.Returns [index]

/-- The next chunk is written if it has come, else the call returns. -/
theorem Written.drain {index : ℕ} (h : s.Written n data index) :
  (s.record index (s.drain index)).Idle n data ∨
    (s.record index (s.drain index)).Writing n data ⟨index, .draining⟩ ∧
      (s.record index (s.drain index)).nextWriteIndex = s.nextWriteIndex
  := by
  by_cases hcome : s.nextWriteIndex ∈ s.called
  · have hkept := h.keeps.kept s.nextWriteIndex ⟨hcome, Nat.le_refl _⟩
    rw [DiskFile.drain, hkept]
    refine Or.inr ⟨⟨?_, ?_, h.next, ⟨h.returns.called, h.returns.waiting⟩⟩, rfl⟩
    · simp [record, h.waiting]
    · refine ⟨h.keeps.writable, h.keeps.called, ?_, ?_, ?_, ?_⟩
      · apply h.keeps.handed_next h.next
      · intro i h1 hi
        obtain rfl | hmem := h.keeps.eq_or_mem h1 hi
        · apply hcome
        · apply hmem
      · rintro i ⟨hi, hnext⟩
        apply h.keeps.kept i
        refine ⟨hi, ?_⟩
        obtain hlt | ⟨heq, -⟩ := hnext
        · apply hlt.le
        · apply heq.ge
      · intro i hi
        apply h.keeps.empty i
        rintro ⟨hc, hle⟩
        apply hi
        obtain heq | hlt := Nat.eq_or_lt_of_le hle
        · exact ⟨hc, Or.inr ⟨heq.symm, rfl⟩⟩
        · exact ⟨hc, Or.inl hlt⟩
  · have hnone := h.keeps.empty s.nextWriteIndex fun hc => hcome hc.1
    rw [DiskFile.drain, hnone]
    refine Or.inl ⟨h.waiting, ?_, h.next, hcome, h.returns.finish⟩
    have hkeeps : s.Keeps n data (s.nextWriteIndex - 1) (s.nextWriteIndex < ·) := by
      apply h.keeps.of_iff
      intro i hi
      have hne : s.nextWriteIndex ≠ i := fun heq => hcome (heq ▸ hi)
      exact ⟨fun hle => lt_of_le_of_ne hle hne, le_of_lt⟩
    exact hkeeps.of_eq rfl rfl rfl rfl

/-- The write of a call succeeds. -/
theorem Writing.goOn (h : s.Writing n data c) :
  ({ s with waiting := [] }.goOn c).Idle n data ∨
    ∃ c', ({ s with waiting := [] }.goOn c).Writing n data c' ∧
      ({ s with waiting := [] }.goOn c).nextWriteIndex = s.nextWriteIndex + 1
  := by
  rw [DiskWriter.goOn, DiskFile.resume]
  cases hphase : c.phase with
  | writing =>
    have hwritten : Written n data c.index
        { s with waiting := [], nextWriteIndex := s.nextWriteIndex + 1 } := by
      refine ⟨rfl, ?_, Nat.le_add_left .., ⟨h.returns.called, h.returns.waiting⟩⟩
      have hkeeps : s.Keeps n data s.nextWriteIndex (s.nextWriteIndex + 1 ≤ ·) := by
        apply h.keeps.of_iff
        intro i _
        constructor
        · rintro (hlt | ⟨-, hdraining⟩)
          · apply hlt
          · rw [hphase] at hdraining
            cases hdraining
        · exact fun hlt => Or.inl hlt
      exact hkeeps.of_eq rfl rfl rfl rfl
    obtain hidle | ⟨hw, hnext⟩ := hwritten.drain
    · apply Or.inl hidle
    · apply Or.inr ⟨_, hw, hnext⟩
  | draining =>
    have hwritten : Written n data c.index
        { s with
          waiting := []
          chunkBuffer := Function.update s.chunkBuffer s.nextWriteIndex none
          nextWriteIndex := s.nextWriteIndex + 1 } := by
      refine ⟨rfl, ?_, Nat.le_add_left .., ⟨h.returns.called, h.returns.waiting⟩⟩
      refine ⟨h.keeps.writable, h.keeps.called, h.keeps.handed, h.keeps.written, ?_, ?_⟩
      · rintro i ⟨hi, hle⟩
        have hle : s.nextWriteIndex < i := hle
        apply (Function.update_of_ne hle.ne' _ s.chunkBuffer).trans
        apply h.keeps.kept i ⟨hi, Or.inl hle⟩
      · intro i hi
        obtain rfl | hne := eq_or_ne i s.nextWriteIndex
        · apply Function.update_self ..
        · apply (Function.update_of_ne hne _ s.chunkBuffer).trans
          apply h.keeps.empty i
          rintro ⟨hc, hle | ⟨heq, -⟩⟩
          · apply hi ⟨hc, hle⟩
          · apply hne heq
    obtain hidle | ⟨hw, hnext⟩ := hwritten.drain
    · apply Or.inl hidle
    · apply Or.inr ⟨_, hw, hnext⟩

/-- The call returns at once, its chunk is kept. -/
theorem Returns.buffer {waiting : List ℕ} {index : ℕ} (h : s.Returns waiting)
  (hnew : index ∉ s.called) (chunk : List UInt8) :
  ({ s with called := index :: s.called }.record index
    ({ s.toDiskFile with
      chunkBuffer := Function.update s.chunkBuffer index (some chunk) }.finishCall
        index)).Returns waiting
  := by
  constructor
  · intro i
    simp only [record, DiskFile.finishCall, List.mem_cons, h.called i, or_assoc]
  · intro i hi
    have hne : i ≠ index := by
      rintro rfl
      apply hnew ((h.called i).2 (Or.inr hi))
    apply List.not_mem_cons_of_ne_of_not_mem hne (h.waiting i hi)

/-- A call that comes while nobody writes. -/
theorem Idle.call {index : ℕ} (h : s.Idle n data)
  (hrange : 1 ≤ index ∧ index ≤ n) (hnew : index ∉ s.called) :
  (s.call index (data index)).Ordered n data
  := by
  rw [DiskWriter.call, DiskFile.flushChunkToDisk_of_writable h.keeps.writable]
  split
  case isTrue heq =>
    subst heq
    refine Or.inr ⟨⟨s.nextWriteIndex, .writing⟩, ?_, ?_, h.next, ?_⟩
    · simp [record, h.waiting]
    · refine ⟨h.keeps.writable, List.forall_mem_cons.2 ⟨hrange, h.keeps.called⟩, ?_, ?_, ?_, ?_⟩
      · apply h.keeps.handed_next h.next
      · intro i h1 hi
        obtain rfl | hmem := h.keeps.eq_or_mem h1 hi
        · apply List.mem_cons_self
        · apply List.mem_cons_of_mem _ hmem
      · rintro i ⟨hi, hlt | ⟨-, hphase⟩⟩
        · have hlt : s.nextWriteIndex < i := hlt
          apply h.keeps.kept i ⟨List.mem_of_ne_of_mem hlt.ne' hi, hlt⟩
        · cases hphase
      · intro i hi
        apply h.keeps.empty i
        rintro ⟨hc, hlt⟩
        apply hi ⟨List.mem_cons_of_mem _ hc, Or.inl hlt⟩
    · constructor
      · intro i
        simp [record, h.returns.called i, or_comm]
      · intro i hi hret
        rw [List.mem_singleton] at hi
        subst hi
        apply hnew ((h.returns.called _).2 (Or.inl hret))
  case isFalse hne =>
    have hlt : s.nextWriteIndex < index := by
      by_contra hle
      apply hnew (h.keeps.written index hrange.1 (by omega))
    have hkeeps := h.keeps.buffer hrange hlt
    have hreturns := h.returns.buffer hnew (data index)
    refine Or.inl ⟨h.waiting, ?_, h.next, ?_, hreturns⟩
    · exact hkeeps.of_eq rfl rfl rfl rfl
    · exact List.not_mem_cons_of_ne_of_not_mem (Ne.symm hne) h.missing

/-- A call that comes while another one writes: the next chunk has come, so this one is kept. -/
theorem Writing.call {index : ℕ} (h : s.Writing n data c)
  (hrange : 1 ≤ index ∧ index ≤ n) (hnew : index ∉ s.called) :
  (s.call index (data index)).Writing n data c
  := by
  have hlt : s.nextWriteIndex < index := by
    by_contra hle
    apply hnew (h.keeps.written index hrange.1 (by omega))
  rw [DiskWriter.call, DiskFile.flushChunkToDisk_of_writable h.keeps.writable,
    if_neg hlt.ne']
  have hkeeps := h.keeps.buffer hrange (Or.inl hlt)
  have hreturns := h.returns.buffer hnew (data index)
  refine ⟨h.waiting, ?_, h.next, hreturns⟩
  exact hkeeps.of_eq rfl rfl rfl rfl

/-- One step keeps the order. -/
theorem Ordered.step (h : s.Ordered n data) (e : Event) :
  (s.step n data e).Ordered n data
  := by
  cases e with
  | call index =>
    rw [DiskWriter.step]
    split
    case isTrue hcall =>
      obtain ⟨h1, hn, hnew⟩ := hcall
      obtain hidle | ⟨c, hw⟩ := h
      · apply hidle.call ⟨h1, hn⟩ hnew
      · apply Or.inr ⟨c, hw.call ⟨h1, hn⟩ hnew⟩
    case isFalse => exact h
  | resume k =>
    rw [DiskWriter.step]
    obtain hidle | ⟨c, hw⟩ := h
    · rw [hidle.waiting, List.getElem?_nil]
      apply Or.inl hidle
    · rw [hw.waiting]
      cases k with
      | zero =>
        obtain hidle | ⟨c', hw', -⟩ := hw.goOn
        · apply Or.inl hidle
        · apply Or.inr ⟨c', hw'⟩
      | succ k => exact Or.inr ⟨c, hw⟩

/-! ### A run -/

/-- What has been handed over is a beginning of the file. -/
theorem Ordered.handed (h : s.Ordered n data) :
  ∃ k ≤ n, s.handed = chunksTo data k
  := by
  have hbound : ∀ {k P}, s.Keeps n data k P → k ≤ n := by
    intro k P hkeeps
    obtain rfl | hpos := Nat.eq_zero_or_pos k
    · apply Nat.zero_le n
    · apply (hkeeps.called k (hkeeps.written k hpos (Nat.le_refl k))).2
  obtain hidle | ⟨c, hw⟩ := h
  · exact ⟨_, hbound hidle.keeps, hidle.keeps.handed⟩
  · exact ⟨_, hbound hw.keeps, hw.keeps.handed⟩

/-- No call waits when all have returned. -/
theorem Ordered.idle (h : s.Ordered n data) (hall : s.AllReturned n) :
  s.Idle n data
  := by
  obtain hidle | ⟨c, hw⟩ := h
  · apply hidle
  · exfalso
    have hc : c.index ∈ [c.index] := List.mem_singleton_self _
    obtain ⟨h1, hn⟩ := hw.keeps.called c.index ((hw.returns.called _).2 (Or.inr hc))
    apply hw.returns.waiting c.index hc (hall c.index h1 hn)

/-- When all calls have returned the file is complete and nothing is kept. -/
theorem Idle.complete (h : s.Idle n data) (hall : s.AllReturned n) :
  s.handed = chunksTo data n ∧ ∀ i, s.chunkBuffer i = none
  := by
  have hlt : n < s.nextWriteIndex := by
    by_contra hle
    apply h.missing
    apply (h.returns.called _).2 (Or.inl (hall _ h.next (by omega)))
  have hle : s.nextWriteIndex - 1 ≤ n := by
    by_contra hgt
    have hlast := h.keeps.written (s.nextWriteIndex - 1) (by omega) (Nat.le_refl _)
    have hbound := (h.keeps.called _ hlast).2
    omega
  have heq : s.nextWriteIndex - 1 = n := by omega
  constructor
  · rw [h.keeps.handed, heq]
  · intro i
    apply h.keeps.empty i
    rintro ⟨hi, hgt⟩
    have hbound := (h.keeps.called i hi).2
    have hgt : s.nextWriteIndex < i := hgt
    omega

/-- In a run of `flushChunkToDisk` from the start at most one call writes. -/
theorem everyState_ordered (n : ℕ) (data : ℕ → List UInt8) (events : List Event) :
  Machine.EveryState (step n data) (Ordered n data) {} events
  := by
  apply Machine.everyState_of_invariant
  · intro s e h
    apply h.step e
  · apply Or.inl (idle_empty n data)

theorem Idle.run_resume (h : s.Idle n data) (m : ℕ) :
  Machine.run (DiskWriter.step n data) s (List.replicate m (.resume 0)) = s
  := by
  have hstay : s.step n data (.resume 0) = s := by
    rw [DiskWriter.step, h.waiting, List.getElem?_nil]
  induction m with
  | zero => rfl
  | succ m ih => rw [List.replicate_succ, Machine.run_cons, hstay, ih]

theorem Writing.step_resume (h : s.Writing n data c) :
  s.step n data (.resume 0) = { s with waiting := [] }.goOn c
  := by
  rw [DiskWriter.step, h.waiting]
  rfl

/-- Every write that succeeds ends a call or writes the next chunk, so that no call waits after
as many of them as there are chunks left. -/
theorem Ordered.settle {m : ℕ} (h : s.Ordered n data) (hm : n < s.nextWriteIndex + m) :
  (Machine.run (DiskWriter.step n data) s (List.replicate m (.resume 0))).Idle n data
  := by
  induction m generalizing s with
  | zero =>
    obtain hidle | ⟨c, hw⟩ := h
    · apply hidle
    · exfalso
      have hnext := hw.keeps.written s.nextWriteIndex hw.next (Nat.le_refl _)
      have hbound := (hw.keeps.called _ hnext).2
      omega
  | succ m ih =>
    obtain hidle | ⟨c, hw⟩ := h
    · rw [hidle.run_resume]
      apply hidle
    · rw [List.replicate_succ, Machine.run_cons, hw.step_resume]
      obtain hidle | ⟨c', hw', hnext⟩ := hw.goOn
      · rw [hidle.run_resume]
        apply hidle
      · apply ih (Or.inr ⟨c', hw'⟩)
        omega

theorem called_record (s : DiskWriter) (index : ℕ) (r : DiskFile × FlushOutcome) :
  (s.record index r).called = s.called
  := by
  rw [record.eq_def]
  split <;> rfl

theorem called_step_resume (s : DiskWriter) (k : ℕ) :
  (s.step n data (.resume k)).called = s.called
  := by
  rw [step]
  split
  · rw [goOn, called_record]
  · rfl

theorem called_run_resume (s : DiskWriter) (m : ℕ) :
  (Machine.run (step n data) s (List.replicate m (.resume 0))).called = s.called
  := by
  induction m generalizing s with
  | zero => rfl
  | succ m ih => rw [List.replicate_succ, Machine.run_cons, ih, called_step_resume]

theorem Ordered.next (h : s.Ordered n data) :
  1 ≤ s.nextWriteIndex
  := by
  obtain hidle | ⟨c, hw⟩ := h
  · apply hidle.next
  · apply hw.next

/-- However `flushChunkToDisk` is called for the chunks from 1 to `n` and however its calls take
turns, what has been handed over is always a beginning of the file. When all calls have returned
it is the file, and no chunk is kept; and all of them do return, if every write succeeds. -/
theorem handed_inOrder (n : ℕ) (data : ℕ → List UInt8) (events : List Event) :
  let s := Machine.run (step n data) {} events
  Machine.EveryState (step n data) (fun s => ∃ k ≤ n, s.handed = chunksTo data k) {} events ∧
    (s.AllReturned n → s.handed = chunksTo data n ∧ ∀ i, s.chunkBuffer i = none) ∧
    (s.AllCalled n →
      (Machine.run (step n data) s (List.replicate n (.resume 0))).AllReturned n)
  := by
  intro s
  have hordered := everyState_ordered n data events
  refine ⟨?_, ?_, ?_⟩
  · apply hordered.mono
    intro s h
    apply h.handed
  · intro hall
    apply (hordered.last.idle hall).complete hall
  · intro hcalled i h1 hi
    have hnext := hordered.last.next
    have hidle : (Machine.run (step n data) s (List.replicate n (.resume 0))).Idle n data := by
      apply hordered.last.settle
      omega
    have hsame : (Machine.run (step n data) s (List.replicate n (.resume 0))).called = s.called :=
      called_run_resume s n
    have hcome := hcalled i h1 hi
    rw [← hsame, hidle.returns.called i] at hcome
    obtain hret | hwait := hcome
    · apply hret
    · cases hwait

end DiskWriter

/-! ### The page -/

/-- Where `flushChunkToDisk` waits, if it is what the download waits for. -/
def FetchPhase.flush? : FetchPhase → Option FlushPhase
  | .writing _ _ => some .writing
  | .draining _ _ => some .draining
  | _ => none

open TransferSessionDetails

namespace SessionReceiver

variable {s : SessionReceiver}

/-- The page as the calls of `flushChunkToDisk` see it. -/
def diskFile (s : SessionReceiver) : DiskFile where
  writable := s.writable
  nextWriteIndex := s.nextWriteIndex
  chunkBuffer := s.chunkBuffer
  writtenChunks := s.writtenChunks

/-- Only `flushChunkToDisk` touches the file, and not what its caller does afterwards. -/
theorem diskState_fetchLoop (s : SessionReceiver) (check : Bool) (rest : List ℕ) :
  (s.fetchLoop check rest).diskFile.state = s.diskFile.state
  := by
  induction rest generalizing s with
  | nil =>
    rw [fetchLoop]
    split
    · obtain ⟨_, _, _, heq⟩ := s.reported_checkIfDone
      rw [heq]
      rfl
    · rfl
  | cons index rest ih =>
    have hraise : (s.raiseKnown check index).diskFile.state = s.diskFile.state := by
      rw [raiseKnown]
      split <;> rfl
    rw [fetchLoop]
    split
    · apply hraise
    split
    · rw [ih, hraise]
    · apply hraise

theorem diskState_confirm (s : SessionReceiver) (f : Fetch) (attempt : ℕ) (isConnected : Bool) :
  (s.confirm f attempt isConnected).diskFile.state = s.diskFile.state
  := by
  rw [confirm]
  simp only
  split
  · apply diskState_fetchLoop
  · rfl

theorem diskState_drain (s : SessionReceiver) (f : Fetch) (attempt : ℕ) (isConnected : Bool) :
  (s.drain f attempt isConnected).diskFile.state = (s.diskFile.drain f.index).1.state
  := by
  rw [drain, DiskFile.drain]
  cases hnext : s.chunkBuffer s.nextWriteIndex with
  | none =>
    have hnone : s.diskFile.chunkBuffer s.diskFile.nextWriteIndex = none := hnext
    rw [hnone]
    apply diskState_confirm
  | some data =>
    have hsome : s.diskFile.chunkBuffer s.diskFile.nextWriteIndex = some data := hnext
    rw [hsome]
    simp only
    split <;> rfl

/-- A download that stores its data on the disk calls `flushChunkToDisk`. -/
theorem diskState_store (hwritable : s.writable = true) (f : Fetch) (attempt : ℕ)
  (data : List UInt8) (isConnected : Bool) :
  (s.store f attempt data isConnected).diskFile.state =
    (s.diskFile.flushChunkToDisk f.index data).1.state
  := by
  rw [store, if_pos hwritable, DiskFile.flushChunkToDisk_of_writable hwritable]
  by_cases hnext : f.index = s.nextWriteIndex
  · have hnext' : f.index = s.diskFile.nextWriteIndex := hnext
    rw [if_pos hnext, if_pos hnext']
    rfl
  · have hnext' : f.index ≠ s.diskFile.nextWriteIndex := hnext
    rw [if_neg hnext, if_neg hnext', diskState_confirm]
    rfl

/-- A download whose write has succeeded goes on like the call of `flushChunkToDisk`. -/
theorem diskState_resume (s : SessionReceiver) (decryptChunk : Bytes → Option Bytes) {f : Fetch}
  {phase : FlushPhase} (isConnected : Bool) (hphase : f.phase.flush? = some phase) :
  (s.resume decryptChunk f isConnected .resolved).diskFile.state =
    (s.diskFile.resume ⟨f.index, phase⟩).1.state
  := by
  simp only [resume]
  cases hf : f.phase with
  | writing attempt data =>
    rw [hf] at hphase
    cases hphase
    apply diskState_drain
  | draining attempt data =>
    rw [hf] at hphase
    cases hphase
    apply diskState_drain
  | _ =>
    rw [hf] at hphase
    cases hphase

end SessionReceiver

import PutInPipe.Buffer.Log
import PutInPipe.Session.History

/-!
# Late receivers

A receiver that joins has to find every chunk uploaded so far. The buffer admits consumers
by the flag `someChunkWasRemoved`, which is false exactly when the stored chunks are those
numbered from one to `currentMaxChunkIndex`. A session reaches its buffer only through the
operations of the buffer, `bufferOps`, so that what holds in every run of a buffer holds of
the buffer of every session.
-/

open TransferSessionDetails

namespace TransferSessionDetails.Buffer

variable {config : Config} {b : Buffer} {L : PrunedLog Bytes}

/-- The stored chunks are those numbered from one to the last one. -/
def StoresAll (b : Buffer) : Prop :=
  ∀ i, i ∈ b.chunksIndex ↔ 1 ≤ i ∧ i ≤ b.currentMaxChunkIndex

theorem Stores.mem_chunksIndex (h : b.Stores L) {i : ℕ} :
  i ∈ b.chunksIndex ↔ i ∈ L.held
  := by
  rw [chunksIndex, OrderedMap.mem_keys, h.mem_held]

theorem Stores.storesAll_iff (h : b.Stores L) :
  b.StoresAll ↔ L.Complete
  := by
  simp only [StoresAll, h.mem_chunksIndex, currentMaxChunkIndex, h.maxIndex]
  constructor
  · intro hall i h1 hn
    apply (hall i).mpr ⟨h1, hn⟩
  · intro hc i
    exact ⟨PrunedLog.held_bounds, fun hi => hc i hi.1 hi.2⟩

namespace Logged

/-- Every payload accepted so far can be read. -/
def ReadsAll (l : Logged) : Prop :=
  ∀ i payload, l.log[i]? = some payload → (l.buffer.get (i + 1)).2 = some payload

/-- What a buffer promises to late consumers: to lack a chunk only if its flag says so, to
lack none while it is frozen, to admit a consumer only if every payload can be read, and
to admit nobody once a chunk was removed. -/
structure AdmitsInTime (config : Config) (l : Logged) : Prop where
  removed : l.buffer.someChunksWasRemoved = false ↔ l.buffer.StoresAll
  frozen : l.buffer.initialChunksFreezing = true → l.buffer.StoresAll
  kept : ∀ op, (l.buffer.step config op).initialChunksFreezing = true →
    ∀ i ∈ l.buffer.chunksIndex, i ∈ (l.buffer.step config op).chunksIndex
  admitted : ∀ publicId, (l.buffer.addNewToExpectedConsumers config publicId).2 = true →
    l.ReadsAll
      ∧ ReadsAll { l with buffer := (l.buffer.addNewToExpectedConsumers config publicId).1 }
  closed : l.buffer.someChunksWasRemoved = true → ∀ ops publicId,
    (addNewToExpectedConsumers config (Machine.run (step config) l ops).buffer publicId).2 = false

variable {l : Logged}

theorem Stores.readsAll (h : l.Stores config L) (hc : L.Complete) :
  l.ReadsAll
  := by
  intro i payload hi
  rw [← h.entries] at hi
  obtain ⟨hlt, -⟩ := List.getElem?_eq_some_iff.mp hi
  rw [get_snd, h.stores.data, PrunedLog.read_eq_some]
  exact ⟨hc (i + 1) (by omega) hlt, hi⟩

theorem Stores.storesAll_of_freezing (h : l.Stores config L)
    (hf : l.buffer.initialChunksFreezing = true) :
  l.buffer.StoresAll
  := by
  rw [h.stores.storesAll_iff, ← h.stores.removed]
  by_contra hr
  have := h.wellFormed.freezing (Bool.eq_true_of_not_eq_false hr)
  rw [hf] at this
  cases this

theorem Stores.admitsInTime (h : l.Stores config L) :
  l.AdmitsInTime config
  := by
  constructor
  · rw [h.stores.storesAll_iff]
    apply h.stores.removed
  · apply h.storesAll_of_freezing
  · intro op hf i hi
    obtain ⟨L', hL', hev⟩ := h.step op
    apply (hL'.storesAll_of_freezing hf i).mpr
    rw [h.stores.mem_chunksIndex] at hi
    have hbounds := PrunedLog.held_bounds hi
    have hle := hev.entries.length_le
    rw [currentMaxChunkIndex, hL'.stores.maxIndex]
    omega
  · intro publicId hadd
    obtain ⟨hr, -⟩ := addNewToExpectedConsumers_snd.mp hadd
    have hall := h.readsAll (h.stores.removed.mp hr)
    use hall
    intro i payload hi
    have hget := hall i payload hi
    rw [addNewToExpectedConsumers_of_true hadd]
    rw [get_snd] at hget ⊢
    apply hget
  · intro hr ops publicId
    obtain ⟨L', hL', hev⟩ := h.run ops
    apply Bool.eq_false_of_not_eq_true
    intro hadd
    obtain ⟨hr', -⟩ := addNewToExpectedConsumers_snd.mp hadd
    have hc := hev.complete (hL'.stores.removed.mp hr')
    rw [someChunksWasRemoved, h.stores.removed.mpr hc] at hr
    cases hr

theorem Stores.of_reachable (h : Machine.Reachable (Logged.step config) {} l) :
  ∃ L, l.Stores config L
  := by
  obtain ⟨ops, rfl⟩ := h
  obtain ⟨L, hL, -⟩ := (Stores.empty config).run ops
  exact ⟨L, hL⟩

end Logged

end TransferSessionDetails.Buffer

namespace TransferSession

variable {config : Config} {s : TransferSession}

/-! ### The buffer of a session -/

/-- The calls of the methods of its buffer that an operation of a session makes. -/
def bufferOps (s : TransferSession) : Op → List Buffer.Op
  | .addChunk binaryData => [.addChunk binaryData]
  | .addReceiver client =>
      if s.dataReceivers.any (fun c => s.alive c && c.id == client.id) then []
      else [.addNewToExpectedConsumers client.publicId]
  | .getChunk index _ => [.get index]
  | .setChunkAsReceived index _ =>
      if s.autoDrops then [.setInitialChunksFreezingDropped, .get index, .setChunkAsReceived index]
      else [.get index, .setChunkAsReceived index]
  | .setEndOfFile => [.setEndOfFile]
  | .dropInitialChunksFreeze => [.setInitialChunksFreezingDropped]
  | .removeReceiver publicId => [.removeOneFromExpectedConsumers publicId]
  | .destroyClient client =>
      if (s.departure (.destroyClient client)).isSome then
        [.removeOneFromExpectedConsumers client.publicId]
      else []
  | _ => []

theorem buffer_addReceiver (config : Config) (s : TransferSession) (client : ClientRef) :
  (s.addReceiver config client).1.buffer
    = if s.dataReceivers.any (fun c => s.alive c && c.id == client.id) then s.buffer
      else (s.buffer.addNewToExpectedConsumers config client.publicId).1
  := by
  rw [addReceiver]
  split
  · rfl
  · simp only
    split
    · rfl
    · simp only [notify, addSubscriber]
      split <;> rfl

theorem buffer_setEndOfFile (s : TransferSession) :
  s.setEndOfFile.buffer = s.buffer.setEndOfFile
  := by
  cases he : s.buffer.EOF with
  | true =>
      rw [setEndOfFile_of_eof he, Buffer.setEndOfFile, if_pos he]
  | false => rw [setEndOfFile_of_not_eof he]

theorem buffer_finish (s : TransferSession) :
  s.finish.buffer = s.buffer
  := by
  rw [finish]
  split <;> rfl

/-- An operation of a session does to the buffer what the calls it makes do. -/
theorem buffer_apply (config : Config) (s : TransferSession) (op : Op) :
  (s.apply config op).buffer = Machine.run (Buffer.step config) s.buffer (s.bufferOps op)
  := by
  cases hd : s.departure op with
  | some d =>
      obtain ⟨t, publicId⟩ := d
      obtain ⟨es, -, heq⟩ := t.removeReceiver_spec publicId
      rw [apply_of_departure hd, heq]
      rcases departure_eq_some.mp hd with ⟨rfl, rfl⟩ | ⟨c, rfl, rfl, rfl, -⟩
      · rfl
      · rw [bufferOps, if_pos (by simp [hd])]
        rfl
  | none =>
      cases op with
      | addChunk binaryData =>
          obtain ⟨es, heq⟩ := addChunk_fst config s binaryData
          rw [apply, heq]
          rfl
      | addReceiver client =>
          rw [apply, buffer_addReceiver, bufferOps]
          split <;> rfl
      | removeReceiver publicId => cases hd
      | destroyClient client =>
          obtain ⟨listed, type, heq, -⟩ := destroyClient_of_departure_none hd
          rw [apply, heq, bufferOps, if_neg (by simp [hd])]
          rfl
      | setFileInfo info =>
          obtain ⟨info', es, -, heq⟩ := s.setFileInfo_fst info
          rw [apply, heq]
          rfl
      | getChunk index client =>
          obtain ⟨es, -, heq⟩ := s.getChunk_fst index client
          rw [apply, heq]
          rfl
      | setChunkAsReceived index client =>
          rw [apply, setChunkAsReceived, buffer_confirmChunk, buffer_autoDropFreeze, bufferOps]
          split <;> rfl
      | setEndOfFile =>
          rw [apply, buffer_setEndOfFile]
          rfl
      | dropInitialChunksFreeze =>
          rw [apply, buffer_dropInitialChunksFreeze]
          rfl
      | manualTerminate => rfl
      | lifetimeTimeout => rfl
      | connect client => rfl
      | disconnect client => rfl

end TransferSession

namespace History

variable {config : Config} {h : History}

/-- The buffer of the session and the payloads it has accepted. -/
def logged (h : History) : Buffer.Logged := ⟨h.session.buffer, h.log⟩

theorem addChunk_snd (config : Config) (s : TransferSession) (binaryData : Bytes) :
  (s.addChunk config binaryData).2 = ((s.buffer.addChunk config binaryData).2 != 0)
  := by
  by_cases h : (s.buffer.addChunk config binaryData).2 = 0
  · simp [TransferSession.addChunk, h]
  · simp [TransferSession.addChunk_of_accepted config s h, h]

theorem nextLog_eq (config : Config) (h : History) (op : TransferSession.Op) :
  (Machine.run (Buffer.Logged.step config) h.logged (h.session.bufferOps op)).log
    = h.nextLog config op
  := by
  cases op with
  | addChunk binaryData =>
      simp only [TransferSession.bufferOps, Machine.run_cons, Machine.run_nil,
        Buffer.Logged.step, Buffer.accepted, logged, nextLog, addChunk_snd, bne_iff_ne]
      split
      · rfl
      · apply List.append_nil
  | _ =>
      rw [nextLog, Buffer.Logged.log_run, logged]
      intro binaryData
      simp only [TransferSession.bufferOps]
      try split
      all_goals simp

theorem logged_step (config : Config) (h : History) (op : TransferSession.Op) :
  Machine.Reachable (Buffer.Logged.step config) h.logged (h.step config op).logged
  := by
  by_cases hc : h.session.listed = true ∧ h.session.enabled op = true
  · use h.session.bufferOps op
    apply Buffer.Logged.ext
    · rw [Buffer.Logged.buffer_run, logged, logged, session_step,
        TransferSession.step_of_enabled hc.1 hc.2, TransferSession.buffer_finish,
        TransferSession.buffer_apply]
    · rw [nextLog_eq, logged, step, if_pos (by simp [hc])]
  · rw [step_of_not_enabled hc]
    apply Machine.Reachable.refl

theorem logged_run (config : Config) (h : History) (ops : List TransferSession.Op) :
  Machine.Reachable (Buffer.Logged.step config) h.logged
    (Machine.run (step config) h ops).logged
  := by
  induction ops generalizing h with
  | nil => apply Machine.Reachable.refl
  | cons op ops ih => apply (h.logged_step config op).trans (ih _)

/-- What a session promises to late receivers, besides what its buffer promises. -/
structure AdmitsInTime (config : Config) (h : History) : Prop where
  buffer : h.logged.AdmitsInTime config
  admitted : ∀ client, (h.session.addReceiver config client).2 = true →
    h.logged.ReadsAll
      ∧ (logged { h with session := (h.session.addReceiver config client).1 }).ReadsAll
  closed : h.session.buffer.someChunksWasRemoved = true → ∀ ops client,
    ((Machine.run (step config) h ops).session.addReceiver config client).2 = false

theorem admitsInTime_run (config : Config) (sender : ClientRef) (auto : Bool)
    (ops : List TransferSession.Op) :
  (Machine.run (step config) (create sender auto) ops).AdmitsInTime config
  := by
  obtain ⟨L, hL⟩ :=
    Buffer.Logged.Stores.of_reachable (logged_run config (create sender auto) ops)
  have hb := hL.admitsInTime
  refine ⟨hb, ?_, ?_⟩
  · intro client hadd
    obtain ⟨hbuffer, heq⟩ := TransferSession.addReceiver_of_true hadd
    have hreads := hb.admitted client.publicId hbuffer
    rw [logged, Buffer.addNewToExpectedConsumers_of_true hbuffer] at hreads
    rw [heq]
    apply hreads
  · intro hr ops' client
    apply Bool.eq_false_of_not_eq_true
    intro hadd
    obtain ⟨hbuffer, -⟩ := TransferSession.addReceiver_of_true hadd
    obtain ⟨bops, hbops⟩ :=
      logged_run config (Machine.run (step config) (create sender auto) ops) ops'
    have hclosed := hb.closed hr bops client.publicId
    rw [hbops, logged, hbuffer] at hclosed
    cases hclosed

/-- In every run of a buffer and in every run of a session, nothing is removed while the
freeze is on, a receiver is admitted only when every payload accepted so far can be read,
and nobody is admitted after a removal. -/
theorem admitsInTime_of_runs (config : Config) (sender : ClientRef) (auto : Bool) :
  (∀ ops, (Machine.run (Buffer.Logged.step config) {} ops).AdmitsInTime config
    ∧ ∀ s : TransferSession, s.buffer = (Machine.run (Buffer.Logged.step config) {} ops).buffer →
      ∀ client, (s.addReceiver config client).2 = true →
        (Machine.run (Buffer.Logged.step config) {} ops).ReadsAll)
  ∧ ∀ ops, (Machine.run (step config) (create sender auto) ops).AdmitsInTime config
  := by
  constructor
  · intro ops
    have hrun : Machine.Reachable (Buffer.Logged.step config) {}
        (Machine.run (Buffer.Logged.step config) {} ops) := ⟨ops, rfl⟩
    obtain ⟨L, hL⟩ := Buffer.Logged.Stores.of_reachable hrun
    use hL.admitsInTime
    intro s hs client hadd
    obtain ⟨hbuffer, -⟩ := TransferSession.addReceiver_of_true hadd
    rw [hs] at hbuffer
    apply (hL.admitsInTime.admitted client.publicId hbuffer).1
  · intro ops
    apply admitsInTime_run

end History

import PutInPipe.Session.Departure

/-!
# Runs of a session

What is proved of a session is proved while it is listed: `WhileListed Q` says that `Q`
holds of a session that is still in `TransferSessionList`. `Consistent` collects what every
operation preserves while the session is listed, so that it holds throughout every run from
the state in which the session is created.
-/

open TransferSessionDetails

namespace TransferSession

variable {config : Config} {s : TransferSession}

/-! ### Properties of listed sessions -/

/-- `Q` holds while the session is listed. -/
def WhileListed (Q : TransferSession → Prop) (s : TransferSession) : Prop :=
  s.listed = true → Q s

theorem finish_of_listed (h : s.listed = true) :
  s.finish = s
  := by
  rw [finish, if_pos h]

theorem whileListed_finish {Q : TransferSession → Prop} :
  WhileListed Q s.finish ↔ WhileListed Q s
  := by
  cases h : s.listed with
  | true => rw [finish_of_listed h]
  | false => simp [WhileListed, finish, notify, h]

theorem step_of_enabled {op : Op} (hl : s.listed = true) (he : s.enabled op = true) :
  s.step config op = (s.apply config op).finish
  := by
  rw [step, if_pos (by simp [hl, he])]

theorem step_of_not_enabled {op : Op} (h : ¬ (s.listed = true ∧ s.enabled op = true)) :
  s.step config op = s
  := by
  rw [step, if_neg (by simpa using h)]

/-- To preserve a property of listed sessions, an operation has to preserve it when it is
applied to a listed session. -/
theorem whileListed_step {Q : TransferSession → Prop} {op : Op} (hs : WhileListed Q s)
    (h : s.listed = true → s.enabled op = true → Q s → WhileListed Q (s.apply config op)) :
  WhileListed Q (s.step config op)
  := by
  by_cases hc : s.listed = true ∧ s.enabled op = true
  · rw [step_of_enabled hc.1 hc.2]
    apply whileListed_finish.mpr (h hc.1 hc.2 (hs hc.1))
  · rw [step_of_not_enabled hc]
    apply hs

/-- A condition on the operations that are applied to a listed session. -/
def WhenApplied (C : TransferSession → Op → Prop) (s : TransferSession) (op : Op) : Prop :=
  s.listed = true → s.enabled op = true → C s op

theorem listed_of_confirmChunk {i : ℕ} {c : ClientRef}
    (h : (s.confirmChunk config i c).listed = true) :
  s.listed = true
  := by
  cases hi : s.buffer.chunks.find? i with
  | none =>
      rw [confirmChunk_of_none hi] at h
      apply h
  | some chunk =>
      rw [confirmChunk_of_some config hi] at h
      apply (Bool.and_eq_true_iff.mp h).1

/-- Dropping the freeze keeps what it keeps in a session that has receivers and file
information. -/
theorem whileListed_dropInitialChunksFreeze {Q : TransferSession → Prop}
    (hs : s.buffer.initialChunksFreezing = false → Q s)
    (hready : s.buffer.initialChunksFreezing = true → s.dataReceivers ≠ [] →
      s.fileInfo.name ≠ [] → WhileListed Q (s.dropInitialChunksFreeze config)) :
  WhileListed Q (s.dropInitialChunksFreeze config)
  := by
  cases hf : s.buffer.initialChunksFreezing with
  | false =>
      rw [dropInitialChunksFreeze_of_not_freezing hf]
      exact fun _ => hs hf
  | true =>
      by_cases hun : s.dataReceivers = [] ∨ s.fileInfo.name = []
      · obtain ⟨type, heq⟩ := dropInitialChunksFreeze_of_unready config hf hun
        rw [heq]
        intro hl
        cases hl
      · rw [not_or] at hun
        apply hready hf hun.1 hun.2

theorem whileListed_autoDropFreeze {Q : TransferSession → Prop} (hs : Q s)
    (hdrop : s.buffer.initialChunksFreezing = true →
      WhileListed Q ({ s with autoDropFreezeFired := true }.dropInitialChunksFreeze config)) :
  WhileListed Q (s.autoDropFreeze config)
  := by
  rw [autoDropFreeze_eq]
  split
  · rename_i hauto
    apply hdrop (initialChunksFreezing_of_autoDrops hauto)
  · exact fun _ => hs

/-- A confirmation keeps what its two parts keep. -/
theorem whileListed_setChunkAsReceived {Q : TransferSession → Prop} {i : ℕ} {c : ClientRef}
    (hdrop : WhileListed Q (s.autoDropFreeze config))
    (hconfirm : ∀ t : TransferSession, Q t → WhileListed Q (t.confirmChunk config i c)) :
  WhileListed Q (s.setChunkAsReceived config i c)
  := by
  intro hl
  apply hconfirm _ (hdrop (listed_of_confirmChunk hl)) hl

/-! ### Consistency -/

/-- What holds of a listed session throughout every run. -/
structure Consistent (config : Config) (s : TransferSession) : Prop where
  buffer : s.buffer.WellFormed config
  sender_mem : s.dataSender ∈ s.subscribers
  receivers_mem : ∀ c ∈ s.dataReceivers, c ∈ s.subscribers
  expected : ∀ c ∈ s.dataReceivers, c.publicId ∈ s.buffer.expectedConsumers
  distinct : (s.dataReceivers.map ClientRef.publicId).Nodup
  sender : s.alive s.dataSender = true ∨ s.buffer.EOF = true
  fired : s.autoDropFreezeFired = true → s.buffer.initialChunksFreezing = false
  pending : s.buffer.initialChunksFreezing = true → s.buffer.EOF = true →
    s.buffer.chunkCount ≠ 0

namespace Consistent

theorem create (config : Config) (sender : ClientRef) (auto : Bool) :
  (create sender auto).Consistent config
  := by
  constructor
  · apply Buffer.WellFormed.empty
  · apply List.mem_singleton_self
  · apply List.forall_mem_nil
  · apply List.forall_mem_nil
  · apply List.nodup_nil
  · left
    rfl
  · intro h
    cases h
  · intro _ h
    cases h

/-- Two receivers with one public id are the same client. -/
theorem eq_of_publicId (h : s.Consistent config) {c d : ClientRef}
    (hc : c ∈ s.dataReceivers) (hd : d ∈ s.dataReceivers) (hp : c.publicId = d.publicId) :
  c = d
  := List.inj_on_of_nodup_map h.distinct hc hd hp

/-! ### Departures -/

theorem expire_of_stranger (h : s.Consistent config) {c : ClientRef}
    (hc : c ∉ s.subscribers) :
  (s.expire c).Consistent config
  := by
  refine ⟨h.buffer, h.sender_mem, h.receivers_mem, h.expected, h.distinct, ?_, h.fired,
    h.pending⟩
  apply h.sender.imp_left
  intro ha
  apply alive_expire.mpr ⟨_, ha⟩
  intro heq
  apply hc
  rw [← heq]
  apply h.sender_mem

theorem expire_of_alive (h : s.Consistent config) {c : ClientRef}
    (ha : (s.expire c).alive s.dataSender = true ∨ s.buffer.EOF = true) :
  (s.expire c).Consistent config
  := ⟨h.buffer, h.sender_mem, h.receivers_mem, h.expected, h.distinct, ha, h.fired, h.pending⟩

theorem removeReceiver (h : s.Consistent config) (publicId : String) :
  WhileListed (Consistent config) (s.removeReceiver publicId)
  := by
  obtain ⟨es, -, heq⟩ := s.removeReceiver_spec publicId
  rw [heq]
  intro hl
  obtain ⟨-, hends⟩ := Bool.and_eq_true_iff.mp hl
  refine ⟨h.buffer.removeOneFromExpectedConsumers publicId, h.sender_mem, ?_, ?_, ?_, ?_, ?_, ?_⟩
  · intro c hc
    apply h.receivers_mem c (mem_remaining.mp hc).1
  · intro c hc
    obtain ⟨hmem, -, hp⟩ := mem_remaining.mp hc
    simp only [Buffer.expectedConsumers_removeOne]
    apply Finset.mem_erase.mpr ⟨hp, h.expected c hmem⟩
  · apply h.distinct.sublist (List.filter_sublist.map _)
  · rw [Buffer.EOF_removeOne]
    by_contra hno
    rw [not_or] at hno
    obtain ⟨hdead, he⟩ := hno
    have ha := h.sender.resolve_right he
    rw [alive_iff, not_not, List.mem_append] at hdead
    rcases hdead with hexp | hdead
    · have := abandonedWithout_of_sender (Option.mem_toList.mp hexp) h.sender_mem
        (Bool.eq_false_of_not_eq_true he)
      simp [endsWithout, this] at hends
    · apply alive_iff.mp ha hdead
  · intro hf
    rw [Buffer.initialChunksFreezing_removeOne]
    apply h.fired hf
  · intro hf he
    rw [Buffer.initialChunksFreezing_removeOne] at hf
    rw [Buffer.EOF_removeOne] at he
    rw [Buffer.chunkCount, Buffer.chunks_removeOne_of_freezing hf]
    apply h.pending hf he

/-- The state in which an operation calls `removeReceiver` is consistent. -/
theorem departure (h : s.Consistent config) {op : Op} {t : TransferSession}
    {publicId : String} (hd : s.departure op = some (t, publicId)) :
  t.Consistent config
  := by
  rcases departure_eq_some.mp hd with ⟨-, rfl⟩ | ⟨c, -, rfl, -, -, ht⟩
  · apply h
  · apply h.expire_of_alive (Or.inl (takenForSender_eq_false.mp ht).1)

theorem destroyClient (h : s.Consistent config) (c : ClientRef) :
  WhileListed (Consistent config) (s.destroyClient c)
  := by
  by_cases hc : c ∈ s.subscribers
  · cases ht : (s.expire c).takenForSender c.publicId with
    | true =>
        rw [destroyClient_of_taken hc ht]
        intro hl
        have he : s.buffer.EOF = true := by
          simp only [Bool.and_eq_true] at hl
          apply hl.2.1
        exact ⟨h.buffer, h.sender_mem, h.receivers_mem, h.expected, h.distinct, Or.inr he,
          h.fired, h.pending⟩
    | false =>
        rw [destroyClient_of_receiver hc ht]
        apply Consistent.removeReceiver
        apply h.expire_of_alive
        apply Or.inl (takenForSender_eq_false.mp ht).1
  · rw [destroyClient_of_stranger hc]
    intro _
    apply h.expire_of_stranger hc

/-! ### The other operations -/

theorem addReceiver (h : s.Consistent config) (c : ClientRef) :
  (s.addReceiver config c).1.Consistent config
  := by
  cases ha : (s.addReceiver config c).2 with
  | false =>
      rw [addReceiver_of_false ha]
      apply h
  | true =>
      obtain ⟨hadd, heq⟩ := addReceiver_of_true ha
      have hbuf := h.buffer.addNewToExpectedConsumers c.publicId
      rw [Buffer.addNewToExpectedConsumers_of_true hadd] at hbuf
      have hnew := (Buffer.addNewToExpectedConsumers_snd.mp hadd).2.2
      rw [heq]
      refine ⟨hbuf, mem_addSubscriber.mpr (Or.inl h.sender_mem), ?_, ?_, ?_, h.sender, h.fired,
        h.pending⟩
      · intro x hx
        apply mem_addSubscriber.mpr
        rcases List.mem_append.mp hx with hx | hx
        · apply Or.inl (h.receivers_mem x hx)
        · apply Or.inr (List.mem_singleton.mp hx)
      · intro x hx
        rcases List.mem_append.mp hx with hx | hx
        · apply Finset.mem_insert_of_mem (h.expected x hx)
        · rw [List.mem_singleton.mp hx]
          apply Finset.mem_insert_self
      · rw [List.map_append, List.map_singleton]
        apply List.nodup_append.mpr
        use h.distinct, List.nodup_singleton _
        intro p hp q hq
        rw [List.mem_singleton.mp hq]
        rintro rfl
        obtain ⟨d, hd, hdp⟩ := List.mem_map.mp hp
        apply hnew
        rw [← hdp]
        apply h.expected d hd

theorem setFileInfo (h : s.Consistent config) (info : FileInfo) :
  (s.setFileInfo info).1.Consistent config
  := by
  obtain ⟨info', es, -, heq⟩ := s.setFileInfo_fst info
  rw [heq]
  exact ⟨h.buffer, h.sender_mem, h.receivers_mem, h.expected, h.distinct, h.sender, h.fired,
    h.pending⟩

theorem addChunk (h : s.Consistent config) (binaryData : Bytes) :
  (s.addChunk config binaryData).1.Consistent config
  := by
  rcases Buffer.addChunk_cases config s.buffer binaryData with ⟨heof, hsize, hroom⟩ | hno
  · have hacc := h.buffer.addChunk_of_accepted heof hsize hroom
    rw [addChunk_of_accepted config _ (by simp [hacc])]
    refine ⟨h.buffer.addChunk binaryData, h.sender_mem, h.receivers_mem, ?_, h.distinct,
      ?_, ?_, ?_⟩
    · rw [hacc]
      apply h.expected
    · rw [hacc]
      apply h.sender
    · rw [hacc]
      apply h.fired
    · rw [hacc]
      intro _ he
      rw [heof] at he
      cases he
  · rw [addChunk_of_rejected hno]
    apply h

theorem getChunk (h : s.Consistent config) (i : ℕ) (c : ClientRef) :
  (s.getChunk i c).1.Consistent config
  := by
  obtain ⟨es, -, heq⟩ := s.getChunk_fst i c
  obtain ⟨n, hn⟩ := s.buffer.get_fst i
  rw [heq, hn]
  exact ⟨⟨h.buffer.numbered, h.buffer.queue, h.buffer.consumers, h.buffer.freezing⟩,
    h.sender_mem, h.receivers_mem, h.expected, h.distinct, h.sender, h.fired, h.pending⟩

theorem setEndOfFile (h : s.Consistent config) :
  WhileListed (Consistent config) s.setEndOfFile
  := by
  cases he : s.buffer.EOF with
  | true =>
      rw [setEndOfFile_of_eof he]
      exact fun _ => h
  | false =>
      rw [setEndOfFile_of_not_eof he]
      intro hl
      have hcount : s.buffer.chunkCount ≠ 0 := by
        simpa using (Bool.and_eq_true_iff.mp hl).2
      refine ⟨h.buffer.setEndOfFile, h.sender_mem, h.receivers_mem, ?_, h.distinct, ?_, ?_, ?_⟩
      · rw [Buffer.setEndOfFile, he]
        apply h.expected
      · rw [Buffer.setEndOfFile, he]
        apply Or.inr rfl
      · rw [Buffer.setEndOfFile, he]
        apply h.fired
      · rw [Buffer.setEndOfFile, he]
        exact fun _ _ => hcount

theorem dropInitialChunksFreeze_of_freezing (h : s.Consistent config)
    (hf : s.buffer.initialChunksFreezing = true) (fired : Bool) :
  WhileListed (Consistent config)
    ({ s with autoDropFreezeFired := fired }.dropInitialChunksFreeze config)
  := by
  apply whileListed_dropInitialChunksFreeze
  · intro hf'
    cases hf.symm.trans hf'
  · intro _ hr hn _
    rw [dropInitialChunksFreeze_of_ready config (s := { s with autoDropFreezeFired := fired }) hf
      hr hn]
    refine ⟨h.buffer.setInitialChunksFreezingDropped, h.sender_mem, h.receivers_mem, ?_,
      h.distinct, ?_, ?_, ?_⟩
    · rw [Buffer.expectedConsumers_setInitialChunksFreezingDropped]
      apply h.expected
    · rw [Buffer.EOF_setInitialChunksFreezingDropped]
      apply h.sender
    · intro _
      apply Buffer.initialChunksFreezing_setInitialChunksFreezingDropped
    · intro hf'
      rw [Buffer.initialChunksFreezing_setInitialChunksFreezingDropped] at hf'
      cases hf'

theorem dropInitialChunksFreeze (h : s.Consistent config) :
  WhileListed (Consistent config) (s.dropInitialChunksFreeze config)
  := by
  cases hf : s.buffer.initialChunksFreezing with
  | false =>
      rw [dropInitialChunksFreeze_of_not_freezing hf]
      exact fun _ => h
  | true => apply h.dropInitialChunksFreeze_of_freezing hf s.autoDropFreezeFired

theorem confirmChunk (h : s.Consistent config) (i : ℕ) (c : ClientRef) :
  (s.confirmChunk config i c).Consistent config
  := by
  cases hi : s.buffer.chunks.find? i with
  | none =>
      rw [confirmChunk_of_none hi]
      apply h
  | some chunk =>
      rw [confirmChunk_of_some config hi]
      refine ⟨(h.buffer.get i).setChunkAsReceived i, h.sender_mem, h.receivers_mem, ?_,
        h.distinct, ?_, ?_, ?_⟩
      · rw [Buffer.expectedConsumers_setChunkAsReceived, Buffer.expectedConsumers_get]
        apply h.expected
      · rw [Buffer.EOF_setChunkAsReceived, Buffer.EOF_get]
        apply h.sender
      · rw [Buffer.initialChunksFreezing_setChunkAsReceived, Buffer.initialChunksFreezing_get]
        apply h.fired
      · rw [Buffer.initialChunksFreezing_setChunkAsReceived, Buffer.initialChunksFreezing_get,
          Buffer.EOF_setChunkAsReceived, Buffer.EOF_get]
        intro hf he
        rw [Buffer.chunkCount_setChunkAsReceived_of_freezing (by simpa using hf),
          Buffer.chunkCount, Buffer.chunks_get]
        apply h.pending hf he

theorem autoDropFreeze (h : s.Consistent config) :
  WhileListed (Consistent config) (s.autoDropFreeze config)
  := by
  apply whileListed_autoDropFreeze h
  intro hf
  apply h.dropInitialChunksFreeze_of_freezing hf true

theorem setChunkAsReceived (h : s.Consistent config) (i : ℕ) (c : ClientRef) :
  WhileListed (Consistent config) (s.setChunkAsReceived config i c)
  := by
  apply whileListed_setChunkAsReceived h.autoDropFreeze
  intro t ht _
  apply ht.confirmChunk

/-- Every operation on a listed session keeps it consistent. -/
theorem apply (h : s.Consistent config) (op : Op) :
  WhileListed (Consistent config) (s.apply config op)
  := by
  cases op with
  | addChunk binaryData => exact fun _ => h.addChunk binaryData
  | addReceiver c => exact fun _ => h.addReceiver c
  | removeReceiver publicId => apply h.removeReceiver
  | destroyClient c => apply h.destroyClient
  | setFileInfo info => exact fun _ => h.setFileInfo info
  | getChunk i c => exact fun _ => h.getChunk i c
  | setChunkAsReceived i c => apply h.setChunkAsReceived
  | setEndOfFile => apply h.setEndOfFile
  | dropInitialChunksFreeze => apply h.dropInitialChunksFreeze
  | manualTerminate => exact fun hl => by cases hl
  | lifetimeTimeout => exact fun hl => by cases hl
  | connect c => exact fun _ => ⟨h.buffer, h.sender_mem, h.receivers_mem, h.expected,
      h.distinct, h.sender, h.fired, h.pending⟩
  | disconnect c => exact fun _ => ⟨h.buffer, h.sender_mem, h.receivers_mem, h.expected,
      h.distinct, h.sender, h.fired, h.pending⟩

/-- Throughout every run from the state in which it is created, a session is consistent
while it is listed. -/
theorem step (hs : WhileListed (Consistent config) s) (op : Op) :
  WhileListed (Consistent config) (s.step config op)
  := by
  apply whileListed_step hs
  intro _ _ h
  apply h.apply

theorem of_reachable {sender : ClientRef} {auto : Bool}
    (h : Machine.Reachable (TransferSession.step config) (TransferSession.create sender auto) s) :
  WhileListed (Consistent config) s
  := by
  apply h.invariant
  · intro s op hs
    apply step hs
  · exact fun _ => create config sender auto

end Consistent

/-! ### Operations that leave the members alone -/

/-- The two states have the same members and the same mode. -/
structure SameMembers (s t : TransferSession) : Prop where
  dataSender : t.dataSender = s.dataSender
  dataReceivers : t.dataReceivers = s.dataReceivers
  subscribers : t.subscribers = s.subscribers
  destroyed : t.destroyed = s.destroyed
  expectedConsumers : t.buffer.expectedConsumers = s.buffer.expectedConsumers
  mode : t.autoDropFreezeOnFirstChunk = s.autoDropFreezeOnFirstChunk

theorem SameMembers.refl (s : TransferSession) :
  s.SameMembers s
  := ⟨rfl, rfl, rfl, rfl, rfl, rfl⟩

theorem SameMembers.trans {t u : TransferSession} (h : s.SameMembers t) (h' : t.SameMembers u) :
  s.SameMembers u
  where
    dataSender := h'.dataSender.trans h.dataSender
    dataReceivers := h'.dataReceivers.trans h.dataReceivers
    subscribers := h'.subscribers.trans h.subscribers
    destroyed := h'.destroyed.trans h.destroyed
    expectedConsumers := h'.expectedConsumers.trans h.expectedConsumers
    mode := h'.mode.trans h.mode

theorem SameMembers.alive {t : TransferSession} (h : s.SameMembers t) (c : ClientRef) :
  t.alive c = s.alive c
  := by
  rw [TransferSession.alive, TransferSession.alive, h.destroyed]

theorem sameMembers_dropInitialChunksFreeze (config : Config) (s : TransferSession) :
  s.SameMembers (s.dropInitialChunksFreeze config)
  := by
  have hbuf : (s.dropInitialChunksFreeze config).buffer.expectedConsumers
      = s.buffer.expectedConsumers := by
    rw [buffer_dropInitialChunksFreeze, Buffer.expectedConsumers_setInitialChunksFreezingDropped]
  cases hf : s.buffer.initialChunksFreezing with
  | false =>
      rw [dropInitialChunksFreeze_of_not_freezing hf]
      apply SameMembers.refl
  | true =>
      by_cases hun : s.dataReceivers = [] ∨ s.fileInfo.name = []
      · obtain ⟨type, heq⟩ := dropInitialChunksFreeze_of_unready config hf hun
        rw [heq] at hbuf ⊢
        exact ⟨rfl, rfl, rfl, rfl, hbuf, rfl⟩
      · rw [not_or] at hun
        rw [dropInitialChunksFreeze_of_ready config hf hun.1 hun.2] at hbuf ⊢
        exact ⟨rfl, rfl, rfl, rfl, hbuf, rfl⟩

theorem sameMembers_autoDropFreeze (config : Config) (s : TransferSession) :
  s.SameMembers (s.autoDropFreeze config)
  := by
  rw [autoDropFreeze_eq]
  split
  · have h := sameMembers_dropInitialChunksFreeze config { s with autoDropFreezeFired := true }
    exact ⟨h.dataSender, h.dataReceivers, h.subscribers, h.destroyed, h.expectedConsumers, h.mode⟩
  · apply SameMembers.refl

theorem sameMembers_confirmChunk (config : Config) (s : TransferSession) (i : ℕ)
    (c : ClientRef) :
  s.SameMembers (s.confirmChunk config i c)
  := by
  cases hi : s.buffer.chunks.find? i with
  | none =>
      rw [confirmChunk_of_none hi]
      apply SameMembers.refl
  | some chunk =>
      rw [confirmChunk_of_some config hi]
      refine ⟨rfl, rfl, rfl, rfl, ?_, rfl⟩
      simp

/-- The operations that neither let a receiver in nor take one off nor destroy a client. -/
def Op.keepsMembers : Op → Bool
  | .addReceiver _ | .removeReceiver _ | .destroyClient _ => false
  | _ => true

theorem sameMembers_apply (config : Config) (s : TransferSession) {op : Op}
    (h : op.keepsMembers = true) :
  s.SameMembers (s.apply config op)
  := by
  cases op with
  | addChunk binaryData =>
      obtain ⟨es, heq⟩ := s.addChunk_fst config binaryData
      simp only [apply, heq]
      exact ⟨rfl, rfl, rfl, rfl, Buffer.expectedConsumers_addChunk config s.buffer binaryData, rfl⟩
  | addReceiver c => cases h
  | removeReceiver publicId => cases h
  | destroyClient c => cases h
  | setFileInfo info =>
      obtain ⟨info', es, -, heq⟩ := s.setFileInfo_fst info
      simp only [apply, heq]
      exact ⟨rfl, rfl, rfl, rfl, rfl, rfl⟩
  | getChunk i c =>
      obtain ⟨es, -, heq⟩ := s.getChunk_fst i c
      simp only [apply, heq]
      exact ⟨rfl, rfl, rfl, rfl, Buffer.expectedConsumers_get i, rfl⟩
  | setChunkAsReceived i c =>
      apply (sameMembers_autoDropFreeze config s).trans
      apply sameMembers_confirmChunk
  | setEndOfFile =>
      cases he : s.buffer.EOF with
      | true =>
          simp only [apply, setEndOfFile_of_eof he]
          apply SameMembers.refl
      | false =>
          simp only [apply, setEndOfFile_of_not_eof he, Buffer.setEndOfFile, he]
          exact ⟨rfl, rfl, rfl, rfl, rfl, rfl⟩
  | dropInitialChunksFreeze => apply sameMembers_dropInitialChunksFreeze
  | manualTerminate => exact ⟨rfl, rfl, rfl, rfl, rfl, rfl⟩
  | lifetimeTimeout => exact ⟨rfl, rfl, rfl, rfl, rfl, rfl⟩
  | connect c => exact ⟨rfl, rfl, rfl, rfl, rfl, rfl⟩
  | disconnect c => exact ⟨rfl, rfl, rfl, rfl, rfl, rfl⟩

/-- No operation changes the mode of a session. -/
theorem autoDropFreezeOnFirstChunk_apply (config : Config) (s : TransferSession) (op : Op) :
  (s.apply config op).autoDropFreezeOnFirstChunk = s.autoDropFreezeOnFirstChunk
  := by
  cases op with
  | addReceiver c =>
      cases ha : (s.addReceiver config c).2 with
      | false => simp only [apply, addReceiver_of_false ha]
      | true => simp only [apply, (addReceiver_of_true ha).2]
  | removeReceiver publicId =>
      obtain ⟨es, -, heq⟩ := s.removeReceiver_spec publicId
      simp only [apply, heq]
  | destroyClient c =>
      cases hd : s.departure (.destroyClient c) with
      | none =>
          obtain ⟨listed, type, heq, -⟩ := destroyClient_of_departure_none hd
          simp only [apply, heq, expire]
      | some departure =>
          obtain ⟨t, publicId⟩ := departure
          obtain ⟨es, -, heq⟩ := t.removeReceiver_spec publicId
          rw [apply_of_departure hd, heq]
          rcases departure_eq_some.mp hd with ⟨-, rfl⟩ | ⟨c, -, rfl, -⟩ <;> rfl
  | _ => apply (sameMembers_apply config s rfl).mode

theorem autoDropFreezeOnFirstChunk_step (config : Config) (s : TransferSession) (op : Op) :
  (s.step config op).autoDropFreezeOnFirstChunk = s.autoDropFreezeOnFirstChunk
  := by
  by_cases hc : s.listed = true ∧ s.enabled op = true
  · rw [step_of_enabled hc.1 hc.2, finish]
    split
    · rw [autoDropFreezeOnFirstChunk_apply]
    · rw [notify, autoDropFreezeOnFirstChunk_apply]
  · rw [step_of_not_enabled hc]

/-- The mode of a session is the one it was created with. -/
theorem autoDropFreezeOnFirstChunk_of_reachable {sender : ClientRef} {auto : Bool}
    (h : Machine.Reachable (step config) (create sender auto) s) :
  s.autoDropFreezeOnFirstChunk = auto
  := by
  apply h.invariant (fun s op hs => (autoDropFreezeOnFirstChunk_step config s op).trans hs) rfl

/-! ### Operations that leave the stored chunks alone -/

/-- The two states have the same chunks and the same flags, and no status is sent in
between. -/
structure SameChunks (s t : TransferSession) : Prop where
  chunks : t.buffer.chunks = s.buffer.chunks
  chunksMaxIndex : t.buffer.chunksMaxIndex = s.buffer.chunksMaxIndex
  EOF : t.buffer.EOF = s.buffer.EOF
  initialChunksFreezing : t.buffer.initialChunksFreezing = s.buffer.initialChunksFreezing
  events : ∃ es, Event.Quiet es ∧ t.events = s.events ++ es

theorem SameChunks.of_same {t : TransferSession} (hbuf : t.buffer = s.buffer)
    (hevents : t.events = s.events) :
  s.SameChunks t
  := by
  refine ⟨?_, ?_, ?_, ?_, [], List.forall_mem_nil _, ?_⟩
  · rw [hbuf]
  · rw [hbuf]
  · rw [hbuf]
  · rw [hbuf]
  · rw [hevents, List.append_nil]

/-- The operations that neither touch a chunk nor end the upload nor drop the freeze. -/
def Op.keepsChunks : Op → Bool
  | .addChunk _ | .removeReceiver _ | .setChunkAsReceived _ _ | .setEndOfFile
  | .dropInitialChunksFreeze => false
  | _ => true

theorem sameChunks_apply (config : Config) {op : Op} (h : op.keepsChunks = true)
    (hd : s.departure op = none) :
  s.SameChunks (s.apply config op)
  := by
  cases op with
  | addChunk binaryData => cases h
  | removeReceiver publicId => cases h
  | setChunkAsReceived i c => cases h
  | setEndOfFile => cases h
  | dropInitialChunksFreeze => cases h
  | addReceiver c =>
      cases ha : (s.addReceiver config c).2 with
      | false =>
          simp only [apply, addReceiver_of_false ha]
          apply SameChunks.of_same rfl rfl
      | true =>
          simp only [apply, (addReceiver_of_true ha).2]
          exact ⟨rfl, rfl, rfl, rfl, _, Event.quiet_singleton rfl, rfl⟩
  | destroyClient c =>
      obtain ⟨listed, type, heq, -⟩ := destroyClient_of_departure_none hd
      simp only [apply, heq]
      exact SameChunks.of_same rfl rfl
  | setFileInfo info =>
      obtain ⟨info', es, hq, heq⟩ := s.setFileInfo_fst info
      simp only [apply, heq]
      exact ⟨rfl, rfl, rfl, rfl, es, hq, rfl⟩
  | getChunk i c =>
      obtain ⟨es, hq, heq⟩ := s.getChunk_fst i c
      simp only [apply, heq]
      exact ⟨Buffer.chunks_get i, Buffer.chunksMaxIndex_get i, Buffer.EOF_get i,
        Buffer.initialChunksFreezing_get i, es, hq, rfl⟩
  | manualTerminate => exact SameChunks.of_same rfl rfl
  | lifetimeTimeout => exact SameChunks.of_same rfl rfl
  | connect c => exact SameChunks.of_same rfl rfl
  | disconnect c => exact SameChunks.of_same rfl rfl

/-! ### Runs and departures -/

/-- The operation makes no departure of the kind `D`. -/
def NoDeparture (D : TransferSession → String → Prop) (s : TransferSession) (op : Op) : Prop :=
  ∀ t publicId, s.departure op = some (t, publicId) → ¬ D t publicId

/-- Where the departures that fail to keep `Q` are those of the kind `D`, and no other
operation fails to, an operation keeps `Q` exactly when it makes no departure of that
kind. -/
theorem whileListed_apply_iff {Q : TransferSession → Prop}
    {D : TransferSession → String → Prop} {op : Op} (h : s.Consistent config)
    (hl : s.listed = true) (hs : Q s) (hexpire : ∀ c, Q (s.expire c))
    (hremove : ∀ t publicId, t.Consistent config → t.listed = true → Q t →
      (WhileListed Q (t.removeReceiver publicId) ↔ ¬ D t publicId))
    (hother : s.departure op = none → WhileListed Q (s.apply config op)) :
  WhileListed Q (s.apply config op) ↔ s.NoDeparture D op
  := by
  cases hd : s.departure op with
  | none =>
      apply iff_of_true (hother hd)
      intro t publicId hsome
      rw [hd] at hsome
      cases hsome
  | some departure =>
      obtain ⟨t, publicId⟩ := departure
      have ht : t.listed = true ∧ Q t := by
        rcases departure_eq_some.mp hd with ⟨-, rfl⟩ | ⟨c, -, rfl, -⟩
        · exact ⟨hl, hs⟩
        · exact ⟨hl, hexpire c⟩
      rw [apply_of_departure hd, hremove t publicId (h.departure hd) ht.1 ht.2]
      constructor
      · intro hno t' publicId' hd'
        rw [hd] at hd'
        cases hd'
        apply hno
      · intro hno
        apply hno t publicId hd

/-- Where an operation applied to a consistent listed session with `Q` keeps `Q` exactly
when it meets `C`, a run has `Q` while the session is listed exactly when all the
operations it applies meet `C`. -/
theorem everyState_whileListed_iff {Q : TransferSession → Prop}
    {C : TransferSession → Op → Prop}
    (hstep : ∀ s op, s.listed = true → s.enabled op = true → s.Consistent config → Q s →
      (WhileListed Q (s.apply config op) ↔ C s op))
    {sender : ClientRef} {auto : Bool} (hQ : Q (create sender auto)) (ops : List Op) :
  Machine.EveryState (step config) (WhileListed Q) (create sender auto) ops
    ↔ Machine.EveryStep (step config) (WhenApplied C) (create sender auto) ops
  := by
  have hstart : WhileListed (Consistent config) (create sender auto) :=
    fun _ => Consistent.create config sender auto
  apply Machine.everyState_iff_everyStep _ _ hstart (fun _ => hQ)
  · intro s op hs
    apply Consistent.step hs
  · intro s op hs hQ
    by_cases hc : s.listed = true ∧ s.enabled op = true
    · rw [step_of_enabled hc.1 hc.2, whileListed_finish,
        hstep s op hc.1 hc.2 (hs hc.1) (hQ hc.1)]
      simp [WhenApplied, hc]
    · rw [step_of_not_enabled hc]
      constructor
      · intro _ hl he
        apply absurd ⟨hl, he⟩ hc
      · exact fun _ => hQ

end TransferSession

/-! ### Clients for sample runs -/

namespace TransferSession.Sample

def sender : ClientRef := { ref := 0, id := "sender", publicId := "S" }

def alice : ClientRef := { ref := 1, id := "alice", publicId := "A" }

def bob : ClientRef := { ref := 2, id := "bob", publicId := "B" }

def info : FileInfo := { name := [0x66], size := 1 }

/-- A queue of one chunk. -/
def config : Config where
  transferSessionMaxChunkSize := 4
  transferSessionChunkQueueMaxSize := 1
  transferSessionMaxConsumerCount := 3

end TransferSession.Sample

import PutInPipe.Session.History
import PutInPipe.Buffer.Retention

/-!
# Delivery

A chunk is kept until every receiver has confirmed it, as long as the number of
confirmations the buffer counts for a chunk is the number of the present receivers that
have confirmed it. `Tracks` says that it is: the buffer implements a retained log whose
acknowledgements are confirmations of the history. It is preserved when every confirmation
comes from a receiver and is its first one of the chunk, or finds that the chunk waits for
nobody, and when no receiver leaves that has confirmed a chunk which is still stored.
-/

open TransferSessionDetails

namespace History

variable {config : Config} {h : History} {L : RetainedLog String Bytes}

/-- The buffer implements a log of the accepted payloads, and the acknowledgements are
confirmations by the receivers. -/
structure Tracks (h : History) (L : RetainedLog String Bytes) : Prop where
  implements : h.session.buffer.Implements L
  log : L.log = h.log
  confirmed : ∀ {p i}, (p, i) ∈ L.acked → ∃ c : ClientRef, c.publicId = p ∧ (c, i) ∈ h.confirmed
  receivers : ∀ c ∈ h.session.dataReceivers, ∀ i, (c.publicId, i) ∈ L.acked →
    (c, i) ∈ h.confirmed

/-- A confirmation comes from a receiver and is its first one of the chunk. -/
def ConfirmsOnce (h : History) : TransferSession.Op → Prop
  | .setChunkAsReceived i c => c ∈ h.session.liveReceivers ∧ (c, i) ∉ h.confirmed
  | _ => True

/-- A confirmation comes from a receiver, and is its first one of the chunk unless the
chunk waits for nobody. -/
def CountsOnce (h : History) : TransferSession.Op → Prop
  | .setChunkAsReceived i c =>
      c ∈ h.session.liveReceivers ∧ ((c, i) ∉ h.confirmed
        ∨ ∀ chunk, h.session.buffer.chunks.find? i = some chunk →
          h.session.buffer.expectedConsumers.card ≤ chunk.uses)
  | _ => True

/-- The departure leaves confirmations of stored chunks counted that nobody has given any
more, and the session goes on. -/
def LeavesCounts (h : History) (s : TransferSession) (publicId : String) : Prop :=
  publicId ∈ s.buffer.expectedConsumers ∧ s.endsWithout publicId = false
    ∧ ∃ (c : ClientRef) (i : ℕ) (chunk : Chunk), c.publicId = publicId
      ∧ (c, i) ∈ h.confirmed ∧ s.buffer.chunks.find? i = some chunk

/-- The operation keeps the counts right. -/
def KeepsCounts (h : History) (op : TransferSession.Op) : Prop :=
  h.CountsOnce op ∧ h.session.NoDeparture h.LeavesCounts op

/-! ### One operation -/

theorem Tracks.addChunk (ht : h.Tracks L) (hc : h.session.Consistent config)
    (binaryData : Bytes) :
  ∃ L', (h.applied config (.addChunk binaryData)).Tracks L'
  := by
  rcases Buffer.addChunk_cases config h.session.buffer binaryData with
    ⟨heof, hsize, hroom⟩ | hno
  · have hacc := hc.buffer.addChunk_of_accepted heof hsize hroom
    have himp := ht.implements.addChunk hc.buffer heof hsize hroom
    use L.append binaryData
    simp only [applied, TransferSession.apply, nextLog, nextConfirmed]
    rw [TransferSession.addChunk_of_accepted config _ (by simp [hacc])]
    exact ⟨himp, congrArg (· ++ [binaryData]) ht.log, fun hp => ht.confirmed hp, ht.receivers⟩
  · use L
    simp only [applied, TransferSession.apply, nextLog, nextConfirmed,
      TransferSession.addChunk_of_rejected hno]
    exact ⟨ht.implements, ht.log, ht.confirmed, ht.receivers⟩

theorem Tracks.addReceiver (ht : h.Tracks L) (c : ClientRef) :
  ∃ L', (h.applied config (.addReceiver c)).Tracks L'
  := by
  cases ha : (h.session.addReceiver config c).2 with
  | false =>
      use L
      simp only [applied, TransferSession.apply, TransferSession.addReceiver_of_false ha]
      exact ⟨ht.implements, ht.log, ht.confirmed, ht.receivers⟩
  | true =>
      obtain ⟨hadd, heq⟩ := TransferSession.addReceiver_of_true ha
      have himp := ht.implements.addNewToExpectedConsumers hadd
      have hnew := (Buffer.addNewToExpectedConsumers_snd.mp hadd).2.2
      rw [Buffer.addNewToExpectedConsumers_of_true hadd] at himp
      use L.join c.publicId
      simp only [applied, TransferSession.apply, heq]
      refine ⟨himp, ht.log, ht.confirmed, ?_⟩
      intro x hx i hi
      rcases List.mem_append.mp hx with hx | hx
      · apply ht.receivers x hx i hi
      · -- the consumer is new, so it has acknowledged nothing
        rw [List.mem_singleton.mp hx] at hi
        apply absurd _ hnew
        rw [← ht.implements.members]
        apply L.mem_of_acked hi

/-- A departure that leaves no counts behind. -/
theorem Tracks.departure (ht : h.Tracks L) {op : TransferSession.Op} {s : TransferSession}
    {publicId : String} (hd : h.session.departure op = some (s, publicId))
    (hno : ¬ h.LeavesCounts s publicId)
    (hl : (h.applied config op).session.listed = true) :
  ∃ L', (h.applied config op).Tracks L'
  := by
  have hsame : s.buffer = h.session.buffer ∧ s.dataReceivers = h.session.dataReceivers := by
    rcases TransferSession.departure_eq_some.mp hd with ⟨-, rfl⟩ | ⟨c, -, rfl, -⟩ <;>
      exact ⟨rfl, rfl⟩
  have hends : s.endsWithout publicId = false := by
    simp only [applied, TransferSession.apply_of_departure hd,
      TransferSession.listed_removeReceiver, Bool.and_eq_true, Bool.not_eq_true'] at hl
    apply hl.2
  have hlog : h.nextLog config op = h.log := by
    rcases TransferSession.departure_eq_some.mp hd with ⟨rfl, -⟩ | ⟨c, rfl, -⟩ <;> rfl
  have hconf : h.nextConfirmed op = h.confirmed := by
    rcases TransferSession.departure_eq_some.mp hd with ⟨rfl, -⟩ | ⟨c, rfl, -⟩ <;> rfl
  have hrec : s.remaining publicId ⊆ h.session.dataReceivers := by
    rw [← hsame.2]
    apply List.filter_sublist.subset
  simp only [applied, TransferSession.apply_of_departure hd, hlog, hconf]
  by_cases hp : publicId ∈ h.session.buffer.expectedConsumers
  · have hfree : ∀ i ∈ L.held, (publicId, i) ∉ L.acked := by
      intro i hi ha
      obtain ⟨c, hcp, hci⟩ := ht.confirmed ha
      obtain ⟨chunk, hchunk⟩ := (ht.implements.held i).mp hi
      rw [← hsame.1] at hp hchunk
      apply hno ⟨hp, hends, c, i, chunk, hcp, hci, hchunk⟩
    use L.leave publicId
    constructor
    · rw [TransferSession.buffer_removeReceiver, hsame.1]
      apply ht.implements.removeOneFromExpectedConsumers hp hfree
    · apply ht.log
    · intro p i hi
      apply ht.confirmed (Finset.mem_filter.mp hi).1
    · intro c hc i hi
      rw [TransferSession.dataReceivers_removeReceiver] at hc
      apply ht.receivers c (hrec hc) i (Finset.mem_filter.mp hi).1
  · use L
    constructor
    · rw [TransferSession.buffer_removeReceiver, hsame.1,
        Buffer.removeOneFromExpectedConsumers_of_notMem hp]
      apply ht.implements
    · apply ht.log
    · exact fun hi => ht.confirmed hi
    · intro c hc
      rw [TransferSession.dataReceivers_removeReceiver] at hc
      apply ht.receivers c (hrec hc)

/-- Dropping the freeze breaks the seal. -/
theorem Tracks.dropInitialChunksFreeze (config : Config) (ht : h.Tracks L) :
  ∃ L', L'.acked = L.acked
    ∧ Tracks { h with session := h.session.dropInitialChunksFreeze config } L'
  := by
  have hsame := TransferSession.sameMembers_dropInitialChunksFreeze config h.session
  cases hf : h.session.buffer.initialChunksFreezing with
  | false =>
      use L, rfl
      rw [TransferSession.dropInitialChunksFreeze_of_not_freezing hf]
      apply ht
  | true =>
      use L.breakSeal, rfl
      constructor
      · rw [TransferSession.buffer_dropInitialChunksFreeze]
        apply ht.implements.setInitialChunksFreezingDropped hf
      · apply ht.log
      · exact fun hp => ht.confirmed hp
      · intro c hc
        rw [hsame.dataReceivers] at hc
        apply ht.receivers c hc

theorem Tracks.autoDropFreeze (config : Config) (ht : h.Tracks L) :
  ∃ L', L'.acked = L.acked
    ∧ Tracks { h with session := h.session.autoDropFreeze config } L'
  := by
  rw [TransferSession.autoDropFreeze_eq]
  split
  · have ht' : Tracks
        { h with session := { h.session with autoDropFreezeFired := true } } L :=
      ⟨ht.implements, ht.log, ht.confirmed, ht.receivers⟩
    apply ht'.dropInitialChunksFreeze
  · exact ⟨L, rfl, ht⟩

/-- A confirmation that counts its receiver once is an acknowledgement. -/
theorem Tracks.confirmChunk (ht : h.Tracks L) (hc : h.session.Consistent config) {i : ℕ}
    {c : ClientRef} (hmem : c ∈ h.session.dataReceivers)
    (hnew : (c.publicId, i) ∉ L.acked
      ∨ ∀ chunk, h.session.buffer.chunks.find? i = some chunk →
        h.session.buffer.expectedConsumers.card ≤ chunk.uses)
    {confirmed : List (ClientRef × ℕ)} (hsub : h.confirmed ⊆ confirmed)
    (hstored : i ∈ L.held → (c, i) ∈ confirmed) :
  Tracks { h with session := h.session.confirmChunk config i c, confirmed := confirmed }
    (L.ack c.publicId i)
  := by
  have hsame := TransferSession.sameMembers_confirmChunk config h.session i c
  constructor
  · cases hi : h.session.buffer.chunks.find? i with
    | none =>
        have hno : i ∉ L.held := by
          rw [ht.implements.held, hi]
          simp
        rw [TransferSession.confirmChunk_of_none hi, RetainedLog.ack,
          dif_neg (fun hack => hno hack.2)]
        apply ht.implements
    | some chunk =>
        rw [TransferSession.confirmChunk_of_some config hi]
        apply (ht.implements.get i).setChunkAsReceived
        · rw [Buffer.expectedConsumers_get]
          apply hc.expected c hmem
        · rw [Buffer.chunks_get, Buffer.expectedConsumers_get]
          apply hnew
  · rw [RetainedLog.log_ack]
    apply ht.log
  · intro p j hp
    rcases RetainedLog.acked_of_ack hp with hp | ⟨rfl, rfl, hheld⟩
    · obtain ⟨d, hd, hdj⟩ := ht.confirmed hp
      exact ⟨d, hd, hsub hdj⟩
    · exact ⟨c, rfl, hstored hheld⟩
  · intro d hd j hj
    rw [hsame.dataReceivers] at hd
    rcases RetainedLog.acked_of_ack hj with hj | ⟨hp, rfl, hheld⟩
    · apply hsub (ht.receivers d hd j hj)
    · rw [hc.eq_of_publicId hd hmem hp]
      apply hstored hheld

theorem Tracks.setChunkAsReceived (ht : h.Tracks L) (hc : h.session.Consistent config)
    {i : ℕ} {c : ClientRef} (hcount : h.CountsOnce (.setChunkAsReceived i c))
    (hl : (h.applied config (.setChunkAsReceived i c)).session.listed = true) :
  ∃ L', (h.applied config (.setChunkAsReceived i c)).Tracks L'
  := by
  obtain ⟨L', hacked, ht'⟩ := ht.autoDropFreeze config
  have hsame := TransferSession.sameMembers_autoDropFreeze config h.session
  have hmem : c ∈ h.session.dataReceivers :=
    (TransferSession.mem_liveReceivers.mp hcount.1).1
  use L'.ack c.publicId i
  apply ht'.confirmChunk (hc.autoDropFreeze (TransferSession.listed_of_confirmChunk hl))
  · rw [hsame.dataReceivers]
    apply hmem
  · apply hcount.2.imp
    · intro hnew hold
      rw [hacked] at hold
      apply hnew (ht.receivers c hmem i hold)
    · intro hfull chunk hi
      rw [hsame.expectedConsumers]
      apply hfull chunk (TransferSession.find?_of_autoDropFreeze hi)
  · simp only [nextConfirmed]
    split
    · apply List.subset_cons_self
    · apply List.Subset.refl
  · intro hheld
    obtain ⟨chunk, hi⟩ := (ht'.implements.held i).mp hheld
    simp [nextConfirmed, TransferSession.find?_of_autoDropFreeze hi]

/-- Every operation that keeps the counts leaves the buffer tracking a log. -/
theorem Tracks.applied (ht : h.Tracks L) (hc : h.session.Consistent config)
    {op : TransferSession.Op} (hop : h.KeepsCounts op)
    (hl : (h.applied config op).session.listed = true) :
  ∃ L', (h.applied config op).Tracks L'
  := by
  cases op with
  | addChunk binaryData => apply ht.addChunk hc
  | addReceiver c => apply ht.addReceiver
  | removeReceiver publicId => apply ht.departure rfl (hop.2 _ _ rfl) hl
  | destroyClient c =>
      cases hd : h.session.departure (.destroyClient c) with
      | some departure =>
          obtain ⟨s, publicId⟩ := departure
          apply ht.departure hd (hop.2 s publicId hd) hl
      | none =>
          obtain ⟨listed, type, heq, -⟩ := TransferSession.destroyClient_of_departure_none hd
          use L
          simp only [History.applied, TransferSession.apply, heq]
          exact ⟨ht.implements, ht.log, fun hp => ht.confirmed hp, ht.receivers⟩
  | setFileInfo info =>
      obtain ⟨info', es, -, heq⟩ := h.session.setFileInfo_fst info
      use L
      simp only [History.applied, TransferSession.apply, heq]
      exact ⟨ht.implements, ht.log, fun hp => ht.confirmed hp, ht.receivers⟩
  | getChunk i c =>
      obtain ⟨es, -, heq⟩ := h.session.getChunk_fst i c
      use L
      simp only [History.applied, TransferSession.apply, heq]
      exact ⟨ht.implements.get i, ht.log, fun hp => ht.confirmed hp, ht.receivers⟩
  | setChunkAsReceived i c => apply ht.setChunkAsReceived hc hop.1 hl
  | setEndOfFile =>
      use L
      cases he : h.session.buffer.EOF with
      | true =>
          simp only [History.applied, TransferSession.apply,
            TransferSession.setEndOfFile_of_eof he]
          exact ⟨ht.implements, ht.log, fun hp => ht.confirmed hp, ht.receivers⟩
      | false =>
          simp only [History.applied, TransferSession.apply,
            TransferSession.setEndOfFile_of_not_eof he]
          exact ⟨ht.implements.setEndOfFile, ht.log, fun hp => ht.confirmed hp, ht.receivers⟩
  | dropInitialChunksFreeze =>
      obtain ⟨L', -, ht'⟩ := ht.dropInitialChunksFreeze config
      use L'
      exact ⟨ht'.implements, ht'.log, fun hp => ht'.confirmed hp, ht'.receivers⟩
  | _ =>
      use L
      exact ⟨ht.implements, ht.log, fun hp => ht.confirmed hp, ht.receivers⟩

/-! ### Runs -/

theorem tracks_create (sender : ClientRef) (auto : Bool) :
  (create sender auto).Tracks RetainedLog.empty
  := by
  constructor
  · apply Buffer.Implements.empty
  · rfl
  · intro p i hp
    simp [RetainedLog.empty] at hp
  · apply List.forall_mem_nil

/-- In a run whose operations all keep the counts, the buffer tracks a log in every state
in which the session is listed. -/
theorem everyState_tracks {sender : ClientRef} {auto : Bool} {ops : List TransferSession.Op}
    (hops : Machine.EveryStep (step config) (WhenApplied KeepsCounts) (create sender auto) ops) :
  Machine.EveryState (step config)
    (WhileListed (fun h => h.session.Consistent config ∧ ∃ L, h.Tracks L))
    (create sender auto) ops
  := by
  apply Machine.everyState_of_everyStep _ _ hops
  · intro h op hs hop
    by_cases ha : h.session.listed = true ∧ h.session.enabled op = true
    · obtain ⟨hc, L, ht⟩ := hs ha.1
      rw [whileListed_step ha.1 ha.2]
      exact fun hl => ⟨hc.apply op hl, ht.applied hc (hop ha.1 ha.2) hl⟩
    · rw [step_of_not_enabled ha]
      apply hs
  · exact fun _ => ⟨TransferSession.Consistent.create config sender auto, _,
      tracks_create sender auto⟩

/-- A chunk that is no longer stored was confirmed by every consumer. -/
theorem Tracks.settled (ht : h.Tracks L) {i : ℕ} (h1 : 1 ≤ i)
    (hmax : i ≤ h.session.buffer.currentMaxChunkIndex)
    (hi : h.session.buffer.chunks.find? i = none) {publicId : String}
    (hp : publicId ∈ h.session.buffer.expectedConsumers) :
  (publicId, i) ∈ L.acked
  := by
  apply ht.implements.safe i h1
  · rw [ht.implements.length]
    apply hmax
  · rw [ht.implements.held, hi]
    simp
  · rw [ht.implements.members]
    apply hp

/-! ### No data loss -/

/-- Every receiver has confirmed, or still gets from the buffer, each uploaded chunk. -/
def NoDataLoss (h : History) : Prop :=
  ∀ r ∈ h.session.liveReceivers, ∀ i, 1 ≤ i → i ≤ h.session.buffer.currentMaxChunkIndex →
    (r, i) ∈ h.confirmed
      ∨ ∃ data, (h.session.buffer.get i).2 = some data ∧ h.log[i - 1]? = some data

theorem Tracks.noDataLoss (ht : h.Tracks L) (hc : h.session.Consistent config) :
  h.NoDataLoss
  := by
  intro r hr i h1 hmax
  have hmem : r ∈ h.session.dataReceivers := (TransferSession.mem_liveReceivers.mp hr).1
  cases hi : h.session.buffer.chunks.find? i with
  | none =>
      left
      apply ht.receivers r hmem i
      apply ht.settled h1 hmax hi (hc.expected r hmem)
  | some chunk =>
      right
      use chunk.data
      rw [Buffer.get_snd, hi, ← ht.log]
      use rfl
      apply ht.implements.data hi

/-- In every run in which only receivers confirm, each of them a chunk at most once or when
it waits for nobody, and in which no receiver leaves that has confirmed a stored chunk,
there is no data loss while the session is listed. -/
theorem noDataLoss_of_keepsCounts (config : Config) (sender : ClientRef) (auto : Bool)
    (ops : List TransferSession.Op)
    (hops : Machine.EveryStep (step config) (WhenApplied KeepsCounts) (create sender auto) ops) :
  Machine.EveryState (step config) (WhileListed NoDataLoss) (create sender auto) ops
  := by
  apply (everyState_tracks hops).mono
  intro h hs hl
  obtain ⟨hc, L, ht⟩ := hs hl
  apply ht.noDataLoss hc

/-- A run in which Alice and Bob receive a chunk, and Alice leaves when both have. -/
def delivered : List TransferSession.Op :=
  [.addReceiver TransferSession.Sample.alice, .addReceiver TransferSession.Sample.bob,
    .setFileInfo TransferSession.Sample.info, .addChunk [1], .dropInitialChunksFreeze,
    .setChunkAsReceived 1 TransferSession.Sample.alice,
    .setChunkAsReceived 1 TransferSession.Sample.bob, .removeReceiver "A"]

theorem noDataLoss_delivered :
  Machine.EveryState (step TransferSession.Sample.config) (WhileListed NoDataLoss)
    (create TransferSession.Sample.sender false) delivered
  := by
  apply noDataLoss_of_keepsCounts
  have hnone : ∀ {h : History} {op : TransferSession.Op}, h.CountsOnce op →
      h.session.departure op = none → WhenApplied KeepsCounts h op := by
    intro h op hcount hd _ _
    use hcount
    intro t publicId hsome
    rw [hd] at hsome
    cases hsome
  refine ⟨hnone trivial rfl, hnone trivial rfl, hnone trivial rfl, hnone trivial rfl,
    hnone trivial rfl, hnone ⟨by decide, Or.inl (by decide)⟩ rfl,
    hnone ⟨by decide, Or.inl (by decide)⟩ rfl, ?_, trivial⟩
  intro _ _
  use trivial
  intro t publicId hd
  rcases TransferSession.departure_eq_some.mp hd with ⟨-, rfl⟩ | ⟨c, hop, -⟩
  · rintro ⟨-, -, c, i, chunk, -, -, hi⟩
    rw [Buffer.chunkCount_eq_zero.mp (by decide) i] at hi
    cases hi
  · cases hop

/-- A run in which Alice receives a chunk and leaves before Bob has received it. -/
def lostByDeparture : List TransferSession.Op :=
  [.addReceiver TransferSession.Sample.alice, .addReceiver TransferSession.Sample.bob,
    .setFileInfo TransferSession.Sample.info, .addChunk [1], .dropInitialChunksFreeze,
    .setChunkAsReceived 1 TransferSession.Sample.alice, .removeReceiver "A"]

/-- After that run the chunk is gone and Bob has not confirmed it. -/
theorem not_noDataLoss_lostByDeparture :
  ¬ ∀ (config : Config) (sender : ClientRef) (auto : Bool) (ops : List TransferSession.Op),
      Machine.EveryStep (step config) (WhenApplied ConfirmsOnce) (create sender auto) ops →
      Machine.EveryState (step config) (WhileListed NoDataLoss) (create sender auto) ops
  := by
  intro h
  have honce : Machine.EveryStep (step TransferSession.Sample.config)
      (WhenApplied ConfirmsOnce) (create TransferSession.Sample.sender false)
      lostByDeparture := by
    refine ⟨fun _ _ => trivial, fun _ _ => trivial, fun _ _ => trivial, fun _ _ => trivial,
      fun _ _ => trivial, fun _ _ => ⟨by decide, by decide⟩, fun _ _ => trivial, trivial⟩
  have hlast := (h TransferSession.Sample.config TransferSession.Sample.sender false
    lostByDeparture honce).last (by decide) TransferSession.Sample.bob (by decide) 1
    (by decide) (by decide)
  rcases hlast with hconf | ⟨data, hget, -⟩
  · revert hconf
    decide
  · cases hget

end History

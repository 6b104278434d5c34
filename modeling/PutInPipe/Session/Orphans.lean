import PutInPipe.Session.Run

/-!
# Orphan sessions

A session whose freeze is dropped is an orphan when its sender and all its receivers have
been destroyed. After the sender is destroyed the destruction of a receiver is taken for
the destruction of the sender, so that the receiver stays in the list. Nothing ends the
session when the last of them is destroyed, and the test for receivers when the freeze is
dropped counts the entries of the list, whether they are expired or not.
-/

open TransferSessionDetails

namespace TransferSession

variable {config : Config} {s : TransferSession}

/-- Some member of the session exists. -/
def HasMember (s : TransferSession) : Prop :=
  s.alive s.dataSender = true ∨ ∃ c ∈ s.dataReceivers, s.alive c = true

/-- The freeze is dropped and no member of the session exists. -/
def IsOrphan (s : TransferSession) : Prop :=
  s.buffer.initialChunksFreezing = false ∧ ¬ s.HasMember

/-- No member of the session exists, but the list of receivers is not empty. -/
def IsDeserted (s : TransferSession) : Prop :=
  ¬ s.HasMember ∧ s.dataReceivers ≠ []

/-- The operations that make an orphan: the destruction of the last member after the
upload, when receivers are left in the list, and dropping the freeze of a deserted session
that has a chunk for which somebody is waited. -/
def Orphans (s : TransferSession) : Op → Prop
  | .destroyClient c =>
      c ∈ s.subscribers ∧ s.buffer.EOF = true ∧ s.buffer.initialChunksFreezing = false
        ∧ (s.expire c).IsDeserted
  | .dropInitialChunksFreeze =>
      s.buffer.initialChunksFreezing = true ∧ s.IsDeserted ∧ s.fileInfo.name ≠ []
        ∧ ∃ i chunk, s.buffer.chunks.find? i = some chunk
          ∧ chunk.uses < s.buffer.expectedConsumers.card
  | .setChunkAsReceived index _ =>
      s.autoDropFreezeOnFirstChunk = true ∧ s.buffer.initialChunksFreezing = true
        ∧ s.IsDeserted ∧ s.fileInfo.name ≠ []
        ∧ ∃ i chunk, s.buffer.chunks.find? i = some chunk
          ∧ chunk.uses + (if i = index then 1 else 0) < s.buffer.expectedConsumers.card
  | _ => False

theorem Consistent.EOF_of_not_hasMember (h : s.Consistent config) (hm : ¬ s.HasMember) :
  s.buffer.EOF = true
  := by
  apply h.sender.resolve_left
  exact fun ha => hm (Or.inl ha)

/-! ### Departures -/

/-- A departure that does not end a session whose freeze is dropped leaves a receiver. -/
theorem not_isOrphan_removeReceiver (publicId : String) :
  WhileListed (¬ IsOrphan ·) (s.removeReceiver publicId)
  := by
  rintro hl ⟨hf, hm⟩
  rw [buffer_removeReceiver, Buffer.initialChunksFreezing_removeOne] at hf
  have hr : s.remaining publicId ≠ [] := by
    intro hnil
    simp [endsWithout, desertedWithout, hnil, hf] at hl
  obtain ⟨x, hx⟩ := List.exists_mem_of_ne_nil _ hr
  apply hm
  right
  use x, by simpa using hx
  apply alive_removeReceiver hx

theorem not_isOrphan_destroyClient (h : s.Consistent config) (hl : s.listed = true)
    (hs : ¬ s.IsOrphan) (c : ClientRef) :
  WhileListed (¬ IsOrphan ·) (s.destroyClient c) ↔ ¬ s.Orphans (.destroyClient c)
  := by
  by_cases hc : c ∈ s.subscribers
  · cases ht : (s.expire c).takenForSender c.publicId with
    | false =>
        rw [destroyClient_of_receiver hc ht]
        apply iff_of_true (not_isOrphan_removeReceiver c.publicId)
        rintro ⟨-, -, -, hm, -⟩
        apply hm (Or.inl (takenForSender_eq_false.mp ht).1)
    | true =>
        rw [destroyClient_of_taken hc ht]
        constructor
        · rintro hno ⟨-, he, hf, hm, hr⟩
          apply hno _ ⟨hf, hm⟩
          have hr' : s.dataReceivers.isEmpty = false := List.isEmpty_eq_false_iff.mpr hr
          simp [hl, he, hr']
        · rintro hno hl' ⟨hf, hm⟩
          simp only [Bool.and_eq_true, Bool.not_eq_true', List.isEmpty_eq_false_iff] at hl'
          apply hno ⟨hc, hl'.2.1, hf, hm, hl'.2.2⟩
  · rw [destroyClient_of_stranger hc]
    apply iff_of_true
    · rintro - ⟨hf, hm⟩
      apply hs ⟨hf, _⟩
      intro hmember
      apply hm
      rcases hmember with ha | ⟨x, hmem, ha⟩
      · left
        apply alive_expire.mpr ⟨_, ha⟩
        rintro rfl
        apply hc h.sender_mem
      · right
        refine ⟨x, hmem, alive_expire.mpr ⟨?_, ha⟩⟩
        rintro rfl
        apply hc (h.receivers_mem x hmem)
    · rintro ⟨hc', -⟩
      apply hc hc'

/-! ### Dropping the freeze -/

theorem not_isOrphan_dropInitialChunksFreeze (h : s.Consistent config) (hl : s.listed = true)
    (hs : ¬ s.IsOrphan) :
  WhileListed (¬ IsOrphan ·) (s.dropInitialChunksFreeze config)
    ↔ ¬ s.Orphans .dropInitialChunksFreeze
  := by
  cases hf : s.buffer.initialChunksFreezing with
  | false =>
      rw [dropInitialChunksFreeze_of_not_freezing hf]
      apply iff_of_true (fun _ => hs)
      rintro ⟨hf', -⟩
      rw [hf] at hf'
      cases hf'
  | true =>
      by_cases hun : s.dataReceivers = [] ∨ s.fileInfo.name = []
      · obtain ⟨type, heq⟩ := dropInitialChunksFreeze_of_unready config hf hun
        rw [heq]
        apply iff_of_true
        · intro hl
          cases hl
        · rintro ⟨-, ⟨-, hr⟩, hn, -⟩
          apply hun.elim hr hn
      · rw [not_or] at hun
        have hcount := Buffer.chunkCount_setInitialChunksFreezingDropped_ne_zero hf
        rw [dropInitialChunksFreeze_of_ready config hf hun.1 hun.2]
        constructor
        · rintro hno ⟨-, ⟨hm, -⟩, -, hchunk⟩
          apply hno _
            ⟨Buffer.initialChunksFreezing_setInitialChunksFreezingDropped s.buffer, hm⟩
          simp [hl, hcount.mpr hchunk]
        · rintro hno hl' ⟨-, hm⟩
          have he := h.EOF_of_not_hasMember hm
          apply hno ⟨hf, ⟨hm, hun.1⟩, hun.2, hcount.mp _⟩
          simpa [hl, he] using hl'

theorem SameMembers.hasMember {t : TransferSession} (h : s.SameMembers t) :
  t.HasMember ↔ s.HasMember
  := by
  simp only [HasMember, h.dataSender, h.dataReceivers, h.alive]

theorem IsOrphan.of_sameMembers {t : TransferSession} (h : s.SameMembers t)
    (hf : t.buffer.initialChunksFreezing = s.buffer.initialChunksFreezing) (ht : t.IsOrphan) :
  s.IsOrphan
  := by
  rw [IsOrphan, ← hf, ← h.hasMember]
  apply ht

theorem initialChunksFreezing_confirmChunk (config : Config) (s : TransferSession) (i : ℕ)
    (c : ClientRef) :
  (s.confirmChunk config i c).buffer.initialChunksFreezing = s.buffer.initialChunksFreezing
  := by
  cases hi : s.buffer.chunks.find? i with
  | none => rw [confirmChunk_of_none hi]
  | some chunk => simp [confirmChunk_of_some config hi]

/-- A confirmation leaves a finished session on the list when a chunk is left. -/
theorem listed_confirmChunk (hl : s.listed = true)
    (hf : s.buffer.initialChunksFreezing = false) (he : s.buffer.EOF = true)
    (hne : s.buffer.chunkCount ≠ 0) (i : ℕ) (c : ClientRef)
    (hw : ∀ j chunk, s.buffer.chunks.find? j = some chunk →
      chunk.uses < s.buffer.expectedConsumers.card) :
  (s.confirmChunk config i c).listed = true
    ↔ ∃ j chunk, s.buffer.chunks.find? j = some chunk
      ∧ chunk.uses + (if j = i then 1 else 0) < s.buffer.expectedConsumers.card
  := by
  cases hi : s.buffer.chunks.find? i with
  | none =>
      rw [confirmChunk_of_none hi]
      apply iff_of_true hl
      rw [ne_eq, Buffer.chunkCount_eq_zero, not_forall] at hne
      obtain ⟨j, hj⟩ := hne
      obtain ⟨chunk, hchunk⟩ := Option.ne_none_iff_exists'.mp hj
      use j, chunk, hchunk
      rw [if_neg]
      · apply hw j chunk hchunk
      · rintro rfl
        apply hj hi
  | some chunk =>
      have hcount := Buffer.chunkCount_setChunkAsReceived_ne_zero (b := (s.buffer.get i).1)
        (i := i) (by simpa using hf) (by rw [Buffer.chunks_get]; exact hi)
      rw [Buffer.chunks_get, Buffer.expectedConsumers_get] at hcount
      rw [confirmChunk_of_some config hi, ← hcount]
      simp [hl, he]

/-- The confirmation that drops the freeze leaves a finished session on the list when a
chunk is left that waits for somebody else. -/
theorem listed_confirmChunk_dropInitialChunksFreeze (config : Config)
    (hl : s.listed = true)
    (hf : s.buffer.initialChunksFreezing = true) (he : s.buffer.EOF = true)
    (hr : s.dataReceivers ≠ []) (hn : s.fileInfo.name ≠ []) (i : ℕ) (c : ClientRef) :
  ((s.dropInitialChunksFreeze config).confirmChunk config i c).listed = true
    ↔ ∃ j chunk, s.buffer.chunks.find? j = some chunk
      ∧ chunk.uses + (if j = i then 1 else 0) < s.buffer.expectedConsumers.card
  := by
  have hcount := Buffer.chunkCount_setInitialChunksFreezingDropped_ne_zero hf
  have hfind := fun j chunk =>
    @Buffer.find?_setInitialChunksFreezingDropped _ hf j chunk
  rw [dropInitialChunksFreeze_of_ready config hf hr hn]
  by_cases hzero : s.buffer.setInitialChunksFreezingDropped.1.chunkCount = 0
  · apply iff_of_false
    · intro hl'
      have hl'' := listed_of_confirmChunk hl'
      simp [hzero, he] at hl''
    · rintro ⟨j, chunk, hj, hlt⟩
      apply hcount.mpr ⟨j, chunk, hj, by omega⟩ hzero
  · rw [listed_confirmChunk (by simp [hl, hzero])
      (Buffer.initialChunksFreezing_setInitialChunksFreezingDropped s.buffer)
      (by rw [Buffer.EOF_setInitialChunksFreezingDropped, he]) hzero i c]
    · simp only [hfind, Buffer.expectedConsumers_setInitialChunksFreezingDropped]
      constructor
      · rintro ⟨j, chunk, ⟨hj, -⟩, hlt⟩
        exact ⟨j, chunk, hj, hlt⟩
      · rintro ⟨j, chunk, hj, hlt⟩
        exact ⟨j, chunk, ⟨hj, by omega⟩, hlt⟩
    · intro j chunk hj
      rw [Buffer.expectedConsumers_setInitialChunksFreezingDropped]
      apply ((hfind j chunk).mp hj).2

/-- The first confirmation of the automatic mode drops the freeze and is counted. -/
theorem not_isOrphan_setChunkAsReceived (h : s.Consistent config) (hl : s.listed = true)
    (hs : ¬ s.IsOrphan) (i : ℕ) (c : ClientRef) :
  WhileListed (¬ IsOrphan ·) (s.setChunkAsReceived config i c)
    ↔ ¬ s.Orphans (.setChunkAsReceived i c)
  := by
  rw [setChunkAsReceived, autoDropFreeze_eq]
  split
  · rename_i hauto
    simp only [autoDrops, Bool.and_eq_true] at hauto
    obtain ⟨⟨ha, hf⟩, -⟩ := hauto
    by_cases hun : s.dataReceivers = [] ∨ s.fileInfo.name = []
    · obtain ⟨type, heq⟩ := dropInitialChunksFreeze_of_unready config
        (s := { s with autoDropFreezeFired := true }) hf hun
      rw [heq]
      apply iff_of_true
      · intro hl'
        have hl'' := listed_of_confirmChunk hl'
        cases hl''
      · rintro ⟨-, -, ⟨-, hr⟩, hn, -⟩
        apply hun.elim hr hn
    · rw [not_or] at hun
      have hlisted := fun he => listed_confirmChunk_dropInitialChunksFreeze config
        (s := { s with autoDropFreezeFired := true }) hl hf he hun.1 hun.2 i c
      have hready := dropInitialChunksFreeze_of_ready config
        (s := { s with autoDropFreezeFired := true }) hf hun.1 hun.2
      simp only [WhileListed, IsOrphan, initialChunksFreezing_confirmChunk,
        (sameMembers_confirmChunk config _ i c).hasMember]
      constructor
      · rintro hno ⟨-, -, ⟨hm, -⟩, -, hchunk⟩
        apply hno ((hlisted (h.EOF_of_not_hasMember hm)).mpr hchunk)
        rw [hready]
        exact ⟨Buffer.initialChunksFreezing_setInitialChunksFreezingDropped s.buffer, hm⟩
      · rintro hno hl' ⟨-, hm⟩
        rw [hready] at hm
        apply hno
        exact ⟨ha, hf, ⟨hm, hun.1⟩, hun.2, (hlisted (h.EOF_of_not_hasMember hm)).mp hl'⟩
  · rename_i hauto
    apply iff_of_true
    · rintro - ⟨hf, hm⟩
      rw [initialChunksFreezing_confirmChunk] at hf
      rw [(sameMembers_confirmChunk config s i c).hasMember] at hm
      apply hs ⟨hf, hm⟩
    · rintro ⟨ha, hf, -⟩
      apply hauto
      have hfired : s.autoDropFreezeFired = false := by
        apply Bool.eq_false_of_not_eq_true
        intro hfired
        rw [h.fired hfired] at hf
        cases hf
      simp [autoDrops, ha, hf, hfired]

/-! ### Runs -/

theorem not_isOrphan_apply (h : s.Consistent config) (hl : s.listed = true)
    (hs : ¬ s.IsOrphan) (op : Op) :
  WhileListed (¬ IsOrphan ·) (s.apply config op) ↔ ¬ s.Orphans op
  := by
  cases op with
  | addChunk binaryData =>
      apply iff_of_true _ id
      rintro - ho
      apply hs (ho.of_sameMembers (sameMembers_apply config s rfl) _)
      obtain ⟨es, heq⟩ := s.addChunk_fst config binaryData
      simp only [apply, heq, Buffer.initialChunksFreezing_addChunk]
  | addReceiver c =>
      apply iff_of_true _ id
      intro _
      cases ha : (s.addReceiver config c).2 with
      | false =>
          simp only [apply, addReceiver_of_false ha]
          apply hs
      | true =>
          simp only [apply, (addReceiver_of_true ha).2]
          rintro ⟨hf, hm⟩
          apply hs ⟨hf, _⟩
          intro hmember
          apply hm
          apply hmember.imp_right
          rintro ⟨x, hmem, hax⟩
          exact ⟨x, List.mem_append_left _ hmem, hax⟩
  | removeReceiver publicId => apply iff_of_true (not_isOrphan_removeReceiver publicId) id
  | destroyClient c => apply not_isOrphan_destroyClient h hl hs
  | setChunkAsReceived i c => apply not_isOrphan_setChunkAsReceived h hl hs
  | setEndOfFile =>
      apply iff_of_true _ id
      rintro - ho
      apply hs (ho.of_sameMembers (sameMembers_apply config s rfl) _)
      cases he : s.buffer.EOF with
      | true => simp only [apply, setEndOfFile_of_eof he]
      | false => simp [apply, setEndOfFile_of_not_eof he, Buffer.setEndOfFile, he]
  | dropInitialChunksFreeze => apply not_isOrphan_dropInitialChunksFreeze h hl hs
  | _ =>
      apply iff_of_true _ id
      rintro - ho
      apply hs (ho.of_sameMembers (sameMembers_apply config s rfl) _)
      apply (sameChunks_apply config rfl rfl).initialChunksFreezing

/-- In every run, no orphan is listed, exactly when no operation makes one. -/
theorem not_isOrphan_iff (config : Config) (sender : ClientRef) (auto : Bool)
    (ops : List Op) :
  Machine.EveryState (step config) (WhileListed (¬ IsOrphan ·)) (create sender auto) ops
    ↔ Machine.EveryStep (step config) (WhenApplied (¬ Orphans · ·)) (create sender auto) ops
  := by
  apply everyState_whileListed_iff
  · intro s op hl _ h hs
    apply not_isOrphan_apply h hl hs
  · rintro ⟨hf, -⟩
    cases hf

/-- A run in which the sender is destroyed after the upload, and then the only receiver. -/
def receiverAfterSender : List Op :=
  [.addReceiver Sample.alice, .setFileInfo Sample.info, .addChunk [1], .setEndOfFile,
    .dropInitialChunksFreeze, .destroyClient Sample.sender, .destroyClient Sample.alice]

/-- After that run the session is an orphan, and still listed. -/
theorem isOrphan_receiverAfterSender :
  ¬ ∀ (config : Config) (sender : ClientRef) (auto : Bool) (ops : List Op),
      Machine.EveryState (step config) (WhileListed (¬ IsOrphan ·)) (create sender auto) ops
  := by
  intro h
  apply (h Sample.config Sample.sender false receiverAfterSender).last
  · decide
  · rw [IsOrphan, HasMember]
    decide

end TransferSession

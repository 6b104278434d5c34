import PutInPipe.Session.Run

/-!
# What the creator controls

`SameControls` and `Intact` say what of a session only its creator may change. A receiver
that was kicked stays subscribed until it is destroyed, and its destruction calls
`removeReceiver` once more, or is taken for the departure of the sender. `Governed` is the
invariant by which neither has an effect: a session whose receivers have all been kicked is
still frozen, and one whose sender is destroyed has receivers left in its list.
-/

open TransferSessionDetails

namespace TransferSession

variable {config : Config} {s t : TransferSession}

/-! ### What only the creator changes -/

/-- The file information, the end of file, the accepted chunks, the receivers, the expected
consumers and, unless the session is in the automatic mode, the freeze are the same. -/
structure SameControls (s t : TransferSession) : Prop where
  fileInfo : t.fileInfo = s.fileInfo
  eof : t.buffer.eof = s.buffer.eof
  currentMaxChunkIndex : t.buffer.currentMaxChunkIndex = s.buffer.currentMaxChunkIndex
  bytesIn : t.buffer.bytesIn = s.buffer.bytesIn
  payloads : ∀ i data, (t.buffer.chunks.find? i).map Chunk.data = some data →
    (s.buffer.chunks.find? i).map Chunk.data = some data
  dataReceivers : t.dataReceivers = s.dataReceivers
  expectedConsumers : t.buffer.expectedConsumers = s.buffer.expectedConsumers
  freeze : s.autoDropFreezeOnFirstChunk = false →
    t.buffer.initialChunksFreezing = s.buffer.initialChunksFreezing

/-- Moreover the session is not terminated, and no stored chunk is removed. -/
structure Intact (s t : TransferSession) : Prop extends SameControls s t where
  listed : t.listed = s.listed
  completeType : t.completeType = s.completeType
  stored : ∀ i, (t.buffer.chunks.find? i).map Chunk.data
    = (s.buffer.chunks.find? i).map Chunk.data

theorem Intact.of_buffer (hbuffer : t.buffer = s.buffer) (hinfo : t.fileInfo = s.fileInfo)
    (hreceivers : t.dataReceivers = s.dataReceivers) (hlisted : t.listed = s.listed)
    (htype : t.completeType = s.completeType) :
  s.Intact t
  where
    fileInfo := hinfo
    eof := by rw [hbuffer]
    currentMaxChunkIndex := by rw [hbuffer]
    bytesIn := by rw [hbuffer]
    payloads i data := by
      rw [hbuffer]
      apply id
    dataReceivers := hreceivers
    expectedConsumers := by rw [hbuffer]
    freeze _ := by rw [hbuffer]
    listed := hlisted
    completeType := htype
    stored _ := by rw [hbuffer]

theorem Intact.refl (s : TransferSession) :
  s.Intact s
  := .of_buffer rfl rfl rfl rfl rfl

theorem SameControls.trans {u : TransferSession} (h : s.SameControls t) (h' : t.SameControls u)
    (hmode : t.autoDropFreezeOnFirstChunk = s.autoDropFreezeOnFirstChunk) :
  s.SameControls u
  where
    fileInfo := h'.fileInfo.trans h.fileInfo
    eof := h'.eof.trans h.eof
    currentMaxChunkIndex := h'.currentMaxChunkIndex.trans h.currentMaxChunkIndex
    bytesIn := h'.bytesIn.trans h.bytesIn
    payloads i data hdata := h.payloads i data (h'.payloads i data hdata)
    dataReceivers := h'.dataReceivers.trans h.dataReceivers
    expectedConsumers := h'.expectedConsumers.trans h.expectedConsumers
    freeze hdefault := (h'.freeze (hmode.trans hdefault)).trans (h.freeze hdefault)

/-- What the destructor of an ended session publishes changes nothing else. -/
theorem SameControls.finish (h : s.SameControls t) :
  s.SameControls t.finish
  := by
  rw [TransferSession.finish]
  split
  · apply h
  · exact ⟨h.fileInfo, h.eof, h.currentMaxChunkIndex, h.bytesIn, h.payloads, h.dataReceivers,
      h.expectedConsumers, h.freeze⟩

theorem Intact.finish (h : s.Intact t) :
  s.Intact t.finish
  := by
  have hcontrols := h.toSameControls.finish
  rw [TransferSession.finish] at hcontrols ⊢
  split
  · apply h
  · exact ⟨by simpa [*] using hcontrols, h.listed, h.completeType, h.stored⟩

/-! ### Downloads and confirmations -/

theorem intact_getChunk (s : TransferSession) (i : ℕ) (c : ClientRef) :
  s.Intact (s.getChunk i c).1
  := by
  obtain ⟨es, -, heq⟩ := s.getChunk_fst i c
  obtain ⟨n, hn⟩ := s.buffer.get_fst i
  rw [heq, hn]
  exact ⟨⟨rfl, rfl, rfl, rfl, fun _ _ => id, rfl, rfl, fun _ => rfl⟩, rfl, rfl, fun _ => rfl⟩

theorem sameControls_dropInitialChunksFreeze (config : Config)
    (hauto : s.autoDropFreezeOnFirstChunk = true)
    (hf : s.buffer.initialChunksFreezing = true) :
  s.SameControls (s.dropInitialChunksFreeze config)
  where
    fileInfo := by
      by_cases hun : s.dataReceivers = [] ∨ s.fileInfo.name = []
      · obtain ⟨type, heq⟩ := dropInitialChunksFreeze_of_unready config hf hun
        rw [heq]
      · rw [not_or] at hun
        rw [dropInitialChunksFreeze_of_ready config hf hun.1 hun.2]
    eof := by
      rw [buffer_dropInitialChunksFreeze]
      apply Buffer.EOF_setInitialChunksFreezingDropped s.buffer
    currentMaxChunkIndex := by
      rw [buffer_dropInitialChunksFreeze]
      apply Buffer.chunksMaxIndex_setInitialChunksFreezingDropped s.buffer
    bytesIn := by
      rw [buffer_dropInitialChunksFreeze, Buffer.setInitialChunksFreezingDropped_of_freezing hf]
      apply Buffer.bytesInTotal_sanitize _
    payloads i data hdata := by
      rw [buffer_dropInitialChunksFreeze] at hdata
      obtain ⟨chunk, hchunk, rfl⟩ := Option.map_eq_some_iff.mp hdata
      rw [((Buffer.find?_setInitialChunksFreezingDropped hf).mp hchunk).1, Option.map_some]
    dataReceivers := (sameMembers_dropInitialChunksFreeze config s).dataReceivers
    expectedConsumers := (sameMembers_dropInitialChunksFreeze config s).expectedConsumers
    freeze hdefault := by
      rw [hauto] at hdefault
      cases hdefault

theorem sameControls_autoDropFreeze (config : Config) (s : TransferSession) :
  s.SameControls (s.autoDropFreeze config)
  := by
  rw [autoDropFreeze_eq]
  split
  · rename_i hdrops
    simp only [autoDrops, Bool.and_eq_true] at hdrops
    have h := sameControls_dropInitialChunksFreeze config
      (s := { s with autoDropFreezeFired := true }) hdrops.1.1 hdrops.1.2
    exact ⟨h.fileInfo, h.eof, h.currentMaxChunkIndex, h.bytesIn, h.payloads, h.dataReceivers,
      h.expectedConsumers, h.freeze⟩
  · apply (Intact.refl s).toSameControls

theorem sameControls_confirmChunk (config : Config) (s : TransferSession) (i : ℕ)
    (c : ClientRef) :
  s.SameControls (s.confirmChunk config i c)
  := by
  cases hi : s.buffer.chunks.find? i with
  | none =>
      rw [confirmChunk_of_none hi]
      apply (Intact.refl s).toSameControls
  | some chunk =>
      rw [confirmChunk_of_some config hi]
      have hget : (s.buffer.get i).1.chunks.find? i = some chunk := by
        rw [Buffer.chunks_get, hi]
      constructor
      · rfl
      · simp [Buffer.eof]
      · simp [Buffer.currentMaxChunkIndex]
      · simp [Buffer.bytesIn]
      · intro j data hdata
        obtain ⟨_, hchunk, rfl⟩ := Option.map_eq_some_iff.mp hdata
        obtain ⟨⟨old, hold, rfl⟩, -⟩ := (Buffer.find?_setChunkAsReceived hget).mp hchunk
        rw [Buffer.chunks_get] at hold
        rw [hold, Option.map_some]
        split
        · rw [Chunk.data_incrementUses]
        · rfl
      · rfl
      · simp
      · simp

theorem sameControls_setChunkAsReceived (config : Config) (s : TransferSession) (i : ℕ)
    (c : ClientRef) :
  s.SameControls (s.setChunkAsReceived config i c)
  := by
  apply (sameControls_autoDropFreeze config s).trans (sameControls_confirmChunk config _ i c)
  apply (sameMembers_autoDropFreeze config s).mode

theorem intact_step_getChunk (config : Config) (s : TransferSession) (i : ℕ) (c : ClientRef) :
  s.Intact (s.step config (.getChunk i c))
  := by
  by_cases happlied : s.listed = true ∧ s.enabled (.getChunk i c) = true
  · rw [step_of_enabled happlied.1 happlied.2]
    apply (intact_getChunk s i c).finish
  · rw [step_of_not_enabled happlied]
    exact .refl s

theorem sameControls_step_setChunkAsReceived (config : Config) (s : TransferSession) (i : ℕ)
    (c : ClientRef) :
  s.SameControls (s.step config (.setChunkAsReceived i c))
  := by
  by_cases happlied : s.listed = true ∧ s.enabled (.setChunkAsReceived i c) = true
  · rw [step_of_enabled happlied.1 happlied.2]
    apply (sameControls_setChunkAsReceived config s i c).finish
  · rw [step_of_not_enabled happlied]
    apply (Intact.refl s).toSameControls

/-! ### The invariant -/

/-- What holds of a listed session whose receivers are only kicked by its creator. -/
structure Governed (config : Config) (s : TransferSession) : Prop where
  consistent : s.Consistent config
  staffed : s.alive s.dataSender = true ∨ s.dataReceivers ≠ []
  present : s.alive s.dataSender = true → ∀ c ∈ s.dataReceivers, s.alive c = true
  vacated : s.alive s.dataSender = true → s.dataReceivers = [] →
    (∃ c ∈ s.subscribers, c ≠ s.dataSender) →
      s.autoDropFreezeOnFirstChunk = false ∧ s.buffer.initialChunksFreezing = true
  expects : ∀ publicId ∈ s.buffer.expectedConsumers,
    ∃ c ∈ s.dataReceivers, c.publicId = publicId
  sole : s.alive s.dataSender = true → ∀ c ∈ s.subscribers,
    c.publicId = s.dataSender.publicId → c = s.dataSender

/-- The creator is not let in as a receiver, and it alone kicks, and not itself. -/
def Orderly (s : TransferSession) : Op → Prop
  | .addReceiver c => s.alive s.dataSender = true → c.publicId ≠ s.dataSender.publicId
  | .removeReceiver publicId =>
      s.alive s.dataSender = true ∧ publicId ≠ s.dataSender.publicId
  | _ => True

namespace Governed

theorem create (config : Config) (sender : ClientRef) (auto : Bool) :
  (create sender auto).Governed config
  where
    consistent := .create config sender auto
    staffed := .inl rfl
    present _ _ hc := by cases hc
    vacated _ _ := by
      rintro ⟨c, hc, hne⟩
      exact absurd (List.mem_singleton.mp hc) hne
    expects _ hp := by simp [TransferSession.create] at hp
    sole _ c hc _ := List.mem_singleton.mp hc

/-! #### Departures -/

/-- A client without the public id of the sender that leaves a live sender behind. -/
theorem removeReceiver {publicId : String} (hconsistent : s.Consistent config)
    (halive : s.alive s.dataSender = true) (hne : publicId ≠ s.dataSender.publicId)
    (hpresent : ∀ c ∈ s.dataReceivers, c.publicId ≠ publicId → s.alive c = true)
    (hexpects : ∀ publicId ∈ s.buffer.expectedConsumers,
      ∃ c ∈ s.dataReceivers, c.publicId = publicId)
    (hsole : ∀ c ∈ s.subscribers, c.publicId = s.dataSender.publicId → c = s.dataSender) :
  WhileListed (Governed config) (s.removeReceiver publicId)
  := by
  intro hl
  have hconsistent' := hconsistent.removeReceiver publicId hl
  obtain ⟨es, -, heq⟩ := s.removeReceiver_spec publicId
  have hsender : (s.removeReceiver publicId).alive s.dataSender = true := by
    rw [heq, alive_iff, List.mem_append, not_or]
    constructor
    · intro hexpelled
      obtain ⟨-, -, hp, -⟩ := expelled_eq_some (Option.mem_toList.mp hexpelled)
      apply hne hp.symm
    · apply alive_iff.mp halive
  have hends : s.endsWithout publicId = false := by
    rw [heq] at hl
    simpa using (Bool.and_eq_true_iff.mp hl).2
  refine ⟨hconsistent', Or.inl ?_, fun _ c hc => ?_, fun _ hnone _ => ?_, fun p hp => ?_,
    fun _ => ?_⟩
  · rw [heq] at hsender ⊢
    apply hsender
  · rw [dataReceivers_removeReceiver] at hc
    apply alive_removeReceiver hc
  · rw [dataReceivers_removeReceiver] at hnone
    have hdeserted : s.desertedWithout publicId = false := by
      rw [endsWithout, Bool.or_eq_false_iff] at hends
      apply hends.1
    simp only [desertedWithout, hnone, List.isEmpty_nil, Bool.true_and, Bool.or_eq_false_iff,
      Bool.not_eq_eq_eq_not, Bool.not_false] at hdeserted
    rw [heq]
    exact ⟨hdeserted.1.1, (Buffer.initialChunksFreezing_removeOne publicId).trans hdeserted.2⟩
  · rw [buffer_removeReceiver, Buffer.expectedConsumers_removeOne] at hp
    obtain ⟨hp, hmem⟩ := Finset.mem_erase.mp hp
    obtain ⟨c, hc, rfl⟩ := hexpects p hmem
    refine ⟨c, ?_, rfl⟩
    rw [dataReceivers_removeReceiver]
    apply mem_remaining.mpr ⟨hc, hpresent c hc hp, hp⟩
  · rw [heq]
    apply hsole

theorem destroyClient (h : s.Governed config) (c : ClientRef) :
  WhileListed (Governed config) (s.destroyClient c)
  := by
  intro hl
  have hconsistent := h.consistent.destroyClient c hl
  by_cases hc : c ∈ s.subscribers
  · cases ht : (s.expire c).takenForSender c.publicId with
    | true =>
        -- only the sender has its public id, so that it is gone now
        have hgone : (s.expire c).alive s.dataSender = false := by
          apply Bool.eq_false_of_not_eq_true
          intro halive
          obtain ⟨hne, hbefore⟩ := alive_expire.mp halive
          have hp : s.dataSender.publicId = c.publicId := by
            by_contra hp
            rw [takenForSender_eq_false.mpr ⟨halive, hp⟩] at ht
            cases ht
          apply hne (h.sole hbefore c hc hp.symm).symm
        rw [destroyClient_of_taken hc ht] at hl hconsistent ⊢
        have hgone' : ∀ P : Prop, (s.expire c).alive s.dataSender = true → P := by
          intro P halive
          rw [hgone] at halive
          cases halive
        simp only [Bool.and_eq_true, Bool.not_eq_true', List.isEmpty_eq_false_iff] at hl
        exact ⟨hconsistent, .inr hl.2.2, fun ha => hgone' _ ha, fun ha => hgone' _ ha, h.expects,
          fun ha => hgone' _ ha⟩
    | false =>
        obtain ⟨halive, hne⟩ := takenForSender_eq_false.mp ht
        have hbefore := (alive_expire.mp halive).2
        rw [destroyClient_of_receiver hc ht] at hl ⊢
        apply Governed.removeReceiver (s := s.expire c) _ halive (Ne.symm hne) _ h.expects
          (h.sole hbefore) hl
        · apply h.consistent.expire_of_alive (.inl halive)
        · intro d hd hp
          apply alive_expire.mpr ⟨_, h.present hbefore d hd⟩
          rintro rfl
          apply hp rfl
  · rw [destroyClient_of_stranger hc] at hconsistent ⊢
    refine ⟨hconsistent, ?_, fun ha d hd => ?_, fun ha => ?_, h.expects, fun ha => ?_⟩
    · apply h.staffed.imp_left
      intro ha
      apply alive_expire.mpr ⟨_, ha⟩
      rintro rfl
      apply hc h.consistent.sender_mem
    · apply alive_expire.mpr ⟨_, h.present (alive_expire.mp ha).2 d hd⟩
      rintro rfl
      apply hc (h.consistent.receivers_mem _ hd)
    · apply h.vacated (alive_expire.mp ha).2
    · apply h.sole (alive_expire.mp ha).2

/-! #### The other operations -/

theorem addReceiver (h : s.Governed config) {c : ClientRef}
    (hne : s.alive s.dataSender = true → c.publicId ≠ s.dataSender.publicId)
    (halive : s.alive c = true) :
  (s.addReceiver config c).1.Governed config
  := by
  have hconsistent := h.consistent.addReceiver c
  cases ha : (s.addReceiver config c).2 with
  | false =>
      rw [addReceiver_of_false ha]
      apply h
  | true =>
      rw [(addReceiver_of_true ha).2] at hconsistent ⊢
      refine ⟨hconsistent, .inr (by simp), fun hs d hd => ?_, fun _ hnone => ?_, fun p hp => ?_,
        fun hs d hd hp => ?_⟩
      · obtain hd | hd := List.mem_append.mp hd
        · apply h.present hs d hd
        · rw [List.mem_singleton.mp hd]
          apply halive
      · simp at hnone
      · obtain rfl | hp := Finset.mem_insert.mp hp
        · exact ⟨c, by simp, rfl⟩
        · obtain ⟨d, hd, hdp⟩ := h.expects p hp
          exact ⟨d, List.mem_append_left _ hd, hdp⟩
      · obtain hd | rfl := mem_addSubscriber.mp hd
        · apply h.sole hs d hd hp
        · exact absurd hp (hne hs)

/-- An operation that leaves the members alone does not unfreeze a session that all its
receivers have left. -/
theorem freezing_apply {op : Op} (hop : op.keepsMembers = true)
    (hnone : s.dataReceivers = []) (hmode : s.autoDropFreezeOnFirstChunk = false)
    (hf : s.buffer.initialChunksFreezing = true) (hl : (s.apply config op).listed = true) :
  (s.apply config op).buffer.initialChunksFreezing = true
  := by
  cases op with
  | addChunk binaryData =>
      obtain ⟨es, heq⟩ := s.addChunk_fst config binaryData
      simp only [apply, heq, Buffer.initialChunksFreezing_addChunk, hf]
  | setChunkAsReceived i c =>
      have heq : s.autoDropFreeze config = s := by
        rw [autoDropFreeze_eq, if_neg (by simp [autoDrops, hmode])]
      rw [apply, setChunkAsReceived, heq, buffer_confirmChunk,
        Buffer.initialChunksFreezing_setChunkAsReceived, Buffer.initialChunksFreezing_get, hf]
  | setEndOfFile =>
      cases he : s.buffer.EOF with
      | true => simp only [apply, setEndOfFile_of_eof he, hf]
      | false => simp [apply, setEndOfFile_of_not_eof he, Buffer.setEndOfFile, he, hf]
  | dropInitialChunksFreeze =>
      obtain ⟨type, heq⟩ := dropInitialChunksFreeze_of_unready config hf (.inl hnone)
      rw [apply, heq] at hl
      cases hl
  | addReceiver c => cases hop
  | removeReceiver publicId => cases hop
  | destroyClient c => cases hop
  | _ =>
      rw [(sameChunks_apply config rfl rfl).initialChunksFreezing]
      apply hf

theorem apply (h : s.Governed config) {op : Op} (ho : s.Orderly op) (he : s.enabled op = true) :
  WhileListed (Governed config) (s.apply config op)
  := by
  cases hop : op.keepsMembers with
  | true =>
      intro hl
      have hsame := sameMembers_apply config s hop
      refine ⟨h.consistent.apply op hl, ?_, ?_, ?_, ?_, ?_⟩
      · rw [hsame.dataSender, hsame.alive, hsame.dataReceivers]
        apply h.staffed
      · simp only [hsame.dataSender, hsame.alive, hsame.dataReceivers]
        apply h.present
      · rw [hsame.dataSender, hsame.alive, hsame.dataReceivers, hsame.subscribers, hsame.mode]
        intro hs hnone hleft
        obtain ⟨hmode, hf⟩ := h.vacated hs hnone hleft
        exact ⟨hmode, freezing_apply hop hnone hmode hf hl⟩
      · rw [hsame.expectedConsumers, hsame.dataReceivers]
        apply h.expects
      · rw [hsame.dataSender, hsame.alive, hsame.subscribers]
        apply h.sole
  | false =>
      cases op with
      | addReceiver c => exact fun _ => h.addReceiver ho he
      | removeReceiver publicId =>
          apply Governed.removeReceiver h.consistent ho.1 ho.2 (fun c hc _ => h.present ho.1 c hc)
            h.expects (h.sole ho.1)
      | destroyClient c => exact h.destroyClient c
      | _ => cases hop

/-- A listed session stays governed as long as it is treated in order. -/
theorem step (hs : WhileListed (Governed config) s) {op : Op}
    (ho : WhenApplied Orderly s op) :
  WhileListed (Governed config) (s.step config op)
  := by
  apply whileListed_step hs
  intro hl he h
  apply h.apply (ho hl he) he

/-! #### The destruction of a client that is not a receiver -/

/-- The destruction of a client other than the live sender leaves the session as it is, when the
sender is gone or no receiver has the public id of the client. -/
theorem intact_destroyClient (h : s.Governed config) (hl : s.listed = true) {c : ClientRef}
    (hne : s.alive s.dataSender = true → c ≠ s.dataSender)
    (hc : s.alive s.dataSender = true → ∀ d ∈ s.dataReceivers, d.publicId ≠ c.publicId) :
  s.Intact (s.destroyClient c)
  := by
  by_cases hmem : c ∈ s.subscribers
  · cases ht : (s.expire c).takenForSender c.publicId with
    | true =>
        have hgone : s.alive s.dataSender = false := by
          apply Bool.eq_false_of_not_eq_true
          intro halive
          have hp : s.dataSender.publicId = c.publicId := by
            by_contra hp
            rw [takenForSender_eq_false.mpr ⟨alive_expire.mpr ⟨(hne halive).symm, halive⟩, hp⟩]
              at ht
            cases ht
          apply hne halive (h.sole halive c hmem hp.symm)
        have heof : s.buffer.EOF = true := h.consistent.sender.resolve_left (by simp [hgone])
        have hstaff : s.dataReceivers ≠ [] := h.staffed.resolve_left (by simp [hgone])
        rw [destroyClient_of_taken hmem ht]
        refine .of_buffer (s := s) rfl rfl rfl ?_ ?_
        · simp [hl, heof, hstaff]
        · simp [heof, hstaff]
    | false =>
        obtain ⟨halive, hp⟩ := takenForSender_eq_false.mp ht
        have hbefore := (alive_expire.mp halive).2
        have hgone : ∀ d ∈ (s.expire c).dataReceivers,
            (s.expire c).alive d = true ∧ d.publicId ≠ c.publicId := by
          intro d hd
          refine ⟨alive_expire.mpr ⟨?_, h.present hbefore d hd⟩, hc hbefore d hd⟩
          rintro rfl
          apply hc hbefore d hd rfl
        have hunexpected : c.publicId ∉ (s.expire c).buffer.expectedConsumers := by
          intro hexpected
          obtain ⟨d, hd, hdp⟩ := h.expects _ hexpected
          apply hc hbefore d hd hdp
        have hstays : (s.dataReceivers.isEmpty && (s.autoDropFreezeOnFirstChunk
            || s.buffer.someChunkWasRemoved || !s.buffer.initialChunksFreezing)) = false := by
          cases hnone : s.dataReceivers.isEmpty with
          | false => rfl
          | true =>
              obtain ⟨hmode, hf⟩ := h.vacated hbefore (List.isEmpty_iff.mp hnone)
                ⟨c, hmem, hne hbefore⟩
              have hkept : s.buffer.someChunkWasRemoved = false := by
                apply Bool.eq_false_of_not_eq_true
                intro hremoved
                rw [h.consistent.buffer.freezing hremoved] at hf
                cases hf
              simp [hmode, hkept, hf]
        rw [destroyClient_of_receiver hmem ht, TransferSession.removeReceiver,
          removeReceiverWith_of_gone kick hgone hunexpected, terminateIfDeserted_eq]
        refine .of_buffer (s := s) rfl rfl rfl ?_ ?_
        · change (s.listed && !(s.dataReceivers.isEmpty && (s.autoDropFreezeOnFirstChunk
            || s.buffer.someChunkWasRemoved || !s.buffer.initialChunksFreezing))) = s.listed
          rw [hstays, Bool.not_false, Bool.and_true]
        · apply if_neg
          change ¬ (s.dataReceivers.isEmpty && (s.autoDropFreezeOnFirstChunk
            || s.buffer.someChunkWasRemoved || !s.buffer.initialChunksFreezing)) = true
          rw [hstays]
          apply Bool.false_ne_true
  · rw [destroyClient_of_stranger hmem]
    exact .of_buffer rfl rfl rfl rfl rfl

end Governed

end TransferSession

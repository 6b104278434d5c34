import PutInPipe.Session.Progress

/-!
# What the receivers are told

A receiver follows a session by its events. `Informs` collects what the events of one
operation have to tell for that: a new chunk is announced, the end of the upload is announced
when no more chunks come, and a receiver is off the list only after it was kicked. A session
that ends with the status `ok` has got the whole file or has no receiver on its list.
-/

open TransferSessionDetails

/-- The event tells neither of a new chunk nor of the end of the upload or of the session. -/
def Event.plain : Event → Bool
  | .newChunkIsAvailable _ _ | .fileUploadFinished | .complete _ => false
  | _ => true

namespace TransferSession

variable {config : Config} {s t u : TransferSession} {es fs : List Event}

/-- From `s` to `t` the events `es` are sent, all of them plain. -/
structure Sends (s t : TransferSession) (es : List Event) : Prop where
  events : t.events = s.events ++ es
  plain : ∀ e ∈ es, e.plain = true

namespace Sends

theorem of_events_eq (h : t.events = s.events) :
  s.Sends t []
  where
    events := by rw [h, List.append_nil]
    plain := List.forall_mem_nil _

theorem trans (h : s.Sends t es) (h' : t.Sends u fs) :
  s.Sends u (es ++ fs)
  where
    events := by rw [h'.events, h.events, List.append_assoc]
    plain := by
      intro e he
      obtain he | he := List.mem_append.mp he
      · apply h.plain e he
      · apply h'.plain e he

theorem notify (h : s.Sends t es) {e : Event} (he : e.plain = true) :
  s.Sends (t.notify e) (es ++ [e])
  := by
  apply h.trans
  constructor
  · rfl
  · simpa using he

/-- The events depend on the events alone. -/
theorem congr (h : s.Sends t es) (hu : u.events = t.events) :
  s.Sends u es
  where
    events := hu.trans h.events
    plain := h.plain

end Sends

theorem plain_removedEvents (ids : List ℕ) :
  ∀ e ∈ removedEvents ids, e.plain = true
  := by
  intro e he
  rw [mem_removedEvents he]
  rfl

theorem plain_allowedEdge (old new : Bool) :
  ∀ e ∈ allowedEdge old new, e.plain = true
  := by
  intro e he
  rw [allowedEdge] at he
  split at he
  · rw [List.mem_singleton.mp he]
    rfl
  · cases he

/-! ### Departures -/

theorem events_terminateIfDeserted (s : TransferSession) (noReceiversLeft : Bool) :
  (s.terminateIfDeserted noReceiversLeft).events = s.events
  := by
  rw [terminateIfDeserted_eq]

/-- A departure sends plain events, and tells the removed client that it was kicked. -/
theorem sends_removeReceiverWith {kick : ClientRef → TransferSession → TransferSession}
    (hkick : ∀ (c : ClientRef) (s : TransferSession), ∃ es, s.Sends (kick c s) es)
    (publicId : String) (s : TransferSession) :
  ∃ es, s.Sends (s.removeReceiverWith kick publicId) es
    ∧ ∀ c, s.removedClient publicId = some c → .kicked c ∈ es
  := by
  have hremoved : s.Sends ((s.without publicId).notifyRemoved
      (s.buffer.removeOneFromExpectedConsumers publicId).2)
      (removedEvents (s.buffer.removeOneFromExpectedConsumers publicId).2) := by
    rw [notifyRemoved_eq]
    use rfl
    apply plain_removedEvents
  have hend : ∀ {t : TransferSession} {es : List Event}, s.Sends t es →
      s.Sends ((t.notify (.receiverRemoved publicId)).terminateIfDeserted
        (s.remaining publicId).isEmpty) (es ++ [.receiverRemoved publicId]) := by
    intro t es h
    apply (h.notify rfl).congr
    apply events_terminateIfDeserted
  cases hc : s.removedClient publicId with
  | none =>
      use removedEvents (s.buffer.removeOneFromExpectedConsumers publicId).2
        ++ [.receiverRemoved publicId]
      constructor
      · simp only [removeReceiverWith, hc]
        apply hend hremoved
      · intro c hsome
        cases hsome
  | some client =>
      have hnotified := hremoved.notify (e := .kicked client) rfl
      obtain ⟨es, hes⟩ := hkick client _
      use removedEvents (s.buffer.removeOneFromExpectedConsumers publicId).2
        ++ [.kicked client] ++ es ++ [.receiverRemoved publicId]
      constructor
      · simp only [removeReceiverWith, hc]
        apply hend (hnotified.trans hes)
      · intro c hsome
        obtain rfl := Option.some.inj hsome
        simp

theorem sends_update {remove : String → TransferSession → TransferSession}
    (hremove : ∀ (publicId : String) (s : TransferSession), ∃ es, s.Sends (remove publicId s) es)
    (publicId : String) (s : TransferSession) :
  ∃ es, s.Sends (s.update remove publicId) es
  := by
  rw [update]
  split_ifs
  · exact ⟨[], Sends.of_events_eq rfl⟩
  · exact ⟨[], Sends.of_events_eq rfl⟩
  · exact ⟨[], Sends.of_events_eq rfl⟩
  · apply hremove

theorem sends_destroyWith {remove : String → TransferSession → TransferSession}
    (hremove : ∀ (publicId : String) (s : TransferSession), ∃ es, s.Sends (remove publicId s) es)
    (c : ClientRef) (s : TransferSession) :
  ∃ es, s.Sends (s.destroyWith remove c) es
  := by
  rw [destroyWith]
  split
  · obtain ⟨es, hes⟩ := sends_update hremove c.publicId (s.expire c)
    use es
    exact ⟨hes.events, hes.plain⟩
  · exact ⟨[], Sends.of_events_eq rfl⟩

theorem sends_kick (c : ClientRef) (s : TransferSession) :
  ∃ es, s.Sends (kick c s) es
  := by
  rw [kick]
  split
  · exact ⟨[], Sends.of_events_eq rfl⟩
  · apply sends_destroyWith
    intro publicId s
    obtain ⟨es, hes, -⟩ := @sends_removeReceiverWith (fun _ s => s)
      (fun _ s => ⟨[], Sends.of_events_eq rfl⟩) publicId s
    exact ⟨es, hes⟩

theorem sends_removeReceiver (publicId : String) (s : TransferSession) :
  ∃ es, s.Sends (s.removeReceiver publicId) es
    ∧ ∀ c, s.removedClient publicId = some c → .kicked c ∈ es
  := sends_removeReceiverWith sends_kick publicId s

theorem alive_of_removeReceiver {publicId : String} {c : ClientRef}
    (ha : (s.removeReceiver publicId).alive c = true) :
  s.alive c = true
  := by
  obtain ⟨_, -, heq⟩ := s.removeReceiver_spec publicId
  rw [heq, alive_iff, List.mem_append, not_or] at ha
  apply alive_iff.mpr ha.2

/-- A receiver that is still alive after a departure is still on the list, or was told that
it was kicked. -/
theorem kicked_removeReceiver (hc : s.Consistent config) (publicId : String) :
  ∃ es, s.Sends (s.removeReceiver publicId) es
    ∧ ∀ c ∈ s.dataReceivers, (s.removeReceiver publicId).alive c = true →
      c ∈ (s.removeReceiver publicId).dataReceivers ∨ .kicked c ∈ es
  := by
  obtain ⟨es, hes, hkicked⟩ := s.sends_removeReceiver publicId
  use es, hes
  intro c hmem ha
  have halive := alive_of_removeReceiver ha
  by_cases hp : c.publicId = publicId
  · right
    apply hkicked
    cases hr : s.removedClient publicId with
    | none =>
        rw [removedClient, List.getLast?_eq_none_iff, List.filter_eq_nil_iff] at hr
        apply absurd _ (hr c hmem)
        simp [halive, hp]
    | some d =>
        obtain ⟨hd, -, hdp⟩ := removedClient_eq_some hr
        rw [hc.eq_of_publicId hd hmem (hdp.trans hp.symm)]
  · left
    rw [dataReceivers_removeReceiver]
    apply mem_remaining.mpr ⟨hmem, halive, hp⟩

/-- A departure that ends a session with the status `ok` leaves no receiver on the list, or
finds the upload finished. -/
theorem ended_removeReceiver (hl : s.listed = true) {publicId : String}
    (hend : (s.removeReceiver publicId).listed = false)
    (hok : (s.removeReceiver publicId).completeType = .ok) :
  (s.removeReceiver publicId).buffer.EOF = true
    ∨ (s.removeReceiver publicId).dataReceivers = []
  := by
  right
  rw [listed_removeReceiver, hl, Bool.true_and, Bool.not_eq_false', endsWithout] at hend
  rw [completeType_removeReceiver, typeWithout] at hok
  rw [dataReceivers_removeReceiver]
  cases hd : s.desertedWithout publicId with
  | true =>
      rw [desertedWithout, Bool.and_eq_true, List.isEmpty_iff] at hd
      apply hd.1
  | false =>
      simp only [hd, Bool.false_or] at hend
      simp only [hd, hend, if_true, Bool.false_eq_true, if_false] at hok
      split at hok <;> cases hok

/-! ### The other operations -/

theorem sends_dropInitialChunksFreeze (config : Config) (s : TransferSession) :
  ∃ es, s.Sends (s.dropInitialChunksFreeze config) es
  := by
  cases hf : s.buffer.initialChunksFreezing with
  | false =>
      rw [dropInitialChunksFreeze_of_not_freezing hf]
      exact ⟨[], Sends.of_events_eq rfl⟩
  | true =>
      by_cases hun : s.dataReceivers = [] ∨ s.fileInfo.name = []
      · obtain ⟨type, heq⟩ := dropInitialChunksFreeze_of_unready config hf hun
        rw [heq]
        exact ⟨[], Sends.of_events_eq rfl⟩
      · rw [not_or] at hun
        rw [dropInitialChunksFreeze_of_ready config hf hun.1 hun.2, List.append_assoc]
        refine ⟨_, rfl, ?_⟩
        intro e he
        obtain he | he := List.mem_append.mp he
        · apply plain_removedEvents _ e he
        · obtain rfl | rfl := List.mem_pair.mp he
          · rfl
          · rfl

theorem sends_autoDropFreeze (config : Config) (s : TransferSession) :
  ∃ es, s.Sends (s.autoDropFreeze config) es
  := by
  rw [autoDropFreeze_eq]
  split
  · obtain ⟨es, hes⟩ :=
      sends_dropInitialChunksFreeze config { s with autoDropFreezeFired := true }
    exact ⟨es, hes.events, hes.plain⟩
  · exact ⟨[], Sends.of_events_eq rfl⟩

theorem sends_confirmChunk (config : Config) (s : TransferSession) (i : ℕ) (c : ClientRef) :
  ∃ es, s.Sends (s.confirmChunk config i c) es
  := by
  cases hi : s.buffer.chunks.find? i with
  | none =>
      rw [confirmChunk_of_none hi]
      exact ⟨[], Sends.of_events_eq rfl⟩
  | some chunk =>
      rw [confirmChunk_of_some config hi, List.append_assoc, List.append_assoc,
        List.append_assoc]
      refine ⟨_, rfl, ?_⟩
      intro e he
      obtain he | he := List.mem_append.mp he
      · rw [List.mem_singleton.mp he]
        rfl
      obtain he | he := List.mem_append.mp he
      · apply plain_removedEvents _ e he
      obtain he | he := List.mem_append.mp he
      · apply plain_allowedEdge _ _ e he
      · obtain rfl | rfl := List.mem_pair.mp he
        · rfl
        · rfl

theorem sends_addReceiver (config : Config) (s : TransferSession) (c : ClientRef) :
  ∃ es, s.Sends (s.addReceiver config c).1 es
  := by
  cases ha : (s.addReceiver config c).2 with
  | false =>
      rw [addReceiver_of_false ha]
      exact ⟨[], Sends.of_events_eq rfl⟩
  | true =>
      rw [(addReceiver_of_true ha).2]
      use [.newReceiver c], rfl
      simp [Event.plain]

theorem sends_setFileInfo (s : TransferSession) (info : FileInfo) :
  ∃ es, s.Sends (s.setFileInfo info).1 es
  := by
  rw [setFileInfo]
  split
  · exact ⟨[], Sends.of_events_eq rfl⟩
  split
  · exact ⟨[], Sends.of_events_eq rfl⟩
  · exact ⟨_, rfl, by simp [Event.plain]⟩

theorem sends_getChunk (s : TransferSession) (i : ℕ) (c : ClientRef) :
  ∃ es, s.Sends (s.getChunk i c).1 es
  := by
  rw [getChunk]
  simp only
  split
  · exact ⟨[], Sends.of_events_eq rfl⟩
  · exact ⟨_, rfl, by simp [Event.plain]⟩

/-- A session that ends because it has no receivers or no file information does not end
with the status `ok`. -/
theorem completeType_dropInitialChunksFreeze_of_unready
    (hf : s.buffer.initialChunksFreezing = true)
    (h : s.dataReceivers = [] ∨ s.fileInfo.name = []) :
  (s.dropInitialChunksFreeze config).completeType ≠ .ok
  := by
  rw [dropInitialChunksFreeze, Buffer.setInitialChunksFreezingDropped_of_freezing hf]
  simp only [Bool.not_true, Bool.false_eq_true, if_false, List.isEmpty_iff]
  split
  · intro hok
    cases hok
  · rename_i hr
    rw [if_pos (h.resolve_left hr)]
    intro hok
    cases hok

theorem ended_dropInitialChunksFreeze (hl : s.listed = true)
    (hend : (s.dropInitialChunksFreeze config).listed = false)
    (hok : (s.dropInitialChunksFreeze config).completeType = .ok) :
  s.buffer.EOF = true
  := by
  cases hf : s.buffer.initialChunksFreezing with
  | false =>
      rw [dropInitialChunksFreeze_of_not_freezing hf, hl] at hend
      cases hend
  | true =>
      by_cases hun : s.dataReceivers = [] ∨ s.fileInfo.name = []
      · apply absurd hok (completeType_dropInitialChunksFreeze_of_unready hf hun)
      · rw [not_or] at hun
        rw [dropInitialChunksFreeze_of_ready config hf hun.1 hun.2] at hend
        simp only [hl, Bool.true_and, Bool.not_eq_false', Bool.and_eq_true] at hend
        apply hend.2

theorem ended_autoDropFreeze (hl : s.listed = true)
    (hend : (s.autoDropFreeze config).listed = false)
    (hok : (s.autoDropFreeze config).completeType = .ok) :
  s.buffer.EOF = true
  := by
  rw [autoDropFreeze_eq] at hend hok
  split at hend
  · next hauto =>
      rw [if_pos hauto] at hok
      have hl' : { s with autoDropFreezeFired := true }.listed = true := hl
      apply ended_dropInitialChunksFreeze hl' hend hok
  · rw [hl] at hend
    cases hend

/-- A confirmation changes the status of no session, and ends one only when the upload is
finished. -/
theorem ended_confirmChunk (config : Config) (s : TransferSession) (i : ℕ) (c : ClientRef) :
  (s.confirmChunk config i c).completeType = s.completeType
    ∧ ((s.confirmChunk config i c).listed = false → s.listed = true → s.buffer.EOF = true)
  := by
  cases hi : s.buffer.chunks.find? i with
  | none =>
      rw [confirmChunk_of_none hi]
      use rfl
      intro hend hl
      rw [hl] at hend
      cases hend
  | some chunk =>
      rw [confirmChunk_of_some config hi]
      use rfl
      intro hend hl
      simp only [hl, Bool.true_and, Bool.not_eq_false', Bool.and_eq_true] at hend
      apply hend.2

/-! ### An operation -/

/-- What the events `es` tell a receiver of the way from `s` to `t`. -/
structure Informs (s t : TransferSession) (es : List Event) : Prop where
  events : t.events = s.events ++ es
  ongoing : ∀ type, .complete type ∉ es
  newChunk : t.buffer.chunksMaxIndex = s.buffer.chunksMaxIndex
    ∨ ∃ size, .newChunkIsAvailable t.buffer.chunksMaxIndex size ∈ es
  finished : .fileUploadFinished ∈ es →
    t.buffer.EOF = true ∧ t.buffer.chunksMaxIndex = s.buffer.chunksMaxIndex
  kicked : ∀ c ∈ s.dataReceivers, t.alive c = true → c ∈ t.dataReceivers ∨ .kicked c ∈ es
  ended : t.listed = false → t.completeType = .ok →
    t.buffer.EOF = true ∨ t.dataReceivers = []

/-- Plain events inform when no chunk was accepted. -/
theorem Sends.informs (h : s.Sends t es)
    (hmax : t.buffer.chunksMaxIndex = s.buffer.chunksMaxIndex)
    (hkicked : ∀ c ∈ s.dataReceivers, t.alive c = true → c ∈ t.dataReceivers ∨ .kicked c ∈ es)
    (hended : t.listed = false → t.completeType = .ok →
      t.buffer.EOF = true ∨ t.dataReceivers = []) :
  s.Informs t es
  where
    events := h.events
    ongoing type hmem := by cases h.plain _ hmem
    newChunk := Or.inl hmax
    finished hmem := by cases h.plain _ hmem
    kicked := hkicked
    ended := hended

/-- Plain events inform of a step that keeps the session and its receivers. -/
theorem Sends.informs_of_listed (h : s.Sends t es) (hl : t.listed = true)
    (hmax : t.buffer.chunksMaxIndex = s.buffer.chunksMaxIndex)
    (hreceivers : s.dataReceivers ⊆ t.dataReceivers) :
  s.Informs t es
  := by
  apply h.informs hmax
  · intro c hc _
    left
    apply hreceivers hc
  · intro hend
    cases hl.symm.trans hend

theorem informs_removeReceiver (hc : s.Consistent config) (hl : s.listed = true)
    (publicId : String) :
  ∃ es, s.Informs (s.removeReceiver publicId) es
  := by
  obtain ⟨es, hes, hkicked⟩ := kicked_removeReceiver hc publicId
  use es
  apply hes.informs _ hkicked
  · apply ended_removeReceiver hl
  · rw [buffer_removeReceiver, Buffer.chunksMaxIndex_removeOne]

/-- The destruction of a client that is no departure sends nothing. -/
theorem informs_destroyClient_of_departure_none (hl : s.listed = true) {c : ClientRef}
    (hd : s.departure (.destroyClient c) = none) :
  s.Informs (s.destroyClient c) []
  := by
  have hsends : s.Sends (s.destroyClient c) [] := by
    obtain ⟨listed, type, heq, -⟩ := destroyClient_of_departure_none hd
    rw [heq]
    exact Sends.of_events_eq rfl
  apply hsends.informs
  · obtain ⟨listed, type, heq, -⟩ := destroyClient_of_departure_none hd
    rw [heq]
    rfl
  · obtain ⟨listed, type, heq, -⟩ := destroyClient_of_departure_none hd
    rw [heq]
    exact fun c hc _ => Or.inl hc
  · by_cases hs : c ∈ s.subscribers
    · have ht : (s.expire c).takenForSender c.publicId = true := by
        apply Bool.eq_true_of_not_eq_false
        intro hf
        simp [departure, hs, hf] at hd
      rw [destroyClient_of_taken hs ht]
      intro hend hok
      left
      change s.buffer.EOF = true
      apply Bool.eq_true_of_not_eq_false
      intro he
      simp [he] at hok
    · rw [destroyClient_of_stranger hs]
      intro hend
      rw [expire, hl] at hend
      cases hend

/-- An operation informs when it neither uploads nor changes the members. -/
theorem Sends.informs_apply {op : Op} (h : s.Sends (s.apply config op) es)
    (hop : op.uploads = false) (hm : op.keepsMembers = true)
    (hended : (s.apply config op).listed = false → (s.apply config op).completeType = .ok →
      s.buffer.EOF = true) :
  ∃ es, s.Informs (s.apply config op) es
  := by
  have hsame := sameUpload_apply config s hop
  use es
  apply h.informs hsame.chunksMaxIndex
  · intro c hc _
    left
    rw [(sameMembers_apply config s hm).dataReceivers]
    apply hc
  · exact fun hend hok => Or.inl (hsame.EOF.trans (hended hend hok))

theorem informs_addReceiver (config : Config) (hl : s.listed = true) (c : ClientRef) :
  ∃ es, s.Informs (s.addReceiver config c).1 es
  := by
  obtain ⟨es, hes⟩ := sends_addReceiver config s c
  use es
  cases ha : (s.addReceiver config c).2 with
  | false =>
      rw [addReceiver_of_false ha] at hes ⊢
      apply hes.informs_of_listed hl rfl
      apply List.Subset.refl
  | true =>
      rw [(addReceiver_of_true ha).2] at hes ⊢
      apply hes.informs_of_listed hl rfl
      apply List.subset_append_left

theorem informs_setChunkAsReceived (config : Config) (hl : s.listed = true) (i : ℕ)
    (c : ClientRef) :
  ∃ es, s.Informs (s.apply config (.setChunkAsReceived i c)) es
  := by
  obtain ⟨es, hes⟩ := sends_autoDropFreeze config s
  obtain ⟨fs, hfs⟩ := sends_confirmChunk config (s.autoDropFreeze config) i c
  have hended := ended_confirmChunk config (s.autoDropFreeze config) i c
  have hsends : s.Sends (s.apply config (.setChunkAsReceived i c)) (es ++ fs) := hes.trans hfs
  apply hsends.informs_apply rfl rfl
  intro hend hok
  cases hl' : (s.autoDropFreeze config).listed with
  | true =>
      rw [← (sameUpload_autoDropFreeze config s).EOF]
      apply hended.2 hend hl'
  | false => apply ended_autoDropFreeze hl hl' (hended.1.symm.trans hok)

theorem informs_addChunk (hc : s.Consistent config) (hl : s.listed = true)
    (binaryData : Bytes) :
  ∃ es, s.Informs (s.addChunk config binaryData).1 es
  := by
  obtain ⟨heof, hsize, hroom⟩ | hno := Buffer.addChunk_cases config s.buffer binaryData
  · have hacc := hc.buffer.addChunk_of_accepted heof hsize hroom
    rw [addChunk_of_accepted config s (by simp [hacc]), hacc]
    refine ⟨_, rfl, ?_, ?_, ?_, ?_, ?_⟩
    · intro type hmem
      simp [allowedEdge] at hmem
    · right
      use binaryData.length
      simp
    · intro hmem
      simp [allowedEdge] at hmem
    · exact fun c hc _ => Or.inl hc
    · intro hend
      rw [hl] at hend
      cases hend
  · rw [addChunk_of_rejected hno]
    use []
    apply (Sends.of_events_eq rfl).informs_of_listed hl rfl
    apply List.Subset.refl

theorem informs_setEndOfFile (s : TransferSession) :
  ∃ es, s.Informs s.setEndOfFile es
  := by
  cases he : s.buffer.EOF with
  | true =>
      rw [setEndOfFile_of_eof he]
      use []
      apply (Sends.of_events_eq rfl).informs rfl
      · exact fun c hc _ => Or.inl hc
      · exact fun _ _ => Or.inl he
  | false =>
      rw [setEndOfFile_of_not_eof he, Buffer.setEndOfFile, he]
      refine ⟨_, rfl, ?_, Or.inl rfl, fun _ => ⟨rfl, rfl⟩, ?_, fun _ _ => Or.inl rfl⟩
      · intro type hmem
        simp at hmem
      · exact fun c hc _ => Or.inl hc

/-- Every operation on a listed session informs the receivers. -/
theorem informs_apply (hc : s.Consistent config) (hl : s.listed = true) (op : Op) :
  ∃ es, s.Informs (s.apply config op) es
  := by
  cases hd : s.departure op with
  | some departure =>
      obtain ⟨t, publicId⟩ := departure
      obtain ⟨es, hes⟩ := informs_removeReceiver (hc.departure hd)
        (by obtain ⟨-, rfl⟩ | ⟨c, -, rfl, -⟩ := departure_eq_some.mp hd <;> exact hl) publicId
      rw [apply_of_departure hd]
      use es
      obtain ⟨-, rfl⟩ | ⟨c, -, rfl, -⟩ := departure_eq_some.mp hd
      · apply hes
      · exact ⟨hes.events, hes.ongoing, hes.newChunk, hes.finished, hes.kicked, hes.ended⟩
  | none =>
      cases op with
      | addChunk binaryData => apply informs_addChunk hc hl
      | addReceiver c => apply informs_addReceiver config hl
      | removeReceiver publicId => cases hd
      | destroyClient c => exact ⟨[], informs_destroyClient_of_departure_none hl hd⟩
      | setChunkAsReceived i c => apply informs_setChunkAsReceived config hl
      | setEndOfFile => apply informs_setEndOfFile
      | dropInitialChunksFreeze =>
          obtain ⟨es, hes⟩ := sends_dropInitialChunksFreeze config s
          have hsends : s.Sends (s.apply config .dropInitialChunksFreeze) es := hes
          apply hsends.informs_apply rfl rfl
          apply ended_dropInitialChunksFreeze hl
      | setFileInfo info =>
          obtain ⟨es, hes⟩ := sends_setFileInfo s info
          have hsends : s.Sends (s.apply config (.setFileInfo info)) es := hes
          apply hsends.informs_apply rfl rfl
          obtain ⟨info', es', -, heq⟩ := s.setFileInfo_fst info
          rw [apply, heq]
          intro hend
          cases hl.symm.trans hend
      | getChunk i c =>
          obtain ⟨es, hes⟩ := sends_getChunk s i c
          have hsends : s.Sends (s.apply config (.getChunk i c)) es := hes
          apply hsends.informs_apply rfl rfl
          obtain ⟨es', -, heq⟩ := s.getChunk_fst i c
          rw [apply, heq]
          intro hend
          cases hl.symm.trans hend
      | manualTerminate =>
          have hsends : s.Sends (s.apply config .manualTerminate) [] := Sends.of_events_eq rfl
          apply hsends.informs_apply rfl rfl
          intro _ hok
          cases hok
      | lifetimeTimeout =>
          have hsends : s.Sends (s.apply config .lifetimeTimeout) [] := Sends.of_events_eq rfl
          apply hsends.informs_apply rfl rfl
          intro _ hok
          cases hok
      | connect c =>
          have hsends : s.Sends (s.apply config (.connect c)) [] := Sends.of_events_eq rfl
          apply hsends.informs_apply rfl rfl
          intro hend
          cases hl.symm.trans hend
      | disconnect c =>
          have hsends : s.Sends (s.apply config (.disconnect c)) [] := Sends.of_events_eq rfl
          apply hsends.informs_apply rfl rfl
          intro hend
          cases hl.symm.trans hend

theorem finish_eq (s : TransferSession) :
  s.finish
    = { s with events := s.events ++ if s.listed then [] else [.complete s.completeType] }
  := by
  rw [finish]
  split
  · rw [List.append_nil]
  · rfl

/-- No operation brings a client back. -/
theorem alive_of_apply {op : Op} {c : ClientRef} (ha : (s.apply config op).alive c = true) :
  s.alive c = true
  := by
  cases hd : s.departure op with
  | some departure =>
      obtain ⟨t, publicId⟩ := departure
      rw [apply_of_departure hd] at ha
      have ht := alive_of_removeReceiver ha
      obtain ⟨-, rfl⟩ | ⟨d, -, rfl, -⟩ := departure_eq_some.mp hd
      · apply ht
      · apply (alive_expire.mp ht).2
  | none =>
      cases op with
      | addReceiver d =>
          cases hadd : (s.addReceiver config d).2 with
          | false =>
              rw [apply, addReceiver_of_false hadd] at ha
              apply ha
          | true =>
              rw [apply, (addReceiver_of_true hadd).2] at ha
              apply ha
      | removeReceiver publicId => cases hd
      | destroyClient d =>
          obtain ⟨listed, type, heq, -⟩ := destroyClient_of_departure_none hd
          rw [apply, heq] at ha
          apply (alive_expire.mp ha).2
      | _ =>
          rw [(sameMembers_apply config s rfl).alive] at ha
          apply ha

end TransferSession

namespace History

variable {config : Config} {h : History}

/-- A step changes nothing, or it applies an operation that informs the receivers. -/
theorem informs_step (hc : h.Consistent config) (op : TransferSession.Op) :
  h.step config op = h
    ∨ h.session.listed = true
      ∧ (∃ es, h.session.Informs (h.session.apply config op) es)
      ∧ (h.step config op).session = (h.session.apply config op).finish
  := by
  by_cases ha : h.session.listed = true ∧ h.session.enabled op = true
  · right
    use ha.1, TransferSession.informs_apply (hc ha.1) ha.1 op
    rw [session_step, TransferSession.step_of_enabled ha.1 ha.2]
  · left
    rw [step_of_not_enabled ha]

/-- Once the upload is finished, the log is complete. -/
theorem step_of_EOF (config : Config) (he : h.session.buffer.EOF = true)
    (op : TransferSession.Op) :
  (h.step config op).session.buffer.EOF = true ∧ (h.step config op).log = h.log
  := by
  have hsame : h.SameUpload (h.step config op) := by
    cases op with
    | addChunk binaryData =>
        apply sameUpload_of_rejected
        rw [Buffer.addChunk, if_pos he]
    | setEndOfFile =>
        apply sameUpload_of_apply_eq rfl
        apply TransferSession.setEndOfFile_of_eof he
    | _ => apply h.sameUpload_step config _ rfl
  exact ⟨hsame.session.EOF.trans he, hsame.log⟩

end History

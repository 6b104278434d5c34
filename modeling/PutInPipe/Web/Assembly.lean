import PutInPipe.Web.Download
import PutInPipe.Web.Sender

/-!
# The assembled file

The slices of the file, one after the other, are the file. The page of a receiver assembles
the data it has stored in the order of the indices, and it commits only when it holds every
index up to the highest one it knows. Hence the blob it reports is the file, provided that
the data is right and that the page is told that the upload is finished only when it knows
all the chunks. `Admits` says so of each event.
-/

open TransferSessionDetails

/-! ### The slices of the file -/

theorem flatMap_take_drop {α : Type*} (data : List α) (m n : ℕ) :
  (List.range n).flatMap (fun i => (data.drop (i * m)).take m) = data.take (n * m)
  := by
  induction n with
  | zero => simp
  | succ n ih =>
      rw [List.range_succ, List.flatMap_append, ih, Nat.succ_mul, List.take_add]
      simp

namespace SessionSender

variable {config : Config} {file : SelectedFile}

/-- The slices before the first number without a slice make up the file. -/
theorem flatMap_slice (hlimit : 40 < config.transferSessionMaxChunkSize) {n : ℕ}
    (hn : hasSlice config file n = false) :
  (List.range n).flatMap (slice config file) = file.data
  := by
  have hsize : maxChunkSize config = config.transferSessionMaxChunkSize - 40 := by
    rw [maxChunkSize, if_neg (by omega), CRYPTO_OVERHEAD]
  have hslice : slice config file
      = fun i => (file.data.drop (i * (maxChunkSize config).toNat)).take
          (maxChunkSize config).toNat := rfl
  rw [hslice, flatMap_take_drop]
  apply List.take_of_length_le
  have hle : (file.data.length : ℤ) ≤ n * maxChunkSize config := by
    simp only [hasSlice, Bool.and_eq_false_iff, decide_eq_false_iff_not, not_le, not_lt] at hn
    apply hn.resolve_left
    omega
  have hcast : ((maxChunkSize config).toNat : ℤ) = maxChunkSize config := by
    apply Int.toNat_of_nonneg
    omega
  rw [← hcast, ← Int.natCast_mul] at hle
  apply Int.ofNat_le.mp hle

end SessionSender

/-! ### The stored data -/

namespace OrderedMap

theorem find?_set (m : OrderedMap ℕ Bytes) (k : ℕ) (v : Bytes) (k' : ℕ) :
  (m.set k v).find? k' = if k' = k then some v else m.find? k'
  := by
  have hmodify := m.find?_modify k (fun _ => v)
  cases hk : m.find? k with
  | none =>
      have hnone : (m.modify k fun _ => v).find? k = none := by
        rw [hmodify, if_pos rfl, hk]
        rfl
      rw [set, find?_tryEmplace v hnone, hmodify]
      split
      · rfl
      · rfl
  | some w =>
      have hsome : (m.modify k fun _ => v).find? k = some v := by
        rw [hmodify, if_pos rfl, hk]
        rfl
      rw [set, tryEmplace_of_some hsome, hmodify]
      split
      · next hk' =>
          rw [hk', hk]
          rfl
      · rfl

/-- A map that holds the values of `f` under the numbers from one to `n` lists them. -/
theorem flatMap_snd_entries {m : OrderedMap ℕ Bytes} {n : ℕ} {f : ℕ → Bytes}
    (hright : ∀ i data, m.find? i = some data → 1 ≤ i ∧ i ≤ n ∧ data = f (i - 1))
    (hall : ∀ i, 1 ≤ i → i ≤ n → i ∈ m.keys) :
  m.entries.flatMap Prod.snd = (List.range n).flatMap f
  := by
  have hkeys : m.keys = List.range' 1 n := by
    apply keys_eq
    · exact List.pairwise_lt_range'
    · intro i
      rw [List.mem_range'_1]
      constructor
      · intro hi
        obtain ⟨data, hdata⟩ := mem_keys.mp hi
        obtain ⟨h1, hn, -⟩ := hright i data hdata
        omega
      · intro hi
        apply hall i hi.1
        omega
  have hvalues := map_snd_entries (m := m) (f := fun i => f (i - 1))
    (fun i data hi => (hright i data hi).2.2)
  rw [List.flatMap_def, hvalues, hkeys, List.range'_eq_map_range, List.map_map, List.flatMap_def]
  congr 1
  apply List.map_congr_left
  intro i _
  simp

end OrderedMap

/-! ### The page -/

/-- What the page relies on: under an index it stores data that is `right` for it, and when
`final` holds of the highest index it knows, the right data up to that index make up the
`content`. -/
structure Delivers (right : ℕ → Bytes → Prop) (final : ℕ → Prop) (content : Bytes) :
    Prop where
  mono : ∀ {n n'}, n ≤ n' → final n → final n'
  assembled : ∀ {m : OrderedMap ℕ Bytes} {n}, final n →
    (∀ i data, m.find? i = some data → right i data) → (∀ i, 1 ≤ i → i ≤ n → i ∈ m.keys) →
    m.entries.flatMap Prod.snd = content

namespace SessionReceiver

variable {right : ℕ → Bytes → Prop} {final : ℕ → Prop} {content : Bytes}
  {s : SessionReceiver}

/-- The page has stored right data only, takes the upload for finished when it is final, and
has reported no blob but the content. -/
structure Sound (right : ℕ → Bytes → Prop) (final : ℕ → Prop) (content : Bytes)
    (s : SessionReceiver) : Prop where
  stored : ∀ i data, s.chunks.find? i = some data → right i data
  finished : s.uploadFinished = true → final s.highestKnownChunk
  timers : s.closeTimers = 0
  reports : ∀ r ∈ s.reports, ∀ blob savedToDisk, r.status = .ok (some blob) savedToDisk →
    blob = content

/-- What an event may tell the page. -/
def Admits (right : ℕ → Bytes → Prop) (final : ℕ → Prop)
    (decryptChunk : Bytes → Option Bytes) (s : SessionReceiver) : Event → Prop
  | .uploadFinished => final s.highestKnownChunk
  | .startInit state => state.uploadFinished = true → final state.currentChunk
  | .complete .ok => s.completeHandled = true ∨ final s.highestKnownChunk
  | .close => False
  | .awaited k _ result => ∀ f data decrypted, s.fetches[k]? = some f →
      result = .response 200 (some data) → decryptChunk data = some decrypted →
      right f.index decrypted
  | _ => True

namespace Sound

theorem mono {right' : ℕ → Bytes → Prop} {final' : ℕ → Prop} (h : s.Sound right final content)
    (hright : ∀ i data, right i data → right' i data) (hfinal : ∀ n, final n → final' n) :
  s.Sound right' final' content
  where
    stored i data hi := hright i data (h.stored i data hi)
    finished hf := hfinal _ (h.finished hf)
    timers := h.timers
    reports := h.reports

theorem oncomplete (h : s.Sound right final content) {status : ReceiveStatus}
    (hstatus : ∀ blob savedToDisk, status = .ok (some blob) savedToDisk → blob = content) :
  (s.oncomplete status).Sound right final content
  where
    stored := h.stored
    finished := h.finished
    timers := h.timers
    reports := by
      intro r hr
      obtain hr | hr := List.mem_append.mp hr
      · apply h.reports r hr
      · rw [List.mem_singleton.mp hr]
        apply hstatus

/-- A report of anything but success. -/
theorem oncomplete_of_failure (h : s.Sound right final content) {status : ReceiveStatus}
    (hstatus : status.isOk = false) :
  (s.oncomplete status).Sound right final content
  := by
  apply h.oncomplete
  intro blob savedToDisk hok
  rw [hok] at hstatus
  cases hstatus

/-- Whether the completion is handled, and whether the file is open, does not matter. -/
theorem handle (h : s.Sound right final content) :
  { s with completeHandled := true }.Sound right final content
  := ⟨h.stored, h.finished, h.timers, h.reports⟩

theorem closeWritable (h : s.Sound right final content) :
  s.closeWritable.Sound right final content
  := ⟨h.stored, h.finished, h.timers, h.reports⟩

/-- The page commits when it holds every index it knows and these are all. -/
theorem finishWithBlob (hd : Delivers right final content) (h : s.Sound right final content)
    (hfinal : final s.highestKnownChunk) (hmissing : s.computeMissingIndices = []) :
  s.finishWithBlob.Sound right final content
  := by
  rw [SessionReceiver.finishWithBlob]
  split
  · apply h
  simp only
  split
  · apply closeWritable
    apply h.handle.oncomplete
    intro blob savedToDisk hok
    cases hok
  · next hw =>
      apply h.handle.oncomplete
      intro blob savedToDisk hok
      rw [ReceiveStatus.ok.injEq, assembleFile] at hok
      obtain ⟨hblob, -⟩ := hok
      split at hblob
      · cases hblob
      · obtain rfl := Option.some.inj hblob
        apply hd.assembled hfinal h.stored
        intro i h1 hn
        have hheld := computeMissingIndices_eq_nil.mp hmissing i h1 hn
        rw [held, if_neg hw] at hheld
        apply List.mem_toFinset.mp hheld

theorem finalizeStrict (hd : Delivers right final content) (h : s.Sound right final content)
    (hfinal : s.completeHandled = true ∨ final s.highestKnownChunk) :
  s.finalizeStrict.Sound right final content
  := by
  rw [SessionReceiver.finalizeStrict]
  split
  · apply h
  · next hc =>
      simp only
      split
      · apply closeWritable
        apply h.handle.oncomplete_of_failure rfl
      · next hmissing =>
          apply h.finishWithBlob hd (hfinal.resolve_left hc)
          apply List.eq_nil_of_length_eq_zero
          omega

theorem checkIfDone (hd : Delivers right final content) (h : s.Sound right final content) :
  s.checkIfDone.Sound right final content
  := by
  rw [SessionReceiver.checkIfDone]
  split_ifs with hc hf
  all_goals first
    | exact h
    | skip
  apply h.finalizeStrict hd
  right
  apply h.finished
  simpa using hf

theorem kept (hd : Delivers right final content) :
  Kept right (Sound right final content)
  where
    progress s t hp h := by
      constructor
      · rw [hp.chunks]
        apply h.stored
      · rw [hp.uploadFinished]
        exact fun hf => hd.mono hp.highestKnownChunk (h.finished hf)
      · rw [hp.closeTimers, h.timers]
      · rw [hp.reports]
        apply h.reports
    store s index data hright h := by
      refine ⟨?_, h.finished, h.timers, h.reports⟩
      intro i data' hi
      rw [OrderedMap.find?_set] at hi
      split at hi
      · next hindex =>
          obtain rfl := Option.some.inj hi
          rw [hindex]
          apply hright
      · apply h.stored i data' hi
    checkIfDone s h := h.checkIfDone hd

/-- The page stays sound as long as the events tell it what they may. -/
theorem step (hd : Delivers right final content) (h : s.Sound right final content)
    {decryptChunk : Bytes → Option Bytes} {e : Event}
    (he : s.Admits right final decryptChunk e) :
  (s.step decryptChunk e).Sound right final content
  := by
  cases e with
  | fileInfo info =>
      rw [SessionReceiver.step, onFileInfo]
      simp only
      split
      · exact ⟨h.stored, h.finished, h.timers, h.reports⟩
      · exact ⟨h.stored, h.finished, h.timers, h.reports⟩
  | uploadFinished =>
      apply checkIfDone hd
      exact ⟨h.stored, fun _ => he, h.timers, h.reports⟩
  | newChunk index => apply (kept hd).fetchLoop h
  | chunkDownload finished =>
      rw [SessionReceiver.step, onChunkDownload]
      split
      · apply checkIfDone hd
        exact ⟨h.stored, h.finished, h.timers, h.reports⟩
      · apply h
  | personalReceived => apply h.checkIfDone hd
  | complete status =>
      cases status with
      | ok =>
          simp only [SessionReceiver.step, onSessionComplete]
          split
          · apply h
          · apply h.finalizeStrict hd he
      | _ =>
          simp only [SessionReceiver.step, onSessionComplete]
          split
          · apply h
          · apply h.handle.oncomplete_of_failure rfl
  | kicked =>
      rw [SessionReceiver.step, onKicked]
      split
      · apply h
      · apply closeWritable
        apply h.handle.oncomplete_of_failure rfl
  | startInit state =>
      apply (kept hd).fetchLoop
      refine ⟨h.stored, ?_, h.timers, h.reports⟩
      intro hf
      obtain hf | hf := (Bool.or_eq_true _ _).mp hf
      · apply hd.mono (le_max_left _ _) (h.finished hf)
      · apply hd.mono (le_max_right _ _) (he hf)
  | close => cases he
  | closeTimer =>
      rw [SessionReceiver.step, onCloseTimer, if_pos h.timers]
      apply h
  | saveDialog chosen =>
      rw [SessionReceiver.step, onSaveDialog]
      split
      · exact ⟨h.stored, h.finished, h.timers, h.reports⟩
      · apply h
  | awaited k isConnected result =>
      rw [SessionReceiver.step]
      split
      · apply h
      · next f hf =>
          apply (kept hd).resume
          · exact ⟨h.stored, h.finished, h.timers, h.reports⟩
          · intro data decrypted hresult hdecrypted
            apply he f data decrypted hf hresult hdecrypted
  | leave =>
      rw [SessionReceiver.step, handleLeave]
      apply h.handle.oncomplete_of_failure rfl

/-- A page is sound once it is loaded with the state of the server. -/
theorem create (hd : Delivers right final content) (hasFSAccess : Bool) {state : ServerState}
    (fileInfo : Option FileInfo)
    (hstate : state.uploadFinished = true → final state.currentChunk) :
  (SessionReceiver.create hasFSAccess state fileInfo).Sound right final content
  := by
  have hempty : Sound right final content {
      hasFSAccess
      fileInfo
      uploadFinished := state.uploadFinished
      highestKnownChunk := state.chunks.foldl max state.currentChunk } := by
    refine ⟨?_, ?_, rfl, List.forall_mem_nil _⟩
    · intro i data hi
      cases hi
    · intro hf
      rw [List.foldl_max]
      apply hd.mono (le_max_left _ _) (hstate hf)
  apply (kept hd).fetchLoop
  simp only [markUnrecoverable]
  split
  · exact ⟨hempty.stored, hempty.finished, hempty.timers, hempty.reports⟩
  · exact ⟨hempty.stored, hempty.finished, hempty.timers, hempty.reports⟩

end Sound

end SessionReceiver

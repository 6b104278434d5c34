import PutInPipe.Web.Receiver

/-!
# The receiver reports success only with all the data

`finalizeStrict` looks for missing chunks before it commits, and every way to the result
`ok` goes through it but one: the timer that runs after the connection is closed commits
when the upload is finished and there is any data at all.
-/

open TransferSessionDetails

/-- A report of success is made with all chunks at hand. -/
def Report.Complete (r : Report) : Prop :=
  r.status.isOk = true → ∀ i, 1 ≤ i → i ≤ r.highestKnownChunk → i ∈ r.held

namespace SessionReceiver

variable {s t : SessionReceiver}

def ReportsComplete (s : SessionReceiver) : Prop := ∀ r ∈ s.reports, r.Complete

/-- The timer commits although a chunk is missing. -/
def CommitsWithGap (s : SessionReceiver) : Event → Prop
  | .closeTimer => s.closeTimers ≠ 0 ∧ s.completeHandled = false ∧ s.uploadFinished = true
      ∧ 0 < s.haveCount ∧ ∃ i, 1 ≤ i ∧ i ≤ s.highestKnownChunk ∧ i ∉ s.held
  | _ => False

/-! ### What the downloads keep -/

/-- From `s` to `t` only the bookkeeping of the downloads has changed, and more chunks may be
known. -/
structure Progress (s t : SessionReceiver) : Prop where
  chunks : t.chunks = s.chunks
  uploadFinished : t.uploadFinished = s.uploadFinished
  completeHandled : t.completeHandled = s.completeHandled
  closeTimers : t.closeTimers = s.closeTimers
  reports : t.reports = s.reports
  highestKnownChunk : s.highestKnownChunk ≤ t.highestKnownChunk

/-- The downloads keep a property that their bookkeeping keeps, that holds on when the right
data is stored, and that `checkIfDone` keeps. -/
structure Kept (right : ℕ → Bytes → Prop) (I : SessionReceiver → Prop) : Prop where
  progress : ∀ s t, s.Progress t → I s → I t
  store : ∀ s index data, right index data → I s →
    I { s with chunks := s.chunks.set index data }
  checkIfDone : ∀ s, I s → I s.checkIfDone

namespace Kept

variable {right : ℕ → Bytes → Prop} {I : SessionReceiver → Prop}

/-- The bookkeeping of a download that leaves the known chunks alone. -/
theorem same (hI : Kept right I) (h : I s) (hchunks : t.chunks = s.chunks)
    (hfinished : t.uploadFinished = s.uploadFinished)
    (hhandled : t.completeHandled = s.completeHandled)
    (htimers : t.closeTimers = s.closeTimers) (hreports : t.reports = s.reports)
    (hhighest : t.highestKnownChunk = s.highestKnownChunk) :
  I t
  := by
  apply hI.progress s t _ h
  exact ⟨hchunks, hfinished, hhandled, htimers, hreports, hhighest.ge⟩

theorem await (hI : Kept right I) (h : I s) (f : Fetch) :
  I (s.await f)
  := hI.same h rfl rfl rfl rfl rfl rfl

theorem raiseKnown (hI : Kept right I) (h : I s) (check : Bool) (index : ℕ) :
  I (s.raiseKnown check index)
  := by
  rw [SessionReceiver.raiseKnown]
  split
  · apply hI.progress s _ _ h
    exact ⟨rfl, rfl, rfl, rfl, rfl, le_max_left _ _⟩
  · apply h

theorem fetchLoop (hI : Kept right I) (h : I s) (check : Bool) (rest : List ℕ) :
  I (s.fetchLoop check rest)
  := by
  induction rest generalizing s with
  | nil =>
      rw [SessionReceiver.fetchLoop]
      split
      · apply hI.checkIfDone s h
      · apply h
  | cons index rest ih =>
      have hraised := hI.raiseKnown h check index
      rw [SessionReceiver.fetchLoop]
      split
      · apply hI.await hraised
      split
      · apply ih hraised
      · apply hI.await
        apply hI.same hraised <;> rfl

theorem goOn (hI : Kept right I) (h : I s) (f : Fetch) :
  I (s.goOn f)
  := hI.fetchLoop h f.check f.rest

theorem confirm (hI : Kept right I) (h : I s) (f : Fetch) (attempt : ℕ) (isConnected : Bool) :
  I (s.confirm f attempt isConnected)
  := by
  rw [SessionReceiver.confirm]
  simp only
  split
  · apply hI.goOn
    apply hI.same h <;> rfl
  · apply hI.await
    apply hI.same h <;> rfl

theorem drain (hI : Kept right I) (h : I s) (f : Fetch) (attempt : ℕ) (isConnected : Bool) :
  I (s.drain f attempt isConnected)
  := by
  rw [SessionReceiver.drain]
  split
  · split
    · apply hI.await h
    · apply hI.await h
  · apply hI.confirm
    apply hI.same h <;> rfl

theorem stored (hI : Kept right I) (h : I s) (f : Fetch) (attempt : ℕ) {data : Bytes}
    (hright : right f.index data) (isConnected : Bool) :
  I (s.store f attempt data isConnected)
  := by
  rw [SessionReceiver.store]
  split
  · split
    · apply hI.await h
    · apply hI.confirm
      apply hI.same h <;> rfl
  · apply hI.confirm
    apply hI.store s f.index data hright h

/-- A download goes on, whatever it waited for, provided that what it gets is right. -/
theorem resume (hI : Kept right I) (h : I s) {decryptChunk : Bytes → Option Bytes} (f : Fetch)
    (isConnected : Bool) (result : Awaited)
    (hright : ∀ data decrypted, result = .response 200 (some data) →
      decryptChunk data = some decrypted → right f.index decrypted) :
  I (s.resume decryptChunk f isConnected result)
  := by
  cases result with
  | response status data =>
      simp only [SessionReceiver.resume]
      split
      · split
        · rename_i data
          split
          · rename_i decrypted hdecrypted
            apply hI.stored h
            apply hright data decrypted rfl hdecrypted
          · apply hI.await h
        · apply hI.goOn
          apply hI.same h <;> rfl
        · apply hI.await h
      · apply hI.await h
  | resolved =>
      simp only [SessionReceiver.resume]
      split
      · split
        · apply hI.await h
        split
        · apply hI.goOn h
        · apply hI.await
          apply hI.same h <;> rfl
      · apply hI.await h
      · apply hI.drain
        apply hI.same h <;> rfl
      · apply hI.drain
        apply hI.same h <;> rfl
      · apply hI.goOn
        apply hI.same h <;> rfl
      · split
        · apply hI.await h
        · apply hI.goOn
          apply hI.same h <;> rfl
  | rejected =>
      simp only [SessionReceiver.resume]
      split
      · apply hI.await h
      · apply hI.await h
      · apply hI.await h
      · apply hI.await h

end Kept

/-! ### Completion -/

/-- From `s` to `t` the page may have reported and closed the file. -/
def Reported (s t : SessionReceiver) : Prop :=
  ∃ completeHandled writable reports, t = { s with completeHandled, writable, reports }

theorem reported_finishWithBlob (s : SessionReceiver) :
  s.Reported s.finishWithBlob
  := by
  rw [finishWithBlob]
  split
  · exact ⟨_, _, _, rfl⟩
  simp only
  split
  · exact ⟨_, _, _, rfl⟩
  · exact ⟨_, _, _, rfl⟩

theorem reported_checkIfDone (s : SessionReceiver) :
  s.Reported s.checkIfDone
  := by
  rw [checkIfDone]
  split_ifs
  all_goals try exact ⟨_, _, _, rfl⟩
  rw [finalizeStrict]
  split
  · exact ⟨_, _, _, rfl⟩
  simp only
  split
  · exact ⟨_, _, _, rfl⟩
  · apply reported_finishWithBlob

theorem reportsComplete_oncomplete {status : ReceiveStatus} :
  (s.oncomplete status).ReportsComplete
    ↔ s.ReportsComplete ∧ Report.Complete ⟨status, s.highestKnownChunk, s.held⟩
  := by
  simp only [ReportsComplete, oncomplete, List.forall_mem_append, List.forall_mem_singleton]

theorem reportsComplete_oncomplete_of_failure (h : s.ReportsComplete) {status : ReceiveStatus}
    (hstatus : status.isOk = false) :
  (s.oncomplete status).ReportsComplete
  := by
  apply reportsComplete_oncomplete.mpr ⟨h, _⟩
  intro hok
  rw [hstatus] at hok
  cases hok

theorem computeMissingIndices_eq_nil :
  s.computeMissingIndices = [] ↔ ∀ i, 1 ≤ i → i ≤ s.highestKnownChunk → i ∈ s.held
  := by
  rw [computeMissingIndices]
  split
  · rename_i h0
    simp only [true_iff]
    omega
  · rw [List.filter_eq_nil_iff]
    simp only [List.mem_range'_1, decide_eq_true_eq, not_not]
    constructor
    · intro h i h1 hmax
      apply h i ⟨h1, by omega⟩
    · intro h i hi
      apply h i hi.1 (by omega)

/-- The page commits with all the data exactly when no index is missing. -/
theorem reportsComplete_finishWithBlob (h : s.ReportsComplete) (hc : s.completeHandled = false) :
  s.finishWithBlob.ReportsComplete ↔ s.computeMissingIndices = []
  := by
  rw [computeMissingIndices_eq_nil, finishWithBlob, if_neg (by simp [hc])]
  have hok : ∀ {status : ReceiveStatus}, status.isOk = true →
      (({ s with completeHandled := true }.oncomplete status).ReportsComplete
        ↔ ∀ i, 1 ≤ i → i ≤ s.highestKnownChunk → i ∈ s.held) := by
    intro status hstatus
    rw [reportsComplete_oncomplete]
    simp only [Report.Complete, hstatus, forall_const]
    exact ⟨fun hr => hr.2, fun hheld => ⟨h, hheld⟩⟩
  simp only
  split
  · apply hok rfl
  · apply hok rfl

theorem reportsComplete_finalizeStrict (h : s.ReportsComplete) :
  s.finalizeStrict.ReportsComplete
  := by
  rw [finalizeStrict]
  split
  · apply h
  · rename_i hc
    have hc' : s.completeHandled = false := Bool.eq_false_of_not_eq_true hc
    simp only
    split
    · apply reportsComplete_oncomplete_of_failure h rfl
    · rename_i hmissing
      apply (reportsComplete_finishWithBlob h hc').mpr
      apply List.eq_nil_of_length_eq_zero
      omega

theorem reportsComplete_checkIfDone (h : s.ReportsComplete) :
  s.checkIfDone.ReportsComplete
  := by
  rw [checkIfDone]
  split_ifs
  all_goals first
    | exact h
    | exact reportsComplete_finalizeStrict h

theorem kept_reportsComplete :
  Kept (fun _ _ => True) ReportsComplete
  where
    progress _ _ hp h := by
      rw [ReportsComplete, hp.reports]
      apply h
    store _ _ _ _ h := h
    checkIfDone _ h := reportsComplete_checkIfDone h

/-! ### The handlers -/

theorem reportsComplete_onSessionComplete (h : s.ReportsComplete)
    (status : TransferSessionCompleteType) :
  (s.onSessionComplete status).ReportsComplete
  := by
  cases status with
  | ok =>
      simp only [onSessionComplete]
      split
      · apply h
      · apply reportsComplete_finalizeStrict h
  | _ =>
      simp only [onSessionComplete]
      split
      · apply h
      · apply reportsComplete_oncomplete_of_failure h rfl

/-- The timer is the only handler that may commit with a gap. -/
theorem reportsComplete_onCloseTimer (h : s.ReportsComplete) :
  s.onCloseTimer.ReportsComplete ↔ ¬ s.CommitsWithGap .closeTimer
  := by
  rw [onCloseTimer, CommitsWithGap]
  split
  · rename_i h0
    apply iff_of_true h fun hgap => hgap.1 h0
  rename_i h0
  simp only
  split
  · rename_i hc
    apply iff_of_true h
    rintro ⟨-, hc', -⟩
    rw [hc] at hc'
    cases hc'
  rename_i hc
  have hc' : s.completeHandled = false := Bool.eq_false_of_not_eq_true hc
  split
  · rename_i hdata
    simp only [gt_iff_lt, Bool.and_eq_true, decide_eq_true_eq] at hdata
    have hsame : ReportsComplete { s with closeTimers := s.closeTimers - 1 } := h
    rw [reportsComplete_finishWithBlob hsame hc', computeMissingIndices_eq_nil]
    constructor
    · rintro hheld ⟨-, -, -, -, i, h1, hmax, hi⟩
      apply hi (hheld i h1 hmax)
    · intro hno i h1 hmax
      by_contra hi
      apply hno ⟨h0, hc', hdata.1, hdata.2, i, h1, hmax, hi⟩
  · rename_i hdata
    apply iff_of_true
    · apply reportsComplete_oncomplete_of_failure _ rfl
      apply h
    · rintro ⟨-, -, hfinished, hheld, -⟩
      apply hdata
      simp only [gt_iff_lt, Bool.and_eq_true, decide_eq_true_eq]
      exact ⟨hfinished, hheld⟩

/-- An event keeps the reports complete exactly when it is not the timer that commits with a
gap. -/
theorem reportsComplete_step (h : s.ReportsComplete) (decryptChunk : Bytes → Option Bytes)
    (e : Event) :
  (s.step decryptChunk e).ReportsComplete ↔ ¬ s.CommitsWithGap e
  := by
  cases e with
  | closeTimer => apply reportsComplete_onCloseTimer h
  | fileInfo info =>
      apply iff_of_true _ id
      rw [step, onFileInfo]
      simp only
      split <;> exact h
  | uploadFinished =>
      apply iff_of_true _ id
      apply reportsComplete_checkIfDone
      apply h
  | newChunk index => exact iff_of_true (kept_reportsComplete.fetchLoop h true [index]) id
  | chunkDownload finished =>
      apply iff_of_true _ id
      rw [step, onChunkDownload]
      split
      · apply reportsComplete_checkIfDone
        apply h
      · apply h
  | personalReceived => exact iff_of_true (reportsComplete_checkIfDone h) id
  | complete status => exact iff_of_true (reportsComplete_onSessionComplete h status) id
  | kicked =>
      apply iff_of_true _ id
      rw [step, onKicked]
      split
      · apply h
      · apply reportsComplete_oncomplete_of_failure _ rfl
        apply h
  | startInit state =>
      apply iff_of_true _ id
      apply kept_reportsComplete.fetchLoop
      apply h
  | close =>
      apply iff_of_true _ id
      rw [step, onWsClose]
      split <;> exact h
  | saveDialog chosen =>
      apply iff_of_true _ id
      rw [step, onSaveDialog]
      split <;> exact h
  | awaited k isConnected result =>
      apply iff_of_true _ id
      rw [step]
      split
      · apply h
      · apply kept_reportsComplete.resume
        · apply h
        · exact fun _ _ _ _ => trivial
  | leave =>
      apply iff_of_true _ id
      apply reportsComplete_oncomplete_of_failure _ rfl
      apply h

theorem reportsComplete_create (hasFSAccess : Bool) (state : ServerState)
    (fileInfo : Option FileInfo) :
  (create hasFSAccess state fileInfo).ReportsComplete
  := by
  apply kept_reportsComplete.fetchLoop
  simp only [markUnrecoverable]
  split <;> exact List.forall_mem_nil _

/-- In every run the page reports success only with all the data, exactly when the timer
never commits with a gap. -/
theorem reportsComplete_iff (decryptChunk : Bytes → Option Bytes) (hasFSAccess : Bool)
    (state : ServerState) (fileInfo : Option FileInfo) (events : List Event) :
  Machine.EveryState (step decryptChunk) ReportsComplete
      (create hasFSAccess state fileInfo) events
    ↔ Machine.EveryStep (step decryptChunk) (fun s e => ¬ s.CommitsWithGap e)
        (create hasFSAccess state fileInfo) events
  := by
  apply Machine.everyState_iff_everyStep_of_step
  · intro s e h
    apply reportsComplete_step h
  · apply reportsComplete_create

/-- The second chunk is still being downloaded when the connection is closed. -/
def closedWithGap : List Event :=
  [.newChunk 1, .awaited 0 true (.response 200 (some [1])), .newChunk 2, .uploadFinished,
    .close, .closeTimer]

/-- After that run the page has reported success without the second chunk. -/
theorem not_reportsComplete_closedWithGap :
  ¬ ∀ (decryptChunk : Bytes → Option Bytes) (hasFSAccess : Bool) (state : ServerState)
      (fileInfo : Option FileInfo) (events : List Event),
      Machine.EveryState (step decryptChunk) ReportsComplete
        (create hasFSAccess state fileInfo) events
  := by
  intro h
  have hlast := (h some false {} none closedWithGap).last
  have hreport : ⟨.ok none false, 2, {1}⟩
      ∈ (Machine.run (step some) (create false {} none) closedWithGap).reports := by
    decide
  have hheld := hlast _ hreport rfl 2 (by decide) (by decide)
  revert hheld
  decide

end SessionReceiver

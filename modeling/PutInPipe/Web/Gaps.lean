import PutInPipe.Library.Threads
import PutInPipe.Web.Assembly
import PutInPipe.Web.Knowledge

/-!
# The chunks nobody will deliver

When the page connects it takes the chunks below the lowest one in the buffer of the server for
lost, and fetches those that are in the buffer. The server removes its chunks in any order, so
that the buffer may have a gap above its lowest chunk. A chunk in a gap that the page does not
hold is neither fetched nor marked as failed, and `checkIfDone` waits for it.
-/

/-- The lowest chunk in the buffer of the server, or the one that comes next. -/
def ServerState.minBuf (state : ServerState) : ℕ :=
  state.chunks.min?.getD (state.currentChunk + 1)

/-- The chunk is missing above the lowest one. -/
def ServerState.Gap (state : ServerState) (i : ℕ) : Prop :=
  1 ≤ i ∧ state.minBuf ≤ i ∧ i ≤ state.currentChunk ∧ i ∉ state.chunks

open TransferSessionDetails

namespace SessionReceiver

variable {s : SessionReceiver} {held : Finset ℕ} {i : ℕ} {I : Set ℕ}

/-- The chunk is among those the page holds, has failed, or is being fetched or about to be. -/
def Accounts (s : SessionReceiver) (held : Finset ℕ) (i : ℕ) : Prop :=
  i ∈ held ∨ i ∈ s.failedChunks ∨ i ∈ s.pendingFetches ∨ ∃ f ∈ s.fetches, i ∈ f.index :: f.rest

/-- `checkIfDone` waits because of the number of the chunks. -/
def Blocked (s : SessionReceiver) : Prop :=
  s.haveCount + s.failedChunks.card < s.highestKnownChunk

instance (s : SessionReceiver) : Decidable s.Blocked :=
  inferInstanceAs (Decidable (s.haveCount + s.failedChunks.card < s.highestKnownChunk))

/-! ### The state of the server -/

/-- The chunks a page holds, has failed or fetches. -/
def downloads (s : SessionReceiver) : Finset ℕ × Finset ℕ × List Fetch :=
  (s.failedChunks, s.pendingFetches, s.fetches)

theorem downloads_checkIfDone (s : SessionReceiver) :
  s.checkIfDone.downloads = s.downloads
  := by
  obtain ⟨_, _, _, heq⟩ := s.reported_checkIfDone
  rw [heq]
  rfl

theorem accounts_congr {s t : SessionReceiver} (h : t.downloads = s.downloads) :
  t.Accounts held i ↔ s.Accounts held i
  := by
  simp only [downloads, Prod.mk.injEq] at h
  rw [Accounts, Accounts, h.1, h.2.1, h.2.2]

/-- A waiting download accounts for its chunk and for those its caller goes on with. -/
theorem accounts_await (s : SessionReceiver) (f : Fetch) :
  (s.await f).Accounts held i ↔ s.Accounts held i ∨ i ∈ f.index :: f.rest
  := by
  simp only [Accounts, await, List.mem_append, List.mem_singleton, or_and_right, exists_or,
    exists_eq_left, or_assoc]

theorem accounts_insert (s : SessionReceiver) (index : ℕ) :
  { s with pendingFetches := insert index s.pendingFetches }.Accounts held i ↔
    s.Accounts held i ∨ i = index
  := by
  simp only [Accounts, Finset.mem_insert]
  constructor
  · rintro (h | h | (h | h) | h)
    · apply Or.inl (Or.inl h)
    · apply Or.inl (Or.inr (Or.inl h))
    · apply Or.inr h
    · apply Or.inl (Or.inr (Or.inr (Or.inl h)))
    · apply Or.inl (Or.inr (Or.inr (Or.inr h)))
  · rintro ((h | h | h | h) | h)
    · apply Or.inl h
    · apply Or.inr (Or.inl h)
    · apply Or.inr (Or.inr (Or.inl (Or.inr h)))
    · apply Or.inr (Or.inr (Or.inr h))
    · apply Or.inr (Or.inr (Or.inl (Or.inl h)))

theorem held_raiseKnown (s : SessionReceiver) (check : Bool) (index : ℕ) :
  (s.raiseKnown check index).held = s.held
  := by
  rw [raiseKnown]
  split <;> rfl

theorem downloads_raiseKnown (s : SessionReceiver) (check : Bool) (index : ℕ) :
  (s.raiseKnown check index).downloads = s.downloads
  := by
  rw [raiseKnown]
  split <;> rfl

/-- The loop accounts for the chunks it is given, and for no others. -/
theorem accounts_fetchLoop (s : SessionReceiver) (check : Bool) (rest : List ℕ) (i : ℕ) :
  (s.fetchLoop check rest).Accounts s.held i ↔ s.Accounts s.held i ∨ i ∈ rest
  := by
  induction rest generalizing s with
  | nil =>
    rw [fetchLoop]
    simp only [List.not_mem_nil, or_false]
    split
    · apply accounts_congr s.downloads_checkIfDone
    · rfl
  | cons index rest ih =>
    have hraise : (s.raiseKnown check index).Accounts s.held i ↔ s.Accounts s.held i :=
      accounts_congr (s.downloads_raiseKnown check index)
    rw [fetchLoop]
    split
    · rw [accounts_await, hraise]
    split
    · rename_i hknown
      have hindex : s.Accounts s.held index := by
        rw [← accounts_congr (s.downloads_raiseKnown check index)]
        rw [held_raiseKnown, Bool.or_eq_true, decide_eq_true_eq, decide_eq_true_eq] at hknown
        apply hknown.imp_right fun h => Or.inr (Or.inl h)
      have hrest := ih (s.raiseKnown check index)
      rw [held_raiseKnown, hraise] at hrest
      rw [hrest, List.mem_cons]
      constructor
      · apply Or.imp_right Or.inr
      · rintro (h | rfl | h)
        · apply Or.inl h
        · apply Or.inl hindex
        · apply Or.inr h
    · rw [accounts_await, accounts_insert, hraise, or_assoc]
      simp only [List.mem_cons, or_self_left]

/-! ### What a message leaves out -/

/-- The chunks below the buffer are accounted for. -/
theorem accounts_markUnrecoverable (s : SessionReceiver) (state : ServerState) (i : ℕ) :
  (s.markUnrecoverable state).Accounts s.held i ↔
    s.Accounts s.held i ∨ 1 ≤ i ∧ i < state.minBuf
  := by
  simp only [Accounts, markUnrecoverable, Finset.mem_union, Finset.mem_filter, Finset.mem_Ico]
  rw [← ServerState.minBuf]
  by_cases hi : i ∈ s.held
  · simp only [hi, true_or]
  · simp only [hi, not_false_iff, and_true, false_or, or_assoc, or_left_comm, or_comm]

theorem accounts_onReconnectInit (s : SessionReceiver) (state : ServerState) (i : ℕ) :
  (s.onReconnectInit state).Accounts s.held i ↔
    s.Accounts s.held i ∨ 1 ≤ i ∧ i < state.minBuf ∨ i ∈ state.chunks
  := by
  rw [onReconnectInit, ← or_assoc]
  apply (accounts_fetchLoop _ true state.chunks i).trans
  apply or_congr_left
  apply accounts_markUnrecoverable _ state i

theorem accounts_create (hasFSAccess : Bool) (state : ServerState) (fileInfo : Option FileInfo)
  (i : ℕ) :
  (create hasFSAccess state fileInfo).Accounts ∅ i ↔
    1 ≤ i ∧ i < state.minBuf ∨ i ∈ state.chunks
  := by
  have hempty : ∀ s : SessionReceiver, s.writable = false → s.chunks = .empty →
      s.downloads = (∅, ∅, []) →
      (((s.markUnrecoverable state).fetchLoop false state.chunks).Accounts ∅ i ↔
        1 ≤ i ∧ i < state.minBuf ∨ i ∈ state.chunks) := by
    intro s hwritable hchunks hdownloads
    have hheld : s.held = ∅ := by
      rw [held, hwritable, hchunks]
      rfl
    have hnone : ¬s.Accounts ∅ i := by
      simp only [downloads, Prod.mk.injEq] at hdownloads
      simp [Accounts, hdownloads]
    have hloop := accounts_fetchLoop (s.markUnrecoverable state) false state.chunks i
    have hmark := accounts_markUnrecoverable s state i
    have hkeep : (s.markUnrecoverable state).held = s.held := rfl
    rw [hkeep, hheld] at hloop
    rw [hheld] at hmark
    rw [hloop, hmark]
    simp only [hnone, false_or]
  rw [create]
  apply hempty
  all_goals split <;> rfl

/-- What the message itself accounts for is everything but the gaps. -/
theorem forall_accounted_iff {P : ℕ → Prop} (state : ServerState) :
  (∀ i, 1 ≤ i → i ≤ state.currentChunk →
      P i ∨ 1 ≤ i ∧ i < state.minBuf ∨ i ∈ state.chunks) ↔
    ∀ i, state.Gap i → P i
  := by
  constructor
  · rintro h i ⟨h1, hmin, hi, hnew⟩
    obtain hP | ⟨-, hlt⟩ | hlisted := h i h1 hi
    · apply hP
    · omega
    · exact absurd hlisted hnew
  · intro h i h1 hi
    by_cases hlisted : i ∈ state.chunks
    · apply Or.inr (Or.inr hlisted)
    obtain hlt | hmin := Nat.lt_or_ge i state.minBuf
    · apply Or.inr (Or.inl ⟨h1, hlt⟩)
    · apply Or.inl (h i ⟨h1, hmin, hi, hlisted⟩)

/-! ### Until the downloads have ended -/

/-- A chunk that waits for its confirmation is held, and who writes has a file. -/
def Fits (s : SessionReceiver) (f : Fetch) : Prop :=
  match f.phase with
  | .confirming _ => f.index ∈ s.held
  | .writing _ _ | .draining _ _ => s.writable = true
  | _ => True

def Consistent (s : SessionReceiver) : Prop := ∀ f ∈ s.fetches, s.Fits f

/-- The page has reported, or the chunks are accounted for. -/
def Tracks (I : Set ℕ) (s : SessionReceiver) : Prop :=
  s.completeHandled = true ∨ s.Consistent ∧ ∀ i ∈ I, s.Accounts s.held i

/-- The download `f` has been taken out, and with it the chunks are accounted for. -/
structure Without (f : Fetch) (I : Set ℕ) (s : SessionReceiver) : Prop where
  consistent : s.Consistent
  accounts : ∀ i ∈ I, s.Accounts s.held i ∨ i ∈ f.index :: f.rest

theorem Fits.mono {t : SessionReceiver} {f : Fetch} (h : s.Fits f)
  (hwritable : t.writable = s.writable) (hheld : s.held ⊆ t.held) :
  t.Fits f
  := by
  rw [Fits] at h ⊢
  rw [hwritable]
  split at h
  · apply hheld h
  · apply h
  · apply h
  · trivial

theorem Accounts.mono {t : SessionReceiver} {held' : Finset ℕ} (h : s.Accounts held i)
  (hdownloads : t.downloads = s.downloads) (hheld : held ⊆ held') :
  t.Accounts held' i
  := by
  rw [accounts_congr hdownloads]
  apply h.imp_left fun hi => hheld hi

theorem Consistent.mono {t : SessionReceiver} (h : s.Consistent)
  (hfetches : t.fetches = s.fetches) (hwritable : t.writable = s.writable)
  (hheld : s.held ⊆ t.held) :
  t.Consistent
  := by
  intro f hf
  rw [hfetches] at hf
  apply (h f hf).mono hwritable hheld

theorem Consistent.await {f : Fetch} (h : s.Consistent) (hf : s.Fits f) :
  (s.await f).Consistent
  := by
  intro g hg
  obtain hg | hg := List.mem_append.1 hg
  · apply h g hg
  · rw [List.mem_singleton.1 hg]
    apply hf

theorem checkIfDone_eq_or (s : SessionReceiver) :
  s.checkIfDone = s ∨ s.checkIfDone.completeHandled = true
  := by
  rw [checkIfDone]
  split_ifs
  all_goals first
    | exact Or.inl rfl
    | exact Or.inr s.le_knowledge_finalizeStrict.2

theorem Tracks.checkIfDone (h : s.Tracks I) :
  s.checkIfDone.Tracks I
  := by
  obtain heq | hdone := s.checkIfDone_eq_or
  · rw [heq]
    apply h
  · apply Or.inl hdone

/-- A page that has reported stays so. -/
theorem Tracks.of_knowledge {t : SessionReceiver} (h : s.completeHandled = true)
  (hle : s.knowledge ≤ t.knowledge) :
  t.Tracks I
  := Or.inl (hle.2 h)

theorem Tracks.mono {t : SessionReceiver} (h : s.Tracks I) (hdownloads : t.downloads = s.downloads)
  (hhandled : s.completeHandled = true → t.completeHandled = true)
  (hwritable : t.writable = s.writable) (hheld : s.held ⊆ t.held) :
  t.Tracks I
  := by
  refine h.imp hhandled ?_
  rintro ⟨hs, hi⟩
  refine ⟨hs.mono ?_ hwritable hheld, fun i h => (hi i h).mono hdownloads hheld⟩
  apply congrArg (fun d => d.2.2) hdownloads

theorem Consistent.raiseKnown (h : s.Consistent) (check : Bool) (index : ℕ) :
  (s.raiseKnown check index).Consistent
  := by
  apply h.mono
  · apply congrArg (fun d => d.2.2) (s.downloads_raiseKnown check index)
  · rw [SessionReceiver.raiseKnown]
    split <;> rfl
  · rw [held_raiseKnown]

/-- The loop leaves the held chunks alone, unless the page reports at its end. -/
theorem Consistent.fetchLoop (h : s.Consistent) (check : Bool) (rest : List ℕ) :
  (s.fetchLoop check rest).completeHandled = true ∨
    (s.fetchLoop check rest).Consistent ∧ (s.fetchLoop check rest).held = s.held
  := by
  induction rest generalizing s with
  | nil =>
    rw [SessionReceiver.fetchLoop]
    split
    · obtain heq | hdone := s.checkIfDone_eq_or
      · rw [heq]
        apply Or.inr ⟨h, rfl⟩
      · apply Or.inl hdone
    · apply Or.inr ⟨h, rfl⟩
  | cons index rest ih =>
    have hraised := h.raiseKnown check index
    have hheld := s.held_raiseKnown check index
    rw [SessionReceiver.fetchLoop]
    split
    · refine Or.inr ⟨hraised.await trivial, ?_⟩
      apply hheld
    split
    · rw [← hheld]
      apply ih hraised
    · refine Or.inr ⟨Consistent.await ?_ trivial, ?_⟩
      · apply hraised
      · apply hheld

theorem tracks_fetchLoop (h : s.Consistent) (check : Bool) {rest : List ℕ}
  (hi : ∀ i ∈ I, s.Accounts s.held i ∨ i ∈ rest) :
  (s.fetchLoop check rest).Tracks I
  := by
  refine (h.fetchLoop check rest).imp_right ?_
  rintro ⟨hs, hheld⟩
  refine ⟨hs, ?_⟩
  intro i h
  rw [hheld, accounts_fetchLoop]
  apply hi i h

/-! ### The end of a wait -/

namespace Without

variable {f : Fetch}

/-- The download waits again. -/
theorem await {phase : FetchPhase} (h : s.Without f I) (hf : s.Fits { f with phase := phase }) :
  (s.await { f with phase := phase }).Tracks I
  := by
  refine Or.inr ⟨h.consistent.await hf, ?_⟩
  exact fun i hi => (s.accounts_await _).2 (h.accounts i hi)

/-- The download returns, and its chunk is accounted for. -/
theorem goOn (h : s.Without f I) (hindex : s.Accounts s.held f.index) :
  (s.goOn f).Tracks I
  := by
  apply tracks_fetchLoop h.consistent
  intro i hI
  obtain hi | hi := h.accounts i hI
  · apply Or.inl hi
  obtain rfl | hi := List.mem_cons.1 hi
  · apply Or.inl hindex
  · apply Or.inr hi

/-- More is held, and the rest of what counts is as it was. -/
theorem mono {t : SessionReceiver} (h : s.Without f I) (hdownloads : t.downloads = s.downloads)
  (hwritable : t.writable = s.writable) (hheld : s.held ⊆ t.held) :
  t.Without f I
  := by
  refine ⟨h.consistent.mono ?_ hwritable hheld, ?_⟩
  · apply congrArg (fun d => d.2.2) hdownloads
  · exact fun i hI => (h.accounts i hI).imp_left fun hi => hi.mono hdownloads hheld

theorem markFetchDone (h : s.Without f I) :
  (s.markFetchDone f.index).Without f I
  := by
  refine ⟨h.consistent.mono rfl rfl subset_rfl, ?_⟩
  intro i hI
  obtain rfl | hne := eq_or_ne i f.index
  · apply Or.inr List.mem_cons_self
  · refine (h.accounts i hI).imp_left ?_
    refine Or.imp_right (Or.imp_right (Or.imp_left ?_))
    exact fun hi => Finset.mem_erase_of_ne_of_mem hne hi

theorem markFetchFailed (h : s.Without f I) :
  ((s.markFetchFailed f.index).goOn f).Tracks I
  := by
  have hfail : { s with failedChunks := insert f.index s.failedChunks }.Without f I := by
    refine ⟨h.consistent.mono rfl rfl subset_rfl, ?_⟩
    intro i hI
    refine (h.accounts i hI).imp_left ?_
    apply Or.imp_right (Or.imp_left fun hi => Finset.mem_insert_of_mem hi)
  apply hfail.markFetchDone.goOn
  apply Or.inr (Or.inl (Finset.mem_insert_self ..))

theorem confirm (h : s.Without f I) (hheld : f.index ∈ s.held) (attempt : ℕ)
  (isConnected : Bool) :
  (s.confirm f attempt isConnected).Tracks I
  := by
  rw [SessionReceiver.confirm]
  simp only
  split
  · have hdone : { s with
        lastChunkIndex := max s.lastChunkIndex f.index
        chunksConfirmed := s.chunksConfirmed + 1 }.Without f I :=
      h.mono rfl rfl subset_rfl
    apply hdone.markFetchDone.goOn
    apply Or.inl hheld
  · have hwait : { s with lastChunkIndex := max s.lastChunkIndex f.index }.Without f I :=
      h.mono rfl rfl subset_rfl
    exact hwait.await hheld

/-- The chunk is on the disk, or is kept for it. -/
theorem written (h : s.Without f I) (hwritable : s.writable = true) (attempt : ℕ)
  (isConnected : Bool) :
  ({ s with writtenChunks := insert f.index s.writtenChunks }.confirm f attempt
    isConnected).Tracks I
  := by
  have hheld : ({ s with
      writtenChunks := insert f.index s.writtenChunks } : SessionReceiver).held =
      insert f.index s.held := by
    simp only [held, hwritable, if_true]
  have hmore : { s with writtenChunks := insert f.index s.writtenChunks }.Without f I := by
    refine h.mono rfl rfl ?_
    rw [hheld]
    apply Finset.subset_insert ..
  apply hmore.confirm
  rw [hheld]
  apply Finset.mem_insert_self ..

theorem drain (h : s.Without f I) (hwritable : s.writable = true) (attempt : ℕ)
  (isConnected : Bool) :
  (s.drain f attempt isConnected).Tracks I
  := by
  rw [SessionReceiver.drain]
  split
  · rw [if_pos hwritable]
    exact h.await hwritable
  · exact h.written hwritable attempt isConnected

theorem store (h : s.Without f I) (attempt : ℕ) (data : Bytes) (isConnected : Bool) :
  (s.store f attempt data isConnected).Tracks I
  := by
  rw [SessionReceiver.store]
  split
  · next hwritable =>
      split
      · exact h.await hwritable
      · have hkept : { s with
            chunkBuffer := Function.update s.chunkBuffer f.index (some data) }.Without f I :=
          h.mono rfl rfl subset_rfl
        apply hkept.written hwritable attempt isConnected
  · next hwritable =>
      have hheld : ∀ k, k ∈ ({ s with chunks := s.chunks.set f.index data } :
          SessionReceiver).held ↔ k = f.index ∨ k ∈ s.held := by
        intro k
        simp only [held, hwritable, Bool.false_eq_true, if_false, List.mem_toFinset,
          OrderedMap.mem_keys, OrderedMap.find?_set]
        split
        · next heq => simp only [heq, Option.some.injEq, exists_eq', true_or]
        · next hne => simp only [hne, false_or]
      have hmore : { s with chunks := s.chunks.set f.index data }.Without f I := by
        refine h.mono rfl rfl ?_
        intro k hk
        apply (hheld k).2 (Or.inr hk)
      apply hmore.confirm
      apply (hheld f.index).2 (Or.inl rfl)

theorem retryLater (h : s.Without f I) (attempt : ℕ) :
  (s.retryLater f attempt).Tracks I
  := h.await trivial

theorem response (h : s.Without f I) (hf : s.Fits f) (decryptChunk : Bytes → Option Bytes)
  (isConnected : Bool) (status : ℕ) (data : Option Bytes) :
  (s.resume decryptChunk f isConnected (.response status data)).Tracks I
  := by
  simp only [SessionReceiver.resume]
  split
  · split
    · split
      · apply h.store _ _ isConnected
      · apply h.retryLater _
    · apply h.markFetchFailed
    · apply h.retryLater _
  · apply h.await hf

theorem rejected (h : s.Without f I) (hf : s.Fits f) (decryptChunk : Bytes → Option Bytes)
  (isConnected : Bool) :
  (s.resume decryptChunk f isConnected .rejected).Tracks I
  := by
  simp only [SessionReceiver.resume]
  split
  · apply h.retryLater _
  · apply h.retryLater _
  · apply h.retryLater _
  · apply h.await hf

theorem resolved (h : s.Without f I) (hf : s.Fits f) (decryptChunk : Bytes → Option Bytes)
  (isConnected : Bool) :
  (s.resume decryptChunk f isConnected .resolved).Tracks I
  := by
  have hfits := hf
  rw [Fits] at hfits
  simp only [SessionReceiver.resume]
  cases hphase : f.phase with
  | waitingWritable =>
    simp only
    split
    · apply h.await hf
    split
    · next hknown =>
        apply h.goOn
        rw [Bool.or_eq_true, decide_eq_true_eq, decide_eq_true_eq] at hknown
        apply hknown.imp_right fun hp => Or.inr (Or.inl hp)
    · have hpending : { s with
          pendingFetches := insert f.index s.pendingFetches }.Without f I := by
        refine ⟨h.consistent, ?_⟩
        intro i hI
        refine (h.accounts i hI).imp_left ?_
        exact fun hi => (s.accounts_insert f.index).2 (Or.inl hi)
      exact hpending.await trivial
  | downloading attempt => exact h.await hf
  | writing attempt data =>
    rw [hphase] at hfits
    have hnext : { s with
        disk := s.disk ++ data
        nextWriteIndex := s.nextWriteIndex + 1 }.Without f I :=
      h.mono rfl rfl subset_rfl
    apply hnext.drain hfits attempt isConnected
  | draining attempt data =>
    rw [hphase] at hfits
    have hnext : { s with
        disk := s.disk ++ data
        chunkBuffer := Function.update s.chunkBuffer s.nextWriteIndex none
        nextWriteIndex := s.nextWriteIndex + 1 }.Without f I :=
      h.mono rfl rfl subset_rfl
    apply hnext.drain hfits attempt isConnected
  | confirming attempt =>
    rw [hphase] at hfits
    have hsent : { s with chunksConfirmed := s.chunksConfirmed + 1 }.Without f I :=
      h.mono rfl rfl subset_rfl
    apply hsent.markFetchDone.goOn
    apply Or.inl hfits
  | sleeping attempt =>
    simp only
    split
    · exact h.await trivial
    · exact h.markFetchFailed

/-- Whatever a download waited for, no chunk is lost from the account. -/
theorem resume (h : s.Without f I) (hf : s.Fits f) (decryptChunk : Bytes → Option Bytes)
  (isConnected : Bool) (result : Awaited) :
  (s.resume decryptChunk f isConnected result).Tracks I
  := by
  cases result with
  | resolved => exact h.resolved hf decryptChunk isConnected
  | rejected => exact h.rejected hf decryptChunk isConnected
  | response status data => exact h.response hf decryptChunk isConnected status data

end Without

/-! ### Every run -/

/-- The dialog is not closed once the page holds chunks: choosing a file then moves the page from
the chunks in memory to those in the file. -/
def Undisturbed (s : SessionReceiver) : Event → Prop
  | .saveDialog _ => s.writable = false ∧ s.held = ∅
  | _ => True

/-- The download that goes on is taken out. -/
theorem Consistent.without (h : s.Consistent) (hi : ∀ i ∈ I, s.Accounts s.held i) {k : ℕ}
  {f : Fetch} (hf : s.fetches[k]? = some f) :
  { s with fetches := s.fetches.eraseIdx k }.Without f I
  := by
  constructor
  · intro g hg
    apply (h g (List.mem_of_mem_eraseIdx hg)).mono rfl subset_rfl
  · intro i hI
    obtain hi | hi | hi | ⟨g, hg, hi⟩ := hi i hI
    · apply Or.inl (Or.inl hi)
    · apply Or.inl (Or.inr (Or.inl hi))
    · apply Or.inl (Or.inr (Or.inr (Or.inl hi)))
    · obtain rfl | hg := (Threads.mem_iff hf).mp hg
      · apply Or.inr hi
      · apply Or.inl (Or.inr (Or.inr (Or.inr ⟨g, hg, hi⟩)))

/-- The dialog is closed while nothing is held, so that no download depends on where. -/
theorem Tracks.onSaveDialog (hs : s.Consistent) (hi : ∀ i ∈ I, s.Accounts s.held i)
  (hwritable : s.writable = false) (hheld : s.held = ∅) (chosen : Bool) :
  (s.onSaveDialog chosen).Tracks I
  := by
  rw [SessionReceiver.onSaveDialog]
  split
  · refine Or.inr ⟨?_, ?_⟩
    · intro f hf
      have hfits := hs f hf
      rw [Fits, hwritable, hheld] at hfits
      rw [Fits]
      split at hfits
      · exact absurd hfits (Finset.notMem_empty _)
      · cases hfits
      · cases hfits
      · trivial
    · intro i hI
      have haccounts := hi i hI
      rw [hheld] at haccounts
      apply haccounts.mono rfl (Finset.empty_subset _)
  · apply Or.inr ⟨hs, hi⟩

theorem Tracks.step (h : s.Tracks I) (decryptChunk : Bytes → Option Bytes) {e : Event}
  (he : s.Undisturbed e) :
  (s.step decryptChunk e).Tracks I
  := by
  obtain hdone | ⟨hs, hi⟩ := h
  · apply Tracks.of_knowledge hdone (knowledge_step decryptChunk le_rfl e)
  have h : s.Tracks I := Or.inr ⟨hs, hi⟩
  cases e with
  | fileInfo info =>
    rw [SessionReceiver.step, onFileInfo]
    simp only
    split
    · apply h.mono rfl id rfl subset_rfl
    · apply h.mono rfl id rfl subset_rfl
  | uploadFinished =>
    apply Tracks.checkIfDone
    apply h.mono rfl id rfl subset_rfl
  | newChunk index => exact tracks_fetchLoop hs true fun i hI => Or.inl (hi i hI)
  | chunkDownload finished =>
    rw [SessionReceiver.step, onChunkDownload]
    split
    · apply Tracks.checkIfDone
      apply h.mono rfl id rfl subset_rfl
    · apply h
  | personalReceived => exact h.checkIfDone
  | complete status => exact Or.inl (s.completeHandled_onSessionComplete status)
  | kicked => exact Or.inl s.completeHandled_onKicked
  | startInit state =>
    apply tracks_fetchLoop
    · apply hs.mono rfl rfl subset_rfl
    · exact fun i hI => Or.inl ((accounts_markUnrecoverable _ state i).2 (Or.inl (hi i hI)))
  | close =>
    rw [SessionReceiver.step, onWsClose]
    split
    · apply h
    · apply h.mono rfl id rfl subset_rfl
  | closeTimer =>
    rw [SessionReceiver.step, onCloseTimer]
    split
    · apply h
    simp only
    split
    · apply h.mono rfl id rfl subset_rfl
    split
    · apply Or.inl (le_knowledge_finishWithBlob _).2
    · apply Or.inl rfl
  | saveDialog chosen => exact Tracks.onSaveDialog hs hi he.1 he.2 chosen
  | awaited k isConnected result =>
    rw [SessionReceiver.step]
    split
    · apply h
    · next f hf =>
        apply (hs.without hi hf).resume
        apply (hs f (List.mem_of_getElem? hf)).mono rfl subset_rfl
  | leave => exact Or.inl rfl

theorem tracks_run (decryptChunk : Bytes → Option Bytes) {events : List Event}
  (hevents : Machine.EveryStep (step decryptChunk) Undisturbed s events) (h : s.Tracks I) :
  (Machine.run (step decryptChunk) s events).Tracks I
  := by
  apply Machine.EveryState.last
  apply Machine.everyState_of_everyStep _ h hevents
  intro s e h he
  apply h.step decryptChunk he

/-- A page has consistent downloads from the start. -/
theorem tracks_create (hasFSAccess : Bool) (state : ServerState) (fileInfo : Option FileInfo) :
  (create hasFSAccess state fileInfo).Tracks ∅
  := by
  rw [create]
  apply tracks_fetchLoop
  · intro f hf
    exfalso
    revert hf
    simp only [markUnrecoverable]
    split
    · apply List.not_mem_nil
    · apply List.not_mem_nil
  · exact fun i hi => absurd hi (Set.notMem_empty i)

/-- When every chunk is held or has failed, their number does not make `checkIfDone` wait. -/
theorem not_blocked (h : ∀ i, 1 ≤ i → i ≤ s.highestKnownChunk → i ∈ s.held ∨ i ∈ s.failedChunks) :
  ¬s.Blocked
  := by
  have hle : s.held.card ≤ s.haveCount := by
    rw [held, haveCount]
    split
    · exact le_rfl
    · apply (List.toFinset_card_le _).trans
      simp [OrderedMap.keys, OrderedMap.size]
  have hcover : Finset.Icc 1 s.highestKnownChunk ⊆ s.held ∪ s.failedChunks := by
    intro i hi
    rw [Finset.mem_Icc] at hi
    apply Finset.mem_union.2 (h i hi.1 hi.2)
  have hcard := (Finset.card_le_card hcover).trans (Finset.card_union_le ..)
  rw [Nat.card_Icc, Nat.add_sub_cancel] at hcard
  rw [Blocked]
  omega

/-- Once no download is left, every chunk that was accounted for is held or has failed. -/
theorem Tracks.not_blocked (h : s.Tracks {i | 1 ≤ i ∧ i ≤ s.highestKnownChunk})
  (hfetches : s.fetches = []) (hpending : s.pendingFetches = ∅) :
  s.completeHandled = true ∨ ¬s.Blocked
  := by
  refine h.imp_right ?_
  rintro ⟨-, hi⟩
  apply SessionReceiver.not_blocked
  intro i h1 hmax
  obtain hheld | hfailed | hp | ⟨f, hf, -⟩ := hi i ⟨h1, hmax⟩
  · apply Or.inl hheld
  · apply Or.inr hfailed
  · rw [hpending] at hp
    exact absurd hp (Finset.notMem_empty i)
  · rw [hfetches] at hf
    cases hf

/-- When the page has processed the state of the server, after a reconnect or when it is loaded,
every chunk up to the current one is held, fetched or marked as failed exactly when every gap
in the buffer of the server already was. In every run the chunks that are accounted for stay so:
once the downloads have ended the page has reported, or `checkIfDone` is not blocked. -/
theorem everyChunk_accounted_iff (page : SessionReceiver) (hasFSAccess : Bool)
  (state : ServerState) (fileInfo : Option FileInfo) (decryptChunk : Bytes → Option Bytes) :
  ((∀ i, 1 ≤ i → i ≤ state.currentChunk →
        (page.onReconnectInit state).Accounts page.held i) ↔
      ∀ i, state.Gap i → page.Accounts page.held i) ∧
  ((∀ i, 1 ≤ i → i ≤ state.currentChunk →
        (create hasFSAccess state fileInfo).Accounts ∅ i) ↔
      ∀ i, ¬state.Gap i) ∧
  ∀ before after : List Event,
    Machine.EveryStep (step decryptChunk) Undisturbed (create hasFSAccess state fileInfo)
      (before ++ after) →
    let s := Machine.run (step decryptChunk) (create hasFSAccess state fileInfo) before
    let t := Machine.run (step decryptChunk) s after
    (∀ i, 1 ≤ i → i ≤ t.highestKnownChunk → s.Accounts s.held i) →
    t.fetches = [] → t.pendingFetches = ∅ → t.completeHandled = true ∨ ¬t.Blocked
  := by
  refine ⟨?_, ?_, ?_⟩
  · simp only [accounts_onReconnectInit]
    apply forall_accounted_iff state
  · simp only [accounts_create]
    have hiff := forall_accounted_iff (P := fun _ => False) state
    simp only [false_or] at hiff
    apply hiff
  · intro before after hevents s t hs hfetches hpending
    obtain ⟨hbefore, hafter⟩ := Machine.everyStep_append.1 hevents
    have htracks : s.Tracks {i | 1 ≤ i ∧ i ≤ t.highestKnownChunk} := by
      refine (tracks_run decryptChunk hbefore (tracks_create ..)).imp_right ?_
      exact fun h => ⟨h.1, fun i hi => hs i hi.1 hi.2⟩
    apply (tracks_run decryptChunk hafter htracks).not_blocked hfetches hpending

/-- The server has removed the second of three chunks, and the page is loaded. It fetches the two
others, which are confirmed, and hears that the upload is finished. -/
def loadedWithGap : List Event :=
  [.awaited 0 true (.response 200 (some [1])), .awaited 0 true (.response 200 (some [3])),
    .chunkDownload true, .chunkDownload true, .uploadFinished]

/-- Nobody fetches the second chunk, and after that run the page still waits for it. -/
theorem not_everyChunk_accounted :
  (¬∀ (hasFSAccess : Bool) (state : ServerState) (fileInfo : Option FileInfo),
    (∀ i ∈ state.chunks, 1 ≤ i ∧ i ≤ state.currentChunk) →
    ∀ i, 1 ≤ i → i ≤ state.currentChunk →
      (create hasFSAccess state fileInfo).Accounts ∅ i) ∧
  let t := Machine.run (step some)
    (create false { currentChunk := 3, chunks := [1, 3] } none) loadedWithGap
  t.fetches = [] ∧ t.pendingFetches = ∅ ∧ t.Blocked ∧ t.reports = []
  := by
  refine ⟨?_, by decide⟩
  intro h
  have h2 := h false { currentChunk := 3, chunks := [1, 3] } none (by decide) 2 (by decide)
    (by decide)
  rw [accounts_create] at h2
  revert h2
  decide

end SessionReceiver

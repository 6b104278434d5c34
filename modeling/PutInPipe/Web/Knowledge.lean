import PutInPipe.Library.Run
import PutInPipe.Web.Download
import PutInPipe.Web.Transfer

/-!
# What the messages tell the page

Of what the page of a receiver learns from its messages two things matter for the end of the
download: the highest index it knows of, and whether it has handled the end. `Knowledge` is
no more than that, and `hear` what a message adds to it. The page knows at least as much.

A message is warranted when what it says is so, given what the page knows by the time it gets
the message.
-/

open TransferSessionDetails

structure Knowledge where
  highest : ℕ := 0
  handled : Bool := false

namespace Knowledge

instance : Preorder Knowledge where
  le k k' := k.highest ≤ k'.highest ∧ (k.handled = true → k'.handled = true)
  le_refl k := ⟨le_rfl, id⟩
  le_trans k k' k'' h h' := ⟨h.1.trans h'.1, fun hk => h'.2 (h.2 hk)⟩

theorem le_def {k k' : Knowledge} :
  k ≤ k' ↔ k.highest ≤ k'.highest ∧ (k.handled = true → k'.handled = true)
  := Iff.rfl

def hear (k : Knowledge) : Notice → Knowledge
  | .startInit state _ => { k with highest := max k.highest state.currentChunk }
  | .newChunk index => { k with highest := max k.highest index }
  | .complete _ | .kicked => { k with handled := true }
  | _ => k

/-- `final n` says that the upload is finished and has no chunks beyond `n`. -/
def Warrants (final : ℕ → Prop) (k : Knowledge) : Notice → Prop
  | .startInit state _ => state.uploadFinished = true → final state.currentChunk
  | .uploadFinished => final k.highest
  | .complete .ok => k.handled = true ∨ final k.highest
  | _ => True

variable {final final' : ℕ → Prop} {k k' : Knowledge}

theorem le_hear (k : Knowledge) (m : Notice) :
  k ≤ k.hear m
  := by
  cases m with
  | startInit state info => exact ⟨le_max_left _ _, id⟩
  | newChunk index => exact ⟨le_max_left _ _, id⟩
  | complete status => exact ⟨le_rfl, fun _ => rfl⟩
  | kicked => exact ⟨le_rfl, fun _ => rfl⟩
  | _ => apply le_refl

theorem hear_mono (h : k ≤ k') (m : Notice) :
  k.hear m ≤ k'.hear m
  := by
  cases m with
  | startInit state info => exact ⟨max_le_max_right _ h.1, h.2⟩
  | newChunk index => exact ⟨max_le_max_right _ h.1, h.2⟩
  | complete status => exact ⟨h.1, id⟩
  | kicked => exact ⟨h.1, id⟩
  | _ => exact h

theorem Warrants.of_le (hmono : ∀ {n n'}, n ≤ n' → final n → final n') (h : k ≤ k') {m : Notice}
    (hm : k.Warrants final m) :
  k'.Warrants final m
  := by
  cases m with
  | startInit state info => exact hm
  | uploadFinished => apply hmono h.1 hm
  | complete status =>
      cases status with
      | ok =>
          obtain hk | hn := hm
          · apply Or.inl (h.2 hk)
          · apply Or.inr (hmono h.1 hn)
      | _ => trivial
  | _ => trivial

theorem Warrants.imp (hfinal : ∀ n, final n → final' n) {m : Notice} (hm : k.Warrants final m) :
  k.Warrants final' m
  := by
  cases m with
  | startInit state info => exact fun hs => hfinal _ (hm hs)
  | uploadFinished => apply hfinal _ hm
  | complete status =>
      cases status with
      | ok => apply hm.imp_right (hfinal _)
      | _ => trivial
  | _ => trivial

/-- The index of a new chunk is known once the message is heard. -/
theorem le_highest_run {index : ℕ} {ms : List Notice} (h : .newChunk index ∈ ms) :
  index ≤ (Machine.run hear k ms).highest
  := by
  obtain ⟨ms, ms', rfl⟩ := List.append_of_mem h
  rw [Machine.run_append, Machine.run_cons]
  have hle := Machine.le_run le_hear ((Machine.run hear k ms).hear (.newChunk index)) ms'
  apply le_trans (le_max_right _ _) hle.1

theorem handled_run {ms : List Notice} (h : .kicked ∈ ms) :
  (Machine.run hear k ms).handled = true
  := by
  obtain ⟨ms, ms', rfl⟩ := List.append_of_mem h
  rw [Machine.run_append, Machine.run_cons]
  have hle := Machine.le_run le_hear ((Machine.run hear k ms).hear .kicked) ms'
  apply hle.2 rfl

end Knowledge

namespace SessionReceiver

variable {k : Knowledge} {s : SessionReceiver}

def knowledge (s : SessionReceiver) : Knowledge where
  highest := s.highestKnownChunk
  handled := s.completeHandled

/-! ### The page forgets nothing -/

theorem le_knowledge_finishWithBlob (s : SessionReceiver) :
  s.knowledge ≤ s.finishWithBlob.knowledge ∧ s.finishWithBlob.completeHandled = true
  := by
  rw [finishWithBlob]
  split
  · next hc => exact ⟨le_rfl, hc⟩
  simp only
  split
  · exact ⟨⟨le_rfl, fun _ => rfl⟩, rfl⟩
  · exact ⟨⟨le_rfl, fun _ => rfl⟩, rfl⟩

/-- The page has handled the end once it has decided. -/
theorem le_knowledge_finalizeStrict (s : SessionReceiver) :
  s.knowledge ≤ s.finalizeStrict.knowledge ∧ s.finalizeStrict.completeHandled = true
  := by
  rw [finalizeStrict]
  split
  · next hc => exact ⟨le_rfl, hc⟩
  simp only
  split
  · exact ⟨⟨le_rfl, fun _ => rfl⟩, rfl⟩
  · apply le_knowledge_finishWithBlob

theorem le_knowledge_checkIfDone (h : k ≤ s.knowledge) :
  k ≤ s.checkIfDone.knowledge
  := by
  rw [checkIfDone]
  split_ifs
  all_goals first
    | exact h
    | exact h.trans s.le_knowledge_finalizeStrict.1

theorem kept_knowledge (k : Knowledge) :
  Kept (fun _ _ => True) (fun s => k ≤ s.knowledge)
  where
    progress s t hp h := by
      use h.1.trans hp.highestKnownChunk
      intro hk
      apply hp.completeHandled.trans (h.2 hk)
    store _ _ _ _ h := h
    checkIfDone _ h := le_knowledge_checkIfDone h

/-- What the page is told it knows, and it forgets nothing. -/
theorem knowledge_step (decryptChunk : Bytes → Option Bytes) (h : k ≤ s.knowledge) (e : Event) :
  k ≤ (s.step decryptChunk e).knowledge
  := by
  cases e with
  | fileInfo info =>
      rw [step, onFileInfo]
      simp only
      split
      · apply h
      · apply h
  | uploadFinished => exact le_knowledge_checkIfDone h
  | newChunk index => apply (kept_knowledge k).fetchLoop h
  | chunkDownload finished =>
      rw [step, onChunkDownload]
      split
      · exact le_knowledge_checkIfDone h
      · exact h
  | personalReceived => exact le_knowledge_checkIfDone h
  | complete status =>
      cases status with
      | ok =>
          simp only [step, onSessionComplete]
          split
          · apply h
          · apply h.trans s.le_knowledge_finalizeStrict.1
      | _ =>
          simp only [step, onSessionComplete]
          split
          · apply h
          · exact ⟨h.1, fun _ => rfl⟩
  | kicked =>
      rw [step, onKicked]
      split
      · apply h
      · exact ⟨h.1, fun _ => rfl⟩
  | startInit state =>
      apply (kept_knowledge k).fetchLoop
      exact ⟨h.1.trans (le_max_left _ _), h.2⟩
  | close =>
      rw [step, onWsClose]
      split
      · apply h
      · apply h
  | closeTimer =>
      rw [step, onCloseTimer]
      split
      · apply h
      simp only
      split
      · apply h
      split
      · apply le_trans _ (le_knowledge_finishWithBlob _).1
        apply h
      · exact ⟨h.1, fun _ => rfl⟩
  | saveDialog chosen =>
      rw [step, onSaveDialog]
      split
      · apply h
      · apply h
  | awaited i isConnected result =>
      rw [step]
      split
      · apply h
      · apply (kept_knowledge k).resume
        · apply h
        · exact fun _ _ _ _ => trivial
  | leave => exact ⟨h.1, fun _ => rfl⟩

/-- The loop knows of the chunk it fetches from the start. -/
theorem fetchLoop_raiseKnown (s : SessionReceiver) (index : ℕ) :
  s.fetchLoop true [index] = (s.raiseKnown true index).fetchLoop true [index]
  := by
  simp [fetchLoop, raiseKnown]

theorem completeHandled_onSessionComplete (s : SessionReceiver)
    (status : TransferSessionCompleteType) :
  (s.onSessionComplete status).completeHandled = true
  := by
  cases status with
  | ok =>
      simp only [onSessionComplete]
      split
      · next hc => exact hc
      · apply s.le_knowledge_finalizeStrict.2
  | _ =>
      simp only [onSessionComplete]
      split
      · next hc => exact hc
      · rfl

theorem completeHandled_onKicked (s : SessionReceiver) :
  s.onKicked.completeHandled = true
  := by
  rw [onKicked]
  split
  · next hc => exact hc
  · rfl

/-- The page learns what it hears. -/
theorem hear_le_knowledge (decryptChunk : Bytes → Option Bytes) (h : k ≤ s.knowledge)
    (m : Notice) :
  k.hear m ≤ (s.step decryptChunk m.event).knowledge
  := by
  have hstep := knowledge_step decryptChunk h m.event
  cases m with
  | startInit state info =>
      apply (kept_knowledge _).fetchLoop
      exact ⟨max_le_max_right _ h.1, h.2⟩
  | newChunk index =>
      rw [Notice.event, step, onNewChunk, fetchLoop_raiseKnown]
      apply (kept_knowledge _).fetchLoop
      exact ⟨max_le_max_right _ h.1, h.2⟩
  | complete status => exact ⟨hstep.1, fun _ => s.completeHandled_onSessionComplete status⟩
  | kicked => exact ⟨hstep.1, fun _ => s.completeHandled_onKicked⟩
  | _ => exact hstep

/-- A page knows from the start what it was loaded with. -/
theorem hear_le_knowledge_create (hasFSAccess : Bool) (state : ServerState)
    (info : Option FileInfo) :
  Knowledge.hear {} (.startInit state info) ≤ (create hasFSAccess state info).knowledge
  := by
  have hle : max 0 state.currentChunk ≤ state.chunks.foldl max state.currentChunk := by
    rw [List.foldl_max, Nat.zero_max]
    apply le_max_left
  apply (kept_knowledge _).fetchLoop
  simp only [markUnrecoverable]
  split
  · exact ⟨hle, id⟩
  · exact ⟨hle, id⟩

end SessionReceiver

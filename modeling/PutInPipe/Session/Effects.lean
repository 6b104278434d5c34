import PutInPipe.Session.Repeats

/-!
# Confirmations that should have no effect

A session may get a confirmation from a client that is not a receiver, its sender or a
receiver that was kicked, and for an index that is not stored. `setChunkAsReceived` asks
neither: the automatic mode drops the freeze before the index is looked up, and a stored
chunk counts every confirmation.
-/

open TransferSessionDetails

namespace TransferSession

variable {config : Config} {s : TransferSession}

/-- The stored chunks, what they wait for, the consumers, the freeze, the status and the
listing of the session are the same. -/
structure Unaffected (s t : TransferSession) : Prop where
  stored : ∀ j, (t.buffer.chunks.find? j).map Chunk.data
    = (s.buffer.chunks.find? j).map Chunk.data
  waits : ∀ j, t.buffer.waitsFor j = s.buffer.waitsFor j
  expectedConsumers : t.buffer.expectedConsumers = s.buffer.expectedConsumers
  initialChunksFreezing : t.buffer.initialChunksFreezing = s.buffer.initialChunksFreezing
  completeType : t.completeType = s.completeType
  listed : t.listed = s.listed

/-- A confirmation of the index finds neither a freeze to drop nor a chunk to count it for:
the index is not stored, or it is stored, frozen and waits for nobody, and the session is
not frozen in the automatic mode. -/
def Ignores (s : TransferSession) (i : ℕ) : Prop :=
  (s.autoDropFreezeOnFirstChunk = true → s.buffer.initialChunksFreezing = false)
    ∧ ∀ chunk, s.buffer.chunks.find? i = some chunk →
      s.buffer.initialChunksFreezing = true ∧ s.buffer.expectedConsumers.card ≤ chunk.uses

theorem Unaffected.refl (s : TransferSession) :
  s.Unaffected s
  := ⟨fun _ => rfl, fun _ => rfl, rfl, rfl, rfl, rfl⟩

/-- In the automatic mode the freeze is dropped once, while it is on. -/
theorem Consistent.autoDrops_eq_true (h : s.Consistent config) :
  s.autoDrops = true
    ↔ s.autoDropFreezeOnFirstChunk = true ∧ s.buffer.initialChunksFreezing = true
  := by
  simp only [autoDrops, Bool.and_eq_true, Bool.not_eq_eq_eq_not, Bool.not_true,
    and_iff_left_iff_imp]
  rintro ⟨-, hf⟩
  apply Bool.eq_false_of_not_eq_true
  intro hfired
  rw [h.fired hfired] at hf
  cases hf

/-- A confirmation of a frozen chunk affects nothing exactly when the chunk waits for
nobody. -/
theorem unaffected_confirmChunk_of_freezing (config : Config) {i : ℕ} {chunk : Chunk}
    (c : ClientRef) (hf : s.buffer.initialChunksFreezing = true)
    (hi : s.buffer.chunks.find? i = some chunk) :
  s.Unaffected (s.confirmChunk config i c) ↔ s.buffer.expectedConsumers.card ≤ chunk.uses
  := by
  have hwaits := waitsFor_confirmChunk_of_freezing config c hf hi
  constructor
  · exact fun h => hwaits.mp h.waits
  · intro hfull
    have hsame := sameMembers_confirmChunk config s i c
    refine ⟨data_confirmChunk_of_freezing config c hf hi, hwaits.mpr hfull,
      hsame.expectedConsumers, ?_, ?_, ?_⟩
    · rw [buffer_confirmChunk, Buffer.initialChunksFreezing_setChunkAsReceived,
        Buffer.initialChunksFreezing_get]
    · rw [confirmChunk_of_some config hi]
    · -- the chunk is still there, so that the session is not complete
      have hne : (s.confirmChunk config i c).buffer.chunkCount ≠ 0 := by
        rw [ne_eq, Buffer.chunkCount_eq_zero]
        intro hnone
        have := hnone i
        rw [find?_confirmChunk_of_freezing config c hf hi, if_pos rfl] at this
        cases this
      rw [buffer_confirmChunk] at hne
      rw [confirmChunk_of_some config hi]
      simp [hne]

/-- A confirmation affects nothing exactly when the session ignores the index. -/
theorem unaffected_setChunkAsReceived (h : s.Consistent config) (i : ℕ) (c : ClientRef) :
  s.Unaffected (s.setChunkAsReceived config i c) ↔ s.Ignores i
  := by
  rw [setChunkAsReceived, Ignores]
  cases hauto : s.autoDrops with
  | true =>
      obtain ⟨hmode, hf⟩ := h.autoDrops_eq_true.mp hauto
      apply iff_of_false
      · intro hu
        have hfreeze := hu.initialChunksFreezing
        rw [buffer_confirmChunk, Buffer.initialChunksFreezing_setChunkAsReceived,
          Buffer.initialChunksFreezing_get, buffer_autoDropFreeze, if_pos hauto,
          Buffer.initialChunksFreezing_setInitialChunksFreezingDropped, hf] at hfreeze
        cases hfreeze
      · rintro ⟨hdropped, -⟩
        rw [hdropped hmode] at hf
        cases hf
  | false =>
      have heq : s.autoDropFreeze config = s := by
        rw [autoDropFreeze_eq, if_neg (by simp [hauto])]
      have hmode : s.autoDropFreezeOnFirstChunk = true →
          s.buffer.initialChunksFreezing = false := by
        intro hmode
        apply Bool.eq_false_of_not_eq_true
        intro hf
        rw [h.autoDrops_eq_true.mpr ⟨hmode, hf⟩] at hauto
        cases hauto
      rw [heq]
      cases hi : s.buffer.chunks.find? i with
      | none =>
          rw [confirmChunk_of_none hi]
          apply iff_of_true (Unaffected.refl s)
          use hmode
          intro chunk hchunk
          cases hchunk
      | some chunk =>
          cases hf : s.buffer.initialChunksFreezing with
          | true =>
              rw [unaffected_confirmChunk_of_freezing config c hf hi]
              rw [hf] at hmode
              simp only [Option.some.injEq, forall_eq', true_and]
              exact ⟨fun hfull => ⟨hmode, hfull⟩, And.right⟩
          | false =>
              apply iff_of_false
              · exact fun hu => waitsFor_confirmChunk_ne config c hf hi (hu.waits i)
              · rintro ⟨-, hfull⟩
                cases (hfull chunk rfl).1

/-- Only confirmations that come from a receiver and name a stored index affect the
session. -/
def OnlyEffective (config : Config) (s : TransferSession) : Prop :=
  ∀ c i, c ∉ s.liveReceivers ∨ s.buffer.chunks.find? i = none →
    s.Unaffected (s.setChunkAsReceived config i c)

/-- In every run, while the session is listed, a confirmation of whatever index by whatever
client affects nothing exactly when the session ignores the index. -/
theorem everyState_unaffected_iff (config : Config) (sender : ClientRef) (auto : Bool)
    (ops : List Op) :
  Machine.EveryState (step config)
    (WhileListed fun s => ∀ c i,
      s.Unaffected (s.setChunkAsReceived config i c) ↔ s.Ignores i)
    (create sender auto) ops
  := by
  have hrun : Machine.EveryState (step config) (WhileListed (Consistent config))
      (create sender auto) ops := by
    apply Machine.everyState_of_invariant
    · exact fun s op hs => Consistent.step hs op
    · exact fun _ => Consistent.create config sender auto
  apply hrun.mono
  exact fun s hs hl c i => unaffected_setChunkAsReceived (hs hl) i c

/-- A run in which the chunk is no longer frozen and waits for Alice and Bob. -/
def Sample.unfrozen : List Op :=
  [.addReceiver Sample.alice, .addReceiver Sample.bob, .setFileInfo Sample.info, .addChunk [1],
    .dropInitialChunksFreeze]

/-- A run in which Alice has joined and a chunk was uploaded. -/
def Sample.frozen : List Op :=
  [.addReceiver Sample.alice, .setFileInfo Sample.info, .addChunk [1]]

/-- A confirmation by the sender is counted. In the automatic mode a confirmation of an index
that is not stored drops the freeze. -/
theorem not_onlyEffective :
  ¬ Machine.EveryState (step Sample.config) (WhileListed (OnlyEffective Sample.config))
      (create Sample.sender false) Sample.unfrozen
  ∧ ¬ Machine.EveryState (step Sample.config) (WhileListed (OnlyEffective Sample.config))
      (create Sample.sender true) Sample.frozen
  := by
  constructor
  · intro h
    have hlast := h.last (by decide)
    have hwaits := (hlast Sample.sender 1 (Or.inl (by decide))).waits 1
    revert hwaits
    decide
  · intro h
    have hlast := h.last (by decide)
    have hfreeze := (hlast Sample.alice 7 (Or.inr (by decide))).initialChunksFreezing
    revert hfreeze
    decide

end TransferSession

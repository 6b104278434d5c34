import PutInPipe.Session.Delivery

/-!
# Repeated confirmations

A receiver that reloads its page confirms the stored chunks again. The buffer does not know
who has confirmed a chunk and counts the confirmation as that of another receiver, unless
the chunk waits for nobody, and counts its bytes for the receiver once more.
-/

open TransferSessionDetails

namespace TransferSessionDetails

/-- The number of confirmations a stored chunk waits for. -/
def Buffer.waitsFor (b : Buffer) (i : ℕ) : Option ℕ :=
  (b.chunks.find? i).map (·.howMuchIsLeft b.expectedConsumers.size)

end TransferSessionDetails

namespace TransferSession

variable {config : Config} {s : TransferSession}

/-- The stored chunks, what they wait for, and the bytes counted for `r` are the same. -/
structure Untouched (s t : TransferSession) (r : ClientRef) : Prop where
  stored : ∀ j, (t.buffer.chunks.find? j).map Chunk.data
    = (s.buffer.chunks.find? j).map Chunk.data
  waits : ∀ j, t.buffer.waitsFor j = s.buffer.waitsFor j
  received : t.bytesReceived r = s.bytesReceived r

/-- A chunk that is frozen, is empty and waits for nobody, in the default mode. -/
def Inert (s : TransferSession) (chunk : Chunk) : Prop :=
  s.buffer.initialChunksFreezing = true ∧ s.autoDropFreezeOnFirstChunk = false
    ∧ chunk.data = [] ∧ s.buffer.expectedConsumers.card ≤ chunk.uses

/-- What a confirmation of a chunk leaves of it once the freeze is dropped. -/
theorem find?_confirmChunk {i : ℕ} {chunk chunk' : Chunk} {c : ClientRef}
    (hf : s.buffer.initialChunksFreezing = false) (hi : s.buffer.chunks.find? i = some chunk)
    (hi' : (s.confirmChunk config i c).buffer.chunks.find? i = some chunk') :
  chunk'.uses = chunk.uses + 1 ∧ chunk'.uses < s.buffer.expectedConsumers.card
  := by
  have hget : (s.buffer.get i).1.chunks.find? i = some chunk := by
    rw [Buffer.chunks_get, hi]
  rw [buffer_confirmChunk, Buffer.find?_setChunkAsReceived hget, Buffer.expectedConsumers_get,
    Buffer.initialChunksFreezing_get, hget] at hi'
  obtain ⟨⟨d, hd, rfl⟩, hlt⟩ := hi'
  obtain rfl := Option.some.inj hd
  rw [if_pos rfl] at hlt ⊢
  replace hlt := hlt hf
  rw [Chunk.incrementUses] at hlt ⊢
  split at hlt
  · rename_i hroom
    rw [if_pos hroom]
    exact ⟨rfl, hlt⟩
  · omega

/-- With the freeze dropped every confirmation of a stored chunk changes what the chunk
waits for. -/
theorem waitsFor_confirmChunk_ne (config : Config) {i : ℕ} {chunk : Chunk} (c : ClientRef)
    (hf : s.buffer.initialChunksFreezing = false)
    (hi : s.buffer.chunks.find? i = some chunk) :
  (s.confirmChunk config i c).buffer.waitsFor i ≠ s.buffer.waitsFor i
  := by
  have hsame := sameMembers_confirmChunk config s i c
  rw [Buffer.waitsFor, Buffer.waitsFor, hsame.expectedConsumers, hi]
  cases hi' : (s.confirmChunk config i c).buffer.chunks.find? i with
  | none =>
      intro h
      cases h
  | some chunk' =>
      obtain ⟨huses, hlt⟩ := find?_confirmChunk hf hi hi'
      rw [Option.map_some, Option.map_some, ne_eq, Option.some.injEq, AtomicSet.size,
        Chunk.howMuchIsLeft_eq, Chunk.howMuchIsLeft_eq]
      omega

/-- A confirmation of a frozen chunk changes that chunk only. -/
theorem find?_confirmChunk_of_freezing (config : Config) {i : ℕ} {chunk : Chunk} (c : ClientRef)
    (hf : s.buffer.initialChunksFreezing = true)
    (hi : s.buffer.chunks.find? i = some chunk) (j : ℕ) :
  (s.confirmChunk config i c).buffer.chunks.find? j
    = if j = i then some (chunk.incrementUses s.buffer.expectedConsumers.card)
      else s.buffer.chunks.find? j
  := by
  have hget : (s.buffer.get i).1.chunks.find? i = some chunk := by
    rw [Buffer.chunks_get, hi]
  apply Option.ext
  intro chunk'
  rw [buffer_confirmChunk, Buffer.find?_setChunkAsReceived hget,
    Buffer.expectedConsumers_get, Buffer.initialChunksFreezing_get, Buffer.chunks_get, hf]
  by_cases hj : j = i
  · simp [hj, hi, eq_comm]
  · simp [hj]

/-- A confirmation of a frozen chunk changes no payload. -/
theorem data_confirmChunk_of_freezing (config : Config) {i : ℕ} {chunk : Chunk} (c : ClientRef)
    (hf : s.buffer.initialChunksFreezing = true)
    (hi : s.buffer.chunks.find? i = some chunk) (j : ℕ) :
  ((s.confirmChunk config i c).buffer.chunks.find? j).map Chunk.data
    = (s.buffer.chunks.find? j).map Chunk.data
  := by
  rw [find?_confirmChunk_of_freezing config c hf hi]
  split
  · rename_i hj
    rw [hj, hi, Option.map_some, Option.map_some, Chunk.data_incrementUses]
  · rfl

/-- A confirmation of a frozen chunk leaves what the chunks wait for exactly when the chunk
waits for nobody. -/
theorem waitsFor_confirmChunk_of_freezing (config : Config) {i : ℕ} {chunk : Chunk}
    (c : ClientRef) (hf : s.buffer.initialChunksFreezing = true)
    (hi : s.buffer.chunks.find? i = some chunk) :
  (∀ j, (s.confirmChunk config i c).buffer.waitsFor j = s.buffer.waitsFor j)
    ↔ s.buffer.expectedConsumers.card ≤ chunk.uses
  := by
  have hfind := find?_confirmChunk_of_freezing config c hf hi
  have hexpected := (sameMembers_confirmChunk config s i c).expectedConsumers
  constructor
  · intro h
    have hwaits := h i
    rw [Buffer.waitsFor, Buffer.waitsFor, hfind, hexpected, if_pos rfl, hi, Option.map_some,
      Option.map_some, Option.some.injEq, AtomicSet.size, Chunk.howMuchIsLeft_eq,
      Chunk.howMuchIsLeft_eq] at hwaits
    by_contra hlt
    rw [not_le] at hlt
    rw [Chunk.incrementUses, if_pos hlt] at hwaits
    simp only at hwaits
    omega
  · intro hfull j
    have hid : chunk.incrementUses s.buffer.expectedConsumers.card = chunk := by
      rw [Chunk.incrementUses, if_neg (by omega)]
    rw [Buffer.waitsFor, Buffer.waitsFor, hfind, hexpected, hid]
    split
    · rename_i hj
      rw [hj, hi]
    · rfl

/-- A confirmation of a frozen chunk touches nothing exactly when the chunk is empty and
waits for nobody. -/
theorem untouched_confirmChunk_of_freezing {i : ℕ} {chunk : Chunk} (c : ClientRef)
    (hf : s.buffer.initialChunksFreezing = true)
    (hi : s.buffer.chunks.find? i = some chunk) :
  s.Untouched (s.confirmChunk config i c) c
    ↔ chunk.data = [] ∧ s.buffer.expectedConsumers.card ≤ chunk.uses
  := by
  have hwaits := waitsFor_confirmChunk_of_freezing config c hf hi
  have hbytes : (s.confirmChunk config i c).bytesReceived c
      = s.bytesReceived c + chunk.data.length := by
    rw [confirmChunk_of_some config hi]
    simp
  constructor
  · intro h
    have hreceived := h.received
    rw [hbytes] at hreceived
    exact ⟨List.length_eq_zero_iff.mp (by omega), hwaits.mp h.waits⟩
  · rintro ⟨hdata, hfull⟩
    refine ⟨data_confirmChunk_of_freezing config c hf hi, hwaits.mpr hfull, ?_⟩
    rw [hbytes, hdata, List.length_nil, Nat.add_zero]

/-- A confirmation of a stored chunk touches nothing exactly when the chunk is inert. -/
theorem untouched_setChunkAsReceived (h : s.Consistent config) {i : ℕ} {chunk : Chunk}
    (hi : s.buffer.chunks.find? i = some chunk) (c : ClientRef) :
  s.Untouched (s.setChunkAsReceived config i c) c ↔ s.Inert chunk
  := by
  rw [setChunkAsReceived, Inert]
  have hsame := sameMembers_autoDropFreeze config s
  cases hauto : s.autoDrops with
  | true =>
      apply iff_of_false
      · intro hu
        have hwaits := hu.waits i
        have hf : (s.autoDropFreeze config).buffer.initialChunksFreezing = false := by
          rw [buffer_autoDropFreeze, if_pos hauto,
            Buffer.initialChunksFreezing_setInitialChunksFreezingDropped]
        cases hi' : (s.autoDropFreeze config).buffer.chunks.find? i with
        | none =>
            rw [confirmChunk_of_none hi', Buffer.waitsFor, hi', Buffer.waitsFor, hi] at hwaits
            cases hwaits
        | some chunk' =>
            have hne := waitsFor_confirmChunk_ne config c hf hi'
            have hchunk := find?_of_autoDropFreeze hi'
            apply hne
            rw [hwaits, Buffer.waitsFor, Buffer.waitsFor, hi', hchunk, hsame.expectedConsumers]
      · rintro ⟨-, hdefault, -⟩
        simp [autoDrops, hdefault] at hauto
  | false =>
      have heq : s.autoDropFreeze config = s := by
        rw [autoDropFreeze_eq, if_neg (by simp [hauto])]
      rw [heq]
      cases hf : s.buffer.initialChunksFreezing with
      | true =>
          have hdefault : s.autoDropFreezeOnFirstChunk = false := by
            simp only [autoDrops, hf] at hauto
            cases hfired : s.autoDropFreezeFired with
            | true =>
                rw [h.fired hfired] at hf
                cases hf
            | false => simpa [hfired] using hauto
          rw [untouched_confirmChunk_of_freezing c hf hi]
          simp [hdefault]
      | false =>
          apply iff_of_false
          · intro hu
            apply waitsFor_confirmChunk_ne config c hf hi (hu.waits i)
          · rintro ⟨hfreeze, -⟩
            cases hfreeze

end TransferSession

namespace History

variable {config : Config} {h : History}

/-- Every chunk that is no longer stored was confirmed by every expected consumer. -/
def ConfirmedByAll (h : History) : Prop :=
  ∀ i, 1 ≤ i → i ≤ h.session.buffer.currentMaxChunkIndex →
    h.session.buffer.chunks.find? i = none →
    ∀ p ∈ h.session.buffer.expectedConsumers, ∃ c : ClientRef, c.publicId = p
      ∧ (c, i) ∈ h.confirmed

/-- A confirmation comes from a receiver. -/
def FromReceiver (h : History) : TransferSession.Op → Prop
  | .setChunkAsReceived _ c => c ∈ h.session.liveReceivers
  | _ => True

/-- Nobody leaves, and confirmations come from receivers. -/
def NoneLeaves (h : History) (op : TransferSession.Op) : Prop :=
  h.session.departure op = none ∧ h.FromReceiver op

theorem keepsCounts_of_noneLeaves {op : TransferSession.Op} (hop : h.NoneLeaves op)
    (hcount : h.CountsOnce op) :
  h.KeepsCounts op
  := by
  use hcount
  intro t publicId hd
  rw [hop.1] at hd
  cases hd

/-- In every reachable state, another confirmation of a stored chunk touches nothing exactly
when the chunk is inert. In every run in which nobody leaves and a confirmation is repeated
only for a chunk that waits for nobody, a chunk is dropped only once every consumer has
confirmed it. -/
theorem untouched_iff_and_confirmedByAll (config : Config) (sender : ClientRef) (auto : Bool) :
  (∀ h, Machine.Reachable (step config) (create sender auto) h → h.session.listed = true →
    ∀ c ∈ h.session.liveReceivers, ∀ i chunk, (c, i) ∈ h.confirmed →
      h.session.buffer.chunks.find? i = some chunk →
      (h.session.Untouched (h.session.setChunkAsReceived config i c) c
        ↔ h.session.Inert chunk))
  ∧ ∀ ops, Machine.EveryStep (step config)
        (WhenApplied (fun h op => h.NoneLeaves op ∧ h.CountsOnce op)) (create sender auto) ops →
      Machine.EveryState (step config) (WhileListed ConfirmedByAll) (create sender auto) ops
  := by
  constructor
  · intro h hs hl c _ i chunk _ hi
    have hc : h.Consistent config := by
      apply hs.invariant
      · intro h op hc
        apply hc.step
      · apply Consistent.create
    apply TransferSession.untouched_setChunkAsReceived (hc hl) hi
  · intro ops hops
    have hkeep : Machine.EveryStep (step config) (WhenApplied KeepsCounts)
        (create sender auto) ops := by
      apply hops.mono
      intro h op hop hl he
      apply keepsCounts_of_noneLeaves (hop hl he).1 (hop hl he).2
    apply (everyState_tracks hkeep).mono
    intro h hs hl i h1 hmax hi p hp
    obtain ⟨hc, L, ht⟩ := hs hl
    apply ht.confirmed (ht.settled h1 hmax hi hp)

/-- A run in which Alice confirms the chunk. -/
def confirmedOnce : List TransferSession.Op :=
  [.addReceiver TransferSession.Sample.alice, .addReceiver TransferSession.Sample.bob,
    .setFileInfo TransferSession.Sample.info, .addChunk [1], .dropInitialChunksFreeze,
    .setChunkAsReceived 1 TransferSession.Sample.alice]

/-- A run in which Alice and Bob confirm the chunk, and Alice once more. -/
def confirmedByBoth : List TransferSession.Op :=
  confirmedOnce ++ [.setChunkAsReceived 1 TransferSession.Sample.bob,
    .setChunkAsReceived 1 TransferSession.Sample.alice]

theorem untouched_iff_and_confirmedByAll_confirmedByBoth :
  (∃ h : History, h.session.buffer.chunksIndex = [1]
    ∧ (h.session.Untouched (h.session.setChunkAsReceived TransferSession.Sample.config 1
          TransferSession.Sample.alice) TransferSession.Sample.alice
        ↔ h.session.Inert { data := [1], uses := 1 }))
  ∧ Machine.EveryState (step TransferSession.Sample.config) (WhileListed ConfirmedByAll)
      (create TransferSession.Sample.sender false) confirmedByBoth
  := by
  constructor
  · use Machine.run (step TransferSession.Sample.config)
      (create TransferSession.Sample.sender false) confirmedOnce
    use rfl
    apply (untouched_iff_and_confirmedByAll TransferSession.Sample.config
      TransferSession.Sample.sender false).1 _ ⟨confirmedOnce, rfl⟩
    · decide
    · decide
    · decide
    · rfl
  · apply (untouched_iff_and_confirmedByAll TransferSession.Sample.config
      TransferSession.Sample.sender false).2
    have hfree : ∀ {h : History} {op : TransferSession.Op}, h.session.departure op = none →
        h.FromReceiver op → h.CountsOnce op →
        WhenApplied (fun h op => h.NoneLeaves op ∧ h.CountsOnce op) h op :=
      fun hd hr hcount _ _ => ⟨⟨hd, hr⟩, hcount⟩
    have hconfirm : ∀ {h : History} {i : ℕ} {c : ClientRef},
        h.CountsOnce (.setChunkAsReceived i c) →
        WhenApplied (fun h op => h.NoneLeaves op ∧ h.CountsOnce op) h
          (.setChunkAsReceived i c) :=
      fun hcount => hfree rfl hcount.1 hcount
    refine ⟨hfree rfl trivial trivial, hfree rfl trivial trivial, hfree rfl trivial trivial,
      hfree rfl trivial trivial, hfree rfl trivial trivial, ?_, ?_, ?_, trivial⟩
    · apply hconfirm ⟨by decide, Or.inl (by decide)⟩
    · apply hconfirm ⟨by decide, Or.inl (by decide)⟩
    · -- the chunk is gone, so that the confirmation counts for nothing
      apply hconfirm ⟨by decide, Or.inr _⟩
      intro chunk hi
      cases hi

/-- A run in which Alice confirms the chunk and confirms it again. -/
def confirmedTwice : List TransferSession.Op :=
  confirmedOnce ++ [.setChunkAsReceived 1 TransferSession.Sample.alice]

/-- The second confirmation removes the chunk, which Bob has not confirmed. -/
theorem not_untouched_and_not_confirmedByAll :
  ¬ (∀ (config : Config) (sender : ClientRef) (auto : Bool) (h : History),
      Machine.Reachable (step config) (create sender auto) h → h.session.listed = true →
      ∀ c ∈ h.session.liveReceivers, ∀ i chunk, (c, i) ∈ h.confirmed →
        h.session.buffer.chunks.find? i = some chunk →
        h.session.Untouched (h.session.setChunkAsReceived config i c) c)
  ∧ ¬ ∀ (config : Config) (sender : ClientRef) (auto : Bool) (ops : List TransferSession.Op),
      Machine.EveryStep (step config) (WhenApplied NoneLeaves) (create sender auto) ops →
      Machine.EveryState (step config) (WhileListed ConfirmedByAll) (create sender auto) ops
  := by
  constructor
  · intro h
    have hu := h TransferSession.Sample.config TransferSession.Sample.sender false _
      ⟨confirmedOnce, rfl⟩ (by decide) TransferSession.Sample.alice (by decide) 1
      { data := [1], uses := 1 } (by decide) rfl
    have hwaits := hu.waits 1
    revert hwaits
    decide
  · intro h
    have hconfirm : ∀ {h : History} {i : ℕ} {c : ClientRef}, c ∈ h.session.liveReceivers →
        WhenApplied NoneLeaves h (.setChunkAsReceived i c) :=
      fun hc _ _ => ⟨rfl, hc⟩
    have hsteps : Machine.EveryStep (step TransferSession.Sample.config)
        (WhenApplied NoneLeaves) (create TransferSession.Sample.sender false)
        confirmedTwice :=
      ⟨fun _ _ => ⟨rfl, trivial⟩, fun _ _ => ⟨rfl, trivial⟩, fun _ _ => ⟨rfl, trivial⟩,
        fun _ _ => ⟨rfl, trivial⟩, fun _ _ => ⟨rfl, trivial⟩, hconfirm (by decide),
        hconfirm (by decide), trivial⟩
    have hlast := (h TransferSession.Sample.config TransferSession.Sample.sender false
      confirmedTwice hsteps).last (by decide) 1 (by decide) (by decide) rfl "B" (by decide)
    obtain ⟨c, hc, hconf⟩ := hlast
    have hall : ∀ x ∈ (Machine.run (step TransferSession.Sample.config)
        (create TransferSession.Sample.sender false) confirmedTwice).confirmed,
        x.1.publicId = "A" := by
      decide
    rw [hall _ hconf] at hc
    revert hc
    decide

end History

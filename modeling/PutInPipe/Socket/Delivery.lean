import PutInPipe.Socket.Reading

/-!
# Messages are handed over

Whatever happens to the connection, the message handler is called for the messages of the frames,
in their order, and for nothing else. When nothing fails and the connection reads often enough, it
is called for all of them. A frame without a mask closes the connection, and so does a frame whose
first byte comes alone.
-/

open Text (Bytes)
open Endian (toBE)

namespace WebSocket

/-! ### How much is still to be read -/

def ReadState.rank : ReadState → ℕ
  | .mask => 2
  | .payload => 1
  | _ => 0

/-- A bound on the number of reads that are still to come. -/
def Connection.rank (c : Connection) : ℕ :=
  if c.isOpen then 3 * c.incoming.length + c.reading.state.rank else 0

section

variable {maxPayloadBytes : ℕ} {onMessage : List Handled → Option (Bytes × ℕ)} {c c' : Connection}

theorem rank_of_same (h : Same c c') :
  c'.rank = c.rank
  := by rw [Connection.rank, Connection.rank, h.isOpen, h.incoming, h.reading]

theorem rank_doRead (c : Connection) :
  (c.doRead maxPayloadBytes).rank ≤ 3 * c.incoming.length + c.reading.state.rank
  := by
  have hle : ∀ c' : Connection, c'.incoming = c.incoming →
      c'.reading.state.rank ≤ c.reading.state.rank →
      c'.rank ≤ 3 * c.incoming.length + c.reading.state.rank := by
    intro c' hin hstate
    rw [Connection.rank, hin]
    split <;> omega
  rw [Connection.doRead]
  split
  · rw [rank_of_same (Same.checkDestroy _ _)]
    exact hle _ rfl le_rfl
  · simp only
    split
    case h_4 hstate =>
      split
      · rw [rank_of_same (Same.checkDestroy _ _)]
        exact hle _ rfl le_rfl
      split
      · exact hle _ rfl le_rfl
      · refine hle _ rfl ?_
        rw [hstate]
        exact Nat.le_succ 1
    all_goals exact hle _ rfl le_rfl

theorem rank_onBytes (c : Connection) (r : Reading) (n : ℕ) :
  ((c.onBytes r n).doRead maxPayloadBytes).rank ≤ 3 * (c.incoming.length - n) + r.state.rank
  := by
  rw [← List.length_drop]
  apply rank_doRead

/-- Nothing is read when a frame is handled. -/
theorem handleFrame_incoming (c : Connection) (fin : Bool) (opcode : ℕ) (fragment : Bytes) :
  (c.handleFrame onMessage fin opcode fragment).1.incoming = c.incoming
    ∧ ((c.handleFrame onMessage fin opcode fragment).2 = false →
      (c.handleFrame onMessage fin opcode fragment).1.isOpen = false)
  := by
  rw [Connection.handleFrame.eq_def]
  split
  case h_4 =>
    rw [Connection.onClose]
    simp only
    split
    · split
      · exact ⟨rfl, fun _ => rfl⟩
      · exact ⟨rfl, fun _ => rfl⟩
    · constructor
      · apply (Same.close _ _ _).incoming
      · rintro ⟨⟩
  all_goals
    constructor
    · first
        | rfl
        | apply (handles_appendFragment _ _ _).incoming
    · rintro ⟨⟩

theorem rank_onFragment (c : Connection) :
  (c.onFragment maxPayloadBytes onMessage).rank ≤ 3 * c.incoming.length
  := by
  have hframe : (c.handleFrame onMessage c.reading.isFIN c.reading.opcode
      c.reading.unmasked).1.incoming = _ ∧ _ :=
    handleFrame_incoming _ _ _ _
  rw [Connection.onFragment]
  split
  case h_1 c' hresult =>
    rw [hresult] at hframe
    rw [← hframe.1]
    apply rank_doRead
  case h_2 c' hresult =>
    rw [hresult] at hframe
    rw [Connection.rank, hframe.2 rfl]
    apply Nat.zero_le

theorem rank_onMiniHeader (c : Connection) (got : Bytes) :
  (c.onMiniHeader maxPayloadBytes got).rank ≤ 3 * (c.incoming.length - got.length) + 2
  := by
  have hle : ∀ s : ReadState, s.rank ≤ 2 := by rintro (_ | _ | _ | _ | _) <;> decide
  have hheader : ∀ c' : Connection, c'.incoming = c.incoming.drop got.length →
      (c'.onHeader maxPayloadBytes).rank ≤ 3 * (c.incoming.length - got.length) + 2 := by
    intro c' hin
    apply (rank_doRead _).trans
    simp only [hin, List.length_drop]
    apply Nat.add_le_add_left
    apply hle
  rw [Connection.onMiniHeader]
  apply hheader
  split
  · rfl
  · rfl

theorem rank_onPayload (c : Connection) (got : Bytes) :
  (c.onPayload maxPayloadBytes onMessage got).rank
    ≤ 3 * (c.incoming.length - got.length)
      + if c.reading.remainingLength ≤ got.length then 0 else c.reading.state.rank
  := by
  rw [Connection.onPayload]
  simp only
  split
  case isTrue hdone =>
    rw [if_pos (by omega), ← List.length_drop]
    apply rank_onFragment
  case isFalse hmore =>
    rw [if_neg (by omega)]
    apply rank_onBytes

end

/-! ### Steps -/

namespace Connection

/-- A read that starts with a frame has both bytes of the header. -/
def HeaderWhole (c : Connection) : Step → Prop
  | .read k => c.reading.state = .miniHeader → 2 ≤ k
  | _ => True

namespace Step

def isRead : Step → Bool
  | .read _ => true
  | _ => false

end Step

end Connection

section

variable {maxPayloadBytes : ℕ} {mayFail : Bool} {onMessage : List Handled → Option (Bytes × ℕ)}
  {ms : List (Bytes × Bool)} {fs : List Frame} {c : Connection}

theorem inv_onRead (h : Inv maxPayloadBytes mayFail ms fs c) (hopen : c.isOpen = true) {k : ℕ}
    (hk : mayFail = true ∨ (c.reading.state = .miniHeader → 2 ≤ k)) :
  ∃ fs', Inv maxPayloadBytes mayFail ms fs' (c.onRead maxPayloadBytes onMessage k)
    ∧ (c.onRead maxPayloadBytes onMessage k).rank ≤ c.rank - 1
  := by
  have hrank : c.rank = 3 * c.incoming.length + c.reading.state.rank := by
    rw [Connection.rank, if_pos hopen]
  obtain ⟨r, hr⟩ : ∃ r, c.reading = r := ⟨_, rfl⟩
  obtain ⟨s, hs⟩ : ∃ s, c.incoming = s := ⟨_, rfl⟩
  have hexpects := h.expects hopen
  rw [hr, hs] at hexpects
  rw [Connection.onRead, hrank]
  cases hexpects with
  | miniHeader hstate hfragment =>
      subst hr
      simp only [hstate]
      cases fs with
      | nil =>
          rw [hs, hstate] at hrank
          use []
          rw [if_pos (by rw [hs]; rfl), hs, hrank]
          exact ⟨h, le_rfl⟩
      | cons f fs =>
          have htwo : 2 ≤ c.incoming.length := by
            rw [hs, List.flatMap_cons, Frame.encode]
            simp only [List.length_append, List.length_cons]
            omega
          rw [if_neg (by rw [List.isEmpty_iff_length_eq_zero]; omega)]
          have hlt :
              (c.onMiniHeader maxPayloadBytes (c.incoming.take (min 2 (max 1 k)))).rank ≤ _ :=
            rank_onMiniHeader _ _
          rw [List.length_take_of_le (by omega)] at hlt
          by_cases hle : 2 ≤ k
          · have hmin : min 2 (max 1 k) = 2 := by omega
            rw [hmin] at hlt ⊢
            obtain ⟨fs', hinv⟩ := inv_onMiniHeader h hopen hfragment hs
            exact ⟨fs', hinv, by omega⟩
          · have hmin : min 2 (max 1 k) = 1 := by omega
            obtain hfail | hwhole := hk
            · rw [hmin] at hlt ⊢
              obtain ⟨b, hb⟩ : ∃ b, c.incoming.take 1 = [b] := by
                rw [hs]
                exact ⟨_, rfl⟩
              rw [hb]
              use f :: fs
              constructor
              · apply Inv.of_closes h.fits _ h.messages (Closes.onMiniHeader c (singleton_and b))
                rw [hfail]
                rintro ⟨⟩
              · rw [hb] at hlt
                omega
            · exact absurd (hwhole hstate) hle
  | @len16 f fs _ hstate hof hfragment hlength hlt =>
      subst hr
      simp only [hstate]
      have htwo : 2 ≤ c.incoming.length := by
        rw [hs, hlength]
        simp only [List.length_append, Endian.length_toBE]
        omega
      rw [if_neg (by omega)]
      use f :: fs, inv_onLen16 h hopen hof hfragment hlength hlt hs
      have hle : (c.onLen16 maxPayloadBytes).rank ≤ 3 * (c.incoming.length - 2) + 2 :=
        rank_onBytes _ _ _
      omega
  | @len64 f fs _ hstate hof hfragment hlength =>
      subst hr
      simp only [hstate]
      have height : 8 ≤ c.incoming.length := by
        rw [hs, hlength]
        simp only [List.length_append, Endian.length_toBE]
        omega
      rw [if_neg (by omega)]
      use f :: fs, inv_onLen64 h hopen hof hfragment hlength hs
      have hle : (c.onLen64 maxPayloadBytes).rank ≤ 3 * (c.incoming.length - 8) + 2 :=
        rank_onBytes _ _ _
      omega
  | @mask f fs _ hstate hof hfragment hremaining =>
      subst hr
      simp only [hstate]
      have hfour : 4 ≤ c.incoming.length := by
        obtain ⟨mask, hmask⟩ := Option.isSome_iff_exists.mp hof.isSome
        have hlength : f.maskBytes.length = 4 := by
          rw [Frame.maskBytes, hmask]
          apply f.length_mask mask hmask
        rw [hs, List.length_append, List.length_append, hlength]
        omega
      rw [if_neg (by omega)]
      use f :: fs, inv_onMask h hopen hof hfragment hremaining hs
      have hle : (c.onMask maxPayloadBytes).rank ≤ 3 * (c.incoming.length - 4) + 1 :=
        rank_onBytes _ _ _
      omega
  | @payload f fs _ n hstate hof hmask hfragment hremaining hle =>
      subst hr
      simp only [hstate]
      have hlength : c.reading.remainingLength ≤ c.incoming.length := by
        rw [hremaining, hs, List.length_append, List.length_drop, f.length_body]
        omega
      rw [if_neg (by rw [List.isEmpty_iff_length_eq_zero]; omega)]
      have hm : min (min 4096 c.reading.remainingLength) (max 1 k) ≤ c.reading.remainingLength := by
        omega
      have hgot : 0 < c.reading.remainingLength →
          0 < min (min 4096 c.reading.remainingLength) (max 1 k) := by
        omega
      generalize min (min 4096 c.reading.remainingLength) (max 1 k) = m at hm hgot ⊢
      obtain ⟨fs', hinv⟩ : ∃ fs', Inv maxPayloadBytes mayFail ms fs'
          (c.onPayload maxPayloadBytes onMessage (c.incoming.take m)) :=
        inv_onPayload h hopen hstate hof hmask hfragment hremaining hle hs hm
      use fs', hinv
      have hlt : (c.onPayload maxPayloadBytes onMessage (c.incoming.take m)).rank ≤ _ :=
        rank_onPayload _ _
      rw [List.length_take_of_le (by omega), hstate] at hlt
      have hone : ReadState.payload.rank = 1 := rfl
      split at hlt
      · omega
      · omega

theorem inv_step (h : Inv maxPayloadBytes mayFail ms fs c) {l : Connection.Step}
    (hwhole : mayFail = true ∨ c.HeaderWhole l) (hfail : l = .readError → mayFail = true) :
  ∃ fs', Inv maxPayloadBytes mayFail ms fs' (c.step maxPayloadBytes onMessage l)
    ∧ (c.step maxPayloadBytes onMessage l).rank ≤ c.rank - l.isRead.toNat
  := by
  have hother : l.endsRead = false → l.isRead = false →
      ∃ fs', Inv maxPayloadBytes mayFail ms fs' (c.step maxPayloadBytes onMessage l)
        ∧ (c.step maxPayloadBytes onMessage l).rank ≤ c.rank - l.isRead.toNat := by
    intro hl hzero
    have hsame : Same c (c.step maxPayloadBytes onMessage l) := Same.step c hl
    rw [hzero]
    exact ⟨fs, h.of_same hsame, (rank_of_same hsame).le⟩
  have hdeleted : c.deleted = true → c.rank = 0 := by
    intro hthis
    rw [Connection.rank, h.deleted hthis]
    rfl
  cases l with
  | read k =>
      rw [Connection.step.eq_def]
      split
      case isTrue hthis => exact ⟨fs, h, by rw [hdeleted hthis]; apply Nat.zero_le⟩
      simp only
      split
      case isTrue hreading =>
        rw [Bool.and_eq_true] at hreading
        exact inv_onRead h hreading.1 hwhole
      case isFalse hreading =>
        have hclosed : ¬c.isOpen = true := by
          intro hopen
          rw [hopen, (h.isReading hopen).2] at hreading
          exact hreading rfl
        have hzero : c.rank = 0 := if_neg hclosed
        exact ⟨fs, h, by rw [hzero]; apply Nat.zero_le⟩
  | readError =>
      rw [Connection.step.eq_def]
      use fs
      split
      · exact ⟨h, le_rfl⟩
      simp only
      split
      · constructor
        · apply Inv.of_same _ (Same.checkDestroy _ _)
          refine .of_closes h.fits ?_ h.messages ⟨rfl, rfl, rfl, rfl⟩
          intro hnot
          rw [hfail rfl] at hnot
          cases hnot
        · rw [rank_of_same (Same.checkDestroy _ _)]
          apply Nat.zero_le
      · exact ⟨h, le_rfl⟩
  | post task => exact hother rfl rfl
  | task => exact hother rfl rfl
  | close msg status => exact hother rfl rfl
  | written ok n => exact hother rfl rfl

/-- What holds after a run. -/
theorem inv_run (h : Inv maxPayloadBytes mayFail ms fs c) {ls : List Connection.Step}
    (hwhole : mayFail = true ∨ Machine.EveryStep (Connection.step maxPayloadBytes onMessage)
      Connection.HeaderWhole c ls)
    (hfail : Connection.Step.readError ∈ ls → mayFail = true) :
  ∃ fs', Inv maxPayloadBytes mayFail ms fs'
      (Machine.run (Connection.step maxPayloadBytes onMessage) c ls)
    ∧ (Machine.run (Connection.step maxPayloadBytes onMessage) c ls).rank
      ≤ c.rank - ls.countP Connection.Step.isRead
  := by
  induction ls generalizing c fs with
  | nil => exact ⟨fs, h, le_rfl⟩
  | cons l ls ih =>
      have hl : l = .readError → mayFail = true := by
        rintro rfl
        apply hfail List.mem_cons_self
      obtain ⟨fs₁, hinv₁, hrank₁⟩ := inv_step h (hwhole.imp_right And.left) hl
      obtain ⟨fs₂, hinv₂, hrank₂⟩ :=
        ih hinv₁ (hwhole.imp_right And.right) (fun hmem => hfail (List.mem_cons_of_mem l hmem))
      use fs₂, hinv₂
      rw [List.countP_cons]
      rw [Machine.run_cons]
      cases hread : l.isRead with
      | true =>
          rw [hread, Bool.toNat_true] at hrank₁
          rw [if_pos rfl]
          omega
      | false =>
          rw [hread, Bool.toNat_false] at hrank₁
          rw [if_neg Bool.false_ne_true]
          omega

theorem inv_start (hfits : Fits maxPayloadBytes mayFail fs) (isBinary : Bool)
    (hello : List Bytes) :
  Inv maxPayloadBytes mayFail (messagesOf [] isBinary fs) fs
    (Connection.start isBinary hello (fs.flatMap Frame.encode))
  := by
  apply Inv.of_open hfits rfl ⟨rfl, rfl⟩ rfl rfl
  · exact .miniHeader rfl rfl
  · rfl

/-- When there is nothing to read, all messages have been handed over. -/
theorem received_of_rank (h : Inv maxPayloadBytes false ms fs c) (hrank : c.rank = 0) :
  received c.handled = ms
  := by
  suffices hnil : fs = [] by
    have hmessages := h.messages
    rw [hnil, messagesOf, List.append_nil] at hmessages
    exact hmessages
  cases hopen : c.isOpen with
  | false => apply h.closed rfl hopen
  | true =>
      rw [Connection.rank, if_pos hopen] at hrank
      have hempty : c.incoming = [] := List.length_eq_zero_iff.mp (by omega)
      have hstate : c.reading.state.rank = 0 := by omega
      have hexpects := h.expects hopen
      rw [hempty] at hexpects
      generalize c.reading = r at hexpects hstate
      generalize hs : [] = s at hexpects
      have hlong : ∀ {k : ℕ} {f : Frame} {b : Bytes}, f.longLength = toBE (k + 1) f.payload.length →
          [] ≠ f.longLength ++ b := by
        intro k f b hlength hnil
        have hzero := congrArg List.length hnil
        rw [List.length_append, hlength, Endian.length_toBE, List.length_nil] at hzero
        omega
      cases hexpects with
      | miniHeader hstate' hfragment =>
          cases fs with
          | nil => rfl
          | cons f fs =>
              rw [List.flatMap_cons, Frame.encode] at hs
              cases hs
      | len16 hstate' hof hfragment hlength hlt =>
          rw [List.append_assoc, List.append_assoc] at hs
          exact absurd hs (hlong hlength)
      | len64 hstate' hof hfragment hlength =>
          rw [List.append_assoc, List.append_assoc] at hs
          exact absurd hs (hlong hlength)
      | mask hstate' hof hfragment hremaining =>
          rw [hstate'] at hstate
          cases hstate
      | payload n hstate' hof hmask hfragment hremaining hle =>
          rw [hstate'] at hstate
          cases hstate

/-- Whatever happens, the message handler is called for the messages of the peer in their order. -/
theorem received_prefix (h : Carries ms fs) (isBinary : Bool) (hello : List Bytes)
    (ls : List Connection.Step) :
  received (Machine.run (Connection.step maxPayloadBytes onMessage)
    (Connection.start isBinary hello (fs.flatMap Frame.encode)) ls).handled <+: ms
  := by
  have hfits : Fits maxPayloadBytes true fs := by rintro ⟨⟩
  obtain ⟨fs', hinv, -⟩ := inv_run (inv_start hfits isBinary hello) (.inl rfl) (fun _ => rfl)
  rw [← h.messagesOf_eq isBinary, ← hinv.messages]
  apply List.prefix_append

/-- When it was read often enough, without an error, and no payload is above the limit, every
message has been handed over. -/
theorem received_eq (h : Carries ms fs) (hfits : ∀ f ∈ fs, f.payload.length ≤ maxPayloadBytes)
    (isBinary : Bool) (hello : List Bytes) {ls : List Connection.Step}
    (hwhole : Machine.EveryStep (Connection.step maxPayloadBytes onMessage)
      Connection.HeaderWhole (Connection.start isBinary hello (fs.flatMap Frame.encode)) ls)
    (herror : Connection.Step.readError ∉ ls)
    (hreads : 3 * (fs.flatMap Frame.encode).length ≤ ls.countP Connection.Step.isRead) :
  received (Machine.run (Connection.step maxPayloadBytes onMessage)
    (Connection.start isBinary hello (fs.flatMap Frame.encode)) ls).handled = ms
  := by
  obtain ⟨fs', hinv, hrank⟩ := inv_run (inv_start (fun _ => hfits) isBinary hello) (.inr hwhole)
    (fun hmem => absurd hmem herror)
  have hstart : (Connection.start isBinary hello (fs.flatMap Frame.encode)).rank
      = 3 * (fs.flatMap Frame.encode).length :=
    rfl
  rw [hstart] at hrank
  rw [received_of_rank hinv (by omega), h.messagesOf_eq]

/-! ### A header in two pieces -/

/-- A deleted connection stays deleted, also where `do_read` goes on with it. -/
theorem deleted_doRead (hdeleted : c.deleted = true) :
  (c.doRead maxPayloadBytes).deleted = true
  := by
  have hdestroy : ∀ (c' : Connection) (code : ℕ), c'.deleted = c.deleted →
      (c'.checkDestroy code).deleted = true := by
    intro c' code hsame
    rw [Connection.checkDestroy, hsame, hdeleted]
    rfl
  rw [Connection.doRead]
  split
  · exact hdestroy _ _ rfl
  · simp only
    split
    case h_4 =>
      split
      · exact hdestroy _ _ rfl
      split
      · exact hdeleted
      · exact hdeleted
    all_goals exact hdeleted

/-- When only the first byte of a frame has come, the socket is closed, and nothing is handed over
any more. If nothing is being written, the connection is deleted before the handler is done. -/
theorem received_read_one (hopen : c.isOpen = true) (hpending : c.isPending = true)
    (hstate : c.reading.state = .miniHeader) (hdeleted : c.deleted = false)
    (hin : c.incoming ≠ []) (ls : List Connection.Step) :
  (c.step maxPayloadBytes onMessage (.read 1)).isOpen = false
    ∧ (c.sendingBuffers = [] → (c.step maxPayloadBytes onMessage (.read 1)).deleted = true)
    ∧ received (Machine.run (Connection.step maxPayloadBytes onMessage) c (.read 1 :: ls)).handled
      = received c.handled
  := by
  obtain ⟨b, rest, hcons⟩ := List.exists_cons_of_ne_nil hin
  have hstep : c.step maxPayloadBytes onMessage (.read 1) = c.onMiniHeader maxPayloadBytes [b] := by
    rw [step_read hopen hpending hdeleted, Connection.onRead]
    simp only [hstate]
    rw [hcons]
    rfl
  have hcloses : Closes c (c.onMiniHeader maxPayloadBytes [b]) :=
    Closes.onMiniHeader c (singleton_and b)
  rw [Machine.run_cons, hstep]
  refine ⟨hcloses.isOpen, ?_, ?_⟩
  · intro hsending
    rw [Connection.onMiniHeader]
    simp only [if_neg (singleton_and b)]
    rw [Connection.onHeader]
    apply deleted_doRead
    rw [Connection.checkDestroy, Connection.onBytes, hsending, hdeleted]
    rfl
  · exact (Closes.run hcloses.isOpen ls).messages.trans hcloses.messages

end

namespace Sample

def first : Frame :=
  ⟨false, 1, some [13, 14, 15, 16], [104], by decide, by rintro _ ⟨⟩; rfl, by decide⟩

def ping : Frame := ⟨true, 9, some [9, 10, 11, 12], [], by decide, by rintro _ ⟨⟩; rfl, by decide⟩

def last : Frame := ⟨true, 0, some [5, 6, 7, 8], [105], by decide, by rintro _ ⟨⟩; rfl, by decide⟩

/-- A text in two fragments, and a ping between them. -/
def frames : List Frame := [first, ping, last]

theorem carries_frames :
  Carries [([104, 105], false)] frames
  := by
  have hrest : Continues last.payload [ping, last] :=
    .control ⟨.inl rfl, rfl⟩ (.last ⟨rfl, rfl, rfl⟩)
  exact .fragments (f := first) ⟨.inl rfl, rfl, rfl⟩ hrest .nil

theorem everyStep_replicate (onMessage : List Handled → Option (Bytes × ℕ)) (n : ℕ) :
  Machine.EveryStep (Connection.step 64 onMessage) Connection.HeaderWhole
    (Connection.start false [] (frames.flatMap Frame.encode))
    (List.replicate n (.read 4096))
  := by
  apply Machine.EveryStep.mono (C := fun _ l => l = .read 4096)
  · rintro c _ rfl _
    decide
  · apply Machine.everyStep_of_forall_mem
    intro l hl
    apply List.eq_of_mem_replicate hl

theorem received_prefix_frames :
  received (Machine.run (Connection.step 64 fun _ => none)
    (Connection.start false [] (frames.flatMap Frame.encode))
    (List.replicate 4 (.read 4096))).handled <+: [([104, 105], false)]
  := received_prefix carries_frames false [] _

theorem received_eq_frames :
  received (Machine.run (Connection.step 64 fun _ => none)
    (Connection.start false [] (frames.flatMap Frame.encode))
    (List.replicate 60 (.read 4096))).handled = [([104, 105], false)]
  := received_eq carries_frames (by decide) false [] (everyStep_replicate _ 60)
    (fun h => by cases List.eq_of_mem_replicate h) (by rw [List.countP_replicate]; decide)

theorem received_read_one_frames :
  ((Connection.start false [] (frames.flatMap Frame.encode)).step 64 (fun _ => none)
    (.read 1)).deleted = true
  := (received_read_one rfl rfl rfl rfl (List.cons_ne_nil _ _) []).2.1 rfl

end Sample

end WebSocket

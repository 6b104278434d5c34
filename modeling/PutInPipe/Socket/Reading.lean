import PutInPipe.Socket.Steps

/-!
# Reading frames in pieces

The bytes of the frames come in pieces. `Expects` says what is still to come of them when some bytes
have been read, and `Inv` that the messages that have been handed over and those that are to come
are the messages of the frames.
-/

open Text (Bytes)
open Endian (ofLE toLE toBE)

namespace WebSocket

/-! ### What is still to come -/

/-- The first two bytes of the frame have been read, and it has a mask. -/
structure Reading.Of (r : Reading) (f : Frame) : Prop where
  miniHeader : r.miniHeader = f.header
  hasMask : r.hasMask = true
  isSome : f.mask.isSome = true

/-- The bytes to come are those of the frames, of which the first may have been read in part. -/
inductive Expects : List Frame → Reading → Bytes → Prop where
  | miniHeader {fs : List Frame} {r : Reading} (hstate : r.state = .miniHeader)
      (hfragment : r.fragment = []) : Expects fs r (fs.flatMap Frame.encode)
  | len16 {f : Frame} {fs : List Frame} {r : Reading} (hstate : r.state = .len16) (hof : r.Of f)
      (hfragment : r.fragment = []) (hlength : f.longLength = toBE 2 f.payload.length)
      (hlt : f.payload.length < 0x10000) :
      Expects (f :: fs) r (f.longLength ++ f.maskBytes ++ f.body ++ fs.flatMap Frame.encode)
  | len64 {f : Frame} {fs : List Frame} {r : Reading} (hstate : r.state = .len64) (hof : r.Of f)
      (hfragment : r.fragment = []) (hlength : f.longLength = toBE 8 f.payload.length) :
      Expects (f :: fs) r (f.longLength ++ f.maskBytes ++ f.body ++ fs.flatMap Frame.encode)
  | mask {f : Frame} {fs : List Frame} {r : Reading} (hstate : r.state = .mask) (hof : r.Of f)
      (hfragment : r.fragment = []) (hremaining : r.remainingLength = f.payload.length) :
      Expects (f :: fs) r (f.maskBytes ++ f.body ++ fs.flatMap Frame.encode)
  | payload {f : Frame} {fs : List Frame} {r : Reading} (n : ℕ) (hstate : r.state = .payload)
      (hof : r.Of f) (hmask : ∀ mask ∈ f.mask, r.mask = mask)
      (hfragment : r.fragment = f.body.take n)
      (hremaining : r.remainingLength = f.payload.length - n) (hle : n ≤ f.payload.length) :
      Expects (f :: fs) r (f.body.drop n ++ fs.flatMap Frame.encode)

/-- Where nothing may fail, no payload is above the limit. -/
def Fits (maxPayloadBytes : ℕ) (mayFail : Bool) (fs : List Frame) : Prop :=
  mayFail = false → ∀ f ∈ fs, f.payload.length ≤ maxPayloadBytes

/-- What holds between the steps, where `ms` are the messages of all frames and `fs` the frames
that have not been read. Where `mayFail`, a read may come back with an error, or with less than a
header, and a payload may be above the limit. -/
structure Inv (maxPayloadBytes : ℕ) (mayFail : Bool) (ms : List (Bytes × Bool)) (fs : List Frame)
    (c : Connection) : Prop where
  fits : Fits maxPayloadBytes mayFail fs
  isReading : c.isOpen = true → c.isReading = true ∧ c.isPending = true
  expects : c.isOpen = true → Expects fs c.reading c.incoming
  messages : received c.handled ++ messagesOf c.message c.isBinary fs = ms
  deleted : c.deleted = true → c.isOpen = false
  hasRecvClose : c.isOpen = true → c.hasRecvClose = false
  closed : mayFail = false → c.isOpen = false → fs = []

section

variable {maxPayloadBytes : ℕ} {mayFail : Bool} {onMessage : List Handled → Option (Bytes × ℕ)}
  {ms : List (Bytes × Bool)} {fs : List Frame} {f : Frame} {c c' : Connection}

theorem Inv.of_same (h : Inv maxPayloadBytes mayFail ms fs c) (hsame : Same c c') :
  Inv maxPayloadBytes mayFail ms fs c'
  where
    fits := h.fits
    isReading hopen := by
      rw [hsame.isReading, hsame.isPending]
      apply h.isReading (hsame.isOpen ▸ hopen)
    expects hopen := by
      rw [hsame.reading, hsame.incoming]
      apply h.expects (hsame.isOpen ▸ hopen)
    messages := by
      rw [hsame.messages, hsame.message, hsame.isBinary]
      apply h.messages
    deleted hdeleted := by
      rw [hsame.isOpen]
      obtain hdeleted | hreading := hsame.deleted hdeleted
      · apply h.deleted hdeleted
      · cases hopen : c.isOpen with
        | false => rfl
        | true => rw [(h.isReading hopen).1] at hreading; cases hreading
    hasRecvClose hopen := by
      rw [hsame.hasRecvClose]
      apply h.hasRecvClose (hsame.isOpen ▸ hopen)
    closed hfail hopen := h.closed hfail (hsame.isOpen ▸ hopen)

/-! ### Reading goes on -/

theorem Inv.not_deleted (h : Inv maxPayloadBytes mayFail ms fs c) (hopen : c.isOpen = true) :
  c.deleted = false
  := by
  cases hdeleted : c.deleted with
  | false => rfl
  | true => exact absurd ((h.deleted hdeleted).symm.trans hopen) Bool.false_ne_true

theorem Inv.of_open (hfits : Fits maxPayloadBytes mayFail fs)
    (hopen : c.isOpen = true) (hreading : c.isReading = true ∧ c.isPending = true)
    (hdeleted : c.deleted = false) (hrecv : c.hasRecvClose = false)
    (hexpects : Expects fs c.reading c.incoming)
    (hmessages : received c.handled ++ messagesOf c.message c.isBinary fs = ms) :
  Inv maxPayloadBytes mayFail ms fs c
  where
    fits := hfits
    isReading _ := hreading
    expects _ := hexpects
    messages := hmessages
    deleted h := absurd h (hdeleted ▸ Bool.false_ne_true)
    hasRecvClose _ := hrecv
    closed _ h := absurd (h ▸ hopen) Bool.false_ne_true

/-- Nothing is read from a closed socket. -/
theorem Inv.of_closes (hfits : Fits maxPayloadBytes mayFail fs)
    (hclosed : mayFail = false → fs = [])
    (hmessages : received c.handled ++ messagesOf c.message c.isBinary fs = ms)
    (h : Closes c c') :
  Inv maxPayloadBytes mayFail ms fs c'
  where
    fits := hfits
    isReading hopen := absurd (h.isOpen.symm.trans hopen) Bool.false_ne_true
    expects hopen := absurd (h.isOpen.symm.trans hopen) Bool.false_ne_true
    messages := by
      rw [h.messages, h.message, h.isBinary]
      apply hmessages
    deleted _ := h.isOpen
    hasRecvClose hopen := absurd (h.isOpen.symm.trans hopen) Bool.false_ne_true
    closed hfail _ := hclosed hfail

theorem Inv.of_last (hopen : c.isOpen = false) (hmessages : received c.handled = ms) :
  Inv maxPayloadBytes mayFail ms [] c
  := by
  apply Inv.of_closes (fun _ => List.forall_mem_nil _) (fun _ => rfl) _ (Closes.refl hopen)
  rw [messagesOf, List.append_nil]
  apply hmessages

/-- `do_read` goes on to read what is expected. -/
theorem inv_doRead (hfits : Fits maxPayloadBytes mayFail fs)
    (hopen : c.isOpen = true) (hdeleted : c.deleted = false)
    (hrecv : c.hasRecvClose = true → c.hasSentClose = true ∧ fs = [])
    (hexpects : Expects fs c.reading c.incoming)
    (hmessages : received c.handled ++ messagesOf c.message c.isBinary fs = ms) :
  Inv maxPayloadBytes mayFail ms fs (c.doRead maxPayloadBytes)
  := by
  rw [Connection.doRead]
  split
  case isTrue h =>
    rw [Bool.and_eq_true] at h
    obtain ⟨-, rfl⟩ := hrecv h.2
    rw [messagesOf, List.append_nil] at hmessages
    apply Inv.of_same _ (Same.checkDestroy _ _)
    exact .of_last rfl hmessages
  case isFalse h =>
    have hrecv : c.hasRecvClose = false := by
      cases hthis : c.hasRecvClose with
      | false => rfl
      | true => exact absurd (by rw [(hrecv hthis).1, hthis]; rfl) h
    have hnext : ∀ r : Reading, Expects fs r c.incoming →
        Inv maxPayloadBytes mayFail ms fs
          { c with isReading := true, isPending := true, reading := r } :=
      fun r hexpects => .of_open hfits hopen ⟨rfl, rfl⟩ hdeleted hrecv hexpects hmessages
    clear h hrecv
    generalize c.reading = r at hexpects ⊢
    generalize hin : c.incoming = s at hexpects hnext
    cases hexpects with
    | miniHeader hstate hfragment =>
        simp only [hstate]
        apply hnext
        exact .miniHeader rfl hfragment
    | len16 hstate hof hfragment hlength hlt =>
        simp only [hstate]
        apply hnext
        exact .len16 rfl ⟨hof.1, hof.2, hof.3⟩ hfragment hlength hlt
    | len64 hstate hof hfragment hlength =>
        simp only [hstate]
        apply hnext
        exact .len64 hstate hof hfragment hlength
    | @mask f fs r hstate hof hfragment hremaining =>
        simp only [hstate]
        split
        case isTrue hlength =>
          apply Inv.of_same _ (Same.checkDestroy _ _)
          refine .of_closes hfits ?_ hmessages ⟨rfl, rfl, rfl, rfl⟩
          intro hfail
          have hle := hfits hfail f List.mem_cons_self
          omega
        case isFalse hlength =>
          rw [if_pos hof.hasMask]
          apply hnext
          exact .mask hstate hof hfragment hremaining
    | payload n hstate hof hmask hfragment hremaining hle =>
        simp only [hstate]
        apply hnext
        exact .payload n hstate hof hmask hfragment hremaining hle

theorem inv_onBytes (h : Inv maxPayloadBytes mayFail ms fs c) (hopen : c.isOpen = true)
    {r : Reading} {n : ℕ} (hexpects : Expects fs r (c.incoming.drop n)) :
  Inv maxPayloadBytes mayFail ms fs ((c.onBytes r n).doRead maxPayloadBytes)
  := by
  apply inv_doRead h.fits
  · exact hopen
  · apply h.not_deleted hopen
  · intro hrecv
    exact absurd ((h.hasRecvClose hopen).symm.trans hrecv) Bool.false_ne_true
  · exact hexpects
  · exact h.messages

/-! ### A whole frame -/

theorem hasSentClose_close (c : Connection) (msg : Bytes) (status : ℕ) :
  (c.close msg status).hasSentClose = true ∧ (c.close msg status).deleted = c.deleted
  := by
  rw [Connection.close, Connection.write, Connection.doWrite]
  split
  · split <;> exact ⟨rfl, rfl⟩
  · split <;> exact ⟨rfl, rfl⟩

/-- Nothing that is read or closed changes. -/
structure Handles (c c' : Connection) : Prop where
  incoming : c'.incoming = c.incoming
  isOpen : c'.isOpen = c.isOpen
  deleted : c'.deleted = c.deleted
  hasRecvClose : c'.hasRecvClose = c.hasRecvClose

theorem handles_appendFragment (c : Connection) (fin : Bool) (fragment : Bytes) :
  Handles c (c.appendFragment onMessage fin fragment)
  := by
  rw [Connection.appendFragment]
  split
  · simp only
    split
    · rename_i msg status _
      have hsame := Same.close { c with
        message := c.message ++ fragment
        handled := c.handled ++ [.message (c.message ++ fragment) c.isBinary] } msg status
      exact ⟨hsame.incoming, hsame.isOpen, (hasSentClose_close _ _ _).2, hsame.hasRecvClose⟩
    · exact ⟨rfl, rfl, rfl, rfl⟩
  · exact ⟨rfl, rfl, rfl, rfl⟩

theorem messages_appendFragment (c : Connection) (fin : Bool) (fragment : Bytes) :
  received (c.appendFragment onMessage fin fragment).handled
      = received c.handled ++ (if fin then [(c.message ++ fragment, c.isBinary)] else [])
    ∧ (c.appendFragment onMessage fin fragment).message
      = (if fin then [] else c.message ++ fragment)
    ∧ (c.appendFragment onMessage fin fragment).isBinary = c.isBinary
  := by
  rw [Connection.appendFragment]
  split
  · simp only
    split
    · rename_i msg status _
      have hsame := Same.close { c with
        message := c.message ++ fragment
        handled := c.handled ++ [.message (c.message ++ fragment) c.isBinary] } msg status
      exact ⟨hsame.messages.trans (received_message _ _ _), trivial, hsame.isBinary⟩
    · exact ⟨received_message _ _ _, trivial, rfl⟩
  · exact ⟨(List.append_nil _).symm, rfl, rfl⟩

/-- A frame that is not the last one is handled as its messages say. -/
theorem handleFrame_of_not_isLast (c : Connection) (h : ¬f.IsLast) :
  ∃ c', c.handleFrame onMessage f.fin f.opcode f.payload = (c', true) ∧ Handles c c'
    ∧ received c'.handled ++ messagesOf c'.message c'.isBinary fs
      = received c.handled ++ messagesOf c.message c.isBinary (f :: fs)
  := by
  have hhandles : ∀ isBinary,
      Handles c ({ c with isBinary }.appendFragment onMessage f.fin f.payload) := by
    intro isBinary
    obtain ⟨hincoming, hopen, hdeleted, hrecv⟩ : Handles { c with isBinary }
        ({ c with isBinary }.appendFragment onMessage f.fin f.payload) :=
      handles_appendFragment _ _ _
    exact ⟨hincoming, hopen, hdeleted, hrecv⟩
  have happend : ∀ isBinary, f.isBinary c.isBinary = isBinary → f.opcode ≤ 2 →
      received ({ c with isBinary }.appendFragment onMessage f.fin f.payload).handled
        ++ messagesOf ({ c with isBinary }.appendFragment onMessage f.fin f.payload).message
          ({ c with isBinary }.appendFragment onMessage f.fin f.payload).isBinary fs
      = received c.handled ++ messagesOf c.message c.isBinary (f :: fs) := by
    intro isBinary hbinary hle
    obtain ⟨hhandled, hmessage, hsame⟩ :=
      messages_appendFragment { c with isBinary } f.fin f.payload
    rw [hhandled, hmessage, hsame, messagesOf, if_neg h, if_pos hle, hbinary]
    cases f.fin with
    | true => simp
    | false => simp
  have hother : 2 < f.opcode →
      messagesOf c.message c.isBinary (f :: fs) = messagesOf c.message c.isBinary fs := by
    intro hlt
    rw [messagesOf, if_neg h, if_neg (by omega)]
  rw [Connection.handleFrame.eq_def]
  split
  case h_1 hopcode =>
    have hbinary : f.isBinary c.isBinary = c.isBinary := by
      simp [Frame.isBinary, hopcode]
    exact ⟨_, rfl, hhandles _, happend _ hbinary (by omega)⟩
  case h_2 hopcode =>
    have hbinary : f.isBinary c.isBinary = false := by
      simp [Frame.isBinary, hopcode]
    exact ⟨_, rfl, hhandles _, happend _ hbinary (by omega)⟩
  case h_3 hopcode =>
    have hbinary : f.isBinary c.isBinary = true := by
      simp [Frame.isBinary, hopcode]
    exact ⟨_, rfl, hhandles _, happend _ hbinary (by omega)⟩
  case h_4 hopcode => exact absurd (.inl hopcode) h
  case h_5 hopcode => exact ⟨_, rfl, ⟨rfl, rfl, rfl, rfl⟩, by rw [hother (by omega)]⟩
  case h_6 hopcode => exact ⟨_, rfl, ⟨rfl, rfl, rfl, rfl⟩, by rw [hother (by omega)]⟩
  case h_7 hzero hone htwo _ _ _ =>
    have hne : f.opcode ≠ 0 ∧ f.opcode ≠ 1 ∧ f.opcode ≠ 2 := ⟨hzero, hone, htwo⟩
    exact ⟨_, rfl, ⟨rfl, rfl, rfl, rfl⟩, by rw [hother (by omega)]⟩

theorem Frame.header_unmasked {r : Reading} (hof : r.Of f) (hmask : ∀ mask ∈ f.mask, r.mask = mask)
    (hfragment : r.fragment = f.body) :
  r.isFIN = f.fin ∧ r.opcode = f.opcode ∧ r.unmasked = f.payload
  := by
  rw [Reading.isFIN, Reading.opcode, hof.miniHeader]
  use f.header_high.1, f.header_high.2
  obtain ⟨mask, hthis⟩ := Option.isSome_iff_exists.mp hof.isSome
  rw [Reading.unmasked, if_pos hof.hasMask, hfragment, Frame.body, hthis, hmask mask hthis]
  apply masked_masked

/-- A frame that closes is answered, or closes the socket. -/
theorem onClose_cases (c : Connection) (fragment : Bytes) :
  (∃ c', c.onClose fragment = (c', true) ∧ c'.hasSentClose = true ∧ c'.hasRecvClose = true
      ∧ received c'.handled = received c.handled)
    ∨ ∃ c', c.onClose fragment = (c', false) ∧ c'.isOpen = false
      ∧ received c'.handled = received c.handled
  := by
  rw [Connection.onClose]
  simp only
  split
  case isTrue h =>
    right
    split
    · exact ⟨_, rfl, rfl, (Same.checkDestroy _ _).messages⟩
    · exact ⟨_, rfl, rfl, (Same.checkDestroy _ _).messages.trans (received_closed _ _ _)⟩
  case isFalse h =>
    left
    generalize (if 2 ≤ fragment.length then fragment.drop 2 else fragment) = reason
    generalize (if 2 ≤ fragment.length then ofBE (fragment.take 2) else NoStatusCodePresent)
      = status
    have hsame := Same.close { c with hasRecvClose := true } reason status
    exact ⟨_, rfl, (hasSentClose_close _ _ _).1, hsame.hasRecvClose, hsame.messages⟩

/-- A frame has been read. -/
theorem inv_onFragment (hfits : Fits maxPayloadBytes mayFail fs)
    (hopen : c.isOpen = true) (hdeleted : c.deleted = false) (hrecv : c.hasRecvClose = false)
    (hof : c.reading.Of f) (hmask : ∀ mask ∈ f.mask, c.reading.mask = mask)
    (hfragment : c.reading.fragment = f.body) (hin : c.incoming = fs.flatMap Frame.encode)
    (hmessages : received c.handled ++ messagesOf c.message c.isBinary (f :: fs) = ms) :
  ∃ fs', Inv maxPayloadBytes mayFail ms fs' (c.onFragment maxPayloadBytes onMessage)
  := by
  obtain ⟨hfin, hopcode, hpayload⟩ := Frame.header_unmasked hof hmask hfragment
  rw [Connection.onFragment, hfin, hopcode, hpayload]
  by_cases hne : f.opcode = 8
  · rw [messagesOf, if_pos (.inl hne), List.append_nil] at hmessages
    have hclose : c.handleFrame onMessage f.fin f.opcode f.payload = c.onClose f.payload := by
      rw [hne]
      rfl
    use []
    rw [hclose]
    obtain ⟨c', hframe, hsent, hrecv, hreceived⟩ | ⟨c', hframe, hclosed, hreceived⟩ :=
      onClose_cases c f.payload
    · rw [hframe]
      simp only
      rw [Connection.doRead, if_pos (by rw [hsent, hrecv]; rfl)]
      apply Inv.of_same _ (Same.checkDestroy _ _)
      exact .of_last rfl (hreceived.trans hmessages)
    · rw [hframe]
      exact .of_last hclosed (hreceived.trans hmessages)
  · use fs
    obtain ⟨c', hframe, hhandles, hmessages'⟩ :=
      handleFrame_of_not_isLast c (Frame.not_isLast hne hof.isSome)
    rw [hframe]
    apply inv_doRead hfits
    · exact hhandles.isOpen.trans hopen
    · exact hhandles.deleted.trans hdeleted
    · intro hthis
      exact absurd ((hhandles.hasRecvClose.trans hrecv).symm.trans hthis) Bool.false_ne_true
    · rw [hhandles.incoming, hin]
      exact .miniHeader rfl rfl
    · exact hmessages'.trans hmessages

/-- The rest of a payload is read, or a piece of it. -/
theorem inv_onPayload (h : Inv maxPayloadBytes mayFail ms (f :: fs) c) (hopen : c.isOpen = true)
    (hstate : c.reading.state = .payload) (hof : c.reading.Of f)
    (hmask : ∀ mask ∈ f.mask, c.reading.mask = mask) {n m : ℕ}
    (hfragment : c.reading.fragment = f.body.take n)
    (hremaining : c.reading.remainingLength = f.payload.length - n) (hle : n ≤ f.payload.length)
    (hin : c.incoming = f.body.drop n ++ fs.flatMap Frame.encode)
    (hm : m ≤ c.reading.remainingLength) :
  ∃ fs', Inv maxPayloadBytes mayFail ms fs'
    (c.onPayload maxPayloadBytes onMessage (c.incoming.take m))
  := by
  have hlength : (f.body.drop n).length = f.payload.length - n := by
    rw [List.length_drop, f.length_body]
  have htake : c.incoming.take m = (f.body.drop n).take m := by
    rw [hin, List.take_append_of_le_length (by omega)]
  have hgot : (c.incoming.take m).length = m := by
    rw [htake, List.length_take]
    omega
  have hdrop : c.incoming.drop m = f.body.drop (n + m) ++ fs.flatMap Frame.encode := by
    rw [hin, List.drop_append_of_le_length (by omega), List.drop_drop]
  have hpiece : c.reading.fragment ++ c.incoming.take m = f.body.take (n + m) := by
    rw [hfragment, htake, List.take_add]
  rw [Connection.onPayload, hgot, hpiece, hremaining]
  simp only
  split
  case isFalse hmore =>
    use f :: fs
    apply inv_onBytes h hopen
    rw [hdrop]
    exact .payload (n + m) hstate ⟨hof.1, hof.2, hof.3⟩ hmask rfl (by simp only; omega) (by omega)
  case isTrue hdone =>
    have hall : n + m = f.body.length := by
      rw [f.length_body]
      omega
    apply inv_onFragment
    · intro hfail g hg
      apply h.fits hfail g (List.mem_cons_of_mem f hg)
    · exact hopen
    · apply h.not_deleted hopen
    · apply h.hasRecvClose hopen
    · exact ⟨hof.1, hof.2, hof.3⟩
    · exact hmask
    · simp only [Connection.onBytes, hall, List.take_length]
    · simp only [Connection.onBytes, hdrop, hall, List.drop_length, List.nil_append]
    · exact h.messages

/-- One byte is never a header with a mask. -/
theorem singleton_and (b : UInt8) :
  ¬miniHeaderOf [b] &&& 0x80 = 0x80
  := by
  have hand := and_eq (a := b.toNat) (b := 0) (by decide) 0 (y := 0x80) (by decide)
  rw [Nat.zero_and, Nat.and_zero, Nat.zero_mul, Nat.zero_add] at hand
  rw [miniHeaderOf, List.getD_cons_zero, List.getD_cons_succ, List.getD_nil]
  intro h
  cases hand.symm.trans h

/-- The first two bytes of a frame are read. -/
theorem inv_onMiniHeader (h : Inv maxPayloadBytes mayFail ms (f :: fs) c) (hopen : c.isOpen = true)
    (hfragment : c.reading.fragment = [])
    (hin : c.incoming = (f :: fs).flatMap Frame.encode) :
  ∃ fs', Inv maxPayloadBytes mayFail ms fs' (c.onMiniHeader maxPayloadBytes (c.incoming.take 2))
  := by
  rw [List.flatMap_cons] at hin
  by_cases hmask : f.mask.isSome = true
  case neg =>
    have hlast : f.IsLast := .inr (Option.not_isSome_iff_eq_none.mp hmask)
    have hmessages := h.messages
    rw [messagesOf, if_pos hlast, List.append_nil] at hmessages
    use []
    apply Inv.of_closes (fun _ => List.forall_mem_nil _) (fun _ => rfl)
      (by rw [messagesOf, List.append_nil, hmessages]) (Closes.onMiniHeader c _)
    have htake : c.incoming.take 2
        = [UInt8.ofNat f.first, UInt8.ofNat (f.bit + f.shortLength)] := by
      rw [hin, f.encode_append]
      rfl
    rw [htake]
    simp only [miniHeaderOf, List.getD_cons_zero, List.getD_cons_succ, f.header_eq]
    rw [f.header_low.1]
    exact hmask
  case pos =>
    use f :: fs
    rw [onMiniHeader_header _ c hmask hin, Connection.onHeader]
    simp only [f.header_low.2]
    have hdrop : c.incoming.drop 2
        = f.longLength ++ f.maskBytes ++ f.body ++ fs.flatMap Frame.encode := by
      rw [hin, f.encode_append]
      rfl
    rw [← hdrop]
    apply inv_onBytes (n := 2) h hopen
    rw [hdrop, Frame.shortLength]
    split
    case isTrue hshort =>
      rw [if_neg (by omega), if_neg (by omega)]
      have hlong : f.longLength = [] := by rw [Frame.longLength, if_pos hshort]
      rw [hlong, List.nil_append]
      exact .mask rfl ⟨rfl, rfl, hmask⟩ hfragment rfl
    case isFalse hshort =>
      split
      case isTrue hmiddle =>
        rw [if_neg (by decide), if_pos rfl]
        have hlong : f.longLength = toBE 2 f.payload.length := by
          rw [Frame.longLength, if_neg hshort, if_pos hmiddle]
        exact .len16 rfl ⟨rfl, rfl, hmask⟩ hfragment hlong hmiddle
      case isFalse hmiddle =>
        rw [if_pos rfl]
        have hlong : f.longLength = toBE 8 f.payload.length := by
          rw [Frame.longLength, if_neg hshort, if_neg hmiddle]
        exact .len64 rfl ⟨rfl, rfl, hmask⟩ hfragment hlong

theorem inv_onLen16 (h : Inv maxPayloadBytes mayFail ms (f :: fs) c) (hopen : c.isOpen = true)
    (hof : c.reading.Of f) (hfragment : c.reading.fragment = [])
    (hlength : f.longLength = toBE 2 f.payload.length) (hlt : f.payload.length < 0x10000)
    (hin : c.incoming = f.longLength ++ f.maskBytes ++ f.body ++ fs.flatMap Frame.encode) :
  Inv maxPayloadBytes mayFail ms (f :: fs) (c.onLen16 maxPayloadBytes)
  := by
  have htwo : f.longLength.length = 2 := by
    rw [hlength]
    apply Endian.length_toBE
  rw [Connection.onLen16]
  apply inv_onBytes h hopen
  rw [hin, List.append_assoc, List.append_assoc, List.take_left' htwo, List.drop_left' htwo,
    hlength, ofBE_toBE hlt, ← List.append_assoc]
  exact .mask rfl ⟨hof.1, hof.2, hof.3⟩ hfragment rfl

theorem inv_onLen64 (h : Inv maxPayloadBytes mayFail ms (f :: fs) c) (hopen : c.isOpen = true)
    (hof : c.reading.Of f) (hfragment : c.reading.fragment = [])
    (hlength : f.longLength = toBE 8 f.payload.length)
    (hin : c.incoming = f.longLength ++ f.maskBytes ++ f.body ++ fs.flatMap Frame.encode) :
  Inv maxPayloadBytes mayFail ms (f :: fs) (c.onLen64 maxPayloadBytes)
  := by
  have height : f.longLength.length = 8 := by
    rw [hlength]
    apply Endian.length_toBE
  have hlt : f.payload.length < 256 ^ 8 := by
    have hpow : 256 ^ 8 = 2 ^ 64 := by norm_num
    rw [hpow]
    apply f.length_payload
  rw [Connection.onLen64]
  apply inv_onBytes h hopen
  rw [hin, List.append_assoc, List.append_assoc, List.take_left' height, List.drop_left' height,
    swap_eq_ofBE height, hlength, ofBE_toBE hlt, ← List.append_assoc]
  exact .mask rfl ⟨hof.1, hof.2, hof.3⟩ hfragment rfl

theorem inv_onMask (h : Inv maxPayloadBytes mayFail ms (f :: fs) c) (hopen : c.isOpen = true)
    (hof : c.reading.Of f) (hfragment : c.reading.fragment = [])
    (hremaining : c.reading.remainingLength = f.payload.length)
    (hin : c.incoming = f.maskBytes ++ f.body ++ fs.flatMap Frame.encode) :
  Inv maxPayloadBytes mayFail ms (f :: fs) (c.onMask maxPayloadBytes)
  := by
  obtain ⟨mask, hmask⟩ := Option.isSome_iff_exists.mp hof.isSome
  have hbytes : f.maskBytes = mask := by
    rw [Frame.maskBytes, hmask]
    rfl
  have hfour : mask.length = 4 := f.length_mask mask hmask
  rw [Connection.onMask]
  apply inv_onBytes h hopen
  rw [hin, hbytes, List.append_assoc, List.take_left' hfour, List.drop_left' hfour]
  have hmasks : ∀ m ∈ f.mask, mask = m := by
    intro m hm
    rw [hmask] at hm
    exact Option.some.inj hm
  exact .payload 0 rfl ⟨hof.1, hof.2, hof.3⟩ hmasks hfragment hremaining (Nat.zero_le _)

end

end WebSocket

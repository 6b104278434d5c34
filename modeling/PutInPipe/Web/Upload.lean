import PutInPipe.Web.Sender

/-!
# The upload arrives in order

The page waits for the acceptance of each slice, so that at most one slice is in flight and
the accepted payloads are encryptions of the slices in order. This fails when the page is
greeted after a loss of the connection while it waits for a slice that was not accepted: it
goes on with the next one. `Paced` is what holds as long as that does not happen.
-/

open TransferSessionDetails

/-- The payload of a frame. -/
def Frame.payload? : Frame → Option Bytes
  | .binary data => some data
  | _ => none

/-- The number of accepted chunks a message tells of. -/
def Message.told : Message → ℕ
  | .newChunk index _ => index
  | .startInit _ currentChunk => currentChunk
  | _ => 0

def Message.isNewChunk : Message → Bool
  | .newChunk _ _ => true
  | _ => false

/-- The message tells of no chunk. -/
def Message.Idle (m : Message) : Prop := m.isNewChunk = false ∧ m.told = 0

/-- Where the loop may be when `n` chunks have been accepted. -/
def Phase.Fits (config : Config) (file : SelectedFile) (n : ℕ) : Phase → Prop
  | .idle => n = 0
  | .reading i | .waitingConnection i => n = i ∧ SessionSender.hasSlice config file i = true
  | .waitingAccepted i =>
      (n = i ∨ n = i + 1) ∧ SessionSender.hasSlice config file i = true
  | .waitingSpace i => n = i + 1
  | .done => SessionSender.hasSlice config file n = false
  | .failed => True

namespace Upload

/-- The frames the server may still process. -/
def inFlight (u : Upload) : List Frame := u.stale ++ u.toServer

def payloadsOf (frames : List Frame) : List Bytes := frames.filterMap Frame.payload?

section

variable (config : Config) (file : SelectedFile) (encryptChunk : Bytes → ℕ → Bytes)

/-- The payload is an encryption of slice `i` of the file. -/
def Encrypts (i : ℕ) (payload : Bytes) : Prop :=
  SessionSender.hasSlice config file i = true
    ∧ ∃ nonce, payload = encryptChunk (SessionSender.slice config file i) nonce

/-- The accepted payloads are encryptions of the first slices in order, and of all of them
when the end of the upload was processed. -/
structure InOrder (u : Upload) : Prop where
  encrypted : ∀ i payload, u.history.log[i]? = some payload →
    Encrypts config file encryptChunk i payload
  complete : u.history.session.buffer.EOF = true →
    SessionSender.hasSlice config file u.history.log.length = false

/-- A greeting that the page gets while it waits for a slice tells that the slice was
accepted. -/
def GreetsAccepted (u : Upload) : Step → Prop
  | .receive => ∀ i chunks currentChunk rest, u.page.phase = .waitingAccepted i →
      u.toClient = .startInit chunks currentChunk :: rest → i < currentChunk
  | _ => True

/-- What the server has accepted and what it tells the page. -/
structure Recorded (h : History) (toClient : List Message) : Prop where
  consistent : h.Consistent config
  numbered : h.Numbered
  encrypted : ∀ i payload, h.log[i]? = some payload → Encrypts config file encryptChunk i payload
  told : ∀ m ∈ toClient, m.told ≤ h.log.length
  ordered : toClient.Pairwise (fun m m' => m'.isNewChunk = true → m.told < m'.told)

/-- The page waits for what is under way: at most one payload, and the message that it was
accepted. -/
structure Paced (u : Upload) : Prop
    extends Recorded config file encryptChunk u.history u.toClient where
  fits : u.page.phase.Fits config file u.history.log.length
  payloads : payloadsOf u.inFlight = []
    ∨ ∃ i payload, u.page.phase = .waitingAccepted i ∧ u.history.log.length = i
      ∧ Encrypts config file encryptChunk i payload ∧ payloadsOf u.inFlight = [payload]
  finished : .uploadFinished ∈ u.inFlight ∨ u.history.session.buffer.EOF = true →
    u.page.phase = .done
  awaited : ∀ m ∈ u.toClient, m.isNewChunk = true →
    ∃ i, u.page.phase = .waitingAccepted i ∧ m.told = i + 1

/-- Nothing is under way that the loop would wait for. -/
structure Ready (u : Upload) : Prop
    extends Recorded config file encryptChunk u.history u.toClient where
  payloads : payloadsOf u.inFlight = []
  unfinished : .uploadFinished ∉ u.inFlight ∧ u.history.session.buffer.EOF = false
  silent : ∀ m ∈ u.toClient, m.isNewChunk = false

end

variable {config : Config} {file : SelectedFile} {encryptChunk : Bytes → ℕ → Bytes}
  {u : Upload}

theorem Paced.inOrder (h : u.Paced config file encryptChunk) :
  u.InOrder config file encryptChunk
  where
    encrypted := h.encrypted
    complete he := by
      have hfits := h.fits
      rw [h.finished (Or.inr he)] at hfits
      apply hfits

/-! ### The loop -/

/-- Unless the loop waits for the acceptance of a slice or has ended, nothing is under
way. -/
theorem Paced.ready (h : u.Paced config file encryptChunk)
    (hwait : ∀ i, u.page.phase ≠ .waitingAccepted i) (hdone : u.page.phase ≠ .done) :
  u.Ready config file encryptChunk
  where
    toRecorded := h.toRecorded
    payloads := by
      rcases h.payloads with hnil | ⟨i, _, hi, -⟩
      · apply hnil
      · exact absurd hi (hwait i)
    unfinished := by
      constructor
      · exact fun hf => hdone (h.finished (Or.inl hf))
      · apply Bool.eq_false_of_not_eq_true
        exact fun he => hdone (h.finished (Or.inr he))
    silent := by
      intro m hm
      apply Bool.eq_false_of_not_eq_true
      intro hnew
      obtain ⟨i, hi, -⟩ := h.awaited m hm hnew
      apply hwait i hi

theorem Ready.isNewChunk_ne_true (h : u.Ready config file encryptChunk) {m : Message}
    (hm : m ∈ u.toClient) :
  m.isNewChunk ≠ true
  := by
  rw [h.silent m hm]
  apply Bool.false_ne_true

theorem Ready.not_finished (h : u.Ready config file encryptChunk) :
  ¬ (.uploadFinished ∈ u.inFlight ∨ u.history.session.buffer.EOF = true)
  := by
  rintro (hf | he)
  · apply h.unfinished.1 hf
  · rw [h.unfinished.2] at he
    cases he

/-- The loop may go on from anywhere with any phase that fits. -/
theorem Ready.paced (h : u.Ready config file encryptChunk) {p : SessionSender}
    (hfits : p.phase.Fits config file u.history.log.length) :
  { u with page := p }.Paced config file encryptChunk
  where
    toRecorded := h.toRecorded
    fits := hfits
    payloads := Or.inl h.payloads
    finished hf := absurd hf h.not_finished
    awaited _ hm hnew := absurd hnew (h.isNewChunk_ne_true hm)

/-- A change of the page that leaves the phase alone. -/
theorem Paced.of_phase (h : u.Paced config file encryptChunk) {p : SessionSender}
    (hp : p.phase = u.page.phase) :
  { u with page := p }.Paced config file encryptChunk
  where
    toRecorded := h.toRecorded
    fits := by
      rw [hp]
      apply h.fits
    payloads := by
      rw [hp]
      apply h.payloads
    finished := by
      rw [hp]
      apply h.finished
    awaited := by
      rw [hp]
      apply h.awaited

theorem act_nil (u : Upload) (p : SessionSender) :
  u.act (p, []) = { u with page := p }
  := by
  simp [act]

/-- The head of the loop, when the slices before `i` have been accepted. -/
theorem Ready.next (h : u.Ready config file encryptChunk) (p : SessionSender) {i : ℕ}
    (hi : u.history.log.length = i) :
  (u.act (p.next config file i)).Paced config file encryptChunk
  := by
  rw [SessionSender.next]
  split
  · rename_i hs
    rw [act_nil]
    apply h.paced
    exact ⟨hi, hs⟩
  · rename_i hs
    have hfits : Phase.Fits config file u.history.log.length .done := by
      rw [hi]
      apply Bool.eq_false_of_not_eq_true hs
    refine ⟨h.toRecorded, hfits, Or.inl ?_, fun _ => rfl, ?_⟩
    · have hpayloads := h.payloads
      simp only [act, inFlight, payloadsOf] at hpayloads ⊢
      split
      · rw [← List.append_assoc, List.filterMap_append, hpayloads]
        rfl
      · apply hpayloads
    · exact fun m hm hnew => absurd hnew (h.isNewChunk_ne_true hm)

/-- The loop waits for space, and goes on where it has been told that there is some. -/
theorem Paced.resume (h : u.Paced config file encryptChunk) {p : SessionSender} {i : ℕ}
    (hp : p.phase = u.page.phase) (hi : p.phase = .waitingSpace i) (allowed : Bool) :
  (u.act (if allowed then p.next config file (i + 1) else (p, []))).Paced config file encryptChunk
  := by
  rw [hp] at hi
  have hready := h.ready (by simp [hi]) (by simp [hi])
  cases allowed with
  | true =>
      have hfits := h.fits
      rw [hi] at hfits
      apply hready.next _ hfits
  | false =>
      rw [if_neg Bool.false_ne_true, act_nil]
      apply h.of_phase hp

/-- The loop after the acceptance of slice `i`. -/
theorem Ready.accepted (h : u.Ready config file encryptChunk) (p : SessionSender) {i : ℕ}
    (hi : u.history.log.length = i + 1) :
  (u.act (p.accepted config file i)).Paced config file encryptChunk
  := by
  simp only [SessionSender.accepted]
  split
  · rw [act_nil]
    exact h.paced hi
  · apply h.next _ hi

/-! ### Messages -/

/-- The page has taken the first message from its queue. -/
theorem Paced.tail (h : u.Paced config file encryptChunk) {m : Message} {rest : List Message}
    (hq : u.toClient = m :: rest) :
  { u with toClient := rest }.Paced config file encryptChunk
  := by
  have hsub : ∀ m' ∈ rest, m' ∈ u.toClient := by
    intro m' hm'
    rw [hq]
    apply List.mem_cons_of_mem m hm'
  have hordered := h.ordered
  rw [hq] at hordered
  refine ⟨⟨h.consistent, h.numbered, h.encrypted, ?_, hordered.of_cons⟩, h.fits, h.payloads,
    h.finished, ?_⟩
  · exact fun m' hm' => h.told m' (hsub m' hm')
  · exact fun m' hm' => h.awaited m' (hsub m' hm')

/-- A message that tells of the slice the loop waits for leaves nothing under way. -/
theorem Paced.ready_of_told (h : u.Paced config file encryptChunk) {m : Message}
    {rest : List Message} (hq : u.toClient = m :: rest) {i : ℕ}
    (hi : u.page.phase = .waitingAccepted i) (hm : i < m.told) :
  { u with toClient := rest }.Ready config file encryptChunk ∧ u.history.log.length = i + 1
  := by
  have hlength : u.history.log.length = i + 1 := by
    have htold := h.told m (by rw [hq]; apply List.mem_cons_self)
    have hfits := h.fits
    rw [hi] at hfits
    have := hfits.1
    omega
  have hne : u.page.phase ≠ .done := by
    rw [hi]
    exact fun hd => by cases hd
  refine ⟨⟨(h.tail hq).toRecorded, ?_, ?_, ?_⟩, hlength⟩
  · rcases h.payloads with hnil | ⟨j, _, hj, hlen, -⟩
    · apply hnil
    · rw [hi, Phase.waitingAccepted.injEq] at hj
      omega
  · constructor
    · exact fun hf => hne (h.finished (Or.inl hf))
    · apply Bool.eq_false_of_not_eq_true
      exact fun he => hne (h.finished (Or.inr he))
  · -- a later message of a new chunk would tell of one more chunk
    intro m' hm'
    apply Bool.eq_false_of_not_eq_true
    intro hnew
    have hordered := h.ordered
    rw [hq, List.pairwise_cons] at hordered
    have hlt := hordered.1 m' hm' hnew
    have hle := h.told m' (by rw [hq]; apply List.mem_cons_of_mem m hm')
    omega

/-- The page handles the first message, which is not a greeting that tells of too few
chunks. -/
theorem Paced.receive (h : u.Paced config file encryptChunk)
    (hgreet : u.GreetsAccepted .receive) :
  (u.step config file encryptChunk .receive).Paced config file encryptChunk
  := by
  rw [step]
  split
  · apply h
  · rename_i m rest hq
    have htail := h.tail hq
    cases m with
    | newChunk index size =>
        obtain ⟨i, hi, htold⟩ := h.awaited (.newChunk index size)
          (by rw [hq]; apply List.mem_cons_self) rfl
        obtain ⟨hready, hlength⟩ := h.ready_of_told hq hi (by omega)
        simp only [SessionSender.onMessage, SessionSender.onNewChunkEvent, hi]
        apply hready.accepted _ hlength
    | newChunkAllowed status =>
        simp only [SessionSender.onMessage, SessionSender.onNewChunkAllowed]
        split
        · rename_i i hi
          apply htail.resume
          · rfl
          · apply hi
        · rw [act_nil]
          apply htail.of_phase
          rfl
    | chunkRemoved ids =>
        simp only [SessionSender.onMessage, act_nil]
        apply htail.of_phase
        rfl
    | addChunkFailure =>
        simp only [SessionSender.onMessage, act_nil]
        apply htail
    | startInit chunks currentChunk =>
        simp only [SessionSender.onMessage, SessionSender.onReconnectInit]
        split
        · rename_i i hi
          have hlt := hgreet i chunks currentChunk rest hi hq
          obtain ⟨hready, hlength⟩ := h.ready_of_told hq hi hlt
          apply hready.accepted _ hlength
        · rename_i i hi
          apply htail.resume
          · rfl
          · apply hi
        · rw [act_nil]
          apply htail.of_phase
          rfl

/-! ### The other steps of the page -/

/-- The frames are sent one after the other. -/
theorem act_cons (u : Upload) (p : SessionSender) (frame : Frame) (frames : List Frame) :
  u.act (p, frame :: frames)
    = { u with
        toServer := if u.connected then u.toServer ++ [frame] else u.toServer }.act (p, frames)
  := by
  cases hc : u.connected with
  | true => simp [act, hc]
  | false => simp [act, hc]

/-- The file information is sent besides. -/
theorem Ready.setFileInfo (h : u.Ready config file encryptChunk) (info : FileInfo) :
  Ready config file encryptChunk { u with
    toServer := if u.connected then u.toServer ++ [.setFileInfo info] else u.toServer }
  := by
  have hpayloads := h.payloads
  have hunfinished := h.unfinished.1
  simp only [inFlight] at hpayloads hunfinished
  refine ⟨h.toRecorded, ?_, ⟨?_, h.unfinished.2⟩, h.silent⟩
  · simp only [inFlight]
    split
    · rw [payloadsOf, ← List.append_assoc, List.filterMap_append]
      rw [payloadsOf] at hpayloads
      rw [hpayloads]
      rfl
    · apply hpayloads
  · simp only [inFlight]
    split
    · rw [← List.append_assoc]
      intro hf
      rcases List.mem_append.mp hf with hf | hf
      · apply hunfinished hf
      · cases List.mem_singleton.mp hf
    · apply hunfinished

theorem Paced.select (h : u.Paced config file encryptChunk) :
  (u.step config file encryptChunk .select).Paced config file encryptChunk
  := by
  rw [step, SessionSender.handleFileSelect]
  split
  · rename_i hi
    have hready := h.ready (by simp [hi]) (by simp [hi])
    have hfits := h.fits
    rw [hi] at hfits
    rw [act_cons]
    apply (hready.setFileInfo file.info).next _ hfits
  · rw [act_nil]
    apply h

theorem Paced.read (h : u.Paced config file encryptChunk) (nonce : ℕ) :
  (u.step config file encryptChunk (.read nonce)).Paced config file encryptChunk
  := by
  rw [step]
  split
  · rename_i i hi
    have hready := h.ready (by simp [hi]) (by simp [hi])
    have hfits := h.fits
    rw [hi] at hfits
    simp only [SessionSender.onSliceRead, hi]
    split
    · rename_i hcon
      refine ⟨h.toRecorded, ⟨Or.inl hfits.1, hfits.2⟩, Or.inr ?_, ?_, ?_⟩
      · refine ⟨i, _, rfl, hfits.1, ⟨hfits.2, nonce, rfl⟩, ?_⟩
        have hpayloads := hready.payloads
        simp only [act, inFlight, payloadsOf, hcon, if_true] at hpayloads ⊢
        rw [← List.append_assoc, List.filterMap_append, hpayloads]
        rfl
      · rintro (hf | he)
        · simp only [act, inFlight, hcon, if_true, ← List.append_assoc] at hf
          rcases List.mem_append.mp hf with hf | hf
          · exact absurd hf hready.unfinished.1
          · cases List.mem_singleton.mp hf
        · exact absurd (Or.inr he) hready.not_finished
      · exact fun m hm hnew => absurd hnew (hready.isNewChunk_ne_true hm)
    · rw [act_nil]
      apply hready.paced hfits
  · apply h

theorem Paced.error (h : u.Paced config file encryptChunk) :
  (u.step config file encryptChunk .error).Paced config file encryptChunk
  := by
  rw [step, SessionSender.onError]
  split
  · rename_i i hi
    have hready := h.ready (by simp [hi]) (by simp [hi])
    exact hready.paced trivial
  · rename_i i hi
    have hready := h.ready (by simp [hi]) (by simp [hi])
    exact hready.paced trivial
  · exact h

/-! ### The connection -/

theorem payloadsOf_sublist {frames frames' : List Frame} (h : frames.Sublist frames') :
  (payloadsOf frames).Sublist (payloadsOf frames')
  := h.filterMap _

theorem Paced.lose (h : u.Paced config file encryptChunk) (kept : List Frame) :
  (u.step config file encryptChunk (.lose kept)).Paced config file encryptChunk
  := by
  rw [step]
  split
  · rename_i hc
    rw [Bool.and_eq_true, List.isSublist_iff_sublist] at hc
    have hsub : (u.stale ++ kept ++ []).Sublist (u.stale ++ u.toServer) := by
      rw [List.append_nil]
      apply hc.2.append_left
    refine ⟨⟨h.consistent, h.numbered, h.encrypted, ?_, List.Pairwise.nil⟩, h.fits, ?_, ?_, ?_⟩
    · apply List.forall_mem_nil
    · rcases h.payloads with hnil | ⟨i, payload, hi, hlen, henc, hone⟩
      · left
        apply List.eq_nil_of_sublist_nil
        rw [← hnil]
        apply payloadsOf_sublist hsub
      · have hcases : payloadsOf (u.stale ++ kept ++ []) = []
            ∨ payloadsOf (u.stale ++ kept ++ []) = [payload] := by
          apply List.sublist_singleton.mp
          rw [← hone]
          apply payloadsOf_sublist hsub
        apply hcases.imp_right
        exact fun hone' => ⟨i, payload, hi, hlen, henc, hone'⟩
    · rintro (hf | he)
      · apply h.finished (Or.inl (hsub.subset hf))
      · apply h.finished (Or.inr he)
    · exact fun m hm => absurd hm List.not_mem_nil
  · apply h

theorem Paced.reconnect (h : u.Paced config file encryptChunk) :
  (u.step config file encryptChunk .reconnect).Paced config file encryptChunk
  := by
  rw [step]
  split
  · have hrecorded : Recorded config file encryptChunk u.history
        [startInit u.history.session] := by
      refine ⟨h.consistent, h.numbered, h.encrypted, ?_, List.pairwise_singleton _ _⟩
      intro m hm
      rw [List.mem_singleton.mp hm]
      apply h.numbered.ge
    have hsilent : ∀ m ∈ [startInit u.history.session], m.isNewChunk = false := by
      intro m hm
      rw [List.mem_singleton.mp hm]
      rfl
    rw [SessionSender.onOpen]
    split
    · rename_i i hi
      have hready := h.ready (by simp [hi]) (by simp [hi])
      have hfits := h.fits
      rw [hi] at hfits
      have hgreeted : Ready config file encryptChunk { u with
          connected := true, attached := true, toClient := [startInit u.history.session] } :=
        ⟨hrecorded, hready.payloads, hready.unfinished, hsilent⟩
      apply hgreeted.paced hfits
    · refine ⟨hrecorded, h.fits, h.payloads, h.finished, ?_⟩
      intro m hm hnew
      rw [hsilent m hm] at hnew
      cases hnew
  · apply h

theorem Paced.detach (h : u.Paced config file encryptChunk) :
  (u.step config file encryptChunk .detach).Paced config file encryptChunk
  := ⟨h.toRecorded, h.fits, h.payloads, h.finished, h.awaited⟩

/-! ### The server -/

/-- A frame the server takes is what the page waits for. -/
def Expected (config : Config) (file : SelectedFile) (encryptChunk : Bytes → ℕ → Bytes)
    (u : Upload) : Frame → Prop
  | .binary data => ∃ i, u.page.phase = .waitingAccepted i ∧ u.history.log.length = i
      ∧ Encrypts config file encryptChunk i data ∧ payloadsOf u.inFlight = []
  | .setFileInfo _ => True
  | .uploadFinished => u.page.phase = .done

/-- The server takes a frame. -/
theorem Paced.remove (h : u.Paced config file encryptChunk) {frame : Frame}
    {stale toServer : List Frame} (hperm : u.inFlight.Perm (frame :: (stale ++ toServer))) :
  Paced config file encryptChunk { u with stale := stale, toServer := toServer }
    ∧ Expected config file encryptChunk { u with stale := stale, toServer := toServer } frame
  := by
  have hpay : (payloadsOf u.inFlight).Perm (payloadsOf (frame :: (stale ++ toServer))) :=
    hperm.filterMap _
  have hfinished : .uploadFinished ∈ stale ++ toServer
      ∨ u.history.session.buffer.EOF = true → u.page.phase = .done := by
    rintro (hf | he)
    · apply h.finished (Or.inl (hperm.mem_iff.mpr (List.mem_cons_of_mem frame hf)))
    · apply h.finished (Or.inr he)
  have hpaced : frame.payload? = none →
      Paced config file encryptChunk { u with stale := stale, toServer := toServer } := by
    intro hnone
    have hcons : payloadsOf (frame :: (stale ++ toServer)) = payloadsOf (stale ++ toServer) :=
      List.filterMap_cons_none hnone
    rw [hcons] at hpay
    refine ⟨h.toRecorded, h.fits, ?_, hfinished, h.awaited⟩
    rcases h.payloads with hnil | ⟨i, payload, hi, hlen, henc, hone⟩
    · left
      rw [hnil] at hpay
      apply hpay.nil_eq.symm
    · right
      rw [hone, List.singleton_perm] at hpay
      exact ⟨i, payload, hi, hlen, henc, hpay.symm⟩
  cases frame with
  | binary data =>
      have hcons : payloadsOf (Frame.binary data :: (stale ++ toServer))
          = data :: payloadsOf (stale ++ toServer) := rfl
      rw [hcons] at hpay
      rcases h.payloads with hnil | ⟨i, payload, hi, hlen, henc, hone⟩
      · rw [hnil] at hpay
        cases hpay.length_eq
      · rw [hone, List.singleton_perm] at hpay
        obtain ⟨rfl, hnil⟩ := List.cons.inj hpay
        exact ⟨⟨h.toRecorded, h.fits, Or.inl hnil.symm, hfinished, h.awaited⟩,
          i, hi, hlen, henc, hnil.symm⟩
  | setFileInfo info => exact ⟨hpaced rfl, trivial⟩
  | uploadFinished =>
      use hpaced rfl
      apply h.finished (Or.inl (hperm.mem_iff.mpr List.mem_cons_self))

/-- Messages that tell of no chunk may be sent at any time. -/
theorem Paced.append (h : u.Paced config file encryptChunk) {messages : List Message}
    (hidle : ∀ m ∈ messages, m.Idle) :
  Paced config file encryptChunk { u with toClient := u.toClient ++ messages }
  := by
  refine ⟨⟨h.consistent, h.numbered, h.encrypted, ?_, ?_⟩, h.fits, h.payloads, h.finished, ?_⟩
  · intro m hm
    rcases List.mem_append.mp hm with hm | hm
    · apply h.told m hm
    · rw [(hidle m hm).2]
      apply Nat.zero_le
  · apply List.pairwise_append.mpr
    refine ⟨h.ordered, ?_, ?_⟩
    · apply List.pairwise_of_forall_mem_list
      intro m _ m' hm' hnew
      rw [(hidle m' hm').1] at hnew
      cases hnew
    · intro m _ m' hm' hnew
      rw [(hidle m' hm').1] at hnew
      cases hnew
  · intro m hm hnew
    rcases List.mem_append.mp hm with hm | hm
    · apply h.awaited m hm hnew
    · rw [(hidle m hm).1] at hnew
      cases hnew

/-- The acceptance of the slice the loop waits for is announced. -/
theorem Paced.announce (h : u.Paced config file encryptChunk) {i : ℕ} (size : ℕ)
    (hi : u.page.phase = .waitingAccepted i) (hlen : u.history.log.length = i + 1)
    (htold : ∀ m ∈ u.toClient, m.told ≤ i) :
  Paced config file encryptChunk { u with toClient := u.toClient ++ [.newChunk (i + 1) size] }
  := by
  refine ⟨⟨h.consistent, h.numbered, h.encrypted, ?_, ?_⟩, h.fits, h.payloads, h.finished, ?_⟩
  · intro m hm
    rcases List.mem_append.mp hm with hm | hm
    · apply h.told m hm
    · rw [List.mem_singleton.mp hm, hlen]
      apply le_rfl
  · apply List.pairwise_append.mpr
    refine ⟨h.ordered, List.pairwise_singleton _ _, ?_⟩
    intro m hm m' hm' _
    rw [List.mem_singleton.mp hm']
    apply Nat.lt_succ_of_le (htold m hm)
  · intro m hm hnew
    rcases List.mem_append.mp hm with hm | hm
    · apply h.awaited m hm hnew
    · rw [List.mem_singleton.mp hm]
      exact ⟨i, hi, rfl⟩

/-- The events that tell of no new chunk make messages that tell of none. -/
theorem idle_of_ofEvent {events : List Event} (hnew : ∀ e ∈ events, e.newChunkIndex = none) :
  ∀ m ∈ events.filterMap Message.ofEvent, m.Idle
  := by
  intro m hm
  obtain ⟨e, he, hem⟩ := List.mem_filterMap.mp hm
  have hnone := hnew e he
  cases e with
  | newChunkIsAvailable index size => cases hnone
  | newChunkIsAllowed status =>
      obtain rfl := Option.some.inj hem
      exact ⟨rfl, rfl⟩
  | chunksWasRemoved ids =>
      obtain rfl := Option.some.inj hem
      exact ⟨rfl, rfl⟩
  | _ => cases hem

theorem messagesSince_of_append {s t : TransferSession} {es : List Event}
    (h : t.events = s.events ++ es) :
  messagesSince s t = es.filterMap Message.ofEvent
  := by
  rw [messagesSince, h, List.drop_left]

/-- An operation that accepts no chunk. -/
theorem Paced.perform_of_noNewChunk (h : u.Paced config file encryptChunk)
    {op : TransferSession.Op} (hlog : (u.history.step config op).log = u.history.log)
    (hnew : u.history.session.NoNewChunk (u.history.step config op).session)
    (heof : (u.history.step config op).session.buffer.EOF = true → u.page.phase = .done) :
  (u.perform config op).Paced config file encryptChunk
  := by
  have hpaced : Paced config file encryptChunk
      { u with history := u.history.step config op } := by
    refine ⟨⟨h.consistent.step op, ?_, ?_, ?_, h.ordered⟩, ?_, ?_, ?_, h.awaited⟩
    · rw [History.Numbered, hlog, hnew.chunksMaxIndex]
      apply h.numbered
    · rw [hlog]
      apply h.encrypted
    · rw [hlog]
      apply h.told
    · rw [hlog]
      apply h.fits
    · rw [hlog]
      apply h.payloads
    · rintro (hf | he)
      · apply h.finished (Or.inl hf)
      · apply heof he
  obtain ⟨es, hes, hnone⟩ := hnew.events
  rw [perform, messagesSince_of_append hes]
  split
  · apply hpaced.append (idle_of_ofEvent hnone)
  · apply hpaced

theorem Paced.perform_of_sameUpload (h : u.Paced config file encryptChunk)
    {op : TransferSession.Op} (hsame : u.history.SameUpload (u.history.step config op)) :
  (u.perform config op).Paced config file encryptChunk
  := by
  apply h.perform_of_noNewChunk hsame.log hsame.session.toNoNewChunk
  rw [hsame.session.EOF]
  exact fun he => h.finished (Or.inr he)

/-- The chunk the page waits for is accepted or not. -/
theorem Paced.perform_addChunk (h : u.Paced config file encryptChunk) {data : Bytes}
    (hexp : u.Expected config file encryptChunk (.binary data)) :
  (u.perform config (.addChunk data)).Paced config file encryptChunk
  := by
  rcases u.history.step_addChunk h.consistent data with hsame | hacc
  · apply h.perform_of_sameUpload hsame
  · obtain ⟨i, hi, hlen, henc, hnil⟩ := hexp
    obtain ⟨es, hes, hnone⟩ := hacc.events
    have hlen' : (u.history.step config (.addChunk data)).log.length = i + 1 := by
      rw [hacc.log, List.length_append, hlen, List.length_singleton]
    have htold : ∀ m ∈ u.toClient, m.told ≤ i := by
      intro m hm
      rw [← hlen]
      apply h.told m hm
    have hpaced : Paced config file encryptChunk
        { u with history := u.history.step config (.addChunk data) } := by
      refine ⟨⟨h.consistent.step _, ?_, ?_, ?_, h.ordered⟩, ?_, Or.inl hnil, ?_, h.awaited⟩
      · rw [History.Numbered, hlen', hacc.chunksMaxIndex, ← h.numbered, hlen]
      · intro j payload hj
        rw [hacc.log] at hj
        rw [List.getElem?_append] at hj
        split at hj
        · apply h.encrypted j payload hj
        · have hlast : j - u.history.log.length = 0 ∧ data = payload := by
            simpa [List.getElem?_singleton] using hj
          have hji : j = i := by omega
          rw [hji, ← hlast.2]
          apply henc
      · intro m hm
        rw [hlen']
        apply (htold m hm).trans (Nat.le_succ i)
      · have hfits := h.fits
        rw [hi] at hfits
        simp only [hi]
        exact ⟨Or.inr hlen', hfits.2⟩
      · rintro (hf | he)
        · apply h.finished (Or.inl hf)
        · apply h.finished (Or.inr (hacc.EOF.symm.trans he))
    rw [← h.numbered, hlen] at hes
    rw [perform, messagesSince_of_append hes]
    split
    · have hcons : u.toClient ++ (Event.newChunkIsAvailable (i + 1) data.length :: es).filterMap
            Message.ofEvent
          = u.toClient ++ [.newChunk (i + 1) data.length] ++ es.filterMap Message.ofEvent := by
        rw [List.append_assoc]
        rfl
      rw [hcons]
      apply (hpaced.announce data.length hi hlen' htold).append (idle_of_ofEvent hnone)
    · apply hpaced

/-- The server processes a frame the page waits for. -/
theorem Paced.perform_opOfFrame (h : u.Paced config file encryptChunk) {frame : Frame}
    (hexp : u.Expected config file encryptChunk frame) :
  (u.perform config (opOfFrame frame)).Paced config file encryptChunk
  := by
  cases frame with
  | binary data => apply h.perform_addChunk hexp
  | setFileInfo info =>
      apply h.perform_of_sameUpload (u.history.sameUpload_step config (.setFileInfo info) rfl)
  | uploadFinished =>
      have hnew := TransferSession.noNewChunk_setEndOfFile config u.history.session
      rw [← History.session_step] at hnew
      apply h.perform_of_noNewChunk (u.history.log_setEndOfFile config) hnew
      exact fun _ => hexp

theorem idle_failure (config : Config) (s : TransferSession) (frame : Frame) :
  ∀ m ∈ failure config s frame, m.Idle
  := by
  intro m hm
  cases frame with
  | binary data =>
      simp only [failure] at hm
      split at hm
      · rw [List.mem_singleton.mp hm]
        exact ⟨rfl, rfl⟩
      · cases hm
  | _ => cases hm

theorem Paced.serve (h : u.Paced config file encryptChunk) :
  (u.step config file encryptChunk .serve).Paced config file encryptChunk
  := by
  rw [step]
  split
  · apply h
  · rename_i frame rest hq
    have hperm : u.inFlight.Perm (frame :: (u.stale ++ rest)) := by
      rw [inFlight, hq]
      apply List.perm_middle
    obtain ⟨hpaced, hexp⟩ := h.remove hperm
    have hdone := hpaced.perform_opOfFrame hexp
    rw [send]
    split
    · apply hdone.append (idle_failure _ _ _)
    · apply hdone

theorem Paced.serveStale (h : u.Paced config file encryptChunk) (k : ℕ) :
  (u.step config file encryptChunk (.serveStale k)).Paced config file encryptChunk
  := by
  rw [step]
  split
  · apply h
  · rename_i frame hk
    obtain ⟨hlt, rfl⟩ := List.getElem?_eq_some_iff.mp hk
    have hperm : u.inFlight.Perm (u.stale[k] :: (u.stale.eraseIdx k ++ u.toServer)) := by
      rw [inFlight, ← List.cons_append]
      apply (List.getElem_cons_eraseIdx_perm hlt).symm.append_right
    obtain ⟨hpaced, hexp⟩ := h.remove hperm
    apply hpaced.perform_opOfFrame hexp

theorem Paced.session (h : u.Paced config file encryptChunk) (op : TransferSession.Op) :
  (u.step config file encryptChunk (.session op)).Paced config file encryptChunk
  := by
  rw [step]
  split
  · apply h
  · rename_i hop
    apply h.perform_of_sameUpload
    apply u.history.sameUpload_step config op (Bool.eq_false_of_not_eq_true hop)

/-! ### Runs -/

/-- Every step paces the upload whose greetings tell that the slice was accepted. -/
theorem Paced.step (h : u.Paced config file encryptChunk) {l : Step}
    (hl : u.GreetsAccepted l) :
  (u.step config file encryptChunk l).Paced config file encryptChunk
  := by
  cases l with
  | select => apply h.select
  | read nonce => apply h.read
  | error => apply h.error
  | serve => apply h.serve
  | serveStale k => apply h.serveStale
  | receive => apply h.receive hl
  | lose kept => apply h.lose
  | reconnect => apply h.reconnect
  | detach => apply h.detach
  | session op => apply h.session

theorem paced_create (config : Config) (file : SelectedFile)
    (encryptChunk : Bytes → ℕ → Bytes) (sender : ClientRef) (auto : Bool) :
  (create sender auto).Paced config file encryptChunk
  := by
  refine ⟨⟨History.Consistent.create config sender auto, rfl, ?_, ?_, List.Pairwise.nil⟩,
    rfl, Or.inl rfl, ?_, ?_⟩
  · intro i payload hi
    cases hi
  · apply List.forall_mem_nil
  · rintro (hf | he)
    · cases hf
    · cases he
  · exact fun m hm => absurd hm List.not_mem_nil

/-- In every run in which each greeting that the page gets while it waits for a slice tells
that the slice was accepted, the upload arrives in order. -/
theorem inOrder_of_greetsAccepted (config : Config) (file : SelectedFile)
    (encryptChunk : Bytes → ℕ → Bytes) (sender : ClientRef) (auto : Bool) (steps : List Step)
    (hsteps : Machine.EveryStep (step config file encryptChunk) GreetsAccepted
      (create sender auto) steps) :
  Machine.EveryState (step config file encryptChunk) (InOrder config file encryptChunk)
    (create sender auto) steps
  := by
  have hpaced : Machine.EveryState (Upload.step config file encryptChunk)
      (Paced config file encryptChunk) (create sender auto) steps := by
    apply Machine.everyState_of_everyStep _ _ hsteps
    · exact fun _ _ h hl => h.step hl
    · apply paced_create
  apply hpaced.mono
  exact fun _ h => h.inOrder

/-! ### Sample runs -/

/-- The connection is lost after the first slice was accepted. -/
def lostAfterAcceptance : List Step :=
  [.select, .serve, .read 0, .serve, .lose [], .reconnect, .receive, .read 1, .serve, .receive,
    .serve]

theorem inOrder_lostAfterAcceptance :
  Machine.EveryState (step Sample.config Sample.file Sample.encryptChunk)
    (InOrder Sample.config Sample.file Sample.encryptChunk)
    (create TransferSession.Sample.sender false) lostAfterAcceptance
  := by
  apply inOrder_of_greetsAccepted
  refine ⟨trivial, trivial, trivial, trivial, trivial, trivial, ?_, trivial, trivial, ?_,
    trivial, trivial⟩
  · intro i chunks currentChunk rest hi hq
    cases hi
    cases hq
    decide
  · intro i chunks currentChunk rest hi hq
    cases hq

/-- The connection is lost together with the first slice. -/
def lostBeforeAcceptance : List Step :=
  [.select, .serve, .read 0, .lose [], .reconnect, .receive, .read 1, .serve]

/-- After that run the second slice is the first chunk. -/
theorem not_inOrder_lostBeforeAcceptance :
  ¬ ∀ (config : Config) (file : SelectedFile) (encryptChunk : Bytes → ℕ → Bytes)
      (sender : ClientRef) (auto : Bool) (steps : List Step),
      Machine.EveryState (step config file encryptChunk) (InOrder config file encryptChunk)
        (create sender auto) steps
  := by
  intro h
  have hlast := (h Sample.config Sample.file Sample.encryptChunk TransferSession.Sample.sender
    false lostBeforeAcceptance).last
  obtain ⟨-, nonce, hpayload⟩ := hlast.encrypted 0 (Sample.encryptChunk [3] 1) rfl
  have hlength := congrArg List.length hpayload
  simp [Sample.encryptChunk] at hlength
  revert hlength
  decide

end Upload

import PutInPipe.Session.Joining
import PutInPipe.Session.Sending
import PutInPipe.Web.Assembly
import PutInPipe.Web.Knowledge
import PutInPipe.Web.Upload

/-!
# The blob is the file

As long as no connection is lost, the upload arrives in order, so that the server answers a
download of chunk `i` with an encryption of slice `i - 1`. What the server tells the receiver
is warranted when it is sent, and stays so while it is under way, since the upload does not
go on once it is finished. Hence the page assembles the file or reports something else than
success.
-/

open TransferSessionDetails

namespace Upload

variable {config : Config} {file : SelectedFile} {encryptChunk : Bytes → ℕ → Bytes}
  {u : Upload}

/-! ### The upload without losses -/

/-- The page has never lost its connection, and is not greeted again. -/
structure Unbroken (u : Upload) : Prop where
  connected : u.connected = true
  ungreeted : ∀ chunks currentChunk, .startInit chunks currentChunk ∉ u.toClient

theorem Unbroken.greetsAccepted (h : u.Unbroken) (l : Step) :
  u.GreetsAccepted l
  := by
  cases l with
  | receive =>
      intro i chunks currentChunk rest _ hq
      apply absurd _ (h.ungreeted chunks currentChunk)
      rw [hq]
      apply List.mem_cons_self
  | _ => trivial

theorem unbroken_create (sender : ClientRef) (auto : Bool) :
  (create sender auto).Unbroken
  where
    connected := rfl
    ungreeted _ _ := List.not_mem_nil

/-- What the page does and sends. -/
theorem Unbroken.act (h : u.Unbroken) (r : SessionSender × List Frame) :
  (u.act r).Unbroken
  := ⟨h.connected, h.ungreeted⟩

theorem Unbroken.send (h : u.Unbroken) {messages : List Message}
    (hm : ∀ chunks currentChunk, .startInit chunks currentChunk ∉ messages) :
  (u.send messages).Unbroken
  where
    connected := h.connected
    ungreeted chunks currentChunk := by
      rw [Upload.send]
      simp only
      split
      · rw [List.mem_append, not_or]
        exact ⟨h.ungreeted chunks currentChunk, hm chunks currentChunk⟩
      · apply h.ungreeted chunks currentChunk

theorem Unbroken.perform (h : u.Unbroken) (op : TransferSession.Op) :
  (u.perform config op).Unbroken
  where
    connected := h.connected
    ungreeted chunks currentChunk := by
      have hm : .startInit chunks currentChunk
          ∉ messagesSince u.history.session (u.history.step config op).session := by
        intro hmem
        obtain ⟨e, -, he⟩ := List.mem_filterMap.mp hmem
        cases e <;> cases he
      rw [Upload.perform]
      simp only
      split
      · rw [List.mem_append, not_or]
        exact ⟨h.ungreeted chunks currentChunk, hm⟩
      · apply h.ungreeted chunks currentChunk

theorem Unbroken.step (h : u.Unbroken) {l : Step} (hl : ∀ kept, l ≠ .lose kept) :
  (u.step config file encryptChunk l).Unbroken
  := by
  cases l with
  | select => apply h.act
  | read nonce =>
      rw [Upload.step]
      split
      · apply h.act
      · apply h
  | error => exact ⟨h.connected, h.ungreeted⟩
  | serve =>
      rw [Upload.step]
      split
      · apply h
      · next frame rest hq =>
          apply Unbroken.send
          · apply Unbroken.perform
            exact ⟨h.connected, h.ungreeted⟩
          · intro chunks currentChunk hmem
            cases frame with
            | binary data =>
                rw [failure] at hmem
                split at hmem
                · cases List.mem_singleton.mp hmem
                · cases hmem
            | _ => cases hmem
  | serveStale k =>
      rw [Upload.step]
      split
      · apply h
      · apply Unbroken.perform
        exact ⟨h.connected, h.ungreeted⟩
  | receive =>
      rw [Upload.step]
      split
      · apply h
      · next m rest hq =>
          apply Unbroken.act
          use h.connected
          intro chunks currentChunk hmem
          apply h.ungreeted chunks currentChunk
          rw [hq]
          apply List.mem_cons_of_mem m hmem
  | lose kept => apply absurd rfl (hl kept)
  | reconnect =>
      rw [Upload.step, h.connected]
      apply h
  | detach => exact ⟨h.connected, h.ungreeted⟩
  | session op =>
      rw [Upload.step]
      split
      · apply h
      · apply h.perform

theorem session_ne_lose (op : TransferSession.Op) :
  ∀ kept, Step.session op ≠ .lose kept
  := by
  intro kept heq
  cases heq

/-- A step of the upload performs at most one operation on the session. -/
theorem history_step (u : Upload) (l : Step) :
  (u.step config file encryptChunk l).history = u.history
    ∨ ∃ op, (u.step config file encryptChunk l).history = u.history.step config op
  := by
  cases l with
  | serve =>
      rw [step]
      split
      · apply Or.inl rfl
      · apply Or.inr ⟨_, rfl⟩
  | serveStale k =>
      rw [step]
      split
      · apply Or.inl rfl
      · apply Or.inr ⟨_, rfl⟩
  | session op =>
      rw [step]
      split
      · apply Or.inl rfl
      · apply Or.inr ⟨_, rfl⟩
  | read nonce =>
      rw [step]
      split
      · apply Or.inl rfl
      · apply Or.inl rfl
  | receive =>
      rw [step]
      split
      · apply Or.inl rfl
      · apply Or.inl rfl
  | lose kept =>
      rw [step]
      split
      · apply Or.inl rfl
      · apply Or.inl rfl
  | reconnect =>
      rw [step]
      split
      · apply Or.inl rfl
      · apply Or.inl rfl
  | _ => exact Or.inl rfl

end Upload

namespace History

variable {config : Config} {file : SelectedFile} {h : History} {n : ℕ}

/-! ### The answers of the server -/

/-- The buffer stores accepted payloads. -/
def Stored (config : Config) (h : History) : Prop := ∃ L, h.logged.Stores config L

theorem stored_create (config : Config) (sender : ClientRef) (auto : Bool) :
  (create sender auto).Stored config
  := ⟨_, Buffer.Logged.Stores.empty config⟩

/-- The log only gets longer. -/
theorem Stored.step (hs : h.Stored config) (op : TransferSession.Op) :
  (h.step config op).Stored config ∧ h.log <+: (h.step config op).log
  := by
  obtain ⟨L, hL⟩ := hs
  obtain ⟨ops, hops⟩ := h.logged_step config op
  obtain ⟨L', hL', hev⟩ := hL.run ops
  rw [hops] at hL'
  use ⟨L', hL'⟩
  have hprefix := hev.entries
  rw [hL.entries, hL'.entries] at hprefix
  apply hprefix

theorem Stored.getChunk (hs : h.Stored config) {index : ℕ} {client : ClientRef} {data : Bytes}
    (hdata : (h.session.getChunk index client).2 = some data) :
  1 ≤ index ∧ h.log[index - 1]? = some data
  := by
  obtain ⟨L, hL⟩ := hs
  have hget : (h.session.buffer.get index).2 = some data := by
    rw [TransferSession.getChunk] at hdata
    simp only at hdata
    split at hdata
    · cases hdata
    · next hsome =>
        rw [hsome]
        apply hdata
  have hshows := hL.stores.showsLog hL.wellFormed
  rw [hL.entries] at hshows
  apply hshows.get index data hget

/-! ### The end of the upload -/

/-- The upload is finished and has no chunks beyond `n`. -/
def Final (h : History) (n : ℕ) : Prop :=
  h.session.buffer.EOF = true ∧ h.log.length ≤ n

/-- A chunk with the index was accepted, and the data is that of the slice. -/
def Right (config : Config) (file : SelectedFile) (h : History) (index : ℕ) (data : Bytes) :
    Prop :=
  1 ≤ index ∧ index ≤ h.log.length ∧ data = SessionSender.slice config file (index - 1)

theorem Final.mono {n' : ℕ} (hle : n ≤ n') (hf : h.Final n) :
  h.Final n'
  := ⟨hf.1, hf.2.trans hle⟩

theorem Final.step (hf : h.Final n) (config : Config) (op : TransferSession.Op) :
  (h.step config op).Final n
  := by
  obtain ⟨heof, hlog⟩ := step_of_EOF config hf.1 op
  use heof
  rw [hlog]
  apply hf.2

theorem Right.of_prefix {h' : History} (hlog : h.log <+: h'.log) {index : ℕ} {data : Bytes}
    (hr : Right config file h index data) :
  Right config file h' index data
  := ⟨hr.1, hr.2.1.trans hlog.length_le, hr.2.2⟩

/-- Where the accepted chunks of a finished upload are all the slices, the page may rely on
the server. -/
theorem delivers (hlimit : 40 < config.transferSessionMaxChunkSize)
    (hcomplete : h.session.buffer.EOF = true →
      SessionSender.hasSlice config file h.log.length = false) :
  Delivers (Right config file h) h.Final file.data
  where
    mono := Final.mono
    assembled := by
      intro m n hf hright hall
      rw [← SessionSender.flatMap_slice hlimit (hcomplete hf.1)]
      apply OrderedMap.flatMap_snd_entries hright
      intro i h1 hi
      apply hall i h1 (hi.trans hf.2)

end History

namespace Transfer

variable {config : Config} {file : SelectedFile} {encryptChunk : Bytes → ℕ → Bytes}
  {decryptChunk : Bytes → Option Bytes} {hasFSAccess : Bool} {me : ClientRef} {t : Transfer}

/-! ### The server -/

/-- The upload has arrived in order, and the answers under way are accepted payloads. -/
structure Served (config : Config) (file : SelectedFile) (encryptChunk : Bytes → ℕ → Bytes)
    (t : Transfer) : Prop where
  paced : t.upload.Paced config file encryptChunk
  unbroken : t.upload.Unbroken
  stored : t.history.Stored config
  responses : ∀ index data, (index, data) ∈ t.responses →
    1 ≤ index ∧ t.history.log[index - 1]? = some data

/-- An answer that is decrypted is right. -/
theorem Served.right (h : t.Served config file encryptChunk)
    (hdecrypt : ∀ text nonce, decryptChunk (encryptChunk text nonce) = some text) {index : ℕ}
    {data decrypted : Bytes} (hmem : (index, data) ∈ t.responses)
    (hdata : decryptChunk data = some decrypted) :
  t.history.Right config file index decrypted
  := by
  obtain ⟨h1, hlog⟩ := h.responses index data hmem
  obtain ⟨-, nonce, rfl⟩ := h.paced.encrypted (index - 1) data hlog
  rw [hdecrypt, Option.some.injEq] at hdata
  obtain ⟨hlt, -⟩ := List.getElem?_eq_some_iff.mp hlog
  exact ⟨h1, by omega, hdata.symm⟩

theorem Served.delivers (h : t.Served config file encryptChunk)
    (hlimit : 40 < config.transferSessionMaxChunkSize) :
  Delivers (t.history.Right config file) t.history.Final file.data
  := History.delivers hlimit h.paced.inOrder.complete

theorem history_advance (me : ClientRef) (t : Transfer) (l : Upload.Step) :
  (t.advance config file encryptChunk me l).history = t.history
    ∨ ∃ op, (t.advance config file encryptChunk me l).history = t.history.step config op
  := t.upload.history_step l

theorem Served.stored_advance (h : t.Served config file encryptChunk) (me : ClientRef)
    (l : Upload.Step) :
  (t.advance config file encryptChunk me l).history.Stored config
    ∧ t.history.log <+: (t.advance config file encryptChunk me l).history.log
  := by
  obtain heq | ⟨op, heq⟩ := t.history_advance me l
  · rw [heq]
    exact ⟨h.stored, List.prefix_rfl⟩
  · rw [heq]
    apply h.stored.step

theorem getElem?_of_prefix {log log' : List Bytes} (h : log <+: log') {i : ℕ} {data : Bytes}
    (hi : log[i]? = some data) :
  log'[i]? = some data
  := by
  obtain ⟨hlt, rfl⟩ := List.getElem?_eq_some_iff.mp hi
  apply List.prefix_iff_getElem?.mp h i hlt

theorem Served.advance (h : t.Served config file encryptChunk) (me : ClientRef)
    {l : Upload.Step} (hl : ∀ kept, l ≠ .lose kept) :
  (t.advance config file encryptChunk me l).Served config file encryptChunk
  := by
  obtain ⟨hstored, hprefix⟩ := h.stored_advance me l
  refine ⟨h.paced.step (h.unbroken.greetsAccepted l), h.unbroken.step hl, hstored, ?_⟩
  intro index data hmem
  obtain ⟨h1, hlog⟩ := h.responses index data hmem
  exact ⟨h1, getElem?_of_prefix hprefix hlog⟩

/-- The answer to a download is an accepted payload. -/
theorem Served.answer (h : t.Served config file encryptChunk) (index : ℕ) :
  (t.answer config file encryptChunk me index).Served config file encryptChunk
  := by
  have hadvance := h.advance me (Upload.session_ne_lose (.getChunk index me))
  obtain ⟨-, hprefix⟩ := h.stored_advance me (.session (.getChunk index me))
  refine ⟨hadvance.paced, hadvance.unbroken, hadvance.stored, ?_⟩
  intro i data hmem
  obtain hmem | hmem := List.mem_append.mp hmem
  · apply hadvance.responses i data hmem
  · rw [Option.mem_toList, Option.map_eq_some_iff] at hmem
    obtain ⟨payload, hpayload, heq⟩ := hmem
    obtain ⟨rfl, rfl⟩ := Prod.mk.inj heq
    obtain ⟨h1, hlog⟩ := h.stored.getChunk hpayload
    exact ⟨h1, getElem?_of_prefix hprefix hlog⟩

/-! ### The messages under way -/

/-- What a page that may not be loaded yet knows. -/
def knowledge : Option SessionReceiver → Knowledge
  | none => {}
  | some page => page.knowledge

/-- What the page knows once it has got the messages under way. -/
def heard (t : Transfer) : Knowledge :=
  Machine.run Knowledge.hear (knowledge t.page) t.toReceiver

/-- The messages under way are warranted, and once the page has got them it knows of every
chunk, and has handled the end if it is no receiver any more. -/
structure Informed (me : ClientRef) (t : Transfer) : Prop where
  warranted : Machine.EveryStep Knowledge.hear (Knowledge.Warrants t.history.Final)
    (knowledge t.page) t.toReceiver
  announced : t.attached = true → t.session.alive me = true →
    t.history.log.length ≤ t.heard.highest
  member : t.attached = true → t.session.alive me = true → t.session.listed = true →
    me ∈ t.session.dataReceivers ∨ t.heard.handled = true
  unattached : t.attached = false → t.page = none ∧ t.toReceiver = []
  greeted : t.page = none → t.attached = true →
    ∃ state info rest, t.toReceiver = .startInit state info :: rest

/-- The messages made of the events of an operation are warranted. -/
theorem everyStep_warrants_of_informs {s s' : TransferSession} {es : List Event}
    {final : ℕ → Prop} {k : Knowledge} (h : s.Informs s' es)
    (hk : s.buffer.chunksMaxIndex ≤ k.highest)
    (hfinal : s'.buffer.EOF = true → ∀ n, s'.buffer.chunksMaxIndex ≤ n → final n) :
  Machine.EveryStep Knowledge.hear (Knowledge.Warrants final) k
    (es.filterMap (Notice.ofEvent me))
  := by
  apply Machine.everyStep_of_forall_le Knowledge.le_hear
  intro m hm k' hk'
  obtain ⟨e, he, hem⟩ := List.mem_filterMap.mp hm
  cases e with
  | fileUploadFinished =>
      obtain rfl := Option.some.inj hem
      obtain ⟨heof, hmax⟩ := h.finished he
      apply hfinal heof
      rw [hmax]
      apply hk.trans hk'.1
  | complete type => apply absurd he (h.ongoing type)
  | kicked client =>
      rw [Notice.ofEvent] at hem
      split at hem
      · obtain rfl := Option.some.inj hem
        trivial
      · cases hem
  | personalReceivedUpdated client bytes =>
      rw [Notice.ofEvent] at hem
      split at hem
      · obtain rfl := Option.some.inj hem
        trivial
      · cases hem
  | fileInfoUpdated info =>
      obtain rfl := Option.some.inj hem
      trivial
  | chunkDownloadStarted publicId index =>
      obtain rfl := Option.some.inj hem
      trivial
  | chunkDownloadFinished publicId index =>
      obtain rfl := Option.some.inj hem
      trivial
  | newChunkIsAvailable index size =>
      obtain rfl := Option.some.inj hem
      trivial
  | _ => cases hem

/-- Once the page has got them, it knows of every chunk. -/
theorem le_highest_of_informs (me : ClientRef) {s s' : TransferSession} {es : List Event}
    {k : Knowledge} (h : s.Informs s' es) (hk : s.buffer.chunksMaxIndex ≤ k.highest) :
  s'.buffer.chunksMaxIndex
    ≤ (Machine.run Knowledge.hear k (es.filterMap (Notice.ofEvent me))).highest
  := by
  obtain hmax | ⟨size, hsize⟩ := h.newChunk
  · rw [hmax]
    apply hk.trans (Machine.le_run Knowledge.le_hear _ _).1
  · apply Knowledge.le_highest_run
    exact List.mem_filterMap.mpr ⟨_, hsize, rfl⟩

theorem handled_of_informs {s s' : TransferSession} {es : List Event} {k : Knowledge}
    (h : s.Informs s' es) (halive : s'.alive me = true)
    (hmember : me ∈ s.dataReceivers ∨ k.handled = true) :
  me ∈ s'.dataReceivers
    ∨ (Machine.run Knowledge.hear k (es.filterMap (Notice.ofEvent me))).handled = true
  := by
  obtain hmem | hk := hmember
  · obtain hmem' | hkicked := h.kicked me hmem halive
    · apply Or.inl hmem'
    · right
      apply Knowledge.handled_run
      apply List.mem_filterMap.mpr ⟨_, hkicked, if_pos rfl⟩
  · right
    apply (Machine.le_run Knowledge.le_hear _ _).2 hk

/-- The page may take the end of the session for the end of the upload, or it was kicked. -/
theorem warrants_complete {s s' : TransferSession} {es : List Event} {final : ℕ → Prop}
    {k : Knowledge} (h : s.Informs s' es) (hl : s'.listed = false)
    (hk : s'.buffer.chunksMaxIndex ≤ k.highest)
    (hmember : me ∈ s'.dataReceivers ∨ k.handled = true)
    (hfinal : s'.buffer.EOF = true → ∀ n, s'.buffer.chunksMaxIndex ≤ n → final n) :
  k.Warrants final (.complete s'.completeType)
  := by
  cases htype : s'.completeType with
  | ok =>
      obtain heof | hnil := h.ended hl htype
      · apply Or.inr (hfinal heof k.highest hk)
      · left
        apply hmember.resolve_left
        rw [hnil]
        apply List.not_mem_nil
  | _ => trivial

/-- The messages of an operation that informs the receivers. The last of them tells of the end
of the session. -/
theorem noticesSince_finish {s s' : TransferSession} {es : List Event} (h : s.Informs s' es) :
  noticesSince me s s'.finish
    = es.filterMap (Notice.ofEvent me)
      ++ if s'.listed then [] else [.complete s'.completeType]
  := by
  rw [noticesSince, TransferSession.finish_eq]
  simp only [h.events, List.append_assoc, List.drop_left, List.filterMap_append]
  congr 1
  split
  · rfl
  · rfl

/-- The server sends the events of an operation to the receiver. -/
theorem Informed.sent (h : t.Informed me) {t' : Transfer} {s : TransferSession}
    {es : List Event} (hinforms : t.session.Informs s es) (hsession : t'.session = s.finish)
    (hpage : t'.page = t.page) (hattached : t'.attached = t.attached)
    (hqueue : t'.toReceiver = if t.attached && t'.session.alive me then
      t.toReceiver ++ noticesSince me t.session t'.session else t.toReceiver)
    (hlisted : t.session.listed = true)
    (halive : s.alive me = true → t.session.alive me = true)
    (hnumbered : t.history.Numbered) (hnumbered' : t'.history.Numbered)
    (hfinal : ∀ n, t.history.Final n → t'.history.Final n) :
  t'.Informed me
  := by
  have hbuffer : t'.session.buffer = s.buffer := by
    rw [hsession, TransferSession.buffer_finish]
  have hreceivers : t'.session.dataReceivers = s.dataReceivers := by
    rw [hsession, TransferSession.finish_eq]
  have halive' : t'.session.alive me = s.alive me := by
    rw [hsession, TransferSession.finish_eq]
    rfl
  have hlength : t'.history.log.length = s.buffer.chunksMaxIndex := by
    rw [← hbuffer]
    apply hnumbered'
  have hwarranted := h.warranted.mono fun k m => Knowledge.Warrants.imp hfinal
  rw [halive'] at hqueue
  by_cases hc : t.attached = true ∧ s.alive me = true
  · rw [hc.1, hc.2, Bool.and_self, if_pos rfl, hsession, noticesSince_finish hinforms] at hqueue
    have hk : t.session.buffer.chunksMaxIndex ≤ t.heard.highest := by
      apply le_trans _ (h.announced hc.1 (halive hc.2))
      apply hnumbered.ge
    have hhighest := le_highest_of_informs me hinforms hk
    have hhandled := handled_of_informs hinforms hc.2 (h.member hc.1 (halive hc.2) hlisted)
    have hfinal' : s.buffer.EOF = true → ∀ n, s.buffer.chunksMaxIndex ≤ n →
        t'.history.Final n :=
      fun heof n hn => ⟨(congrArg Buffer.EOF hbuffer).trans heof, hlength.le.trans hn⟩
    have hheard : Machine.run Knowledge.hear t.heard (es.filterMap (Notice.ofEvent me))
        ≤ t'.heard := by
      have heq : t'.heard = Machine.run Knowledge.hear (knowledge t'.page) t'.toReceiver := rfl
      rw [heq, hpage, hqueue, Machine.run_append, Machine.run_append]
      apply Machine.le_run Knowledge.le_hear
    constructor
    · rw [hpage, hqueue, Machine.everyStep_append, Machine.everyStep_append]
      refine ⟨hwarranted, everyStep_warrants_of_informs hinforms hk hfinal', ?_⟩
      split
      · trivial
      · next hl =>
          refine ⟨?_, trivial⟩
          apply warrants_complete hinforms _ hhighest hhandled hfinal'
          apply Bool.eq_false_of_not_eq_true hl
    · intro _ _
      rw [hlength]
      apply hhighest.trans hheard.1
    · intro _ _ _
      rw [hreceivers]
      apply hhandled.imp_right hheard.2
    · intro hf
      rw [hattached, hc.1] at hf
      cases hf
    · intro hp _
      rw [hpage] at hp
      obtain ⟨state, info, rest, hq⟩ := h.greeted hp hc.1
      rw [hqueue, hq]
      exact ⟨state, info, _, rfl⟩
  · rw [if_neg (by simpa using hc)] at hqueue
    have hgone : t'.attached = true → t'.session.alive me = true → False := by
      rw [hattached, halive']
      exact fun ha hl => hc ⟨ha, hl⟩
    constructor
    · rw [hpage, hqueue]
      apply hwarranted
    · exact fun ha hl => absurd (hgone ha hl) id
    · exact fun ha hl => absurd (hgone ha hl) id
    · rw [hattached, hpage, hqueue]
      apply h.unattached
    · rw [hattached, hpage, hqueue]
      apply h.greeted

/-- Nothing but the upload and the answers has changed. -/
theorem Informed.of_same (h : t.Informed me) {t' : Transfer} (hhistory : t'.history = t.history)
    (hpage : t'.page = t.page) (hattached : t'.attached = t.attached)
    (hqueue : t'.toReceiver = t.toReceiver) :
  t'.Informed me
  := by
  have hsession : t'.session = t.session := congrArg History.session hhistory
  have hheard : t'.heard = t.heard := by
    rw [heard, heard, hpage, hqueue]
  constructor
  · rw [hhistory, hpage, hqueue]
    apply h.warranted
  · rw [hattached, hsession, hhistory, hheard]
    apply h.announced
  · rw [hattached, hsession, hheard]
    apply h.member
  · rw [hattached, hpage, hqueue]
    apply h.unattached
  · rw [hattached, hpage, hqueue]
    apply h.greeted

theorem Informed.advance (h : t.Informed me) (hs : t.Served config file encryptChunk)
    {l : Upload.Step} (hl : ∀ kept, l ≠ .lose kept) :
  (t.advance config file encryptChunk me l).Informed me
  := by
  have hsame : (t.advance config file encryptChunk me l).history = t.history →
      (t.advance config file encryptChunk me l).Informed me := by
    intro heq
    apply h.of_same heq rfl rfl
    have hsession := congrArg History.session heq
    have hnone : noticesSince me t.session
        (t.advance config file encryptChunk me l).history.session = [] := by
      rw [hsession, noticesSince]
      simp [session]
    have hqueue : (t.advance config file encryptChunk me l).toReceiver
        = if t.attached && (t.advance config file encryptChunk me l).history.session.alive me then
            t.toReceiver ++ noticesSince me t.session
              (t.advance config file encryptChunk me l).history.session
          else t.toReceiver := rfl
    rw [hqueue, hnone, List.append_nil, ite_self]
  obtain heq | ⟨op, heq⟩ := t.history_advance me l
  · apply hsame heq
  · obtain hstay | ⟨hlisted, ⟨es, hinforms⟩, hsession⟩ :=
      t.history.informs_step hs.paced.consistent op
    · apply hsame (heq.trans hstay)
    · have hfinish : (t.advance config file encryptChunk me l).session
          = (t.history.session.apply config op).finish := by
        rw [session, heq]
        apply hsession
      apply h.sent hinforms hfinish rfl rfl rfl hlisted TransferSession.alive_of_apply
        hs.paced.numbered (hs.advance me hl).paced.numbered
      intro n hn
      rw [heq]
      apply hn.step

/-- The messages are what a page knows of that knows more. -/
theorem Informed.of_page (h : t.Informed me) {page : Option SessionReceiver}
    (hle : knowledge t.page ≤ knowledge page) (hnone : page = none ↔ t.page = none) :
  { t with page }.Informed me
  := by
  have hheard : t.heard ≤ heard { t with page } :=
    Machine.run_mono (fun _ _ m hk => Knowledge.hear_mono hk m) hle t.toReceiver
  constructor
  · apply Machine.EveryStep.of_le _ _ hle h.warranted
    · exact fun _ _ m hk => Knowledge.hear_mono hk m
    · exact fun _ _ m hk hm => hm.of_le History.Final.mono hk
  · exact fun ha hl => (h.announced ha hl).trans hheard.1
  · exact fun ha hl hlisted => (h.member ha hl hlisted).imp_right hheard.2
  · intro ha
    obtain ⟨hp, hq⟩ := h.unattached ha
    exact ⟨hnone.mpr hp, hq⟩
  · exact fun hp ha => h.greeted (hnone.mp hp) ha

/-- The page gets a message. -/
theorem Informed.receive (h : t.Informed me) {m : Notice} {rest : List Notice}
    (hq : t.toReceiver = m :: rest) :
  Informed me { t with
    toReceiver := rest, page := m.deliver hasFSAccess decryptChunk t.page }
  := by
  have hattached : t.attached = true := by
    apply Bool.eq_true_of_not_eq_false
    intro ha
    have hnil := (h.unattached ha).2
    rw [hq] at hnil
    cases hnil
  have hpage : ∃ page, m.deliver hasFSAccess decryptChunk t.page = some page
      ∧ (knowledge t.page).hear m ≤ page.knowledge := by
    cases hp : t.page with
    | none =>
        obtain ⟨state, info, rest', hq'⟩ := h.greeted hp hattached
        rw [hq] at hq'
        obtain ⟨rfl, -⟩ := List.cons.inj hq'
        exact ⟨_, rfl, SessionReceiver.hear_le_knowledge_create hasFSAccess state info⟩
    | some page => exact ⟨_, rfl, page.hear_le_knowledge decryptChunk le_rfl m⟩
  obtain ⟨page, hdeliver, hle⟩ := hpage
  have hheard : t.heard ≤ Machine.run Knowledge.hear page.knowledge rest := by
    rw [heard, hq, Machine.run_cons]
    apply Machine.run_mono (fun _ _ m hk => Knowledge.hear_mono hk m) hle
  have hwarranted := h.warranted
  rw [hq] at hwarranted
  rw [hdeliver]
  constructor
  · apply Machine.EveryStep.of_le _ _ hle hwarranted.2
    · exact fun _ _ m hk => Knowledge.hear_mono hk m
    · exact fun _ _ m hk hm => hm.of_le History.Final.mono hk
  · exact fun ha hl => (h.announced ha hl).trans hheard.1
  · exact fun ha hl hlisted => (h.member ha hl hlisted).imp_right hheard.2
  · intro ha
    rw [hattached] at ha
    cases ha
  · intro hp
    cases hp

/-- The receiver connects and is told what there is. -/
theorem Served.informed_connect (hs : t.Served config file encryptChunk)
    (hlisted : t.session.listed = true) (halive : t.session.alive me = true)
    (hmem : me ∈ t.session.dataReceivers) :
  (t.connect config file encryptChunk me).Informed me
  := by
  have henabled : t.session.enabled (.connect me) = true := halive
  have hnumbered := (hs.advance me (Upload.session_ne_lose (.connect me))).paced.numbered
  have hreceivers : (t.connect config file encryptChunk me).session.dataReceivers
      = t.session.dataReceivers := by
    have hstep : (t.connect config file encryptChunk me).session
        = t.session.step config (.connect me) := t.history.session_step config (.connect me)
    rw [hstep, TransferSession.step_of_enabled hlisted henabled, TransferSession.finish_eq]
    rfl
  constructor
  · use fun heof => ⟨heof, hnumbered.le⟩
    trivial
  · intro _ _
    apply hnumbered.le.trans (le_max_right _ _)
  · intro _ _ _
    rw [hreceivers]
    apply Or.inl hmem
  · intro ha
    cases ha
  · exact fun _ _ => ⟨_, _, [], rfl⟩

/-! ### The page -/

/-- What holds of a transfer without losses: besides what the server has and says, the page
is sound. -/
structure Intact (config : Config) (file : SelectedFile) (encryptChunk : Bytes → ℕ → Bytes)
    (me : ClientRef) (t : Transfer) : Prop where
  served : t.Served config file encryptChunk
  informed : t.Informed me
  page : ∀ page, t.page = some page →
    page.Sound (t.history.Right config file) t.history.Final file.data

namespace Intact

theorem reportsFile (h : t.Intact config file encryptChunk me) :
  t.ReportsFile file
  := fun page hp => (h.page page hp).reports

theorem create (config : Config) (file : SelectedFile) (encryptChunk : Bytes → ℕ → Bytes)
    (me sender : ClientRef) (auto : Bool) :
  (create sender auto).Intact config file encryptChunk me
  := by
  have hserved : (Transfer.create sender auto).Served config file encryptChunk := by
    refine ⟨Upload.paced_create config file encryptChunk sender auto,
      Upload.unbroken_create sender auto, History.stored_create config sender auto, ?_⟩
    intro index data hmem
    cases hmem
  refine ⟨hserved, ⟨trivial, ?_, ?_, fun _ => ⟨rfl, rfl⟩, ?_⟩, ?_⟩
  · intro ha
    cases ha
  · intro ha
    cases ha
  · intro _ ha
    cases ha
  · intro page hp
    cases hp

/-- The upload goes on. -/
theorem advance (h : t.Intact config file encryptChunk me) {l : Upload.Step}
    (hl : ∀ kept, l ≠ .lose kept) :
  (t.advance config file encryptChunk me l).Intact config file encryptChunk me
  := by
  refine ⟨h.served.advance me hl, h.informed.advance h.served hl, ?_⟩
  intro page hp
  apply (h.page page hp).mono
  · exact fun i data hr => hr.of_prefix (h.served.stored_advance me l).2
  · intro n hf
    obtain heq | ⟨op, heq⟩ := t.history_advance me l
    · rw [heq]
      apply hf
    · rw [heq]
      apply hf.step

theorem connect (h : t.Intact config file encryptChunk me) (hattached : t.attached = false)
    (hlisted : t.session.listed = true) (halive : t.session.alive me = true)
    (hmem : me ∈ t.session.dataReceivers) :
  (t.connect config file encryptChunk me).Intact config file encryptChunk me
  := by
  have hadvance := h.served.advance me (Upload.session_ne_lose (.connect me))
  refine ⟨⟨hadvance.paced, hadvance.unbroken, hadvance.stored, hadvance.responses⟩,
    h.served.informed_connect hlisted halive hmem, ?_⟩
  intro page hp
  cases (h.informed.unattached hattached).1.symm.trans hp

theorem answer (h : t.Intact config file encryptChunk me) (index : ℕ) :
  (t.answer config file encryptChunk me index).Intact config file encryptChunk me
  := by
  have hadvance := h.advance (Upload.session_ne_lose (.getChunk index me))
  exact ⟨h.served.answer index, hadvance.informed.of_same rfl rfl rfl rfl, hadvance.page⟩

/-- What is warranted may be told the page. -/
theorem admits_of_warrants {page : SessionReceiver} {right : ℕ → Bytes → Prop}
    {final : ℕ → Prop} {m : Notice} (hm : page.knowledge.Warrants final m) :
  page.Admits right final decryptChunk m.event
  := by
  cases m with
  | startInit state info => exact hm
  | uploadFinished => exact hm
  | complete status =>
      cases status with
      | ok => exact hm
      | _ => trivial
  | _ => trivial

theorem receive (h : t.Intact config file encryptChunk me)
    (hlimit : 40 < config.transferSessionMaxChunkSize) {m : Notice} {rest : List Notice}
    (hq : t.toReceiver = m :: rest) :
  Intact config file encryptChunk me { t with
    toReceiver := rest, page := m.deliver hasFSAccess decryptChunk t.page }
  := by
  have hdelivers := h.served.delivers hlimit
  have hwarranted := h.informed.warranted
  rw [hq] at hwarranted
  refine ⟨⟨h.served.paced, h.served.unbroken, h.served.stored, h.served.responses⟩,
    h.informed.receive hq, ?_⟩
  intro page' hp'
  cases hp : t.page with
  | none =>
      rw [hp] at hp' hwarranted
      cases m with
      | startInit state info =>
          obtain rfl := Option.some.inj hp'
          apply SessionReceiver.Sound.create hdelivers
          apply hwarranted.1
      | _ => cases hp'
  | some page =>
      rw [hp] at hp' hwarranted
      obtain rfl := Option.some.inj hp'
      apply (h.page page hp).step hdelivers
      apply admits_of_warrants hwarranted.1

/-- The page does something that it may do. -/
theorem of_step (h : t.Intact config file encryptChunk me)
    (hlimit : 40 < config.transferSessionMaxChunkSize) {page : SessionReceiver}
    (hp : t.page = some page) {e : SessionReceiver.Event}
    (he : page.Admits (t.history.Right config file) t.history.Final decryptChunk e) :
  Intact config file encryptChunk me { t with page := some (page.step decryptChunk e) }
  := by
  refine ⟨⟨h.served.paced, h.served.unbroken, h.served.stored, h.served.responses⟩, ?_, ?_⟩
  · apply h.informed.of_page
    · rw [hp]
      apply page.knowledge_step decryptChunk le_rfl
    · simp [hp]
  · intro page' hp'
    obtain rfl := Option.some.inj hp'
    apply (h.page page hp).step (h.served.delivers hlimit) he

theorem download (h : t.Intact config file encryptChunk me)
    (hlimit : 40 < config.transferSessionMaxChunkSize)
    (hdecrypt : ∀ text nonce, decryptChunk (encryptChunk text nonce) = some text)
    {page : SessionReceiver} (hp : t.page = some page) (k j : ℕ) (isConnected : Bool) :
  (t.download decryptChunk page k j isConnected).Intact config file encryptChunk me
  := by
  rw [Transfer.download]
  split
  · apply h
  · next index data hj =>
      split
      · next hk =>
          have hmem : (index, data) ∈ t.responses := List.mem_of_getElem? hj
          have hadmits : page.Admits (t.history.Right config file) t.history.Final decryptChunk
              (.awaited k isConnected (.response 200 (some data))) := by
            intro f data' decrypted hf hresult hdecrypted
            cases hresult
            rw [hf, Option.map_some, Option.some.injEq] at hk
            rw [hk]
            apply h.served.right hdecrypt hmem hdecrypted
          have hstep := h.of_step hlimit hp hadmits
          refine ⟨⟨h.served.paced, h.served.unbroken, h.served.stored, ?_⟩,
            hstep.informed.of_same rfl rfl rfl rfl, hstep.page⟩
          exact fun i d hi => h.served.responses i d (List.mem_of_mem_eraseIdx hi)
      · apply h

/-- Apart from a loss of the connection, what happens to the page alone tells it nothing. -/
theorem admits_of_isLocal {page : SessionReceiver} {right : ℕ → Bytes → Prop}
    {final : ℕ → Prop} {e : SessionReceiver.Event} (he : isLocal e = true) (hclose : e ≠ .close) :
  page.Admits right final decryptChunk e
  := by
  cases e with
  | awaited k isConnected result =>
      rintro f data decrypted - rfl
      cases he
  | close => apply absurd rfl hclose
  | closeTimer => trivial
  | saveDialog chosen => trivial
  | leave => trivial
  | _ => cases he

theorem step (h : t.Intact config file encryptChunk me)
    (hlimit : 40 < config.transferSessionMaxChunkSize)
    (hdecrypt : ∀ text nonce, decryptChunk (encryptChunk text nonce) = some text)
    {l : Step} (hl : l.keepsConnections me = true) :
  (t.step config file encryptChunk decryptChunk hasFSAccess me l).Intact config file
    encryptChunk me
  := by
  cases l with
  | upload l =>
      apply h.advance
      rintro kept rfl
      cases hl
  | connect =>
      rw [Transfer.step]
      split
      · next hc =>
          simp only [Bool.and_eq_true, Bool.not_eq_true', decide_eq_true_eq] at hc
          apply h.connect hc.1.1.1 hc.1.1.2 hc.1.2 hc.2
      · apply h
  | answer index =>
      rw [Transfer.step]
      split
      · apply h.answer
      · apply h
  | receive =>
      rw [Transfer.step]
      split
      · apply h
      · next m rest hq => apply h.receive hlimit hq
  | downloaded k j isConnected =>
      rw [Transfer.step]
      split
      · apply h
      · next page hp => apply h.download hlimit hdecrypt hp
  | page e =>
      rw [Transfer.step]
      split
      · next he =>
          have hclose : e ≠ .close := by
            rintro rfl
            cases hl
          cases hp : t.page with
          | none =>
              have hsame : { t with page := none } = t := by
                rw [← hp]
              rw [Option.map_none, hsame]
              apply h
          | some page =>
              apply h.of_step hlimit hp
              apply admits_of_isLocal he hclose
      · apply h

end Intact

/-- For every file and key, and an announced limit that leaves room for a slice: in every run
in which neither the connection of the sender nor that of the receiver is lost, every blob
that the page of the receiver has reported is the file, byte for byte. -/
theorem everyState_reportsFile {Key : Type} (config : Config)
    (hlimit : 40 < config.transferSessionMaxChunkSize) (file : SelectedFile)
    (encryptChunk : Bytes → Key → ℕ → Bytes) (decryptChunk : Bytes → Key → Option Bytes)
    (key : Key)
    (hdecrypt : ∀ text nonce, decryptChunk (encryptChunk text key nonce) key = some text)
    (hasFSAccess : Bool) (sender me : ClientRef) (auto : Bool) (steps : List Step)
    (hsteps : ∀ l ∈ steps, l.keepsConnections me = true) :
  Machine.EveryState
    (step config file (encryptChunk · key) (decryptChunk · key) hasFSAccess me)
    (ReportsFile file) (create sender auto) steps
  := by
  have hintact : Machine.EveryState
      (step config file (encryptChunk · key) (decryptChunk · key) hasFSAccess me)
      (Intact config file (encryptChunk · key) me) (create sender auto) steps := by
    apply Machine.everyState_of_everyStep _ _ (Machine.everyStep_of_forall_mem hsteps)
    · exact fun t l h hl => h.step hlimit hdecrypt hl
    · apply Intact.create
  apply hintact.mono
  exact fun _ h => h.reportsFile

end Transfer

/-! ### A sample run -/

namespace Transfer.Sample

/-- A cipher with keys of one byte. -/
def encryptChunk (text : Bytes) (key : UInt8) (nonce : ℕ) : Bytes :=
  Upload.Sample.encryptChunk (text.map (· ^^^ key)) nonce

def decryptChunk (data : Bytes) (key : UInt8) : Option Bytes :=
  if data.length < 40 then none
  else some (((data.drop 24).take (data.length - 40)).map (· ^^^ key))

theorem decryptChunk_encryptChunk (text : Bytes) (key : UInt8) (nonce : ℕ) :
  decryptChunk (encryptChunk text key nonce) key = some text
  := by
  have hlength : (encryptChunk text key nonce).length - 40 = (text.map (· ^^^ key)).length := by
    simp [encryptChunk, Upload.Sample.encryptChunk]
  have hdata : ((encryptChunk text key nonce).drop 24).take (text.map (· ^^^ key)).length
      = text.map (· ^^^ key) := by
    simp [encryptChunk, Upload.Sample.encryptChunk]
  rw [decryptChunk, if_neg, hlength, hdata, List.map_map]
  · congr 1
    apply List.map_id''
    intro x
    rw [Function.comp_apply, UInt8.xor_assoc, UInt8.xor_self, UInt8.xor_zero]
  · simp [encryptChunk, Upload.Sample.encryptChunk]

/-- Two chunks are uploaded, and Alice gets the second one first. -/
def outOfOrder : List Step :=
  [.upload (.session (.addReceiver TransferSession.Sample.alice)), .connect, .receive,
    .upload .select, .upload .serve, .upload (.read 0), .upload .serve, .upload .receive,
    .upload (.read 1), .upload .serve, .upload .receive, .upload .serve, .receive, .receive,
    .receive, .receive, .answer 1, .answer 2, .downloaded 1 1 true, .downloaded 0 0 true,
    .upload (.session (.setChunkAsReceived 2 TransferSession.Sample.alice)),
    .upload (.session (.setChunkAsReceived 1 TransferSession.Sample.alice)), .receive, .receive,
    .receive, .receive, .receive, .receive]

end Transfer.Sample

namespace Transfer

/-- Throughout that run the blobs are the file, and in the end there is one. -/
theorem everyState_reportsFile_outOfOrder :
  Machine.EveryState
      (step Upload.Sample.config Upload.Sample.file (Sample.encryptChunk · 7)
        (Sample.decryptChunk · 7) false TransferSession.Sample.alice)
      (ReportsFile Upload.Sample.file) (create TransferSession.Sample.sender false)
      Sample.outOfOrder
    ∧ (Machine.run
        (step Upload.Sample.config Upload.Sample.file (Sample.encryptChunk · 7)
          (Sample.decryptChunk · 7) false TransferSession.Sample.alice)
        (create TransferSession.Sample.sender false)
        Sample.outOfOrder).page.map (·.reports.map Report.status)
      = some [.ok (some Upload.Sample.file.data) false]
  := by
  constructor
  · apply everyState_reportsFile
    · decide
    · exact fun text nonce => Sample.decryptChunk_encryptChunk text 7 nonce
    · decide
  · decide

end Transfer

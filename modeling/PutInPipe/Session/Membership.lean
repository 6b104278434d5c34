import PutInPipe.Session.History

/-!
# Membership

The receivers of a session are recorded twice: in the list of weak pointers of the session
and, by public id, in the set of consumers of the buffer. The two agree with the receivers
that are present until a receiver is destroyed after the sender: the destruction is then
taken for the destruction of the sender, and both keep their entries.
-/

open TransferSessionDetails

namespace TransferSession

/-- The destruction of the client leaves the entries of a receiver that is gone, or takes
those of another one. The latter needs two clients with one public id. -/
def LosesMember (s : TransferSession) : Op → Prop
  | .destroyClient c =>
      (c ∈ s.dataReceivers ∧ s.buffer.EOF = true
          ∧ (s.expire c).takenForSender c.publicId = true)
        ∨ (c ∉ s.dataReceivers ∧ c ∈ s.subscribers
          ∧ (s.expire c).takenForSender c.publicId = false
          ∧ (∃ r ∈ s.dataReceivers, r.publicId = c.publicId)
          ∧ (s.expire c).endsWithout c.publicId = false)
  | _ => False

end TransferSession

namespace History

variable {config : Config} {h : History}

/-- The consumers, the live receivers of the session and the receivers present are the
same, and no entry of the list is double or expired. -/
structure MembersAgree (config : Config) (h : History) : Prop where
  expected : h.session.buffer.expectedConsumers = (h.present.map ClientRef.publicId).toFinset
  live : ∀ c, c ∈ h.session.liveReceivers ↔ c ∈ h.present
  nodup : h.session.dataReceivers.Nodup
  alive : ∀ c ∈ h.session.dataReceivers, h.session.alive c = true
  bounded : h.session.buffer.expectedConsumers.card ≤ config.transferSessionMaxConsumerCount

theorem MembersAgree.mem_present (hm : h.MembersAgree config) {c : ClientRef} :
  c ∈ h.present ↔ c ∈ h.session.dataReceivers
  := by
  rw [← hm.live, TransferSession.mem_liveReceivers]
  constructor
  · exact fun hc => hc.1
  · exact fun hc => ⟨hc, hm.alive c hc⟩

theorem MembersAgree.mem_expected (hm : h.MembersAgree config) {publicId : String} :
  publicId ∈ h.session.buffer.expectedConsumers
    ↔ ∃ c ∈ h.session.dataReceivers, c.publicId = publicId
  := by
  rw [hm.expected, List.mem_toFinset, List.mem_map]
  simp only [hm.mem_present]

/-- To agree it is enough that the list holds exactly the receivers present, all of them
alive, and the consumers are their public ids. -/
theorem MembersAgree.of_mem (hc : h.session.Consistent config)
    (hpresent : ∀ c, c ∈ h.present ↔ c ∈ h.session.dataReceivers)
    (halive : ∀ c ∈ h.session.dataReceivers, h.session.alive c = true)
    (hexpected : ∀ p, p ∈ h.session.buffer.expectedConsumers →
      ∃ c ∈ h.session.dataReceivers, c.publicId = p) :
  h.MembersAgree config
  where
    expected := by
      ext p
      rw [List.mem_toFinset, List.mem_map]
      simp only [hpresent]
      constructor
      · apply hexpected p
      · rintro ⟨c, hmem, rfl⟩
        apply hc.expected c hmem
    live c := by
      rw [TransferSession.mem_liveReceivers, hpresent]
      constructor
      · exact fun hmem => hmem.1
      · exact fun hmem => ⟨hmem, halive c hmem⟩
    nodup := List.Nodup.of_map _ hc.distinct
    alive := halive
    bounded := hc.buffer.consumers

/-! ### What the operations do to it -/

theorem membersAgree_of_sameMembers (hc : h.session.Consistent config)
    (hm : h.MembersAgree config) {op : TransferSession.Op} (hop : op.keepsMembers = true) :
  WhileListed (MembersAgree config) (h.applied config op)
  := by
  intro hl
  have hsame := TransferSession.sameMembers_apply config h.session hop
  have hpresent : h.nextPresent config op = h.present := by
    cases op <;> first | rfl | cases hop
  apply MembersAgree.of_mem (hc.apply op hl)
  · intro c
    simp only [hpresent, applied, hsame.dataReceivers]
    apply hm.mem_present
  · intro c hmem
    simp only [applied, hsame.dataReceivers, hsame.alive] at hmem ⊢
    apply hm.alive c hmem
  · intro p hp
    simp only [applied, hsame.dataReceivers, hsame.expectedConsumers] at hp ⊢
    apply hm.mem_expected.mp hp

theorem membersAgree_addReceiver (hc : h.session.Consistent config)
    (hm : h.MembersAgree config) {c : ClientRef} (halive : h.session.alive c = true) :
  (h.applied config (.addReceiver c)).MembersAgree config
  := by
  apply MembersAgree.of_mem (hc.addReceiver c)
  all_goals
    simp only [applied, TransferSession.apply, nextPresent]
    cases ha : (h.session.addReceiver config c).2
  case hpresent.false =>
    intro x
    rw [TransferSession.addReceiver_of_false ha]
    apply hm.mem_present
  case hpresent.true =>
    intro x
    rw [(TransferSession.addReceiver_of_true ha).2]
    simp [hm.mem_present]
  case halive.false =>
    rw [TransferSession.addReceiver_of_false ha]
    apply hm.alive
  case halive.true =>
    intro x hx
    rw [(TransferSession.addReceiver_of_true ha).2] at hx ⊢
    rcases List.mem_append.mp hx with hx | hx
    · apply hm.alive x hx
    · rw [List.mem_singleton.mp hx]
      apply halive
  case hexpected.false =>
    intro p
    rw [TransferSession.addReceiver_of_false ha]
    apply hm.mem_expected.mp
  case hexpected.true =>
    intro p hp
    rw [(TransferSession.addReceiver_of_true ha).2] at hp ⊢
    rcases Finset.mem_insert.mp hp with rfl | hp
    · use c
      simp
    · obtain ⟨x, hx, hxp⟩ := hm.mem_expected.mp hp
      exact ⟨x, List.mem_append_left _ hx, hxp⟩

theorem membersAgree_removeReceiver (hc : h.session.Consistent config)
    (hm : h.MembersAgree config) (publicId : String) :
  WhileListed (MembersAgree config) (h.applied config (.removeReceiver publicId))
  := by
  intro hl
  apply MembersAgree.of_mem (hc.removeReceiver publicId hl)
  · intro c
    simp only [applied, TransferSession.apply, nextPresent,
      TransferSession.dataReceivers_removeReceiver, TransferSession.mem_remaining,
      List.mem_filter, decide_eq_true_eq, hm.mem_present]
    constructor
    · exact fun hc => ⟨hc.1, hm.alive c hc.1, hc.2⟩
    · exact fun hc => ⟨hc.1, hc.2.2⟩
  · intro c hmem
    simp only [applied, TransferSession.apply,
      TransferSession.dataReceivers_removeReceiver] at hmem ⊢
    apply TransferSession.alive_removeReceiver hmem
  · intro p hp
    simp only [applied, TransferSession.apply, TransferSession.buffer_removeReceiver,
      Buffer.expectedConsumers_removeOne, TransferSession.dataReceivers_removeReceiver,
      TransferSession.mem_remaining] at hp ⊢
    obtain ⟨hne, hp⟩ := Finset.mem_erase.mp hp
    obtain ⟨c, hmem, rfl⟩ := hm.mem_expected.mp hp
    exact ⟨c, ⟨hmem, hm.alive c hmem, hne⟩, rfl⟩

/-- The destruction of somebody who is no receiver keeps the agreement where it leaves the members
alone. -/
theorem MembersAgree.destroyClient (hm : h.MembersAgree config) {c : ClientRef}
    (hc : (h.applied config (.destroyClient c)).session.Consistent config)
    (hne : ∀ x ∈ h.session.dataReceivers, x ≠ c)
    (hreceivers : (h.session.destroyClient c).dataReceivers = h.session.dataReceivers)
    (halive : ∀ x, (h.session.destroyClient c).alive x = (h.session.expire c).alive x)
    (hbuffer : (h.session.destroyClient c).buffer = h.session.buffer) :
  (h.applied config (.destroyClient c)).MembersAgree config
  := by
  apply MembersAgree.of_mem hc
  · intro x
    simp only [applied, TransferSession.apply, hreceivers, nextPresent, List.mem_filter,
      decide_eq_true_eq, hm.mem_present]
    exact ⟨fun hx => hx.1, fun hx => ⟨hx, hne x hx⟩⟩
  · intro x hx
    simp only [applied, TransferSession.apply, hreceivers, halive] at hx ⊢
    apply TransferSession.alive_expire.mpr ⟨hne x hx, hm.alive x hx⟩
  · intro p hp
    simp only [applied, TransferSession.apply, hreceivers, hbuffer] at hp ⊢
    apply hm.mem_expected.mp hp

/-- The destruction of a stranger keeps the agreement. -/
theorem membersAgree_destroy_stranger (hc : h.session.Consistent config)
    (hm : h.MembersAgree config) {c : ClientRef} (hs : c ∉ h.session.subscribers) :
  (h.applied config (.destroyClient c)).MembersAgree config
  := by
  have hne : ∀ x ∈ h.session.dataReceivers, x ≠ c := by
    rintro x hx rfl
    apply hs (hc.receivers_mem x hx)
  have heq := TransferSession.destroyClient_of_stranger hs
  apply hm.destroyClient _ hne
  · rw [heq]
    rfl
  · intro x
    rw [heq]
  · rw [heq]
    rfl
  · simp only [applied, TransferSession.apply, heq]
    apply hc.expire_of_stranger hs

/-- A destruction that is taken for that of the sender keeps the agreement exactly when the
client is no receiver or the upload is not finished, so that the session ends. -/
theorem membersAgree_destroy_taken (hc : h.session.Consistent config)
    (hl : h.session.listed = true) (hm : h.MembersAgree config) {c : ClientRef}
    (hs : c ∈ h.session.subscribers)
    (ht : (h.session.expire c).takenForSender c.publicId = true) :
  WhileListed (MembersAgree config) (h.applied config (.destroyClient c))
    ↔ ¬ (c ∈ h.session.dataReceivers ∧ h.session.buffer.EOF = true)
  := by
  have heq := TransferSession.destroyClient_of_taken hs ht
  constructor
  · rintro hagree ⟨hmem, he⟩
    have hl' : (h.applied config (.destroyClient c)).session.listed = true := by
      have hne : h.session.dataReceivers.isEmpty = false :=
        List.isEmpty_eq_false_iff.mpr (List.ne_nil_of_mem hmem)
      simp [applied, TransferSession.apply, heq, hl, he, hne]
    have halive := (hagree hl').alive c
    simp only [applied, TransferSession.apply, heq] at halive
    replace halive := halive hmem
    apply (TransferSession.alive_expire.mp halive).1 rfl
  · intro hno hl'
    have he : h.session.buffer.EOF = true := by
      simp only [applied, TransferSession.apply, heq, Bool.and_eq_true] at hl'
      apply hl'.2.1
    have hne : ∀ x ∈ h.session.dataReceivers, x ≠ c := by
      rintro x hx rfl
      apply hno ⟨hx, he⟩
    apply hm.destroyClient (hc.destroyClient c hl') hne
    · rw [heq]
      rfl
    · intro x
      rw [heq]
      rfl
    · rw [heq]
      rfl

/-- The destruction of a receiver that is handled as its departure keeps the agreement,
unless it takes the entries of another receiver with the same public id. -/
theorem membersAgree_destroy_receiver (hc : h.session.Consistent config)
    (hl : h.session.listed = true) (hm : h.MembersAgree config) {c : ClientRef}
    (hs : c ∈ h.session.subscribers)
    (ht : (h.session.expire c).takenForSender c.publicId = false) :
  WhileListed (MembersAgree config) (h.applied config (.destroyClient c))
    ↔ ¬ (c ∉ h.session.dataReceivers
        ∧ (∃ r ∈ h.session.dataReceivers, r.publicId = c.publicId)
        ∧ (h.session.expire c).endsWithout c.publicId = false)
  := by
  have heq := TransferSession.destroyClient_of_receiver hs ht
  constructor
  · rintro hagree ⟨hmem, ⟨r, hr, hp⟩, hends⟩
    have hl' : (h.applied config (.destroyClient c)).session.listed = true := by
      simp only [applied, TransferSession.apply, heq, TransferSession.listed_removeReceiver,
        hends, Bool.not_false, Bool.and_true]
      apply hl
    have hpresent : r ∈ (h.applied config (.destroyClient c)).present := by
      simp only [applied, nextPresent, List.mem_filter, decide_eq_true_eq]
      use hm.mem_present.mpr hr
      rintro rfl
      apply hmem hr
    have hr' := (hagree hl').mem_present.mp hpresent
    simp only [applied, TransferSession.apply, heq,
      TransferSession.dataReceivers_removeReceiver, TransferSession.mem_remaining] at hr'
    apply hr'.2.2 hp
  · intro hno hl'
    have hends : (h.session.expire c).endsWithout c.publicId = false := by
      simp [applied, TransferSession.apply, heq] at hl'
      apply hl'.2
    -- the receivers with the public id of `c` are `c` itself, or there are none
    have hsame : ∀ x ∈ h.session.dataReceivers, x ≠ c ↔ x.publicId ≠ c.publicId := by
      intro x hx
      rw [not_iff_not]
      constructor
      · rintro rfl
        rfl
      · intro hp
        by_cases hmem : c ∈ h.session.dataReceivers
        · apply hc.eq_of_publicId hx hmem hp
        · exact absurd ⟨hmem, ⟨x, hx, hp⟩, hends⟩ hno
    apply MembersAgree.of_mem (hc.destroyClient c hl')
    · intro x
      simp only [applied, TransferSession.apply, heq, nextPresent, List.mem_filter,
        decide_eq_true_eq, hm.mem_present, TransferSession.dataReceivers_removeReceiver,
        TransferSession.mem_remaining, TransferSession.alive_expire]
      constructor
      · rintro ⟨hx, hne⟩
        exact ⟨hx, ⟨hne, hm.alive x hx⟩, (hsame x hx).mp hne⟩
      · rintro ⟨hx, ⟨hne, -⟩, -⟩
        exact ⟨hx, hne⟩
    · intro x hx
      simp only [applied, TransferSession.apply, heq,
        TransferSession.dataReceivers_removeReceiver] at hx ⊢
      apply TransferSession.alive_removeReceiver hx
    · intro p hp
      simp only [applied, TransferSession.apply, heq, TransferSession.buffer_removeReceiver,
        Buffer.expectedConsumers_removeOne, TransferSession.dataReceivers_removeReceiver,
        TransferSession.mem_remaining, TransferSession.alive_expire] at hp ⊢
      obtain ⟨hne, hp⟩ := Finset.mem_erase.mp hp
      obtain ⟨x, hx, rfl⟩ := hm.mem_expected.mp hp
      exact ⟨x, ⟨hx, ⟨(hsame x hx).mpr hne, hm.alive x hx⟩, hne⟩, rfl⟩

/-- An operation applied to a listed session keeps the agreement exactly when it does not
lose a member. -/
theorem membersAgree_applied (hc : h.session.Consistent config)
    (hl : h.session.listed = true) (hm : h.MembersAgree config) {op : TransferSession.Op}
    (he : h.session.enabled op = true) :
  WhileListed (MembersAgree config) (h.applied config op) ↔ ¬ h.session.LosesMember op
  := by
  cases op with
  | addReceiver c =>
      apply iff_of_true (fun _ => membersAgree_addReceiver hc hm he) id
  | removeReceiver publicId => exact iff_of_true (membersAgree_removeReceiver hc hm publicId) id
  | destroyClient c =>
      by_cases hs : c ∈ h.session.subscribers
      · cases ht : (h.session.expire c).takenForSender c.publicId with
        | true =>
            rw [membersAgree_destroy_taken hc hl hm hs ht]
            simp [TransferSession.LosesMember, ht]
        | false =>
            rw [membersAgree_destroy_receiver hc hl hm hs ht]
            simp [TransferSession.LosesMember, ht, hs]
      · apply iff_of_true (fun _ => membersAgree_destroy_stranger hc hm hs)
        rintro (⟨hmem, -⟩ | ⟨-, hs', -⟩)
        · apply hs (hc.receivers_mem c hmem)
        · apply hs hs'
  | _ => exact iff_of_true (membersAgree_of_sameMembers hc hm rfl) id

/-- In every run, the consumers of the buffer, the list of the session and the receivers
present agree while the session is listed, exactly when no operation loses a member. -/
theorem membersAgree_iff (config : Config) (sender : ClientRef) (auto : Bool)
    (ops : List TransferSession.Op) :
  Machine.EveryState (step config) (WhileListed (MembersAgree config)) (create sender auto) ops
    ↔ Machine.EveryStep (step config)
        (WhenApplied (fun h op => ¬ h.session.LosesMember op)) (create sender auto) ops
  := by
  apply everyState_whileListed_iff
  · intro h op hl he hc hm
    apply membersAgree_applied hc hl hm he
  · apply MembersAgree.of_mem (TransferSession.Consistent.create config sender auto)
    · exact fun c => Iff.rfl
    · apply List.forall_mem_nil
    · intro p hp
      cases hp

/-- A run in which the sender is destroyed after the upload, and then one of the two
receivers. -/
def memberLost : List TransferSession.Op :=
  [.addReceiver TransferSession.Sample.alice, .addReceiver TransferSession.Sample.bob,
    .setFileInfo TransferSession.Sample.info, .addChunk [1], .setEndOfFile,
    .destroyClient TransferSession.Sample.sender, .destroyClient TransferSession.Sample.alice]

/-- After that run the destroyed receiver is still in the list and among the consumers. -/
theorem not_membersAgree_memberLost :
  ¬ ∀ (config : Config) (sender : ClientRef) (auto : Bool) (ops : List TransferSession.Op),
      Machine.EveryState (step config) (WhileListed (MembersAgree config))
        (create sender auto) ops
  := by
  intro h
  have hlast := (h TransferSession.Sample.config TransferSession.Sample.sender false
    memberLost).last (by decide)
  have halive := hlast.alive TransferSession.Sample.alice (by decide)
  revert halive
  decide

end History

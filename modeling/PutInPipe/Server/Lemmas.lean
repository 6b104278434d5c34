import PutInPipe.Server.Basic
import PutInPipe.Session.Joining

/-!
# Invariants of the server

What holds of the lists and the objects of a server in every run: the clients that are
listed are live, a client has joined a session only if it subscribes to it, and a session
whose destructor has run is neither listed nor referred to.
-/

open TransferSessionDetails

namespace TransferSession

variable {config : Config} {s t : TransferSession}

/-! ### Methods that let nobody in -/

/-- The sender and the subscribers are the same, and nobody has become a receiver or a
consumer. -/
structure Narrows (s t : TransferSession) : Prop where
  dataSender : t.dataSender = s.dataSender
  subscribers : t.subscribers = s.subscribers
  dataReceivers : t.dataReceivers ⊆ s.dataReceivers
  expectedConsumers : t.buffer.expectedConsumers ⊆ s.buffer.expectedConsumers

theorem SameMembers.narrows (h : s.SameMembers t) :
  s.Narrows t
  where
    dataSender := h.dataSender
    subscribers := h.subscribers
    dataReceivers := by
      rw [h.dataReceivers]
      apply List.Subset.refl
    expectedConsumers := h.expectedConsumers.subset

theorem Narrows.trans {u : TransferSession} (h : s.Narrows t) (h' : t.Narrows u) :
  s.Narrows u
  where
    dataSender := h'.dataSender.trans h.dataSender
    subscribers := h'.subscribers.trans h.subscribers
    dataReceivers := List.Subset.trans h'.dataReceivers h.dataReceivers
    expectedConsumers := h'.expectedConsumers.trans h.expectedConsumers

theorem sameMembers_call (config : Config) (s : TransferSession) {op : Op}
    (h : op.keepsMembers = true) :
  s.SameMembers (s.call config op)
  := by
  have heq : s.call config op = s.apply config op := by
    cases op <;> first | rfl | cases h
  rw [heq]
  apply sameMembers_apply config s h

/-- `removeReceiver` as far as the session is concerned. -/
theorem removeReceiverWith_message (publicId : String) (s : TransferSession) :
  ∃ es type listed, s.removeReceiverWith (fun _ s => s) publicId
    = { s with
        dataReceivers := s.remaining publicId
        buffer := (s.buffer.removeOneFromExpectedConsumers publicId).1
        events := es
        completeType := type
        listed }
  := by
  rw [removeReceiverWith]
  simp only [notifyRemoved_eq, terminateIfDeserted_eq]
  cases s.removedClient publicId with
  | none => exact ⟨_, _, _, rfl⟩
  | some c => exact ⟨_, _, _, rfl⟩

theorem narrows_removeReceiverWith_message (publicId : String) (s : TransferSession) :
  s.Narrows (s.removeReceiverWith (fun _ s => s) publicId)
  := by
  obtain ⟨es, type, listed, heq⟩ := removeReceiverWith_message publicId s
  rw [heq]
  refine ⟨rfl, rfl, List.filter_subset_self _, ?_⟩
  rw [Buffer.expectedConsumers_removeOne]
  apply Finset.erase_subset

theorem destroyed_removeReceiverWith_message (publicId : String) (s : TransferSession) :
  (s.removeReceiverWith (fun _ s => s) publicId).destroyed = s.destroyed
  := by
  obtain ⟨es, type, listed, heq⟩ := removeReceiverWith_message publicId s
  rw [heq]

/-- What a session does about a destroyed client. -/
theorem destroyWith_cases (remove : String → TransferSession → TransferSession)
    (s : TransferSession) (c : ClientRef) :
  (∃ type listed, s.destroyWith remove c
    = { s.expire c with completeType := type, listed })
  ∨ s.destroyWith remove c = remove c.publicId (s.expire c)
  := by
  rw [destroyWith]
  simp only
  split
  · rw [update]
    split
    · left
      split
      · split <;> exact ⟨_, _, rfl⟩
      · exact ⟨_, _, rfl⟩
    · apply Or.inr rfl
  · apply Or.inl ⟨_, _, rfl⟩

theorem narrows_call (config : Config) (s : TransferSession) {op : Op}
    (h : ∀ c, op ≠ .addReceiver c) :
  s.Narrows (s.call config op)
  := by
  cases op with
  | addReceiver c => exact absurd rfl (h c)
  | removeReceiver publicId => apply narrows_removeReceiverWith_message
  | destroyClient c =>
      rw [call]
      rcases destroyWith_cases (fun id s => s.removeReceiverWith (fun _ s => s) id) s c with
        ⟨type, listed, heq⟩ | heq
      · rw [heq]
        exact ⟨rfl, rfl, List.Subset.refl _, Finset.Subset.refl _⟩
      · rw [heq]
        have hn := narrows_removeReceiverWith_message c.publicId (s.expire c)
        exact ⟨hn.dataSender, hn.subscribers, hn.dataReceivers, hn.expectedConsumers⟩
  | _ =>
      apply SameMembers.narrows
      apply sameMembers_call
      rfl

theorem mem_destroyed_call {op : Op} {c : ClientRef} (hadd : ∀ c, op ≠ .addReceiver c)
    (h : c ∈ (s.call config op).destroyed) :
  c ∈ s.destroyed ∨ op = .destroyClient c
  := by
  cases op with
  | addReceiver c => exact absurd rfl (hadd c)
  | removeReceiver publicId =>
      rw [call, destroyed_removeReceiverWith_message] at h
      apply Or.inl h
  | destroyClient d =>
      rw [call] at h
      have hd : (s.destroyWith (fun id s => s.removeReceiverWith (fun _ s => s) id) d).destroyed
          = d :: s.destroyed := by
        rcases destroyWith_cases (fun id s => s.removeReceiverWith (fun _ s => s) id) s d with
          ⟨type, listed, heq⟩ | heq
        · rw [heq]
          rfl
        · rw [heq, destroyed_removeReceiverWith_message]
          rfl
      rw [hd] at h
      rcases List.mem_cons.mp h with rfl | h
      · apply Or.inr rfl
      · apply Or.inl h
  | _ =>
      left
      rw [(sameMembers_call config s rfl).destroyed] at h
      apply h

end TransferSession

namespace Server

/-- The types of the `complete` events the client was sent for the session. -/
def completesTo (s : Server) (c : ClientRef) (k : ℕ) : List TransferSessionCompleteType :=
  (s.completes.filter (fun x => x.1 == c && x.2.1 == k)).map (·.2.2)

/-- The client and the session of which the handler calls `joinSession` next. -/
def Call.sets? : Call → Option (ClientRef × ℕ)
  | .joinSet c k | .createSet c k => some (c, k)
  | _ => none

/-- The client and the session it has entered, until the request is answered. -/
def Call.adds? : Call → Option (ClientRef × ℕ)
  | .joinSet c k | .createSet c k | .createUndo c k => some (c, k)
  | _ => none

/-- The invariant of the server. -/
structure Sound (s : Server) : Prop where
  clientList : s.clientList ⊆ s.live
  live : s.live ⊆ s.clients
  fresh : ∀ c ∈ s.clients, c.ref < s.clients.length
  distinct : ∀ (k : ℕ) (t : TransferSession), s.sessions[k]? = some t → t.subscribers.Nodup
  destroyed : ∀ (k : ℕ) (t : TransferSession), s.sessions[k]? = some t →
    ∀ c ∈ t.destroyed, c ∈ s.clients ∧ c ∉ s.live
  joined : ∀ c k, s.joined c = some k → c ∈ s.clients
    ∧ ∃ t, s.sessions[k]? = some t ∧ c ∈ t.subscribers ∧ s.joinedSession c = t.sessionId
  identified : ∀ c k, s.joined c = some k → s.joinedSession c ≠ ""
  unjoined : ∀ c, s.joined c = none → s.joinedSession c = ""
  holding : ∀ r ∈ s.requests, ∀ c, r.call.client? = some c → c ∈ s.live
  setting : ∀ r ∈ s.requests, ∀ c k, r.call.sets? = some (c, k) →
    ∃ t, s.sessions[k]? = some t ∧ c ∈ t.subscribers
  ended : ∀ k ∈ s.ended, k < s.sessions.length ∧ s.lockable k = false
  pending : ∀ c k, (c, Awaited.complete k) ∈ s.pendingAcks → k ∈ s.ended
  settled : ∀ c k, (c, k) ∈ s.settled → k ∈ s.ended
  before : ∀ c, ∀ k ∉ s.ended, s.completesTo c k = []
  once : ∀ (c : ClientRef) (k : ℕ) (t : TransferSession), k ∈ s.ended → c ∈ s.live →
    s.joined c = some k → s.sessions[k]? = some t → s.completesTo c k = [t.completeType]
  awaited : ∀ c, ∀ k ∈ s.ended, c ∈ s.clientList → s.joined c = some k →
    (c, Awaited.complete k) ∈ s.pendingAcks

variable {config : Config} {s s' : Server}

theorem Sound.init :
  Sound {}
  where
    clientList := List.Subset.refl _
    live := List.Subset.refl _
    fresh := List.forall_mem_nil _
    distinct := by simp
    destroyed := by simp
    joined := by simp
    identified := by simp
    unjoined _ _ := rfl
    holding := List.forall_mem_nil _
    setting := List.forall_mem_nil _
    ended := List.forall_mem_nil _
    pending := by simp
    settled := by simp
    before _ _ _ := rfl
    once := by simp
    awaited := by simp

/-! ### Steps in which nobody joins -/

/-- Nobody has become a member of the session, it was not put on the list, and only clients
that are no longer live were destroyed. -/
structure Shrinks (clients live : List ClientRef) (t t' : TransferSession) : Prop where
  narrows : t.Narrows t'
  listed : t'.listed = true → t.listed = true
  destroyed : ∀ c ∈ t'.destroyed, c ∈ t.destroyed ∨ (c ∈ clients ∧ c ∉ live)

/-- A step that makes no client, no session and no request and ends no session. Clients
leave the list, and those that stay keep their pending acknowledgements. -/
structure Calm (s s' : Server) : Prop where
  clients : s'.clients = s.clients
  live : s'.live = s.live
  joinedSession : s'.joinedSession = s.joinedSession
  joined : s'.joined = s.joined
  ended : s'.ended = s.ended
  requests : s'.requests = s.requests
  holders : s'.holders = s.holders
  completes : s'.completes = s.completes
  answers : s'.answers = s.answers
  clientList : s'.clientList ⊆ s.clientList
  pending : ∀ x ∈ s.pendingAcks, x.1 ∈ s'.clientList → x ∈ s'.pendingAcks
  sent : ∀ c k, (c, Awaited.complete k) ∈ s'.pendingAcks →
    (c, Awaited.complete k) ∈ s.pendingAcks
  settled : ∀ c k, (c, k) ∈ s'.settled → (c, k) ∈ s.settled
    ∨ ((c, Awaited.complete k) ∈ s.pendingAcks ∧ c ∉ s'.clientList)
  length : s'.sessions.length = s.sessions.length
  session : ∀ k t', s'.sessions[k]? = some t' →
    ∃ t, s.sessions[k]? = some t ∧ Shrinks s.clients s.live t t'
      ∧ (k ∈ s.ended → t'.completeType = t.completeType)

theorem Shrinks.refl (clients live : List ClientRef) (t : TransferSession) :
  Shrinks clients live t t
  where
    narrows := (TransferSession.SameMembers.refl t).narrows
    listed := id
    destroyed _ := Or.inl

theorem Shrinks.trans {clients live : List ClientRef} {t t' t'' : TransferSession}
    (h : Shrinks clients live t t') (h' : Shrinks clients live t' t'') :
  Shrinks clients live t t''
  where
    narrows := h.narrows.trans h'.narrows
    listed hl := h.listed (h'.listed hl)
    destroyed c hc := by
      rcases h'.destroyed c hc with hc | hc
      · apply h.destroyed c hc
      · apply Or.inr hc

namespace Calm

/-- A step that leaves the sessions alone. -/
theorem of_sessions (hclients : s'.clients = s.clients) (hlive : s'.live = s.live)
    (hjoinedSession : s'.joinedSession = s.joinedSession) (hjoined : s'.joined = s.joined)
    (hended : s'.ended = s.ended) (hrequests : s'.requests = s.requests)
    (hholders : s'.holders = s.holders) (hcompletes : s'.completes = s.completes)
    (hanswers : s'.answers = s.answers)
    (hclientList : s'.clientList ⊆ s.clientList)
    (hpending : ∀ x ∈ s.pendingAcks, x.1 ∈ s'.clientList → x ∈ s'.pendingAcks)
    (hsent : ∀ c k, (c, Awaited.complete k) ∈ s'.pendingAcks →
      (c, Awaited.complete k) ∈ s.pendingAcks)
    (hsettled : ∀ c k, (c, k) ∈ s'.settled → (c, k) ∈ s.settled
      ∨ ((c, Awaited.complete k) ∈ s.pendingAcks ∧ c ∉ s'.clientList))
    (hsessions : s'.sessions = s.sessions) :
  s.Calm s'
  where
    clients := hclients
    live := hlive
    joinedSession := hjoinedSession
    joined := hjoined
    ended := hended
    requests := hrequests
    holders := hholders
    completes := hcompletes
    answers := hanswers
    clientList := hclientList
    pending := hpending
    sent := hsent
    settled := hsettled
    length := by rw [hsessions]
    session k t' ht' := by
      rw [hsessions] at ht'
      exact ⟨t', ht', Shrinks.refl _ _ _, fun _ => rfl⟩

theorem refl (s : Server) :
  s.Calm s
  := of_sessions rfl rfl rfl rfl rfl rfl rfl rfl rfl (List.Subset.refl _) (fun _ hx _ => hx)
    (fun _ _ => id) (fun _ _ => Or.inl) rfl

theorem trans {s'' : Server} (h : s.Calm s') (h' : s'.Calm s'') :
  s.Calm s''
  where
    clients := h'.clients.trans h.clients
    live := h'.live.trans h.live
    joinedSession := h'.joinedSession.trans h.joinedSession
    joined := h'.joined.trans h.joined
    ended := h'.ended.trans h.ended
    requests := h'.requests.trans h.requests
    holders := h'.holders.trans h.holders
    completes := h'.completes.trans h.completes
    answers := h'.answers.trans h.answers
    clientList := List.Subset.trans h'.clientList h.clientList
    pending x hx hc := h'.pending x (h.pending x hx (h'.clientList hc)) hc
    sent c k hx := h.sent c k (h'.sent c k hx)
    settled c k hx := by
      rcases h'.settled c k hx with hx | ⟨hx, hc⟩
      · rcases h.settled c k hx with hx | ⟨hx, hc⟩
        · apply Or.inl hx
        · apply Or.inr ⟨hx, fun hc' => hc (h'.clientList hc')⟩
      · apply Or.inr ⟨h.sent c k hx, hc⟩
    length := h'.length.trans h.length
    session k t'' ht'' := by
      obtain ⟨t', ht', hshrinks', htype'⟩ := h'.session k t'' ht''
      obtain ⟨t, ht, hshrinks, htype⟩ := h.session k t' ht'
      rw [h.clients, h.live] at hshrinks'
      rw [h.ended] at htype'
      exact ⟨t, ht, hshrinks.trans hshrinks', fun hk => (htype' hk).trans (htype hk)⟩

theorem exists_session (h : s.Calm s') {k : ℕ} {t : TransferSession}
    (ht : s.sessions[k]? = some t) :
  ∃ t', s'.sessions[k]? = some t' ∧ Shrinks s.clients s.live t t'
    ∧ (k ∈ s.ended → t'.completeType = t.completeType)
  := by
  have hk : k < s'.sessions.length := by
    rw [h.length]
    apply (List.getElem?_eq_some_iff.mp ht).1
  have ht' := List.getElem?_eq_getElem hk
  obtain ⟨t₁, ht₁, hshrinks, htype⟩ := h.session k _ ht'
  obtain rfl : t₁ = t := Option.some.inj (ht₁.symm.trans ht)
  exact ⟨_, ht', hshrinks, htype⟩

theorem referenced (h : s.Calm s') (k : ℕ) :
  s'.referenced k = s.referenced k
  := by
  rw [Server.referenced, Server.referenced, h.holders, h.requests]

theorem lockable (h : s.Calm s') {k : ℕ} (hk : s'.lockable k = true) :
  s.lockable k = true
  := by
  rw [Server.lockable, h.referenced, Bool.or_eq_true] at hk
  rw [Server.lockable, Bool.or_eq_true]
  refine hk.imp_left ?_
  simp only [Option.any_eq_true]
  rintro ⟨t', ht', hl⟩
  obtain ⟨t, ht, hshrinks, -⟩ := h.session k t' ht'
  exact ⟨t, ht, hshrinks.listed hl⟩

theorem completesTo (h : s.Calm s') (c : ClientRef) (k : ℕ) :
  s'.completesTo c k = s.completesTo c k
  := by
  rw [Server.completesTo, Server.completesTo, h.completes]

theorem sound (h : s.Calm s') (hs : s.Sound) :
  s'.Sound
  where
    clientList c hc := by
      rw [h.live]
      apply hs.clientList (h.clientList hc)
    live := by
      rw [h.live, h.clients]
      apply hs.live
    fresh := by
      rw [h.clients]
      apply hs.fresh
    distinct k t' ht' := by
      obtain ⟨t, ht, hshrinks, -⟩ := h.session k t' ht'
      rw [hshrinks.narrows.subscribers]
      apply hs.distinct k t ht
    destroyed k t' ht' c hc := by
      obtain ⟨t, ht, hshrinks, -⟩ := h.session k t' ht'
      rw [h.clients, h.live]
      rcases hshrinks.destroyed c hc with hc | hc
      · apply hs.destroyed k t ht c hc
      · apply hc
    joined c k hc := by
      rw [h.joined] at hc
      obtain ⟨hmem, t, ht, hsub, hid⟩ := hs.joined c k hc
      obtain ⟨t', ht', hshrinks, -⟩ := h.exists_session ht
      rw [h.clients]
      refine ⟨hmem, t', ht', ?_, ?_⟩
      · rw [hshrinks.narrows.subscribers]
        apply hsub
      · rw [h.joinedSession, hid, TransferSession.sessionId, TransferSession.sessionId,
          hshrinks.narrows.dataSender]
    identified c k hc := by
      rw [h.joined] at hc
      rw [h.joinedSession]
      apply hs.identified c k hc
    unjoined c hc := by
      rw [h.joined] at hc
      rw [h.joinedSession]
      apply hs.unjoined c hc
    holding := by
      rw [h.requests, h.live]
      apply hs.holding
    setting r hr c k hrs := by
      rw [h.requests] at hr
      obtain ⟨t, ht, hsub⟩ := hs.setting r hr c k hrs
      obtain ⟨t', ht', hshrinks, -⟩ := h.exists_session ht
      use t', ht'
      rw [hshrinks.narrows.subscribers]
      apply hsub
    ended k hk := by
      rw [h.ended] at hk
      obtain ⟨hlt, hlock⟩ := hs.ended k hk
      rw [h.length]
      use hlt
      apply Bool.eq_false_of_not_eq_true
      intro hl
      rw [h.lockable hl] at hlock
      cases hlock
    pending c k hx := by
      rw [h.ended]
      apply hs.pending c k (h.sent c k hx)
    settled c k hx := by
      rw [h.ended]
      rcases h.settled c k hx with hx | ⟨hx, -⟩
      · apply hs.settled c k hx
      · apply hs.pending c k hx
    before c k hk := by
      rw [h.ended] at hk
      rw [h.completesTo]
      apply hs.before c k hk
    once c k t' hk hc hj ht' := by
      rw [h.ended] at hk
      rw [h.live] at hc
      rw [h.joined] at hj
      obtain ⟨t, ht, -, htype⟩ := h.session k t' ht'
      rw [h.completesTo, htype hk]
      apply hs.once c k t hk hc hj ht
    awaited c k hk hc hj := by
      rw [h.ended] at hk
      rw [h.joined] at hj
      apply h.pending _ (hs.awaited c k hk (h.clientList hc) hj) hc

end Calm

end Server

import PutInPipe.Server.Calls

/-!
# Runs of the server

Every step keeps the invariant of the server. Most steps are calm; the others make a client
or a request, take a reference, run a destructor, or are a call of a request.
-/

open TransferSessionDetails

namespace Server

variable {config : Config} {s : Server}

/-! ### Calm steps -/

theorem calm_removeClient (s : Server) (id : String) :
  s.Calm (s.removeClient id)
  := by
  apply Calm.of_sessions <;> try rfl
  · apply List.filter_subset_self
  · exact fun _ hx _ => hx
  · exact fun _ _ hx => hx
  · exact fun _ _ => Or.inl

theorem notMem_removeClient (s : Server) (c : ClientRef) :
  c ∉ (s.removeClient c.id).clientList
  := by
  simp [removeClient]

theorem calm_closeConnection (s : Server) (c : ClientRef) :
  s.Calm (s.closeConnection c)
  := by
  apply Calm.of_sessions <;> try rfl
  · apply List.Subset.refl
  · exact fun _ hx _ => hx
  · exact fun _ _ => id
  · exact fun _ _ => Or.inl

theorem calm_kicked (s : Server) (c : ClientRef) :
  s.Calm (s.sendTextWithAck c .kicked)
  := by
  rw [sendTextWithAck]
  split
  · apply Calm.of_sessions <;> try rfl
    · apply List.Subset.refl
    · exact fun _ hx _ => List.mem_cons_of_mem _ hx
    · intro d k hx
      rcases List.mem_cons.mp hx with hx | hx
      · cases hx
      · apply hx
    · exact fun _ _ => Or.inl
  · apply calm_removeClient

theorem calm_sendKicked (s : Server) (c? : Option ClientRef) :
  s.Calm (s.sendKicked c?)
  := by
  cases c? with
  | none => apply Calm.refl
  | some c => apply calm_kicked

theorem calm_resolveAck {c : ClientRef} {event : Awaited} (h : (c, event) ∈ s.pendingAcks) :
  s.Calm (s.resolveAck c event)
  := by
  have hpending : ∀ x ∈ s.pendingAcks, x.1 ∈ (s.removeClient c.id).clientList →
      x ∈ s.pendingAcks.erase (c, event) := by
    intro x hx hc
    apply (List.mem_erase_of_ne _).mpr hx
    rintro rfl
    apply notMem_removeClient _ _ hc
  cases event with
  | kicked =>
      apply Calm.of_sessions <;> try rfl
      · apply List.filter_subset_self
      · apply hpending
      · exact fun _ _ hx => List.mem_of_mem_erase hx
      · exact fun _ _ => Or.inl
  | complete k =>
      apply Calm.of_sessions <;> try rfl
      · apply List.filter_subset_self
      · apply hpending
      · exact fun _ _ hx => List.mem_of_mem_erase hx
      · intro d j hx
        rcases List.mem_cons.mp hx with hx | hx
        · right
          rw [(Prod.mk.inj hx).1, (Prod.mk.inj hx).2]
          use h
          apply notMem_removeClient
        · apply Or.inl hx

theorem calm_setSession {k : ℕ} {t t' : TransferSession} (ht : s.sessions[k]? = some t)
    (h : Shrinks s.clients s.live t t')
    (hk : k ∈ s.ended → t'.completeType = t.completeType) :
  s.Calm (s.setSession k t')
  where
    clients := rfl
    live := rfl
    joinedSession := rfl
    joined := rfl
    ended := rfl
    requests := rfl
    holders := rfl
    completes := rfl
    answers := rfl
    clientList := List.Subset.refl _
    pending _ hx _ := hx
    sent _ _ := id
    settled _ _ := Or.inl
    length := List.length_set
    session j u hu := by
      rw [setSession, List.getElem?_set] at hu
      split at hu
      · subst_vars
        split at hu
        · obtain rfl := Option.some.inj hu
          exact ⟨t, ht, h, hk⟩
        · cases hu
      · exact ⟨u, hu, Shrinks.refl _ _ _, fun _ => rfl⟩

theorem shrinks_unlist (clients live : List ClientRef) (id : String) (t : TransferSession) :
  Shrinks clients live t (unlist id t)
  := by
  rw [unlist]
  split
  · refine ⟨⟨rfl, rfl, List.Subset.refl _, Finset.Subset.refl _⟩, ?_, fun _ => Or.inl⟩
    exact fun hl => by cases hl
  · apply Shrinks.refl

theorem calm_removeSession (s : Server) (id : String) :
  s.Calm (s.removeSession id)
  where
    clients := rfl
    live := rfl
    joinedSession := rfl
    joined := rfl
    ended := rfl
    requests := rfl
    holders := rfl
    completes := rfl
    answers := rfl
    clientList := List.Subset.refl _
    pending _ hx _ := hx
    sent _ _ := fun hx => hx
    settled _ _ := Or.inl
    length := List.length_map _
    session k t' ht' := by
      rw [removeSession, List.getElem?_map, Option.map_eq_some_iff] at ht'
      obtain ⟨t, ht, rfl⟩ := ht'
      refine ⟨t, ht, shrinks_unlist _ _ _ _, fun _ => ?_⟩
      rw [unlist]
      split <;> rfl

/-- A method does not change who is a member, apart from `addReceiver`. -/
theorem calm_perform (config : Config) {k : ℕ} {op : TransferSession.Op} (hk : k ∉ s.ended)
    (hadd : ∀ c, op ≠ .addReceiver c)
    (hdestroy : ∀ c, op = .destroyClient c → c ∈ s.clients ∧ c ∉ s.live) :
  s.Calm (s.perform config k op)
  := by
  rw [perform]
  split
  · apply Calm.refl
  · rename_i t ht
    have hnarrows := TransferSession.narrows_call config.toConfig { t with listed := true } hadd
    have hshrinks : Shrinks s.clients s.live t
        { { t with listed := true }.call config.toConfig op with listed := t.listed } := by
      refine ⟨?_, id, ?_⟩
      · exact ⟨hnarrows.dataSender, hnarrows.subscribers, hnarrows.dataReceivers,
          hnarrows.expectedConsumers⟩
      · intro c hc
        apply (TransferSession.mem_destroyed_call hadd hc).imp_right (hdestroy c)
    have hset := calm_setSession ht hshrinks (absurd · hk)
    have hkick := hset.trans (calm_sendKicked _ (t.kicks op))
    simp only
    split
    · apply hkick
    · apply hkick.trans
      apply calm_removeSession

theorem calm_notifyDestroyed (config : Config) (h : s.Sound) {c : ClientRef}
    (hc : c ∈ s.clients ∧ c ∉ s.live) (k : ℕ) :
  s.Calm (notifyDestroyed config c s k)
  := by
  rw [notifyDestroyed]
  split
  · rename_i hlock
    apply calm_perform config (notMem_ended h hlock)
    · exact fun _ hop => by cases hop
    · intro d hd
      cases hd
      apply hc
  · split
    · apply Calm.refl
    · rename_i t ht
      have hshrinks : Shrinks s.clients s.live t (t.expire c) := by
        refine ⟨⟨rfl, rfl, List.Subset.refl _, Finset.Subset.refl _⟩, id, ?_⟩
        intro d hd
        rcases List.mem_cons.mp hd with rfl | hd
        · apply Or.inr hc
        · apply Or.inl hd
      apply calm_setSession ht hshrinks (fun _ => rfl)

theorem calm_foldl_notifyDestroyed (config : Config) (h : s.Sound) {c : ClientRef}
    (hc : c ∈ s.clients ∧ c ∉ s.live) (ks : List ℕ) :
  s.Calm (ks.foldl (notifyDestroyed config c) s)
  := by
  induction ks generalizing s with
  | nil => apply Calm.refl
  | cons k ks ih =>
      have hcalm := calm_notifyDestroyed config h hc k
      apply hcalm.trans
      apply ih (hcalm.sound h)
      rw [hcalm.clients, hcalm.live]
      apply hc

/-! ### Clients and references -/

theorem Sound.register (h : s.Sound) (id publicId : String) :
  Sound { s with
    clients := s.clients ++ [⟨s.clients.length, id, publicId⟩]
    live := ⟨s.clients.length, id, publicId⟩ :: s.live
    clientList := ⟨s.clients.length, id, publicId⟩ :: s.clientList }
  where
    clientList := List.cons_subset_cons _ h.clientList
    live := by
      intro c hc
      rcases List.mem_cons.mp hc with rfl | hc
      · simp
      · apply List.mem_append_left _ (h.live hc)
    fresh c hc := by
      rw [List.length_append, List.length_singleton]
      rcases List.mem_append.mp hc with hc | hc
      · apply (h.fresh c hc).trans (Nat.lt_succ_self _)
      · rw [List.mem_singleton.mp hc]
        apply Nat.lt_succ_self
    distinct := h.distinct
    destroyed k t ht c hc := by
      obtain ⟨hmem, hlive⟩ := h.destroyed k t ht c hc
      use List.mem_append_left _ hmem
      intro hc
      rcases List.mem_cons.mp hc with rfl | hc
      · exact absurd (h.fresh _ hmem) (lt_irrefl _)
      · apply hlive hc
    joined c k hc := by
      obtain ⟨hmem, ht⟩ := h.joined c k hc
      exact ⟨List.mem_append_left _ hmem, ht⟩
    identified := h.identified
    unjoined := h.unjoined
    holding r hr c hc := List.mem_cons_of_mem _ (h.holding r hr c hc)
    setting := h.setting
    ended := h.ended
    pending := h.pending
    settled := h.settled
    before := h.before
    once c k t hk hc hj ht := by
      rcases List.mem_cons.mp hc with rfl | hc
      · exact absurd (h.fresh _ (h.joined _ k hj).1) (lt_irrefl _)
      · apply h.once c k t hk hc hj ht
    awaited c k hk hc hj := by
      rcases List.mem_cons.mp hc with rfl | hc
      · exact absurd (h.fresh _ (h.joined _ k hj).1) (lt_irrefl _)
      · apply h.awaited c k hk hc hj

/-- A client that is not on the list and that no handler refers to is no longer live. -/
theorem Sound.expire (h : s.Sound) {c : ClientRef} (hc : c ∉ s.clientList)
    (hr : ∀ r ∈ s.requests, r.call.client? ≠ some c) :
  Sound { s with live := s.live.filter (· != c), connected := s.connected.filter (· != c) }
  where
    clientList d hd := by
      simp only [List.mem_filter, bne_iff_ne, ne_eq]
      use h.clientList hd
      rintro rfl
      apply hc hd
    live := List.Subset.trans (List.filter_subset_self _) h.live
    fresh := h.fresh
    distinct := h.distinct
    destroyed k t ht d hd := by
      obtain ⟨hmem, hlive⟩ := h.destroyed k t ht d hd
      exact ⟨hmem, fun hd => hlive (List.mem_of_mem_filter hd)⟩
    joined := h.joined
    identified := h.identified
    unjoined := h.unjoined
    holding r hrr d hd := by
      simp only [List.mem_filter, bne_iff_ne, ne_eq]
      use h.holding r hrr d hd
      rintro rfl
      apply hr r hrr hd
    setting := h.setting
    ended := h.ended
    pending := h.pending
    settled := h.settled
    before := h.before
    once c k t hk hc := h.once c k t hk (List.mem_of_mem_filter hc)
    awaited := h.awaited

theorem Sound.call (h : s.Sound) {r : Request} (hr : r ∈ s.requests) :
  r.call.Sound s
  where
    client := h.holding r hr
    session k hk := by
      apply notMem_ended h
      rw [lockable, referenced, Bool.or_eq_true, Bool.or_eq_true]
      right
      right
      rw [List.any_eq_true]
      exact ⟨r, hr, by simp [hk]⟩
    sets := h.setting r hr

/-- The requests and the references of handlers may change as long as they are to live
clients and to sessions whose destructor has not run. -/
theorem Sound.refer (h : s.Sound) {requests : List Request} {holders : List ℕ}
    (hrequests : ∀ r ∈ requests, r.call.Sound s) (hholders : ∀ k ∈ holders, k ∉ s.ended) :
  Sound { s with requests, holders }
  where
    clientList := h.clientList
    live := h.live
    fresh := h.fresh
    distinct := h.distinct
    destroyed := h.destroyed
    joined := h.joined
    identified := h.identified
    unjoined := h.unjoined
    holding r hr := (hrequests r hr).client
    setting r hr := (hrequests r hr).sets
    ended k hk := by
      obtain ⟨hlt, hlock⟩ := h.ended k hk
      use hlt
      simp only [lockable, referenced, Bool.or_eq_false_iff] at hlock ⊢
      use hlock.1
      constructor
      · rw [List.contains_eq_mem, decide_eq_false_iff_not]
        exact fun hmem => hholders k hmem hk
      · rw [List.any_eq_false]
        intro r hr hses
        apply (hrequests r hr).session k (by simpa using hses) hk
    pending := h.pending
    settled := h.settled
    before := h.before
    once := h.once
    awaited := h.awaited

theorem Sound.holders (h : s.Sound) {k : ℕ} (hk : k ∈ s.holders) :
  k ∉ s.ended
  := by
  apply notMem_ended h
  rw [lockable, referenced, Bool.or_eq_true, Bool.or_eq_true]
  right
  left
  simpa using hk

/-! ### The destructor of a session -/

/-- The clients are sent the `complete` event of the session. -/
structure Publishes (k : ℕ) (type : TransferSessionCompleteType) (cs : List ClientRef)
    (s s' : Server) : Prop where
  clients : s'.clients = s.clients
  live : s'.live = s.live
  joinedSession : s'.joinedSession = s.joinedSession
  joined : s'.joined = s.joined
  sessions : s'.sessions = s.sessions
  ended : s'.ended = s.ended
  requests : s'.requests = s.requests
  holders : s'.holders = s.holders
  answers : s'.answers = s.answers
  clientList : s'.clientList ⊆ s.clientList
  pending : ∀ x ∈ s.pendingAcks, x.1 ∈ s'.clientList → x ∈ s'.pendingAcks
  sent : ∀ c j, (c, Awaited.complete j) ∈ s'.pendingAcks →
    (c, Awaited.complete j) ∈ s.pendingAcks ∨ j = k
  settled : ∀ c j, (c, j) ∈ s'.settled →
    (c, j) ∈ s.settled ∨ (j = k ∧ c ∉ s'.clientList)
  awaited : ∀ c ∈ cs, c ∈ s'.clientList → (c, Awaited.complete k) ∈ s'.pendingAcks
  completes : ∀ c j, s'.completesTo c j
    = (if j = k then List.replicate (cs.count c) type else []) ++ s.completesTo c j

theorem publishes_sendComplete (k : ℕ) (type : TransferSessionCompleteType) (s : Server)
    (c : ClientRef) :
  Publishes k type [c] s (sendComplete k type s c)
  := by
  have hcompletes : ∀ d j, completesTo { s with completes := (c, k, type) :: s.completes } d j
      = (if j = k then List.replicate ([c].count d) type else []) ++ s.completesTo d j := by
    intro d j
    rw [completesTo, completesTo, List.filter_cons, List.count_singleton]
    by_cases hd : c = d
    · by_cases hj : j = k
      · simp [hd, hj]
      · simp [hj, Ne.symm hj]
    · simp [hd]
  rw [sendComplete, sendTextWithAck]
  split
  · constructor <;> try rfl
    · apply List.Subset.refl
    · exact fun _ hx _ => List.mem_cons_of_mem _ hx
    · intro d j hx
      rcases List.mem_cons.mp hx with hx | hx
      · right
        cases hx
        rfl
      · apply Or.inl hx
    · exact fun _ _ => Or.inl
    · intro d hd _
      rw [List.mem_singleton.mp hd]
      apply List.mem_cons_self
    · apply hcompletes
  · constructor <;> try rfl
    · apply List.filter_subset_self
    · exact fun _ hx _ => hx
    · exact fun _ _ => Or.inl
    · intro d j hx
      rcases List.mem_cons.mp hx with hx | hx
      · right
        rw [(Prod.mk.inj hx).1, (Prod.mk.inj hx).2]
        use rfl
        apply notMem_removeClient
      · apply Or.inl hx
    · intro d hd hmem
      rw [List.mem_singleton.mp hd] at hmem
      exact absurd hmem (notMem_removeClient _ _)
    · apply hcompletes

theorem Publishes.append {k : ℕ} {type : TransferSessionCompleteType} {cs ds : List ClientRef}
    {s' s'' : Server} (h : Publishes k type cs s s') (h' : Publishes k type ds s' s'') :
  Publishes k type (cs ++ ds) s s''
  where
    clients := h'.clients.trans h.clients
    live := h'.live.trans h.live
    joinedSession := h'.joinedSession.trans h.joinedSession
    joined := h'.joined.trans h.joined
    sessions := h'.sessions.trans h.sessions
    ended := h'.ended.trans h.ended
    requests := h'.requests.trans h.requests
    holders := h'.holders.trans h.holders
    answers := h'.answers.trans h.answers
    clientList := List.Subset.trans h'.clientList h.clientList
    pending x hx hc := h'.pending x (h.pending x hx (h'.clientList hc)) hc
    sent c j hx := by
      rcases h'.sent c j hx with hx | hx
      · apply h.sent c j hx
      · apply Or.inr hx
    settled c j hx := by
      rcases h'.settled c j hx with hx | hx
      · refine (h.settled c j hx).imp_right ?_
        exact fun ⟨hj, hc⟩ => ⟨hj, fun hc' => hc (h'.clientList hc')⟩
      · apply Or.inr hx
    awaited c hc hmem := by
      rcases List.mem_append.mp hc with hc | hc
      · apply h'.pending _ (h.awaited c hc (h'.clientList hmem)) hmem
      · apply h'.awaited c hc hmem
    completes c j := by
      rw [h'.completes, h.completes, List.count_append, Nat.add_comm]
      split
      · rw [← List.append_assoc, List.replicate_add]
      · rfl

theorem publishes_foldl (k : ℕ) (type : TransferSessionCompleteType) (cs : List ClientRef)
    (s : Server) :
  Publishes k type cs s (cs.foldl (sendComplete k type) s)
  := by
  induction cs generalizing s with
  | nil =>
      constructor <;> try rfl
      · apply List.Subset.refl
      · exact fun _ hx _ => hx
      · exact fun _ _ => Or.inl
      · exact fun _ _ => Or.inl
      · apply List.forall_mem_nil
      · intro c j
        split <;> rfl
  | cons c cs ih =>
      apply Publishes.append (publishes_sendComplete k type s c)
      apply ih

/-- A live client that has joined a session is notified by it. -/
theorem Sound.mem_notified (h : s.Sound) {c : ClientRef} {k : ℕ} {t : TransferSession}
    (hc : c ∈ s.live) (hjoined : s.joined c = some k) (ht : s.sessions[k]? = some t) :
  c ∈ t.subscribers.filter t.alive
  := by
  obtain ⟨-, t', ht', hsub, -⟩ := h.joined c k hjoined
  obtain rfl : t' = t := Option.some.inj (ht'.symm.trans ht)
  apply List.mem_filter.mpr
  use hsub
  rw [TransferSession.alive_iff]
  exact fun hd => (h.destroyed k t' ht c hd).2 hc

/-- The destructor sends the live members exactly one `complete` event each. -/
theorem Sound.destruct (h : s.Sound) {k : ℕ} (hlock : s.lockable k = false)
    (hk : k ∉ s.ended) :
  (s.destruct k).Sound
  := by
  rw [Server.destruct]
  split
  · apply h
  · rename_i t ht
    have hp := publishes_foldl k t.completeType (t.subscribers.filter t.alive)
      { s with ended := k :: s.ended }
    constructor
    case clientList =>
      rw [hp.live]
      apply List.Subset.trans hp.clientList h.clientList
    case live =>
      rw [hp.live, hp.clients]
      apply h.live
    case fresh =>
      rw [hp.clients]
      apply h.fresh
    case distinct =>
      rw [hp.sessions]
      apply h.distinct
    case destroyed =>
      rw [hp.sessions, hp.clients, hp.live]
      apply h.destroyed
    case joined =>
      rw [hp.joined, hp.clients, hp.sessions, hp.joinedSession]
      apply h.joined
    case identified =>
      rw [hp.joined, hp.joinedSession]
      apply h.identified
    case unjoined =>
      rw [hp.joined, hp.joinedSession]
      apply h.unjoined
    case holding =>
      rw [hp.requests, hp.live]
      apply h.holding
    case setting =>
      rw [hp.requests, hp.sessions]
      apply h.setting
    case ended =>
      intro j hj
      rw [hp.ended] at hj
      rw [hp.sessions, Server.lockable, referenced, hp.sessions, hp.holders, hp.requests]
      rcases List.mem_cons.mp hj with rfl | hj
      · exact ⟨(List.getElem?_eq_some_iff.mp ht).1, hlock⟩
      · apply h.ended j hj
    case pending =>
      intro c j hx
      rw [hp.ended]
      rcases hp.sent c j hx with hx | rfl
      · apply List.mem_cons_of_mem _ (h.pending c j hx)
      · apply List.mem_cons_self
    case settled =>
      intro c j hx
      rw [hp.ended]
      rcases hp.settled c j hx with hx | ⟨rfl, -⟩
      · apply List.mem_cons_of_mem _ (h.settled c j hx)
      · apply List.mem_cons_self
    case before =>
      intro c j hj
      rw [hp.ended, List.mem_cons, not_or] at hj
      rw [hp.completes, if_neg hj.1]
      apply h.before c j hj.2
    case once =>
      intro c j u hj hc hjoined hu
      rw [hp.ended] at hj
      rw [hp.live] at hc
      rw [hp.joined] at hjoined
      rw [hp.sessions] at hu
      rw [hp.completes]
      rcases List.mem_cons.mp hj with rfl | hj'
      · obtain rfl : t = u := Option.some.inj (ht.symm.trans hu)
        rw [if_pos rfl, List.count_eq_one_of_mem ((h.distinct _ t ht).filter _)
          (h.mem_notified hc hjoined ht)]
        apply congrArg _ (h.before c _ hk)
      · rw [if_neg (by rintro rfl; exact hk hj')]
        apply h.once c j u hj' hc hjoined hu
    case awaited =>
      intro c j hj hc hjoined
      rw [hp.ended] at hj
      rw [hp.joined] at hjoined
      have hlisted := hp.clientList hc
      rcases List.mem_cons.mp hj with rfl | hj
      · apply hp.awaited c (h.mem_notified (h.clientList hlisted) hjoined ht) hc
      · apply hp.pending _ (h.awaited c j hj hlisted hjoined) hc

/-! ### The calls of a request -/

/-- A session may get a subscriber. -/
theorem Sound.subscribe (h : s.Sound) {k : ℕ} {t t' : TransferSession}
    (ht : s.sessions[k]? = some t) (hk : k ∉ s.ended) (hsender : t'.dataSender = t.dataSender)
    (hsub : t.subscribers ⊆ t'.subscribers) (hdistinct : t'.subscribers.Nodup)
    (hdestroyed : t'.destroyed = t.destroyed) :
  (s.setSession k t').Sound
  := by
  have hkeep : ∀ (j : ℕ) (u : TransferSession), s.sessions[j]? = some u →
      ∃ u' : TransferSession, (s.setSession k t').sessions[j]? = some u'
        ∧ u'.dataSender = u.dataSender ∧ u.subscribers ⊆ u'.subscribers := by
    intro j u hu
    rw [getElem?_setSession ht]
    split
    · subst_vars
      obtain rfl : t = u := Option.some.inj (ht.symm.trans hu)
      exact ⟨t', rfl, hsender, hsub⟩
    · exact ⟨u, hu, rfl, List.Subset.refl _⟩
  constructor
  case clientList => exact h.clientList
  case live => exact h.live
  case fresh => exact h.fresh
  case distinct =>
    intro j u hu
    rw [getElem?_setSession ht] at hu
    split at hu
    · obtain rfl := Option.some.inj hu
      apply hdistinct
    · apply h.distinct j u hu
  case destroyed =>
    intro j u hu
    rw [getElem?_setSession ht] at hu
    split at hu
    · obtain rfl := Option.some.inj hu
      rw [hdestroyed]
      apply h.destroyed k t ht
    · apply h.destroyed j u hu
  case joined =>
    intro c j hc
    obtain ⟨hmem, u, hu, hcu, hid⟩ := h.joined c j hc
    obtain ⟨u', hu', hsame, hgrow⟩ := hkeep j u hu
    refine ⟨hmem, u', hu', hgrow hcu, ?_⟩
    rw [TransferSession.sessionId, hsame]
    apply hid
  case identified => exact h.identified
  case unjoined => exact h.unjoined
  case holding => exact h.holding
  case setting =>
    intro r hr c j hrs
    obtain ⟨u, hu, hcu⟩ := h.setting r hr c j hrs
    obtain ⟨u', hu', -, hgrow⟩ := hkeep j u hu
    exact ⟨u', hu', hgrow hcu⟩
  case ended =>
    intro j hj
    obtain ⟨hlt, hlock⟩ := h.ended j hj
    have hne : k ≠ j := by
      rintro rfl
      apply hk hj
    have hlen : (s.setSession k t').sessions.length = s.sessions.length := List.length_set
    rw [hlen]
    use hlt
    rw [lockable, getElem?_setSession ht, if_neg hne]
    apply hlock
  case pending => exact h.pending
  case settled => exact h.settled
  case before => exact h.before
  case once =>
    intro c j u hj hc hjoined hu
    rw [getElem?_setSession ht, if_neg (by rintro rfl; exact hk hj)] at hu
    apply h.once c j u hj hc hjoined hu
  case awaited => exact h.awaited

theorem joined_of_update {joined : ClientRef → Option ℕ} {c d : ClientRef} {k j : ℕ}
    (h : Function.update joined c (some k) d = some j) :
  joined d = some j ∨ j = k
  := by
  by_cases hdc : d = c
  · subst hdc
    rw [Function.update_self, Option.some.injEq] at h
    apply Or.inr h.symm
  · rw [Function.update_of_ne hdc] at h
    apply Or.inl h

/-- A subscriber of a session whose destructor has not run may join it. -/
theorem Sound.join (h : s.Sound) {c : ClientRef} {k : ℕ} {t : TransferSession}
    (hc : c ∈ s.live) (hk : k ∉ s.ended) (ht : s.sessions[k]? = some t)
    (hsub : c ∈ t.subscribers) (hid : t.sessionId ≠ "") :
  Sound { s with
    joinedSession := Function.update s.joinedSession c t.sessionId
    joined := Function.update s.joined c (some k) }
  where
    clientList := h.clientList
    live := h.live
    fresh := h.fresh
    distinct := h.distinct
    destroyed := h.destroyed
    joined d j hd := by
      dsimp only at hd ⊢
      by_cases hdc : d = c
      · subst hdc
        rw [Function.update_self, Option.some.injEq] at hd
        subst hd
        exact ⟨h.live hc, t, ht, hsub, Function.update_self _ _ _⟩
      · rw [Function.update_of_ne hdc] at hd
        simp only [Function.update_of_ne hdc]
        apply h.joined d j hd
    identified d j hd := by
      dsimp only at hd ⊢
      by_cases hdc : d = c
      · rw [hdc, Function.update_self]
        apply hid
      · rw [Function.update_of_ne hdc] at hd ⊢
        apply h.identified d j hd
    unjoined d hd := by
      dsimp only at hd ⊢
      by_cases hdc : d = c
      · subst hdc
        rw [Function.update_self] at hd
        cases hd
      · rw [Function.update_of_ne hdc] at hd
        simp only [Function.update_of_ne hdc]
        apply h.unjoined d hd
    holding := h.holding
    setting := h.setting
    ended := h.ended
    pending := h.pending
    settled := h.settled
    before := h.before
    once d j u hj hd hjoined hu := by
      rcases joined_of_update hjoined with hjoined | rfl
      · apply h.once d j u hj hd hjoined hu
      · exact absurd hj hk
    awaited d j hj hd hjoined := by
      rcases joined_of_update hjoined with hjoined | rfl
      · apply h.awaited d j hj hd hjoined
      · exact absurd hj hk

theorem Sound.create (h : s.Sound) (c : ClientRef) (auto : Bool) :
  Sound { s with sessions := s.sessions ++ [TransferSession.create c auto] }
  := by
  have hold : ∀ k t, (s.sessions ++ [TransferSession.create c auto])[k]? = some t →
      s.sessions[k]? = some t ∨ (k = s.sessions.length ∧ t = TransferSession.create c auto) := by
    intro k t ht
    rw [List.getElem?_append] at ht
    split at ht
    · apply Or.inl ht
    · right
      obtain ⟨hlt, rfl⟩ := List.getElem?_eq_some_iff.mp ht
      rw [List.length_singleton] at hlt
      exact ⟨by omega, List.getElem_singleton _⟩
  constructor
  case clientList => exact h.clientList
  case live => exact h.live
  case fresh => exact h.fresh
  case distinct =>
    intro k t ht
    rcases hold k t ht with ht | ⟨-, rfl⟩
    · apply h.distinct k t ht
    · apply List.nodup_singleton
  case destroyed =>
    intro k t ht
    rcases hold k t ht with ht | ⟨-, rfl⟩
    · apply h.destroyed k t ht
    · apply List.forall_mem_nil
  case joined =>
    intro d k hd
    obtain ⟨hmem, t, ht, hsub, hid⟩ := h.joined d k hd
    exact ⟨hmem, t, getElem?_append_of_some ht _, hsub, hid⟩
  case identified => exact h.identified
  case unjoined => exact h.unjoined
  case holding => exact h.holding
  case setting =>
    intro r hr d k hrs
    obtain ⟨t, ht, hsub⟩ := h.setting r hr d k hrs
    exact ⟨t, getElem?_append_of_some ht _, hsub⟩
  case ended =>
    intro k hk
    obtain ⟨hlt, hlock⟩ := h.ended k hk
    constructor
    · rw [List.length_append]
      apply Nat.lt_add_right _ hlt
    · rw [lockable, List.getElem?_append_left hlt]
      apply hlock
  case pending => exact h.pending
  case settled => exact h.settled
  case before => exact h.before
  case once =>
    intro d k t hk hd hj ht
    rcases hold k t ht with ht | ⟨rfl, -⟩
    · apply h.once d k t hk hd hj ht
    · exact absurd (h.ended _ hk).1 (lt_irrefl _)
  case awaited => exact h.awaited

theorem Sound.withJoined (h : s.Sound) {call : Call} (hcall : call.Sound s) {c : ClientRef}
    {k : ℕ} (hset : call.sets? = some (c, k)) (hcan : s.CanJoin c k) :
  (s.withJoined c k).Sound
  := by
  obtain ⟨t, ht, hsub⟩ := hcall.sets c k hset
  have hid := hcan.1
  rw [sessionId_of_some ht] at hid
  rw [Server.withJoined, sessionId_of_some ht]
  cases call with
  | joinSet d j =>
      cases hset
      apply h.join (hcall.client c rfl) (hcall.session k rfl) ht hsub hid
  | createSet d j =>
      cases hset
      apply h.join (hcall.client c rfl) (hcall.session k rfl) ht hsub hid
  | _ => cases hset

theorem Sound.enter (h : s.Sound) {c : ClientRef} {k : ℕ} {t : TransferSession}
    (ht : s.sessions[k]? = some t) (hk : k ∉ s.ended)
    (ha : (t.addReceiver config.toConfig c).2 = true) :
  (s.setSession k (t.addReceiver config.toConfig c).1).Sound
  := by
  rw [(TransferSession.addReceiver_of_true ha).2]
  refine h.subscribe ht hk rfl ?_ ?_ rfl
  · exact fun d hd => TransferSession.mem_addSubscriber.mpr (Or.inl hd)
  · simp only [TransferSession.addSubscriber]
    split
    · apply h.distinct k t ht
    · rename_i hmem
      apply List.Nodup.append (h.distinct k t ht) (List.nodup_singleton c)
      apply List.disjoint_singleton.mpr hmem

/-- A call of a request keeps the invariant, and the next call may rely on what it needs. -/
theorem Serves.sound (h : s.Sound) {call : Call} {result : Server × (Call ⊕ Response)}
    (hcall : call.Sound s) (hserves : Serves config s call result) :
  result.1.Sound ∧ ∀ next, result.2 = .inl next → next.Sound result.1
  := by
  cases hserves with
  | respond response _ => exact ⟨h, fun next hnext => by cases hnext⟩
  | next _ hnext _ =>
      use h
      intro next hnext'
      obtain rfl := Sum.inl.inj hnext'
      apply hnext
  | enter c k t ht ha =>
      use h.enter ht (hcall.session k rfl) ha
      intro next hnext
      obtain rfl := Sum.inl.inj hnext
      refine ⟨hcall.client, hcall.session, ?_⟩
      intro d j hj
      cases hj
      refine ⟨_, by rw [getElem?_setSession ht, if_pos rfl], ?_⟩
      rw [(TransferSession.addReceiver_of_true ha).2]
      apply TransferSession.mem_addSubscriber.mpr (Or.inr rfl)
  | create c auto =>
      use h.create c auto
      intro next hnext
      obtain rfl := Sum.inl.inj hnext
      refine ⟨hcall.client, ?_, ?_⟩
      · intro j hj
        obtain rfl := Option.some.inj hj
        exact fun hend => absurd (h.ended _ hend).1 (lt_irrefl _)
      · intro d j hj
        cases hj
        refine ⟨TransferSession.create c auto, ?_, List.mem_singleton_self c⟩
        rw [withSession, List.getElem?_append_right (le_refl _), Nat.sub_self]
        rfl
  | join c k response hset hcan _ =>
      exact ⟨h.withJoined hcall hset hcan, fun next hnext => by cases hnext⟩
  | refuse c k _ => exact ⟨h, fun next hnext => by cases hnext⟩
  | fail c k _ =>
      use h
      intro next hnext
      obtain rfl := Sum.inl.inj hnext
      exact ⟨hcall.client, hcall.session, fun d j hj => by cases hj⟩
  | undo c k => exact ⟨(calm_removeSession s _).sound h, fun next hnext => by cases hnext⟩

/-! ### Every step -/

theorem Sound.answer (h : s.Sound) (answers : List Answer) :
  Sound { s with answers }
  where
    clientList := h.clientList
    live := h.live
    fresh := h.fresh
    distinct := h.distinct
    destroyed := h.destroyed
    joined := h.joined
    identified := h.identified
    unjoined := h.unjoined
    holding := h.holding
    setting := h.setting
    ended := h.ended
    pending := h.pending
    settled := h.settled
    before := h.before
    once := h.once
    awaited := h.awaited

/-- The state in which the handler of the request makes its call. -/
def taking (s : Server) (r : Request) : Server := { s with requests := s.requests.erase r }

theorem Sound.taking (h : s.Sound) (r : Request) :
  (s.taking r).Sound
  := by
  apply h.refer
  · exact fun r' hr' => h.call (List.mem_of_mem_erase hr')
  · exact fun k hk => h.holders hk

theorem Call.Sound.taking {call : Call} (h : call.Sound s) (r : Request) :
  call.Sound (s.taking r)
  := ⟨h.client, h.session, h.sets⟩

theorem Sound.request (h : s.Sound) {r : Request} (hr : r.call.Sound s) :
  Sound { s with requests := r :: s.requests }
  := by
  apply h.refer
  · intro r' hr'
    rcases List.mem_cons.mp hr' with rfl | hr'
    · apply hr
    · apply h.call hr'
  · exact fun k hk => h.holders hk

theorem Sound.noteSettled (h : s.Sound) {c : ClientRef} {event : Awaited}
    (hmem : (c, event) ∈ s.pendingAcks) :
  (s.noteSettled c event).Sound
  := by
  cases event with
  | kicked => exact h
  | complete k =>
      constructor
      case settled =>
        intro d j hx
        rcases List.mem_cons.mp hx with hx | hx
        · cases hx
          apply h.pending c k hmem
        · apply h.settled d j hx
      case clientList => exact h.clientList
      case live => exact h.live
      case fresh => exact h.fresh
      case distinct => exact h.distinct
      case destroyed => exact h.destroyed
      case joined => exact h.joined
      case identified => exact h.identified
      case unjoined => exact h.unjoined
      case holding => exact h.holding
      case setting => exact h.setting
      case ended => exact h.ended
      case pending => exact h.pending
      case before => exact h.before
      case once => exact h.once
      case awaited => exact h.awaited

theorem Sound.advance (config : Config) (h : s.Sound) {r : Request} (hr : r ∈ s.requests) :
  (s.advance config r).Sound
  := by
  have hcall := (h.call hr).taking r
  obtain ⟨hs, hnext⟩ := (serves config (h.taking r) r.cookie hcall).sound (h.taking r) hcall
  rw [Server.advance]
  dsimp only
  split
  · rename_i next heq
    apply hs.request (hnext next heq)
  · apply hs.answer

/-- The session does not add a receiver and does not destroy a client. -/
theorem ne_of_called {op : TransferSession.Op} (h : s.called op = true) :
  (∀ c, op ≠ .addReceiver c) ∧ ∀ c, op ≠ .destroyClient c
  := by
  constructor
  · rintro c rfl
    cases h
  · rintro c rfl
    cases h

theorem calm_runCallbacks {c : ClientRef} (hc : c ∉ s.clientList) :
  s.Calm (s.runCallbacks c)
  := by
  have hcalm : s.Calm (if s.pendingAcks.any (·.1 == c) then s.removeClient c.id else s) := by
    split
    · apply calm_removeClient
    · apply Calm.refl
  apply hcalm.trans
  apply Calm.of_sessions <;> try rfl
  · apply List.Subset.refl
  · intro x hx hmem
    apply List.mem_filter.mpr
    use hx
    rw [bne_iff_ne]
    rintro rfl
    apply hc (hcalm.clientList hmem)
  · exact fun _ _ hx => List.mem_of_mem_filter hx
  · exact fun _ _ => Or.inl

/-- The client is no longer live, and the rest of its destructor is calm. -/
theorem calm_destroyClient (config : Config) (h : s.Sound) {c : ClientRef} (hlive : c ∈ s.live)
    (hc : c ∉ s.clientList) (hr : ∀ r ∈ s.requests, r.call.client? ≠ some c) :
  Calm { s with live := s.live.filter (· != c), connected := s.connected.filter (· != c) }
    (s.destroyClient config c)
  := by
  have hcalm := calm_runCallbacks (c := c)
    (s := { s with live := s.live.filter (· != c), connected := s.connected.filter (· != c) }) hc
  apply hcalm.trans
  apply calm_foldl_notifyDestroyed config (hcalm.sound (h.expire hc hr))
  rw [hcalm.clients, hcalm.live]
  use h.live hlive
  simp

theorem Sound.step (config : Config) (h : s.Sound) (a : Action) :
  (s.step config a).Sound
  := by
  cases a with
  | register id =>
      rw [Server.step]
      split
      · apply h
      · apply h.register
  | leave id => apply (calm_removeClient s id).sound h
  | connect c =>
      rw [Server.step]
      split
      · have hcalm : s.Calm { s with connected := c :: s.connected } := by
          apply Calm.of_sessions <;> try rfl
          · apply List.Subset.refl
          · exact fun _ hx _ => hx
          · exact fun _ _ hx => hx
          · exact fun _ _ => Or.inl
        apply hcalm.sound h
      · apply h
  | disconnect c => apply (calm_closeConnection s c).sound h
  | destroyClient c =>
      rw [Server.step]
      split
      · rename_i hc
        apply (calm_destroyClient config h hc.1 hc.2.1 hc.2.2).sound
        apply h.expire hc.2.1 hc.2.2
      · apply h
  | timeout c event =>
      rw [Server.step]
      split
      · rename_i hc
        apply (calm_resolveAck hc.1).sound h
      · apply h
  | acknowledge c event =>
      rw [Server.step]
      split
      · rename_i hc
        rw [Server.acknowledge]
        split
        · apply (calm_resolveAck hc.1).sound h
        · apply (calm_closeConnection _ c).sound
          apply h.noteSettled hc.1
      · apply h
  | hold k =>
      rw [Server.step]
      split
      · rename_i hlock
        apply h.refer
        · exact fun r hr => h.call hr
        · intro j hj
          rcases List.mem_cons.mp hj with rfl | hj
          · apply notMem_ended h hlock
          · apply h.holders hj
      · apply h
  | release k =>
      apply h.refer
      · exact fun r hr => h.call hr
      · exact fun j hj => h.holders (List.mem_of_mem_erase hj)
  | operate k op =>
      rw [Server.step]
      split
      · rename_i hop
        obtain ⟨hadd, hdestroy⟩ := ne_of_called hop.2
        apply (calm_perform config (h.holders hop.1) hadd _).sound h
        exact fun c hc => absurd hc (hdestroy c)
      · apply h
  | destruct k =>
      rw [Server.step]
      split
      · apply h
      · rename_i hk
        rw [not_or] at hk
        apply h.destruct (Bool.eq_false_of_not_eq_true hk.1) hk.2
  | requestCreate cookie body =>
      apply h.request
      apply Call.Sound.start <;> rfl
  | requestJoin cookie id? =>
      apply h.request
      apply Call.Sound.start <;> rfl
  | advance r =>
      rw [Server.step]
      split
      · rename_i hr
        apply h.advance config hr
      · apply h

end Server

/-! ### Clients for sample runs -/

namespace Server.Sample

def config : Config where
  transferSessionMaxChunkSize := 4
  transferSessionChunkQueueMaxSize := 2
  transferSessionMaxConsumerCount := 4
  transferSessionCountLimit := 4
  sign id := "public " ++ id

/-- The client that registers first under the id, and so on. -/
def client (ref : ℕ) (id : String) : ClientRef := ⟨ref, id, config.sign id⟩

/-- A request of the client to create a session runs without interruption. -/
def create (c : ClientRef) (k : ℕ) : List Action :=
  [.requestCreate c.id (.options false),
    .advance ⟨c.id, .create (.options false), false⟩,
    .advance ⟨c.id, .createTest c (.options false), false⟩,
    .advance ⟨c.id, .createLimit c (.options false), false⟩,
    .advance ⟨c.id, .createAdd c false, false⟩,
    .advance ⟨c.id, .createSet c k, true⟩]

/-- A request of the client to join a session, up to the call of `addReceiver`. -/
def joinUntilAdd (c : ClientRef) (id : String) (k : ℕ) : List Action :=
  [.requestJoin c.id (some id),
    .advance ⟨c.id, .join (some id), false⟩,
    .advance ⟨c.id, .joinFind c id, false⟩,
    .advance ⟨c.id, .joinTest c k, false⟩,
    .advance ⟨c.id, .joinRemoved c k, false⟩,
    .advance ⟨c.id, .joinAdd c k, false⟩]

def alice : ClientRef := client 0 "alice"

def bob : ClientRef := client 1 "bob"

def carol : ClientRef := client 2 "carol"

end Server.Sample

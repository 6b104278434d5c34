import PutInPipe.Server.Run

/-!
# Concurrent requests

The handlers of two requests with one cookie work on the same client object. Each looks
whether the client has joined a session, then makes or enters one, and only then calls
`joinSession`, which fails for the second of them. By that time the second handler has made
the client a receiver and a consumer of another session, or the sender of a new one, and
nothing takes the client out again.
-/

open TransferSessionDetails

namespace TransferSession

variable {config : Config} {s t : TransferSession}

/-- The client is the sender, a receiver or, by its public id, an expected consumer. -/
def Belongs (t : TransferSession) (c : ClientRef) : Prop :=
  t.dataSender = c ∨ c ∈ t.dataReceivers ∨ c.publicId ∈ t.buffer.expectedConsumers

instance (t : TransferSession) (c : ClientRef) : Decidable (t.Belongs c) :=
  inferInstanceAs (Decidable (_ ∨ _))

/-- `P` holds of the sender, of the receivers and of a client for each consumer. -/
structure AllMembers (P : ClientRef → Prop) (t : TransferSession) : Prop where
  sender : P t.dataSender
  receivers : ∀ c ∈ t.dataReceivers, P c
  consumers : ∀ p ∈ t.buffer.expectedConsumers, ∃ c, P c ∧ c.publicId = p

theorem AllMembers.mono {P Q : ClientRef → Prop} (hPQ : ∀ c, P c → Q c) (h : t.AllMembers P) :
  t.AllMembers Q
  where
    sender := hPQ _ h.sender
    receivers c hc := hPQ c (h.receivers c hc)
    consumers p hp := by
      obtain ⟨c, hc, hid⟩ := h.consumers p hp
      exact ⟨c, hPQ c hc, hid⟩

theorem AllMembers.narrows {P : ClientRef → Prop} (h : s.AllMembers P) (hn : s.Narrows t) :
  t.AllMembers P
  where
    sender := by
      rw [hn.dataSender]
      apply h.sender
    receivers c hc := h.receivers c (hn.dataReceivers hc)
    consumers p hp := h.consumers p (hn.expectedConsumers hp)

theorem AllMembers.create {P : ClientRef → Prop} {c : ClientRef} (hc : P c) (auto : Bool) :
  (create c auto).AllMembers P
  where
    sender := hc
    receivers := List.forall_mem_nil _
    consumers := by
      intro p hp
      cases Finset.notMem_empty p hp

theorem AllMembers.addReceiver {P : ClientRef → Prop} (h : s.AllMembers P) {c : ClientRef}
    (hc : P c) (ha : (s.addReceiver config c).2 = true) :
  (s.addReceiver config c).1.AllMembers P
  := by
  rw [(addReceiver_of_true ha).2]
  constructor
  · apply h.sender
  · intro d hd
    rcases List.mem_append.mp hd with hd | hd
    · apply h.receivers d hd
    · rw [List.mem_singleton.mp hd]
      apply hc
  · intro p hp
    rcases Finset.mem_insert.mp hp with rfl | hp
    · exact ⟨c, hc, rfl⟩
    · apply h.consumers p hp

/-- A receiver that is accepted changes the membership. -/
theorem membership_addReceiver_ne {c : ClientRef} (ha : (s.addReceiver config c).2 = true) :
  (s.addReceiver config c).1.membership ≠ s.membership
  := by
  rw [(addReceiver_of_true ha).2]
  intro h
  have hreceivers : s.dataReceivers ++ [c] = s.dataReceivers := congrArg (·.2.1) h
  simp at hreceivers

end TransferSession

namespace Server

variable {config : Config} {s s' : Server}

/-- No other client object has the public id. -/
def Alone (s : Server) (c : ClientRef) : Prop :=
  ∀ d ∈ s.clients, d.publicId = c.publicId → d = c

instance (s : Server) (c : ClientRef) : Decidable (s.Alone c) :=
  inferInstanceAs (Decidable (∀ d ∈ s.clients, _))

/-- A request that was answered with an error has changed nothing. -/
def Unchanged (s : Server) : Prop :=
  ∀ a ∈ s.answers, 400 ≤ a.response.code → a.changed = false

/-- Failed requests have left nothing behind, and a client without a request in progress
belongs only to the session it has joined. Consumers are public ids, which tell of a client
that no other object shares its public id with. -/
structure BelongsToOne (s : Server) : Prop where
  unchanged : s.Unchanged
  member : ∀ c, (∀ r ∈ s.requests, r.call.client? ≠ some c) → s.Alone c →
    ∀ (k : ℕ) (t : TransferSession), k ∉ s.ended → s.sessions[k]? = some t → t.Belongs c →
      s.joinedSession c = t.sessionId

/-- A call of `joinSession` by `sessionJoin` finds the client in no session and the id not
empty, and `sessionCreate` has not come to the branch in which that call has failed. -/
def Succeeds (s : Server) : Call → Prop
  | .joinSet c k => s.CanJoin c k
  | .createUndo _ _ => False
  | _ => True

def JoinsOnce (s : Server) : Action → Prop
  | .advance r => r ∈ s.requests → s.Succeeds r.call
  | _ => True

/-- A request has changed something exactly when it has entered a session. -/
def Tracked (s : Server) : Prop :=
  ∀ r ∈ s.requests, r.changed = r.call.adds?.isSome

/-- The client has joined the session, or a request is about to let it join. -/
structure Accounted (s : Server) (k : ℕ) (c : ClientRef) : Prop where
  known : c ∈ s.clients
  joined : s.joined c = some k ∨ ∃ r ∈ s.requests, r.call.adds? = some (c, k)

/-- Every member of a session is accounted for. -/
def MembersAccounted (s : Server) : Prop :=
  ∀ (k : ℕ) (t : TransferSession), k ∉ s.ended → s.sessions[k]? = some t →
    t.AllMembers (s.Accounted k)

/-- A client without a request in progress has joined the sessions it is accounted for. -/
theorem Sound.belongsToOne (h : s.Sound) (hm : s.MembersAccounted)
    (hanswers : s.Unchanged) :
  s.BelongsToOne
  := by
  use hanswers
  intro c hidle halone k t hk ht hbelongs
  have hjoined : s.joined c = some k → s.joinedSession c = t.sessionId := by
    intro hj
    obtain ⟨-, t', ht', -, hid⟩ := h.joined c k hj
    obtain rfl : t' = t := Option.some.inj (ht'.symm.trans ht)
    apply hid
  have hidle' : ∀ r ∈ s.requests, r.call.adds? ≠ some (c, k) := by
    intro r hr hadds
    apply hidle r hr
    cases hcall : r.call <;> rw [hcall] at hadds <;> cases hadds <;> rfl
  have hacc : s.Accounted k c := by
    rcases hbelongs with rfl | hc | hp
    · apply (hm k t hk ht).sender
    · apply (hm k t hk ht).receivers c hc
    · obtain ⟨d, hd, hid⟩ := (hm k t hk ht).consumers _ hp
      obtain rfl := halone d hd.known hid
      apply hd
  apply hjoined
  apply hacc.joined.resolve_right
  rintro ⟨r, hr, hadds⟩
  apply hidle' r hr hadds

/-! ### Steps of others -/

/-- A step that leaves the requests alone and in which nobody enters or joins a session. -/
structure Steady (s s' : Server) : Prop where
  clients : s.clients ⊆ s'.clients
  joined : s'.joined = s.joined
  requests : s'.requests = s.requests
  answers : s'.answers = s.answers
  ended : s.ended ⊆ s'.ended
  session : ∀ (k : ℕ) (t' : TransferSession), s'.sessions[k]? = some t' →
    ∃ t, s.sessions[k]? = some t ∧ t.Narrows t'

theorem Steady.of_sessions (hclients : s.clients ⊆ s'.clients) (hjoined : s'.joined = s.joined)
    (hrequests : s'.requests = s.requests) (hanswers : s'.answers = s.answers)
    (hended : s.ended ⊆ s'.ended) (hsessions : s'.sessions = s.sessions) :
  s.Steady s'
  where
    clients := hclients
    joined := hjoined
    requests := hrequests
    answers := hanswers
    ended := hended
    session k t' ht' := by
      rw [hsessions] at ht'
      exact ⟨t', ht', (TransferSession.SameMembers.refl t').narrows⟩

theorem Steady.refl (s : Server) :
  s.Steady s
  := of_sessions (List.Subset.refl _) rfl rfl rfl (List.Subset.refl _) rfl

theorem Calm.steady (h : s.Calm s') :
  s.Steady s'
  where
    clients := by
      rw [h.clients]
      apply List.Subset.refl
    joined := h.joined
    requests := h.requests
    answers := h.answers
    ended := by
      rw [h.ended]
      apply List.Subset.refl
    session k t' ht' := by
      obtain ⟨t, ht, hshrinks, -⟩ := h.session k t' ht'
      exact ⟨t, ht, hshrinks.narrows⟩

/-- The steps of the requests to create or join a session. -/
def Action.ofRequest : Action → Bool
  | .requestCreate _ _ | .requestJoin _ _ | .advance _ => true
  | _ => false

theorem steady_step (config : Config) (h : s.Sound) {a : Action} (ha : a.ofRequest = false) :
  s.Steady (s.step config a)
  := by
  cases a with
  | register id =>
      rw [Server.step]
      split
      · apply Steady.refl
      · apply Steady.of_sessions <;> try rfl
        · apply List.subset_append_left
        · apply List.Subset.refl
  | leave id => apply (calm_removeClient s id).steady
  | connect c =>
      rw [Server.step]
      split
      · apply Steady.of_sessions <;> first | rfl | apply List.Subset.refl
      · apply Steady.refl
  | disconnect c => apply (calm_closeConnection s c).steady
  | destroyClient c =>
      rw [Server.step]
      split
      · rename_i hc
        have hcalm := (calm_destroyClient config h hc.1 hc.2.1 hc.2.2).steady
        exact ⟨hcalm.clients, hcalm.joined, hcalm.requests, hcalm.answers, hcalm.ended,
          hcalm.session⟩
      · apply Steady.refl
  | timeout c event =>
      rw [Server.step]
      split
      · rename_i hc
        apply (calm_resolveAck hc.1).steady
      · apply Steady.refl
  | acknowledge c event =>
      rw [Server.step]
      split
      · rename_i hc
        rw [Server.acknowledge]
        split
        · apply (calm_resolveAck hc.1).steady
        · cases event <;> apply Steady.of_sessions <;> first | rfl | apply List.Subset.refl
      · apply Steady.refl
  | hold k =>
      rw [Server.step]
      split
      · apply Steady.of_sessions <;> first | rfl | apply List.Subset.refl
      · apply Steady.refl
  | release k => apply Steady.of_sessions <;> first | rfl | apply List.Subset.refl
  | operate k op =>
      rw [Server.step]
      split
      · rename_i hop
        obtain ⟨hadd, hdestroy⟩ := ne_of_called hop.2
        apply (calm_perform config (h.holders hop.1) hadd _).steady
        exact fun c hc => absurd hc (hdestroy c)
      · apply Steady.refl
  | destruct k =>
      rw [Server.step]
      split
      · apply Steady.refl
      · rw [Server.destruct]
        split
        · apply Steady.refl
        · rename_i t _
          have hp := publishes_foldl k t.completeType (t.subscribers.filter t.alive)
            { s with ended := k :: s.ended }
          apply Steady.of_sessions
          · rw [hp.clients]
            apply List.Subset.refl
          · apply hp.joined
          · apply hp.requests
          · apply hp.answers
          · rw [hp.ended]
            apply List.subset_cons_self
          · apply hp.sessions
  | requestCreate cookie body => cases ha
  | requestJoin cookie id? => cases ha
  | advance r => cases ha

/-! ### Which requests have changed something -/

theorem Tracked.request (h : s.Tracked) {r : Request} (hr : r.changed = r.call.adds?.isSome) :
  Tracked { s with requests := r :: s.requests }
  := by
  intro r' hr'
  rcases List.mem_cons.mp hr' with rfl | hr'
  · apply hr
  · apply h r' hr'

theorem differs_self (s : Server) (client? : Option ClientRef) :
  s.differs s client? = false
  := by
  simp [differs]

theorem differs_of_sessions {client? : Option ClientRef}
    (h : s'.sessions.map TransferSession.membership
      ≠ s.sessions.map TransferSession.membership) :
  s.differs s' client? = true
  := by
  rw [differs, Bool.or_eq_true]
  right
  apply bne_iff_ne.mpr h

/-- A client that enters a session changes what is recorded of it. -/
theorem differs_enter {k : ℕ} {t : TransferSession} (ht : s.sessions[k]? = some t)
    {c : ClientRef} (ha : (t.addReceiver config.toConfig c).2 = true)
    (client? : Option ClientRef) :
  s.differs (s.setSession k (t.addReceiver config.toConfig c).1) client? = true
  := by
  apply differs_of_sessions
  intro h
  have hk := congrArg (fun ts => ts[k]?) h
  simp only [List.getElem?_map, getElem?_setSession ht, ht, if_pos, Option.map_some,
    Option.some.injEq] at hk
  apply TransferSession.membership_addReceiver_ne ha hk

theorem differs_create (s : Server) (c : ClientRef) (auto : Bool)
    (client? : Option ClientRef) :
  s.differs (s.withSession c auto) client? = true
  := by
  apply differs_of_sessions
  intro h
  have hlen := congrArg List.length h
  simp [withSession] at hlen

theorem Serves.requests {call : Call} {result : Server × (Call ⊕ Response)}
    (hserves : Serves config s call result) :
  result.1.requests = s.requests ∧ result.1.answers = s.answers
  := by
  cases hserves <;> exact ⟨rfl, rfl⟩

/-- The flag of the next call. -/
theorem Serves.changed {call next : Call} {result : Server × (Call ⊕ Response)}
    (hserves : Serves config s call result) (hnext : result.2 = .inl next)
    (client? : Option ClientRef) :
  (call.adds?.isSome || s.differs result.1 client?) = next.adds?.isSome
  := by
  cases hserves with
  | respond response _ => cases hnext
  | next h _ hadds =>
      obtain rfl := Sum.inl.inj hnext
      rw [h, hadds, differs_self]
      rfl
  | enter c k t ht ha =>
      obtain rfl := Sum.inl.inj hnext
      rw [differs_enter ht ha]
      rfl
  | create c auto =>
      obtain rfl := Sum.inl.inj hnext
      rw [differs_create]
      rfl
  | join c k response _ _ _ => cases hnext
  | refuse c k _ => cases hnext
  | fail c k _ =>
      obtain rfl := Sum.inl.inj hnext
      rfl
  | undo c k => cases hnext

theorem Tracked.advance (config : Config) (hs : s.Sound) (h : s.Tracked) {r : Request}
    (hr : r ∈ s.requests) :
  (s.advance config r).Tracked
  := by
  have hserves := serves config (hs.taking r) r.cookie ((hs.call hr).taking r)
  have htaken : (s.taking r).Tracked := fun r' hr' => h r' (List.mem_of_mem_erase hr')
  have hserved : ((s.taking r).serve config r.cookie r.call).1.Tracked := by
    rw [Tracked, hserves.requests.1]
    apply htaken
  rw [Server.advance]
  dsimp only
  split
  · rename_i next heq
    apply hserved.request
    rw [h r hr]
    apply hserves.changed heq
  · apply hserved

theorem Tracked.step (config : Config) (hs : s.Sound) (h : s.Tracked) (a : Action) :
  (s.step config a).Tracked
  := by
  cases a with
  | requestCreate cookie body =>
      apply h.request
      rfl
  | requestJoin cookie id? =>
      apply h.request
      rfl
  | advance r =>
      rw [Server.step]
      split
      · rename_i hr
        apply h.advance config hs hr
      · apply h
  | _ =>
      rw [Tracked, (steady_step config hs rfl).requests]
      apply h

/-! ### Who is accounted for -/

theorem Steady.membersAccounted (h : s.Steady s') (hm : s.MembersAccounted) :
  s'.MembersAccounted
  := by
  intro k t' hk ht'
  obtain ⟨t, ht, hnarrows⟩ := h.session k t' ht'
  have hall := hm k t (fun hend => hk (h.ended hend)) ht
  apply (hall.mono _).narrows hnarrows
  rintro c ⟨hknown, hjoined⟩
  use h.clients hknown
  rw [h.joined, h.requests]
  apply hjoined

/-- Joining does not take a client out of the session it has joined. -/
theorem joined_withJoined (h : s.Sound) {c d : ClientRef} {k j : ℕ} (hcan : s.CanJoin c k)
    (hd : s.joined d = some j) :
  (s.withJoined c k).joined d = some j
  := by
  have hdc : d ≠ c := by
    rintro rfl
    apply h.identified _ j hd hcan.2
  rw [withJoined]
  dsimp only
  rw [Function.update_of_ne hdc]
  apply hd

/-- The state after a call, with the request waiting for its next call. -/
structure Follows (result : Server × (Call ⊕ Response)) (s' : Server) : Prop where
  clients : s'.clients = result.1.clients
  joined : s'.joined = result.1.joined
  sessions : s'.sessions = result.1.sessions
  ended : s'.ended = result.1.ended
  requests : result.1.requests ⊆ s'.requests
  next : ∀ next, result.2 = .inl next → ∃ r ∈ s'.requests, r.call = next

theorem follows_advance (config : Config) (s : Server) (r : Request) :
  Follows ((s.taking r).serve config r.cookie r.call) (s.advance config r)
  := by
  rw [Server.advance]
  dsimp only
  split
  · rename_i next heq
    refine ⟨rfl, rfl, rfl, rfl, List.subset_cons_self _ _, ?_⟩
    intro next' hnext
    obtain rfl := Sum.inl.inj (heq.symm.trans hnext)
    exact ⟨_, List.mem_cons_self, rfl⟩
  · rename_i response heq
    refine ⟨rfl, rfl, rfl, rfl, List.Subset.refl _, ?_⟩
    intro next hnext
    cases heq.symm.trans hnext

/-- The client that has entered a session by the call is accounted for by the next one. -/
theorem Follows.accounted {result : Server × (Call ⊕ Response)} (h : Follows result s')
    {next : Call} (hnext : result.2 = .inl next) {c : ClientRef} {k : ℕ}
    (hadds : next.adds? = some (c, k)) (hc : c ∈ result.1.clients) :
  s'.Accounted k c
  := by
  obtain ⟨r, hr, rfl⟩ := h.next next hnext
  refine ⟨?_, Or.inr ⟨r, hr, hadds⟩⟩
  rw [h.clients]
  apply hc

theorem succeeds_taking (r : Request) {call : Call} :
  (s.taking r).Succeeds call ↔ s.Succeeds call
  := by
  cases call <;> exact Iff.rfl

/-- A call that does not fail leaves nobody unaccounted for. -/
theorem Serves.accounted {call : Call} {result : Server × (Call ⊕ Response)} (hs : s.Sound)
    (hserves : Serves config s call result) (hfollows : Follows result s')
    (hsucceeds : s.Succeeds call) {d : ClientRef} {j : ℕ} (hknown : d ∈ s.clients)
    (hacc : s.joined d = some j ∨ (∃ r ∈ s.requests, r.call.adds? = some (d, j))
      ∨ call.adds? = some (d, j)) :
  s'.Accounted j d
  := by
  have hclients : result.1.clients = s.clients := by
    cases hserves <;> rfl
  have hknown' : d ∈ s'.clients := by
    rw [hfollows.clients, hclients]
    apply hknown
  rcases hacc with hj | ⟨r, hr, hadds⟩ | hadds
  · refine ⟨hknown', Or.inl ?_⟩
    rw [hfollows.joined]
    cases hserves with
    | join c k response _ hcan _ => apply joined_withJoined hs hcan hj
    | _ => exact hj
  · refine ⟨hknown', Or.inr ⟨r, hfollows.requests ?_, hadds⟩⟩
    rw [hserves.requests.1]
    apply hr
  · cases hserves with
    | respond response h => cases h.symm.trans hadds
    | next h _ _ => cases h.symm.trans hadds
    | enter c k t _ _ => cases hadds
    | create c auto => cases hadds
    | join c k response hset _ _ =>
        refine ⟨hknown', Or.inl ?_⟩
        have heq : call.adds? = some (c, k) := by
          cases call <;> cases hset <;> rfl
        cases heq.symm.trans hadds
        rw [hfollows.joined, withJoined]
        apply Function.update_self
    | refuse c k hcan => exact absurd hsucceeds hcan
    | fail c k _ => exact hfollows.accounted rfl hadds hknown
    | undo c k => cases hsucceeds

/-- Where the old members stay accounted for, so is whoever enters by the call. -/
theorem Serves.membersAccounted {call : Call} {result : Server × (Call ⊕ Response)}
    (hs : s.Sound) (hcall : call.Sound s) (hserves : Serves config s call result)
    (hfollows : Follows result s')
    (hold : ∀ (k : ℕ) (t : TransferSession), k ∉ s.ended → s.sessions[k]? = some t →
      t.AllMembers (s'.Accounted k)) :
  s'.MembersAccounted
  := by
  have hended : result.1.ended = s.ended := by
    cases hserves <;> rfl
  intro k t hk ht
  rw [hfollows.ended, hended] at hk
  rw [hfollows.sessions] at ht
  cases hserves with
  | enter c j u hu ha =>
      have hlive := hs.live (hcall.client c rfl)
      rw [getElem?_setSession hu] at ht
      split at ht
      · subst_vars
        obtain rfl := Option.some.inj ht
        apply (hold _ u hk hu).addReceiver (hfollows.accounted rfl rfl hlive) ha
      · apply hold k t hk ht
  | create c auto =>
      have hlive := hs.live (hcall.client c rfl)
      rw [withSession, List.getElem?_append] at ht
      split at ht
      · apply hold k t hk ht
      · obtain ⟨hlt, rfl⟩ := List.getElem?_eq_some_iff.mp ht
        rw [List.length_singleton] at hlt
        obtain rfl : k = s.sessions.length := by omega
        rw [List.getElem_singleton]
        apply TransferSession.AllMembers.create (hfollows.accounted rfl rfl hlive) auto
  | undo c j =>
      obtain ⟨u, hu, hshrinks, -⟩ := (calm_removeSession s _).session k t ht
      apply (hold k u hk hu).narrows hshrinks.narrows
  | _ => exact hold k t hk ht

theorem MembersAccounted.advance (config : Config) (hs : s.Sound) (h : s.MembersAccounted)
    {r : Request} (hr : r ∈ s.requests) (hsucceeds : s.Succeeds r.call) :
  (s.advance config r).MembersAccounted
  := by
  have hcall := (hs.call hr).taking r
  have hserves := serves config (hs.taking r) r.cookie hcall
  have hfollows := follows_advance config s r
  have hkeep : ∀ j d, s.Accounted j d → (s.advance config r).Accounted j d := by
    rintro j d ⟨hknown, hacc⟩
    apply hserves.accounted (hs.taking r) hfollows ((succeeds_taking r).mpr hsucceeds) hknown
    refine hacc.imp_right ?_
    rintro ⟨r', hr', hadds⟩
    by_cases heq : r' = r
    · subst heq
      apply Or.inr hadds
    · apply Or.inl ⟨r', (List.mem_erase_of_ne heq).mpr hr', hadds⟩
  apply hserves.membersAccounted (hs.taking r) hcall hfollows
  exact fun k t hk ht => (h k t hk ht).mono (hkeep k)

/-! ### What failed requests have changed -/

/-- The answer a call gives, if it does. -/
theorem unchanged_advance (config : Config) (h : s.Unchanged) (hs : s.Sound) {r : Request}
    (hr : r ∈ s.requests) :
  (s.advance config r).Unchanged
  ↔ ∀ response, ((s.taking r).serve config r.cookie r.call).2 = .inr response →
    400 ≤ response.code →
      (r.changed || (s.taking r).differs ((s.taking r).serve config r.cookie r.call).1
        r.call.client?) = false
  := by
  have hanswers := (serves config (hs.taking r) r.cookie ((hs.call hr).taking r)).requests.2
  rw [Server.advance]
  dsimp only
  split
  · rename_i next heq
    apply iff_of_true
    · intro a ha
      apply h a
      apply hanswers ▸ ha
    · intro response hresponse
      cases heq.symm.trans hresponse
  · rename_i response heq
    constructor
    · intro hunchanged response' hresponse' hcode
      obtain rfl := Sum.inr.inj (heq.symm.trans hresponse')
      apply hunchanged _ List.mem_cons_self hcode
    · intro hall a ha hcode
      rcases List.mem_cons.mp ha with rfl | ha
      · apply hall response heq hcode
      · apply h a (hanswers ▸ ha) hcode

/-- The answer to a call is an error about a change exactly when `joinSession` has failed. -/
theorem Serves.unchanged_iff {call : Call} {result : Server × (Call ⊕ Response)}
    (hserves : Serves config s call result) (client? : Option ClientRef) :
  (∀ response, result.2 = .inr response → 400 ≤ response.code →
    (call.adds?.isSome || s.differs result.1 client?) = false) ↔ s.Succeeds call
  := by
  have hlooks : ∀ call : Call, call.adds? = none → s.Succeeds call := by
    intro call h
    cases call <;> trivial
  cases hserves with
  | respond response h =>
      apply iff_of_true _ (hlooks call h)
      intro _ _ _
      rw [h, differs_self]
      rfl
  | next h _ _ => exact iff_of_true (fun _ hnext => by cases hnext) (hlooks call h)
  | enter c k t _ _ => exact iff_of_true (fun _ hnext => by cases hnext) trivial
  | create c auto => exact iff_of_true (fun _ hnext => by cases hnext) trivial
  | join c k response hset hcan hcode =>
      apply iff_of_true
      · intro response' hresponse hcode'
        obtain rfl := Sum.inr.inj hresponse
        exact absurd hcode (not_lt.mpr hcode')
      · cases call <;> cases hset
        · apply hcan
        · trivial
  | refuse c k hcan =>
      apply iff_of_false _ hcan
      intro h
      cases h _ rfl (by decide)
  | fail c k _ => exact iff_of_true (fun _ hnext => by cases hnext) trivial
  | undo c k =>
      apply iff_of_false _ id
      intro h
      cases h _ rfl (by decide)

theorem unchanged_step_iff (config : Config) (hs : s.Sound) (ht : s.Tracked) (h : s.Unchanged)
    (a : Action) :
  (s.step config a).Unchanged ↔ s.JoinsOnce a
  := by
  cases a with
  | requestCreate cookie body => exact iff_of_true h trivial
  | requestJoin cookie id? => exact iff_of_true h trivial
  | advance r =>
      rw [Server.step]
      split
      · rename_i hr
        have hserves := serves config (hs.taking r) r.cookie ((hs.call hr).taking r)
        rw [unchanged_advance config h hs hr, ht r hr, hserves.unchanged_iff, succeeds_taking]
        exact ⟨fun hsucceeds _ => hsucceeds, fun honce => honce hr⟩
      · rename_i hr
        apply iff_of_true h (fun hmem => absurd hmem hr)
  | _ =>
      apply iff_of_true _ trivial
      rw [Unchanged, (steady_step config hs rfl).answers]
      apply h

theorem MembersAccounted.step (config : Config) (hs : s.Sound) (h : s.MembersAccounted)
    {a : Action} (honce : s.JoinsOnce a) :
  (s.step config a).MembersAccounted
  := by
  have hrequest : ∀ r : Request, MembersAccounted { s with requests := r :: s.requests } := by
    intro r k t hk ht
    apply (h k t hk ht).mono
    rintro c ⟨hknown, hj | ⟨r', hr', hadds⟩⟩
    · exact ⟨hknown, Or.inl hj⟩
    · exact ⟨hknown, Or.inr ⟨r', List.mem_cons_of_mem _ hr', hadds⟩⟩
  cases a with
  | requestCreate cookie body => apply hrequest
  | requestJoin cookie id? => apply hrequest
  | advance r =>
      rw [Server.step]
      split
      · rename_i hr
        apply h.advance config hs hr (honce hr)
      · apply h
  | _ => exact (steady_step config hs rfl).membersAccounted h

theorem everyState_unchanged_iff (config : Config) (as : List Action) :
  Machine.EveryState (step config) Unchanged {} as
    ↔ Machine.EveryStep (step config) JoinsOnce {} as
  := by
  have hinv : ∀ (s : Server) (a : Action), s.Sound ∧ s.Tracked →
      (s.step config a).Sound ∧ (s.step config a).Tracked :=
    fun s a h => ⟨h.1.step config a, h.2.step config h.1 a⟩
  apply Machine.everyState_iff_everyStep hinv
  · exact fun s a hs h => unchanged_step_iff config hs.1 hs.2 h a
  · exact ⟨Sound.init, List.forall_mem_nil _⟩
  · apply List.forall_mem_nil

/-- In every run failed requests leave nothing behind and a client belongs to one session,
exactly when no call of `joinSession` finds that another request has let the client join
meanwhile. -/
theorem everyState_belongsToOne_iff (config : Config) (as : List Action) :
  Machine.EveryState (step config) BelongsToOne {} as
    ↔ Machine.EveryStep (step config) JoinsOnce {} as
  := by
  constructor
  · intro h
    apply (everyState_unchanged_iff config as).mp
    apply h.mono
    exact fun s hs => hs.unchanged
  · intro hC
    have hrun : Machine.EveryState (step config)
        (fun s => s.Sound ∧ s.Tracked ∧ s.Unchanged ∧ s.MembersAccounted) {} as := by
      apply Machine.everyState_of_everyStep _ _ hC
      · rintro s a ⟨hs, ht, hu, hm⟩ honce
        exact ⟨hs.step config a, ht.step config hs a,
          (unchanged_step_iff config hs ht hu a).mpr honce, hm.step config hs honce⟩
      · refine ⟨Sound.init, List.forall_mem_nil _, List.forall_mem_nil _, ?_⟩
        intro k t _ ht
        cases ht
    apply hrun.mono
    rintro s ⟨hs, -, hu, hm⟩
    apply hs.belongsToOne hm hu

/-- Alice and Bob have a session each, and Carol asks to join both at the same time. Both
requests make her a receiver before either calls `joinSession`. -/
def Sample.joinsTwo : List Action :=
  [.register "alice", .register "bob", .register "carol"] ++ create alice 0 ++ create bob 1
    ++ joinUntilAdd carol alice.publicId 0 ++ joinUntilAdd carol bob.publicId 1
    ++ [.advance ⟨carol.id, .joinSet carol 0, true⟩,
      .advance ⟨carol.id, .joinSet carol 1, true⟩]

/-- The second request is answered with an error, and Carol is a receiver and a consumer of
the session of Bob although she has joined that of Alice. -/
theorem not_belongsToOne_joinsTwo :
  ¬ Machine.EveryState (step Sample.config) BelongsToOne {} Sample.joinsTwo
  := by
  intro h
  obtain ⟨t, ht⟩ :
      ∃ t, (Machine.run (step Sample.config) {} Sample.joinsTwo).sessions[1]? = some t :=
    Option.isSome_iff_exists.mp (by decide)
  have hbelongs : t.Belongs Sample.carol := by
    have hall : (Machine.run (step Sample.config) {} Sample.joinsTwo).sessions[1]?.all
        (fun t => t.Belongs Sample.carol) = true := by decide
    rw [ht] at hall
    apply of_decide_eq_true hall
  have hmember := h.last.member Sample.carol (by decide) (by decide) 1 t (by decide) ht hbelongs
  rw [← sessionId_of_some ht] at hmember
  revert hmember
  decide

end Server

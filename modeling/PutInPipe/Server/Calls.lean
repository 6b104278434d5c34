import PutInPipe.Server.Lemmas

/-!
# The calls of a request

`Serves` lists what a call of a request can do: up to `addReceiver` and
`TransferSessionList::create` it only looks, these two let the client enter a session, and
`joinSession` succeeds or fails.
-/

open TransferSessionDetails

namespace Server

variable {config : Config} {s : Server}

theorem notMem_ended (h : s.Sound) {k : ℕ} (hk : s.lockable k = true) :
  k ∉ s.ended
  := by
  intro hend
  rw [(h.ended k hend).2] at hk
  cases hk

/-- What the handler of a request relies on before it makes the call: the client is live,
the destructor of the session has not run, and the client subscribes to the session it
is about to join. -/
structure Call.Sound (s : Server) (call : Call) : Prop where
  client : ∀ c, call.client? = some c → c ∈ s.live
  session : ∀ k, call.session? = some k → k ∉ s.ended
  sets : ∀ c k, call.sets? = some (c, k) → ∃ t, s.sessions[k]? = some t ∧ c ∈ t.subscribers

/-- A handler starts without references. -/
theorem Call.Sound.start {call : Call} (hclient : call.client? = none)
    (hsession : call.session? = none) (hsets : call.sets? = none) :
  call.Sound s
  where
    client c hc := by
      rw [hclient] at hc
      cases hc
    session k hk := by
      rw [hsession] at hk
      cases hk
    sets c k hk := by
      rw [hsets] at hk
      cases hk

/-- The next call has the client and the session of the one before. -/
theorem Call.Sound.next {call next : Call} (h : call.Sound s)
    (hclient : next.client? = call.client?) (hsession : next.session? = call.session?)
    (hsets : next.sets? = none) :
  next.Sound s
  where
    client := by
      rw [hclient]
      apply h.client
    session := by
      rw [hsession]
      apply h.session
    sets c k hk := by
      rw [hsets] at hk
      cases hk

theorem Call.Sound.found {call : Call} {c : ClientRef} (hc : c ∈ s.live)
    (hclient : call.client? = some c) (hsession : call.session? = none)
    (hsets : call.sets? = none) :
  call.Sound s
  where
    client d hd := by
      obtain rfl := Option.some.inj (hclient.symm.trans hd)
      apply hc
    session k hk := by
      rw [hsession] at hk
      cases hk
    sets d k hk := by
      rw [hsets] at hk
      cases hk

theorem getSession_eq_some {id : String} {k : ℕ} (h : s.getSession id = some k) :
  ∃ t, s.sessions[k]? = some t ∧ t.listed = true ∧ t.sessionId = id
  := by
  obtain ⟨hlt, ht, -⟩ := List.findIdx?_eq_some_iff_getElem.mp h
  simp only [Bool.and_eq_true, beq_iff_eq] at ht
  exact ⟨_, List.getElem?_eq_getElem hlt, ht.1, ht.2⟩

theorem lockable_of_getSession {id : String} {k : ℕ} (h : s.getSession id = some k) :
  s.lockable k = true
  := by
  obtain ⟨t, ht, hl, -⟩ := getSession_eq_some h
  rw [lockable, ht, Option.any_some, hl, Bool.true_or]

theorem mem_clientList_of_getClient {id : String} {c : ClientRef}
    (h : s.getClient id = some c) :
  c ∈ s.clientList
  := List.mem_of_find?_eq_some h

theorem sessionId_of_some {k : ℕ} {t : TransferSession} (ht : s.sessions[k]? = some t) :
  s.sessionId k = t.sessionId
  := by
  rw [sessionId, ht]
  rfl

theorem setSession_self {k : ℕ} {t : TransferSession} (ht : s.sessions[k]? = some t) :
  s.setSession k t = s
  := by
  obtain ⟨hlt, rfl⟩ := List.getElem?_eq_some_iff.mp ht
  rw [setSession, List.set_getElem_self hlt]

theorem getElem?_setSession {k : ℕ} {t : TransferSession} (ht : s.sessions[k]? = some t)
    (t' : TransferSession) (j : ℕ) :
  (s.setSession k t').sessions[j]? = if k = j then some t' else s.sessions[j]?
  := by
  have hk := (List.getElem?_eq_some_iff.mp ht).1
  rw [setSession, List.getElem?_set, if_pos hk]

theorem getElem?_append_of_some {t : TransferSession} {k : ℕ} (ht : s.sessions[k]? = some t)
    (ts : List TransferSession) :
  (s.sessions ++ ts)[k]? = some t
  := by
  rw [List.getElem?_append_left (List.getElem?_eq_some_iff.mp ht).1, ht]

/-- The call of `joinSession` succeeds. -/
def CanJoin (s : Server) (c : ClientRef) (k : ℕ) : Prop :=
  s.sessionId k ≠ "" ∧ s.joinedSession c = ""

instance (s : Server) (c : ClientRef) (k : ℕ) : Decidable (s.CanJoin c k) :=
  inferInstanceAs (Decidable (_ ∧ _))

/-- The state after a successful call of `joinSession`. -/
def withJoined (s : Server) (c : ClientRef) (k : ℕ) : Server :=
  { s with
    joinedSession := Function.update s.joinedSession c (s.sessionId k)
    joined := Function.update s.joined c (some k) }

theorem joinSession_eq (s : Server) (c : ClientRef) (k : ℕ) :
  s.joinSession c k (s.sessionId k) = if s.CanJoin c k then (s.withJoined c k, true) else (s, false)
  := by
  by_cases hid : s.sessionId k = ""
  · rw [joinSession, if_pos hid, if_neg (fun h => h.1 hid)]
  · by_cases hc : s.joinedSession c = ""
    · rw [joinSession, if_neg hid, if_neg (not_not.mpr hc), if_pos ⟨hid, hc⟩]
      rfl
    · rw [joinSession, if_neg hid, if_pos hc, if_neg (fun h => hc h.2)]

/-- The session that `TransferSessionList::create` makes. -/
def withSession (s : Server) (c : ClientRef) (auto : Bool) : Server :=
  { s with sessions := s.sessions ++ [TransferSession.create c auto] }

/-- What a call can do. -/
inductive Serves (config : Config) (s : Server) : Call → Server × (Call ⊕ Response) → Prop where
  | respond {call : Call} (response : Response) (h : call.adds? = none) :
      Serves config s call (s, .inr response)
  | next {call next : Call} (h : call.adds? = none) (hnext : next.Sound s)
      (hadds : next.adds? = none) :
      Serves config s call (s, .inl next)
  | enter (c : ClientRef) (k : ℕ) (t : TransferSession) (ht : s.sessions[k]? = some t)
      (ha : (t.addReceiver config.toConfig c).2 = true) :
      Serves config s (.joinAdd c k)
        (s.setSession k (t.addReceiver config.toConfig c).1, .inl (.joinSet c k))
  | create (c : ClientRef) (auto : Bool) :
      Serves config s (.createAdd c auto)
        (s.withSession c auto, .inl (.createSet c s.sessions.length))
  | join {call : Call} (c : ClientRef) (k : ℕ) (response : Response)
      (h : call.sets? = some (c, k)) (hcan : s.CanJoin c k) (hcode : response.code < 400) :
      Serves config s call (s.withJoined c k, .inr response)
  | refuse (c : ClientRef) (k : ℕ) (hcan : ¬ s.CanJoin c k) :
      Serves config s (.joinSet c k) (s, .inr ⟨500, "Couldn't join the session (2)"⟩)
  | fail (c : ClientRef) (k : ℕ) (hcan : ¬ s.CanJoin c k) :
      Serves config s (.createSet c k) (s, .inl (.createUndo c k))
  | undo (c : ClientRef) (k : ℕ) :
      Serves config s (.createUndo c k)
        (s.removeSession (s.sessionId k), .inr ⟨500, "Session creation failed"⟩)

theorem serves (config : Config) (h : s.Sound) (cookie : String) {call : Call}
    (hcall : call.Sound s) :
  Serves config s call (s.serve config cookie call)
  := by
  cases call with
  | join id? =>
      rw [serve.eq_def]
      dsimp only
      split
      · exact .respond _ rfl
      · exact .respond _ rfl
      · rename_i c id hc
        have hlive := h.clientList (mem_clientList_of_getClient hc)
        exact .next rfl (Call.Sound.found hlive rfl rfl rfl) rfl
  | joinFind c id =>
      rw [serve]
      split
      · exact .respond _ rfl
      · rename_i k hk
        refine .next rfl ⟨hcall.client, ?_, fun d j hj => by cases hj⟩ rfl
        intro j hj
        obtain rfl := Option.some.inj hj
        apply notMem_ended h (lockable_of_getSession hk)
  | joinTest c k =>
      rw [serve]
      split
      · exact .next rfl (hcall.next rfl rfl rfl) rfl
      · split <;> exact .respond _ rfl
  | joinRemoved c k =>
      rw [serve]
      split <;>
      · exact .next rfl (hcall.next rfl rfl rfl) rfl
  | joinMember c k =>
      rw [serve]
      split
      · exact .next rfl (hcall.next rfl rfl rfl) rfl
      · exact .respond _ rfl
  | joinAdd c k =>
      simp only [serve]
      split
      · exact .respond _ rfl
      · rename_i t ht
        cases ha : (t.addReceiver config.toConfig c).2 with
        | false =>
            have hsame : t.addReceiver config.toConfig c = (t, false) := by
              ext1
              · apply TransferSession.addReceiver_of_false ha
              · apply ha
            rw [hsame]
            simp only [setSession_self ht]
            exact .respond _ rfl
        | true =>
            have hpair : t.addReceiver config.toConfig c
                = ((t.addReceiver config.toConfig c).1, true) := by
              rw [← ha]
            rw [hpair]
            exact .enter c k t ht ha
  | joinSet c k =>
      simp only [serve, joinSession_eq]
      by_cases hcan : s.CanJoin c k
      · rw [if_pos hcan]
        exact .join c k _ rfl hcan (by simp)
      · rw [if_neg hcan]
        exact .refuse c k hcan
  | create body =>
      rw [serve]
      split
      · exact .respond _ rfl
      · rename_i c hc
        have hlive := h.clientList (mem_clientList_of_getClient hc)
        exact .next rfl (Call.Sound.found hlive rfl rfl rfl) rfl
  | createTest c body =>
      rw [serve]
      split
      · exact .next rfl (hcall.next rfl rfl rfl) rfl
      · exact .respond _ rfl
  | createLimit c body =>
      rw [serve.eq_def]
      dsimp only
      split
      · cases body with
        | invalid => exact .respond _ rfl
        | notBoolean => exact .respond _ rfl
        | options auto =>
            exact .next rfl (hcall.next rfl rfl rfl) rfl
      · exact .respond _ rfl
  | createAdd c auto =>
      simp only [serve, createSession]
      split
      · exact .respond _ rfl
      · rename_i s' hs'
        split at hs'
        · cases hs'
        · obtain rfl := Option.some.inj hs'
          exact .create c auto
  | createSet c k =>
      simp only [serve, joinSession_eq]
      by_cases hcan : s.CanJoin c k
      · rw [if_pos hcan]
        exact .join c k _ rfl hcan (by simp)
      · rw [if_neg hcan]
        exact .fail c k hcan
  | createUndo c k => exact .undo c k

end Server

import PutInPipe.Session.Control
import PutInPipe.Server.Lemmas
import PutInPipe.Server.Messages

/-!
# Who belongs to a session

The members of a listed session have joined it and it alone, those that exist are listed, and a
client that was told to acknowledge an event is a receiver of no session. `Sound` is the
invariant, which every step keeps as long as no client is made with a public id another client
has.
-/

open TransferSessionDetails

namespace TransferSession

variable {config : Config} {s t : TransferSession}

/-! ### Steps that let nobody in -/

/-- Moreover nobody comes back to life, and a session that is off the list stays off it. -/
structure Evolves (s t : TransferSession) : Prop extends Narrows s t where
  alive : ∀ c, t.alive c = true → s.alive c = true
  listed : t.listed = true → s.listed = true

theorem Evolves.refl (s : TransferSession) :
  s.Evolves s
  := ⟨(SameMembers.refl s).narrows, fun _ => id, id⟩

theorem Evolves.trans {u : TransferSession} (h : s.Evolves t) (h' : t.Evolves u) :
  s.Evolves u
  where
    toNarrows := h.toNarrows.trans h'.toNarrows
    alive c hc := h.alive c (h'.alive c hc)
    listed hl := h.listed (h'.listed hl)

theorem departs_evolves :
  Departs Evolves
  where
    refl := .refl
    trans := .trans
    without s publicId := by
      rw [notifyRemoved_eq]
      refine ⟨⟨rfl, rfl, List.filter_subset_self _, ?_⟩, fun _ => id, id⟩
      change (s.buffer.removeOneFromExpectedConsumers publicId).1.expectedConsumers ⊆ _
      rw [Buffer.expectedConsumers_removeOne]
      apply Finset.erase_subset _ _
    kicked s c := ⟨⟨rfl, rfl, List.Subset.refl _, Finset.Subset.refl _⟩, fun _ => id, id⟩
    receiverRemoved s publicId :=
      ⟨⟨rfl, rfl, List.Subset.refl _, Finset.Subset.refl _⟩, fun _ => id, id⟩
    expire s c := by
      refine ⟨⟨rfl, rfl, List.Subset.refl _, Finset.Subset.refl _⟩, fun d hd => ?_, id⟩
      apply (alive_expire.mp hd).2
    terminate s type := by
      refine ⟨⟨rfl, rfl, List.Subset.refl _, Finset.Subset.refl _⟩, fun _ => id, fun hl => ?_⟩
      cases hl

theorem Evolves.finish (h : s.Evolves t) :
  s.Evolves t.finish
  := by
  rw [TransferSession.finish]
  split
  · apply h
  · exact ⟨⟨h.dataSender, h.subscribers, h.dataReceivers, h.expectedConsumers⟩, h.alive, h.listed⟩

theorem evolves_step (config : Config) (s : TransferSession) {op : Op}
    (hop : ∀ c, op ≠ .addReceiver c) :
  s.Evolves (s.step config op)
  := by
  by_cases happlied : s.listed = true ∧ s.enabled op = true
  · rw [step_of_enabled happlied.1 happlied.2]
    apply Evolves.finish
    cases hkeeps : op.keepsMembers with
    | true =>
        have hsame := sameMembers_apply config s hkeeps
        refine ⟨hsame.narrows, fun c hc => ?_, fun _ => happlied.1⟩
        rwa [hsame.alive] at hc
    | false =>
        cases op with
        | addReceiver c => exact absurd rfl (hop c)
        | removeReceiver publicId => exact departs_evolves.removeReceiver publicId s
        | destroyClient c => exact departs_evolves.destroyClient c s
        | _ => cases hkeeps
  · rw [step_of_not_enabled happlied]
    exact .refl s

theorem alive_destroyClient (s : TransferSession) (c : ClientRef) :
  (s.destroyClient c).alive c = false
  := by
  apply Bool.eq_false_of_not_eq_true
  intro halive
  have hexpired : (s.expire c).alive c = true := by
    rw [destroyClient] at halive
    obtain ⟨type, listed, heq⟩ | heq := destroyWith_cases removeReceiver s c
    · rwa [heq] at halive
    · rw [heq] at halive
      apply (departs_evolves.removeReceiver c.publicId _).alive c halive
  apply (alive_expire.mp hexpired).1 rfl

/-- What letting a client in changes of the members. -/
theorem step_addReceiver (config : Config) (s : TransferSession) (c : ClientRef) :
  (s.step config (.addReceiver c)).dataSender = s.dataSender
    ∧ (s.step config (.addReceiver c)).destroyed = s.destroyed
    ∧ (∀ d ∈ (s.step config (.addReceiver c)).subscribers, d ∈ s.subscribers ∨ d = c)
    ∧ ∀ d ∈ (s.step config (.addReceiver c)).dataReceivers, d ∈ s.dataReceivers ∨ d = c
  := by
  by_cases happlied : s.listed = true ∧ s.enabled (.addReceiver c) = true
  · have hfinish : (s.step config (.addReceiver c)) = (s.addReceiver config c).1.finish :=
      step_of_enabled happlied.1 happlied.2
    cases ha : (s.addReceiver config c).2 with
    | false =>
        rw [hfinish, addReceiver_of_false ha, finish_of_listed happlied.1]
        exact ⟨rfl, rfl, fun _ => .inl, fun _ => .inl⟩
    | true =>
        rw [hfinish, (addReceiver_of_true ha).2, finish_of_listed (by exact happlied.1)]
        refine ⟨rfl, rfl, fun d => mem_addSubscriber.mp, fun d hd => ?_⟩
        apply (List.mem_append.mp hd).imp_right List.mem_singleton.mp
  · rw [step_of_not_enabled happlied]
    exact ⟨rfl, rfl, fun _ => .inl, fun _ => .inl⟩

/-- A listed session knows that a client is destroyed. -/
theorem alive_step_destroyClient (config : Config) (hl : s.listed = true) (c : ClientRef) :
  (s.step config (.destroyClient c)).alive c = false
  := by
  cases hbefore : s.alive c with
  | true =>
      have he : s.enabled (.destroyClient c) = true := hbefore
      rw [step_of_enabled hl he, TransferSession.finish]
      split
      · apply alive_destroyClient s c
      · apply alive_destroyClient s c
  | false =>
      rw [step_of_not_enabled]
      · apply hbefore
      · rintro ⟨-, halive⟩
        rw [enabled, hbefore] at halive
        cases halive

theorem intact_step_destroyClient (hs : WhileListed (Governed config) s) {c : ClientRef}
    (hne : s.listed = true → s.alive s.dataSender = true → c ≠ s.dataSender)
    (hc : s.listed = true → s.alive s.dataSender = true →
      ∀ d ∈ s.dataReceivers, d.publicId ≠ c.publicId) :
  s.Intact (s.step config (.destroyClient c))
  := by
  by_cases happlied : s.listed = true ∧ s.enabled (.destroyClient c) = true
  · rw [step_of_enabled happlied.1 happlied.2]
    apply Intact.finish
    apply (hs happlied.1).intact_destroyClient happlied.1 (hne happlied.1) (hc happlied.1)
  · rw [step_of_not_enabled happlied]
    exact .refl s

end TransferSession

theorem ClientState.joinedSession_setName (client : ClientState) (name : String) :
  (client.setName name).joinedSession = client.joinedSession
  := by
  rw [setName]
  split_ifs
  · rfl
  · rfl
  · rfl

theorem ClientState.pendingAcks_setName (client : ClientState) (name : String) :
  (client.setName name).pendingAcks = client.pendingAcks
  := by
  rw [setName]
  split_ifs
  · rfl
  · rfl
  · rfl

namespace WebAPI

variable {config : Server.Config} {load : Bytes → Option Rvalue} {s s' : WebAPI}

theorem getSession_eq_some {id : String} {k : ℕ} (h : s.getSession id = some k) :
  ∃ t, s.sessions[k]? = some t ∧ t.listed = true ∧ t.sessionId = id
  := by
  obtain ⟨hlt, ht, -⟩ := List.findIdx?_eq_some_iff_getElem.mp h
  simp only [Bool.and_eq_true, beq_iff_eq] at ht
  exact ⟨_, List.getElem?_eq_getElem hlt, ht.1, ht.2⟩

theorem getSession_eq_none {id : String} (h : s.getSession id = none) :
  ∀ t ∈ s.sessions, t.listed = true → t.sessionId ≠ id
  := by
  intro t ht hl hid
  have hno := List.findIdx?_eq_none_iff.mp h t ht
  simp [hl, hid] at hno

theorem getClient_eq_some {id : String} {c : ClientRef} (h : s.getClient id = some c) :
  c ∈ s.clientList ∧ c.id = id
  := ⟨List.mem_of_find?_eq_some h, by simpa using List.find?_some h⟩

theorem identified_eq_some {cookie : String} {c : ClientRef}
    (h : s.identified cookie = some c) :
  c ∈ s.clientList
  := by
  rw [identified] at h
  split at h
  · cases h
  · apply (getClient_eq_some h).1

/-! ### Steps that let nobody in -/

/-- No session gets a new member, and the clients have joined what they had. -/
structure Evolves (s s' : WebAPI) : Prop where
  sessions : ∀ {k : ℕ} {t' : TransferSession}, s'.sessions[k]? = some t' →
    ∃ t, s.sessions[k]? = some t ∧ t.Evolves t'
  joined : ∀ c, (s'.client c).joinedSession = (s.client c).joinedSession

theorem Evolves.exists_mem (h : s.Evolves s') {t' : TransferSession} (ht' : t' ∈ s'.sessions) :
  ∃ t ∈ s.sessions, t.Evolves t'
  := by
  obtain ⟨k, hk⟩ := List.getElem?_of_mem ht'
  obtain ⟨t, ht, hevolves⟩ := h.sessions hk
  exact ⟨t, List.mem_of_getElem? ht, hevolves⟩

theorem sessionId_of_evolves {t t' : TransferSession} (h : t.Evolves t') :
  t'.sessionId = t.sessionId
  := by
  rw [TransferSession.sessionId, h.dataSender, TransferSession.sessionId]

theorem evolves_onSessions (config : Server.Config) (s : WebAPI) {op : TransferSession.Op}
    (hop : ∀ c, op ≠ .addReceiver c) :
  s.Evolves (s.onSessions config op)
  where
    sessions {k t'} ht' := by
      rw [onSessions, List.getElem?_map] at ht'
      obtain ⟨t, ht, rfl⟩ := Option.map_eq_some_iff.mp ht'
      exact ⟨t, ht, TransferSession.evolves_step _ t hop⟩
    joined _ := rfl

theorem client_setClient (s : WebAPI) (c : ClientRef) (client : ClientState) (d : ClientRef) :
  (s.setClient c client).client d = if d = c then client else s.client d
  := Function.update_apply s.client c client d

theorem joinedSession_setClient {c : ClientRef} {client : ClientState}
    (h : client.joinedSession = (s.client c).joinedSession) (d : ClientRef) :
  ((s.setClient c client).client d).joinedSession = (s.client d).joinedSession
  := by
  rw [client_setClient]
  split
  · rename_i heq
    rw [heq, h]
  · rfl

theorem evolves_setClient {c : ClientRef} {client : ClientState}
    (h : client.joinedSession = (s.client c).joinedSession) :
  s.Evolves (s.setClient c client)
  where
    sessions ht := ⟨_, ht, .refl _⟩
    joined := joinedSession_setClient h

/-- A method of a session is called. -/
def withStep (config : Server.Config) (s : WebAPI) (k : ℕ) (t : TransferSession)
    (op : TransferSession.Op) : WebAPI :=
  { s with sessions := s.sessions.set k (t.step config.toConfig op) }

theorem getElem?_withStep {k : ℕ} {t : TransferSession} (ht : s.sessions[k]? = some t)
    (op : TransferSession.Op) (j : ℕ) :
  (s.withStep config k t op).sessions[j]?
    = if k = j then some (t.step config.toConfig op) else s.sessions[j]?
  := by
  rw [withStep, List.getElem?_set, if_pos (List.getElem?_eq_some_iff.mp ht).1]

theorem evolves_withStep {k : ℕ} {t : TransferSession} (ht : s.sessions[k]? = some t)
    {op : TransferSession.Op} (hop : ∀ c, op ≠ .addReceiver c) :
  s.Evolves (s.withStep config k t op)
  where
    sessions {j t'} ht' := by
      rw [getElem?_withStep ht] at ht'
      split at ht'
      · rename_i hk
        obtain rfl := Option.some.inj ht'
        exact ⟨t, hk ▸ ht, TransferSession.evolves_step _ t hop⟩
      · exact ⟨t', ht', .refl t'⟩
    joined _ := rfl

/-! ### The invariant -/

/-- The client has joined a session, and is a receiver of none. -/
def Dismissed (s : WebAPI) (c : ClientRef) : Prop :=
  (s.client c).joinedSession ≠ "" ∧ ∀ t ∈ s.sessions, t.listed = true → c ∉ t.dataReceivers

theorem Dismissed.evolve {c : ClientRef} (hc : s.Dismissed c) (h : s.Evolves s') :
  s'.Dismissed c
  := by
  refine ⟨by rw [h.joined]; exact hc.1, fun t' ht' hl hmem => ?_⟩
  obtain ⟨t, ht, hevolves⟩ := h.exists_mem ht'
  apply hc.2 t ht (hevolves.listed hl) (hevolves.dataReceivers hmem)

/-- What holds of the server when no two clients have had one public id. -/
structure Sound (config : Server.Config) (s : WebAPI) : Prop where
  ids : (s.clientList.map ClientRef.id).Nodup
  publicIds : (s.clientList.map ClientRef.publicId).Nodup
  governed : ∀ t ∈ s.sessions, TransferSession.WhileListed (·.Governed config.toConfig) t
  named : ∀ t ∈ s.sessions, t.listed = true → t.sessionId ≠ ""
  joined : ∀ t ∈ s.sessions, t.listed = true → ∀ c ∈ t.subscribers,
    (s.client c).joinedSession = t.sessionId
  present : ∀ t ∈ s.sessions, t.listed = true → ∀ c ∈ t.subscribers,
    t.alive c = true → c ∈ s.clientList
  single : ∀ {i j : ℕ} {t u : TransferSession}, s.sessions[i]? = some t → s.sessions[j]? = some u → t.listed = true →
    u.listed = true → t.sessionId = u.sessionId → i = j
  pending : ∀ c, (s.client c).pendingAcks ≠ [] → s.Dismissed c

namespace Sound

theorem init :
  ({} : WebAPI).Sound config
  where
    ids := List.nodup_nil
    publicIds := List.nodup_nil
    governed _ ht := by cases ht
    named _ ht := by cases ht
    joined _ ht := by cases ht
    present _ ht := by cases ht
    single ht := by cases ht
    pending _ hc := absurd rfl hc

theorem eq_of_id (h : s.Sound config) {c d : ClientRef} (hc : c ∈ s.clientList)
    (hd : d ∈ s.clientList) (heq : c.id = d.id) :
  c = d
  := List.inj_on_of_nodup_map h.ids hc hd heq

theorem eq_of_publicId (h : s.Sound config) {c d : ClientRef} (hc : c ∈ s.clientList)
    (hd : d ∈ s.clientList) (heq : c.publicId = d.publicId) :
  c = d
  := List.inj_on_of_nodup_map h.publicIds hc hd heq

theorem getClient (h : s.Sound config) {c : ClientRef} (hc : c ∈ s.clientList) :
  s.getClient c.id = some c
  := by
  cases hget : s.getClient c.id with
  | none =>
      rw [WebAPI.getClient, List.find?_eq_none] at hget
      exact absurd (beq_self_eq_true c.id) (hget c hc)
  | some d =>
      obtain ⟨hd, hid⟩ := getClient_eq_some hget
      rw [h.eq_of_id hd hc hid]

/-- A client belongs to one session. -/
theorem eq_of_mem (h : s.Sound config) {i j : ℕ} {t u : TransferSession}
    (ht : s.sessions[i]? = some t) (hu : s.sessions[j]? = some u) (htl : t.listed = true)
    (hul : u.listed = true) {c : ClientRef} (hct : c ∈ t.subscribers) (hcu : c ∈ u.subscribers) :
  i = j
  := by
  apply h.single ht hu htl hul
  rw [← h.joined t (List.mem_of_getElem? ht) htl c hct,
    h.joined u (List.mem_of_getElem? hu) hul c hcu]

/-! #### Steps that let nobody in -/

theorem evolve (h : s.Sound config) (hevolves : s.Evolves s')
    (hlist : s'.clientList.Sublist s.clientList)
    (hgoverned : ∀ t ∈ s'.sessions, TransferSession.WhileListed (·.Governed config.toConfig) t)
    (hpresent : ∀ t ∈ s'.sessions, t.listed = true → ∀ c ∈ t.subscribers,
      t.alive c = true → c ∈ s'.clientList)
    (hpending : ∀ c, (s'.client c).pendingAcks ≠ [] → (s.client c).pendingAcks ≠ []
      ∨ s.Dismissed c) :
  s'.Sound config
  := by
  refine ⟨h.ids.sublist (hlist.map _), h.publicIds.sublist (hlist.map _), hgoverned, ?_, ?_,
    hpresent, ?_, ?_⟩
  · intro t' ht' hl
    obtain ⟨t, ht, hstep⟩ := hevolves.exists_mem ht'
    rw [sessionId_of_evolves hstep]
    apply h.named t ht (hstep.listed hl)
  · intro t' ht' hl c hc
    obtain ⟨t, ht, hstep⟩ := hevolves.exists_mem ht'
    rw [hevolves.joined, sessionId_of_evolves hstep]
    rw [hstep.subscribers] at hc
    apply h.joined t ht (hstep.listed hl) c hc
  · intro i j t' u' ht' hu' htl hul heq
    obtain ⟨t, ht, hstep⟩ := hevolves.sessions ht'
    obtain ⟨u, hu, hstep'⟩ := hevolves.sessions hu'
    rw [sessionId_of_evolves hstep, sessionId_of_evolves hstep'] at heq
    apply h.single ht hu (hstep.listed htl) (hstep'.listed hul) heq
  · intro c hc
    have hdismissed : s.Dismissed c := (hpending c hc).elim (h.pending c) id
    apply hdismissed.evolve hevolves

/-- Where no client leaves, the members that exist are still listed. -/
theorem present_of_evolves (h : s.Sound config) (hevolves : s.Evolves s') {t' : TransferSession}
    (ht' : t' ∈ s'.sessions) (hl : t'.listed = true) {c : ClientRef} (hc : c ∈ t'.subscribers)
    (halive : t'.alive c = true) :
  c ∈ s.clientList
  := by
  obtain ⟨t, ht, hstep⟩ := hevolves.exists_mem ht'
  rw [hstep.subscribers] at hc
  apply h.present t ht (hstep.listed hl) c hc (hstep.alive c halive)

/-- A client changes, but not what it has joined. -/
theorem setClient (h : s.Sound config) {c : ClientRef} {client : ClientState}
    (hjoined : client.joinedSession = (s.client c).joinedSession)
    (hpending : client.pendingAcks ≠ [] → (s.client c).pendingAcks ≠ [] ∨ s.Dismissed c) :
  (s.setClient c client).Sound config
  := by
  refine h.evolve (evolves_setClient hjoined) (.refl _) h.governed h.present fun d hd => ?_
  rw [client_setClient] at hd
  split at hd
  · rename_i heq
    rw [heq]
    apply hpending hd
  · exact .inl hd

theorem onSessions (h : s.Sound config) {op : TransferSession.Op}
    (hop : ∀ c, op ≠ .addReceiver c) (horder : ∀ t : TransferSession, t.Orderly op) :
  (s.onSessions config op).Sound config
  := by
  have hevolves := evolves_onSessions config s hop
  refine h.evolve hevolves (.refl _) ?_ (fun t' => h.present_of_evolves hevolves) fun _ => .inl
  intro t' ht'
  obtain ⟨t, ht, rfl⟩ := List.mem_map.mp ht'
  apply TransferSession.Governed.step (h.governed t ht) fun _ _ => horder t

theorem withStep (h : s.Sound config) {k : ℕ} {t : TransferSession}
    (ht : s.sessions[k]? = some t) {op : TransferSession.Op} (hop : ∀ c, op ≠ .addReceiver c)
    (horder : TransferSession.WhenApplied TransferSession.Orderly t op) :
  (s.withStep config k t op).Sound config
  := by
  have hevolves : s.Evolves (s.withStep config k t op) := evolves_withStep ht hop
  refine h.evolve hevolves (.refl _) ?_ (fun t' => h.present_of_evolves hevolves) fun _ => .inl
  intro t' ht'
  obtain hmem | rfl := List.mem_or_eq_of_mem_set ht'
  · apply h.governed t' hmem
  · apply TransferSession.Governed.step (h.governed t (List.mem_of_getElem? ht)) horder

theorem removeClient (h : s.Sound config) (id : String) :
  (s.removeClient config id).Sound config
  := by
  rw [WebAPI.removeClient]
  cases hget : s.getClient id with
  | none => exact h
  | some c =>
      have hsound : (s.onSessions config (.destroyClient c)).Sound config :=
        h.onSessions (by simp) fun _ => trivial
      refine ⟨h.ids.sublist (List.erase_sublist.map _),
        h.publicIds.sublist (List.erase_sublist.map _), hsound.governed, hsound.named,
        hsound.joined, ?_, hsound.single, hsound.pending⟩
      intro t' ht' hl d hd halive
      apply (List.mem_erase_of_ne _).mpr (hsound.present t' ht' hl d hd halive)
      rintro rfl
      obtain ⟨t, ht, rfl⟩ := List.mem_map.mp ht'
      have hevolves : t.Evolves (t.step config.toConfig (.destroyClient d)) :=
        TransferSession.evolves_step _ t (by simp)
      rw [TransferSession.alive_step_destroyClient config.toConfig (hevolves.listed hl)] at halive
      cases halive

theorem sendTextWithAck (h : s.Sound config) (connected : Bool) {c : ClientRef}
    (hc : s.Dismissed c) :
  (s.sendTextWithAck config connected c).Sound config
  := by
  rw [WebAPI.sendTextWithAck]
  split
  · exact h.setClient rfl fun _ => .inr hc
  · apply Sound.removeClient
    exact h.setClient rfl .inl

theorem processAck (h : s.Sound config) (c : ClientRef) (ackId : ℕ) :
  (s.processAck config c ackId).Sound config
  := by
  rw [WebAPI.processAck]
  split
  · rename_i hmem
    apply Sound.removeClient
    exact h.setClient rfl fun _ => .inl (List.ne_nil_of_mem hmem)
  · exact h

/-! #### Methods of a session -/

/-- A receiver that is kicked is a receiver of no session any more. -/
theorem dismissed_of_removedClient (h : s.Sound config) {k : ℕ} {t : TransferSession}
    (ht : s.sessions[k]? = some t) (hl : t.listed = true) {publicId : String} {c : ClientRef}
    (hc : t.removedClient publicId = some c) :
  (s.withStep config k t (.removeReceiver publicId)).Dismissed c
  := by
  obtain ⟨hmem, -, rfl⟩ := TransferSession.removedClient_eq_some hc
  have hsubscribed := (h.governed t (List.mem_of_getElem? ht) hl).consistent.receivers_mem c hmem
  constructor
  · change (s.client c).joinedSession ≠ ""
    rw [h.joined t (List.mem_of_getElem? ht) hl c hsubscribed]
    apply h.named t (List.mem_of_getElem? ht) hl
  · intro u hu hul hreceives
    obtain ⟨j, hj⟩ := List.getElem?_of_mem hu
    rw [getElem?_withStep ht] at hj
    split at hj
    · obtain rfl := Option.some.inj hj
      have he : t.enabled (.removeReceiver c.publicId) = true := rfl
      rw [TransferSession.step_of_enabled hl he, TransferSession.finish] at hreceives
      have hremaining : c ∈ t.remaining c.publicId := by
        rw [← TransferSession.dataReceivers_removeReceiver]
        split at hreceives
        · apply hreceives
        · apply hreceives
      apply (TransferSession.mem_remaining.mp hremaining).2.2 rfl
    · rename_i hne
      have hother := (h.governed u (List.mem_of_getElem? hj) hul).consistent.receivers_mem c
        hreceives
      apply hne (h.eq_of_mem ht hj hl hul hsubscribed hother)

end Sound

theorem perform_of_none {k : ℕ} (h : s.sessions[k]? = none) (op : TransferSession.Op) :
  s.perform config k op = s
  := by
  rw [perform, h]

theorem perform_of_spared {k : ℕ} {t : TransferSession} (ht : s.sessions[k]? = some t)
    {op : TransferSession.Op} (hop : t.kickedBy op = none) :
  s.perform config k op = s.withStep config k t op
  := by
  rw [perform, ht]
  simp only [hop, ite_self]
  rfl

theorem perform_of_kicked {k : ℕ} {t : TransferSession} (ht : s.sessions[k]? = some t)
    (hl : t.listed = true) {op : TransferSession.Op} {c : ClientRef}
    (hop : t.kickedBy op = some c) :
  s.perform config k op
    = (s.withStep config k t op).sendTextWithAck config (decide (c ∈ t.connected)) c
  := by
  rw [perform, ht]
  simp only [hop, hl, if_true]
  rfl

theorem perform_of_unlisted {k : ℕ} {t : TransferSession} (ht : s.sessions[k]? = some t)
    (hl : t.listed = false) (op : TransferSession.Op) :
  s.perform config k op = s.withStep config k t op
  := by
  rw [perform, ht]
  simp only [hl, Bool.false_eq_true, if_false]
  rfl

/-- The operations that handlers and timers call directly, other than `addReceiver`. -/
def calledDirectly : TransferSession.Op → Bool
  | .addReceiver _ | .destroyClient _ => false
  | _ => true

namespace Sound

theorem perform (h : s.Sound config) {k : ℕ} {op : TransferSession.Op}
    (hop : calledDirectly op = true)
    (horder : ∀ t, s.sessions[k]? = some t →
      TransferSession.WhenApplied TransferSession.Orderly t op) :
  (s.perform config k op).Sound config
  := by
  cases ht : s.sessions[k]? with
  | none =>
      rw [perform_of_none ht]
      apply h
  | some t =>
      have hadd : ∀ c, op ≠ .addReceiver c := by
        rintro c rfl
        cases hop
      have hsound := h.withStep ht hadd (horder t ht)
      cases hl : t.listed with
      | false =>
          rw [perform_of_unlisted ht hl]
          apply hsound
      | true =>
          cases hkick : t.kickedBy op with
          | none =>
              rw [perform_of_spared ht hkick]
              apply hsound
          | some c =>
              rw [perform_of_kicked ht hl hkick]
              apply hsound.sendTextWithAck
              cases op with
              | removeReceiver publicId => exact h.dismissed_of_removedClient ht hl hkick
              | addReceiver d => cases hop
              | destroyClient d => cases hop
              | _ => cases hkick

/-! #### Clients come in -/

theorem internalCreateClient (h : s.Sound config) {id : String}
    (hfresh : s.getClient id = none → ∀ c ∈ s.clientList, c.publicId ≠ config.sign id)
    (name : String) :
  (s.internalCreateClient config id name).1.Sound config
  := by
  rw [WebAPI.internalCreateClient]
  split
  · apply h
  · rename_i hnone
    rw [Bool.not_eq_true, Option.isSome_eq_false_iff, Option.isNone_iff_eq_none] at hnone
    have hids : ∀ c ∈ s.clientList, c.id ≠ id := by
      intro c hc heq
      rw [WebAPI.getClient, List.find?_eq_none] at hnone
      apply hnone c hc (by simpa using heq)
    have hlisted : WebAPI.Sound config { s with
        clients := s.clients ++ [⟨s.clients.length, id, config.sign id⟩]
        clientList := s.clientList ++ [⟨s.clients.length, id, config.sign id⟩] } := by
      refine ⟨?_, ?_, h.governed, h.named, h.joined, ?_, h.single, h.pending⟩
      · rw [List.map_append, List.nodup_append]
        refine ⟨h.ids, List.nodup_singleton _, ?_⟩
        rintro x hx _ hy rfl
        obtain ⟨c, hc, rfl⟩ := List.mem_map.mp hx
        apply hids c hc (List.mem_singleton.mp hy)
      · rw [List.map_append, List.nodup_append]
        refine ⟨h.publicIds, List.nodup_singleton _, ?_⟩
        rintro x hx _ hy rfl
        obtain ⟨c, hc, rfl⟩ := List.mem_map.mp hx
        apply hfresh hnone c hc (List.mem_singleton.mp hy)
      · intro t ht hl c hc halive
        apply List.mem_append_left _ (h.present t ht hl c hc halive)
    apply hlisted.setClient (ClientState.joinedSession_setName _ name)
    rw [ClientState.pendingAcks_setName]
    exact .inl

/-- A client that has joined nothing belongs to no listed session. -/
theorem notMem_of_joined (h : s.Sound config) {c : ClientRef}
    (hc : (s.client c).joinedSession = "") {t : TransferSession} (ht : t ∈ s.sessions)
    (hl : t.listed = true) :
  c ∉ t.subscribers
  := by
  intro hmem
  apply h.named t ht hl
  rw [← h.joined t ht hl c hmem, hc]

end Sound

/-- A listed session that may be there after the client has joined the session with the id. -/
structure Admits (config : Server.Config) (s : WebAPI) (c : ClientRef) (id : String)
    (t : TransferSession) : Prop where
  governed : t.Governed config.toConfig
  named : t.sessionId ≠ ""
  joined : ∀ d ∈ t.subscribers,
    d = c ∧ t.sessionId = id ∨ d ≠ c ∧ (s.client d).joinedSession = t.sessionId
  present : ∀ d ∈ t.subscribers, t.alive d = true → d ∈ s.clientList
  received : ∀ d ∈ t.dataReceivers,
    d = c ∨ ∃ u ∈ s.sessions, u.listed = true ∧ d ∈ u.dataReceivers

namespace Sound

/-- A session that goes on as it is. -/
theorem admits (h : s.Sound config) {c : ClientRef} (hc : (s.client c).joinedSession = "")
    (id : String) {t : TransferSession} (ht : t ∈ s.sessions) (hl : t.listed = true) :
  s.Admits config c id t
  where
    governed := h.governed t ht hl
    named := h.named t ht hl
    joined d hd := by
      refine .inr ⟨?_, h.joined t ht hl d hd⟩
      rintro rfl
      apply h.notMem_of_joined hc ht hl hd
    present := h.present t ht hl
    received d hd := .inr ⟨t, ht, hl, hd⟩

/-- A session appears or gets a member: the client joins it. -/
theorem enter (h : s.Sound config) {c : ClientRef} (hc : (s.client c).joinedSession = "")
    {id : String} {sessions : List TransferSession}
    (hsessions : ∀ t ∈ sessions, t.listed = true → s.Admits config c id t)
    (hsingle : ∀ {i j : ℕ} {t u : TransferSession}, sessions[i]? = some t →
      sessions[j]? = some u → t.listed = true → u.listed = true → t.sessionId = u.sessionId →
        i = j) :
  ({ s with sessions := sessions }.setClient c
    { s.client c with joinedSession := id }).Sound config
  := by
  refine ⟨h.ids, h.publicIds, fun t ht hl => (hsessions t ht hl).governed,
    fun t ht hl => (hsessions t ht hl).named, ?_, fun t ht hl => (hsessions t ht hl).present,
    hsingle, ?_⟩
  · intro t ht hl d hd
    rw [client_setClient]
    obtain ⟨rfl, heq⟩ | ⟨hne, heq⟩ := (hsessions t ht hl).joined d hd
    · rw [if_pos rfl, heq]
    · rw [if_neg hne, heq]
  · intro d hd
    rw [client_setClient] at hd
    have hpending : (s.client d).pendingAcks ≠ [] := by
      split at hd
      · rename_i heq
        rw [heq]
        apply hd
      · apply hd
    obtain ⟨hjoined, hreceives⟩ := h.pending d hpending
    have hne : d ≠ c := by
      rintro rfl
      apply hjoined hc
    refine ⟨?_, fun t ht hl hmem => ?_⟩
    · rw [client_setClient, if_neg hne]
      apply hjoined
    · obtain rfl | ⟨u, hu, hul, hmem⟩ := (hsessions t ht hl).received d hmem
      · apply hne rfl
      · apply hreceives u hu hul hmem

theorem create (h : s.Sound config) {c : ClientRef} (hlisted : c ∈ s.clientList)
    (hjoined : (s.client c).joinedSession = "") (hid : c.publicId ≠ "")
    (hfree : ∀ t ∈ s.sessions, t.listed = true → t.sessionId ≠ c.publicId) (auto : Bool) :
  ({ s with sessions := s.sessions ++ [TransferSession.create c auto] }.setClient c
    { s.client c with joinedSession := c.publicId }).Sound config
  := by
  have hnew : ∀ {i : ℕ} {t : TransferSession},
      (s.sessions ++ [TransferSession.create c auto])[i]? = some t →
        s.sessions[i]? = some t ∨ i = s.sessions.length ∧ t.sessionId = c.publicId := by
    intro i t ht
    rw [List.getElem?_append] at ht
    split at ht
    · exact .inl ht
    · rw [List.getElem?_singleton] at ht
      split at ht
      · obtain rfl := Option.some.inj ht
        exact .inr ⟨by omega, rfl⟩
      · cases ht
  apply h.enter hjoined
  · intro t ht hl
    obtain ht | ht := List.mem_append.mp ht
    · apply h.admits hjoined c.publicId ht hl
    · obtain rfl := List.mem_singleton.mp ht
      refine ⟨.create _ c auto, hid, fun d hd => .inl ⟨?_, rfl⟩, fun d hd _ => ?_, fun d hd => ?_⟩
      · apply List.mem_singleton.mp hd
      · rw [List.mem_singleton.mp hd]
        apply hlisted
      · cases hd
  · intro i j t u ht hu htl hul heq
    obtain ht | ⟨rfl, hti⟩ := hnew ht
    · obtain hu | ⟨rfl, hui⟩ := hnew hu
      · apply h.single ht hu htl hul heq
      · exact absurd (heq.trans hui) (hfree t (List.mem_of_getElem? ht) htl)
    · obtain hu | ⟨rfl, -⟩ := hnew hu
      · exact absurd (heq.symm.trans hti) (hfree u (List.mem_of_getElem? hu) hul)
      · rfl

theorem sessionCreate (h : s.Sound config) (cookie : String) (body : Server.Body) :
  (s.sessionCreate config cookie body).1.Sound config
  := by
  rw [WebAPI.sessionCreate]
  cases hc : s.identified cookie with
  | none => exact h
  | some c =>
      have hlisted := identified_eq_some hc
      by_cases hjoined : (s.client c).joinedSession = ""
      · simp only [hjoined, ne_eq, not_true_eq_false, if_false]
        split
        · apply h
        · cases body with
          | invalid => exact h
          | notBoolean => exact h
          | options auto =>
              cases hfound : s.getSession c.publicId with
              | some k => exact h
              | none =>
                  by_cases hid : c.publicId = ""
                  · simpa [joinSession, hid] using h
                  · have hfree := getSession_eq_none hfound
                    simp only [joinSession, hid, hjoined, Option.isSome_none, Bool.false_eq_true,
                      if_false, ne_eq, not_true_eq_false]
                    apply h.create hlisted hjoined hid hfree auto
      · simpa [hjoined] using h

/-- A client that has joined nothing is let in by a session, and joins it. -/
theorem join (h : s.Sound config) {c : ClientRef} (hlisted : c ∈ s.clientList)
    (hjoined : (s.client c).joinedSession = "") {k : ℕ} {t : TransferSession}
    (ht : s.sessions[k]? = some t) (hl : t.listed = true)
    (hadded : (t.addReceiver config.toConfig c).2 = true) :
  ((s.withStep config k t (.addReceiver c)).setClient c
    { s.client c with joinedSession := t.sessionId }).Sound config
  := by
  have hmem := List.mem_of_getElem? ht
  have hgoverned := h.governed t hmem hl
  have horder : t.Orderly (.addReceiver c) := by
    intro halive heq
    have hsender := hgoverned.consistent.sender_mem
    obtain rfl := h.eq_of_publicId hlisted (h.present t hmem hl _ hsender halive) heq
    apply h.notMem_of_joined hjoined hmem hl hsender
  obtain ⟨hsender, hdestroyed, hsubscribers, hreceivers⟩ :=
    TransferSession.step_addReceiver config.toConfig t c
  have hid : (t.step config.toConfig (.addReceiver c)).sessionId = t.sessionId := by
    rw [TransferSession.sessionId, hsender, TransferSession.sessionId]
  have hadmits : (t.step config.toConfig (.addReceiver c)).listed = true →
      s.Admits config c t.sessionId (t.step config.toConfig (.addReceiver c)) := by
    intro hl'
    have hgoverned' : (t.step config.toConfig (.addReceiver c)).Governed config.toConfig :=
      TransferSession.Governed.step (fun _ => hgoverned) (fun _ _ => horder) hl'
    refine ⟨hgoverned', ?_, fun d hd => ?_, fun d hd halive => ?_, fun d hd => ?_⟩
    · rw [hid]
      apply h.named t hmem hl
    · rw [hid]
      by_cases heq : d = c
      · exact .inl ⟨heq, rfl⟩
      · refine .inr ⟨heq, h.joined t hmem hl d ?_⟩
        apply (hsubscribers d hd).resolve_right heq
    · obtain hd | rfl := hsubscribers d hd
      · rw [TransferSession.alive, hdestroyed] at halive
        apply h.present t hmem hl d hd halive
      · apply hlisted
    · obtain hd | rfl := hreceivers d hd
      · exact .inr ⟨t, hmem, hl, hd⟩
      · exact .inl rfl
  have hsame : ∀ {i : ℕ} {u : TransferSession},
      (s.withStep config k t (.addReceiver c)).sessions[i]? = some u →
        ∃ v, s.sessions[i]? = some v ∧ v.sessionId = u.sessionId
          ∧ (u.listed = true → v.listed = true) := by
    intro i u hu
    rw [getElem?_withStep ht] at hu
    split at hu
    · rename_i hi
      obtain rfl := Option.some.inj hu
      exact ⟨t, hi ▸ ht, hid.symm, fun _ => hl⟩
    · exact ⟨u, hu, rfl, id⟩
  apply h.enter hjoined
  · intro u hu hul
    obtain hu | rfl := List.mem_or_eq_of_mem_set hu
    · apply h.admits hjoined t.sessionId hu hul
    · apply hadmits hul
  · intro i j u v hu hv hul hvl heq
    obtain ⟨u', hu', huid, hul'⟩ := hsame hu
    obtain ⟨v', hv', hvid, hvl'⟩ := hsame hv
    apply h.single hu' hv' (hul' hul) (hvl' hvl) (by rw [huid, hvid, heq])

theorem letIn (h : s.Sound config) {c : ClientRef} (hlisted : c ∈ s.clientList)
    (hjoined : (s.client c).joinedSession = "") {k : ℕ} {id : String}
    (hk : s.getSession id = some k) :
  (s.letIn config c k id).1.Sound config
  := by
  obtain ⟨t, ht, hl, rfl⟩ := getSession_eq_some hk
  rw [WebAPI.letIn]
  split
  · apply h
  · rename_i hadded
    rw [Bool.not_eq_true, Bool.not_eq_false', ofSession, ht, Option.map_some,
      Option.getD_some] at hadded
    have hid := h.named t (List.mem_of_getElem? ht) hl
    have hspared : t.kickedBy (.addReceiver c) = none := rfl
    have hclient : ∀ d, (s.withStep config k t (.addReceiver c)).client d = s.client d :=
      fun _ => rfl
    simp only [perform_of_spared ht hspared, joinSession, hid, hclient, hjoined, if_false, ne_eq,
      not_true_eq_false]
    apply h.join hlisted hjoined ht hl hadded

theorem sessionJoin (h : s.Sound config) (cookie : String) (id? : Option String) :
  (s.sessionJoin config cookie id?).1.Sound config
  := by
  rw [WebAPI.sessionJoin]
  cases hc : s.identified cookie with
  | none => exact h
  | some c =>
      cases id? with
      | none => exact h
      | some id =>
          cases hk : s.getSession id with
          | none =>
              simp only [hk]
              apply h
          | some k =>
              simp only [hk]
              split
              · split
                · apply h
                · apply h
              · rename_i hjoined
                split
                · apply h
                · apply h.letIn (identified_eq_some hc) (not_not.mp hjoined) hk

end Sound

end WebAPI

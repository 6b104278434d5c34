import PutInPipe.Server.Run

/-!
# The end of a session

The destructor of a session sends `complete` to its subscribers, and the callback of that
event takes them off the list of clients. Membership, subscription and listing are three
separate things, but no interleaving of joins and removals leaves a member behind.

The callback does not run on the acknowledgement, though. `wsOnMessage` looks the session
up before it looks at the message, and the session was taken off the list before `complete`
was sent: the acknowledgement is dropped and the client stays until the fallback timer
expires, unless a session is listed under the same id again.
-/

open TransferSessionDetails

namespace Server

variable {config : Config} {s s' : Server}

/-- Nothing is going on: no request, handler or timer refers to anything, no
acknowledgement is pending, and no session waits for its destructor. -/
structure Quiet (s : Server) : Prop where
  requests : s.requests = []
  holders : s.holders = []
  pendingAcks : s.pendingAcks = []
  destructed : ∀ k < s.sessions.length, k ∉ s.ended → s.lockable k = true

/-- The members for whom the `complete` event was acknowledged, timed out or could not be
sent are off the list of clients. -/
def Deleted (s : Server) : Prop :=
  ∀ c k, (c, k) ∈ s.settled → s.joined c = some k → c ∉ s.clientList

/-- The end of a session deletes its members. -/
structure DeletesMembers (s : Server) : Prop where
  once : ∀ (c : ClientRef) (k : ℕ) (t : TransferSession), k ∈ s.ended → c ∈ s.live →
    s.joined c = some k → s.sessions[k]? = some t → s.completesTo c k = [t.completeType]
  before : ∀ c, ∀ k ∉ s.ended, s.completesTo c k = []
  awaited : ∀ c, ∀ k ∈ s.ended, c ∈ s.clientList → s.joined c = some k →
    (c, Awaited.complete k) ∈ s.pendingAcks
  deleted : s.Deleted
  named : s.Quiet → ∀ c ∈ s.clientList, s.joinedSession c = ""
    ∨ ∃ t ∈ s.sessions, t.listed = true ∧ t.sessionId = s.joinedSession c

/-- The acknowledgement of a `complete` event by a registered member comes while a session
is listed under the id the member has joined. -/
def AckFindsSession (s : Server) : Action → Prop
  | .acknowledge c (.complete k) =>
      (c, Awaited.complete k) ∈ s.pendingAcks → c ∈ s.connected → c ∈ s.clientList →
        s.joined c = some k → s.messageSession c ≠ none
  | _ => True

/-- In a quiet state a member of a session that is not listed would have a pending
acknowledgement. -/
theorem Sound.named (h : s.Sound) (hq : s.Quiet) {c : ClientRef} (hc : c ∈ s.clientList) :
  s.joinedSession c = "" ∨ ∃ t ∈ s.sessions, t.listed = true ∧ t.sessionId = s.joinedSession c
  := by
  cases hj : s.joined c with
  | none => exact Or.inl (h.unjoined c hj)
  | some k =>
      right
      obtain ⟨-, t, ht, -, hid⟩ := h.joined c k hj
      have hend : k ∉ s.ended := by
        intro hend
        have hpend := h.awaited c k hend hc hj
        rw [hq.pendingAcks] at hpend
        cases hpend
      have hlock := hq.destructed k (List.getElem?_eq_some_iff.mp ht).1 hend
      rw [lockable, referenced, hq.requests, hq.holders, ht] at hlock
      refine ⟨t, List.mem_of_getElem? ht, ?_, hid.symm⟩
      simpa using hlock

theorem Sound.deletesMembers_iff (h : s.Sound) :
  s.DeletesMembers ↔ s.Deleted
  := by
  constructor
  · exact fun hd => hd.deleted
  · exact fun hd => ⟨h.once, h.before, h.awaited, hd, fun hq c hc => h.named hq hc⟩

/-! ### One step -/

/-- Nobody is put on the list, and whoever is newly settled is off it. -/
theorem Calm.deleted (h : s.Calm s') (hd : s.Deleted) :
  s'.Deleted
  := by
  intro c k hx hj
  rw [h.joined] at hj
  rcases h.settled c k hx with hx | ⟨-, hc⟩
  · exact fun hc => hd c k hx hj (h.clientList hc)
  · apply hc

theorem Deleted.register (hs : s.Sound) (h : s.Deleted) (id publicId : String) :
  Deleted { s with
    clients := s.clients ++ [⟨s.clients.length, id, publicId⟩]
    live := ⟨s.clients.length, id, publicId⟩ :: s.live
    clientList := ⟨s.clients.length, id, publicId⟩ :: s.clientList }
  := by
  intro c k hx hj hc
  rcases List.mem_cons.mp hc with rfl | hc
  · exact absurd (hs.fresh _ (hs.joined _ k hj).1) (lt_irrefl _)
  · apply h c k hx hj hc

theorem Deleted.destruct (h : s.Deleted) (k : ℕ) :
  (s.destruct k).Deleted
  := by
  rw [Server.destruct]
  split
  · apply h
  · rename_i t _
    have hp := publishes_foldl k t.completeType (t.subscribers.filter t.alive)
      { s with ended := k :: s.ended }
    intro c j hx hj
    rw [hp.joined] at hj
    rcases hp.settled c j hx with hx | ⟨-, hc⟩
    · exact fun hc => h c j hx hj (hp.clientList hc)
    · apply hc

/-- A call of a request neither registers a client nor settles an event, and lets a client
join only a session whose destructor has not run. -/
theorem Serves.frame {call : Call} {result : Server × (Call ⊕ Response)}
    (hcall : call.Sound s) (hserves : Serves config s call result) :
  result.1.clientList = s.clientList ∧ result.1.settled = s.settled
  ∧ ∀ c k, result.1.joined c = some k → s.joined c = some k ∨ k ∉ s.ended
  := by
  cases hserves with
  | join c k response hset _ _ =>
      have hk : k ∉ s.ended := by
        cases call <;> cases hset <;> exact hcall.session k rfl
      refine ⟨rfl, rfl, ?_⟩
      intro d j hj
      rcases joined_of_update hj with hj | rfl
      · apply Or.inl hj
      · apply Or.inr hk
  | _ => exact ⟨rfl, rfl, fun _ _ => Or.inl⟩

theorem Deleted.advance (config : Config) (hs : s.Sound) (h : s.Deleted) {r : Request}
    (hr : r ∈ s.requests) :
  (s.advance config r).Deleted
  := by
  have hcall := (hs.call hr).taking r
  obtain ⟨hlist, hsettled, hjoined⟩ := (serves config (hs.taking r) r.cookie hcall).frame hcall
  have hserved : ((s.taking r).serve config r.cookie r.call).1.Deleted := by
    intro c k hx hj
    rw [hsettled] at hx
    rw [hlist]
    rcases hjoined c k hj with hj | hk
    · apply h c k hx hj
    · exact absurd (hs.settled c k hx) hk
  rw [Server.advance]
  dsimp only
  split <;> exact hserved

/-- A step keeps the settled members off the list exactly when an acknowledgement it takes
finds a session. -/
theorem deleted_step_iff (config : Config) (hs : s.Sound) (h : s.Deleted) (a : Action) :
  (s.step config a).Deleted ↔ s.AckFindsSession a
  := by
  cases a with
  | acknowledge c event =>
      rw [Server.step]
      split
      · rename_i hc
        rw [Server.acknowledge]
        cases event with
        | kicked =>
            apply iff_of_true _ trivial
            split
            · apply (calm_resolveAck hc.1).deleted h
            · apply (calm_closeConnection _ c).deleted h
        | complete k =>
            split
            · rename_i j hj
              apply iff_of_true
              · apply (calm_resolveAck hc.1).deleted h
              · intro _ _ _ _ hnone
                rw [hj] at hnone
                cases hnone
            · rename_i hnone
              constructor
              · intro hd _ _ hmem hj
                exact absurd hmem (hd c k List.mem_cons_self hj)
              · intro hack d j hx hj hmem
                rcases List.mem_cons.mp hx with hx | hx
                · cases hx
                  apply hack hc.1 hc.2 hmem hj hnone
                · apply h d j hx hj hmem
      · rename_i hc
        apply iff_of_true h
        cases event with
        | kicked => trivial
        | complete k => exact fun hpend hconn => absurd ⟨hpend, hconn⟩ hc
  | register id =>
      apply iff_of_true _ trivial
      rw [Server.step]
      split
      · apply h
      · apply Deleted.register hs h
  | leave id => exact iff_of_true ((calm_removeClient s id).deleted h) trivial
  | connect c =>
      apply iff_of_true _ trivial
      rw [Server.step]
      split <;> exact h
  | disconnect c => exact iff_of_true h trivial
  | destroyClient c =>
      apply iff_of_true _ trivial
      rw [Server.step]
      split
      · rename_i hc
        apply (calm_destroyClient config hs hc.1 hc.2.1 hc.2.2).deleted
        apply h
      · apply h
  | timeout c event =>
      apply iff_of_true _ trivial
      rw [Server.step]
      split
      · rename_i hc
        apply (calm_resolveAck hc.1).deleted h
      · apply h
  | hold k =>
      apply iff_of_true _ trivial
      rw [Server.step]
      split <;> exact h
  | release k => exact iff_of_true h trivial
  | operate k op =>
      apply iff_of_true _ trivial
      rw [Server.step]
      split
      · rename_i hop
        obtain ⟨hadd, hdestroy⟩ := ne_of_called hop.2
        apply (calm_perform config (hs.holders hop.1) hadd _).deleted h
        exact fun c hc => absurd hc (hdestroy c)
      · apply h
  | destruct k =>
      apply iff_of_true _ trivial
      rw [Server.step]
      split
      · apply h
      · apply h.destruct
  | requestCreate cookie body => exact iff_of_true h trivial
  | requestJoin cookie id? => exact iff_of_true h trivial
  | advance r =>
      apply iff_of_true _ trivial
      rw [Server.step]
      split
      · rename_i hr
        apply h.advance config hs hr
      · apply h

/-- In every run the end of a session deletes its members, exactly when every
acknowledgement of a `complete` event finds a session. -/
theorem everyState_deletesMembers_iff (config : Config) (as : List Action) :
  Machine.EveryState (step config) DeletesMembers {} as
    ↔ Machine.EveryStep (step config) AckFindsSession {} as
  := by
  have hinv : ∀ (s : Server) (a : Action), s.Sound → (s.step config a).Sound :=
    fun s a h => h.step config a
  apply Machine.everyState_iff_everyStep hinv
  · intro s a h hd
    rw [(h.step config a).deletesMembers_iff]
    apply deleted_step_iff config h hd.deleted
  · apply Sound.init
  · apply Sound.init.deletesMembers_iff.mpr
    exact fun _ _ hx => by cases hx

/-- Alice creates a session, Bob joins it and opens a WebSocket, and Alice terminates the
session. Bob acknowledges the `complete` event. -/
def Sample.acknowledged : List Action :=
  [.register "alice", .register "bob"] ++ create alice 0
    ++ joinUntilAdd bob alice.publicId 0
    ++ [.advance ⟨bob.id, .joinSet bob 0, true⟩, .connect bob, .hold 0,
      .operate 0 .manualTerminate, .release 0, .destruct 0, .acknowledge bob (.complete 0)]

/-- Bob is still on the list of clients. -/
theorem not_deletesMembers_acknowledged :
  ¬ Machine.EveryState (step Sample.config) DeletesMembers {} Sample.acknowledged
  := by
  intro h
  apply h.last.deleted Sample.bob 0 (by decide) (by decide) (by decide)

end Server

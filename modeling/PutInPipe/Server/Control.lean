import PutInPipe.Server.Belonging

/-!
# Only the creator controls the session

`Handles` lists what the handler of a message can do. With public ids that tell the clients
apart, a message or an upload from a client that is not the creator of a session leaves the
session as it is, but for its own confirmation of a chunk.

A message that is not of the form the protocol demands is refused before anything is changed: it is
rejected, which closes the connection, or ignored, as an acknowledgement without a number is. But an
index, a size or the number of an event is also read from a string and from a number that is not an
unsigned integer.
-/

open TransferSessionDetails

namespace WebAPI

section

variable {config : Server.Config} {load : Bytes → Option Rvalue} {s s' : WebAPI}

/-! ### What a message does -/

theorem isCreator_eq_true {k : ℕ} {c : ClientRef} {t : TransferSession}
    (ht : s.sessions[k]? = some t) :
  s.isCreator k c = true ↔ t.alive t.dataSender = true ∧ t.dataSender.id = c.id
  := by
  simp [isCreator, ofSession, ht]

/-- The listed client that passes for the creator is the creator. -/
theorem Sound.eq_dataSender (h : s.Sound config) {k : ℕ} {c : ClientRef} {t : TransferSession}
    (ht : s.sessions[k]? = some t) (hl : t.listed = true) (hc : c ∈ s.clientList)
    (hcreator : s.isCreator k c = true) :
  t.alive t.dataSender = true ∧ c = t.dataSender
  := by
  obtain ⟨halive, hid⟩ := (isCreator_eq_true ht).mp hcreator
  have hmem := List.mem_of_getElem? ht
  have hsender := (h.governed t hmem hl).consistent.sender_mem
  exact ⟨halive, (h.eq_of_id (h.present t hmem hl _ hsender halive) hc hid).symm⟩

/-- The session the message of a client is for. -/
def messageSession (s : WebAPI) (c : ClientRef) : Option ℕ :=
  if c ∈ s.clientList ∧ (s.client c).joinedSession ≠ "" then
    s.getSession (s.client c).joinedSession
  else none

/-- The methods a handler calls for the creator alone. -/
def creatorCalls (c : ClientRef) : TransferSession.Op → Bool
  | .addChunk _ | .setFileInfo _ | .setEndOfFile | .manualTerminate
  | .dropInitialChunksFreeze => true
  | .removeReceiver publicId => publicId != c.publicId
  | _ => false

theorem calledDirectly_of_creatorCalls {c : ClientRef} {op : TransferSession.Op}
    (h : creatorCalls c op = true) :
  calledDirectly op = true
  := by
  cases op with
  | addReceiver d => cases h
  | destroyClient d => cases h
  | _ => rfl

/-- The creator does not kick itself. -/
theorem orderly_of_creatorCalls {t : TransferSession} (halive : t.alive t.dataSender = true)
    {op : TransferSession.Op} (h : creatorCalls t.dataSender op = true) :
  t.Orderly op
  := by
  cases op with
  | removeReceiver publicId => exact ⟨halive, by simpa [creatorCalls] using h⟩
  | addReceiver d => cases h
  | _ => trivial

/-- What the handler of a message of the client to the session may do. -/
inductive Handles (config : Server.Config) (s : WebAPI) (c : ClientRef) (k : ℕ)
    (confirming : Bool) : WebAPI → Prop where
  | nothing : Handles config s c k confirming s
  | creator {op : TransferSession.Op} (h : s.isCreator k c = true)
      (hop : creatorCalls c op = true) : Handles config s c k confirming (s.perform config k op)
  | named (name : String) :
      Handles config s c k confirming (s.setClient c ((s.client c).setName name))
  | downloads (index : ℕ) :
      Handles config s c k confirming (s.perform config k (.getChunk index c))
  | confirms (index : ℕ) (h : confirming = true) :
      Handles config s c k confirming
        ((s.setClient c ((s.client c).setCurrentChunkIndex index)).perform config k
          (.setChunkAsReceived index c))
  | acknowledges (id : ℕ) : Handles config s c k confirming (s.processAck config c id)

section

variable {c : ClientRef} {k : ℕ} {confirming : Bool}

theorem handles_reading {α : Type} {value : Except String α} {next : α → Outcome}
    (h : ∀ a, value = .ok a → Handles config s c k confirming (next a).1) :
  Handles config s c k confirming (s.reading value next).1
  := by
  cases value with
  | error what => exact .nothing
  | ok a => exact h a rfl

theorem handles_creatorOnly {refusal : Reply} {next : Outcome}
    (h : s.isCreator k c = true → Handles config s c k confirming next.1) :
  Handles config s c k confirming (s.creatorOnly k c refusal next).1
  := by
  rw [creatorOnly]
  split
  · rename_i hcreator
    apply h hcreator
  · exact .nothing

/-- Every handler keeps to that. -/
theorem handles_internalWsMessageProcessing (config : Server.Config) (uninitialized : ℕ)
    (s : WebAPI) (c : ClientRef) (k : ℕ) (data : Rvalue) (action : Action) :
  Handles config s c k (action == .confirmChunk)
    (s.internalWsMessageProcessing config uninitialized c k data action).1
  := by
  cases action with
  | setFileInfo =>
      apply handles_creatorOnly fun hcreator => ?_
      apply handles_reading fun name _ => ?_
      apply handles_reading fun size _ => ?_
      exact .creator hcreator rfl
  | uploadFinished => exact handles_creatorOnly fun hcreator => .creator hcreator rfl
  | kickReceiver =>
      apply handles_creatorOnly fun hcreator => ?_
      apply handles_reading fun publicId _ => ?_
      split
      · exact .nothing
      · rename_i hne
        exact .creator hcreator (by simpa [creatorCalls] using Ne.symm hne)
  | terminateSession => exact handles_creatorOnly fun hcreator => .creator hcreator rfl
  | dropFreeze => exact handles_creatorOnly fun hcreator => .creator hcreator rfl
  | newName => exact handles_reading fun name _ => .named name
  | getChunk => exact handles_reading fun index _ => .downloads index
  | confirmChunk => exact handles_reading fun index _ => .confirms index rfl
  | ack =>
      apply handles_reading fun hasId _ => ?_
      split
      · apply handles_reading fun id _ => .acknowledges id
      · exact .nothing
  | unknown action => exact .nothing

end

/-! ### What becomes of the sessions -/

/-- The sessions of which the client is not the live creator are the same, but for what the
client confirms. -/
def Controls (s s' : WebAPI) (c? : Option ClientRef) (confirming : ℕ → Prop) : Prop :=
  ∀ (k : ℕ) (t : TransferSession), s.sessions[k]? = some t →
    ¬ (t.alive t.dataSender = true ∧ c? = some t.dataSender) →
      ∃ t', s'.sessions[k]? = some t' ∧ t.SameControls t' ∧ (¬ confirming k → t.Intact t')

theorem Controls.refl (s : WebAPI) (c? : Option ClientRef) (confirming : ℕ → Prop) :
  s.Controls s c? confirming
  := by
  intro k t ht _
  exact ⟨t, ht, (TransferSession.Intact.refl t).toSameControls, fun _ => .refl t⟩

theorem Controls.dataReceivers {c : ClientRef} {confirming : ℕ → Prop}
    (h : s.Controls s' (some c) confirming) {k : ℕ} {r : List ClientRef}
    (hr : s.sessions[k]?.map TransferSession.dataReceivers = some r)
    (hc : s.sessions[k]?.map TransferSession.dataSender ≠ some c) :
  s'.sessions[k]?.map TransferSession.dataReceivers = some r
  := by
  obtain ⟨t, ht, rfl⟩ := Option.map_eq_some_iff.mp hr
  obtain ⟨t', ht', hsame, -⟩ := h k t ht fun hcreator => hc (by rw [ht, hcreator.2]; rfl)
  rw [ht', Option.map_some, hsame.dataReceivers]

namespace Sound

variable {c : ClientRef} {k : ℕ} {confirming : Bool} {next : WebAPI}

theorem handles (h : s.Sound config) (hc : c ∈ s.clientList) {t : TransferSession}
    (ht : s.sessions[k]? = some t) (hl : t.listed = true)
    (hnext : Handles config s c k confirming next) :
  next.Sound config
  := by
  cases hnext with
  | nothing => exact h
  | @creator op hcreator hop =>
      obtain ⟨halive, rfl⟩ := h.eq_dataSender ht hl hc hcreator
      apply h.perform (calledDirectly_of_creatorCalls hop)
      intro u hu _ _
      obtain rfl := Option.some.inj (ht.symm.trans hu)
      apply orderly_of_creatorCalls halive hop
  | named name =>
      apply h.setClient (ClientState.joinedSession_setName _ name)
      rw [ClientState.pendingAcks_setName]
      exact .inl
  | downloads index => exact h.perform rfl fun _ _ _ _ => trivial
  | confirms index hconfirming =>
      refine Sound.perform ?_ rfl fun _ _ _ _ => ?_
      · exact h.setClient rfl .inl
      · trivial
  | acknowledges id => exact h.processAck c id

/-- A client that leaves, neither the live sender of the session nor one of its receivers, leaves
it as it is. -/
theorem intact_destroyClient (h : s.Sound config) {u : TransferSession} (hu : u ∈ s.sessions)
    {d : ClientRef} (hd : d ∈ s.clientList)
    (hne : u.listed = true → u.alive u.dataSender = true → d ≠ u.dataSender)
    (hreceives : u.listed = true → d ∉ u.dataReceivers) :
  u.Intact (u.step config.toConfig (.destroyClient d))
  := by
  apply TransferSession.intact_step_destroyClient (h.governed u hu) hne
  intro hl halive x hx heq
  have hgoverned := h.governed u hu hl
  have hlisted := h.present u hu hl x (hgoverned.consistent.receivers_mem x hx)
    (hgoverned.present halive x hx)
  obtain rfl := h.eq_of_publicId hlisted hd heq
  apply hreceives hl hx

theorem controls_removeClient (h : s.Sound config) {d : ClientRef} (hd : d ∈ s.clientList)
    {j : ℕ} {u : TransferSession} (hu : s.sessions[j]? = some u)
    (hne : u.listed = true → u.alive u.dataSender = true → d ≠ u.dataSender)
    (hreceives : u.listed = true → d ∉ u.dataReceivers) :
  ∃ u', (s.removeClient config d.id).sessions[j]? = some u' ∧ u.Intact u'
  := by
  refine ⟨u.step config.toConfig (.destroyClient d), ?_,
    h.intact_destroyClient (List.mem_of_getElem? hu) hd hne hreceives⟩
  rw [WebAPI.removeClient, h.getClient hd]
  simp [WebAPI.onSessions, hu]

/-- A call for the creator of a session leaves the other sessions alone, also where it makes a
client leave. -/
theorem intact_perform (h : s.Sound config) {t : TransferSession} (ht : s.sessions[k]? = some t)
    (hl : t.listed = true) {op : TransferSession.Op} (hop : calledDirectly op = true)
    (horder : TransferSession.WhenApplied TransferSession.Orderly t op) {j : ℕ}
    {u : TransferSession} (hu : s.sessions[j]? = some u) (hne : k ≠ j) :
  ∃ u', (s.perform config k op).sessions[j]? = some u' ∧ u.Intact u'
  := by
  have hadd : ∀ c, op ≠ .addReceiver c := by
    rintro c rfl
    cases hop
  have hsound := h.withStep ht hadd horder
  have hu' : (s.withStep config k t op).sessions[j]? = some u := by
    rw [getElem?_withStep ht, if_neg hne, hu]
  cases hkick : t.kickedBy op with
  | none =>
      rw [perform_of_spared ht hkick]
      exact ⟨u, hu', .refl u⟩
  | some d =>
      rw [perform_of_kicked ht hl hkick, WebAPI.sendTextWithAck]
      split
      · exact ⟨u, hu', .refl u⟩
      · obtain ⟨⟨v, publicId⟩, hdeparture, hremoved⟩ := Option.bind_eq_some_iff.mp hkick
        have hreceiver : d ∈ t.dataReceivers ∧ t.alive d = true := by
          obtain ⟨-, rfl⟩ | ⟨e, rfl, -⟩ := TransferSession.departure_eq_some.mp hdeparture
          · obtain ⟨hmem, halive, -⟩ := TransferSession.removedClient_eq_some hremoved
            exact ⟨hmem, halive⟩
          · cases hop
        have hmem := List.mem_of_getElem? ht
        have hsubscribed := (h.governed t hmem hl).consistent.receivers_mem d hreceiver.1
        have hstranger : u.listed = true → d ∉ u.subscribers := by
          intro hul hd
          apply hne (h.eq_of_mem ht hu hl hul hsubscribed hd)
        have hgoverned := h.governed u (List.mem_of_getElem? hu)
        refine Sound.controls_removeClient ?_ ?_ hu' ?_ ?_
        · exact hsound.setClient rfl .inl
        · exact h.present t hmem hl d hsubscribed hreceiver.2
        · rintro hul - rfl
          apply hstranger hul (hgoverned hul).consistent.sender_mem
        · intro hul hd
          apply hstranger hul ((hgoverned hul).consistent.receivers_mem d hd)

theorem controls_handles (h : s.Sound config) (hc : c ∈ s.clientList) {t : TransferSession}
    (ht : s.sessions[k]? = some t) (hl : t.listed = true)
    (hnext : Handles config s c k confirming next) :
  s.Controls next (some c) (fun j => confirming = true ∧ j = k)
  := by
  intro j u hu hother
  have hintact : (∃ u', next.sessions[j]? = some u' ∧ u.Intact u') →
      ∃ u', next.sessions[j]? = some u' ∧ u.SameControls u'
        ∧ (¬ (confirming = true ∧ j = k) → u.Intact u') := by
    rintro ⟨u', hu', hsame⟩
    exact ⟨u', hu', hsame.toSameControls, fun _ => hsame⟩
  cases hnext with
  | nothing => exact hintact ⟨u, hu, .refl u⟩
  | @creator op hcreator hop =>
      obtain ⟨halive, rfl⟩ := h.eq_dataSender ht hl hc hcreator
      have hne : k ≠ j := by
        rintro rfl
        obtain rfl := Option.some.inj (ht.symm.trans hu)
        apply hother ⟨halive, rfl⟩
      apply hintact
      apply h.intact_perform ht hl (calledDirectly_of_creatorCalls hop) _ hu hne
      exact fun _ _ => orderly_of_creatorCalls halive hop
  | named name => exact hintact ⟨u, hu, .refl u⟩
  | downloads index =>
      apply hintact
      have hspared : t.kickedBy (.getChunk index c) = none := rfl
      rw [perform_of_spared ht hspared, getElem?_withStep ht]
      split
      · rename_i heq
        obtain rfl : t = u := by
          rw [heq] at ht
          apply Option.some.inj (ht.symm.trans hu)
        exact ⟨_, rfl, TransferSession.intact_step_getChunk _ t index c⟩
      · exact ⟨u, hu, .refl u⟩
  | confirms index hconfirming =>
      have ht' : (s.setClient c ((s.client c).setCurrentChunkIndex index)).sessions[k]? = some t :=
        ht
      have hspared : t.kickedBy (.setChunkAsReceived index c) = none := rfl
      rw [perform_of_spared ht' hspared, getElem?_withStep ht']
      split
      · rename_i heq
        obtain rfl : t = u := by
          rw [heq] at ht
          apply Option.some.inj (ht.symm.trans hu)
        refine ⟨_, rfl, TransferSession.sameControls_step_setChunkAsReceived _ t index c, ?_⟩
        intro hexempt
        exact absurd ⟨hconfirming, heq.symm⟩ hexempt
      · exact ⟨u, hu, (TransferSession.Intact.refl u).toSameControls, fun _ => .refl u⟩
  | acknowledges id =>
      apply hintact
      rw [WebAPI.processAck]
      split
      · rename_i hpending
        have hdismissed := h.pending c (List.ne_nil_of_mem hpending)
        have hsound : (s.setClient c { s.client c with
            pendingAcks := (s.client c).pendingAcks.erase id }).Sound config :=
          h.setClient rfl fun _ => .inl (List.ne_nil_of_mem hpending)
        apply hsound.controls_removeClient hc hu
        · rintro - halive rfl
          apply hother ⟨halive, rfl⟩
        · apply hdismissed.2 u (List.mem_of_getElem? hu)
      · exact ⟨u, hu, .refl u⟩

end Sound

/-! ### The form of a message -/

/-- The object has the field, and its value passes the test. -/
def fieldIs (data : Rvalue) (key : String) (test : Rvalue → Bool) : Bool :=
  match data.get key with
  | .ok value => test value
  | .error _ => false

/-- The action and the data of a message in the form of the protocol. -/
def request? (json : Rvalue) : Option (Action × Rvalue) :=
  match json.get "action", json.get "data" with
  | .ok (.string _ action), .ok (.object fields) => some (.ofString action, .object fields)
  | _, _ => none

/-- The data have the fields the action needs. -/
def Action.accepts (data : Rvalue) : Action → Bool
  | .setFileInfo => fieldIs data "name" Rvalue.isString && fieldIs data "size" Rvalue.isUnsigned
  | .kickReceiver => fieldIs data "id" Rvalue.isString
  | .newName => fieldIs data "name" Rvalue.isString
  | .getChunk | .confirmChunk => fieldIs data "index" Rvalue.isUnsigned
  | .ack => fieldIs data "id" Rvalue.isUnsigned
  | _ => true

/-- The handler of the action takes something else for an unsigned number. -/
def Action.readsLoosely (creator : Bool) (data : Rvalue) : Action → Bool
  | .setFileInfo =>
      creator && fieldIs data "name" Rvalue.isString && fieldIs data "size" Rvalue.isLoose
  | .getChunk | .confirmChunk => fieldIs data "index" Rvalue.isLoose
  | .ack => fieldIs data "id" Rvalue.isLoose
  | _ => false

namespace Frame

def request? (load : Bytes → Option Rvalue) : Frame → Option (Action × Rvalue)
  | .binary _ => none
  | .text message => (load message).bind WebAPI.request?

/-- The frame is not malformed. -/
def wellFormed (load : Bytes → Option Rvalue) : Frame → Bool
  | .binary _ => true
  | .text message => (request? load (.text message)).any fun r => r.1.accepts r.2

def confirms (load : Bytes → Option Rvalue) (frame : Frame) : Bool :=
  (frame.request? load).any (·.1 == .confirmChunk)

end Frame

/-- The message makes its handler take something else for an unsigned number. -/
def readsLoosely (load : Bytes → Option Rvalue) (s : WebAPI) (c : ClientRef) (frame : Frame) :
    Bool :=
  match s.messageSession c, frame.request? load with
  | some k, some (action, data) => action.readsLoosely (s.isCreator k c) data
  | _, _ => false

/-- The message is rejected, which closes the connection, or it is ignored: nothing is sent. -/
def Reply.refuses : Reply → Bool
  | .nothing | .closed _ _ => true
  | _ => false

theorem hasField_object (fields : List (String × Rvalue)) (key : String)
    (test : Rvalue → Bool) :
  hasField (.object fields) key test
    = .ok ((fields.find? (·.1 == key)).any fun field => test field.2)
  := by
  rw [hasField, Rvalue.has, Rvalue.get]
  cases hfind : fields.find? (·.1 == key) with
  | none =>
      have hany : fields.any (·.1 == key) = false := by
        rw [← List.isSome_find?, hfind, Option.isSome_none]
      rw [hany]
      rfl
  | some field =>
      have hany : fields.any (·.1 == key) = true := by
        rw [← List.isSome_find?, hfind, Option.isSome_some]
      rw [hany]
      rfl

/-- What the tests let pass is a message in the form of the protocol, and the handler gets its
action and its data. What they do not let pass is refused. -/
theorem envelope_cases (json : Rvalue) :
  (∃ request, envelope json = .ok request ∧ request? json = some request)
    ∨ ∃ reply, envelope json = .error reply ∧ reply.refuses = true ∧ request? json = none
  := by
  cases json with
  | object fields =>
      rw [envelope, hasField_object, hasField_object, request?, Rvalue.get, Rvalue.get]
      cases haction : fields.find? (·.1 == "action") with
      | none => exact .inr ⟨_, rfl, rfl, rfl⟩
      | some action =>
          obtain ⟨key, action⟩ := action
          cases action with
          | string text value =>
              cases hdata : fields.find? (·.1 == "data") with
              | none => exact .inr ⟨_, rfl, rfl, rfl⟩
              | some data =>
                  obtain ⟨key, data⟩ := data
                  cases data with
                  | object fields => exact .inl ⟨_, rfl, rfl⟩
                  | _ => exact .inr ⟨_, rfl, rfl, rfl⟩
          | _ => exact .inr ⟨_, rfl, rfl, rfl⟩
  | list elements => exact .inr ⟨_, rfl, rfl, rfl⟩
  | _ => exact .inr ⟨_, rfl, rfl, rfl⟩

/-! ### Malformed messages are refused -/

/-- Nothing is changed, and the message is rejected or ignored or an exception thrown. -/
def Outcome.Refuses (s : WebAPI) (outcome : Outcome) : Prop :=
  outcome.1 = s ∧ ∀ reply, outcome.2 = .ok reply → reply.refuses = true

theorem refuses_error {α : Type} {value : Except String α} (next : α → Outcome)
    (h : ∃ what, value = .error what) :
  (s.reading value next).Refuses s
  := by
  obtain ⟨what, rfl⟩ := h
  exact ⟨rfl, fun _ hreply => by cases hreply⟩

theorem refuses_reading {α : Type} {value : Except String α} {next : α → Outcome}
    (h : ∀ a, value = .ok a → (next a).Refuses s) :
  (s.reading value next).Refuses s
  := by
  cases value with
  | error what => exact refuses_error next ⟨what, rfl⟩
  | ok a => exact h a rfl

theorem refuses_creatorOnly {k : ℕ} {c : ClientRef} {refusal : Reply} {next : Outcome}
    (hrefusal : refusal.refuses = true) (h : s.isCreator k c = true → next.Refuses s) :
  (s.creatorOnly k c refusal next).Refuses s
  := by
  rw [creatorOnly]
  split
  · rename_i hcreator
    apply h hcreator
  · refine ⟨rfl, fun reply hreply => ?_⟩
    obtain rfl := Except.ok.inj hreply
    apply hrefusal

theorem s_of_not_fieldIs {data : Rvalue} {key : String}
    (h : fieldIs data key Rvalue.isString = false) :
  ∃ what, (data.get key >>= Rvalue.s) = .error what
  := by
  rw [fieldIs] at h
  cases hget : data.get key with
  | error what => exact ⟨what, rfl⟩
  | ok value =>
      rw [hget] at h
      apply Rvalue.s_of_not_isString h

theorem u_of_not_fieldIs {data : Rvalue} {key : String}
    (hnumber : fieldIs data key Rvalue.isUnsigned = false)
    (hloose : fieldIs data key Rvalue.isLoose = false) (uninitialized : ℕ) :
  ∃ what, (data.get key >>= Rvalue.u uninitialized) = .error what
  := by
  rw [fieldIs] at hnumber hloose
  cases hget : data.get key with
  | error what => exact ⟨what, rfl⟩
  | ok value =>
      rw [hget] at hnumber hloose
      apply Rvalue.u_of_not_isUnsigned hnumber hloose uninitialized

/-- The data of an action lack a field, or it has a value of another type. -/
theorem refuses_internalWsMessageProcessing (config : Server.Config) (uninitialized : ℕ)
    (s : WebAPI) (c : ClientRef) (k : ℕ) {data : Rvalue} {action : Action}
    (haccepts : action.accepts data = false)
    (hloose : action.readsLoosely (s.isCreator k c) data = false) :
  (s.internalWsMessageProcessing config uninitialized c k data action).Refuses s
  := by
  cases action with
  | setFileInfo =>
      apply refuses_creatorOnly rfl fun hcreator => ?_
      cases hname : fieldIs data "name" Rvalue.isString with
      | false => exact refuses_error _ (s_of_not_fieldIs hname)
      | true =>
          rw [Action.accepts, hname, Bool.true_and] at haccepts
          rw [Action.readsLoosely, hcreator, hname, Bool.true_and, Bool.true_and] at hloose
          apply refuses_reading fun name _ => ?_
          apply refuses_error _ (u_of_not_fieldIs haccepts hloose uninitialized)
  | kickReceiver =>
      apply refuses_creatorOnly rfl fun _ => ?_
      apply refuses_error _ (s_of_not_fieldIs haccepts)
  | newName => exact refuses_error _ (s_of_not_fieldIs haccepts)
  | getChunk => exact refuses_error _ (u_of_not_fieldIs haccepts hloose uninitialized)
  | confirmChunk => exact refuses_error _ (u_of_not_fieldIs haccepts hloose uninitialized)
  | ack =>
      apply refuses_reading fun hasId _ => ?_
      split
      · apply refuses_error _ (u_of_not_fieldIs haccepts hloose uninitialized)
      · exact ⟨rfl, fun reply hreply => by rw [← Except.ok.inj hreply, Reply.refuses]⟩
  | uploadFinished => cases haccepts
  | terminateSession => cases haccepts
  | dropFreeze => cases haccepts
  | unknown action => cases haccepts

/-! ### `wsOnMessage` -/

theorem messageSession_eq_some {c : ClientRef} {k : ℕ} (h : s.messageSession c = some k) :
  c ∈ s.clientList ∧ ∃ t, s.sessions[k]? = some t ∧ t.listed = true
  := by
  rw [messageSession] at h
  split at h
  · rename_i hc
    obtain ⟨t, ht, hl, -⟩ := getSession_eq_some h
    exact ⟨hc.1, t, ht, hl⟩
  · cases h

theorem wsOnMessage_of_none (config : Server.Config) (uninitialized : ℕ) {c : ClientRef}
    (h : s.messageSession c = none) (load : Bytes → Option Rvalue) (frame : Frame) :
  ∃ reason code, s.wsOnMessage config uninitialized c load frame = (s, .closed reason code)
  := by
  rw [messageSession] at h
  rw [wsOnMessage]
  split
  · exact ⟨_, _, rfl⟩
  · split
    · exact ⟨_, _, rfl⟩
    · rename_i hc hjoined
      rw [if_pos ⟨not_not.mp hc, hjoined⟩] at h
      rw [h]
      exact ⟨_, _, rfl⟩

theorem wsOnMessage_of_some (config : Server.Config) (uninitialized : ℕ) {c : ClientRef} {k : ℕ}
    (h : s.messageSession c = some k) (load : Bytes → Option Rvalue) (frame : Frame) :
  s.wsOnMessage config uninitialized c load frame
    = match frame with
      | .binary binaryData => s.onBinary config c k binaryData
      | .text text => s.onText config uninitialized c k (load text)
  := by
  rw [messageSession] at h
  split at h
  · rename_i hc
    cases frame <;> simp only [wsOnMessage, not_not.mpr hc.1, hc.2, if_false, h]
  · cases h

/-- A message changes nothing, or its handler handles it for the session of the client. -/
theorem wsOnMessage_cases (config : Server.Config) (uninitialized : ℕ) (s : WebAPI)
    (c : ClientRef) (load : Bytes → Option Rvalue) (frame : Frame) :
  (s.wsOnMessage config uninitialized c load frame).1 = s
    ∨ ∃ k, s.messageSession c = some k
      ∧ Handles config s c k (frame.confirms load)
        (s.wsOnMessage config uninitialized c load frame).1
  := by
  cases hk : s.messageSession c with
  | none =>
      obtain ⟨reason, code, heq⟩ := wsOnMessage_of_none config uninitialized hk load frame
      rw [heq]
      exact .inl rfl
  | some k =>
      refine .inr ⟨k, rfl, ?_⟩
      rw [wsOnMessage_of_some config uninitialized hk load frame]
      cases frame with
      | binary binaryData =>
          simp only [onBinary]
          split
          · exact .nothing
          · split
            · exact .nothing
            · rename_i hcreator
              exact .creator (by simpa using hcreator) rfl
      | text text =>
          simp only [Frame.confirms, Frame.request?]
          cases hload : load text with
          | none => exact .nothing
          | some json =>
              rw [Option.bind_some, onText]
              obtain ⟨⟨action, data⟩, henvelope, hrequest⟩ | ⟨reply, henvelope, -, -⟩ :=
                envelope_cases json
              · have hhandles := handles_internalWsMessageProcessing config uninitialized s c k
                  data action
                rw [henvelope, hrequest]
                simp only [Option.any_some]
                split
                · rename_i heq
                  rw [heq] at hhandles
                  apply hhandles
                · rename_i heq
                  rw [heq] at hhandles
                  apply hhandles
              · rw [henvelope]
                exact .nothing

/-- A malformed message is rejected or ignored before anything is changed, unless its handler takes
something else for an unsigned number. -/
theorem wsOnMessage_of_malformed (config : Server.Config) (uninitialized : ℕ) (s : WebAPI)
    (c : ClientRef) {frame : Frame} (hmalformed : frame.wellFormed load = false)
    (hloose : s.readsLoosely load c frame = false) :
  (s.wsOnMessage config uninitialized c load frame).1 = s
    ∧ (s.wsOnMessage config uninitialized c load frame).2.refuses = true
  := by
  cases hk : s.messageSession c with
  | none =>
      obtain ⟨reason, code, heq⟩ := wsOnMessage_of_none config uninitialized hk load frame
      rw [heq]
      exact ⟨rfl, rfl⟩
  | some k =>
      rw [wsOnMessage_of_some config uninitialized hk load frame]
      cases frame with
      | binary binaryData => cases hmalformed
      | text text =>
          rw [readsLoosely, hk] at hloose
          rw [Frame.wellFormed] at hmalformed
          simp only [Frame.request?] at hmalformed hloose ⊢
          cases hload : load text with
          | none => exact ⟨rfl, rfl⟩
          | some json =>
              rw [hload, Option.bind_some] at hmalformed hloose
              rw [onText]
              obtain ⟨⟨action, data⟩, henvelope, hrequest⟩ | ⟨reply, henvelope, hrefuses, -⟩ :=
                envelope_cases json
              · rw [hrequest] at hmalformed hloose
                obtain ⟨hsame, hreply⟩ := refuses_internalWsMessageProcessing config
                  uninitialized s c k (by simpa using hmalformed) hloose
                rw [henvelope]
                dsimp only
                split
                · rename_i heq
                  rw [heq] at hsame hreply
                  exact ⟨hsame, hreply _ rfl⟩
                · rename_i heq
                  rw [heq] at hsame
                  exact ⟨hsame, rfl⟩
              · rw [henvelope]
                exact ⟨rfl, hrefuses⟩

/-- An upload by a request changes nothing, or is carried out for the session of the client. -/
theorem sessionChunkPost_cases (config : Server.Config) (s : WebAPI) (cookie : String)
    (body : Bytes) :
  (s.sessionChunkPost config cookie body).1 = s
    ∨ ∃ c k, s.identified cookie = some c ∧ s.messageSession c = some k
      ∧ Handles config s c k false (s.sessionChunkPost config cookie body).1
  := by
  rw [sessionChunkPost]
  cases hc : s.identified cookie with
  | none => exact .inl rfl
  | some c =>
      dsimp only
      split
      · exact .inl rfl
      · rename_i hjoined
        cases hk : s.getSession (s.client c).joinedSession with
        | none => exact .inl rfl
        | some k =>
            have hsession : s.messageSession c = some k := by
              rw [messageSession, if_pos ⟨identified_eq_some hc, hjoined⟩, hk]
            dsimp only
            split
            · exact .inl rfl
            · rename_i hcreator
              split
              · exact .inl rfl
              · refine .inr ⟨c, k, rfl, hsession, .creator ?_ rfl⟩
                simpa using hcreator

/-! ### Runs -/

/-- No client is made with the public id of another client, none is let in by a session after it
has joined one, and no message makes its handler take something else for an unsigned number. -/
def regular (config : Server.Config) (load : Bytes → Option Rvalue) (s : WebAPI) : Input → Bool
  | .internalCreateClient id _ =>
      (s.getClient id).isSome || s.clientList.all (·.publicId != config.sign id)
  | .letIn c _ => (s.client c).joinedSession == ""
  | .message c frame _ => !s.readsLoosely load c frame
  | _ => true

/-- A message or an upload changes only sessions the client has created, but for what it
confirms, and a malformed message is rejected or ignored before anything is changed. -/
def CreatorControls (config : Server.Config) (load : Bytes → Option Rvalue) (s : WebAPI) :
    Input → Prop
  | .message c frame uninitialized =>
      s.Controls (s.wsOnMessage config uninitialized c load frame).1 (some c)
        (fun k => frame.confirms load = true ∧ s.messageSession c = some k)
      ∧ (frame.wellFormed load = false →
        (s.wsOnMessage config uninitialized c load frame).1 = s
          ∧ (s.wsOnMessage config uninitialized c load frame).2.refuses = true)
  | .sessionChunkPost cookie body =>
      s.Controls (s.sessionChunkPost config cookie body).1 (s.identified cookie) (fun _ => False)
  | _ => True

theorem Controls.mono {c? : Option ClientRef} {confirming confirming' : ℕ → Prop}
    (h : s.Controls s' c? confirming) (hmono : ∀ k, confirming k → confirming' k) :
  s.Controls s' c? confirming'
  := by
  intro k t ht hother
  obtain ⟨t', ht', hsame, hintact⟩ := h k t ht hother
  exact ⟨t', ht', hsame, fun hno => hintact fun hyes => hno (hmono k hyes)⟩

namespace Sound

theorem step (h : s.Sound config) {input : Input} (hregular : s.regular config load input = true) :
  (s.step config load input).Sound config
  := by
  cases input with
  | internalCreateClient id name =>
      apply h.internalCreateClient
      intro hnone
      simpa [regular, hnone] using hregular
  | sessionCreate cookie body => exact h.sessionCreate cookie body
  | sessionJoin cookie id? => exact h.sessionJoin cookie id?
  | letIn c id =>
      rw [WebAPI.step]
      split
      · rename_i hk
        split
        · rename_i hlisted
          apply h.letIn hlisted (by simpa [regular] using hregular) hk
        · apply h
      · apply h
  | sessionChunkPost cookie body =>
      obtain hsame | ⟨c, k, -, hk, hhandles⟩ := sessionChunkPost_cases config s cookie body
      · rw [WebAPI.step, hsame]
        apply h
      · obtain ⟨hc, t, ht, hl⟩ := messageSession_eq_some hk
        apply h.handles hc ht hl hhandles
  | sessionChunkGet cookie index =>
      rw [WebAPI.step, sessionChunkGet]
      split
      · apply h
      · split
        · apply h
        · split
          · apply h
          · exact h.perform rfl fun _ _ _ _ => trivial
  | message c frame uninitialized =>
      obtain hsame | ⟨k, hk, hhandles⟩ := wsOnMessage_cases config uninitialized s c load frame
      · rw [WebAPI.step, hsame]
        apply h
      · obtain ⟨hc, t, ht, hl⟩ := messageSession_eq_some hk
        apply h.handles hc ht hl hhandles
  | connect c =>
      rw [WebAPI.step]
      split
      · exact h.onSessions (by simp) fun _ => trivial
      · exact h
  | disconnect c => exact h.onSessions (by simp) fun _ => trivial
  | removeClient id => exact h.removeClient id
  | freezeTimeout k => exact h.perform rfl fun _ _ _ _ => trivial
  | lifetimeTimeout k => exact h.perform rfl fun _ _ _ _ => trivial

theorem creatorControls (h : s.Sound config) {input : Input}
    (hregular : s.regular config load input = true) :
  s.CreatorControls config load input
  := by
  cases input with
  | message c frame uninitialized =>
      refine ⟨?_, fun hmalformed => ?_⟩
      · obtain hsame | ⟨k, hk, hhandles⟩ := wsOnMessage_cases config uninitialized s c load frame
        · rw [hsame]
          exact .refl s _ _
        · obtain ⟨hc, t, ht, hl⟩ := messageSession_eq_some hk
          apply (h.controls_handles hc ht hl hhandles).mono
          rintro j ⟨hconfirms, rfl⟩
          exact ⟨hconfirms, hk⟩
      · apply wsOnMessage_of_malformed config uninitialized s c hmalformed
        simpa [regular] using hregular
  | sessionChunkPost cookie body =>
      obtain hsame | ⟨c, k, hc, hk, hhandles⟩ := sessionChunkPost_cases config s cookie body
      · rw [CreatorControls, hsame]
        exact .refl s _ _
      · obtain ⟨hlisted, t, ht, hl⟩ := messageSession_eq_some hk
        rw [CreatorControls, hc]
        apply (h.controls_handles hlisted ht hl hhandles).mono
        rintro j ⟨hconfirms, -⟩
        cases hconfirms
  | _ => trivial

end Sound

/-- In every run in which the public ids tell the clients apart, no client gets into two sessions,
and no message makes its handler take something else for an unsigned number, only the creator of
a session controls it, and malformed messages are refused. -/
theorem everyStep_creatorControls_of_regular (config : Server.Config)
    (load : Bytes → Option Rvalue) (inputs : List Input)
    (hregular : Machine.EveryStep (step config load)
      (fun s input => s.regular config load input = true) {} inputs) :
  Machine.EveryStep (step config load) (CreatorControls config load) {} inputs
  := by
  apply Machine.EveryStep.of_invariant (fun s input (h : s.Sound config) => h.step)
    (fun s input h => h.creatorControls) .init hregular

end

namespace Sample

def config : Server.Config where
  transferSessionMaxChunkSize := 4
  transferSessionChunkQueueMaxSize := 2
  transferSessionMaxConsumerCount := 3
  transferSessionCountLimit := 2
  sign id := "public-" ++ id

def sender : ClientRef := ⟨0, "sender", "public-sender"⟩

def alice : ClientRef := ⟨1, "alice", "public-alice"⟩

def text (action field value : String) : Bytes :=
  bytes ("\x7b\"action\":\"" ++ action ++ "\",\"data\":\x7b\"" ++ field ++ "\":" ++ value
    ++ "\x7d\x7d")

def message (action field : String) (value : Rvalue) : Rvalue :=
  .object [("action", .string action action), ("data", .object [(field, value)])]

/-- The texts of the messages, and what is read from them. -/
def texts : List (Bytes × Rvalue) := [
  (text "confirm_chunk" "index" "1", message "confirm_chunk" "index" (.number "1")),
  (text "confirm_chunk" "index" "\"1 of 2\"",
    message "confirm_chunk" "index" (.string "1 of 2" "1 of 2")),
  (text "terminate_session" "now" "true", message "terminate_session" "now" .true),
  (text "kick_receiver" "id" "\"public-alice\"",
    message "kick_receiver" "id" (.string "public-alice" "public-alice")),
  (text "ack" "id" "1", message "ack" "id" (.number "1"))]

def load (text : Bytes) : Option Rvalue := (texts.find? (·.1 == text)).map (·.2)

/-- A chunk is uploaded, and Alice has joined. -/
def uploaded : List Input := [
  .internalCreateClient "sender" "Sender", .internalCreateClient "alice" "Alice",
  .sessionCreate "sender" (.options false), .sessionJoin "alice" (some "public-sender"),
  .connect alice, .message sender (.binary [1, 2]) 0]

/-- Alice tries to upload and to terminate the session, sends something that is not JSON, confirms
the chunk, and is kicked. -/
def attempted : List Input := uploaded ++ [
  .message alice (.binary [3]) 0, .sessionChunkPost "alice" [3],
  .message alice (.text (text "terminate_session" "now" "true")) 0,
  .message alice (.text [0x78]) 0,
  .message alice (.text (text "confirm_chunk" "index" "1")) 0,
  .message sender (.text (text "kick_receiver" "id" "\"public-alice\"")) 0,
  .message alice (.text (text "ack" "id" "1")) 0]

/-- Alice confirms a chunk, and gives its index as a string. -/
def misread : List Input := uploaded ++ [
  .message alice (.text (text "confirm_chunk" "index" "\"1 of 2\"")) 0]

/-- A request of Alice to join Bob's session goes on after she has joined the other one, where
she is kicked. -/
def joinedTwice : List Input := uploaded ++ [
  .internalCreateClient "bob" "Bob", .sessionCreate "bob" (.options false),
  .letIn alice "public-bob",
  .message sender (.text (text "kick_receiver" "id" "\"public-alice\"")) 0]

end Sample

theorem everyStep_creatorControls_attempted :
  Machine.EveryStep (step Sample.config Sample.load)
      (fun s input => s.regular Sample.config Sample.load input = true) {} Sample.attempted
    ∧ Machine.EveryStep (step Sample.config Sample.load)
      (CreatorControls Sample.config Sample.load) {} Sample.attempted
  := by
  have hregular : Machine.EveryStep (step Sample.config Sample.load)
      (fun s input => s.regular Sample.config Sample.load input = true) {} Sample.attempted := by
    decide +kernel
  exact ⟨hregular, everyStep_creatorControls_of_regular Sample.config Sample.load Sample.attempted
    hregular⟩

/-- The malformed message is taken for a confirmation of the first chunk, and the acknowledgement
takes Alice out of Bob's session. -/
theorem not_everyStep_creatorControls :
  ¬ Machine.EveryStep (step Sample.config Sample.load)
      (CreatorControls Sample.config Sample.load) {} Sample.misread
    ∧ ¬ Machine.EveryStep (step Sample.config Sample.load)
      (CreatorControls Sample.config Sample.load) {}
      (Sample.joinedTwice ++ [.message Sample.alice (.text (Sample.text "ack" "id" "1")) 0])
  := by
  constructor
  · intro h
    have hlast := (Machine.everyStep_append.mp h).2.1.2
    have hsame := congrArg (fun s => (s.client Sample.alice).currentChunkIndex)
      (hlast (by decide +kernel)).1
    revert hsame
    decide +kernel
  · intro h
    have hlast := (Machine.everyStep_append.mp h).2.1.1
    have hreceivers := hlast.dataReceivers (k := 1) (r := [Sample.alice]) (by decide +kernel)
      (by decide +kernel)
    revert hreceivers
    decide +kernel

end WebAPI

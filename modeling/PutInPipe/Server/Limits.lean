import PutInPipe.Captcha.Admission
import PutInPipe.Server.Json
import PutInPipe.Server.Run

/-!
# The limits on clients and sessions

A `Service` is the server with the requests for an identity that are being handled as well.
There is one list of clients: what `admission` has of it are the ids in the list of `server`.

A handler tests a limit in one call and enters the client or the session into its list in
another. The lists stay within the limits exactly when each test would still pass when the
entry is made, and this is so of two requests that pass it together only while there is room
for both.
-/

open Text (Bytes)

structure Service where
  server : Server
  admission : Admission

namespace Server

/-- The number of sessions in the list. -/
def count (s : Server) : ℕ := (s.sessions.filter (·.listed)).length

/-- No client and no session has come into the lists. -/
structure NoMore (s s' : Server) : Prop where
  clientList : s'.clientList.length ≤ s.clientList.length
  count : s'.count ≤ s.count

theorem NoMore.refl (s : Server) :
  s.NoMore s
  := ⟨le_rfl, le_rfl⟩

theorem NoMore.trans {s s' s'' : Server} (h : s.NoMore s') (h' : s'.NoMore s'') :
  s.NoMore s''
  := ⟨h'.clientList.trans h.clientList, h'.count.trans h.count⟩

theorem NoMore.foldl {α : Type} {f : Server → α → Server} (hf : ∀ s x, NoMore s (f s x))
    (xs : List α) (s : Server) :
  s.NoMore (xs.foldl f s)
  := by
  induction xs generalizing s with
  | nil => apply NoMore.refl
  | cons x xs ih => apply (hf s x).trans (ih (f s x))

variable {config : Config}

theorem noMore_removeClient (s : Server) (id : String) :
  s.NoMore (s.removeClient id)
  := ⟨List.length_filter_le .., le_rfl⟩

theorem noMore_settle (s : Server) (c : ClientRef) (event : Awaited) :
  s.NoMore (s.settle c event)
  := by
  apply NoMore.trans _ (noMore_removeClient ..)
  cases event with
  | complete k => exact ⟨le_rfl, le_rfl⟩
  | kicked => apply NoMore.refl

theorem noMore_sendTextWithAck (s : Server) (c : ClientRef) (event : Awaited) :
  s.NoMore (s.sendTextWithAck c event)
  := by
  rw [sendTextWithAck]
  split
  · exact ⟨le_rfl, le_rfl⟩
  · apply noMore_settle

theorem noMore_resolveAck (s : Server) (c : ClientRef) (event : Awaited) :
  s.NoMore (s.resolveAck c event)
  := by
  apply NoMore.trans _ (noMore_settle ..)
  exact ⟨le_rfl, le_rfl⟩

theorem noMore_acknowledge (s : Server) (c : ClientRef) (event : Awaited) :
  s.NoMore (s.acknowledge c event)
  := by
  rw [acknowledge]
  split
  · apply noMore_resolveAck
  · cases event <;> exact ⟨le_rfl, le_rfl⟩

theorem noMore_sendKicked (s : Server) (c? : Option ClientRef) :
  s.NoMore (s.sendKicked c?)
  := by
  cases c? with
  | none => apply NoMore.refl
  | some c => apply noMore_sendTextWithAck

/-- An object in place of one that is in the list as well. -/
theorem noMore_setSession {s : Server} {k : ℕ} {t t' : TransferSession}
    (ht : s.sessions[k]? = some t) (hlisted : t'.listed = t.listed) :
  s.NoMore (s.setSession k t')
  := by
  obtain ⟨hlt, rfl⟩ := List.getElem?_eq_some_iff.mp ht
  have hpos : s.sessions[k].listed = true → 0 < s.sessions.countP (·.listed) := by
    intro hl
    apply List.countP_pos_iff.mpr
    exact ⟨_, List.getElem_mem hlt, hl⟩
  use le_rfl
  simp only [count, setSession, ← List.countP_eq_length_filter, List.countP_set hlt, hlisted]
  split
  · next hl => exact (Nat.sub_add_cancel (hpos hl)).le
  · apply le_rfl

theorem noMore_removeSession (s : Server) (id : String) :
  s.NoMore (s.removeSession id)
  := by
  use le_rfl
  simp only [count, removeSession, ← List.countP_eq_length_filter, List.countP_map]
  apply List.countP_mono_left
  intro t _ hl
  rw [Function.comp_apply, unlist] at hl
  split at hl
  · cases hl
  · apply hl

theorem noMore_perform (s : Server) (k : ℕ) (op : TransferSession.Op) :
  s.NoMore (s.perform config k op)
  := by
  rw [perform]
  split
  · apply NoMore.refl
  · next t ht =>
      dsimp only
      split
      · refine NoMore.trans ?_ (noMore_sendKicked ..)
        exact noMore_setSession ht rfl
      · refine NoMore.trans ?_ (noMore_removeSession ..)
        refine NoMore.trans ?_ (noMore_sendKicked ..)
        exact noMore_setSession ht rfl

theorem noMore_notifyDestroyed (c : ClientRef) (s : Server) (k : ℕ) :
  s.NoMore (s.notifyDestroyed config c k)
  := by
  rw [notifyDestroyed]
  split
  · apply noMore_perform
  · split
    · apply NoMore.refl
    · next t ht => exact noMore_setSession ht rfl

theorem noMore_runCallbacks (s : Server) (c : ClientRef) :
  s.NoMore (s.runCallbacks c)
  := by
  rw [runCallbacks]
  split
  · have hremove := noMore_removeClient s c.id
    exact ⟨hremove.clientList, hremove.count⟩
  · exact ⟨le_rfl, le_rfl⟩

theorem noMore_destroyClient (s : Server) (c : ClientRef) :
  s.NoMore (s.destroyClient config c)
  := by
  rw [destroyClient]
  refine NoMore.trans ?_ (NoMore.foldl (noMore_notifyDestroyed c) _ _)
  refine NoMore.trans ?_ (noMore_runCallbacks ..)
  exact ⟨le_rfl, le_rfl⟩

theorem noMore_sendComplete (k : ℕ) (type : TransferSessionCompleteType) (s : Server)
    (c : ClientRef) :
  s.NoMore (sendComplete k type s c)
  := by
  refine NoMore.trans ?_ (noMore_sendTextWithAck ..)
  exact ⟨le_rfl, le_rfl⟩

theorem noMore_destruct (s : Server) (k : ℕ) :
  s.NoMore (s.destruct k)
  := by
  rw [destruct]
  split
  · apply NoMore.refl
  · refine NoMore.trans ?_ (NoMore.foldl (noMore_sendComplete k _) _ _)
    exact ⟨le_rfl, le_rfl⟩

theorem listed_addReceiver (config : TransferSessionDetails.Config) (t : TransferSession)
    (c : ClientRef) :
  (t.addReceiver config c).1.listed = t.listed
  := by
  cases ha : (t.addReceiver config c).2 with
  | true => rw [(TransferSession.addReceiver_of_true ha).2]
  | false => rw [TransferSession.addReceiver_of_false ha]

theorem noMore_joinSession (s : Server) (c : ClientRef) (k : ℕ) (id : String) :
  s.NoMore (s.joinSession c k id).1
  := by
  rw [joinSession]
  split_ifs <;> exact ⟨le_rfl, le_rfl⟩

/-- The call that enters a new session into the list. -/
def Call.createsSession (s : Server) : Call → Bool
  | .createAdd c _ => (s.getSession c.publicId).isNone
  | _ => false

theorem noMore_serve {s : Server} {call : Call} (hcall : call.createsSession s = false)
    (cookie : String) :
  s.NoMore (s.serve config cookie call).1
  := by
  cases call with
  | join id? =>
      rw [serve.eq_def]
      dsimp only
      split <;> apply NoMore.refl
  | joinFind c id =>
      rw [serve]
      split <;> apply NoMore.refl
  | joinTest c k =>
      rw [serve]
      split_ifs <;> apply NoMore.refl
  | joinRemoved c k =>
      rw [serve]
      split <;> apply NoMore.refl
  | joinMember c k =>
      rw [serve]
      split <;> apply NoMore.refl
  | joinAdd c k =>
      have hadd : ∀ t, s.sessions[k]? = some t →
          s.NoMore (s.setSession k (t.addReceiver config.toConfig c).1) :=
        fun t ht => noMore_setSession ht (listed_addReceiver ..)
      rw [serve]
      split
      · apply NoMore.refl
      · next t ht =>
          split
          · next t' heq => simpa only [heq] using hadd t ht
          · next t' heq => simpa only [heq] using hadd t ht
  | joinSet c k =>
      have hjoin := noMore_joinSession s c k (s.sessionId k)
      rw [serve]
      split
      · next s' heq => simpa only [heq] using hjoin
      · next s' heq => simpa only [heq] using hjoin
  | create body =>
      rw [serve]
      split <;> apply NoMore.refl
  | createTest c body =>
      rw [serve]
      split <;> apply NoMore.refl
  | createLimit c body =>
      rw [serve.eq_def]
      dsimp only
      split
      · split <;> apply NoMore.refl
      · apply NoMore.refl
  | createAdd c auto =>
      obtain ⟨k, hk⟩ := Option.isSome_iff_exists.mp (by simpa [Call.createsSession] using hcall)
      rw [serve, createSession, hk]
      apply NoMore.refl
  | createSet c k =>
      have hjoin := noMore_joinSession s c k (s.sessionId k)
      rw [serve]
      split
      · next s' heq => simpa only [heq] using hjoin
      · next s' heq => simpa only [heq] using hjoin
  | createUndo c k => apply noMore_removeSession

theorem noMore_advance {s : Server} {r : Request} (hcall : r.call.createsSession s = false) :
  s.NoMore (s.advance config r)
  := by
  have htaken : r.call.createsSession { s with requests := s.requests.erase r } = false := hcall
  have hserve : NoMore _ (Server.serve config _ r.cookie r.call).1 := noMore_serve htaken r.cookie
  rw [advance]
  dsimp only
  split
  · exact ⟨hserve.clientList, hserve.count⟩
  · exact ⟨hserve.clientList, hserve.count⟩

/-- The session a handler makes is one more in the list. -/
theorem advance_createsSession {s : Server} {r : Request}
    (hcall : r.call.createsSession s = true) :
  (s.advance config r).clientList = s.clientList ∧ (s.advance config r).count = s.count + 1
  := by
  obtain ⟨cookie, call, changed⟩ := r
  cases call with
  | createAdd c auto =>
      have hnone : (s.getSession c.publicId).isSome = false := by
        simpa [Call.createsSession] using hcall
      have hserve : Server.createSession
            { s with requests := s.requests.erase ⟨cookie, .createAdd c auto, changed⟩ } c auto
          = some { s with
              requests := s.requests.erase ⟨cookie, .createAdd c auto, changed⟩
              sessions := s.sessions ++ [TransferSession.create c auto] } :=
        if_neg (Bool.eq_false_iff.mp hnone)
      simp [advance, serve, hserve, count, TransferSession.create]
  | _ => cases hcall

/-- A handler enters a new session into the list next. -/
def createsSession (s : Server) : Action → Bool
  | .advance r => decide (r ∈ s.requests) && r.call.createsSession s
  | _ => false

/-- A step makes no client. -/
def registers : Action → Bool
  | .register _ => true
  | _ => false

theorem noMore_step (config : Config) {s : Server} {a : Action}
    (hclient : registers a = false) (hsession : s.createsSession a = false) :
  s.NoMore (s.step config a)
  := by
  cases a with
  | register id => cases hclient
  | leave id => apply noMore_removeClient
  | connect c =>
      rw [step]
      split <;> exact ⟨le_rfl, le_rfl⟩
  | disconnect c => exact ⟨le_rfl, le_rfl⟩
  | destroyClient c =>
      rw [step]
      split
      · apply noMore_destroyClient
      · apply NoMore.refl
  | timeout c event =>
      rw [step]
      split
      · apply noMore_resolveAck
      · apply NoMore.refl
  | acknowledge c event =>
      rw [step]
      split
      · apply noMore_acknowledge
      · apply NoMore.refl
  | hold k =>
      rw [step]
      split <;> exact ⟨le_rfl, le_rfl⟩
  | release k => exact ⟨le_rfl, le_rfl⟩
  | operate k op =>
      rw [step]
      split
      · apply noMore_perform
      · apply NoMore.refl
  | destruct k =>
      rw [step]
      split
      · apply NoMore.refl
      · apply noMore_destruct
  | requestCreate cookie body => exact ⟨le_rfl, le_rfl⟩
  | requestJoin cookie id? => exact ⟨le_rfl, le_rfl⟩
  | advance r =>
      rw [step]
      split
      · next hr => exact noMore_advance (by simpa [createsSession, hr] using hsession)
      · apply NoMore.refl

/-- A step that makes a session is one more in the list. -/
theorem step_createsSession (config : Config) {s : Server} {a : Action}
    (h : s.createsSession a = true) :
  (s.step config a).clientList = s.clientList ∧ (s.step config a).count = s.count + 1
  := by
  cases a with
  | advance r =>
      obtain ⟨hr, hcall⟩ : r ∈ s.requests ∧ r.call.createsSession s = true := by
        simpa [createsSession] using h
      rw [step, if_pos hr]
      apply advance_createsSession hcall
  | _ => cases h

end Server

/-! ### The clients that are made -/

namespace Admission

/-- The id of the client a call makes, if it is not taken. -/
def Call.creates : Call → Option Bytes
  | .requestCreate clientId | .validationCreate clientId _ => some clientId
  | _ => none

/-- The id of the client a handler makes next. -/
def createsClient (a : Admission) : Step → Option Bytes
  | .advance k => (a.calls[k]?.bind Call.creates).filter (!a.clientList.contains ·)
  | _ => none

variable {config : AdmissionConfig} {a : Admission}

theorem clientList_validate (answer clientId token : Bytes) :
  (a.validate config answer clientId token).1.clientList = a.clientList
  := by
  rw [validate]
  split <;> rfl

theorem clientList_exec_of_none {call : Call} (h : call.creates = none) :
  (a.exec config call).1.clientList = a.clientList
  := by
  cases call with
  | requestCreate clientId => cases h
  | validationCreate clientId token => cases h
  | requestCaptcha draw => rfl
  | request cookie name draw =>
      rw [exec]
      split_ifs <;> rfl
  | validationValidate body =>
      rw [exec]
      split
      · rfl
      · apply clientList_validate
  | requestCount | requestThreshold | validation | validationCount =>
      rw [exec]
      split <;> rfl

theorem clientList_exec_of_some {call : Call} {clientId : Bytes}
    (h : call.creates = some clientId) :
  (a.exec config call).1.clientList
    = if clientId ∈ a.clientList then a.clientList else clientId :: a.clientList
  := by
  have hcreate : ∀ admitted, (a.internalCreateClient clientId admitted).1.clientList
      = if clientId ∈ a.clientList then a.clientList else clientId :: a.clientList := by
    intro admitted
    rw [internalCreateClient]
    split <;> rfl
  cases call with
  | requestCreate | validationCreate =>
      cases h
      apply hcreate
  | _ => cases h

/-- A step that removes no client makes the one that `createsClient` tells of. -/
theorem clientList_step {st : Step} (h : ∀ id, st ≠ .remove id) :
  (a.step config st).clientList = (a.createsClient st).toList ++ a.clientList
  := by
  cases st with
  | remove id => cases h id rfl
  | tick later =>
      rw [step]
      split <;> rfl
  | identityRequest cookie name draw => rfl
  | identityValidation cookie body => rfl
  | advance k =>
      rw [step, createsClient]
      cases hk : a.calls[k]? with
      | none => rfl
      | some call =>
          rw [Option.bind_some]
          cases hcreates : call.creates with
          | none => apply clientList_exec_of_none hcreates
          | some clientId =>
              simp only [clientList_exec_of_some hcreates, Option.filter_some]
              split <;> simp_all

end Admission

/-! ### The service -/

/-- The id with the bytes for its characters. -/
def text (id : Bytes) : String := String.ofList (id.map fun b => Char.ofNat b.toNat)

theorem bytes_text (id : Bytes) :
  bytes (text id) = id
  := by
  have hbyte : ∀ n : Fin 256, (Char.ofNat n).toUInt8 = UInt8.ofNat n := by decide +kernel
  rw [bytes, text, String.toList_ofList, List.map_map]
  apply List.map_id''
  intro b
  rw [Function.comp_apply]
  have h := hbyte ⟨b.toNat, b.toNat_lt⟩
  rwa [UInt8.ofNat_toNat] at h

namespace Service

structure Config where
  server : Server.Config
  admission : AdmissionConfig

inductive Action where
  | server (action : Server.Action)
  | identity (step : Admission.Step)

/-- The ids of the clients in the list. -/
def ids (s : Server) : List Bytes := s.clientList.map fun c => bytes c.id

/-- The server has just started. -/
def init (now : Int64) : Service := ⟨{}, { now }⟩

/-- Clients are made by the requests for an identity alone, and removed by the server alone. -/
def step (config : Config) (s : Service) : Action → Service
  | .server (.register _) | .identity (.remove _) => s
  | .server action =>
      let server := s.server.step config.server action
      ⟨server, { s.admission with clientList := ids server }⟩
  | .identity step =>
      let admission := s.admission.step config.admission step
      let server := match s.admission.createsClient step with
        | some id => s.server.step config.server (.register (text id))
        | none => s.server
      ⟨server, { admission with clientList := ids server }⟩

/-- `count_limit` and `max_count`. -/
structure WithinLimits (config : Config) (s : Service) : Prop where
  sessions : s.server.count ≤ config.server.transferSessionCountLimit
  clients : s.server.clientList.length ≤ config.admission.apiMaxClientCount

instance (config : Config) (s : Service) : Decidable (s.WithinLimits config) :=
  decidable_of_iff (s.server.count ≤ config.server.transferSessionCountLimit
      ∧ s.server.clientList.length ≤ config.admission.apiMaxClientCount)
    ⟨fun h => ⟨h.1, h.2⟩, fun h => ⟨h.1, h.2⟩⟩

/-- The test that the handler has made of the limit would pass once more where it enters the
session or the client into the list. -/
def findsRoom (config : Config) (s : Service) : Action → Bool
  | .server action =>
      !s.server.createsSession action || s.server.possibleToCreateNew config.server
  | .identity step =>
      (s.admission.createsClient step).isNone
        || !decide (config.admission.apiMaxClientCount ≤ s.admission.clientList.length)

/-- There is one list of clients. -/
def Synced (s : Service) : Prop := s.admission.clientList = ids s.server

section

variable {config : Config} {s : Service}

theorem Synced.step (config : Config) (h : s.Synced) (a : Action) :
  (s.step config a).Synced
  := by
  cases a with
  | server action =>
      cases action with
      | register id => exact h
      | _ => rfl
  | identity step =>
      cases step with
      | remove id => exact h
      | _ => rfl

theorem notMem_of_createsClient {a : Admission} {st : Admission.Step} {id : Bytes}
    (hid : a.createsClient st = some id) :
  id ∉ a.clientList
  := by
  cases st with
  | advance k => simpa using (Option.filter_eq_some_iff.mp hid).2
  | _ => cases hid

/-- A new client is registered, and nothing else happens. -/
theorem register_of_createsClient (config : Config) (h : s.Synced) {st : Admission.Step}
    {id : Bytes} (hid : s.admission.createsClient st = some id) :
  ∃ c : ClientRef, c.id = text id
    ∧ (s.server.step config.server (.register (text id))).clientList = c :: s.server.clientList
    ∧ (s.server.step config.server (.register (text id))).sessions = s.server.sessions
  := by
  have hfresh : ¬(s.server.getClient (text id)).isSome = true := by
    rw [Server.getClient, List.find?_isSome]
    rintro ⟨c, hc, heq⟩
    apply notMem_of_createsClient hid
    rw [h, ids, List.mem_map]
    use c, hc
    rw [beq_iff_eq.mp heq, bytes_text]
  rw [Server.step, if_neg hfresh]
  exact ⟨_, rfl, rfl, rfl⟩

theorem server_step_of_none {st : Admission.Step} (hid : s.admission.createsClient st = none) :
  (s.step config (.identity st)).server = s.server
  := by
  cases st with
  | remove id => rfl
  | _ => simp only [Service.step, hid]

theorem server_step_of_some {st : Admission.Step} {id : Bytes}
    (hid : s.admission.createsClient st = some id) :
  (s.step config (.identity st)).server = s.server.step config.server (.register (text id))
  := by
  cases st with
  | remove id => cases hid
  | _ => simp only [Service.step, hid]

/-- The requests work on the list of the server. -/
theorem clientList_step_identity (h : s.Synced) {st : Admission.Step}
    (hst : ∀ id, st ≠ .remove id) :
  (s.step config (.identity st)).admission.clientList
    = (s.admission.step config.admission st).clientList
  := by
  have hsynced := h.step config (.identity st)
  rw [hsynced, Admission.clientList_step hst]
  cases hid : s.admission.createsClient st with
  | none =>
      rw [server_step_of_none hid, ← h]
      rfl
  | some id =>
      obtain ⟨c, hc, hclients, -⟩ := register_of_createsClient config h hid
      rw [server_step_of_some hid, ids, hclients, List.map_cons, hc, bytes_text, h]
      rfl

theorem server_step_server (config : Config) (s : Service) {action : Server.Action}
    (h : Server.registers action = false) :
  (s.step config (.server action)).server = s.server.step config.server action
  := by
  cases action with
  | register id => cases h
  | _ => rfl

/-- A step keeps within the limits exactly when it finds room. -/
theorem withinLimits_step_iff (h : s.Synced) (hw : s.WithinLimits config) (a : Action) :
  (s.step config a).WithinLimits config ↔ s.findsRoom config a = true
  := by
  cases a with
  | server action =>
      cases hregisters : Server.registers action with
      | true =>
          obtain ⟨id, rfl⟩ : ∃ id, action = .register id := by
            cases action with
            | register id => exact ⟨id, rfl⟩
            | _ => cases hregisters
          apply iff_of_true hw rfl
      | false =>
          have hserver := server_step_server config s hregisters
          cases hcreates : s.server.createsSession action with
          | false =>
              have hmore := Server.noMore_step config.server hregisters hcreates
              apply iff_of_true
              · constructor
                · rw [hserver]
                  apply hmore.count.trans hw.sessions
                · rw [hserver]
                  apply hmore.clientList.trans hw.clients
              · simp [findsRoom, hcreates]
          | true =>
              obtain ⟨hclients, hcount⟩ :=
                Server.step_createsSession config.server hcreates
              have hroom : s.findsRoom config (.server action) = true
                  ↔ s.server.count < config.server.transferSessionCountLimit := by
                simp [findsRoom, hcreates, Server.possibleToCreateNew, Server.count]
              rw [hroom]
              constructor
              · intro hstep
                have hsessions := hstep.sessions
                rwa [hserver, hcount] at hsessions
              · intro hlt
                constructor
                · rwa [hserver, hcount]
                · rw [hserver, hclients]
                  apply hw.clients
  | identity st =>
      cases hid : s.admission.createsClient st with
      | none =>
          apply iff_of_true
          · constructor
            · rw [server_step_of_none hid]
              apply hw.sessions
            · rw [server_step_of_none hid]
              apply hw.clients
          · simp [findsRoom, hid]
      | some id =>
          obtain ⟨c, -, hclients, hsessions⟩ := register_of_createsClient config h hid
          have hlength : s.admission.clientList.length = s.server.clientList.length := by
            rw [h, ids, List.length_map]
          have hroom : s.findsRoom config (.identity st) = true
              ↔ s.server.clientList.length < config.admission.apiMaxClientCount := by
            simp [findsRoom, hid, hlength]
          rw [hroom]
          constructor
          · intro hstep
            have hclients' := hstep.clients
            rwa [server_step_of_some hid, hclients] at hclients'
          · intro hlt
            constructor
            · rw [server_step_of_some hid, Server.count, hsessions]
              apply hw.sessions
            · rwa [server_step_of_some hid, hclients]

theorem withinLimits_init (now : Int64) :
  (init now).WithinLimits config
  := ⟨Nat.zero_le _, Nat.zero_le _⟩

/-- The lists stay within the limits exactly as long as each entry is made where the test of
its limit would still pass. -/
theorem everyState_withinLimits_iff (config : Config) (now : Int64) (actions : List Action) :
  Machine.EveryState (step config) (WithinLimits config) (init now) actions
    ↔ Machine.EveryStep (step config) (fun s a => s.findsRoom config a = true) (init now) actions
  := by
  have hinv : ∀ (s : Service) (a : Action), s.Synced → (s.step config a).Synced :=
    fun _ a h => h.step config a
  have hstart : (init now).Synced := rfl
  apply Machine.everyState_iff_everyStep hinv _ hstart (withinLimits_init now)
  exact fun s a h hw => withinLimits_step_iff h hw a

end

/-! ### Two requests for one place -/

namespace Sample

/-- There is room for one client and for one session, and never a captcha. -/
def config : Config where
  server := { Server.Sample.config with transferSessionCountLimit := 1 }
  admission := { Admission.Sample.config with
    apiMaxClientCount := 1
    apiWithoutCaptchaThreshold := 1 }

def id (b : UInt8) : Bytes := [b]

def draw (b : UInt8) : Admission.Draw where
  clientIdCondidate := id b
  nonce := []
  answer := []

def advance (k : ℕ) : Action := .identity (.advance k)

/-- Two clients ask for an identity together. -/
def identified : List Action :=
  [.identity (.identityRequest [] (some []) (draw 97)),
    .identity (.identityRequest [] (some []) (draw 98)),
    advance 0, advance 1, advance 0, advance 1, advance 0, advance 1, advance 0, advance 0]

def client (ref : ℕ) (b : UInt8) : ClientRef :=
  ⟨ref, text (id b), config.server.sign (text (id b))⟩

/-- The handlers of two requests to create a session make the same call. -/
def both (call : ClientRef → Server.Call) : List Action :=
  [.server (.advance ⟨text (id 97), call (client 0 97), false⟩),
    .server (.advance ⟨text (id 98), call (client 1 98), false⟩)]

/-- Then they create a session together. -/
def crowded : List Action :=
  identified
    ++ [.server (.requestCreate (text (id 97)) (.options false)),
      .server (.requestCreate (text (id 98)) (.options false))]
    ++ both (fun _ => .create (.options false))
    ++ both (fun c => .createTest c (.options false))
    ++ both (fun c => .createLimit c (.options false))
    ++ both (fun c => .createAdd c false)

end Sample

/-- Both lists are one too long in the end. -/
theorem run_crowded :
  (Machine.run (step Sample.config) (init 0) Sample.crowded).server.count = 2
    ∧ (Machine.run (step Sample.config) (init 0) Sample.crowded).server.clientList.length = 2
  := by decide +kernel

theorem not_everyState_withinLimits :
  ¬Machine.EveryState (step Sample.config) (WithinLimits Sample.config) (init 0) Sample.crowded
  := by
  intro h
  have hlimit := h.last.sessions
  rw [run_crowded.1] at hlimit
  exact absurd hlimit (by decide)

end Service

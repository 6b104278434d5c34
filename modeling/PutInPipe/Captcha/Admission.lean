import Mathlib.Data.List.Nodup
import PutInPipe.Captcha.Skaptcha
import PutInPipe.Library.Run
import PutInPipe.Library.Threads

/-!
# Admission of clients

`Admission` is the list of clients with the requests for an identity that are being handled.
A request is the sequence of calls of its handler, and other steps may come between two of
them. A client leaves the list by `ClientList::remove`, whatever the reason.

That a captcha has been used is told only by its candidate id being in the list. `AdmitsOnce`
says that no captcha admits two clients.
-/

open Text (Bytes)

/-- The settings, and the cryptography. -/
structure AdmissionConfig where
  crypto : Crypto
  apiMaxClientCount : ℕ
  apiWithoutCaptchaThreshold : ℕ
  apiCaptchaLifetime : Int64

namespace Admission

/-- The fields of the body of `identityValidation`, `none` where there is no such string. All
are `none` where the body is not a JSON object. -/
structure Body where
  captchaAnswer : Option Bytes
  clientId : Option Bytes
  captchaToken : Option Bytes
  name : Option Bytes
deriving DecidableEq, Repr

/-- What is drawn at random: the candidate id, the nonce and the answer of the captcha. -/
structure Draw where
  clientIdCondidate : Bytes
  nonce : Bytes
  answer : Bytes
deriving DecidableEq, Repr

/-- The call the handler of a request makes next. -/
inductive Call where
  | request (cookie : Bytes) (name : Option Bytes) (draw : Draw)
  | requestCount (draw : Draw)
  | requestThreshold (draw : Draw)
  | requestCreate (clientId : Bytes)
  | requestCaptcha (draw : Draw)
  | validation (cookie : Bytes) (body : Body)
  | validationCount (body : Body)
  | validationValidate (body : Body)
  | validationCreate (clientId : Bytes) (captchaToken : Bytes)
deriving DecidableEq, Repr

inductive Answer where
  | text (code : ℕ) (body : String)
  | client (id : Bytes)
  | captcha (token clientId : Bytes)
deriving DecidableEq, Repr

end Admission

open Admission

/-- `admitted` are the tokens by which `identityValidation` has made a client, and the ids of
these clients. -/
structure Admission where
  now : Int64
  clientList : List Bytes := []
  calls : List Call := []
  answers : List Answer := []
  admitted : List (Bytes × Bytes) := []

namespace Admission

/-! ### The handlers -/

section

variable (config : AdmissionConfig)

/-- The request is answered. -/
def finish (a : Admission) (answer : Answer) : Admission × Option Call :=
  ({ a with answers := a.answers ++ [answer] }, none)

/-- A field of the body that has to be a string with a character at least. -/
def stringField (name : String) : Option Bytes → Except Answer Bytes
  | none => .error (.text 400 ("." ++ name ++ " should be a string"))
  | some [] => .error (.text 400 ("." ++ name ++ " is empty"))
  | some value => .ok value

/-- The fields of the body, in the order they are checked. The name is only checked here. -/
def fields (body : Body) : Except Answer (Bytes × Bytes × Bytes) := do
  let answer ← stringField "captcha_answer" body.captchaAnswer
  let clientId ← stringField "client_id" body.clientId
  let captchaToken ← stringField "captcha_token" body.captchaToken
  let _ ← stringField "name" body.name
  pure (answer, clientId, captchaToken)

/-- `internalCreateClient`, for a client with the id. -/
def internalCreateClient (a : Admission) (clientId : Bytes) (admitted : List (Bytes × Bytes)) :
    Admission × Option Call :=
  if clientId ∈ a.clientList then a.finish (.text 403 "The captcha has already been used")
  else { a with clientList := clientId :: a.clientList, admitted := admitted }.finish
    (.client clientId)

/-- The rest of the handler of `identityValidation` before it creates the client. An exception
is answered by the web framework. -/
def validate (a : Admission) (answer clientId captchaToken : Bytes) : Admission × Option Call :=
  match Skaptcha.validate config.crypto a.now clientId captchaToken answer with
  | .error _ => a.finish (.text 500 "")
  | .ok false => a.finish (.text 403 "Incorrect response or captcha expired")
  | .ok true => (a, some (.validationCreate clientId captchaToken))

/-- The next call of a handler, and where the handler is then unless it has answered. -/
def exec (a : Admission) : Call → Admission × Option Call
  | .request cookie name draw =>
      if cookie ≠ [] ∧ cookie ∈ a.clientList then
        a.finish (.text 400 "You are already authorized")
      else if name = none then a.finish (.text 403 "You must pass the name")
      else (a, some (.requestCount draw))
  | .requestCount draw =>
      if config.apiMaxClientCount ≤ a.clientList.length then
        a.finish (.text 503
          "The maximum number of clients has been reached, please try again later")
      else (a, some (.requestThreshold draw))
  | .requestThreshold draw =>
      if a.clientList.length < config.apiWithoutCaptchaThreshold then
        (a, some (.requestCreate draw.clientIdCondidate))
      else (a, some (.requestCaptcha draw))
  | .requestCreate clientId => a.internalCreateClient clientId a.admitted
  | .requestCaptcha draw =>
      a.finish (.captcha (Skaptcha.generate config.crypto a.now draw.nonce draw.answer
        draw.clientIdCondidate config.apiCaptchaLifetime) draw.clientIdCondidate)
  | .validation cookie body =>
      if cookie ≠ [] ∧ cookie ∈ a.clientList then
        a.finish (.text 400 "You are already authorized")
      else (a, some (.validationCount body))
  | .validationCount body =>
      if config.apiMaxClientCount ≤ a.clientList.length then
        a.finish (.text 503
          "The maximum number of clients has been reached, please try again later")
      else (a, some (.validationValidate body))
  | .validationValidate body =>
      match fields body with
      | .error answer => a.finish answer
      | .ok (answer, clientId, captchaToken) => a.validate config answer clientId captchaToken
  | .validationCreate clientId captchaToken =>
      a.internalCreateClient clientId ((captchaToken, clientId) :: a.admitted)

/-- What happens next: the clock moves on, a request comes in, the handler of request `k`
makes its next call, or a client is removed. -/
inductive Step where
  | tick (later : Int64)
  | identityRequest (cookie : Bytes) (name : Option Bytes) (draw : Draw)
  | identityValidation (cookie : Bytes) (body : Body)
  | advance (k : ℕ)
  | remove (id : Bytes)
deriving DecidableEq, Repr

def step (a : Admission) : Step → Admission
  | .tick later => if a.now ≤ later then { a with now := later } else a
  | .identityRequest cookie name draw =>
      { a with calls := a.calls ++ [.request cookie name draw] }
  | .identityValidation cookie body => { a with calls := a.calls ++ [.validation cookie body] }
  | .advance k =>
      match a.calls[k]? with
      | none => a
      | some call =>
          { (a.exec config call).1 with
            calls := Threads.goOn a.calls k (a.exec config call).2 }
  | .remove id => { a with clientList := a.clientList.filter (· ≠ id) }

/-- The server has just started. -/
structure Starts (a : Admission) : Prop where
  clientList : a.clientList = []
  calls : a.calls = []
  answers : a.answers = []
  admitted : a.admitted = []

/-- Each captcha token that was handed out has admitted one client at most. -/
def AdmitsOnce (a : Admission) : Prop :=
  ∀ token clientId, .captcha token clientId ∈ a.answers → (a.admitted.map Prod.fst).count token ≤ 1

/-! ### The condition -/

/-- The token has not expired. -/
def live (crypto : Crypto) (now : Int64) (token : Bytes) : Bool :=
  match ExpiringToken.fromString crypto now token with
  | .ok (some _) => true
  | _ => false

/-- A validated request has the token and is about to create its client. -/
def aboutToCreate (a : Admission) (token : Bytes) : Bool :=
  a.calls.any fun
    | .validationCreate _ captchaToken => captchaToken == token
    | _ => false

/-- A client that a captcha has admitted is removed only when its token has expired, and no
validated request with the token is about to create a client. -/
def outlives (a : Admission) : Step → Bool
  | .remove id => a.admitted.all fun (token, clientId) =>
      clientId != id || (!live config.crypto a.now token && !a.aboutToCreate token)
  | _ => true

end

/-! ### What a token is valid for -/

/-- The context a token is valid for. -/
def ValidFor (crypto : Crypto) (token clientId : Bytes) : Prop :=
  ∃ now answer, Skaptcha.validate crypto now clientId token answer = .ok true

theorem fromString_eq_some_iff {crypto : Crypto} {now : Int64} {token : Bytes}
    {shared : ExpiringToken} :
  ExpiringToken.fromString crypto now token = .ok (some shared)
    ↔ ∃ base, Token.fromString crypto token = .ok (some base)
      ∧ PrivatePayload.fromString base.payload = some shared ∧ shared.isExpired now = false
  := by
  rw [ExpiringToken.fromString]
  cases hbase : Token.fromString crypto token with
  | error e => simp [bind, Except.bind]
  | ok base? =>
      cases base? with
      | none => simp [bind, Except.bind, pure, Except.pure]
      | some base =>
          cases hpayload : PrivatePayload.fromString base.payload with
          | none => simp [bind, Except.bind, pure, Except.pure, hpayload]
          | some payload =>
              simp only [bind, Except.bind, hpayload, pure, Except.pure, Except.ok.injEq,
                Option.some.injEq, exists_eq_left', Option.ite_none_left_eq_some,
                Bool.not_eq_true]
              constructor
              · rintro ⟨hexpired, rfl⟩
                exact ⟨rfl, hexpired⟩
              · rintro ⟨rfl, hexpired⟩
                exact ⟨hexpired, rfl⟩

/-- What `validate` has found in a token it accepts. -/
theorem shared_of_validate {crypto : Crypto} {now : Int64} {clientId token answer : Bytes}
    (h : Skaptcha.validate crypto now clientId token answer = .ok true) :
  ∃ shared answerFromToken digest,
    ExpiringToken.fromString crypto now token = .ok (some shared)
      ∧ SkaptchaTools.split shared.usersPayload Skaptcha.tokenDelimiter
        = [answerFromToken, digest]
      ∧ SkaptchaTools.base64decode digest = .ok clientId
  := by
  rw [Skaptcha.validate] at h
  split at h
  · cases h
  · cases hshared : ExpiringToken.fromString crypto now token with
    | error e =>
        rw [hshared] at h
        cases h
    | ok shared? =>
        cases shared? with
        | none =>
            rw [hshared] at h
            cases h
        | some shared =>
            rw [hshared] at h
            simp only [bind, Except.bind] at h
            split at h
            case h_1 answerFromToken digest hsplit =>
                use shared, answerFromToken, digest, rfl, hsplit
                split at h
                case h_1 => cases h
                case h_2 contextFromToken hdecode =>
                    split at h
                    case isTrue => cases h
                    case isFalse heq => rw [hdecode, not_ne_iff.mp heq]
            case h_2 => cases h

/-- A token is valid for one context. -/
theorem ValidFor.unique {crypto : Crypto} {token clientId clientId' : Bytes}
    (h : ValidFor crypto token clientId) (h' : ValidFor crypto token clientId') :
  clientId = clientId'
  := by
  obtain ⟨now, answer, hvalid⟩ := h
  obtain ⟨now', answer', hvalid'⟩ := h'
  obtain ⟨shared, answerFromToken, digest, hshared, hsplit, hdecode⟩ := shared_of_validate hvalid
  obtain ⟨shared', answerFromToken', digest', hshared', hsplit', hdecode'⟩ :=
    shared_of_validate hvalid'
  obtain ⟨base, hbase, hpayload, -⟩ := fromString_eq_some_iff.mp hshared
  obtain ⟨base', hbase', hpayload', -⟩ := fromString_eq_some_iff.mp hshared'
  obtain rfl : base = base' := by simpa [hbase] using hbase'
  obtain rfl : shared = shared' := by simpa [hpayload] using hpayload'
  obtain ⟨-, rfl⟩ : answerFromToken = answerFromToken' ∧ digest = digest' := by
    simpa [hsplit] using hsplit'
  simpa [hdecode] using hdecode'

theorem live_iff {crypto : Crypto} {now : Int64} {token : Bytes} :
  live crypto now token = true
    ↔ ∃ shared, ExpiringToken.fromString crypto now token = .ok (some shared)
  := by
  unfold live
  split
  case h_1 shared h => simp [h]
  case h_2 h =>
      constructor
      · exact fun hfalse => Bool.noConfusion hfalse
      · rintro ⟨shared, hshared⟩
        exact absurd hshared (h shared)

theorem live_of_validate {crypto : Crypto} {now : Int64} {clientId token answer : Bytes}
    (h : Skaptcha.validate crypto now clientId token answer = .ok true) :
  live crypto now token = true
  := by
  obtain ⟨shared, -, -, hshared, -⟩ := shared_of_validate h
  apply live_iff.mpr ⟨shared, hshared⟩

/-- A token that has expired stays so. -/
theorem live_antitone {crypto : Crypto} {now later : Int64} (hle : now ≤ later) {token : Bytes}
    (h : live crypto later token = true) :
  live crypto now token = true
  := by
  obtain ⟨shared, hshared⟩ := live_iff.mp h
  obtain ⟨base, hbase, hpayload, hexpired⟩ := fromString_eq_some_iff.mp hshared
  have hexpired' : shared.isExpired now = false := by
    rw [PrivatePayload.isExpired, decide_eq_false_iff_not] at hexpired ⊢
    exact fun hlt => hexpired (Int64.lt_of_lt_of_le hlt hle)
  apply live_iff.mpr ⟨shared, fromString_eq_some_iff.mpr ⟨base, hbase, hpayload, hexpired'⟩⟩

/-! ### What a call does -/

section

variable {config : AdmissionConfig} {a : Admission}

/-- A call leaves the clients as they are, and goes on to create a client only after the
validation of its token. -/
structure Quiet (config : AdmissionConfig) (a : Admission) (result : Admission × Option Call) :
    Prop where
  now : result.1.now = a.now
  clientList : result.1.clientList = a.clientList
  admitted : result.1.admitted = a.admitted
  next : ∀ clientId token, result.2 = some (.validationCreate clientId token) →
    ∃ answer, Skaptcha.validate config.crypto a.now clientId token answer = .ok true

/-- A call creates a client. -/
structure Creates (a : Admission) (clientId : Bytes) (admitted : List (Bytes × Bytes))
    (result : Admission × Option Call) : Prop where
  fresh : clientId ∉ a.clientList
  now : result.1.now = a.now
  clientList : result.1.clientList = clientId :: a.clientList
  admitted : result.1.admitted = admitted
  next : result.2 = none

theorem quiet_finish (answer : Answer) :
  Quiet config a (a.finish answer)
  := by
  refine ⟨rfl, rfl, rfl, ?_⟩
  intro clientId token h
  cases h

theorem quiet_some {call : Call} (h : ∀ clientId token, call ≠ .validationCreate clientId token) :
  Quiet config a (a, some call)
  := ⟨rfl, rfl, rfl, fun clientId token heq => absurd (Option.some.inj heq) (h clientId token)⟩

theorem internalCreateClient_cases (config : AdmissionConfig) (a : Admission)
    (clientId : Bytes) (admitted : List (Bytes × Bytes)) :
  Quiet config a (a.internalCreateClient clientId admitted)
    ∨ Creates a clientId admitted (a.internalCreateClient clientId admitted)
  := by
  by_cases hmem : clientId ∈ a.clientList
  · left
    rw [internalCreateClient, if_pos hmem]
    apply quiet_finish
  · right
    rw [internalCreateClient, if_neg hmem]
    exact ⟨hmem, rfl, rfl, rfl, rfl⟩

theorem quiet_validate (answer clientId token : Bytes) :
  Quiet config a (a.validate config answer clientId token)
  := by
  rw [validate]
  split
  case h_1 => apply quiet_finish
  case h_2 => apply quiet_finish
  case h_3 hvalid =>
      refine ⟨rfl, rfl, rfl, ?_⟩
      intro clientId' token' heq
      obtain ⟨rfl, rfl⟩ := Call.validationCreate.inj (Option.some.inj heq)
      exact ⟨answer, hvalid⟩

theorem exec_cases (config : AdmissionConfig) (a : Admission) (call : Call) :
  Quiet config a (a.exec config call)
    ∨ (∃ clientId, Creates a clientId a.admitted (a.exec config call))
    ∨ ∃ clientId token, call = .validationCreate clientId token
      ∧ Creates a clientId ((token, clientId) :: a.admitted) (a.exec config call)
  := by
  cases call with
  | request cookie name draw =>
      left
      rw [exec]
      split
      · apply quiet_finish
      · split
        · apply quiet_finish
        · apply quiet_some fun _ _ h => Call.noConfusion h
  | requestCount draw | requestThreshold draw =>
      left
      rw [exec]
      split
      · first | apply quiet_finish | exact quiet_some fun _ _ h => Call.noConfusion h
      · apply quiet_some fun _ _ h => Call.noConfusion h
  | requestCreate clientId =>
      obtain hquiet | hcreates :=
        internalCreateClient_cases config a clientId a.admitted
      · exact .inl hquiet
      · exact .inr (.inl ⟨clientId, hcreates⟩)
  | requestCaptcha draw =>
      left
      apply quiet_finish
  | validation cookie body | validationCount body =>
      left
      rw [exec]
      split
      · apply quiet_finish
      · apply quiet_some fun _ _ h => Call.noConfusion h
  | validationValidate body =>
      left
      rw [exec]
      split
      · apply quiet_finish
      · apply quiet_validate
  | validationCreate clientId token =>
      obtain hquiet | hcreates := internalCreateClient_cases config a clientId
        ((token, clientId) :: a.admitted)
      · exact .inl hquiet
      · exact .inr (.inr ⟨clientId, token, rfl, hcreates⟩)

/-! ### The invariant -/

/-- What holds while clients outlive their captchas. -/
structure Good (config : AdmissionConfig) (a : Admission) : Prop where
  once : (a.admitted.map Prod.fst).Nodup
  admitted : ∀ token clientId, (token, clientId) ∈ a.admitted →
    ValidFor config.crypto token clientId
  about : ∀ clientId token, .validationCreate clientId token ∈ a.calls →
    ValidFor config.crypto token clientId
  kept : ∀ token clientId, (token, clientId) ∈ a.admitted → clientId ∈ a.clientList
    ∨ (live config.crypto a.now token = false
      ∧ ∀ clientId', .validationCreate clientId' token ∉ a.calls)

theorem Good.quiet (h : a.Good config) {k : ℕ} {result : Admission × Option Call}
    (hquiet : Quiet config a result) :
  Good config { result.1 with calls := Threads.goOn a.calls k result.2 }
  := by
  have hmem : ∀ clientId token,
      .validationCreate clientId token ∈ Threads.goOn a.calls k result.2 →
      (∃ answer, Skaptcha.validate config.crypto a.now clientId token answer = .ok true)
        ∨ .validationCreate clientId token ∈ a.calls := by
    intro clientId token hin
    obtain hnext | hin := Threads.mem_goOn.mp hin
    · exact .inl (hquiet.next clientId token hnext)
    · exact .inr (List.mem_of_mem_eraseIdx hin)
  constructor
  · simp only [hquiet.admitted]
    apply h.once
  · simp only [hquiet.admitted]
    apply h.admitted
  · intro clientId token hin
    obtain ⟨answer, hvalid⟩ | hin := hmem clientId token hin
    · exact ⟨a.now, answer, hvalid⟩
    · apply h.about clientId token hin
  · simp only [hquiet.admitted, hquiet.clientList, hquiet.now]
    intro token clientId hadmitted
    obtain hlisted | ⟨hlive, hcalls⟩ := h.kept token clientId hadmitted
    · exact .inl hlisted
    · right
      use hlive
      intro clientId' hin
      obtain ⟨answer, hvalid⟩ | hin := hmem clientId' token hin
      · rw [live_of_validate hvalid] at hlive
        cases hlive
      · apply hcalls clientId' hin

/-- A client is created without a captcha. -/
theorem Good.creates (h : a.Good config) {k : ℕ} {clientId : Bytes}
    {result : Admission × Option Call} (hcreates : Creates a clientId a.admitted result) :
  Good config { result.1 with calls := Threads.goOn a.calls k result.2 }
  := by
  have hmem : ∀ call, call ∈ Threads.goOn a.calls k result.2 → call ∈ a.calls := by
    intro call hin
    rw [hcreates.next, Threads.mem_goOn] at hin
    obtain hnext | hin := hin
    · cases hnext
    · apply List.mem_of_mem_eraseIdx hin
  constructor
  · simp only [hcreates.admitted]
    apply h.once
  · simp only [hcreates.admitted]
    apply h.admitted
  · exact fun clientId' token hin => h.about clientId' token (hmem _ hin)
  · simp only [hcreates.admitted, hcreates.clientList, hcreates.now]
    intro token clientId' hadmitted
    obtain hlisted | ⟨hlive, hcalls⟩ := h.kept token clientId' hadmitted
    · exact .inl (List.mem_cons_of_mem _ hlisted)
    · exact .inr ⟨hlive, fun clientId'' hin => hcalls clientId'' (hmem _ hin)⟩

/-- A captcha admits a client. It has not admitted one before: that client would be listed, or
no request with the token would be about to create a client. -/
theorem Good.admits (h : a.Good config) {k : ℕ} {clientId token : Bytes}
    (hk : a.calls[k]? = some (.validationCreate clientId token))
    {result : Admission × Option Call}
    (hcreates : Creates a clientId ((token, clientId) :: a.admitted) result) :
  Good config { result.1 with calls := Threads.goOn a.calls k result.2 }
  := by
  have hcall : .validationCreate clientId token ∈ a.calls := List.mem_of_getElem? hk
  have hvalid := h.about clientId token hcall
  have hmem : ∀ call, call ∈ Threads.goOn a.calls k result.2 → call ∈ a.calls := by
    intro call hin
    rw [hcreates.next, Threads.mem_goOn] at hin
    obtain hnext | hin := hin
    · cases hnext
    · apply List.mem_of_mem_eraseIdx hin
  have hfirst : token ∉ a.admitted.map Prod.fst := by
    intro hin
    obtain ⟨⟨token', clientId'⟩, hadmitted, rfl⟩ := List.mem_map.mp hin
    obtain hlisted | ⟨-, hcalls⟩ := h.kept token' clientId' hadmitted
    · rw [(h.admitted token' clientId' hadmitted).unique hvalid] at hlisted
      apply hcreates.fresh hlisted
    · apply hcalls clientId hcall
  constructor
  · simp only [hcreates.admitted, List.map_cons]
    apply List.nodup_cons.mpr ⟨hfirst, h.once⟩
  · simp only [hcreates.admitted]
    intro token' clientId' hadmitted
    obtain heq | hadmitted := List.mem_cons.mp hadmitted
    · obtain ⟨rfl, rfl⟩ := Prod.mk.inj heq
      apply hvalid
    · apply h.admitted token' clientId' hadmitted
  · exact fun clientId' token' hin => h.about clientId' token' (hmem _ hin)
  · simp only [hcreates.admitted, hcreates.clientList, hcreates.now]
    intro token' clientId' hadmitted
    obtain heq | hadmitted := List.mem_cons.mp hadmitted
    · obtain ⟨rfl, rfl⟩ := Prod.mk.inj heq
      exact .inl List.mem_cons_self
    · obtain hlisted | ⟨hlive, hcalls⟩ := h.kept token' clientId' hadmitted
      · exact .inl (List.mem_cons_of_mem _ hlisted)
      · exact .inr ⟨hlive, fun clientId'' hin => hcalls clientId'' (hmem _ hin)⟩

/-- A request comes in. -/
theorem Good.comes (h : a.Good config) {call : Call}
    (hcall : ∀ clientId token, call ≠ .validationCreate clientId token) :
  Good config { a with calls := a.calls ++ [call] }
  := by
  have hmem : ∀ clientId token, .validationCreate clientId token ∈ a.calls ++ [call] →
      .validationCreate clientId token ∈ a.calls := by
    intro clientId token hin
    obtain hin | hin := List.mem_append.mp hin
    · apply hin
    · exact absurd (List.mem_singleton.mp hin).symm (hcall clientId token)
  constructor
  · apply h.once
  · apply h.admitted
  · exact fun clientId token hin => h.about clientId token (hmem _ _ hin)
  · intro token clientId hadmitted
    obtain hlisted | ⟨hlive, hcalls⟩ := h.kept token clientId hadmitted
    · exact .inl hlisted
    · exact .inr ⟨hlive, fun clientId' hin => hcalls clientId' (hmem _ _ hin)⟩

theorem Good.tick (h : a.Good config) {later : Int64} (hle : a.now ≤ later) :
  Good config { a with now := later }
  := by
  constructor
  · apply h.once
  · apply h.admitted
  · apply h.about
  · intro token clientId hadmitted
    obtain hlisted | ⟨hlive, hcalls⟩ := h.kept token clientId hadmitted
    · exact .inl hlisted
    · refine .inr ⟨?_, hcalls⟩
      rw [← Bool.not_eq_true] at hlive ⊢
      exact fun hlater => hlive (live_antitone hle hlater)

theorem Good.remove (h : a.Good config) {id : Bytes}
    (houtlives : a.outlives config (.remove id) = true) :
  Good config { a with clientList := a.clientList.filter (· ≠ id) }
  := by
  constructor
  · apply h.once
  · apply h.admitted
  · apply h.about
  · intro token clientId hadmitted
    obtain hlisted | hexpired := h.kept token clientId hadmitted
    · by_cases heq : clientId = id
      · right
        rw [outlives, List.all_eq_true] at houtlives
        have hall := houtlives (token, clientId) hadmitted
        simp only [heq, bne_self_eq_false, Bool.false_or, Bool.and_eq_true,
          Bool.not_eq_true'] at hall
        use hall.1
        intro clientId' hin
        rw [aboutToCreate, List.any_eq_false] at hall
        exact absurd (beq_self_eq_true token) (hall.2 _ hin)
      · exact .inl (List.mem_filter.mpr ⟨hlisted, by simpa using heq⟩)
    · exact .inr hexpired

theorem Good.step (h : a.Good config) (label : Step) (houtlives : a.outlives config label = true) :
  Good config (a.step config label)
  := by
  cases label with
  | tick later =>
      rw [Admission.step]
      split
      case isTrue hle => exact h.tick hle
      case isFalse => exact h
  | identityRequest cookie name draw => exact h.comes fun _ _ heq => Call.noConfusion heq
  | identityValidation cookie body => exact h.comes fun _ _ heq => Call.noConfusion heq
  | advance k =>
      cases hk : a.calls[k]? with
      | none =>
          simp only [Admission.step, hk]
          apply h
      | some call =>
          simp only [Admission.step, hk]
          obtain hquiet | ⟨clientId, hcreates⟩ | ⟨clientId, token, rfl, hcreates⟩ :=
            exec_cases config a call
          · apply h.quiet hquiet
          · apply h.creates hcreates
          · apply h.admits hk hcreates
  | remove id => exact h.remove houtlives

theorem Starts.good (h : a.Starts) :
  a.Good config
  := by
  constructor <;> simp [h.admitted, h.calls]

theorem Good.admitsOnce (h : a.Good config) :
  a.AdmitsOnce
  := by
  intro token _ _
  apply List.nodup_iff_count_le_one.mp h.once token

/-- Where every client outlives the captcha it was admitted by, no captcha admits two. -/
theorem everyState_admitsOnce_of_outlives (h : a.Starts) (labels : List Step)
    (houtlives : Machine.EveryStep (step config) (fun a label => a.outlives config label = true)
      a labels) :
  Machine.EveryState (step config) AdmitsOnce a labels
  := by
  apply Machine.EveryState.mono (fun _ (hgood : Good config _) => hgood.admitsOnce)
  exact Machine.everyState_of_everyStep (fun _ label (hgood : Good config _) => hgood.step label)
    h.good houtlives

end

namespace Sample

open Skaptcha.Sample

/-- There is always a captcha. -/
def config : AdmissionConfig where
  crypto := crypto
  apiMaxClientCount := 10
  apiWithoutCaptchaThreshold := 0
  apiCaptchaLifetime := 180

def start : Admission where
  now := 1000

def token : Bytes := Skaptcha.generate crypto 1000 nonce answer context 180

def name : Bytes := "A".toList.map Char.toUInt8

def body : Body where
  captchaAnswer := some answer
  clientId := some context
  captchaToken := some token
  name := some name

/-- The handler of the only request makes its four calls. -/
def handled : List Step := List.replicate 4 (.advance 0)

/-- Alice is given a captcha and solves it. -/
def admitted : List Step :=
  .identityRequest [] (some name) ⟨context, nonce, answer⟩ :: handled
    ++ .identityValidation [] body :: handled

/-- She leaves, and sends the same solution again. -/
def reused : List Step := admitted ++ .remove context :: .identityValidation [] body :: handled

/-- She leaves when the captcha has expired. -/
def expired : List Step :=
  admitted ++ .tick 2000 :: .remove context :: .identityValidation [] body :: handled

theorem starts_start :
  start.Starts
  := ⟨rfl, rfl, rfl, rfl⟩

theorem fields_body :
  fields body = .ok (answer, context, token)
  := by
  have htoken : stringField "captcha_token" (some token) = .ok token := by
    rw [stringField]
    apply show token ≠ [] by decide +kernel
  have hanswer : stringField "captcha_answer" (some answer) = .ok answer := rfl
  have hclientId : stringField "client_id" (some context) = .ok context := rfl
  have hname : stringField "name" (some name) = .ok name := rfl
  simp only [fields, body, htoken, hanswer, hclientId, hname]
  rfl

theorem validate_token (now : Int64) :
  Skaptcha.validate crypto now context token answer
    = .ok (!PrivatePayload.isExpired ⟨[], 1000, 180⟩ now)
  := by
  rw [token, Skaptcha.validate_generate lawful_crypto rfl (by decide +kernel) context 1000 180 now
    context rfl]
  cases PrivatePayload.isExpired ⟨[], 1000, 180⟩ now <;> rfl

/-- The only request makes its next call. -/
theorem step_advance {a : Admission} {call : Call} (hcalls : a.calls = [call]) :
  a.step config (.advance 0)
    = { (a.exec config call).1 with calls := (a.exec config call).2.toList }
  := by
  simp [step, hcalls, Threads.goOn]

/-- The solution is sent while the captcha lives, and there is no client with its id. -/
theorem run_validation {a : Admission} (hcalls : a.calls = [])
    (hlength : a.clientList.length < config.apiMaxClientCount)
    (hexpired : PrivatePayload.isExpired ⟨[], 1000, 180⟩ a.now = false)
    (hnew : context ∉ a.clientList) :
  Machine.run (step config) a (.identityValidation [] body :: handled)
    = { a with
        clientList := context :: a.clientList
        answers := a.answers ++ [.client context]
        admitted := (token, context) :: a.admitted }
  := by
  have hvalidate : Skaptcha.validate config.crypto a.now context token answer = .ok true := by
    rw [config, validate_token, hexpired]
    rfl
  have hcomes : a.step config (.identityValidation [] body)
      = { a with calls := [.validation [] body] } := by
    rw [step, hcalls]
    rfl
  have hcookie : ({ a with calls := [.validation [] body] } : Admission).step config (.advance 0)
      = { a with calls := [.validationCount body] } := by
    rw [step_advance rfl, exec, if_neg (not_and_of_not_left _ (not_not_intro rfl))]
    rfl
  have hcount : ({ a with calls := [.validationCount body] } : Admission).step config (.advance 0)
      = { a with calls := [.validationValidate body] } := by
    rw [step_advance rfl, exec, if_neg (Nat.not_le.mpr hlength)]
    rfl
  have hvalid : ({ a with calls := [.validationValidate body] } : Admission).step config
      (.advance 0) = { a with calls := [.validationCreate context token] } := by
    rw [step_advance rfl]
    simp only [exec, fields_body, validate, hvalidate, Option.toList_some]
  have hcreate : ({ a with calls := [.validationCreate context token] } : Admission).step config
      (.advance 0) = { a with
        clientList := context :: a.clientList
        answers := a.answers ++ [.client context]
        admitted := (token, context) :: a.admitted } := by
    rw [step_advance rfl]
    simp only [exec, internalCreateClient, if_neg hnew, finish, Option.toList_none, hcalls]
  calc Machine.run (step config) a (.identityValidation [] body :: handled)
      = ((((a.step config (.identityValidation [] body)).step config (.advance 0)).step config
          (.advance 0)).step config (.advance 0)).step config (.advance 0) := rfl
    _ = _ := by rw [hcomes, hcookie, hcount, hvalid, hcreate]

theorem run_admitted :
  Machine.run (step config) start admitted
    = { start with
        clientList := [context]
        answers := [.captcha token context, .client context]
        admitted := [(token, context)] }
  := by
  have hcaptcha : Machine.run (step config) start
      (.identityRequest [] (some name) ⟨context, nonce, answer⟩ :: handled)
        = { start with answers := [.captcha token context] } := rfl
  rw [admitted, Machine.run_append, hcaptcha, run_validation rfl (by decide) (by decide)
    (List.not_mem_nil)]
  rfl

theorem live_token :
  live crypto 2000 token = false
  := by
  have hexpired : ExpiringToken.fromString crypto 2000 token = .ok none := by
    rw [token, Skaptcha.generate, ExpiringToken.fromString_dump lawful_crypto 1000 2000 rfl]
    apply congrArg _ (if_pos rfl)
  rw [live, hexpired]

def removes : Step → Bool
  | .remove _ => true
  | _ => false

theorem everyStep_outlives {a : Admission} {labels : List Step}
    (h : ∀ label ∈ labels, removes label = false) :
  Machine.EveryStep (step config) (fun a label => a.outlives config label = true) a labels
  := by
  apply Machine.EveryStep.mono _ (Machine.everyStep_of_forall_mem h)
  intro a label hlabel
  cases label with
  | remove id => cases hlabel
  | tick | identityRequest | identityValidation | advance => rfl

end Sample

open Sample in
/-- Alice leaves when her captcha has expired. -/
theorem everyState_admitsOnce_expired :
  start.Starts
    ∧ Machine.EveryStep (step config) (fun a label => a.outlives config label = true) start expired
    ∧ Machine.EveryState (step config) AdmitsOnce start expired
  := by
  have houtlives : Machine.EveryStep (step config)
      (fun a label => a.outlives config label = true) start expired := by
    rw [expired, Machine.everyStep_append, run_admitted]
    refine ⟨everyStep_outlives (by decide), rfl, ?_, everyStep_outlives (by decide)⟩
    simp [outlives, step, start, aboutToCreate, config, live_token]
  use starts_start, houtlives
  apply everyState_admitsOnce_of_outlives starts_start expired houtlives

open Sample in
/-- Alice leaves, and sends the solution of her captcha again while it lives. -/
theorem not_everyState_admitsOnce :
  ¬∀ config : AdmissionConfig, config.crypto.Lawful → ∀ a : Admission, a.Starts → ∀ labels,
      Machine.EveryState (step config) AdmitsOnce a labels
  := by
  intro h
  have hlast := (h config Skaptcha.Sample.lawful_crypto start starts_start reused).last
  have hleft : Admission.step config { start with
      clientList := [Skaptcha.Sample.context]
      answers := [.captcha token Skaptcha.Sample.context, .client Skaptcha.Sample.context]
      admitted := [(token, Skaptcha.Sample.context)] } (.remove Skaptcha.Sample.context)
    = { start with
        answers := [.captcha token Skaptcha.Sample.context, .client Skaptcha.Sample.context]
        admitted := [(token, Skaptcha.Sample.context)] } := by
    simp [step, start]
  rw [reused, Machine.run_append, run_admitted, Machine.run_cons, hleft,
    run_validation rfl (by decide) (by decide) List.not_mem_nil] at hlast
  have hcount := hlast token Skaptcha.Sample.context (by simp)
  simp at hcount

end Admission

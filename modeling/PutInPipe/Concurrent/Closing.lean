import PutInPipe.Concurrent.Calls
import PutInPipe.Session.Run

/-!
# What ends a session under concurrency

`Closing` is a session with calls in progress, each with the status of the cause it is: what
it has set `m_completeType` to, or `ok`. A cause ends the session when its
`TransferSessionList::remove` erases the entry. The destructor, which publishes the status,
runs when the entry is gone and all calls have returned.

`Reports` says that the status published is that of the cause that erased the entry. The
type and the list are changed one after the other, so that another cause may come between.
-/

open TransferSessionDetails TransferSession

namespace TransferSession.Call

/-- The status the step of the call sets. -/
def sets : Call → Option TransferSessionCompleteType
  | .setType type | .dropType type _ _ => some type
  | _ => none

/-- The step of the call is `TransferSessionList::remove`. -/
def erases : Call → Bool
  | .erase | .dropErase _ _ | .dropComplete _ => true
  | _ => false

/-- The call has yet to make its first step, and may end the session. -/
def mayEnd : Call → Bool
  | .senderDestroyed | .setType .timeout => true
  | call => call.begins

variable {config : Config}

theorem completeType_advance (s : TransferSession) (call : Call) :
  (call.advance config s).1.completeType = call.sets.getD s.completeType
  := by
  cases call with
  | confirmRemoved | dropRemoved | removeChunks => simp only [advance, notifyRemoved_eq]; rfl
  | confirmFire | removeKick =>
      simp only [advance]
      split <;> rfl
  | _ => rfl

theorem listed_advance (s : TransferSession) (call : Call) :
  (call.advance config s).1.listed = (s.listed && !call.erases)
  := by
  cases call with
  | confirmRemoved | dropRemoved | removeChunks => simp [advance, notifyRemoved_eq, erases]
  | confirmFire | removeKick =>
      simp only [advance]
      split <;> simp [erases, notify]
  | _ => simp [advance, erases, notify, removeFromList, incrementReceived]

theorem sets_of_erases {call : Call} (h : call.erases = true) :
  call.sets = none
  := by
  cases call with
  | setType => cases h
  | dropType => cases h
  | _ => rfl

end TransferSession.Call

/-- A call with the status of the cause it is. -/
structure Cause where
  call : Call
  type : TransferSessionCompleteType := .ok
deriving DecidableEq, Repr

structure Closing where
  session : TransferSession
  causes : List Cause := []
  erasedBy : Option TransferSessionCompleteType := none
  published : Option TransferSessionCompleteType := none

namespace Closing

/-- What happens next: a method is called, call `k` makes its next step, or the session is
destroyed. -/
inductive Step where
  | call (call : Call)
  | advance (k : ℕ)
  | destroy
deriving DecidableEq, Repr

def advance (config : Config) (c : Closing) (k : ℕ) : Closing :=
  match c.causes[k]? with
  | none => c
  | some cause =>
      let (session, next) := cause.call.advance config c.session
      { c with
        session
        causes := Threads.goOn c.causes k
          (next.map fun call => ⟨call, cause.call.sets.getD cause.type⟩)
        erasedBy := if c.session.listed && cause.call.erases then some cause.type else c.erasedBy }

/-- The destructor runs when nobody holds the session. -/
def destroy (c : Closing) : Closing :=
  if !c.session.listed && c.causes.isEmpty && c.published.isNone then
    { c with
      session := c.session.notify (.complete c.session.completeType)
      published := some c.session.completeType }
  else c

def step (config : Config) (c : Closing) : Step → Closing
  | .call call =>
      if c.session.listed && call.mayEnd then { c with causes := c.causes ++ [{ call }] } else c
  | .advance k => c.advance config k
  | .destroy => c.destroy

/-- The session is listed, and nobody has called a method. -/
structure Starts (c : Closing) : Prop where
  listed : c.session.listed = true
  causes : c.causes = []
  erasedBy : c.erasedBy = none
  published : c.published = none

/-- The status published is that of the cause that erased the entry, and no cause changes it
later. -/
structure Reports (c : Closing) : Prop where
  published : ∀ type, c.published = some type → c.erasedBy = some type
  kept : ∀ type, c.erasedBy = some type → c.session.completeType = type

/-- The step of a cause keeps the status: the cause that erases the entry finds its own
status set, and a status set later is the same. -/
def keepsStatus (c : Closing) : Step → Bool
  | .advance k =>
      match c.causes[k]? with
      | none => true
      | some cause =>
          if c.session.listed then !cause.call.erases || c.session.completeType == cause.type
          else cause.call.sets.all (· == c.session.completeType)
  | _ => true

end Closing

namespace Closing

variable {config : Config} {c : Closing}

/-! ### Runs -/

/-- The entry has been erased by a cause exactly when the session is off the list, and the
status is published once no cause is left. -/
structure Sound (c : Closing) : Prop where
  listed : c.session.listed = true → c.erasedBy = none ∧ c.published = none
  erased : c.session.listed = false → ∃ type, c.erasedBy = some type
  published : c.published ≠ none → c.causes = []

theorem Sound.of_starts (h : c.Starts) :
  c.Sound
  where
    listed _ := ⟨h.erasedBy, h.published⟩
    erased hl := by
      rw [h.listed] at hl
      cases hl
    published hp := absurd h.published hp

theorem Reports.of_starts (h : c.Starts) :
  c.Reports
  where
    published type hp := by
      rw [h.published] at hp
      cases hp
    kept type he := by
      rw [h.erasedBy] at he
      cases he

theorem advance_of_getElem? (config : Config) {k : ℕ} {cause : Cause}
    (hk : c.causes[k]? = some cause) :
  c.advance config k
    = { c with
        session := (cause.call.advance config c.session).1
        causes := Threads.goOn c.causes k ((cause.call.advance config c.session).2.map
          fun call => ⟨call, cause.call.sets.getD cause.type⟩)
        erasedBy := if c.session.listed && cause.call.erases then some cause.type else c.erasedBy }
  := by
  rw [advance, hk]

theorem Sound.advance (h : c.Sound) (k : ℕ) :
  (c.advance config k).Sound
  := by
  cases hk : c.causes[k]? with
  | none =>
      rw [Closing.advance, hk]
      apply h
  | some cause =>
      have hpublished : c.published = none := by
        by_contra hp
        rw [h.published hp] at hk
        cases hk
      rw [advance_of_getElem? config hk]
      constructor
      · simp only [Call.listed_advance, Bool.and_eq_true, Bool.not_eq_true']
        rintro ⟨hl, he⟩
        simpa [hl, he] using h.listed hl
      · simp only [Call.listed_advance]
        intro hl
        cases hlisted : c.session.listed with
        | true =>
            have herases : cause.call.erases = true := by simpa [hlisted] using hl
            use cause.type
            simp [herases]
        | false => simpa using h.erased hlisted
      · exact fun hp => absurd hpublished hp

theorem Sound.step (h : c.Sound) (label : Step) :
  (c.step config label).Sound
  := by
  cases label with
  | call call =>
      rw [Closing.step]
      split
      · next hc =>
        rw [Bool.and_eq_true] at hc
        exact ⟨h.listed, h.erased, fun hp => absurd (h.listed hc.1).2 hp⟩
      · apply h
  | advance k => exact h.advance k
  | destroy =>
      rw [Closing.step, destroy]
      split
      · next hc =>
        simp only [Bool.and_eq_true, Bool.not_eq_true', List.isEmpty_iff] at hc
        constructor
        · intro hl
          rw [show c.session.listed = true from hl] at hc
          cases hc.1.1
        · exact fun _ => h.erased hc.1.1
        · exact fun _ => hc.1.2
      · apply h

/-- A cause reports the status exactly when its step keeps it. -/
theorem reports_advance (h : c.Sound) (hr : c.Reports) (k : ℕ) :
  (c.advance config k).Reports ↔ c.keepsStatus (.advance k) = true
  := by
  cases hk : c.causes[k]? with
  | none => simp [Closing.advance, keepsStatus, hk, hr]
  | some cause =>
      have hpublished : c.published = none := by
        by_contra hp
        rw [h.published hp] at hk
        cases hk
      have hreports : (c.advance config k).Reports ↔
          ∀ type, (if c.session.listed && cause.call.erases then some cause.type else c.erasedBy)
            = some type → cause.call.sets.getD c.session.completeType = type := by
        rw [advance_of_getElem? config hk]
        constructor
        · intro hr'
          simpa only [Call.completeType_advance] using hr'.kept
        · intro hkept
          refine ⟨by simp [hpublished], ?_⟩
          simpa only [Call.completeType_advance] using hkept
      rw [hreports]
      simp only [keepsStatus, hk]
      cases hl : c.session.listed with
      | true =>
          have herased : c.erasedBy = none := (h.listed hl).1
          cases he : cause.call.erases with
          | true => simp [Call.sets_of_erases he]
          | false => simp [herased]
      | false =>
          obtain ⟨type, htype⟩ := h.erased hl
          have hkept := hr.kept type htype
          cases hsets : cause.call.sets with
          | none => simp [htype, hkept]
          | some type' => simp [htype, hkept]

theorem reports_destroy (h : c.Sound) (hr : c.Reports) :
  c.destroy.Reports
  := by
  rw [destroy]
  split
  · next hc =>
    simp only [Bool.and_eq_true, Bool.not_eq_true'] at hc
    obtain ⟨type, htype⟩ := h.erased hc.1.1
    constructor
    · rintro _ ⟨⟩
      rw [htype, hr.kept type htype]
    · apply hr.kept
  · apply hr

theorem reports_step (h : c.Sound) (hr : c.Reports) (label : Step) :
  (c.step config label).Reports ↔ c.keepsStatus label = true
  := by
  cases label with
  | call call =>
      simp only [keepsStatus, iff_true]
      rw [step]
      split
      · exact ⟨hr.published, hr.kept⟩
      · apply hr
  | advance k => exact reports_advance h hr k
  | destroy =>
      simp only [keepsStatus, iff_true]
      apply reports_destroy h hr

/-- The status published is that of the cause that ended the session, in every state of a
run, exactly when every step of a cause keeps the status. -/
theorem everyState_reports_iff (hc : c.Starts) (steps : List Step) :
  Machine.EveryState (step config) Reports c steps
    ↔ Machine.EveryStep (step config) (fun c label => c.keepsStatus label = true) c steps
  := by
  have hinv : ∀ (c : Closing) (label : Step), c.Sound → (c.step config label).Sound :=
    fun c label h => h.step label
  have hstep : ∀ (c : Closing) (label : Step), c.Sound → c.Reports →
      ((c.step config label).Reports ↔ c.keepsStatus label = true) :=
    fun c label h hr => reports_step h hr label
  apply Machine.everyState_iff_everyStep hinv hstep (Sound.of_starts hc) (Reports.of_starts hc) steps

/-! ### Sample runs -/

/-- The sender of the session terminates it, and then nobody holds it. -/
def terminated : List Step :=
  [.call (.setType .senderIsGone), .advance 0, .advance 0, .destroy]

end Closing

namespace Closing.Sample

/-- A session without chunks. -/
def start : Closing where
  session := .create TransferSession.Sample.sender false

end Closing.Sample

namespace Closing

theorem everyState_reports_terminated :
  Machine.EveryState (step TransferSession.Sample.config) Reports Sample.start terminated
  := by
  apply (everyState_reports_iff ⟨rfl, rfl, rfl, rfl⟩ terminated).mpr
  decide

/-- The timer of the session sets the status, and the end of file erases the entry before the
timer does. -/
def finishedMeanwhile : List Step :=
  [.call (.setType .timeout), .call .endOfFile, .advance 0, .advance 1, .advance 1, .advance 1,
    .advance 1, .advance 1, .advance 0, .destroy]

theorem not_everyState_reports_finishedMeanwhile :
  ¬ ∀ (config : Config) (c : Closing) (steps : List Step), c.Starts →
      Machine.EveryState (step config) Reports c steps
  := by
  intro h
  have hlast := (h TransferSession.Sample.config Sample.start finishedMeanwhile
    ⟨rfl, rfl, rfl, rfl⟩).last
  have hpublished := hlast.published .timeout (by decide)
  revert hpublished
  decide

end Closing

import PutInPipe.Library.Run
import PutInPipe.Library.Threads

/-!
# Timers under concurrency

`Timing` is a `TimerCallback` with the calls of its methods in progress, and with what the
`io_context` has to do for it: the pending waits of its asio timer, and the handlers of the
waits that have completed. To set the expiry and to cancel abort the pending waits, whose
handlers then do nothing, but a wait that has completed stays queued.

A handler takes the timer to run when `m_isRunning` is set. The flag does not tell for which
start, so that the handler of an earlier start may call the callback for a later one.
`InTime` says that the callback is called only when the duration has elapsed since the
latest start.
-/

/-- What a call of `stop`, or of one of the methods `restart`, does after it has stopped. -/
inductive AfterStop where
  | returns
  | starts
  | startsWith (newDuration : ℕ)
deriving DecidableEq, Repr

/-- Where a call of a method of the timer is. A call that has stopped the timer may go on to
start it again. -/
inductive TimerCall where
  | start (again : Bool)
  | expiresAfter
  | asyncWait
  | stop (after : AfterStop)
  | cancel (after : AfterStop)
  | setDuration (newDuration : ℕ)
deriving DecidableEq, Repr

namespace TimerCall

/-- The call has made its first step. -/
def begun : TimerCall → Bool
  | .start false | .stop _ => false
  | _ => true

/-- The call has started the timer and has not yet left its wait pending. -/
def opens : TimerCall → Bool
  | .expiresAfter | .asyncWait => true
  | _ => false

/-- The call has stopped the timer and is about to set its duration. -/
def resets : TimerCall → Bool
  | .cancel (.startsWith _) | .setDuration _ => true
  | _ => false

end TimerCall

/-- Where a call goes on that has stopped the timer. -/
def AfterStop.next : AfterStop → Option TimerCall
  | .returns => none
  | .starts => some (.start true)
  | .startsWith newDuration => some (.setDuration newDuration)

/-- Where the handler of a completed wait is: queued, past its test of `m_isRunning`, or past
its reset of it. Its last step calls the callback. -/
inductive Handler where
  | queued
  | tested
  | reset
deriving DecidableEq, Repr

/-- `since` is when the latest start took effect, and for which duration, unless `stop` has
been called since then. -/
structure Timing where
  now : ℕ := 0
  duration : ℕ
  isRunning : Bool := false
  expiry : ℕ := 0
  waits : ℕ := 0
  handlers : List Handler := []
  calls : List TimerCall := []
  since : Option (ℕ × ℕ) := none

namespace Timing

/-- What happens next: time passes, a method is called, call `k` makes its next step, a wait
completes, or the `io_context` makes the next step of handler `k`. -/
inductive Step where
  | tick (n : ℕ)
  | call (call : TimerCall)
  | advance (k : ℕ)
  | complete
  | handle (k : ℕ)
deriving DecidableEq, Repr

/-- The next step of a call: what it does to the timer, and where the call is then, unless it
has returned. -/
def exec (t : Timing) : TimerCall → Timing × Option TimerCall
  | .start _ =>
      if t.isRunning then (t, none)
      else ({ t with isRunning := true, since := some (t.now, t.duration) }, some .expiresAfter)
  | .expiresAfter => ({ t with expiry := t.now + t.duration, waits := 0 }, some .asyncWait)
  | .asyncWait => ({ t with waits := t.waits + 1 }, none)
  | .stop after =>
      if t.isRunning then ({ t with isRunning := false, since := none }, some (.cancel after))
      else ({ t with since := none }, after.next)
  | .cancel after => ({ t with waits := 0 }, after.next)
  | .setDuration newDuration => ({ t with duration := newDuration }, some (.start true))

/-- The next step of a handler. -/
def handle (t : Timing) (k : ℕ) : Handler → Timing
  | .queued =>
      { t with handlers := Threads.goOn t.handlers k (if t.isRunning then some .tested else none) }
  | .tested =>
      { t with isRunning := false, handlers := Threads.goOn t.handlers k (some .reset) }
  | .reset => { t with handlers := Threads.goOn t.handlers k none }

def step (t : Timing) : Step → Timing
  | .tick n => { t with now := t.now + n }
  | .call call => if call.begun then t else { t with calls := t.calls ++ [call] }
  | .advance k =>
      match t.calls[k]? with
      | none => t
      | some call => { (t.exec call).1 with calls := Threads.goOn t.calls k (t.exec call).2 }
  | .complete =>
      if t.waits ≠ 0 ∧ t.expiry ≤ t.now then
        { t with waits := t.waits - 1, handlers := t.handlers ++ [.queued] }
      else t
  | .handle k =>
      match t.handlers[k]? with
      | none => t
      | some handler => t.handle k handler

/-- The timer has been constructed. -/
structure Starts (t : Timing) : Prop where
  isRunning : t.isRunning = false
  waits : t.waits = 0
  handlers : t.handlers = []
  calls : t.calls = []

/-- The full duration has elapsed since the latest start, and `stop` has not been called
since then. -/
def Elapsed (t : Timing) : Prop := ∃ since duration, t.since = some (since, duration)
  ∧ since + duration ≤ t.now

/-- The step calls the callback only in time. -/
def InTime (t : Timing) (label : Step) : Prop :=
  ∀ k, label = .handle k → t.handlers[k]? = some .reset → t.Elapsed

/-! ### The condition -/

/-- The calls keep clear of each other and of the handlers. A start takes effect when there is
no wait and no handler of an earlier start, nor a call that will leave a wait pending or set
the duration. The timer is stopped when no handler is past its test. -/
def keepsClear (t : Timing) : Step → Bool
  | .advance k =>
      match t.calls[k]? with
      | some (.start _) =>
          t.isRunning || (t.waits == 0 && t.handlers.isEmpty
            && t.calls.all (fun call => !call.opens && !call.resets))
      | some (.stop _) => t.handlers.all (· == .queued)
      | _ => true
  | _ => true

/-! ### The invariant -/

variable {t : Timing}

/-- What holds while the calls keep clear. There is one wait at most, from the call that
opens it to its handler, and unless the timer has been stopped it is the latest start's. -/
structure Good (t : Timing) : Prop where
  single : t.waits + t.handlers.length + t.calls.countP TimerCall.opens ≤ 1
  running : t.isRunning = true → t.since ≠ none
  setting : .expiresAfter ∈ t.calls → ∀ since duration, t.since = some (since, duration) →
    duration = t.duration ∧ since ≤ t.now ∧ ∀ call ∈ t.calls, call.resets = false
  waiting : .asyncWait ∈ t.calls ∨ t.waits ≠ 0 → ∀ since duration,
    t.since = some (since, duration) → since + duration ≤ t.expiry
  due : t.handlers ≠ [] → ∀ since duration, t.since = some (since, duration) →
    since + duration ≤ t.now
  past : ∀ handler ∈ t.handlers, handler ≠ .queued → t.since ≠ none

theorem Starts.good (h : t.Starts) :
  t.Good
  := by
  obtain ⟨hrun, hwaits, hhandlers, hcalls⟩ := h
  constructor <;> simp [hrun, hwaits, hhandlers, hcalls]

theorem Good.elapsed (h : t.Good) {handler : Handler} (hmem : handler ∈ t.handlers)
    (hne : t.since ≠ none) :
  t.Elapsed
  := by
  obtain ⟨⟨since, duration⟩, hsince⟩ := Option.ne_none_iff_exists'.mp hne
  exact ⟨since, duration, hsince, h.due (List.ne_nil_of_mem hmem) since duration hsince⟩

theorem Good.inTime (h : t.Good) (label : Step) :
  t.InTime label
  := by
  rintro k rfl hk
  have hmem := List.mem_of_getElem? hk
  apply h.elapsed hmem (h.past .reset hmem (by simp))

/-! ### Time passes, and waits complete -/

theorem Good.tick (h : t.Good) (n : ℕ) :
  (t.step (.tick n)).Good
  where
    single := h.single
    running := h.running
    setting hmem since duration hsince := by
      obtain ⟨hduration, hle, hresets⟩ := h.setting hmem since duration hsince
      exact ⟨hduration, Nat.le_trans hle (Nat.le_add_right _ _), hresets⟩
    waiting := h.waiting
    due hne since duration hsince :=
      Nat.le_trans (h.due hne since duration hsince) (Nat.le_add_right _ _)
    past := h.past

theorem Good.complete (h : t.Good) :
  (t.step .complete).Good
  := by
  by_cases hcompletes : t.waits ≠ 0 ∧ t.expiry ≤ t.now
  · obtain ⟨hwaits, hexpiry⟩ := hcompletes
    have hsingle := h.single
    have hhandlers : t.handlers = [] := List.eq_nil_of_length_eq_zero (by omega)
    rw [step, if_pos ⟨hwaits, hexpiry⟩, hhandlers]
    constructor
    · simp only [List.nil_append, List.length_singleton]
      omega
    · apply h.running
    · apply h.setting
    · exact fun hmem => h.waiting (hmem.imp_right fun _ => hwaits)
    · intro _ since duration hsince
      apply Nat.le_trans (h.waiting (.inr hwaits) since duration hsince) hexpiry
    · intro handler hmem hne
      exact absurd (List.mem_singleton.mp hmem) hne
  · rw [step, if_neg hcompletes]
    apply h

/-! ### The steps of a handler -/

/-- A handler makes a step, to a place that is not queued only while the timer has been
started and not stopped. -/
theorem Good.goOn (h : t.Good) {k : ℕ} {handler : Handler} (hk : t.handlers[k]? = some handler)
    {isRunning : Bool} (hrun : isRunning = true → t.isRunning = true) {next : Option Handler}
    (hnext : next ≠ none → t.since ≠ none) :
  ({ t with isRunning := isRunning, handlers := Threads.goOn t.handlers k next }
    : Timing).Good
  := by
  have hlength := (Threads.perm_cons_eraseIdx hk).length_eq
  have hmem : handler ∈ t.handlers := List.mem_of_getElem? hk
  constructor
  · have hle : (Threads.goOn t.handlers k next).length ≤ t.handlers.length :=
      Threads.length_goOn_le hk
    have hsingle := h.single
    simp only
    omega
  · exact fun htrue => h.running (hrun htrue)
  · apply h.setting
  · apply h.waiting
  · exact fun _ => h.due (List.ne_nil_of_mem hmem)
  · intro other hother hne
    obtain rfl | hother := Threads.mem_goOn.mp hother
    · apply hnext (by simp)
    · apply h.past other (List.mem_of_mem_eraseIdx hother) hne

theorem Good.handle (h : t.Good) (k : ℕ) :
  (t.step (.handle k)).Good
  := by
  cases hk : t.handlers[k]? with
  | none =>
      simp only [step, hk]
      apply h
  | some handler =>
      have hmem := List.mem_of_getElem? hk
      have hstep : t.step (.handle k) = t.handle k handler := by
        simp only [step, hk]
      rw [hstep]
      cases handler with
      | queued =>
          apply h.goOn hk id
          intro hne
          apply h.running
          by_contra hrun
          apply hne (if_neg hrun)
      | tested =>
          apply h.goOn hk
          · exact fun htrue => Bool.noConfusion htrue
          · exact fun _ => h.past .tested hmem (by simp)
      | reset =>
          apply h.goOn hk id
          exact fun hne => absurd rfl hne

/-! ### The steps of a call -/

/-- A call goes on, or returns, to a place that opens no wait. -/
theorem Good.goesOn (h : t.Good) {k : ℕ} {call : TimerCall} (hk : t.calls[k]? = some call)
    {next : Option TimerCall} (hopens : ∀ x, next = some x → x.opens = false)
    (hresets : ∀ x, next = some x → x.resets = true → call.resets = true ∨ t.since = none) :
  ({ t with calls := Threads.goOn t.calls k next } : Timing).Good
  := by
  have hmem : ∀ x, x.opens = true → x ∈ Threads.goOn t.calls k next → x ∈ t.calls := by
    intro x hx hin
    obtain rfl | hin := Threads.mem_goOn.mp hin
    · rw [hopens x rfl] at hx
      cases hx
    · apply List.mem_of_mem_eraseIdx hin
  constructor
  · have hcount := Threads.countP_goOn hk next TimerCall.opens
    have hnext : next.toList.countP TimerCall.opens = 0 := by
      rw [List.countP_eq_zero]
      intro x hx
      rw [hopens x (Option.mem_toList.mp hx)]
      simp
    have hsingle := h.single
    simp only
    omega
  · apply h.running
  · intro hin since duration hsince
    obtain ⟨hduration, hle, hcalls⟩ := h.setting (hmem _ rfl hin) since duration hsince
    refine ⟨hduration, hle, ?_⟩
    intro x hx
    obtain rfl | hx := Threads.mem_goOn.mp hx
    · rw [Bool.eq_false_iff]
      intro hx
      obtain htrue | hnone := hresets x rfl hx
      · rw [hcalls call (List.mem_of_getElem? hk)] at htrue
        cases htrue
      · rw [hnone] at hsince
        cases hsince
    · apply hcalls x (List.mem_of_mem_eraseIdx hx)
  · exact fun hin => h.waiting (hin.imp_left (hmem _ rfl))
  · apply h.due
  · apply h.past

theorem opens_next {after : AfterStop} {call : TimerCall} (hnext : after.next = some call) :
  call.opens = false
  := by
  cases after with
  | returns => cases hnext
  | starts | startsWith newDuration =>
      obtain rfl := Option.some.inj hnext
      rfl

/-- A start takes effect. -/
theorem good_starts {k : ℕ} {again : Bool}
    (hk : t.calls[k]? = some (.start again)) (hwaits : t.waits = 0) (hhandlers : t.handlers = [])
    (hcalls : ∀ call ∈ t.calls, call.opens = false ∧ call.resets = false) :
  ({ t with
      isRunning := true
      since := some (t.now, t.duration)
      calls := Threads.goOn t.calls k (some .expiresAfter) } : Timing).Good
  := by
  have hmem : ∀ x, x ∈ Threads.goOn t.calls k (some .expiresAfter)
      → x = .expiresAfter ∨ x ∈ t.calls := by
    intro x hx
    obtain hx | hx := Threads.mem_goOn.mp hx
    · exact .inl (Option.some.inj hx).symm
    · exact .inr (List.mem_of_mem_eraseIdx hx)
  constructor
  · have hcount := Threads.countP_goOn hk (some .expiresAfter) TimerCall.opens
    have hnone : t.calls.countP TimerCall.opens = 0 := by
      rw [List.countP_eq_zero]
      intro x hx
      rw [(hcalls x hx).1]
      simp
    have hone : (some TimerCall.expiresAfter).toList.countP TimerCall.opens = 1 := rfl
    simp only [hwaits, hhandlers, List.length_nil]
    omega
  · simp
  · rintro _ since duration hsince
    obtain ⟨rfl, rfl⟩ := Prod.mk.inj (Option.some.inj hsince)
    refine ⟨rfl, Nat.le_refl _, ?_⟩
    intro x hx
    obtain rfl | hx := hmem x hx
    · rfl
    · apply (hcalls x hx).2
  · rintro (hin | hne)
    · obtain heq | hin := hmem _ hin
      · cases heq
      · have hopens := (hcalls _ hin).1
        cases hopens
    · exact absurd hwaits hne
  · exact fun hne => absurd hhandlers hne
  · simp [hhandlers]

/-- The timer is stopped, or was stopped before. -/
theorem Good.stops (h : t.Good) (hqueued : ∀ handler ∈ t.handlers, handler = .queued) :
  ({ t with isRunning := false, since := none } : Timing).Good
  := by
  constructor
  · apply h.single
  · simp
  · simp
  · simp
  · simp
  · exact fun handler hmem hne => absurd (hqueued handler hmem) hne

theorem Good.cancels (h : t.Good) :
  ({ t with waits := 0 } : Timing).Good
  := by
  constructor
  · have hsingle := h.single
    simp only
    omega
  · apply h.running
  · apply h.setting
  · rintro (hin | hne)
    · apply h.waiting (.inl hin)
    · exact absurd rfl hne
  · apply h.due
  · apply h.past

theorem Good.setsDuration (h : t.Good) {call : TimerCall} (hmem : call ∈ t.calls)
    (hresets : call.resets = true) (newDuration : ℕ) :
  ({ t with duration := newDuration } : Timing).Good
  := by
  constructor
  · apply h.single
  · apply h.running
  · intro hin since duration hsince
    have hfalse := (h.setting hin since duration hsince).2.2 call hmem
    rw [hresets] at hfalse
    cases hfalse
  · apply h.waiting
  · apply h.due
  · apply h.past

/-- The expiry is set by the call of the latest start, unless the timer has been stopped. -/
theorem Good.expiresAfter (h : t.Good) {k : ℕ} (hk : t.calls[k]? = some .expiresAfter) :
  ({ t with
      expiry := t.now + t.duration
      waits := 0
      calls := Threads.goOn t.calls k (some .asyncWait) } : Timing).Good
  := by
  have hset := h.setting (List.mem_of_getElem? hk)
  constructor
  · have hcount := Threads.countP_goOn hk (some .asyncWait) TimerCall.opens
    have hsame : [TimerCall.expiresAfter].countP TimerCall.opens
        = (some TimerCall.asyncWait).toList.countP TimerCall.opens := rfl
    have hsingle := h.single
    simp only
    omega
  · apply h.running
  · intro _ since duration hsince
    obtain ⟨hduration, hle, hcalls⟩ := hset since duration hsince
    refine ⟨hduration, hle, ?_⟩
    intro x hx
    obtain hx | hx := Threads.mem_goOn.mp hx
    · obtain rfl := Option.some.inj hx
      rfl
    · apply hcalls x (List.mem_of_mem_eraseIdx hx)
  · intro _ since duration hsince
    obtain ⟨rfl, hle, -⟩ := hset since duration hsince
    apply Nat.add_le_add_right hle _
  · apply h.due
  · apply h.past

theorem Good.asyncWait (h : t.Good) {k : ℕ} (hk : t.calls[k]? = some .asyncWait) :
  ({ t with waits := t.waits + 1, calls := Threads.goOn t.calls k none } : Timing).Good
  := by
  have hmem : ∀ x, x ∈ Threads.goOn t.calls k none → x ∈ t.calls := by
    intro x hx
    obtain hx | hx := Threads.mem_goOn.mp hx
    · cases hx
    · apply List.mem_of_mem_eraseIdx hx
  constructor
  · have hcount := Threads.countP_goOn hk none TimerCall.opens
    have hone : [TimerCall.asyncWait].countP TimerCall.opens = 1 := rfl
    have hnone : (none : Option TimerCall).toList.countP TimerCall.opens = 0 := rfl
    have hsingle := h.single
    simp only
    omega
  · apply h.running
  · intro hin since duration hsince
    obtain ⟨hduration, hle, hcalls⟩ := h.setting (hmem _ hin) since duration hsince
    exact ⟨hduration, hle, fun x hx => hcalls x (hmem x hx)⟩
  · exact fun _ => h.waiting (.inl (List.mem_of_getElem? hk))
  · apply h.due
  · apply h.past

theorem Good.advance (h : t.Good) {k : ℕ} (hclear : t.keepsClear (.advance k)) :
  (t.step (.advance k)).Good
  := by
  cases hk : t.calls[k]? with
  | none =>
      simp only [step, hk]
      apply h
  | some call =>
      have hstep : t.step (.advance k)
          = { (t.exec call).1 with calls := Threads.goOn t.calls k (t.exec call).2 } := by
        simp only [step, hk]
      simp only [keepsClear, hk] at hclear
      rw [hstep]
      cases call with
      | start again =>
          by_cases hrun : t.isRunning = true
          · rw [exec, if_pos hrun]
            apply h.goesOn hk <;> simp
          · simp only [hrun, Bool.false_or, Bool.and_eq_true, beq_iff_eq, List.isEmpty_iff,
              List.all_eq_true, Bool.not_eq_true'] at hclear
            rw [exec, if_neg hrun]
            apply good_starts hk hclear.1.1 hclear.1.2 hclear.2
      | expiresAfter => exact h.expiresAfter hk
      | asyncWait => exact h.asyncWait hk
      | stop after =>
          simp only [List.all_eq_true, beq_iff_eq] at hclear
          by_cases hrun : t.isRunning = true
          · rw [exec, if_pos hrun]
            apply (h.stops hclear).goesOn hk
            · simp [TimerCall.opens]
            · exact fun _ _ _ => .inr rfl
          · have hstops : Good { t with since := none } :=
              Bool.eq_false_iff.mpr hrun ▸ h.stops hclear
            rw [exec, if_neg hrun]
            apply hstops.goesOn hk
            · exact fun _ => opens_next
            · exact fun _ _ _ => .inr rfl
      | cancel after =>
          apply h.cancels.goesOn hk
          · exact fun _ => opens_next
          · intro x hx hresets
            left
            cases after with
            | startsWith newDuration => rfl
            | returns => cases hx
            | starts =>
                obtain rfl := Option.some.inj hx
                cases hresets
      | setDuration newDuration =>
          apply (h.setsDuration (List.mem_of_getElem? hk) rfl newDuration).goesOn hk
          · simp [exec, TimerCall.opens]
          · exact fun _ _ _ => .inl rfl

theorem Good.call (h : t.Good) (call : TimerCall) :
  (t.step (.call call)).Good
  := by
  by_cases hbegun : call.begun = true
  · rw [step, if_pos hbegun]
    apply h
  · have hopens : call.opens = false ∧ call.resets = false := by
      cases call <;> first | exact ⟨rfl, rfl⟩ | exact absurd rfl hbegun
    have hmem : ∀ x, x ∈ t.calls ++ [call] → x = call ∨ x ∈ t.calls := by
      intro x hx
      rw [List.mem_append, List.mem_singleton] at hx
      apply hx.symm
    rw [step, if_neg hbegun]
    constructor
    · simp only [List.countP_append, List.countP_singleton, hopens.1]
      apply h.single
    · apply h.running
    · intro hin since duration hsince
      obtain heq | hin := hmem _ hin
      · rw [← heq] at hopens
        cases hopens.1
      · obtain ⟨hduration, hle, hcalls⟩ := h.setting hin since duration hsince
        refine ⟨hduration, hle, ?_⟩
        intro x hx
        obtain rfl | hx := hmem x hx
        · apply hopens.2
        · apply hcalls x hx
    · rintro (hin | hne)
      · obtain heq | hin := hmem _ hin
        · rw [← heq] at hopens
          cases hopens.1
        · apply h.waiting (.inl hin)
      · apply h.waiting (.inr hne)
    · apply h.due
    · apply h.past

/-! ### Every run -/

theorem Good.step (h : t.Good) (label : Step) (hclear : t.keepsClear label = true) :
  (t.step label).Good
  := by
  cases label with
  | tick n => exact h.tick n
  | call call => exact h.call call
  | advance k => exact h.advance hclear
  | complete => exact h.complete
  | handle k => exact h.handle k

/-- Where the calls keep clear of each other and of the handlers, the callback is called only
when the duration has elapsed since the latest start, and `stop` has not been called. -/
theorem everyStep_inTime_of_keepsClear (h : t.Starts) (labels : List Step)
    (hclear : Machine.EveryStep step (fun t label => t.keepsClear label = true) t labels) :
  Machine.EveryStep step InTime t labels
  := by
  apply Machine.EveryState.everyStep (fun t label (h : t.Good) => h.inTime label)
  apply Machine.everyState_of_everyStep (fun t label (h : t.Good) => h.step label) h.good hclear

namespace Sample

def timer : Timing where
  duration := 1

/-- The call is made, and makes `n` steps. -/
def calls (call : TimerCall) (n : ℕ) : List Step := .call call :: List.replicate n (.advance 0)

/-- The timer is started, and its wait completes. -/
def completed : List Step := calls (.start false) 3 ++ [.tick 1, .complete]

/-- The `io_context` runs the handler. -/
def handled : List Step := List.replicate 3 (.handle 0)

/-- `restart(5)` after the callback of the first start. -/
def restarted : List Step :=
  completed ++ handled ++ calls (.stop (.startsWith 5)) 5 ++ [.tick 5, .complete] ++ handled

/-- `restart(5)` while the handler of the first start is queued. -/
def overtaken : List Step :=
  completed ++ calls (.stop (.startsWith 5)) 6 ++ List.replicate 2 (.handle 0)

theorem starts_timer :
  timer.Starts
  := by
  constructor <;> rfl

end Sample

open Sample in
theorem everyStep_inTime_restarted :
  timer.Starts
    ∧ Machine.EveryStep step (fun t label => t.keepsClear label = true) timer restarted
    ∧ Machine.EveryStep step InTime timer restarted
  := by
  have hclear : Machine.EveryStep step (fun t label => t.keepsClear label = true) timer restarted
    := by decide
  use starts_timer, hclear
  apply everyStep_inTime_of_keepsClear starts_timer restarted hclear

open Sample in
/-- The handler of the first start finds `m_isRunning` set by the second, and calls the
callback at once. -/
theorem not_everyStep_inTime :
  ¬∀ t : Timing, t.Starts → ∀ labels, Machine.EveryStep step InTime t labels
  := by
  intro h
  have hevery := h timer starts_timer (overtaken ++ [.handle 0])
  rw [Machine.everyStep_append] at hevery
  obtain ⟨since, duration, hsince, hle⟩ := hevery.2.1 0 rfl (by decide)
  have hrun : (Machine.run step timer overtaken).since = some (1, 5)
      ∧ (Machine.run step timer overtaken).now = 1 := by decide
  rw [hrun.1] at hsince
  obtain ⟨rfl, rfl⟩ : 1 = since ∧ 5 = duration := by simpa using hsince
  rw [hrun.2] at hle
  omega

end Timing

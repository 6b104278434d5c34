import PutInPipe.Library.Roster
import PutInPipe.Library.Run

/-!
# Publishers

`Publisher` is the class template of that name, with the objects it points to. A subscriber is
known to it by a weak pointer, which expires when the last reference to the subscriber is
dropped. `notifySubscribers` locks the pointers and drops those that have expired, in one pass
under the mutex, and then calls `update` on what it has collected, without the mutex. While it
does so its shared pointers keep the collected subscribers alive, and anything may happen between
two calls: a subscriber may call back from `update`, as another thread may.
-/

open Machine (run)

universe u v

/-- A call of `notifySubscribers` after its pass over the pointers: what it has collected, and
on whom it has called `update`. -/
structure Notification (σ : Type u) (ε : Type v) where
  event : ε
  validSubscribers : List σ
  updated : List σ := []
  finished : Bool := false
deriving DecidableEq, Repr

/-- The loop goes on with the next subscriber, or ends. -/
def Notification.resume {σ : Type u} {ε : Type v} (n : Notification σ ε) : Notification σ ε :=
  match n.validSubscribers[n.updated.length]? with
  | some subscriber => { n with updated := n.updated ++ [subscriber] }
  | none => { n with finished := true }

/-- `subscribers` holds the weak pointers, `expired` the subscribers without references. -/
structure Publisher (σ : Type u) (ε : Type v) where
  subscribers : List σ := []
  expired : List σ := []
  notifications : List (Notification σ ε) := []
deriving DecidableEq, Repr

namespace Publisher

variable {σ : Type u} {ε : Type v} [DecidableEq σ]

def isExpired (p : Publisher σ ε) (wp : σ) : Bool := p.expired.contains wp

def lock (p : Publisher σ ε) (wp : σ) : Option σ := if p.isExpired wp then none else some wp

def hasSubscriber (p : Publisher σ ε) (observer : σ) : Bool :=
  p.subscribers.any fun wp => !p.isExpired wp && p.lock wp == some observer

/-- The argument is a shared pointer, which may be null. -/
def addSubscriber (p : Publisher σ ε) : Option σ → Publisher σ ε
  | none => p
  | some subscriber =>
      if !p.hasSubscriber subscriber then { p with subscribers := p.subscribers ++ [subscriber] }
      else p

def removeSubscriber (p : Publisher σ ε) (subscriber : Option σ) : Publisher σ ε :=
  { p with
    subscribers := p.subscribers.eraseP fun wp => !p.isExpired wp && p.lock wp == subscriber }

/-- The pass of `remove_if`: the pointers that stay, and what its predicate collects. -/
def collect (p : Publisher σ ε) : List σ → List σ × List σ
  | [] => ([], [])
  | wp :: wps =>
      match p.lock wp with
      | some sp => (wp :: (p.collect wps).1, sp :: (p.collect wps).2)
      | none => p.collect wps

/-- `notifySubscribers` up to its loop. -/
def notifySubscribers (p : Publisher σ ε) (event : ε) : Publisher σ ε :=
  let (subscribers, validSubscribers) := p.collect p.subscribers
  { p with
    subscribers
    notifications := p.notifications ++ [{ event, validSubscribers }] }

def countSubscribers (p : Publisher σ ε) : ℕ := p.subscribers.countP fun wp => !p.isExpired wp

/-- A notification that has not finished holds a shared pointer. -/
def held (p : Publisher σ ε) (subscriber : σ) : Bool :=
  p.notifications.any fun n => !n.finished && n.validSubscribers.contains subscriber

/-! ### Runs -/

/-- The calls on the publisher, the last reference to a subscriber but those of the
notifications is dropped, and the loop of a notification goes on. -/
inductive Op (σ : Type u) (ε : Type v) where
  | addSubscriber (subscriber : Option σ)
  | removeSubscriber (subscriber : Option σ)
  | expire (subscriber : σ)
  | notifySubscribers (event : ε)
  | resume (k : ℕ)
deriving DecidableEq, Repr

/-- There is no shared pointer to a subscriber that has expired. -/
def step (p : Publisher σ ε) : Op σ ε → Publisher σ ε
  | .addSubscriber subscriber =>
      if subscriber.any p.isExpired then p else p.addSubscriber subscriber
  | .removeSubscriber subscriber =>
      if subscriber.any p.isExpired then p else p.removeSubscriber subscriber
  | .expire subscriber =>
      if p.held subscriber then p else { p with expired := subscriber :: p.expired }
  | .notifySubscribers event => p.notifySubscribers event
  | .resume k => { p with notifications := p.notifications.modify k .resume }

/-- The publisher after a run from its construction. -/
def after (ops : List (Op σ ε)) : Publisher σ ε := run step {} ops

/-- What an operation means for who is subscribed. -/
def Op.move : Op σ ε → Roster.Move σ
  | .addSubscriber (some subscriber) => .enter subscriber
  | .removeSubscriber (some subscriber) => .leave subscriber
  | _ => .other

/-! ### The pointers that have not expired -/

variable {p : Publisher σ ε} {x : σ}

/-- Whose pointers have not expired, in the order of the list. -/
def live (p : Publisher σ ε) : List σ := p.subscribers.filter fun wp => !p.isExpired wp

theorem mem_live :
  x ∈ p.live ↔ x ∈ p.subscribers ∧ p.isExpired x = false
  := by rw [live, List.mem_filter, Bool.not_eq_true']

theorem lock_beq (p : Publisher σ ε) (wp x : σ) :
  (!p.isExpired wp && p.lock wp == some x) = (!p.isExpired x && wp == x)
  := by
  rw [lock]
  obtain rfl | hne := eq_or_ne wp x
  · cases hx : p.isExpired wp with
    | true => rfl
    | false => simp
  · cases hx : p.isExpired wp with
    | true => simp [hne]
    | false => simp [hne]

theorem hasSubscriber_eq (p : Publisher σ ε) (x : σ) :
  p.hasSubscriber x = true ↔ x ∈ p.live
  := by
  simp only [hasSubscriber, lock_beq, List.any_eq_true, Bool.and_eq_true, beq_iff_eq, mem_live,
    Bool.not_eq_true']
  constructor
  · rintro ⟨wp, hwp, hx, rfl⟩
    exact ⟨hwp, hx⟩
  · rintro ⟨hx, halive⟩
    exact ⟨x, hx, halive, rfl⟩

theorem collect_eq (p : Publisher σ ε) (wps : List σ) :
  p.collect wps
    = (wps.filter fun wp => !p.isExpired wp, wps.filter fun wp => !p.isExpired wp)
  := by
  induction wps with
  | nil => rfl
  | cons wp wps ih =>
      rw [collect, lock, ih]
      cases hwp : p.isExpired wp with
      | true => simp [hwp]
      | false => simp [hwp]

theorem countSubscribers_eq (p : Publisher σ ε) :
  p.countSubscribers = p.live.length
  := List.countP_eq_length_filter

theorem live_addSubscriber (hx : p.isExpired x = false) :
  (p.addSubscriber (some x)).live = Roster.note p.live (.enter x)
  := by
  rw [addSubscriber, Roster.note]
  cases hhas : p.hasSubscriber x with
  | true => rw [if_pos ((hasSubscriber_eq p x).mp hhas), if_neg (by simp)]
  | false =>
      have hmem : x ∉ p.live := by
        rw [← hasSubscriber_eq, hhas]
        apply Bool.false_ne_true
      rw [if_neg hmem, if_pos (by simp)]
      calc List.filter (fun wp => !p.isExpired wp) (p.subscribers ++ [x])
          = p.live ++ List.filter (fun wp => !p.isExpired wp) [x] := List.filter_append _ _
        _ = p.live ++ [x] := by rw [List.filter_singleton, hx]; rfl

theorem live_removeSubscriber (hx : p.isExpired x = false) :
  (p.removeSubscriber (some x)).live = Roster.note p.live (.leave x)
  := by
  have herase : (p.removeSubscriber (some x)).subscribers = p.subscribers.erase x := by
    rw [removeSubscriber, List.erase_eq_eraseP']
    simp only [lock_beq, hx, Bool.not_false, Bool.true_and]
  calc (p.removeSubscriber (some x)).live
      = (p.subscribers.erase x).filter fun wp => !p.isExpired wp := by rw [← herase]; rfl
    _ = p.live.erase x := List.erase_filter.symm

theorem live_notifySubscribers (p : Publisher σ ε) (event : ε) :
  (p.notifySubscribers event).live = p.live
  := by
  rw [notifySubscribers, collect_eq]
  apply List.filter_filter.trans
  simp [live, isExpired]

/-- The live pointers are those of a roster. -/
def Follows (h : List (Roster.Move σ)) (p : Publisher σ ε) : Prop :=
  p.live = (Roster.ofHistory h).filter fun wp => !p.isExpired wp

theorem filter_expired (p : Publisher σ ε) (x : σ) (l : List σ) :
  (l.filter fun wp => !{ p with expired := x :: p.expired }.isExpired wp)
    = (l.filter fun wp => !p.isExpired wp).filter fun wp => !(wp == x)
  := by
  rw [List.filter_filter]
  simp only [isExpired, List.contains_cons, Bool.not_or]

theorem Follows.keep {h : List (Roster.Move σ)} (hp : p.Follows h) {m : Roster.Move σ}
    (hm : ∀ x ∈ m.subject, p.isExpired x = true) :
  p.Follows (h ++ [m])
  := by
  rw [Follows, hp, Roster.ofHistory_concat]
  cases hsubject : m.subject with
  | some x =>
      rw [Roster.filter_note_of_not hsubject]
      rw [hm x hsubject]
      rfl
  | none =>
      rw [Roster.filter_note, Roster.note_of_subject hsubject]
      rw [hsubject]
      nofun

theorem Follows.move {h : List (Roster.Move σ)} (hp : p.Follows h) {q : Publisher σ ε}
    {m : Roster.Move σ} (hm : ∀ x ∈ m.subject, p.isExpired x = false)
    (hexpired : q.expired = p.expired) (hq : q.live = Roster.note p.live m) :
  q.Follows (h ++ [m])
  := by
  have halive : q.isExpired = p.isExpired := by
    funext x
    rw [isExpired, isExpired, hexpired]
  rw [Follows, hq, hp, Roster.ofHistory_concat, halive, Roster.filter_note]
  intro x hx
  rw [hm x hx]
  rfl

/-- What an operation does to the live pointers. -/
theorem Follows.step {h : List (Roster.Move σ)} (hp : p.Follows h) (op : Op σ ε) :
  (p.step op).Follows (h ++ [op.move])
  := by
  have hother : p.Follows (h ++ [.other]) := by
    apply hp.keep
    nofun
  cases op with
  | addSubscriber subscriber =>
      cases subscriber with
      | none => apply hother
      | some x =>
          rw [Publisher.step, Option.any_some]
          cases hx : p.isExpired x with
          | true =>
              apply hp.keep
              rintro _ ⟨⟩
              apply hx
          | false =>
              apply hp.move
              · rintro _ ⟨⟩
                apply hx
              · simp only [Bool.false_eq_true, if_false, addSubscriber]
                split <;> rfl
              · apply live_addSubscriber hx
  | removeSubscriber subscriber =>
      cases subscriber with
      | none =>
          have hsame : p.removeSubscriber none = p := by
            rw [removeSubscriber, List.eraseP_of_forall_not]
            intro wp _
            simp [lock]
          rw [Publisher.step, Option.any_none, if_neg Bool.false_ne_true, hsame]
          apply hother
      | some x =>
          rw [Publisher.step, Option.any_some]
          cases hx : p.isExpired x with
          | true =>
              apply hp.keep
              rintro _ ⟨⟩
              apply hx
          | false =>
              apply hp.move
              · rintro _ ⟨⟩
                apply hx
              · rfl
              · apply live_removeSubscriber hx
  | expire x =>
      rw [Publisher.step]
      split
      · apply hother
      · rw [Follows, live, filter_expired, filter_expired]
        exact congrArg _ hother
  | notifySubscribers event =>
      apply hp.move
      · nofun
      · rfl
      · apply live_notifySubscribers
  | resume k => apply hother

theorem follows_after (ops : List (Op σ ε)) :
  (after ops).Follows (ops.map Op.move)
  := by
  induction ops using List.reverseRecOn with
  | nil => rfl
  | append_singleton ops op ih =>
      rw [after, Machine.run_append, Machine.run_cons, Machine.run_nil, List.map_append,
        List.map_singleton]
      apply ih.step

/-- Who is subscribed and alive, in the order of the list. -/
theorem lists_live (ops : List (Op σ ε)) :
  (∀ x, x ∈ (after ops).live
      ↔ Roster.Present (ops.map Op.move) x ∧ (after ops).isExpired x = false)
    ∧ (after ops).live.Pairwise (Roster.Before (ops.map Op.move))
  := by
  have hlists := Roster.lists_ofHistory (ops.map (Op.move (σ := σ) (ε := ε)))
  rw [follows_after ops]
  constructor
  · intro x
    rw [List.mem_filter, hlists.mem, Bool.not_eq_true']
  · apply hlists.ordered.filter

/-! ### The calls of a notification -/

end Publisher

namespace Notification

variable {σ : Type u} {ε : Type v} {n : Notification σ ε}

/-- The calls go through what was collected. -/
structure Proceeds (n : Notification σ ε) : Prop where
  updated : n.updated <+: n.validSubscribers
  complete : n.finished = true → n.updated = n.validSubscribers

theorem validSubscribers_resume (n : Notification σ ε) :
  n.resume.event = n.event ∧ n.resume.validSubscribers = n.validSubscribers
  := by
  rw [resume]
  split
  · exact ⟨rfl, rfl⟩
  · exact ⟨rfl, rfl⟩

theorem Proceeds.resume (h : n.Proceeds) :
  n.resume.Proceeds
  := by
  rw [Notification.resume]
  split
  case h_1 subscriber hnext =>
      constructor
      case updated =>
          have htake : n.updated ++ [subscriber]
              = n.validSubscribers.take (n.updated.length + 1) := by
            rw [List.take_add_one, ← List.prefix_iff_eq_take.mp h.updated, hnext,
              Option.toList_some]
          rw [htake]
          apply List.take_prefix
      case complete =>
          intro hfinished
          rw [h.complete hfinished, List.getElem?_eq_none (Nat.le_refl _)] at hnext
          cases hnext
  case h_2 hnone =>
      have hlength := List.getElem?_eq_none_iff.mp hnone
      have hall := h.updated.eq_of_length_le hlength
      constructor
      case updated => apply h.updated
      case complete => exact fun _ => hall

end Notification

namespace Publisher

variable {σ : Type u} {ε : Type v} [DecidableEq σ] {p : Publisher σ ε} {n : Notification σ ε}
  {k : ℕ}

/-- Nothing changes a notification but its own loop. -/
theorem getElem?_step (hn : p.notifications[k]? = some n) (op : Op σ ε) :
  (p.step op).notifications[k]? = some n ∨ (p.step op).notifications[k]? = some n.resume
  := by
  cases op with
  | addSubscriber subscriber =>
      left
      rw [step]
      split
      · apply hn
      · cases subscriber with
        | none => apply hn
        | some x =>
            rw [addSubscriber]
            split <;> apply hn
  | removeSubscriber subscriber =>
      left
      rw [step]
      split <;> apply hn
  | expire x =>
      left
      rw [step]
      split <;> apply hn
  | notifySubscribers event =>
      left
      rw [step, notifySubscribers]
      rw [List.getElem?_append_left (List.getElem?_eq_some_iff.mp hn).1]
      apply hn
  | resume j =>
      rw [step, List.getElem?_modify, hn]
      by_cases hj : j = k
      · right
        simp [hj]
      · left
        simp [hj]

/-- The notification of number `k`, with the event and the subscribers it began with. -/
def Notifies (k : ℕ) (event : ε) (subscribers : List σ) (p : Publisher σ ε) : Prop :=
  ∃ n, p.notifications[k]? = some n ∧ n.event = event ∧ n.validSubscribers = subscribers
    ∧ n.Proceeds

theorem notifies_step {event : ε} {subscribers : List σ} (p : Publisher σ ε) (op : Op σ ε)
    (h : p.Notifies k event subscribers) :
  (p.step op).Notifies k event subscribers
  := by
  obtain ⟨n, hn, hevent, hvalid, hproceeds⟩ := h
  obtain hsame | hresume := getElem?_step hn op
  · exact ⟨n, hsame, hevent, hvalid, hproceeds⟩
  · obtain ⟨hevent', hvalid'⟩ := n.validSubscribers_resume
    exact ⟨n.resume, hresume, hevent'.trans hevent, hvalid'.trans hvalid, hproceeds.resume⟩

theorem notifies_notifySubscribers (p : Publisher σ ε) (event : ε) :
  (p.notifySubscribers event).Notifies p.notifications.length event p.live
  := by
  use { event, validSubscribers := p.live }
  constructor
  · rw [notifySubscribers, collect_eq]
    apply List.getElem?_concat_length
  · use rfl, rfl
    constructor
    case updated => apply List.nil_prefix
    case complete => nofun

theorem getElem?_resume (hn : p.notifications[k]? = some n) :
  (p.step (.resume k)).notifications[k]? = some n.resume
  := by simp [step, hn]

/-- A notification that goes on comes to its end. -/
theorem finishes {d : ℕ} (hn : p.notifications[k]? = some n)
    (hd : n.validSubscribers.length = n.updated.length + d) :
  ∃ m n', (run step p (List.replicate m (.resume k))).notifications[k]? = some n'
    ∧ n'.finished = true
  := by
  induction d generalizing p n with
  | zero =>
      use 1, n.resume, getElem?_resume hn
      rw [Nat.add_zero] at hd
      rw [Notification.resume, List.getElem?_eq_none (Nat.le_of_eq hd)]
  | succ d ih =>
      have hlt : n.updated.length < n.validSubscribers.length := by omega
      have hlength : n.resume.validSubscribers.length = n.resume.updated.length + d := by
        rw [Notification.resume, List.getElem?_eq_getElem hlt]
        simp only [List.length_append, List.length_singleton]
        omega
      obtain ⟨m, n', hn', hfinished⟩ := ih (getElem?_resume hn) hlength
      use m + 1, n', hn'

theorem after_append (before later : List (Op σ ε)) (op : Op σ ε) :
  after (before ++ op :: later) = run step ((after before).step op) later
  := Machine.run_append _ _ _

/-- The number of the notification that is begun after some operations. -/
def number (before : List (Op σ ε)) : ℕ := (after before).notifications.length

theorem notifies_after (before later : List (Op σ ε)) (event : ε) :
  (after (before ++ .notifySubscribers event :: later)).Notifies (number before) event
    (after before).live
  := by
  have hbegin := (after before).notifies_notifySubscribers event
  have hlater := (Machine.everyState_of_invariant notifies_step hbegin later).last
  rw [after_append]
  apply hlater

/-! ### Notifications and subscriptions -/

/-- What a notification begun after the operations `before` does. -/
structure Delivers (before : List (Op σ ε)) (event : ε) (n : Notification σ ε) : Prop where
  event : n.event = event
  mem : ∀ x, x ∈ n.validSubscribers
    ↔ Roster.Present (before.map Op.move) x ∧ (after before).isExpired x = false
  ordered : n.validSubscribers.Pairwise (Roster.Before (before.map Op.move))
  nodup : n.validSubscribers.Nodup
  updated : n.updated <+: n.validSubscribers
  complete : n.finished = true → n.updated = n.validSubscribers

/-- A notification calls `update` once on everyone who was added, not removed since and alive
when it began, in the order of the first additions since the last removals, whatever happens
`later`; it comes to its end when its loop goes on; and adding who is subscribed has no
effect. -/
theorem notifySubscribers_delivers (before later : List (Op σ ε)) (event : ε) :
  (∃ n, (after (before ++ .notifySubscribers event :: later)).notifications[number before]?
        = some n ∧ Delivers before event n)
    ∧ (∃ m n, (run step (after (before ++ .notifySubscribers event :: later))
          (List.replicate m (.resume (number before)))).notifications[number before]? = some n
        ∧ n.finished = true)
    ∧ ∀ x, Roster.Present (before.map Op.move) x → (after before).isExpired x = false →
      (after before).step (.addSubscriber (some x)) = after before
  := by
  obtain ⟨n, hn, hevent, hvalid, hproceeds⟩ := notifies_after before later event
  obtain ⟨hmem, hordered⟩ := lists_live before
  constructor
  · use n, hn
    rw [← hvalid] at hmem hordered
    constructor
    case event => apply hevent
    case mem => apply hmem
    case ordered => apply hordered
    case nodup => apply Roster.nodup_of_pairwise hordered
    case updated => apply hproceeds.updated
    case complete => apply hproceeds.complete
  constructor
  · obtain ⟨d, hd⟩ := Nat.exists_eq_add_of_le hproceeds.updated.length_le
    apply finishes hn hd
  · intro x hx halive
    have hlive : x ∈ (after before).live := (hmem x).mpr ⟨hx, halive⟩
    have hhas := (hasSubscriber_eq _ x).mpr hlive
    simp [step, halive, addSubscriber, hhas]

/-! ### Subscribing again -/

/-- The first addition of `x` of all comes before that of `y`. -/
def AddedBefore (ops : List (Op σ ε)) (x y : σ) : Prop :=
  ∃ i j : ℕ, ops[i]? = some (.addSubscriber (some x)) ∧ ops[j]? = some (.addSubscriber (some y))
    ∧ (∀ k < i, ops[k]? ≠ some (.addSubscriber (some x)))
    ∧ (∀ k < j, ops[k]? ≠ some (.addSubscriber (some y))) ∧ i < j

/-- The first subscriber leaves and comes back. -/
def Sample.returning : List (Op ℕ Unit) :=
  [.addSubscriber (some 1), .addSubscriber (some 2), .removeSubscriber (some 1),
    .addSubscriber (some 1)]

/-- Who is removed and added again comes last. -/
theorem not_addedBefore :
  ¬∀ (before : List (Op ℕ Unit)) (event : Unit) (n : Notification ℕ Unit),
    (after (before ++ [.notifySubscribers event])).notifications[number before]? = some n →
      n.validSubscribers.Pairwise (AddedBefore before)
  := by
  intro h
  have hnotified := h Sample.returning () { event := (), validSubscribers := [2, 1] } rfl
  obtain ⟨i, j, -, -, -, hfirst, hlt⟩ := (List.pairwise_cons.mp hnotified).1 1 (by simp)
  apply hfirst 0 (Nat.zero_lt_of_lt hlt) rfl

end Publisher

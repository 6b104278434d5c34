import PutInPipe.Library.Run
import Mathlib.Algebra.Ring.Nat

/-!
# Acknowledgements

`sendTextWithAck` gives an event a number and registers a callback that is to run once the
client has acknowledged the number. The entry is resolved by the acknowledgement, by the
fallback timer, at once when the event cannot be sent, or by the destructor. Each call is
taken as its atomic steps, so that these triggers interleave in every order.

The handler of a fallback timer holds no reference to its client: it looks the internal id
up in `ClientList`. A client may be created under the internal id of an earlier one, so the
model has all the client objects of one internal id, numbered in the order of creation.

The numbers of the events are natural numbers: `m_nextAckId` does not wrap.
-/

/-- The part of a `Client` that deals with acknowledgements. -/
structure ClientAcks where
  nextAckId : ℕ := 1
  -- by number, the call of `sendTextWithAck` whose callback is registered
  pendingAcks : List (ℕ × ℕ) := []
  -- what the destructor has swapped out of `pendingAcks` and not yet worked off
  swapped : Option (List (ℕ × ℕ)) := none
  -- the numbers the calls of `sendTextWithAck` have got, in the order of the calls
  ids : List ℕ := []
deriving DecidableEq, Repr

namespace ClientAcks

/-- `m_nextAckId.fetch_add(1)`, with which a call of `sendTextWithAck` begins. -/
def fetchAdd (c : ClientAcks) : ClientAcks :=
  { c with nextAckId := c.nextAckId + 1, ids := c.ids ++ [c.nextAckId] }

/-- `m_pendingAcks.emplace`. -/
def emplace (c : ClientAcks) (id call : ℕ) : ClientAcks :=
  if c.pendingAcks.any (fun e => e.1 == id) then c
  else { c with pendingAcks := c.pendingAcks ++ [(id, call)] }

@[simp]
theorem ids_emplace (c : ClientAcks) (id call : ℕ) :
  (c.emplace id call).ids = c.ids
  := by
  rw [emplace]
  split <;> rfl

@[simp]
theorem nextAckId_emplace (c : ClientAcks) (id call : ℕ) :
  (c.emplace id call).nextAckId = c.nextAckId
  := by
  rw [emplace]
  split <;> rfl

@[simp]
theorem swapped_emplace (c : ClientAcks) (id call : ℕ) :
  (c.emplace id call).swapped = c.swapped
  := by
  rw [emplace]
  split <;> rfl

theorem mem_of_emplace {c : ClientAcks} {id call : ℕ} {e : ℕ × ℕ}
    (h : e ∈ (c.emplace id call).pendingAcks) :
  e ∈ c.pendingAcks ∨ e = (id, call)
  := by
  rw [emplace] at h
  split at h
  · apply Or.inl h
  · simpa using h

/-- `m_pendingAcks.find`. -/
def find? (c : ClientAcks) (id : ℕ) : Option (ℕ × ℕ) := c.pendingAcks.find? (fun e => e.1 == id)

/-- `m_pendingAcks.erase`. -/
def erase (c : ClientAcks) (entry : ℕ × ℕ) : ClientAcks :=
  { c with pendingAcks := c.pendingAcks.erase entry }

/-- `pending.swap(m_pendingAcks)`, with which the destructor begins. -/
def swap (c : ClientAcks) : ClientAcks :=
  { c with pendingAcks := [], swapped := some c.pendingAcks }

/-- The destructor has `entries` left. -/
def leave (c : ClientAcks) (entries : List (ℕ × ℕ)) : ClientAcks :=
  { c with swapped := some entries }

/-- The destructor has begun. -/
def destructed (c : ClientAcks) : Bool := c.swapped.isSome

end ClientAcks

/-- A call in progress, by what it does next. Each holds a reference to its client. -/
inductive AckTask where
  /-- `sendTextWithAck`, before it registers the callback and starts the timer. -/
  | emplace (client id call : ℕ)
  /-- `sendTextWithAck`, before it looks at the connection. -/
  | transmit (client id : ℕ)
  /-- `resolveAck`, before it looks the number up. `source` is the client on whose account
  it was called: another one when the handler of a timer found a later client. -/
  | resolveAck (client id source : ℕ)
  /-- `resolveAck`, before it runs the callback. -/
  | callback (client call : ℕ)
deriving DecidableEq, Repr

def AckTask.client : AckTask → ℕ
  | .emplace client _ _ | .transmit client _ | .resolveAck client _ _ | .callback client _ => client

/-- The clients of one internal id, the calls in progress and the timers. -/
structure Acks where
  clients : ℕ → ClientAcks := fun _ => {}
  -- the number of clients created so far
  created : ℕ := 0
  -- the client `ClientList` holds under the internal id
  listed : Option ℕ := none
  tasks : List AckTask := []
  -- the fallback timers that are running, and those whose handlers are queued
  timers : List (ℕ × ℕ) := []
  fired : List (ℕ × ℕ) := []
  -- what has happened: the numbers each client has acknowledged, those whose timers have
  -- expired, those that could not be sent, and the callbacks that have run
  acked : List (ℕ × ℕ) := []
  timedOut : List (ℕ × ℕ) := []
  unsent : List (ℕ × ℕ) := []
  ran : List (ℕ × ℕ) := []

namespace Acks

/-- What happens to the clients of the internal id. -/
inductive Event where
  | create
  | remove
  | sendTextWithAck (client : ℕ)
  | processAck (client id : ℕ)
  | timeout (client id : ℕ)
  | handler (client id : ℕ)
  | advance (task : AckTask) (connected : Bool)
  | destroy (client : ℕ)
  | destructorCallback (client : ℕ) (entry : ℕ × ℕ)
deriving DecidableEq, Repr

def setClient (s : Acks) (g : ℕ) (c : ClientAcks) : Acks :=
  { s with clients := Function.update s.clients g c }

def addTask (s : Acks) (t : AckTask) : Acks := { s with tasks := s.tasks ++ [t] }

def removeTask (s : Acks) (t : AckTask) : Acks := { s with tasks := s.tasks.erase t }

/-- The object exists and its destructor has not begun. -/
def alive (s : Acks) (g : ℕ) : Bool := decide (g < s.created) && !(s.clients g).destructed

/-- The next atomic step of a call in progress, which is no longer among the tasks.
`connected` tells whether the client has a live connection. -/
def perform (s : Acks) (connected : Bool) : AckTask → Acks
  | .emplace g id call =>
      { s.setClient g ((s.clients g).emplace id call) with
        timers := s.timers ++ [(g, id)] }.addTask (.transmit g id)
  | .transmit g id =>
      if connected then s
      else { s with unsent := (g, id) :: s.unsent }.addTask (.resolveAck g id g)
  | .resolveAck g id _ =>
      match (s.clients g).find? id with
      | none => s
      | some entry =>
          { s.setClient g ((s.clients g).erase entry) with
            timers := s.timers.erase (g, id) }.addTask (.callback g entry.2)
  | .callback g call => { s with ran := (g, call) :: s.ran }

/-- The client begins to be destroyed when nothing refers to it. -/
def mayDestroy (s : Acks) (g : ℕ) : Bool :=
  s.alive g && s.listed != some g && !s.tasks.any (fun t => t.client == g)

/-- The destructor takes over what is registered. -/
def destructor (s : Acks) (g : ℕ) : Acks := s.setClient g (s.clients g).swap

/-- The destructor cancels the timer of an entry it has taken over and runs the callback;
`entries` are those it has left. -/
def destructorCallback (s : Acks) (g : ℕ) (entry : ℕ × ℕ) (entries : List (ℕ × ℕ)) : Acks :=
  { s.setClient g ((s.clients g).leave entries) with
    timers := s.timers.erase (g, entry.1)
    ran := (g, entry.2) :: s.ran }

/-- The handler of a timer that has expired. -/
def handler (s : Acks) (g id : ℕ) : Acks :=
  match s.listed with
  | some found => s.addTask (.resolveAck found id g)
  | none => s

def step (s : Acks) : Event → Acks
  | .create =>
      if s.listed.isSome then s
      else { s with created := s.created + 1, listed := some s.created }
  | .remove => { s with listed := none }
  | .sendTextWithAck g =>
      if s.alive g then
        (s.setClient g (s.clients g).fetchAdd).addTask
          (.emplace g (s.clients g).nextAckId (s.clients g).ids.length)
      else s
  | .processAck g id =>
      if s.alive g then { s with acked := (g, id) :: s.acked }.addTask (.resolveAck g id g)
      else s
  | .timeout g id =>
      if (g, id) ∈ s.timers then
        { s with
          timers := s.timers.erase (g, id)
          fired := s.fired ++ [(g, id)]
          timedOut := (g, id) :: s.timedOut }
      else s
  | .handler g id =>
      if (g, id) ∈ s.fired then { s with fired := s.fired.erase (g, id) }.handler g id else s
  | .advance t connected =>
      if t ∈ s.tasks then (s.removeTask t).perform connected t else s
  | .destroy g => if s.mayDestroy g then s.destructor g else s
  | .destructorCallback g entry =>
      match (s.clients g).swapped with
      | none => s
      | some entries =>
          if entry ∈ entries then s.destructorCallback g entry (entries.erase entry) else s

end Acks

namespace AckTask

/-- The task is to register or to run the callback of the call. -/
def carries (g k : ℕ) : AckTask → Bool
  | .emplace client _ call | .callback client call => client == g && call == k
  | _ => false

end AckTask

theorem countP_erase_add {α : Type} [BEq α] [LawfulBEq α] {x : α} {xs : List α} (p : α → Bool)
    (h : x ∈ xs) :
  (xs.erase x).countP p + (if p x then 1 else 0) = xs.countP p
  := by
  rw [(List.perm_cons_erase h).countP_eq, List.countP_cons]

namespace Acks

variable {s : Acks} {i : ℕ}

/-! ### Where the callback of a call is -/

/-- In how many places the callback of a call is: with a task, registered, left to the
destructor, or among those that have run. -/
def places (s : Acks) (g k : ℕ) : ℕ :=
  s.tasks.countP (AckTask.carries g k) + (s.clients g).pendingAcks.countP (·.2 == k)
    + ((s.clients g).swapped.getD []).countP (·.2 == k) + s.ran.count (g, k)

/-- The number of calls of `sendTextWithAck` on a client. -/
def calls (s : Acks) (g : ℕ) : ℕ := (s.clients g).ids.length

/-- The callback of every call is in one place, the numbers are consecutive, and a call in
progress or an entry of `ClientList` keeps its client from being destroyed. -/
structure Accounted (s : Acks) : Prop where
  one : ∀ {g k}, k < s.calls g → s.places g k = 1
  zero : ∀ {g k}, s.calls g ≤ k → s.places g k = 0
  ids : ∀ g, (s.clients g).ids = List.range' 1 (s.calls g)
  next : ∀ g, (s.clients g).nextAckId = s.calls g + 1
  entries : ∀ {g e}, e ∈ (s.clients g).pendingAcks → e.1 = e.2 + 1
  tasks : ∀ {g i k}, .emplace g i k ∈ s.tasks → i = k + 1
  alive_of_task : ∀ {t}, t ∈ s.tasks → s.alive t.client = true
  alive_of_listed : ∀ {g}, s.listed = some g → s.alive g = true
  fresh : ∀ {g}, s.created ≤ g → (s.clients g).swapped = none
  swapped : ∀ {g}, (s.clients g).swapped ≠ none → (s.clients g).pendingAcks = []

theorem clients_setClient (s : Acks) (g : ℕ) (c : ClientAcks) (g' : ℕ) :
  (s.setClient g c).clients g' = if g' = g then c else s.clients g'
  := by
  rw [setClient]
  apply Function.update_apply

@[simp]
theorem places_addTask (s : Acks) (t : AckTask) (g k : ℕ) :
  (s.addTask t).places g k = s.places g k + if t.carries g k then 1 else 0
  := by
  simp only [places, addTask, List.countP_append, List.countP_singleton]
  omega

/-- Taking a task off the list takes what it carries. -/
theorem places_removeTask {t : AckTask} (ht : t ∈ s.tasks) (g k : ℕ) :
  (s.removeTask t).places g k + (if t.carries g k then 1 else 0) = s.places g k
  := by
  have h := countP_erase_add (AckTask.carries g k) ht
  simp only [places, removeTask]
  omega

/-- An entry that is found has the number. -/
theorem find?_eq_some {c : ClientAcks} {entry : ℕ × ℕ} (h : c.find? i = some entry) :
  entry ∈ c.pendingAcks ∧ entry.1 = i
  := by
  use List.mem_of_find?_eq_some h
  simpa using List.find?_some h

/-- A task leaves what it carries in another place. -/
theorem places_perform (connected : Bool) {t : AckTask}
    (hnew : ∀ {g i k}, t = .emplace g i k → (s.clients g).find? i = none) (g k : ℕ) :
  (s.perform connected t).places g k = s.places g k + if t.carries g k then 1 else 0
  := by
  cases t with
  | emplace g' i' k' =>
      have hno : ((s.clients g').pendingAcks.any fun e => e.1 == i') = false := by
        rw [List.any_eq_false]
        apply List.find?_eq_none.mp (hnew rfl)
      rw [perform, places_addTask]
      simp only [places, clients_setClient, AckTask.carries]
      by_cases hg : g = g'
      · subst hg
        simp [ClientAcks.emplace, hno, setClient, List.countP_append, List.countP_singleton]
        omega
      · simp [hg, setClient, Ne.symm hg]
  | transmit g' i' =>
      rw [perform]
      split
      · rfl
      · rw [places_addTask]
        rfl
  | resolveAck g' i' source =>
      rw [perform]
      cases hfind : (s.clients g').find? i' with
      | none => rfl
      | some entry =>
          have hcount := countP_erase_add (fun e : ℕ × ℕ => e.2 == k) (find?_eq_some hfind).1
          rw [places_addTask]
          simp only [places, clients_setClient, AckTask.carries]
          by_cases hg : g = g'
          · subst hg
            simp only [beq_iff_eq] at hcount
            simp [ClientAcks.erase, setClient]
            omega
          · simp [hg, setClient, Ne.symm hg]
  | callback g' k' =>
      simp [perform, AckTask.carries, places, List.count_cons]
      omega

/-! ### What a call in progress does next -/

/-- The task `u` is the rest of the call of which `t` was performed between `s` and `s'`. -/
inductive Yields (s s' : Acks) : AckTask → AckTask → Prop where
  | transmit (g i k) : Yields s s' (.emplace g i k) (.transmit g i)
  | resolveAck {g i} (h : (g, i) ∈ s'.unsent) : Yields s s' (.transmit g i) (.resolveAck g i g)
  | callback {g i k} (source) (h : (i, k) ∈ (s.clients g).pendingAcks) :
      Yields s s' (.resolveAck g i source) (.callback g k)

theorem Yields.client {s s' : Acks} {t u : AckTask} (h : Yields s s' t u) :
  u.client = t.client
  := by
  cases h <;> rfl

/-- What performing a task does besides moving callbacks. -/
structure Follows (s : Acks) (t : AckTask) (s' : Acks) : Prop where
  created : s'.created = s.created
  listed : s'.listed = s.listed
  fired : s'.fired = s.fired
  acked : s'.acked = s.acked
  timedOut : s'.timedOut = s.timedOut
  ids : ∀ g, (s'.clients g).ids = (s.clients g).ids
  next : ∀ g, (s'.clients g).nextAckId = (s.clients g).nextAckId
  swapped : ∀ g, (s'.clients g).swapped = (s.clients g).swapped
  entries : ∀ {g e}, e ∈ (s'.clients g).pendingAcks →
    e ∈ (s.clients g).pendingAcks ∨ t = .emplace g e.1 e.2
  tasks : ∀ {u}, u ∈ s'.tasks → u ∈ s.tasks ∨ Yields s s' t u
  unsent : s.unsent ⊆ s'.unsent
  ran : ∀ {g k}, (g, k) ∈ s'.ran → (g, k) ∈ s.ran ∨ t = .callback g k

/-- A client whose numbers and swapped entries are those it had. -/
theorem clients_setClient_of_same {β : Type} (s : Acks) {g : ℕ} (c : ClientAcks)
    (f : ClientAcks → β) (h : f c = f (s.clients g)) (g' : ℕ) :
  f ((s.setClient g c).clients g') = f (s.clients g')
  := by
  rw [clients_setClient]
  split
  · rename_i hg
    rw [h, hg]
  · rfl

theorem follows_perform (s : Acks) (connected : Bool) (t : AckTask) :
  s.Follows t (s.perform connected t)
  := by
  cases t with
  | emplace g i k =>
      refine ⟨rfl, rfl, rfl, rfl, rfl, ?_, ?_, ?_, ?_, ?_, fun x hx => hx, Or.inl⟩
      · apply clients_setClient_of_same s _ ClientAcks.ids (by simp)
      · apply clients_setClient_of_same s _ ClientAcks.nextAckId (by simp)
      · apply clients_setClient_of_same s _ ClientAcks.swapped (by simp)
      · intro g' e he
        have hc : (s.perform connected (.emplace g i k)).clients g'
            = if g' = g then (s.clients g).emplace i k else s.clients g' :=
          clients_setClient s g _ g'
        rw [hc] at he
        split at he
        · rename_i hg
          subst hg
          apply (ClientAcks.mem_of_emplace he).imp_right
          rintro rfl
          rfl
        · apply Or.inl he
      · intro u hu
        apply (List.mem_append.mp hu).imp_right
        intro hu
        rw [List.mem_singleton.mp hu]
        apply Yields.transmit
  | transmit g i =>
      rw [perform]
      split
      · exact ⟨rfl, rfl, rfl, rfl, rfl, fun _ => rfl, fun _ => rfl, fun _ => rfl, Or.inl,
          Or.inl, fun x hx => hx, Or.inl⟩
      · refine ⟨rfl, rfl, rfl, rfl, rfl, fun _ => rfl, fun _ => rfl, fun _ => rfl, Or.inl, ?_,
          List.subset_cons_self _ _, Or.inl⟩
        intro u hu
        apply (List.mem_append.mp hu).imp_right
        intro hu
        rw [List.mem_singleton.mp hu]
        apply Yields.resolveAck List.mem_cons_self
  | resolveAck g i source =>
      rw [perform]
      cases hfind : (s.clients g).find? i with
      | none =>
          exact ⟨rfl, rfl, rfl, rfl, rfl, fun _ => rfl, fun _ => rfl, fun _ => rfl, Or.inl,
            Or.inl, fun x hx => hx, Or.inl⟩
      | some entry =>
          obtain ⟨hmem, rfl⟩ := find?_eq_some hfind
          refine ⟨rfl, rfl, rfl, rfl, rfl, ?_, ?_, ?_, ?_, ?_, fun x hx => hx, Or.inl⟩
          · apply clients_setClient_of_same s ((s.clients g).erase entry) ClientAcks.ids rfl
          · apply clients_setClient_of_same s ((s.clients g).erase entry) ClientAcks.nextAckId rfl
          · apply clients_setClient_of_same s ((s.clients g).erase entry) ClientAcks.swapped rfl
          · intro g' e he
            left
            have hc := clients_setClient s g ((s.clients g).erase entry) g'
            simp only [addTask, hc] at he
            split at he
            · rename_i hg
              rw [hg]
              apply List.mem_of_mem_erase he
            · apply he
          · intro u hu
            apply (List.mem_append.mp hu).imp_right
            intro hu
            rw [List.mem_singleton.mp hu]
            apply Yields.callback source hmem
  | callback g k =>
      refine ⟨rfl, rfl, rfl, rfl, rfl, fun _ => rfl, fun _ => rfl, fun _ => rfl, Or.inl, Or.inl,
        fun x hx => hx, ?_⟩
      intro g' k' hx
      rcases List.mem_cons.mp hx with he | hx
      · obtain ⟨rfl, rfl⟩ := Prod.mk.inj he
        apply Or.inr rfl
      · apply Or.inl hx

/-! ### Every callback is in one place -/

theorem alive_of_same {s s' : Acks} (hcreated : s'.created = s.created)
    (hswapped : ∀ g, (s'.clients g).swapped = (s.clients g).swapped) (g : ℕ) :
  s'.alive g = s.alive g
  := by
  rw [alive, alive, ClientAcks.destructed, ClientAcks.destructed, hcreated, hswapped]

theorem alive_iff {g : ℕ} :
  s.alive g = true ↔ g < s.created ∧ (s.clients g).swapped = none
  := by
  simp [alive, ClientAcks.destructed]

theorem pos_places_of_task {t : AckTask} {g k : ℕ} (ht : t ∈ s.tasks)
    (hc : t.carries g k = true) :
  0 < s.tasks.countP (AckTask.carries g k)
  := List.countP_pos_iff.mpr ⟨t, ht, hc⟩

namespace Accounted

theorem init :
  Accounted {}
  where
    one hk := by simp [calls] at hk
    zero _ := by simp [places]
    ids g := rfl
    next g := rfl
    entries he := by simp at he
    tasks ht := by simp at ht
    alive_of_task ht := by simp at ht
    alive_of_listed hl := by simp at hl
    fresh _ := rfl
    swapped _ := rfl

theorem places_le (h : s.Accounted) (g k : ℕ) :
  s.places g k ≤ 1
  := by
  rcases lt_or_ge k (s.calls g) with hk | hk
  · rw [h.one hk]
  · rw [h.zero hk]
    apply Nat.zero_le

/-- Nothing changes but where the callbacks are, and clients nothing refers to begin to be
destroyed. -/
theorem of_places (h : s.Accounted) {s' : Acks}
    (hids : ∀ g, (s'.clients g).ids = (s.clients g).ids)
    (hnext : ∀ g, (s'.clients g).nextAckId = (s.clients g).nextAckId)
    (hplaces : ∀ g k, s'.places g k = s.places g k)
    (hpending : ∀ {g}, (s'.clients g).pendingAcks = (s.clients g).pendingAcks
      ∨ (s'.clients g).pendingAcks = [])
    (htasks : s'.tasks = s.tasks) (hlisted : s'.listed = s.listed)
    (hcreated : s'.created = s.created)
    (hswapped : ∀ {g}, (s'.clients g).swapped ≠ none → (s.clients g).swapped ≠ none
      ∨ (s.mayDestroy g = true ∧ (s'.clients g).pendingAcks = [])) :
  s'.Accounted
  := by
  have hcalls : ∀ g, s'.calls g = s.calls g := fun g => congrArg List.length (hids g)
  have halive : ∀ {g}, s.mayDestroy g = false → s.alive g = true → s'.alive g = true := by
    intro g hno ha
    obtain ⟨hlt, hs⟩ := alive_iff.mp ha
    rw [alive_iff, hcreated]
    use hlt
    by_contra hne
    rcases hswapped hne with hne | ⟨hd, -⟩
    · apply hne hs
    · rw [hno] at hd
      cases hd
  constructor
  · intro g k hk
    rw [hcalls] at hk
    rw [hplaces, h.one hk]
  · intro g k hk
    rw [hcalls] at hk
    rw [hplaces, h.zero hk]
  · intro g
    rw [hids, hcalls]
    apply h.ids
  · intro g
    rw [hnext, hcalls]
    apply h.next
  · intro g e he
    rcases hpending with hp | hp
    · rw [hp] at he
      apply h.entries he
    · rw [hp] at he
      cases he
  · intro g i k ht
    rw [htasks] at ht
    apply h.tasks ht
  · intro t ht
    rw [htasks] at ht
    apply halive _ (h.alive_of_task ht)
    apply Bool.eq_false_iff.mpr
    intro hd
    simp only [mayDestroy, Bool.and_eq_true, Bool.not_eq_true', List.any_eq_false,
      beq_iff_eq] at hd
    apply hd.2 t ht rfl
  · intro g hl
    rw [hlisted] at hl
    apply halive _ (h.alive_of_listed hl)
    simp [mayDestroy, hl]
  · intro g hle
    rw [hcreated] at hle
    by_contra hne
    rcases hswapped hne with hne | ⟨hd, -⟩
    · apply hne (h.fresh hle)
    · simp only [mayDestroy, alive, Bool.and_eq_true, decide_eq_true_eq] at hd
      omega
  · intro g hne
    rcases hswapped hne with hne | ⟨-, hp⟩
    · rcases hpending with hp | hp
      · rw [hp]
        apply h.swapped hne
      · apply hp
    · apply hp

/-- What has happened is no part of where the callbacks are. -/
theorem of_record (h : s.Accounted) (timers fired acked timedOut : List (ℕ × ℕ)) :
  Accounted { s with timers, fired, acked, timedOut }
  := ⟨h.one, h.zero, h.ids, h.next, h.entries, h.tasks, h.alive_of_task, h.alive_of_listed,
    h.fresh, h.swapped⟩

/-- The number a call has got is free when its callback is registered. -/
theorem find?_eq_none (h : s.Accounted) {g k : ℕ} (ht : .emplace g i k ∈ s.tasks) :
  (s.clients g).find? i = none
  := by
  rw [Option.eq_none_iff_forall_ne_some]
  intro e hfind
  obtain ⟨hmem, he⟩ := find?_eq_some hfind
  have hk : e.2 = k := by
    have := h.entries hmem
    have := h.tasks ht
    omega
  have hle := h.places_le g k
  have htask : 0 < s.tasks.countP (AckTask.carries g k) :=
    pos_places_of_task ht (by simp [AckTask.carries])
  have hentry : 0 < (s.clients g).pendingAcks.countP (·.2 == k) :=
    List.countP_pos_iff.mpr ⟨e, hmem, by simp [hk]⟩
  rw [places] at hle
  omega

theorem perform (h : s.Accounted) {t : AckTask} (ht : t ∈ s.tasks) (connected : Bool) :
  ((s.removeTask t).perform connected t).Accounted
  := by
  have hf := follows_perform (s.removeTask t) connected t
  have halive : ∀ g, ((s.removeTask t).perform connected t).alive g = s.alive g :=
    alive_of_same hf.created hf.swapped
  have hcalls : ∀ g, ((s.removeTask t).perform connected t).calls g = s.calls g :=
    fun g => congrArg List.length (hf.ids g)
  have hnew : ∀ {g i k}, t = .emplace g i k →
      ((s.removeTask t).clients g).find? i = none := by
    rintro g i k rfl
    apply h.find?_eq_none ht
  constructor
  · intro g k hk
    rw [hcalls] at hk
    rw [places_perform connected hnew, places_removeTask ht, h.one hk]
  · intro g k hk
    rw [hcalls] at hk
    rw [places_perform connected hnew, places_removeTask ht, h.zero hk]
  · intro g
    rw [hf.ids, hcalls]
    apply h.ids
  · intro g
    rw [hf.next, hcalls]
    apply h.next
  · intro g e he
    rcases hf.entries he with he | rfl
    · apply h.entries he
    · apply h.tasks ht
  · intro g i k hu
    rcases hf.tasks hu with hu | hu
    · apply h.tasks (List.mem_of_mem_erase hu)
    · cases hu
  · intro u hu
    rw [halive]
    rcases hf.tasks hu with hu | hu
    · apply h.alive_of_task (List.mem_of_mem_erase hu)
    · rw [hu.client]
      apply h.alive_of_task ht
  · intro g hl
    rw [hf.listed] at hl
    rw [halive]
    apply h.alive_of_listed hl
  · intro g hg
    rw [hf.created] at hg
    rw [hf.swapped]
    apply h.fresh hg
  · intro g hs
    rw [hf.swapped] at hs
    apply List.eq_nil_iff_forall_not_mem.mpr
    intro e he
    rcases hf.entries he with he | rfl
    · have hnil : ((s.removeTask t).clients g).pendingAcks = [] := h.swapped hs
      rw [hnil] at he
      cases he
    · -- the call that registers a callback keeps its client
      apply hs (alive_iff.mp (h.alive_of_task ht)).2

/-- A call that carries no callback may begin on a client that is not being destroyed. -/
theorem addTask (h : s.Accounted) {t : AckTask} (ht : s.alive t.client = true)
    (hc : ∀ g k, t.carries g k = false) :
  (s.addTask t).Accounted
  where
    one hk := by
      rw [places_addTask, hc, h.one hk]
      rfl
    zero hk := by
      rw [places_addTask, hc, h.zero hk]
      rfl
    ids := h.ids
    next := h.next
    entries := h.entries
    tasks {g i k} hu := by
      rcases List.mem_append.mp hu with hu | hu
      · apply h.tasks hu
      · have := hc g k
        rw [← List.mem_singleton.mp hu, AckTask.carries] at this
        simp at this
    alive_of_task hu := by
      rcases List.mem_append.mp hu with hu | hu
      · apply h.alive_of_task hu
      · rw [List.mem_singleton.mp hu]
        apply ht
    alive_of_listed := h.alive_of_listed
    fresh := h.fresh
    swapped := h.swapped

theorem create (h : s.Accounted) :
  Accounted { s with created := s.created + 1, listed := some s.created }
  := by
  refine ⟨h.one, h.zero, h.ids, h.next, h.entries, h.tasks, ?_, ?_, ?_, h.swapped⟩
  · intro t ht
    obtain ⟨hlt, hs⟩ := alive_iff.mp (h.alive_of_task ht)
    exact alive_iff.mpr ⟨Nat.lt_succ_of_lt hlt, hs⟩
  · intro g hl
    rw [← Option.some.inj hl]
    exact alive_iff.mpr ⟨Nat.lt_succ_self _, h.fresh le_rfl⟩
  · intro g hg
    apply h.fresh (Nat.le_of_succ_le hg)

/-- A call that begins has a callback to register. -/
theorem sendTextWithAck (h : s.Accounted) {g : ℕ} (hg : s.alive g = true) :
  ((s.setClient g (s.clients g).fetchAdd).addTask
    (.emplace g (s.clients g).nextAckId (s.clients g).ids.length)).Accounted
  := by
  have hpending : ∀ g', ((s.setClient g (s.clients g).fetchAdd).clients g').pendingAcks
      = (s.clients g').pendingAcks :=
    clients_setClient_of_same s _ ClientAcks.pendingAcks rfl
  have hswapped : ∀ g', ((s.setClient g (s.clients g).fetchAdd).clients g').swapped
      = (s.clients g').swapped :=
    clients_setClient_of_same s _ ClientAcks.swapped rfl
  have halive : ∀ g', ((s.setClient g (s.clients g).fetchAdd).addTask
      (.emplace g (s.clients g).nextAckId (s.clients g).ids.length)).alive g' = s.alive g' :=
    alive_of_same rfl hswapped
  have hclient : ∀ g', (s.setClient g (s.clients g).fetchAdd).clients g'
      = if g' = g then (s.clients g).fetchAdd else s.clients g' :=
    clients_setClient s g _
  have hcalls : ∀ g', ((s.setClient g (s.clients g).fetchAdd).addTask
      (.emplace g (s.clients g).nextAckId (s.clients g).ids.length)).calls g'
      = s.calls g' + if g = g' then 1 else 0 := by
    intro g'
    simp only [calls, Acks.addTask, hclient]
    by_cases hg' : g' = g
    · simp [hg', ClientAcks.fetchAdd]
    · simp [hg', Ne.symm hg']
  have hplaces : ∀ g' k, ((s.setClient g (s.clients g).fetchAdd).addTask
      (.emplace g (s.clients g).nextAckId (s.clients g).ids.length)).places g' k
      = s.places g' k + if g = g' ∧ s.calls g' = k then 1 else 0 := by
    intro g' k
    have hsame : (s.setClient g (s.clients g).fetchAdd).places g' k = s.places g' k := by
      simp only [places, hpending, hswapped]
      rfl
    rw [places_addTask, hsame]
    by_cases hg' : g = g'
    · simp [AckTask.carries, hg', calls]
    · simp [AckTask.carries, hg']
  constructor
  · intro g' k hk
    rw [hcalls] at hk
    rw [hplaces]
    by_cases hlt : k < s.calls g'
    · rw [h.one hlt, if_neg (by omega)]
    · split at hk
      · rw [h.zero (by omega), if_pos ⟨by assumption, by omega⟩]
      · omega
  · intro g' k hk
    rw [hcalls] at hk
    rw [hplaces, h.zero (by omega), if_neg]
    rintro ⟨rfl, rfl⟩
    rw [if_pos rfl] at hk
    omega
  · intro g'
    rw [hcalls]
    simp only [Acks.addTask, hclient]
    by_cases hg' : g' = g
    · subst hg'
      rw [if_pos rfl, if_pos rfl, ClientAcks.fetchAdd, h.next, List.range'_concat, ← h.ids]
      simp [Nat.add_comm]
    · rw [if_neg hg', if_neg (Ne.symm hg')]
      apply h.ids
  · intro g'
    rw [hcalls]
    simp only [Acks.addTask, hclient]
    by_cases hg' : g' = g
    · subst hg'
      rw [if_pos rfl, if_pos rfl, ClientAcks.fetchAdd, h.next]
    · rw [if_neg hg', if_neg (Ne.symm hg')]
      apply h.next
  · intro g' e he
    simp only [Acks.addTask, hpending] at he
    apply h.entries he
  · intro g' i k hu
    rcases List.mem_append.mp hu with hu | hu
    · apply h.tasks hu
    · cases List.mem_singleton.mp hu
      apply h.next
  · intro u hu
    rw [halive]
    rcases List.mem_append.mp hu with hu | hu
    · apply h.alive_of_task hu
    · rw [List.mem_singleton.mp hu]
      apply hg
  · intro g' hl
    rw [halive]
    apply h.alive_of_listed hl
  · intro g' hle
    simp only [Acks.addTask, hswapped]
    apply h.fresh hle
  · intro g' hs
    simp only [Acks.addTask, hswapped] at hs
    simp only [Acks.addTask, hpending]
    apply h.swapped hs

theorem destructor (h : s.Accounted) {g : ℕ} (hg : s.mayDestroy g = true) :
  (s.destructor g).Accounted
  := by
  have hclient := clients_setClient s g (s.clients g).swap
  have hnone : (s.clients g).swapped = none := by
    simp only [mayDestroy, Bool.and_eq_true] at hg
    apply (alive_iff.mp hg.1.1).2
  apply h.of_places
  · apply clients_setClient_of_same s (s.clients g).swap ClientAcks.ids rfl
  · apply clients_setClient_of_same s (s.clients g).swap ClientAcks.nextAckId rfl
  · intro g' k
    simp only [places, Acks.destructor, hclient]
    by_cases hg' : g' = g
    · subst hg'
      simp [setClient, ClientAcks.swap, hnone]
    · simp [setClient, hg']
  · intro g'
    rw [Acks.destructor, hclient]
    split
    · apply Or.inr rfl
    · apply Or.inl rfl
  · rfl
  · rfl
  · rfl
  · intro g' hne
    rw [Acks.destructor, hclient] at hne ⊢
    split at hne
    · rename_i hg'
      rw [if_pos hg', hg']
      apply Or.inr ⟨hg, rfl⟩
    · apply Or.inl hne

theorem destructorCallback (h : s.Accounted) {g : ℕ} {entries : List (ℕ × ℕ)}
    (hs : (s.clients g).swapped = some entries) {entry : ℕ × ℕ} (he : entry ∈ entries) :
  (s.destructorCallback g entry (entries.erase entry)).Accounted
  := by
  have hclient := clients_setClient s g ((s.clients g).leave (entries.erase entry))
  have hpending := clients_setClient_of_same s ((s.clients g).leave (entries.erase entry))
    ClientAcks.pendingAcks rfl
  apply h.of_places
  · apply clients_setClient_of_same s ((s.clients g).leave _) ClientAcks.ids rfl
  · apply clients_setClient_of_same s ((s.clients g).leave _) ClientAcks.nextAckId rfl
  · intro g' k
    have hcount := countP_erase_add (fun e : ℕ × ℕ => e.2 == k) he
    simp only [beq_iff_eq] at hcount
    simp only [places, Acks.destructorCallback, hclient]
    by_cases hg' : g' = g
    · subst hg'
      simp [setClient, ClientAcks.leave, hs, List.count_cons]
      omega
    · simp [setClient, hg', Ne.symm hg']
  · intro g'
    apply Or.inl (hpending g')
  · rfl
  · rfl
  · rfl
  · intro g' hne
    left
    rw [Acks.destructorCallback, hclient] at hne
    split at hne
    · rename_i hg'
      rw [hg', hs]
      apply Option.some_ne_none _
    · apply hne

theorem step (h : s.Accounted) (e : Event) :
  (s.step e).Accounted
  := by
  cases e with
  | create =>
      rw [Acks.step]
      split
      · apply h
      · apply h.create
  | remove =>
      exact ⟨h.one, h.zero, h.ids, h.next, h.entries, h.tasks, h.alive_of_task,
        fun hl => by simp [Acks.step] at hl, h.fresh, h.swapped⟩
  | sendTextWithAck g =>
      rw [Acks.step]
      split
      · rename_i hg
        apply h.sendTextWithAck hg
      · apply h
  | processAck g i =>
      rw [Acks.step]
      split
      · rename_i hg
        apply (h.of_record s.timers s.fired ((g, i) :: s.acked) s.timedOut).addTask _
          (fun _ _ => rfl)
        exact hg
      · exact h
  | timeout g i =>
      rw [Acks.step]
      split
      · apply h.of_record
      · exact h
  | handler g i =>
      rw [Acks.step]
      split
      · have h' := h.of_record s.timers (s.fired.erase (g, i)) s.acked s.timedOut
        rw [Acks.handler]
        split
        · rename_i found hl
          apply h'.addTask _ (fun _ _ => rfl)
          exact h.alive_of_listed hl
        · exact h'
      · exact h
  | advance t connected =>
      rw [Acks.step]
      split
      · rename_i ht
        exact h.perform ht connected
      · exact h
  | destroy g =>
      rw [Acks.step]
      split
      · rename_i hg
        exact h.destructor hg
      · exact h
  | destructorCallback g entry =>
      rw [Acks.step]
      split
      · exact h
      · rename_i entries hs
        split
        · rename_i he
          exact h.destructorCallback hs he
        · exact h

end Accounted

/-! ### Callbacks run once -/

/-- The numbers of different calls differ, no callback runs twice, and every callback has run
when the destructor has worked off what it took over. -/
structure RunsOnce (s : Acks) : Prop where
  distinct : ∀ g, (s.clients g).ids.Nodup
  atMostOnce : ∀ g k, s.ran.count (g, k) ≤ 1
  exactlyOnce : ∀ g, (s.clients g).swapped = some [] → ∀ k < s.calls g, s.ran.count (g, k) = 1

theorem Accounted.runsOnce (h : s.Accounted) :
  s.RunsOnce
  where
    distinct g := by
      rw [h.ids]
      exact List.nodup_range'
    atMostOnce g k := by
      have hle := h.places_le g k
      rw [places] at hle
      omega
    exactlyOnce g hs k hk := by
      have hone := h.one hk
      have hpending : (s.clients g).pendingAcks = [] := by
        apply h.swapped
        rw [hs]
        exact Option.some_ne_none _
      have htasks : s.tasks.countP (AckTask.carries g k) = 0 := by
        rw [List.countP_eq_zero]
        intro t ht hc
        have hg : t.client = g := by
          cases t with
          | emplace client i call => exact eq_of_beq (Bool.and_eq_true_iff.mp hc).1
          | callback client call => exact eq_of_beq (Bool.and_eq_true_iff.mp hc).1
          | transmit client i => cases hc
          | resolveAck client i source => cases hc
        have hnone := (alive_iff.mp (h.alive_of_task ht)).2
        rw [hg, hs] at hnone
        cases hnone
      simpa [places, htasks, hpending, hs] using hone

/-! ### Callbacks run for a reason -/

/-- The client has acknowledged the number, its timer has expired, or its event could not be
sent. -/
def Due (s : Acks) (g i : ℕ) : Prop :=
  (g, i) ∈ s.acked ∨ (g, i) ∈ s.timedOut ∨ (g, i) ∈ s.unsent

/-- Every callback that has run belongs to a call whose number is due, or to a client that is
being destroyed. -/
def RunsForReason (s : Acks) : Prop :=
  ∀ g k, (g, k) ∈ s.ran → ∃ i, (s.clients g).ids[k]? = some i
    ∧ (s.Due g i ∨ (s.clients g).destructed = true)

/-- `resolveAck`, called by the handler of a timer of an earlier client, finds no entry of the
client that now has the internal id. -/
def NotStale (s : Acks) : Event → Prop
  | .advance (.resolveAck g i source) _ =>
      source ≠ g → .resolveAck g i source ∈ s.tasks → (s.clients g).find? i = none
  | _ => True

/-- The number on whose account a task resolves an entry or runs a callback is due. -/
def TaskDue (s : Acks) : AckTask → Prop
  | .resolveAck _ i source => s.Due source i
  | .callback g k => s.Due g (k + 1)
  | _ => True

/-- The tasks and the callbacks that have run are due. -/
structure Attested (s : Acks) : Prop where
  tasks : ∀ {t}, t ∈ s.tasks → s.TaskDue t
  fired : s.fired ⊆ s.timedOut
  ran : ∀ {g k}, (g, k) ∈ s.ran → s.Due g (k + 1) ∨ (s.clients g).destructed = true

/-- What is recorded in `s` is recorded in `s'`. -/
structure Extends (s s' : Acks) : Prop where
  acked : s.acked ⊆ s'.acked
  timedOut : s.timedOut ⊆ s'.timedOut
  unsent : s.unsent ⊆ s'.unsent

theorem Due.mono {s s' : Acks} {g i : ℕ} (h : s.Due g i) (he : s.Extends s') :
  s'.Due g i
  := h.imp (fun h => he.acked h) (Or.imp (fun h => he.timedOut h) (fun h => he.unsent h))

theorem TaskDue.mono {s s' : Acks} {t : AckTask} (h : s.TaskDue t) (he : s.Extends s') :
  s'.TaskDue t
  := by
  cases t with
  | resolveAck g i source => exact Due.mono h he
  | callback g k => exact Due.mono h he
  | emplace g i k => trivial
  | transmit g i => trivial

namespace Attested

theorem init :
  Attested {}
  where
    tasks ht := by simp at ht
    fired := List.nil_subset _
    ran hx := by simp at hx

/-- What begins is due. -/
theorem addTask (h : s.Attested) {t : AckTask} (ht : s.TaskDue t) :
  (s.addTask t).Attested
  where
    tasks hu := by
      rcases List.mem_append.mp hu with hu | hu
      · apply h.tasks hu
      · rw [List.mem_singleton.mp hu]
        apply ht
    fired := h.fired
    ran := h.ran

/-- A change of a client that is not brought back from its destructor. -/
theorem setClient (h : s.Attested) {g : ℕ} {c : ClientAcks}
    (hc : (s.clients g).destructed = true → c.destructed = true) :
  (s.setClient g c).Attested
  where
    tasks := h.tasks
    fired := h.fired
    ran {g' k} hx := by
      apply (h.ran hx).imp_right
      intro hd
      rw [clients_setClient]
      split
      · rename_i hg
        rw [hg] at hd
        apply hc hd
      · apply hd

theorem perform (h : s.Attested) (hA : s.Accounted) {t : AckTask} (ht : t ∈ s.tasks)
    (connected : Bool) (hstale : s.NotStale (.advance t connected)) :
  ((s.removeTask t).perform connected t).Attested
  := by
  have hf := follows_perform (s.removeTask t) connected t
  have he : s.Extends ((s.removeTask t).perform connected t) := by
    refine ⟨?_, ?_, hf.unsent⟩
    · rw [hf.acked]
      apply List.Subset.refl _
    · rw [hf.timedOut]
      apply List.Subset.refl _
  constructor
  · intro u hu
    rcases hf.tasks hu with hu | hu
    · apply (h.tasks (List.mem_of_mem_erase hu)).mono he
    · cases hu with
      | transmit g i k => trivial
      | resolveAck hunsent => exact Or.inr (Or.inr hunsent)
      | @callback g i k source hmem =>
          have hi : i = k + 1 := hA.entries hmem
          have hown : source = g := by
            by_contra hne
            have hnone := List.find?_eq_none.mp (hstale hne ht) _ hmem
            apply hnone (beq_self_eq_true i)
          have hdue : s.Due source i := h.tasks ht
          rw [hown, hi] at hdue
          apply hdue.mono he
  · rw [hf.fired, hf.timedOut]
    apply h.fired
  · intro g k hx
    rw [ClientAcks.destructed, hf.swapped]
    rcases hf.ran hx with hx | rfl
    · apply (h.ran hx).imp_left
      exact fun hdue => hdue.mono he
    · apply Or.inl (Due.mono (h.tasks ht) he)

theorem step (h : s.Attested) (hA : s.Accounted) (e : Event) (hstale : s.NotStale e) :
  (s.step e).Attested
  := by
  cases e with
  | create =>
      rw [Acks.step]
      split
      · apply h
      · exact ⟨h.tasks, h.fired, h.ran⟩
  | remove => exact ⟨h.tasks, h.fired, h.ran⟩
  | sendTextWithAck g =>
      rw [Acks.step]
      split
      · have h' := h.setClient (g := g) (c := (s.clients g).fetchAdd) id
        exact h'.addTask trivial
      · exact h
  | processAck g i =>
      rw [Acks.step]
      split
      · have he : s.Extends { s with acked := (g, i) :: s.acked } :=
          ⟨List.subset_cons_self _ _, List.Subset.refl _, List.Subset.refl _⟩
        have h' : Attested { s with acked := (g, i) :: s.acked } :=
          ⟨fun ht => (h.tasks ht).mono he, h.fired,
            fun hx => (h.ran hx).imp_left (fun hdue => hdue.mono he)⟩
        apply h'.addTask
        apply Or.inl List.mem_cons_self
      · apply h
  | timeout g i =>
      rw [Acks.step]
      split
      · have he : s.Extends { s with
            timers := s.timers.erase (g, i)
            fired := s.fired ++ [(g, i)]
            timedOut := (g, i) :: s.timedOut } :=
          ⟨List.Subset.refl _, List.subset_cons_self _ _, List.Subset.refl _⟩
        refine ⟨fun ht => (h.tasks ht).mono he, ?_,
          fun hx => (h.ran hx).imp_left (fun hdue => hdue.mono he)⟩
        intro x hx
        rcases List.mem_append.mp hx with hx | hx
        · apply List.mem_cons_of_mem _ (h.fired hx)
        · rw [List.mem_singleton.mp hx]
          apply List.mem_cons_self
      · apply h
  | handler g i =>
      rw [Acks.step]
      split
      · rename_i hmem
        have h' : Attested { s with fired := s.fired.erase (g, i) } :=
          ⟨h.tasks, fun x hx => h.fired (List.mem_of_mem_erase hx), h.ran⟩
        rw [Acks.handler]
        split
        · apply h'.addTask
          apply Or.inr (Or.inl (h.fired hmem))
        · apply h'
      · apply h
  | advance t connected =>
      rw [Acks.step]
      split
      · rename_i ht
        apply h.perform hA ht connected hstale
      · apply h
  | destroy g =>
      rw [Acks.step]
      split
      · apply h.setClient
        exact fun _ => rfl
      · apply h
  | destructorCallback g entry =>
      rw [Acks.step]
      split
      · apply h
      · rename_i entries hs
        split
        · have h' := h.setClient (g := g) (c := (s.clients g).leave (entries.erase entry))
            (fun _ => rfl)
          refine ⟨h'.tasks, h'.fired, ?_⟩
          intro g' k hx
          rcases List.mem_cons.mp hx with he | hx
          · right
            rw [(Prod.mk.inj he).1, destructorCallback, clients_setClient, if_pos rfl]
            rfl
          · apply h'.ran hx
        · apply h

end Attested

theorem Accounted.runsForReason (h : s.Accounted) (ha : s.Attested) :
  s.RunsForReason
  := by
  intro g k hx
  refine ⟨k + 1, ?_, ha.ran hx⟩
  have hk : k < s.calls g := by
    by_contra hle
    have hzero := h.zero (not_lt.mp hle)
    have hpos := List.count_pos_iff.mpr hx
    rw [places] at hzero
    omega
  rw [h.ids, List.getElem?_range' hk]
  simp [Nat.add_comm]

/-- In every run no callback runs twice and each has run when the destructor has finished. In
every run in which no handler of a timer of an earlier client finds an entry, callbacks run
only for a reason. -/
theorem runsOnce_and_runsForReason (es : List Event) :
  Machine.EveryState step RunsOnce {} es
  ∧ (Machine.EveryStep step NotStale {} es →
    Machine.EveryState step (fun s => s.RunsOnce ∧ s.RunsForReason) {} es)
  := by
  constructor
  · apply (Machine.everyState_of_invariant _ Accounted.init es).mono
    · exact fun s h => h.runsOnce
    · exact fun s e h => h.step e
  · intro hes
    have hinv : Machine.EveryState step (fun s => s.Accounted ∧ s.Attested) {} es := by
      apply Machine.everyState_of_everyStep _ ⟨Accounted.init, Attested.init⟩ hes
      exact fun s e h hstale => ⟨h.1.step e, h.2.step h.1 e hstale⟩
    apply hinv.mono
    exact fun s h => ⟨h.1.runsOnce, h.1.runsForReason h.2⟩

/-- The timer of a client expires. Before its handler runs, the client is destroyed and a new
one created under the internal id, which sends an event of its own. -/
def staleTimeout : List Event :=
  [.create, .sendTextWithAck 0, .advance (.emplace 0 1 0) true, .advance (.transmit 0 1) true,
    .timeout 0 1, .remove, .destroy 0, .destructorCallback 0 (1, 0), .create,
    .sendTextWithAck 1, .advance (.emplace 1 1 0) true, .advance (.transmit 1 1) true,
    .handler 0 1, .advance (.resolveAck 1 1 0) true, .advance (.callback 1 0) true]

/-- The handler runs the callback of the new client, whose number is not due. -/
theorem not_runsForReason_staleTimeout :
  ¬ Machine.EveryState step (fun s => s.RunsOnce ∧ s.RunsForReason) {} staleTimeout
  := by
  intro h
  obtain ⟨i, hi, hreason⟩ := h.last.2 1 0 (by decide)
  obtain rfl : i = 1 := Option.some.inj (hi.symm.trans (by decide))
  rcases hreason with hdue | hd
  · revert hdue
    rw [Due]
    decide
  · revert hd
    decide

end Acks

import PutInPipe.Session.Basic
import PutInPipe.Library.Run

/-!
# Who owns a client

The containers of a session refer to clients by weak pointers. A thread that goes through
one of them locks each pointer for a moment, and if the other owners of the client are gone
by then, it is this thread that runs the destructor: which notifies the session, so that
`removeReceiver` is called again. `Owning` has the threads with the code they have still to
run, the mutexes they hold and their references to clients. A reference that a thread gives
up inside a locked region is *borrowed*, any other is *owned*.
-/

namespace Owning

/-- The publishers whose subscribers are clients: the one of the session, and of each client
the one of its `ClientsDirect` events. -/
inductive Publisher where
  | session
  | clientsDirect (client : ClientRef)
deriving DecidableEq, Repr

inductive Mutex where
  | receivers
  | publisher (p : Publisher)
deriving DecidableEq, Repr

/-- The mutex is one that the destructor of a client acquires by way of `removeReceiver`. -/
def Mutex.reacquired : Mutex → Bool
  | .receivers | .publisher .session => true
  | .publisher (.clientsDirect _) => false

/-- What a thread does next. A loop has the rest of the list it goes through. -/
inductive Instr where
  | lock (m : Mutex)
  | unlock (m : Mutex)
  -- an owned reference is given up, a borrowed one is, and an owned one becomes borrowed
  | drop (client : ClientRef)
  | release (client : ClientRef)
  | demote (client : ClientRef)
  -- `ClientList::remove`
  | erase (id : String)
  -- `Publisher::addSubscriber` and `Publisher::notifySubscribers`, from where they hold the
  -- mutex; `guarded` tells whether the caller holds the mutex of the receivers
  | addSubscriber (p : Publisher) (subscriber : ClientRef)
  | hasSubscriber (p : Publisher) (subscriber : ClientRef) (rest : List ClientRef)
  | notify (guarded : Bool)
  | collect (guarded : Bool) (kept rest : List ClientRef)
  -- `TransferSession::addReceiver`, from where it holds the mutex
  | addReceiver (client : ClientRef)
  | checkReceivers (client : ClientRef) (rest : List ClientRef)
  | addConsumer (client : ClientRef)
  | crossSubscribe (client : ClientRef) (rest : List ClientRef)
  | crossSubscribeSender (client : ClientRef)
  | pushReceiver (client : ClientRef)
  -- `TransferSession::removeReceiver`, from where it holds the mutex
  | removeReceiver (publicId : String)
  | scanReceivers (publicId : String) (removed : Option ClientRef) (kept rest : List ClientRef)
  | removeConsumer (publicId : String)
  | kick (client : ClientRef)
  -- `Client::~Client` and `TransferSession::update`
  | runCallbacks (client : ClientRef)
  | notifyDestroyed (client : ClientRef)
deriving DecidableEq, Repr

/-- A thread with the code it has still to run. -/
structure Thread where
  code : List Instr
  owned : List ClientRef := []
  borrowed : List ClientRef := []
  locks : List Mutex := []
deriving DecidableEq, Repr

namespace Thread

/-- The code is run before the rest. -/
def push (t : Thread) (code : List Instr) : Thread := { t with code := code ++ t.code }

def own (t : Thread) (c : ClientRef) : Thread := { t with owned := c :: t.owned }

def borrow (t : Thread) (c : ClientRef) : Thread := { t with borrowed := c :: t.borrowed }

def refers (t : Thread) (c : ClientRef) : Bool := c ∈ t.owned || c ∈ t.borrowed

end Thread

end Owning

open Owning

structure Owning where
  clientList : List ClientRef
  -- the number of client objects made so far
  created : ℕ
  dataSender : ClientRef
  dataReceivers : List ClientRef := []
  subscribers : Publisher → List ClientRef
  -- the clients the session is subscribed to
  observed : List ClientRef
  threads : List Thread := []
  -- the clients whose destructor has begun, each with the mutexes the thread held
  destructions : List (ClientRef × List Mutex) := []

namespace Owning

/-- The session its creator has just made. -/
def create (sender : ClientRef) : Owning where
  clientList := [sender]
  created := sender.ref + 1
  dataSender := sender
  subscribers := fun p => if p = .session then [sender] else []
  observed := [sender]

/-- There is a reference to the client, so that a weak pointer to it can be locked. -/
def referenced (s : Owning) (c : ClientRef) : Bool :=
  c ∈ s.clientList || s.threads.any (·.refers c)

def setThread (s : Owning) (k : ℕ) (t : Thread) : Owning :=
  { s with threads := s.threads.set k t }

def setSubscribers (s : Owning) (p : Publisher) (clients : List ClientRef) : Owning :=
  { s with subscribers := Function.update s.subscribers p clients }

/-! ### The methods -/

/-- A function that runs under a mutex. The code unlocks it. -/
def locked (m : Mutex) (i : Instr) : List Instr := [.lock m, i]

/-- `addSubscriber`, for a client. -/
def subscribe (p : Publisher) (subscriber : ClientRef) : List Instr :=
  locked (.publisher p) (.addSubscriber p subscriber)

/-- `notifySubscribers` of the session. -/
def publish (guarded : Bool) : List Instr := locked (.publisher .session) (.notify guarded)

/-- The references to the subscribers go when `notifySubscribers` returns. -/
def letGo (guarded : Bool) (clients : List ClientRef) : List Instr :=
  clients.map (if guarded then .release else .drop)

/-- The destructor of a client. -/
def destructor (c : ClientRef) : List Instr := [.runCallbacks c, .notifyDestroyed c]

/-- The next instruction of a thread that is not blocked, where `t` has the code behind it.
`choice` decides what the model leaves open: the answer of the buffer, whether chunks were
removed, whether the client is without a WebSocket or has callbacks pending, and whether the
upload is finished. -/
def exec (s : Owning) (t : Thread) (choice : Bool) : Instr → Owning × Thread
  | .lock m => (s, { t with locks := m :: t.locks })
  | .unlock m => (s, { t with locks := t.locks.erase m })
  | .drop c => (s, { t with owned := t.owned.erase c })
  | .release c => (s, { t with borrowed := t.borrowed.erase c })
  | .demote c => (s, { t with owned := t.owned.erase c }.borrow c)
  | .erase id =>
      match s.clientList.find? (·.id == id) with
      | none => (s, t)
      | some c => ({ s with clientList := s.clientList.erase c }, (t.own c).push [.drop c])
  | .addSubscriber p c => (s, t.push [.hasSubscriber p c (s.subscribers p)])
  | .hasSubscriber p c [] =>
      (s.setSubscribers p (s.subscribers p ++ [c]), t.push [.unlock (.publisher p)])
  | .hasSubscriber p c (d :: rest) =>
      if s.referenced d then
        (s, (t.borrow d).push
          [.release d, if d = c then .unlock (.publisher p) else .hasSubscriber p c rest])
      else (s, t.push [.hasSubscriber p c rest])
  | .notify guarded => (s, t.push [.collect guarded [] (s.subscribers .session)])
  | .collect guarded kept [] =>
      (s.setSubscribers .session kept,
        t.push (.unlock (.publisher .session) :: letGo guarded kept))
  | .collect guarded kept (c :: rest) =>
      if s.referenced c then
        (s, (if guarded then t.borrow c else t.own c).push [.collect guarded (kept ++ [c]) rest])
      else (s, t.push [.collect guarded kept rest])
  | .addReceiver c => (s, t.push [.checkReceivers c s.dataReceivers])
  | .checkReceivers c [] => (s, t.push [.addConsumer c])
  | .checkReceivers c (d :: rest) =>
      if s.referenced d then
        (s, (t.borrow d).push
          [.release d, if d.id = c.id then .unlock .receivers else .checkReceivers c rest])
      else (s, t.push [.checkReceivers c rest])
  | .addConsumer c =>
      (s, t.push [if choice then .crossSubscribe c s.dataReceivers else .unlock .receivers])
  | .crossSubscribe c [] => (s, t.push [.crossSubscribeSender c])
  | .crossSubscribe c (d :: rest) =>
      if s.referenced d then
        (s, (t.borrow d).push
          ((if d.publicId = c.publicId then []
            else subscribe (.clientsDirect c) d ++ subscribe (.clientsDirect d) c)
          ++ [.release d, .crossSubscribe c rest]))
      else (s, t.push [.crossSubscribe c rest])
  | .crossSubscribeSender c =>
      if s.referenced s.dataSender then
        (s, (t.borrow s.dataSender).push
          (subscribe (.clientsDirect c) s.dataSender ++ subscribe (.clientsDirect s.dataSender) c
          ++ [.release s.dataSender, .pushReceiver c]))
      else (s, t.push [.pushReceiver c])
  | .pushReceiver c =>
      ({ s with dataReceivers := s.dataReceivers ++ [c], observed := c :: s.observed },
        t.push (subscribe .session c ++ publish true ++ [.unlock .receivers]))
  | .removeReceiver publicId => (s, t.push [.scanReceivers publicId none [] s.dataReceivers])
  | .scanReceivers publicId removed kept [] =>
      ({ s with dataReceivers := kept },
        t.push ([.unlock .receivers, .removeConsumer publicId]
          ++ removed.toList.flatMap (fun c => [.kick c, .drop c]) ++ publish false))
  | .scanReceivers publicId removed kept (c :: rest) =>
      if s.referenced c then
        if c.publicId = publicId then
          -- `removedClient` gives up what it referred to before
          (s, ((t.borrow c).own c).push
            (removed.toList.flatMap (fun d => [.demote d, .release d])
            ++ [.release c, .scanReceivers publicId (some c) kept rest]))
        else (s, (t.borrow c).push [.release c, .scanReceivers publicId removed (kept ++ [c]) rest])
      else (s, t.push [.scanReceivers publicId removed kept rest])
  | .removeConsumer _ => (s, if choice then t.push (publish false) else t)
  | .kick c => (s, if choice then t.push [.erase c.id] else t)
  | .runCallbacks c => (s, if choice then t.push [.erase c.id] else t)
  | .notifyDestroyed c =>
      if c ∈ s.observed then
        if s.referenced s.dataSender then
          (s, (t.own s.dataSender).push
            ((if s.dataSender.publicId = c.publicId then
                if choice then [.lock .receivers, .unlock .receivers] else []
              else locked .receivers (.removeReceiver c.publicId))
            ++ [.drop s.dataSender]))
        else (s, if choice then t.push [.lock .receivers, .unlock .receivers] else t)
      else (s, t)

/-- The client the thread gives up a reference to. -/
def Instr.givesUp : Instr → Option ClientRef
  | .drop c | .release c => some c
  | _ => none

/-- The thread waits for a mutex. -/
def blocked (s : Owning) : Instr → Bool
  | .lock m => s.threads.any (fun t => m ∈ t.locks)
  | _ => false

/-- Thread `k` runs the destructor next. -/
def destruct (s : Owning) (k : ℕ) (t : Thread) (c : ClientRef) : Owning :=
  { s.setThread k (t.push (destructor c)) with destructions := (c, t.locks) :: s.destructions }

/-- Thread `k` is now `t`. Was the reference it has given up the last one, the destructor is
run. -/
def settle (s₀ s : Owning) (k : ℕ) (t : Thread) (i : Instr) : Owning :=
  match i.givesUp with
  | some c =>
      if s₀.referenced c && !(s.setThread k t).referenced c then s.destruct k t c
      else s.setThread k t
  | none => s.setThread k t

/-! ### Runs -/

/-- What happens next: a client is created, a handler is called by a client or for one, or a
thread goes on. -/
inductive Step where
  | create (id publicId : String)
  | remove (id : String)
  | addReceiver (id : String)
  | removeReceiver (publicId : String)
  | addSubscriber (id : String)
  | request (id : String)
  | advance (k : ℕ) (choice : Bool)
deriving DecidableEq, Repr

def start (s : Owning) (t : Thread) : Owning := { s with threads := s.threads ++ [t] }

/-- A handler refers to the client it has found by its id, until it returns. -/
def startFor (s : Owning) (id : String) (code : ClientRef → List Instr) : Owning :=
  match s.clientList.find? (·.id == id) with
  | none => s
  | some c => s.start { code := code c ++ [.drop c], owned := [c] }

def step (s : Owning) : Step → Owning
  | .create id publicId =>
      if s.clientList.any (·.id == id) then s
      else { s with
        clientList := s.clientList ++ [⟨s.created, id, publicId⟩]
        created := s.created + 1 }
  | .remove id => s.start { code := [.erase id] }
  | .addReceiver id => s.startFor id (fun c => locked .receivers (.addReceiver c))
  | .removeReceiver publicId => s.start { code := locked .receivers (.removeReceiver publicId) }
  | .addSubscriber id => s.startFor id (subscribe .session)
  | .request id => s.startFor id (fun _ => [])
  | .advance k choice =>
      match s.threads[k]? with
      | none => s
      | some t =>
          match t.code with
          | [] => s
          | i :: rest =>
              if s.blocked i then s
              else
                let r := s.exec { t with code := rest } choice i
                s.settle r.1 k r.2 i

/-! ### Destructors without locks -/

/-- No destructor of a subscriber has been run by a thread that holds a mutex which the
destructor acquires. -/
def Unlocked (s : Owning) : Prop :=
  ∀ d ∈ s.destructions, d.1 ∈ s.subscribers .session → ∀ m ∈ d.2, m.reacquired = false

def Owns (s : Owning) (c : ClientRef) : Prop :=
  c ∈ s.clientList ∨ ∃ t ∈ s.threads, c ∈ t.owned

def Borrows (s : Owning) (c : ClientRef) : Prop := ∃ t ∈ s.threads, c ∈ t.borrowed

instance (s : Owning) (c : ClientRef) : Decidable (s.Owns c) :=
  inferInstanceAs (Decidable (_ ∨ _))

instance (s : Owning) (c : ClientRef) : Decidable (s.Borrows c) :=
  inferInstanceAs (Decidable (∃ _ ∈ _, _))

/-- The client of which the thread has one owned reference less. -/
def Instr.disowns : Instr → Option ClientRef
  | .drop c | .demote c => some c
  | _ => none

/-- A client whose last owned reference goes is not borrowed by any thread. -/
def KeepsOwner (s : Owning) : Step → Prop
  | .advance k _ => ∀ t ∈ s.threads[k]?, ∀ i ∈ t.code.head?, ∀ c ∈ i.disowns,
      (s.setThread k { t with owned := t.owned.erase c }).Borrows c ∨ i = .demote c →
      (s.setThread k { t with owned := t.owned.erase c }).Owns c
  | _ => True

instance (s : Owning) (l : Step) : Decidable (s.KeepsOwner l) := by
  cases l with
  | advance k choice =>
      exact inferInstanceAs (Decidable (∀ t ∈ s.threads[k]?, ∀ i ∈ t.code.head?, _))
  | _ => exact isTrue trivial

/-! ### The mutexes along the code -/

/-- The mutexes a thread holds when it has unlocked the one it has locked last. -/
def unlockLast (m : Mutex) : List Mutex → Option (List Mutex)
  | [] => none
  | last :: held => if last = m then some held else none

/-- The mutexes a thread holds when it has run an instruction and all that it leads to, if it
may run it with the mutexes `held`. A destructor may only be run without any. -/
def Instr.after (held : List Mutex) : Instr → Option (List Mutex)
  | .lock m => if m ∈ held then none else some (m :: held)
  | .unlock m => unlockLast m held
  | .release _ | .demote _ => some held
  | .addSubscriber p _ | .hasSubscriber p _ _ => unlockLast (.publisher p) held
  | .notify guarded | .collect guarded _ _ =>
      if held = .publisher .session :: (if guarded then [.receivers] else []) then
        some (if guarded then [.receivers] else [])
      else none
  | .addReceiver _ | .checkReceivers _ _ | .addConsumer _ | .crossSubscribe _ _
  | .crossSubscribeSender _ | .pushReceiver _ | .removeReceiver _ | .scanReceivers _ _ _ _ =>
      if held = [.receivers] then some [] else none
  | .drop _ | .erase _ | .removeConsumer _ | .kick _ | .runCallbacks _ | .notifyDestroyed _ =>
      if held = [] then some [] else none

/-- The mutexes a thread holds when it has run the code. -/
def afterCode : List Mutex → List Instr → Option (List Mutex)
  | held, [] => some held
  | held, i :: code => (i.after held).bind (afterCode · code)

@[simp]
theorem afterCode_nil (held : List Mutex) :
  afterCode held [] = some held
  := rfl

@[simp]
theorem afterCode_cons (held : List Mutex) (i : Instr) (code : List Instr) :
  afterCode held (i :: code) = (i.after held).bind (afterCode · code)
  := rfl

theorem afterCode_append (held : List Mutex) (code code' : List Instr) :
  afterCode held (code ++ code') = (afterCode held code).bind (afterCode · code')
  := by
  induction code generalizing held with
  | nil => rfl
  | cons i code ih =>
      rw [List.cons_append, afterCode_cons, afterCode_cons, Option.bind_assoc]
      congr 1
      funext held'
      apply ih

theorem afterCode_subscribe {held : List Mutex} {p : Publisher} (h : .publisher p ∉ held)
    (c : ClientRef) :
  afterCode held (subscribe p c) = some held
  := by
  simp [subscribe, locked, Instr.after, unlockLast, h]

theorem afterCode_publish (guarded : Bool) :
  afterCode (if guarded then [.receivers] else []) (publish guarded)
    = some (if guarded then [.receivers] else [])
  := by
  cases guarded with
  | true => rfl
  | false => rfl

theorem afterCode_letGo (guarded : Bool) (clients : List ClientRef) :
  afterCode (if guarded then [.receivers] else []) (letGo guarded clients)
    = some (if guarded then [.receivers] else [])
  := by
  induction clients with
  | nil => rfl
  | cons c clients ih =>
      rw [letGo, List.map_cons, afterCode_cons]
      cases guarded with
      | true => exact ih
      | false => exact ih

theorem of_if {p : Prop} [Decidable p] {held held' : List Mutex}
    (h : (if p then some held else none) = some held') :
  p ∧ held = held'
  := by
  split at h
  · next hp => exact ⟨hp, Option.some.inj h⟩
  · cases h

/-- An instruction is replaced by code that leads to the same mutexes. -/
def Leads (s : Owning) (t : Thread) (choice : Bool) (i : Instr) (held : List Mutex) : Prop :=
  ∃ code, (s.exec t choice i).2.code = code ++ t.code
    ∧ afterCode (s.exec t choice i).2.locks code = some held

variable {s : Owning} {t : Thread} {choice : Bool} {held : List Mutex}

section

attribute [local simp] exec Instr.after Thread.push Thread.borrow Thread.own

theorem leads_lock {m : Mutex} (h : (Instr.lock m).after t.locks = some held) :
  s.Leads t choice (.lock m) held
  := by
  use [], rfl
  rw [Instr.after] at h
  split at h
  · cases h
  · apply h

theorem leads_unlock {m : Mutex} (h : (Instr.unlock m).after t.locks = some held) :
  s.Leads t choice (.unlock m) held
  := by
  use [], rfl
  rw [Instr.after] at h
  cases hl : t.locks with
  | nil =>
      rw [hl] at h
      cases h
  | cons last held' =>
      rw [hl, unlockLast] at h
      split at h
      · next heq => simpa [hl, heq] using h
      · cases h

theorem leads_drop {c : ClientRef} (h : (Instr.drop c).after t.locks = some held) :
  s.Leads t choice (.drop c) held
  := by
  obtain ⟨hl, rfl⟩ := of_if h
  use [], rfl
  simp [hl]

theorem leads_erase {id : String} (h : (Instr.erase id).after t.locks = some held) :
  s.Leads t choice (.erase id) held
  := by
  obtain ⟨hl, rfl⟩ := of_if h
  rw [Leads, exec]
  split
  · use [], rfl
    simp [hl]
  · next c hc =>
      use [.drop c], rfl
      simp [hl]

theorem leads_hasSubscriber {p : Publisher} {c : ClientRef} {rest : List ClientRef}
    (h : (Instr.hasSubscriber p c rest).after t.locks = some held) :
  s.Leads t choice (.hasSubscriber p c rest) held
  := by
  cases rest with
  | nil => exact ⟨_, rfl, by simpa using h⟩
  | cons d rest =>
      rw [Leads, exec]
      split
      · refine ⟨_, rfl, ?_⟩
        split
        · simpa using h
        · simpa using h
      · exact ⟨_, rfl, by simpa using h⟩

theorem leads_collect {guarded : Bool} {kept rest : List ClientRef}
    (h : (Instr.collect guarded kept rest).after t.locks = some held) :
  s.Leads t choice (.collect guarded kept rest) held
  := by
  cases rest with
  | nil =>
      obtain ⟨hl, rfl⟩ := of_if h
      use .unlock (.publisher .session) :: letGo guarded kept, rfl
      simp only [exec, Thread.push, hl, afterCode_cons, Instr.after, unlockLast, if_true,
        Option.bind_some]
      apply afterCode_letGo
  | cons c rest =>
      rw [Leads, exec]
      split
      · use [.collect guarded (kept ++ [c]) rest]
        cases guarded with
        | true =>
            use rfl
            simpa using h
        | false =>
            use rfl
            simpa using h
      · use [.collect guarded kept rest], rfl
        simpa using h

theorem leads_checkReceivers {c : ClientRef} {rest : List ClientRef}
    (h : (Instr.checkReceivers c rest).after t.locks = some held) :
  s.Leads t choice (.checkReceivers c rest) held
  := by
  obtain ⟨hl, rfl⟩ := of_if h
  cases rest with
  | nil => exact ⟨_, rfl, by simp [hl]⟩
  | cons d rest =>
      rw [Leads, exec]
      split
      · refine ⟨_, rfl, ?_⟩
        split
        · simp [unlockLast, hl]
        · simp [hl]
      · exact ⟨_, rfl, by simp [hl]⟩

theorem leads_addConsumer {c : ClientRef}
    (h : (Instr.addConsumer c).after t.locks = some held) :
  s.Leads t choice (.addConsumer c) held
  := by
  obtain ⟨hl, rfl⟩ := of_if h
  refine ⟨_, rfl, ?_⟩
  simp only [exec, Thread.push, hl]
  split
  · rfl
  · rfl

theorem leads_crossSubscribe {c : ClientRef} {rest : List ClientRef}
    (h : (Instr.crossSubscribe c rest).after t.locks = some held) :
  s.Leads t choice (.crossSubscribe c rest) held
  := by
  obtain ⟨hl, rfl⟩ := of_if h
  cases rest with
  | nil => exact ⟨_, rfl, by simp [hl]⟩
  | cons d rest =>
      rw [Leads, exec]
      split
      · refine ⟨_, rfl, ?_⟩
        simp only [Thread.push, Thread.borrow, hl]
        split
        · rfl
        · simp [afterCode_append, afterCode_subscribe]
      · exact ⟨_, rfl, by simp [hl]⟩

theorem leads_crossSubscribeSender {c : ClientRef}
    (h : (Instr.crossSubscribeSender c).after t.locks = some held) :
  s.Leads t choice (.crossSubscribeSender c) held
  := by
  obtain ⟨hl, rfl⟩ := of_if h
  rw [Leads, exec]
  split
  · refine ⟨_, rfl, ?_⟩
    simp [hl, afterCode_append, afterCode_subscribe]
  · exact ⟨_, rfl, by simp [hl]⟩

theorem leads_pushReceiver {c : ClientRef}
    (h : (Instr.pushReceiver c).after t.locks = some held) :
  s.Leads t choice (.pushReceiver c) held
  := by
  obtain ⟨hl, rfl⟩ := of_if h
  refine ⟨_, rfl, ?_⟩
  simp only [exec, Thread.push, hl]
  rw [afterCode_append, afterCode_append, afterCode_subscribe (by simp)]
  rfl

theorem leads_scanReceivers {publicId : String} {removed : Option ClientRef}
    {kept rest : List ClientRef}
    (h : (Instr.scanReceivers publicId removed kept rest).after t.locks = some held) :
  s.Leads t choice (.scanReceivers publicId removed kept rest) held
  := by
  obtain ⟨hl, rfl⟩ := of_if h
  cases rest with
  | nil =>
      refine ⟨_, rfl, ?_⟩
      simp only [exec, Thread.push, hl]
      cases removed with
      | none => rfl
      | some d => rfl
  | cons c rest =>
      rw [Leads, exec]
      split
      · split
        · refine ⟨_, rfl, ?_⟩
          simp only [Thread.push, Thread.borrow, Thread.own, hl]
          cases removed with
          | none => rfl
          | some d => rfl
        · exact ⟨_, rfl, by simp [hl]⟩
      · exact ⟨_, rfl, by simp [hl]⟩

theorem leads_removeConsumer {publicId : String}
    (h : (Instr.removeConsumer publicId).after t.locks = some held) :
  s.Leads t choice (.removeConsumer publicId) held
  := by
  obtain ⟨hl, rfl⟩ := of_if h
  rw [Leads, exec]
  split
  · use publish false, rfl
    simp only [Thread.push, hl]
    apply afterCode_publish false
  · use [], rfl
    simp [hl]

theorem leads_notifyDestroyed {c : ClientRef}
    (h : (Instr.notifyDestroyed c).after t.locks = some held) :
  s.Leads t choice (.notifyDestroyed c) held
  := by
  obtain ⟨hl, rfl⟩ := of_if h
  rw [Leads, exec]
  split
  · split
    · refine ⟨_, rfl, ?_⟩
      simp only [Thread.push, Thread.own, hl]
      split_ifs
      · rfl
      · rfl
      · rfl
    · split
      · use [.lock .receivers, .unlock .receivers], rfl
        simp [unlockLast, hl]
      · use [], rfl
        simp [hl]
  · use [], rfl
    simp [hl]

/-- `kicked` and the pending callbacks may remove the client from the list. -/
theorem leads_mayErase {i : Instr} {c : ClientRef} (hi : i = .kick c ∨ i = .runCallbacks c)
    (h : i.after t.locks = some held) :
  s.Leads t choice i held
  := by
  obtain ⟨hexec, hl, rfl⟩ : s.exec t choice i = (s, if choice then t.push [.erase c.id] else t)
      ∧ t.locks = [] ∧ [] = held := by
    obtain rfl | rfl := hi
    · exact ⟨rfl, of_if h⟩
    · exact ⟨rfl, of_if h⟩
  rw [Leads, hexec]
  split
  · use [.erase c.id], rfl
    simp [hl]
  · use [], rfl
    simp [hl]

theorem leads_of_after {i : Instr} (h : i.after t.locks = some held) :
  s.Leads t choice i held
  := by
  cases i with
  | lock m => apply leads_lock h
  | unlock m => apply leads_unlock h
  | drop c => apply leads_drop h
  | release c => exact ⟨[], rfl, h⟩
  | demote c => exact ⟨[], rfl, h⟩
  | erase id => apply leads_erase h
  | addSubscriber p c => exact ⟨_, rfl, by simpa using h⟩
  | hasSubscriber p c rest => apply leads_hasSubscriber h
  | notify guarded => exact ⟨_, rfl, by simpa using h⟩
  | collect guarded kept rest => apply leads_collect h
  | addReceiver c => exact ⟨_, rfl, by simpa using h⟩
  | checkReceivers c rest => apply leads_checkReceivers h
  | addConsumer c => apply leads_addConsumer h
  | crossSubscribe c rest => apply leads_crossSubscribe h
  | crossSubscribeSender c => apply leads_crossSubscribeSender h
  | pushReceiver c => apply leads_pushReceiver h
  | removeReceiver publicId => exact ⟨_, rfl, by simpa using h⟩
  | scanReceivers publicId removed kept rest => apply leads_scanReceivers h
  | removeConsumer publicId => apply leads_removeConsumer h
  | kick c => apply leads_mayErase (Or.inl rfl) h
  | runCallbacks c => apply leads_mayErase (Or.inr rfl) h
  | notifyDestroyed c => apply leads_notifyDestroyed h

end

/-! ### The references -/

/-- An instruction gives up no owned reference but the one it says, and borrows only clients
that are referenced. -/
structure Handles (s : Owning) (t : Thread) (i : Instr) (r : Owning × Thread) : Prop where
  threads : r.1.threads = s.threads
  destructions : r.1.destructions = s.destructions
  listed : ∀ c ∈ s.clientList, c ∈ r.1.clientList ∨ c ∈ r.2.owned
  owned : ∀ c ∈ t.owned, i.disowns ≠ some c → c ∈ r.2.owned
  borrowed : ∀ c ∈ r.2.borrowed, c ∈ t.borrowed ∨ s.referenced c = true ∨ i = .demote c

variable {i : Instr}

namespace Handles

variable {s' : Owning} {t' : Thread}

theorem of_eq (hthreads : s'.threads = s.threads) (hdestructions : s'.destructions = s.destructions)
    (hlisted : s'.clientList = s.clientList) :
  Handles s t i (s', t)
  where
    threads := hthreads
    destructions := hdestructions
    listed _ hc := Or.inl (hlisted ▸ hc)
    owned _ hc _ := hc
    borrowed _ hc := Or.inl hc

theorem refl (s : Owning) (t : Thread) (i : Instr) :
  Handles s t i (s, t)
  := of_eq rfl rfl rfl

theorem push (h : Handles s t i (s', t')) (code : List Instr) :
  Handles s t i (s', t'.push code)
  := ⟨h.threads, h.destructions, h.listed, h.owned, h.borrowed⟩

theorem own (h : Handles s t i (s', t')) (c : ClientRef) :
  Handles s t i (s', t'.own c)
  where
    threads := h.threads
    destructions := h.destructions
    listed d hd := (h.listed d hd).imp_right (List.mem_cons_of_mem c)
    owned d hd hne := List.mem_cons_of_mem c (h.owned d hd hne)
    borrowed := h.borrowed

theorem borrow (h : Handles s t i (s', t')) {c : ClientRef} (hc : s.referenced c = true) :
  Handles s t i (s', t'.borrow c)
  where
    threads := h.threads
    destructions := h.destructions
    listed := h.listed
    owned := h.owned
    borrowed d hd := by
      obtain rfl | hd := List.mem_cons.mp hd
      · apply Or.inr (Or.inl hc)
      · apply h.borrowed d hd

end Handles

theorem mem_erase_of_disowns {c d : ClientRef} {clients : List ClientRef} (hc : c ∈ clients)
    (hne : some d ≠ some c) :
  c ∈ clients.erase d
  := by
  apply (List.mem_erase_of_ne _).mpr hc
  exact fun heq => hne (congrArg some heq.symm)

theorem handles_drop (d : ClientRef) :
  Handles s t (.drop d) (s.exec t choice (.drop d))
  where
    threads := rfl
    destructions := rfl
    listed _ hc := Or.inl hc
    owned _ hc hne := mem_erase_of_disowns hc hne
    borrowed _ hc := Or.inl hc

theorem handles_release (d : ClientRef) :
  Handles s t (.release d) (s.exec t choice (.release d))
  where
    threads := rfl
    destructions := rfl
    listed _ hc := Or.inl hc
    owned _ hc _ := hc
    borrowed _ hc := Or.inl (List.mem_of_mem_erase hc)

theorem handles_demote (d : ClientRef) :
  Handles s t (.demote d) (s.exec t choice (.demote d))
  where
    threads := rfl
    destructions := rfl
    listed _ hc := Or.inl hc
    owned _ hc hne := mem_erase_of_disowns hc hne
    borrowed c hc := by
      obtain rfl | hc := List.mem_cons.mp hc
      · apply Or.inr (Or.inr rfl)
      · apply Or.inl hc

theorem handles_erase (id : String) :
  Handles s t (.erase id) (s.exec t choice (.erase id))
  := by
  rw [exec]
  split
  · apply Handles.refl
  · next d hd =>
      apply Handles.push
      refine ⟨rfl, rfl, ?_, fun c hc _ => List.mem_cons_of_mem d hc, fun c hc => Or.inl hc⟩
      intro c hc
      by_cases heq : c = d
      · right
        rw [heq]
        apply List.mem_cons_self
      · left
        apply (List.mem_erase_of_ne heq).mpr hc

theorem handles_scanReceivers (publicId : String) (removed : Option ClientRef)
    (kept rest : List ClientRef) :
  Handles s t (.scanReceivers publicId removed kept rest)
    (s.exec t choice (.scanReceivers publicId removed kept rest))
  := by
  cases rest with
  | nil =>
      apply Handles.push
      exact Handles.of_eq rfl rfl rfl
  | cons c rest =>
      rw [exec]
      split
      · next hc =>
          split
          · apply Handles.push
            apply ((Handles.refl s t _).borrow hc).own
          · apply ((Handles.refl s t _).borrow hc).push
      · apply (Handles.refl s t _).push

theorem handles_notifyDestroyed (c : ClientRef) :
  Handles s t (.notifyDestroyed c) (s.exec t choice (.notifyDestroyed c))
  := by
  rw [exec]
  split
  · split
    · apply ((Handles.refl s t _).own _).push
    · split
      · apply (Handles.refl s t _).push
      · apply Handles.refl
  · apply Handles.refl

/-- A loop over weak pointers that borrows the next client, if there still is one. -/
theorem handles_next (c : ClientRef) (code code' : List Instr) :
  Handles s t i (if s.referenced c then (s, (t.borrow c).push code) else (s, t.push code'))
  := by
  split
  · next hc => apply ((Handles.refl s t i).borrow hc).push
  · apply (Handles.refl s t i).push

theorem handles_optional (code : List Instr) :
  Handles s t i (s, if choice then t.push code else t)
  := by
  split
  · apply (Handles.refl s t i).push
  · apply Handles.refl

theorem handles_exec (s : Owning) (t : Thread) (choice : Bool) (i : Instr) :
  Handles s t i (s.exec t choice i)
  := by
  cases i with
  | lock m => exact ⟨rfl, rfl, fun _ => Or.inl, fun _ hc _ => hc, fun _ => Or.inl⟩
  | unlock m => exact ⟨rfl, rfl, fun _ => Or.inl, fun _ hc _ => hc, fun _ => Or.inl⟩
  | drop d => apply handles_drop
  | release d => apply handles_release
  | demote d => apply handles_demote
  | erase id => apply handles_erase
  | hasSubscriber p c rest =>
      cases rest with
      | nil =>
          apply Handles.push
          exact Handles.of_eq rfl rfl rfl
      | cons d rest => apply handles_next
  | collect guarded kept rest =>
      cases rest with
      | nil =>
          apply Handles.push
          exact Handles.of_eq rfl rfl rfl
      | cons d rest =>
          cases guarded with
          | true => apply handles_next
          | false =>
              rw [exec]
              split
              · apply ((Handles.refl s t _).own d).push
              · apply (Handles.refl s t _).push
  | checkReceivers c rest =>
      cases rest with
      | nil => apply (Handles.refl s t _).push
      | cons d rest => apply handles_next
  | crossSubscribe c rest =>
      cases rest with
      | nil => apply (Handles.refl s t _).push
      | cons d rest => apply handles_next
  | crossSubscribeSender c => apply handles_next
  | pushReceiver c =>
      apply Handles.push
      exact Handles.of_eq rfl rfl rfl
  | scanReceivers publicId removed kept rest => apply handles_scanReceivers
  | removeConsumer publicId =>
      rw [exec]
      split
      · apply (Handles.refl s t _).push
      · apply Handles.refl
  | kick c => apply handles_optional
  | runCallbacks c => apply handles_optional
  | notifyDestroyed c => apply handles_notifyDestroyed
  | _ => apply (Handles.refl s t _).push

/-! ### The invariant -/

/-- Every thread may run its code, a borrowed client has an owner, and the destructors were
run by threads without mutexes. -/
structure Safe (s : Owning) : Prop where
  typed : ∀ t ∈ s.threads, afterCode t.locks t.code = some []
  owned : ∀ c, s.Borrows c → s.Owns c
  unlocked : ∀ d ∈ s.destructions, d.2 = []

theorem Safe.isUnlocked (h : s.Safe) :
  s.Unlocked
  := by
  intro d hd _ m hm
  rw [h.unlocked d hd] at hm
  cases hm

theorem referenced_iff {c : ClientRef} :
  s.referenced c = true ↔ s.Owns c ∨ s.Borrows c
  := by
  simp only [referenced, Thread.refers, Owns, Borrows, Bool.or_eq_true, decide_eq_true_eq,
    List.any_eq_true]
  constructor
  · rintro (hc | ⟨t, ht, hc | hc⟩)
    · apply Or.inl (Or.inl hc)
    · apply Or.inl (Or.inr ⟨t, ht, hc⟩)
    · apply Or.inr ⟨t, ht, hc⟩
  · rintro ((hc | ⟨t, ht, hc⟩) | ⟨t, ht, hc⟩)
    · apply Or.inl hc
    · apply Or.inr ⟨t, ht, Or.inl hc⟩
    · apply Or.inr ⟨t, ht, Or.inr hc⟩

theorem Safe.owns_of_referenced (h : s.Safe) {c : ClientRef} (hc : s.referenced c = true) :
  s.Owns c
  := by
  obtain hc | hc := referenced_iff.mp hc
  · apply hc
  · apply h.owned c hc

variable {k : ℕ}

theorem mem_setThread {t' : Thread} (hk : s.threads[k]? = some t) {u : Thread} :
  u ∈ (s.setThread k t').threads ↔ u = t' ∨ ∃ j, j ≠ k ∧ s.threads[j]? = some u
  := by
  obtain ⟨hlt, -⟩ := List.getElem?_eq_some_iff.mp hk
  rw [setThread, List.mem_iff_getElem?]
  constructor
  · rintro ⟨j, hj⟩
    by_cases heq : j = k
    · rw [heq, List.getElem?_set_self hlt] at hj
      apply Or.inl (Option.some.inj hj).symm
    · rw [List.getElem?_set_ne (Ne.symm heq)] at hj
      apply Or.inr ⟨j, heq, hj⟩
  · rintro (rfl | ⟨j, hne, hj⟩)
    · exact ⟨k, List.getElem?_set_self hlt⟩
    · exact ⟨j, by rw [List.getElem?_set_ne (Ne.symm hne), hj]⟩

theorem setThread_self (hk : s.threads[k]? = some t) :
  s.setThread k t = s
  := by
  obtain ⟨hlt, rfl⟩ := List.getElem?_eq_some_iff.mp hk
  rw [setThread, List.set_getElem_self]

/-- Another thread than `k` owns the client, or the list does. -/
def OwnsBeside (s : Owning) (k : ℕ) (c : ClientRef) : Prop :=
  c ∈ s.clientList ∨ ∃ j u, j ≠ k ∧ s.threads[j]? = some u ∧ c ∈ u.owned

def BorrowsBeside (s : Owning) (k : ℕ) (c : ClientRef) : Prop :=
  ∃ j u, j ≠ k ∧ s.threads[j]? = some u ∧ c ∈ u.borrowed

theorem owns_setThread {t' : Thread} (hk : s.threads[k]? = some t) {c : ClientRef} :
  (s.setThread k t').Owns c ↔ s.OwnsBeside k c ∨ c ∈ t'.owned
  := by
  simp only [Owns, mem_setThread hk]
  constructor
  · rintro (hc | ⟨u, rfl | ⟨j, hne, hj⟩, hc⟩)
    · apply Or.inl (Or.inl hc)
    · apply Or.inr hc
    · apply Or.inl (Or.inr ⟨j, u, hne, hj, hc⟩)
  · rintro ((hc | ⟨j, u, hne, hj, hc⟩) | hc)
    · apply Or.inl hc
    · apply Or.inr ⟨u, Or.inr ⟨j, hne, hj⟩, hc⟩
    · apply Or.inr ⟨t', Or.inl rfl, hc⟩

theorem borrows_setThread {t' : Thread} (hk : s.threads[k]? = some t) {c : ClientRef} :
  (s.setThread k t').Borrows c ↔ s.BorrowsBeside k c ∨ c ∈ t'.borrowed
  := by
  simp only [Borrows, mem_setThread hk]
  constructor
  · rintro ⟨u, rfl | ⟨j, hne, hj⟩, hc⟩
    · apply Or.inr hc
    · apply Or.inl ⟨j, u, hne, hj, hc⟩
  · rintro (⟨j, u, hne, hj, hc⟩ | hc)
    · exact ⟨u, Or.inr ⟨j, hne, hj⟩, hc⟩
    · exact ⟨t', Or.inl rfl, hc⟩

theorem owns_iff (hk : s.threads[k]? = some t) {c : ClientRef} :
  s.Owns c ↔ s.OwnsBeside k c ∨ c ∈ t.owned
  := by
  rw [← owns_setThread hk, setThread_self hk]

theorem borrows_iff (hk : s.threads[k]? = some t) {c : ClientRef} :
  s.Borrows c ↔ s.BorrowsBeside k c ∨ c ∈ t.borrowed
  := by
  rw [← borrows_setThread hk, setThread_self hk]

/-- A client of which an owned reference goes has another one, if it is borrowed. -/
theorem owns_of_disowns {rest : List Instr} {c : ClientRef} (hk : s.threads[k]? = some t)
    (hcode : t.code = i :: rest) (hkeeps : s.KeepsOwner (.advance k choice))
    (hdis : i.disowns = some c)
    (hc : ((s.exec { t with code := rest } choice i).1.setThread k
      (s.exec { t with code := rest } choice i).2).Borrows c) :
  ((s.exec { t with code := rest } choice i).1.setThread k
    (s.exec { t with code := rest } choice i).2).Owns c
  := by
  have hhead : i ∈ t.code.head? := by
    rw [hcode]
    rfl
  have howns := hkeeps t hk i hhead c hdis
  rw [owns_setThread hk, borrows_setThread hk] at howns
  cases i with
  | drop d =>
      obtain rfl : d = c := Option.some.inj hdis
      apply (owns_setThread hk).mpr
      apply howns
      left
      apply (borrows_setThread hk).mp hc
  | demote d =>
      obtain rfl : d = c := Option.some.inj hdis
      apply (owns_setThread hk).mpr
      apply howns
      apply Or.inr rfl
  | _ => cases hdis

/-- Thread `k` has run an instruction: the borrowed clients have an owner. -/
theorem Safe.owned_exec (h : s.Safe) {rest : List Instr} (hk : s.threads[k]? = some t)
    (hcode : t.code = i :: rest) (hkeeps : s.KeepsOwner (.advance k choice)) {c : ClientRef}
    (hc : ((s.exec { t with code := rest } choice i).1.setThread k
      (s.exec { t with code := rest } choice i).2).Borrows c) :
  ((s.exec { t with code := rest } choice i).1.setThread k
    (s.exec { t with code := rest } choice i).2).Owns c
  := by
  by_cases hdis : i.disowns = some c
  · apply owns_of_disowns hk hcode hkeeps hdis hc
  · have hr := handles_exec s { t with code := rest } choice i
    have hk' : (s.exec { t with code := rest } choice i).1.threads[k]? = some t := by
      rw [hr.threads, hk]
    have ho : s.Owns c := by
      obtain ⟨j, u, hj, hu, hcu⟩ | hcr := (borrows_setThread hk').mp hc
      · rw [hr.threads] at hu
        apply h.owned c ⟨u, List.mem_of_getElem? hu, hcu⟩
      · obtain hct | href | rfl := hr.borrowed c hcr
        · apply h.owned c ((borrows_iff hk).mpr (Or.inr hct))
        · apply h.owns_of_referenced href
        · exact absurd rfl hdis
    apply (owns_setThread hk').mpr
    obtain (hlisted | ⟨j, u, hj, hu, hcu⟩) | hct := (owns_iff hk).mp ho
    · obtain hlisted | hcr := hr.listed c hlisted
      · apply Or.inl (Or.inl hlisted)
      · apply Or.inr hcr
    · refine Or.inl (Or.inr ⟨j, u, hj, ?_, hcu⟩)
      rw [hr.threads, hu]
    · apply Or.inr (hr.owned c hct hdis)

/-- The rest of the code may be run. -/
theorem typed_exec {rest : List Instr} (choice : Bool) (hcode : t.code = i :: rest)
    (ht : afterCode t.locks t.code = some []) :
  afterCode (s.exec { t with code := rest } choice i).2.locks
    (s.exec { t with code := rest } choice i).2.code = some []
  := by
  rw [hcode, afterCode_cons] at ht
  obtain ⟨held, hheld, hrest⟩ := Option.bind_eq_some_iff.mp ht
  have hleads : s.Leads { t with code := rest } choice i held := leads_of_after hheld
  obtain ⟨code, hexec, hafter⟩ := hleads
  rw [hexec, afterCode_append, hafter]
  apply hrest

/-- Thread `k` goes on as `t'`. -/
theorem Safe.setThread (h : s.Safe) {t' : Thread} {r : Owning} (hk : s.threads[k]? = some t)
    (hthreads : r.threads = s.threads) (hdestructions : ∀ d ∈ r.destructions, d.2 = [])
    (ht' : afterCode t'.locks t'.code = some [])
    (howned : ∀ c, (r.setThread k t').Borrows c → (r.setThread k t').Owns c) :
  (r.setThread k t').Safe
  where
    typed u hu := by
      have hk' : r.threads[k]? = some t := by
        rw [hthreads, hk]
      obtain rfl | ⟨j, -, hj⟩ := (mem_setThread hk').mp hu
      · apply ht'
      · rw [hthreads] at hj
        apply h.typed u (List.mem_of_getElem? hj)
    owned := howned
    unlocked := hdestructions

/-- A thread that gives up the last reference to a client holds no mutex. -/
theorem Safe.locks_of_last (h : s.Safe) {rest : List Instr} {c : ClientRef}
    (hk : s.threads[k]? = some t) (hcode : t.code = i :: rest) (hi : i.givesUp = some c)
    (hbefore : s.referenced c = true)
    (hlast : ((s.exec { t with code := rest } choice i).1.setThread k
      (s.exec { t with code := rest } choice i).2).referenced c = false) :
  t.locks = []
  := by
  have htyped := h.typed t (List.mem_of_getElem? hk)
  rw [hcode, afterCode_cons] at htyped
  obtain ⟨held, hheld, -⟩ := Option.bind_eq_some_iff.mp htyped
  cases i with
  | drop d => exact (of_if hheld).1
  | release d =>
      -- a borrowed client has an owner, who has not given up anything
      have ho := (owns_iff hk).mp (h.owns_of_referenced hbefore)
      apply absurd hlast
      rw [Bool.not_eq_false]
      apply referenced_iff.mpr
      left
      change (s.setThread k { t with code := rest, borrowed := t.borrowed.erase d }).Owns c
      apply (owns_setThread hk).mpr
      apply ho
  | _ => cases hi

/-- A destructor may be run without any mutex. -/
theorem Safe.destruct {r : Owning} {t' : Thread} (h : (r.setThread k t').Safe)
    (hk : r.threads[k]? = some t) (hlocks : t'.locks = []) (c : ClientRef) :
  (r.destruct k t' c).Safe
  where
    typed u hu := by
      obtain rfl | hu := (mem_setThread hk).mp hu
      · have ht' := h.typed t' ((mem_setThread hk).mpr (Or.inl rfl))
        simp only [Thread.push, afterCode_append, hlocks] at ht' ⊢
        apply ht'
      · apply h.typed u ((mem_setThread hk).mpr (Or.inr hu))
    owned d hd := by
      have hpushed : (r.setThread k (t'.push (destructor c))).Borrows d := hd
      have hborrows := (borrows_setThread hk).mp hpushed
      have howns := (owns_setThread hk).mp (h.owned d ((borrows_setThread hk).mpr hborrows))
      have hpush : r.OwnsBeside k d ∨ d ∈ (t'.push (destructor c)).owned := howns
      apply (owns_setThread hk).mpr hpush
    unlocked d hd := by
      obtain rfl | hd := List.mem_cons.mp hd
      · apply hlocks
      · apply h.unlocked d hd

theorem Safe.settle (h : s.Safe) {rest : List Instr} (hk : s.threads[k]? = some t)
    (hcode : t.code = i :: rest) (hkeeps : s.KeepsOwner (.advance k choice)) :
  (s.settle (s.exec { t with code := rest } choice i).1 k
    (s.exec { t with code := rest } choice i).2 i).Safe
  := by
  have hr := handles_exec s { t with code := rest } choice i
  have ht := typed_exec (s := s) choice hcode (h.typed t (List.mem_of_getElem? hk))
  have hdestructions : ∀ d ∈ (s.exec { t with code := rest } choice i).1.destructions,
      d.2 = [] := by
    rw [hr.destructions]
    apply h.unlocked
  have hgo : ((s.exec { t with code := rest } choice i).1.setThread k
      (s.exec { t with code := rest } choice i).2).Safe := by
    apply h.setThread hk hr.threads hdestructions ht
    exact fun c hc => h.owned_exec hk hcode hkeeps hc
  rw [Owning.settle]
  split
  · next c hi =>
      split
      · next hlast =>
          simp only [Bool.and_eq_true, Bool.not_eq_true'] at hlast
          have hlocks : (s.exec { t with code := rest } choice i).2.locks = [] := by
            have hbefore := h.locks_of_last hk hcode hi hlast.1 hlast.2
            cases i with
            | drop d => exact hbefore
            | release d => exact hbefore
            | _ => cases hi
          have hk' : (s.exec { t with code := rest } choice i).1.threads[k]? = some t := by
            rw [hr.threads, hk]
          apply hgo.destruct hk' hlocks
      · apply hgo
  · apply hgo

/-- A thread does not wait for a mutex it holds itself. -/
theorem Safe.not_waits (h : s.Safe) {rest : List Instr} {m : Mutex} (ht : t ∈ s.threads)
    (hcode : t.code = .lock m :: rest) :
  m ∉ t.locks
  := by
  intro hm
  have htyped := h.typed t ht
  rw [hcode, afterCode_cons, Instr.after, if_pos hm] at htyped
  cases htyped

/-! ### Safe runs -/

theorem Safe.start (h : s.Safe) (ht : afterCode t.locks t.code = some [])
    (hborrowed : t.borrowed = []) :
  (s.start t).Safe
  where
    typed u hu := by
      obtain hu | hu := List.mem_append.mp hu
      · apply h.typed u hu
      · rw [List.mem_singleton.mp hu]
        apply ht
    owned c hc := by
      obtain ⟨u, hu, hcu⟩ := hc
      obtain hu | hu := List.mem_append.mp hu
      · obtain hlisted | ⟨v, hv, hcv⟩ := h.owned c ⟨u, hu, hcu⟩
        · apply Or.inl hlisted
        · apply Or.inr ⟨v, List.mem_append_left _ hv, hcv⟩
      · rw [List.mem_singleton.mp hu, hborrowed] at hcu
        cases hcu
    unlocked := h.unlocked

theorem Safe.startFor (h : s.Safe) (id : String) {code : ClientRef → List Instr}
    (hcode : ∀ c, afterCode [] (code c) = some []) :
  (s.startFor id code).Safe
  := by
  rw [Owning.startFor]
  split
  · apply h
  · next c hc =>
      apply h.start _ rfl
      simp only [afterCode_append, hcode]
      rfl

theorem safe_create (sender : ClientRef) :
  (create sender).Safe
  where
    typed t ht := by cases ht
    owned c hc := by
      obtain ⟨t, ht, -⟩ := hc
      cases ht
    unlocked d hd := by cases hd

theorem Safe.step (h : s.Safe) {l : Step} (hkeeps : s.KeepsOwner l) :
  (s.step l).Safe
  := by
  cases l with
  | create id publicId =>
      rw [Owning.step]
      split
      · apply h
      · use h.typed
        · intro c hc
          apply (h.owned c hc).imp_left
          apply List.mem_append_left
        · apply h.unlocked
  | remove id => apply h.start rfl rfl
  | addReceiver id =>
      apply h.startFor
      exact fun c => rfl
  | removeReceiver publicId => apply h.start rfl rfl
  | addSubscriber id =>
      apply h.startFor
      exact fun c => rfl
  | request id =>
      apply h.startFor
      exact fun c => rfl
  | advance k choice =>
      rw [Owning.step]
      split
      · apply h
      · next t hk =>
          split
          · apply h
          · next i rest hcode =>
              split
              · apply h
              · apply h.settle hk hcode hkeeps

/-- In a run in which no client loses its last owner while a thread has its weak pointer
locked inside a locked region, no destructor of a subscriber is run by a thread that holds a
mutex which the destructor acquires. -/
theorem everyState_unlocked_of_keepsOwner (sender : ClientRef) (steps : List Step)
    (hsteps : Machine.EveryStep Owning.step KeepsOwner (create sender) steps) :
  Machine.EveryState Owning.step Unlocked (create sender) steps
  := by
  have hsafe : Machine.EveryState Owning.step Safe (create sender) steps := by
    apply Machine.everyState_of_everyStep _ (safe_create sender) hsteps
    exact fun s l h hkeeps => h.step hkeeps
  apply hsafe.mono
  exact fun s h => h.isUnlocked

/-! ### Sample runs -/

namespace Sample

def sender : ClientRef := ⟨0, "s", "S"⟩

def alice : ClientRef := ⟨1, "a", "A"⟩

/-- Alice joins, and Bob is about to look at the receivers. -/
def joins : List Step :=
  .create "a" "A" :: .addReceiver "a" :: List.replicate 32 (.advance 0 true)
    ++ [.create "b" "B", .addReceiver "b", .advance 1 true, .advance 1 true]

/-- Alice is removed after Bob has looked at her. -/
def removedAfterwards : List Step :=
  joins ++ [.advance 1 true, .advance 1 true, .remove "a", .advance 2 true, .advance 2 true]

/-- Alice is removed while Bob looks at her, who then runs her destructor. -/
def removedMeanwhile : List Step :=
  joins ++ [.advance 1 true, .remove "a", .advance 2 true, .advance 2 true, .advance 1 true]

end Sample

/-- When a receiver is removed after her weak pointer was locked and released, her destructor
is run without mutexes. -/
theorem everyState_unlocked_removedAfterwards :
  Machine.EveryState Owning.step Unlocked (create Sample.sender) Sample.removedAfterwards
    ∧ (Machine.run Owning.step (create Sample.sender) Sample.removedAfterwards).destructions
      = [(Sample.alice, [])]
  := by
  constructor
  · apply everyState_unlocked_of_keepsOwner
    decide
  · decide

/-- When she is removed in between, the thread that adds another receiver runs her destructor
while it holds the mutex of the receivers. -/
theorem not_everyState_unlocked_removedMeanwhile :
  ¬ ∀ (sender : ClientRef) (steps : List Step),
      Machine.EveryState Owning.step Unlocked (create sender) steps
  := by
  intro h
  have hlast := (h Sample.sender Sample.removedMeanwhile).last
  have hdestructions : (Machine.run Owning.step (create Sample.sender)
      Sample.removedMeanwhile).destructions = [(Sample.alice, [.receivers])] := by decide
  have hsubscribers : (Machine.run Owning.step (create Sample.sender)
      Sample.removedMeanwhile).subscribers .session = [Sample.sender, Sample.alice] := by decide
  rw [Unlocked, hdestructions, hsubscribers] at hlast
  have hlocked := hlast _ List.mem_cons_self (by decide) .receivers List.mem_cons_self
  cases hlocked

end Owning

import PutInPipe.Session.Control
import PutInPipe.Session.Kicks

/-!
# The file information

`setFileInfo` takes the information about the file that the sender announces. A participant
learns it from the message it is sent when it connects, or from the event, if it is connected
by then. `Metadata` is a session with what its participants have learnt.

`setFileInfo` does not look whether there is any information yet, so that a second
announcement replaces the first.
-/

open TransferSessionDetails

/-- What `setFileInfo` demands of the information. -/
def FileInfo.acceptable (info : FileInfo) : Bool :=
  !(info.name.isEmpty || info.name.length > NAME_MAX_LENGTH) && !(info.size == 0)

/-- The information as it is kept and announced. -/
def FileInfo.sanitized (info : FileInfo) : FileInfo :=
  { info with
    name := info.name.map fun c => if TransferSession.forbiddenInName c then 0x5f else c }

/-- The information about the file that an event tells. -/
def Event.fileInfo? : Event → Option FileInfo
  | .fileInfoUpdated info => some info
  | _ => none

namespace TransferSession

variable {config : Config} {s : TransferSession}

theorem setFileInfo_eq (s : TransferSession) (info : FileInfo) :
  s.setFileInfo info
    = if info.acceptable then
        ({ s with
          fileInfo := info.sanitized
          events := s.events ++ [.fileInfoUpdated info.sanitized] }, true)
      else (s, false)
  := by
  rw [setFileInfo, FileInfo.acceptable]
  by_cases hname : (info.name.isEmpty || info.name.length > FileInfo.NAME_MAX_LENGTH) = true
  · rw [if_pos hname, hname]
    rfl
  · rw [if_neg hname, Bool.eq_false_of_not_eq_true hname]
    by_cases hsize : (info.size == 0) = true
    · rw [if_pos hsize, hsize]
      rfl
    · rw [if_neg hsize, Bool.eq_false_of_not_eq_true hsize]
      rfl

theorem fileInfo_dropInitialChunksFreeze (config : Config) (s : TransferSession) :
  (s.dropInitialChunksFreeze config).fileInfo = s.fileInfo
  := by
  cases hf : s.buffer.initialChunksFreezing with
  | false => rw [dropInitialChunksFreeze_of_not_freezing hf]
  | true =>
      by_cases hun : s.dataReceivers = [] ∨ s.fileInfo.name = []
      · obtain ⟨type, heq⟩ := dropInitialChunksFreeze_of_unready config hf hun
        rw [heq]
      · rw [not_or] at hun
        rw [dropInitialChunksFreeze_of_ready config hf hun.1 hun.2]

theorem departs_fileInfo :
  Departs (fun s t => t.fileInfo = s.fileInfo)
  where
    refl _ := rfl
    trans h h' := h'.trans h
    without s publicId := by rw [notifyRemoved_eq, TransferSession.without]
    kicked _ _ := rfl
    receiverRemoved _ _ := rfl
    expire _ _ := rfl
    terminate _ _ := rfl

/-- Only `setFileInfo` changes the information. -/
theorem fileInfo_apply (config : Config) (s : TransferSession) {op : Op}
    (hop : ∀ info, op ≠ .setFileInfo info) :
  (s.apply config op).fileInfo = s.fileInfo
  := by
  cases op with
  | setFileInfo info => cases hop info rfl
  | addChunk binaryData =>
      obtain ⟨es, heq⟩ := addChunk_fst config s binaryData
      rw [apply, heq]
  | addReceiver c =>
      rw [apply]
      cases ha : (s.addReceiver config c).2 with
      | false => rw [addReceiver_of_false ha]
      | true => rw [(addReceiver_of_true ha).2]
  | removeReceiver publicId => exact departs_fileInfo.removeReceiver publicId s
  | destroyClient c => exact departs_fileInfo.destroyClient c s
  | getChunk i c => exact (intact_getChunk s i c).fileInfo
  | setChunkAsReceived i c => exact (sameControls_setChunkAsReceived config s i c).fileInfo
  | setEndOfFile =>
      cases he : s.buffer.EOF with
      | true => rw [apply, setEndOfFile_of_eof he]
      | false => rw [apply, setEndOfFile_of_not_eof he]
  | dropInitialChunksFreeze => apply fileInfo_dropInitialChunksFreeze
  | manualTerminate | lifetimeTimeout | connect | disconnect => rfl

theorem fileInfo_finish (s : TransferSession) :
  s.finish.fileInfo = s.fileInfo
  := by
  rw [finish]
  split <;> rfl

theorem fileInfo_step (config : Config) (s : TransferSession) {op : Op}
    (hop : ∀ info, op ≠ .setFileInfo info) :
  (s.step config op).fileInfo = s.fileInfo
  := by
  by_cases happlied : s.listed = true ∧ s.enabled op = true
  · rw [step_of_enabled happlied.1 happlied.2, fileInfo_finish, fileInfo_apply config s hop]
  · rw [step_of_not_enabled happlied]

theorem step_setFileInfo (config : Config) (s : TransferSession) (info : FileInfo) :
  s.step config (.setFileInfo info)
    = if s.listed && info.acceptable then
        { s with
          fileInfo := info.sanitized
          events := s.events ++ [.fileInfoUpdated info.sanitized] }
      else s
  := by
  by_cases hl : s.listed = true
  · rw [step_of_enabled hl rfl, apply, setFileInfo_eq]
    by_cases ha : info.acceptable = true
    · rw [if_pos ha, if_pos (by simp [hl, ha])]
      apply if_pos hl
    · rw [if_neg ha, if_neg (by simp [ha])]
      apply if_pos hl
  · rw [step_of_not_enabled (by simp [hl]), if_neg (by simp [hl])]

theorem published_setFileInfo (config : Config) (s : TransferSession) (info : FileInfo) :
  s.published config (.setFileInfo info)
    = if s.listed && info.acceptable then [.fileInfoUpdated info.sanitized] else []
  := by
  rw [published, step_setFileInfo]
  split
  · apply List.drop_left
  · apply List.drop_length

theorem fileInfo?_departureEvents {publicId : String} {e : Event}
    (he : e ∈ s.departureEvents publicId) :
  e.fileInfo? = none
  := by
  obtain ⟨_, rfl⟩ | ⟨_, -, rfl⟩ | rfl := mem_departureEvents he
  all_goals rfl

theorem fileInfo?_endEvents {e : Event} (he : e ∈ s.endEvents) :
  e.fileInfo? = none
  := by
  rw [mem_endEvents he]
  rfl

/-- Only the events of `setFileInfo` tell the information. -/
theorem fileInfo?_published {op : Op} (hop : ∀ info, op ≠ .setFileInfo info) {e : Event}
    (he : e ∈ s.published config op) :
  e.fileInfo? = none
  := by
  by_cases happlied : s.listed = true ∧ s.enabled op = true
  · cases hd : s.departure op with
    | none =>
        obtain hp | ⟨type, rfl⟩ := mem_published hd he
        · cases op with
          | setFileInfo info => cases hop info rfl
          | _ => cases e <;> first | rfl | cases hp
        · rfl
    | some d =>
        rw [published_of_departure happlied.1 happlied.2 hd, List.mem_append] at he
        obtain he | he := he
        · apply fileInfo?_departureEvents he
        · apply fileInfo?_endEvents he
  · rw [published_of_not_applied happlied] at he
    cases he

end TransferSession

/-! ### The participants -/

/-- `accepted` tells whether a `set_file_info` has been accepted, and `learnt` what the
participants have been told, each with what it was told. -/
structure Metadata where
  session : TransferSession
  accepted : Bool := false
  learnt : List (ClientRef × FileInfo) := []

namespace Metadata

open TransferSession

/-- What a client is told when it connects. The empty name stands for no information. -/
def toldOnConnect (config : Config) (m : Metadata) : Op → List (ClientRef × FileInfo)
  | .connect c =>
      if m.session.listed && m.session.enabled (.connect c) && decide (c ∈ m.session.subscribers)
          && !(m.session.step config (.connect c)).fileInfo.name.isEmpty then
        [(c, (m.session.step config (.connect c)).fileInfo)]
      else []
  | _ => []

/-- What the connected participants are told by the events of a step. -/
def toldByEvents (config : Config) (m : Metadata) (op : Op) : List (ClientRef × FileInfo) :=
  (m.session.published config op).flatMap fun e =>
    e.fileInfo?.toList.flatMap fun info =>
      ((m.session.step config op).connected.filter ((m.session.step config op).hears · e)).map
        (·, info)

/-- The operation is a `set_file_info` that is accepted. -/
def accepts (m : Metadata) : Op → Bool
  | .setFileInfo info => m.session.listed && (m.session.setFileInfo info).2
  | _ => false

def step (config : Config) (m : Metadata) (op : Op) : Metadata where
  session := m.session.step config op
  accepted := m.accepted || m.accepts op
  learnt := m.learnt ++ m.toldOnConnect config op ++ m.toldByEvents config op

def create (sender : ClientRef) (autoDropFreezeOnFirstChunk : Bool) : Metadata where
  session := .create sender autoDropFreezeOnFirstChunk

/-- When a `set_file_info` has been accepted, another is refused and changes nothing. -/
def RefusesAnother (m : Metadata) : Op → Prop
  | .setFileInfo info =>
      m.accepted = true → m.session.listed = true →
        m.session.setFileInfo info = (m.session, false)
  | _ => True

/-- All participants have learnt the same. -/
def Agree (m : Metadata) : Prop := ∀ x ∈ m.learnt, ∀ y ∈ m.learnt, x.2 = y.2

instance (m : Metadata) : Decidable m.Agree :=
  inferInstanceAs (Decidable (∀ x ∈ m.learnt, ∀ y ∈ m.learnt, x.2 = y.2))

/-- An acceptable `set_file_info` comes while none has been accepted. -/
def setsOnce (m : Metadata) : Op → Bool
  | .setFileInfo info => !(m.accepted && m.session.listed && info.acceptable)
  | _ => true

/-- What everybody has learnt is what the session keeps. -/
structure Known (m : Metadata) : Prop where
  unset : m.accepted = false → m.session.fileInfo.name = [] ∧ m.learnt = []
  learnt : ∀ x ∈ m.learnt, x.2 = m.session.fileInfo

variable {config : Config} {m : Metadata}

theorem toldByEvents_of_ne (m : Metadata) {op : Op} (hop : ∀ info, op ≠ .setFileInfo info) :
  m.toldByEvents config op = []
  := by
  rw [toldByEvents, List.flatMap_eq_nil_iff]
  intro e he
  rw [fileInfo?_published hop he]
  rfl

theorem accepts_of_ne (m : Metadata) {op : Op} (hop : ∀ info, op ≠ .setFileInfo info) :
  m.accepts op = false
  := by
  cases op with
  | setFileInfo info => cases hop info rfl
  | _ => rfl

theorem accepts_setFileInfo (m : Metadata) (info : FileInfo) :
  m.accepts (.setFileInfo info) = (m.session.listed && info.acceptable)
  := by
  rw [accepts, setFileInfo_eq]
  cases info.acceptable <;> rfl

/-- Whoever connects is told what the session keeps. -/
theorem toldOnConnect_spec {op : Op} {x : ClientRef × FileInfo}
    (hx : x ∈ m.toldOnConnect config op) :
  x.2 = m.session.fileInfo ∧ m.session.fileInfo.name ≠ []
  := by
  cases op with
  | connect c =>
      have hsame : (m.session.step config (.connect c)).fileInfo = m.session.fileInfo :=
        fileInfo_step config m.session fun _ h => nomatch h
      rw [toldOnConnect, hsame] at hx
      split at hx
      · next htold =>
          simp only [Bool.and_eq_true, Bool.not_eq_true', List.isEmpty_eq_false_iff] at htold
          rw [List.mem_singleton.mp hx]
          exact ⟨rfl, htold.2⟩
      · cases hx
  | _ => cases hx

theorem toldByEvents_spec {info : FileInfo} {x : ClientRef × FileInfo}
    (hx : x ∈ m.toldByEvents config (.setFileInfo info)) :
  x.2 = (m.session.step config (.setFileInfo info)).fileInfo
  := by
  obtain ⟨e, he, hx⟩ := List.mem_flatMap.mp hx
  rw [published_setFileInfo] at he
  rw [step_setFileInfo] at hx ⊢
  split at he
  · next hset =>
      rw [List.mem_singleton.mp he] at hx
      rw [if_pos hset] at hx ⊢
      obtain ⟨info', hinfo, hx⟩ := List.mem_flatMap.mp hx
      obtain ⟨c, -, rfl⟩ := List.mem_map.mp hx
      rw [List.mem_singleton.mp hinfo]
  · cases he

theorem Known.step (h : m.Known) {op : Op} (hop : m.setsOnce op = true) :
  (m.step config op).Known
  := by
  by_cases hset : ∀ info, op ≠ .setFileInfo info
  · have hsame := fileInfo_step config m.session hset
    constructor
    · intro hunset
      rw [Metadata.step, accepts_of_ne m hset, Bool.or_false] at hunset
      obtain ⟨hname, hlearnt⟩ := h.unset hunset
      rw [Metadata.step, hsame, hlearnt, toldByEvents_of_ne m hset]
      use hname
      rw [List.append_nil, List.nil_append, List.eq_nil_iff_forall_not_mem]
      exact fun x hx => (toldOnConnect_spec hx).2 hname
    · intro x hx
      rw [Metadata.step, toldByEvents_of_ne m hset, List.append_nil, List.mem_append] at hx
      rw [Metadata.step, hsame]
      obtain hx | hx := hx
      · apply h.learnt x hx
      · apply (toldOnConnect_spec hx).1
  · obtain ⟨info, rfl⟩ := by simpa using hset
    have hnone : m.toldOnConnect config (.setFileInfo info) = [] := rfl
    cases haccepts : m.accepts (.setFileInfo info) with
    | true =>
        rw [accepts_setFileInfo] at haccepts
        have hunset : m.accepted = false := by
          rw [setsOnce, Bool.and_assoc, haccepts, Bool.and_true, Bool.not_eq_true'] at hop
          apply hop
        constructor
        · intro h'
          rw [Metadata.step, accepts_setFileInfo, haccepts, Bool.or_true] at h'
          cases h'
        · intro x hx
          rw [Metadata.step, (h.unset hunset).2, hnone, List.append_nil, List.nil_append] at hx
          apply toldByEvents_spec hx
    | false =>
        have hrefused := haccepts
        rw [accepts_setFileInfo] at hrefused
        have hsession : m.session.step config (.setFileInfo info) = m.session := by
          rw [step_setFileInfo, hrefused, if_neg Bool.false_ne_true]
        have htold : m.toldByEvents config (.setFileInfo info) = [] := by
          rw [toldByEvents, published_setFileInfo, hrefused, if_neg Bool.false_ne_true]
          rfl
        have hsame : m.step config (.setFileInfo info) = m := by
          rw [Metadata.step, hsession, haccepts, hnone, htold, Bool.or_false, List.append_nil,
            List.append_nil]
        rw [hsame]
        apply h

theorem Known.agree (h : m.Known) :
  m.Agree
  := by
  intro x hx y hy
  rw [h.learnt x hx, h.learnt y hy]

theorem known_create (sender : ClientRef) (auto : Bool) :
  (create sender auto).Known
  where
    unset _ := ⟨rfl, rfl⟩
    learnt := List.forall_mem_nil _

/-- A step refuses another announcement exactly when none comes. -/
theorem refusesAnother_iff {op : Op} :
  m.RefusesAnother op ↔ m.setsOnce op = true
  := by
  cases op with
  | setFileInfo info =>
      rw [RefusesAnother, setFileInfo_eq, setsOnce]
      cases info.acceptable with
      | true => cases m.accepted <;> simp
      | false => simp
  | _ => simp [RefusesAnother, setsOnce]

/-- The information is written once, and all participants learn the same, exactly as long as
the sender announces it once. -/
theorem writtenOnce_iff (config : Config) (sender : ClientRef) (auto : Bool) (ops : List Op) :
  (Machine.EveryStep (step config) RefusesAnother (create sender auto) ops
      ∧ Machine.EveryState (step config) Agree (create sender auto) ops)
    ↔ Machine.EveryStep (step config) (fun m op => m.setsOnce op = true) (create sender auto) ops
  := by
  constructor
  · rintro ⟨hrefuses, -⟩
    apply hrefuses.mono fun m op => refusesAnother_iff.mp
  · intro honce
    constructor
    · apply honce.mono fun m op => refusesAnother_iff.mpr
    · apply Machine.EveryState.mono fun m h => Known.agree h
      apply Machine.everyState_of_everyStep (fun m op h hop => h.step hop)
        (known_create sender auto) honce

/-- Alice learns of a file when she connects, and Bob, who joins after the sender has announced
another, of that one. -/
def announcedTwice : List Op :=
  [.setFileInfo Sample.info, .addReceiver Sample.alice, .connect Sample.alice,
    .setFileInfo { Sample.info with size := 2 }, .addReceiver Sample.bob, .connect Sample.bob]

theorem not_writtenOnce :
  ¬∀ (config : Config) (sender : ClientRef) (auto : Bool) (ops : List Op),
    Machine.EveryStep (step config) RefusesAnother (create sender auto) ops
      ∧ Machine.EveryState (step config) Agree (create sender auto) ops
  := by
  intro h
  have hagree := (h Sample.config Sample.sender false announcedTwice).2.last
  exact absurd hagree (by decide +kernel)

end Metadata

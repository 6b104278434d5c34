import Mathlib.Data.Finset.Card
import Mathlib.Data.Finset.Insert
import Mathlib.Order.Interval.Finset.Nat

/-!
# Logs that release what all members have acknowledged

A `RetainedLog ι π` is an append-only log of payloads from `π`, read by members from `ι`.
Its entries are numbered from one. `acked` holds the acknowledgements the present members
have given since they joined, `held` the entries that were not released. A sealed log
releases nothing; an unsealed one releases, at each acknowledgement and each departure and
when the seal is broken, the entries that all present members have acknowledged.

A log is safe when every released entry has been acknowledged by every present member.
All operations keep a log safe; joining does so as long as nothing was released.
-/

universe u v

/-- An append-only log, its members, their acknowledgements and the entries still held. -/
structure RetainedLog (ι : Type u) (π : Type v) where
  log : List π
  members : Finset ι
  acked : Finset (ι × ℕ)
  held : Finset ℕ
  sealed : Bool
  mem_of_acked : ∀ {m i}, (m, i) ∈ acked → m ∈ members
  le_of_acked : ∀ {m i}, (m, i) ∈ acked → i ≤ log.length
  held_bounds : ∀ {i}, i ∈ held → 1 ≤ i ∧ i ≤ log.length

namespace RetainedLog

variable {ι : Type u} {π : Type v} [DecidableEq ι]

/-- The members that have acknowledged entry `i`. -/
def backers (L : RetainedLog ι π) (i : ℕ) : Finset ι :=
  L.members.filter (fun m => (m, i) ∈ L.acked)

/-- Every member has acknowledged entry `i`. -/
def Settled (L : RetainedLog ι π) (i : ℕ) : Prop :=
  ∀ m ∈ L.members, (m, i) ∈ L.acked

instance (L : RetainedLog ι π) : DecidablePred L.Settled :=
  fun i => inferInstanceAs (Decidable (∀ m ∈ L.members, (m, i) ∈ L.acked))

/-- Nothing was released. -/
def Complete (L : RetainedLog ι π) : Prop :=
  ∀ i, 1 ≤ i → i ≤ L.log.length → i ∈ L.held

/-- Every released entry has been acknowledged by every member. -/
def Safe (L : RetainedLog ι π) : Prop :=
  ∀ i, 1 ≤ i → i ≤ L.log.length → i ∉ L.held → L.Settled i

/-- The empty, sealed log without members. -/
def empty : RetainedLog ι π where
  log := []
  members := ∅
  acked := ∅
  held := ∅
  sealed := true
  mem_of_acked h := by simp at h
  le_of_acked h := by simp at h
  held_bounds h := by simp at h

/-- Release the settled entries of an unsealed log. -/
def release (L : RetainedLog ι π) : RetainedLog ι π :=
  { L with
    held := if L.sealed then L.held else L.held.filter (fun i => ¬ L.Settled i)
    held_bounds := by
      intro i h
      apply L.held_bounds
      split at h
      · apply h
      · apply (Finset.mem_filter.mp h).1 }

/-- Append a payload. -/
def append (L : RetainedLog ι π) (x : π) : RetainedLog ι π :=
  { L with
    log := L.log ++ [x]
    held := insert (L.log.length + 1) L.held
    le_of_acked := by
      intro m i h
      rw [List.length_append, List.length_singleton]
      have := L.le_of_acked h
      omega
    held_bounds := by
      intro i h
      rw [List.length_append, List.length_singleton]
      rcases Finset.mem_insert.mp h with rfl | hi
      · omega
      · have := L.held_bounds hi
        omega }

/-- A new member. -/
def join (L : RetainedLog ι π) (m : ι) : RetainedLog ι π :=
  { L with
    members := insert m L.members
    mem_of_acked := fun h => Finset.mem_insert_of_mem (L.mem_of_acked h) }

/-- Forget a member and its acknowledgements. -/
def forget (L : RetainedLog ι π) (m : ι) : RetainedLog ι π :=
  { L with
    members := L.members.erase m
    acked := L.acked.filter (fun a => a.1 ≠ m)
    mem_of_acked := by
      intro n i h
      obtain ⟨ha, hne⟩ := Finset.mem_filter.mp h
      apply Finset.mem_erase.mpr ⟨hne, L.mem_of_acked ha⟩
    le_of_acked := fun h => L.le_of_acked (Finset.mem_filter.mp h).1 }

/-- A member leaves, and its acknowledgements with it. -/
def leave (L : RetainedLog ι π) (m : ι) : RetainedLog ι π :=
  (L.forget m).release

/-- Record the acknowledgement of a held entry by a member. -/
def record (L : RetainedLog ι π) (m : ι) (i : ℕ) (hm : m ∈ L.members) (hi : i ∈ L.held) :
    RetainedLog ι π :=
  { L with
    acked := insert (m, i) L.acked
    mem_of_acked := by
      intro n j h
      rcases Finset.mem_insert.mp h with he | ha
      · rw [(Prod.mk.inj he).1]
        apply hm
      · apply L.mem_of_acked ha
    le_of_acked := by
      intro n j h
      rcases Finset.mem_insert.mp h with he | ha
      · rw [(Prod.mk.inj he).2]
        apply (L.held_bounds hi).2
      · apply L.le_of_acked ha }

/-- A member acknowledges an entry; that counts when the entry is held. -/
def ack (L : RetainedLog ι π) (m : ι) (i : ℕ) : RetainedLog ι π :=
  if h : m ∈ L.members ∧ i ∈ L.held then (L.record m i h.1 h.2).release else L

/-- Break the seal. -/
def breakSeal (L : RetainedLog ι π) : RetainedLog ι π :=
  release { L with sealed := false }

/-! ### Fields -/

theorem mem_held_release {L : RetainedLog ι π} {i : ℕ} :
  i ∈ L.release.held ↔ i ∈ L.held ∧ (L.sealed = false → ¬ L.Settled i)
  := by
  simp only [release]
  split
  · rename_i hs
    simp [hs]
  · rename_i hs
    simp [Bool.eq_false_of_not_eq_true hs]

@[simp]
theorem log_ack (L : RetainedLog ι π) (m : ι) (i : ℕ) :
  (L.ack m i).log = L.log
  := by
  rw [ack]
  split <;> rfl

/-- After `m` acknowledged `i`, the acknowledgements are the old ones and, if the entry was
held, `(m, i)`. -/
theorem acked_of_ack {L : RetainedLog ι π} {m n : ι} {i j : ℕ}
    (h : (n, j) ∈ (L.ack m i).acked) :
  (n, j) ∈ L.acked ∨ (n = m ∧ j = i ∧ i ∈ L.held)
  := by
  rw [ack] at h
  split at h
  · rename_i hc
    rcases Finset.mem_insert.mp h with he | ha
    · obtain ⟨hn, hj⟩ := Prod.mk.inj he
      apply Or.inr ⟨hn, hj, hc.2⟩
    · apply Or.inl ha
  · apply Or.inl h

/-! ### Counting the members that have acknowledged -/

/-- An entry is settled exactly when the members that acknowledged it are no fewer than
the members. -/
theorem settled_iff_card {L : RetainedLog ι π} {i : ℕ} :
  L.Settled i ↔ L.members.card ≤ (L.backers i).card
  := by
  rw [Settled, ← Finset.card_filter_eq_iff]
  constructor
  · intro h
    apply h.ge
  · intro h
    apply le_antisymm (Finset.card_filter_le _ _) h

theorem mem_backers {L : RetainedLog ι π} {m : ι} {i : ℕ} :
  m ∈ L.backers i ↔ (m, i) ∈ L.acked
  := by
  rw [backers, Finset.mem_filter]
  exact ⟨fun h => h.2, fun h => ⟨L.mem_of_acked h, h⟩⟩

/-- Nobody has acknowledged an entry that is not there. -/
theorem backers_eq_empty {L : RetainedLog ι π} {i : ℕ} (h : L.log.length < i) :
  L.backers i = ∅
  := by
  apply Finset.eq_empty_of_forall_notMem
  intro m hm
  have := L.le_of_acked (mem_backers.mp hm)
  omega

theorem backers_join (L : RetainedLog ι π) (m : ι) (i : ℕ) :
  (L.join m).backers i = L.backers i
  := by
  ext n
  rw [mem_backers, mem_backers]
  rfl

/-- The departure of a member that has not acknowledged `i` leaves those who have. -/
theorem backers_forget {L : RetainedLog ι π} {m : ι} {i : ℕ} (h : (m, i) ∉ L.acked) :
  (L.forget m).backers i = L.backers i
  := by
  ext n
  rw [mem_backers, mem_backers]
  simp only [forget, Finset.mem_filter]
  constructor
  · exact fun hn => hn.1
  · intro hn
    use hn
    rintro rfl
    apply h hn

theorem backers_record {L : RetainedLog ι π} {m : ι} {i : ℕ} (hm : m ∈ L.members)
    (hi : i ∈ L.held) (j : ℕ) :
  (L.record m i hm hi).backers j = if j = i then insert m (L.backers j) else L.backers j
  := by
  ext n
  rw [mem_backers]
  split
  · rename_i hj
    subst hj
    simp [record, mem_backers]
  · rename_i hj
    simp [record, mem_backers, hj]

/-! ### Safety -/

theorem safe_empty :
  Safe (empty : RetainedLog ι π)
  := by
  intro i h1 h0
  rw [empty, List.length_nil] at h0
  omega

/-- Releasing settled entries keeps a log safe. -/
theorem Safe.release {L : RetainedLog ι π} (h : L.Safe) :
  L.release.Safe
  := by
  intro i h1 hn hheld
  by_cases hi : i ∈ L.held
  · by_contra hset
    apply hheld
    apply mem_held_release.mpr ⟨hi, fun _ => hset⟩
  · apply h i h1 hn hi

omit [DecidableEq ι] in
theorem Safe.append {L : RetainedLog ι π} (h : L.Safe) (x : π) :
  (L.append x).Safe
  := by
  intro i h1 hn hheld
  simp only [RetainedLog.append, List.length_append, List.length_singleton,
    Finset.mem_insert, not_or] at hn hheld
  apply h i h1 (by omega) hheld.2

/-- A member that joins a complete log has missed nothing. -/
theorem Safe.join {L : RetainedLog ι π} (hc : L.Complete) (m : ι) :
  (L.join m).Safe
  := fun i h1 hn hheld => absurd (hc i h1 hn) hheld

theorem Safe.leave {L : RetainedLog ι π} (h : L.Safe) (m : ι) :
  (L.leave m).Safe
  := by
  apply Safe.release
  intro i h1 hn hheld n hmem
  obtain ⟨hne, hn'⟩ := Finset.mem_erase.mp hmem
  apply Finset.mem_filter.mpr ⟨h i h1 hn hheld n hn', hne⟩

theorem Safe.ack {L : RetainedLog ι π} (h : L.Safe) (m : ι) (i : ℕ) :
  (L.ack m i).Safe
  := by
  rw [RetainedLog.ack]
  split
  · apply Safe.release
    intro j h1 hn hheld n hmem
    apply Finset.mem_insert_of_mem (h j h1 hn hheld n hmem)
  · apply h

theorem Safe.breakSeal {L : RetainedLog ι π} (h : L.Safe) :
  L.breakSeal.Safe
  := Safe.release h

end RetainedLog

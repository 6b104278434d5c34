import Mathlib.Data.Finset.Insert
import Mathlib.Data.Finset.Filter
import Mathlib.Order.Interval.Finset.Nat

/-!
# Logs with pruned entries

A `PrunedLog π` is an append-only log of payloads from `π`, numbered from one, of which
some entries are no longer held. One log evolves into another, `L.Evolves L'`, when `L'`
extends the payloads of `L` and holds, of the entries `L` has, only those that `L` holds.
Appending and pruning are evolutions. What is pruned stays pruned, and the number of an
entry is never given to another.
-/

universe u

/-- An append-only log and the numbers of the entries still held. -/
structure PrunedLog (π : Type u) where
  entries : List π
  held : Finset ℕ
  held_subset : held ⊆ Finset.Icc 1 entries.length

namespace PrunedLog

variable {π : Type u} {L L' L'' : PrunedLog π} {i : ℕ} {x : π}

/-- The log without entries. -/
def empty : PrunedLog π where
  entries := []
  held := ∅
  held_subset := Finset.empty_subset _

/-- The payload of an entry, if it is held. -/
def read (L : PrunedLog π) (i : ℕ) : Option π :=
  if i ∈ L.held then L.entries[i - 1]? else none

/-- Every entry is held. -/
def Complete (L : PrunedLog π) : Prop :=
  ∀ i, 1 ≤ i → i ≤ L.entries.length → i ∈ L.held

def append (L : PrunedLog π) (x : π) : PrunedLog π where
  entries := L.entries ++ [x]
  held := insert (L.entries.length + 1) L.held
  held_subset := by
    intro i h
    rw [List.length_append, List.length_singleton, Finset.mem_Icc]
    rcases Finset.mem_insert.mp h with rfl | hi
    · omega
    · have := Finset.mem_Icc.mp (L.held_subset hi)
      omega

/-- Keep the entries whose number satisfies `p`. -/
def prune (L : PrunedLog π) (p : ℕ → Prop) [DecidablePred p] : PrunedLog π where
  entries := L.entries
  held := L.held.filter p
  held_subset := (Finset.filter_subset p L.held).trans L.held_subset

theorem held_bounds (h : i ∈ L.held) :
  1 ≤ i ∧ i ≤ L.entries.length
  := Finset.mem_Icc.mp (L.held_subset h)

/-! ### Reading -/

theorem read_eq_some :
  L.read i = some x ↔ i ∈ L.held ∧ L.entries[i - 1]? = some x
  := by
  rw [read]
  split
  · rename_i hi
    simp [hi]
  · rename_i hi
    simp [hi]

/-- An entry can be read exactly when it is held. -/
theorem read_eq_none :
  L.read i = none ↔ i ∉ L.held
  := by
  rw [read]
  split
  · rename_i hi
    have := held_bounds hi
    simp only [List.getElem?_eq_none_iff, hi, not_true_eq_false, iff_false]
    omega
  · rename_i hi
    simp [hi]

theorem read_append :
  (L.append x).read i = if i = L.entries.length + 1 then some x else L.read i
  := by
  rw [read]
  by_cases hi : i = L.entries.length + 1
  · simp [append, hi]
  · rw [if_neg hi, read]
    by_cases hheld : i ∈ L.held
    · have := held_bounds hheld
      have hmem : i ∈ (L.append x).held := Finset.mem_insert_of_mem hheld
      rw [if_pos hmem, if_pos hheld, append, List.getElem?_append_left (by omega)]
    · rw [if_neg hheld, if_neg]
      simp [append, hi, hheld]

theorem read_prune {p : ℕ → Prop} [DecidablePred p] :
  (L.prune p).read i = if p i then L.read i else none
  := by
  simp only [read, prune, Finset.mem_filter]
  by_cases hp : p i <;> simp [hp]

/-! ### Completeness -/

theorem complete_empty :
  Complete (empty : PrunedLog π)
  := by
  intro i h1 hn
  rw [empty, List.length_nil] at hn
  omega

theorem complete_append :
  (L.append x).Complete ↔ L.Complete
  := by
  simp only [Complete, append, List.length_append, List.length_singleton, Finset.mem_insert]
  constructor
  · intro h i h1 hn
    apply (h i h1 (by omega)).resolve_left
    omega
  · intro h i h1 hn
    by_cases hi : i = L.entries.length + 1
    · apply Or.inl hi
    · apply Or.inr (h i h1 (by omega))

/-- Pruning leaves a log complete when it was complete and nothing was pruned. -/
theorem complete_prune {p : ℕ → Prop} [DecidablePred p] :
  (L.prune p).Complete ↔ L.Complete ∧ ∀ i ∈ L.held, p i
  := by
  simp only [Complete, prune, Finset.mem_filter]
  constructor
  · intro h
    use fun i h1 hn => (h i h1 hn).1
    intro i hi
    obtain ⟨h1, hn⟩ := held_bounds hi
    apply (h i h1 hn).2
  · rintro ⟨h, hp⟩ i h1 hn
    exact ⟨h i h1 hn, hp i (h i h1 hn)⟩

/-! ### Evolution -/

/-- `L'` comes from `L` by appending and pruning. -/
structure Evolves (L L' : PrunedLog π) : Prop where
  entries : L.entries <+: L'.entries
  held : ∀ {i}, i ∈ L'.held → i ≤ L.entries.length → i ∈ L.held

namespace Evolves

theorem refl (L : PrunedLog π) :
  L.Evolves L
  := ⟨List.prefix_rfl, fun h _ => h⟩

theorem trans (h : L.Evolves L') (h' : L'.Evolves L'') :
  L.Evolves L''
  := by
  use h.entries.trans h'.entries
  intro i hi hn
  apply h.held (h'.held hi (hn.trans h.entries.length_le)) hn

theorem append (L : PrunedLog π) (x : π) :
  L.Evolves (L.append x)
  := by
  use List.prefix_append _ _
  intro i hi hn
  rcases Finset.mem_insert.mp hi with rfl | hi
  · omega
  · apply hi

theorem prune (L : PrunedLog π) (p : ℕ → Prop) [DecidablePred p] :
  L.Evolves (L.prune p)
  := ⟨List.prefix_rfl, fun h _ => (Finset.mem_filter.mp h).1⟩

/-- An entry that cannot be read can never be read again. -/
theorem read_eq_none (h : L.Evolves L') (hn : i ≤ L.entries.length)
    (hi : L.read i = none) :
  L'.read i = none
  := by
  rw [PrunedLog.read_eq_none] at hi ⊢
  exact fun hheld => hi (h.held hheld hn)

/-- A complete log comes from a complete log. -/
theorem complete (h : L.Evolves L') (hc : L'.Complete) :
  L.Complete
  := by
  intro i h1 hn
  apply h.held (hc i h1 (hn.trans h.entries.length_le)) hn

end Evolves

end PrunedLog

import Mathlib.Data.List.Basic
import Mathlib.Data.List.Nodup
import Mathlib.Data.List.Sort
import Mathlib.Order.Lattice

/-!
# Ordered maps

`OrderedMap κ υ` is a finite map with keys in a linear order, kept as the list of its
entries in ascending order of keys. The order of the keys is part of the structure.
`find?` looks a key up, `tryEmplace` inserts unless the key is present, `modify` changes
the value under a key, and `eraseIf` erases, in one pass in ascending order, the entries
that satisfy a condition and returns their keys.
-/

universe u v

/-- A finite map as the list of its entries in ascending order of keys. -/
structure OrderedMap (κ : Type u) (υ : Type v) [LinearOrder κ] where
  entries : List (κ × υ)
  sorted : entries.Pairwise (fun x y => x.1 < y.1)

namespace OrderedMap

variable {κ : Type u} {υ : Type v} [LinearOrder κ]

/-- The map without entries. -/
def empty : OrderedMap κ υ := ⟨[], List.Pairwise.nil⟩

/-- The number of entries. -/
def size (m : OrderedMap κ υ) : ℕ := m.entries.length

/-- The keys, in ascending order. -/
def keys (m : OrderedMap κ υ) : List κ := m.entries.map Prod.fst

/-- The value of the first entry with key `k`. -/
def findEntry (k : κ) : List (κ × υ) → Option υ
  | [] => none
  | e :: es => if e.1 = k then some e.2 else findEntry k es

/-- The value under `k`. -/
def find? (m : OrderedMap κ υ) (k : κ) : Option υ := findEntry k m.entries

theorem mem_of_findEntry {k : κ} {v : υ} {es : List (κ × υ)} (h : findEntry k es = some v) :
  (k, v) ∈ es
  := by
  induction es with
  | nil => cases h
  | cons e es ih =>
      rw [findEntry] at h
      split at h
      · rename_i hk
        obtain rfl := Option.some.inj h
        rw [← hk]
        apply List.mem_cons_self
      · apply List.mem_cons_of_mem _ (ih h)

theorem findEntry_of_mem {k : κ} {v : υ} {es : List (κ × υ)}
    (hs : es.Pairwise (fun x y => x.1 < y.1)) (h : (k, v) ∈ es) :
  findEntry k es = some v
  := by
  induction es with
  | nil => cases h
  | cons e es ih =>
      obtain ⟨hlt, hs'⟩ := List.pairwise_cons.mp hs
      rw [findEntry]
      rcases List.mem_cons.mp h with rfl | hmem
      · rw [if_pos rfl]
      · rw [if_neg (hlt _ hmem).ne]
        apply ih hs' hmem

/-- Looking `k` up finds `v` exactly when `(k, v)` is an entry. -/
theorem find?_eq_some {m : OrderedMap κ υ} {k : κ} {v : υ} :
  m.find? k = some v ↔ (k, v) ∈ m.entries
  := ⟨mem_of_findEntry, findEntry_of_mem m.sorted⟩

theorem mem_keys {m : OrderedMap κ υ} {k : κ} :
  k ∈ m.keys ↔ ∃ v, m.find? k = some v
  := by
  simp only [keys, List.mem_map, Prod.exists, exists_and_right, exists_eq_right, find?_eq_some]

theorem sorted_keys (m : OrderedMap κ υ) :
  m.keys.Pairwise (· < ·)
  := List.pairwise_map.mpr m.sorted

/-- The keys are the only ascending list of their members. -/
theorem keys_eq {m : OrderedMap κ υ} {ks : List κ} (hks : ks.Pairwise (· < ·))
    (h : ∀ k, k ∈ m.keys ↔ k ∈ ks) :
  m.keys = ks
  := m.sorted_keys.eq_of_mem_iff hks h

/-- Where the keys determine the values, the keys list them. -/
theorem map_snd_entries {m : OrderedMap κ υ} {f : κ → υ}
    (h : ∀ k v, m.find? k = some v → v = f k) :
  m.entries.map Prod.snd = m.keys.map f
  := by
  rw [keys, List.map_map]
  apply List.map_congr_left
  intro e he
  apply h e.1 e.2 (find?_eq_some.mpr he)

@[simp]
theorem find?_empty (k : κ) :
  (empty : OrderedMap κ υ).find? k = none
  := rfl

theorem size_eq_zero {m : OrderedMap κ υ} :
  m.size = 0 ↔ ∀ k, m.find? k = none
  := by
  constructor
  · intro h k
    rw [find?, List.eq_nil_of_length_eq_zero h]
    rfl
  · intro h
    have hnil : m.entries = [] := by
      apply List.eq_nil_iff_forall_not_mem.mpr
      intro e he
      have := find?_eq_some.mpr he
      rw [h] at this
      cases this
    rw [size, hnil]
    rfl

/-! ### Insertion -/

/-- Insert an entry into a list of entries in ascending order of keys. -/
def insertEntry (e : κ × υ) : List (κ × υ) → List (κ × υ)
  | [] => [e]
  | x :: xs => if e.1 < x.1 then e :: x :: xs else x :: insertEntry e xs

theorem mem_insertEntry {e x : κ × υ} {es : List (κ × υ)} :
  x ∈ insertEntry e es ↔ x = e ∨ x ∈ es
  := by
  induction es with
  | nil => simp [insertEntry]
  | cons y ys ih =>
      rw [insertEntry]
      split
      · simp
      · simp only [List.mem_cons, ih]
        tauto

theorem sorted_insertEntry {e : κ × υ} {es : List (κ × υ)}
    (hs : es.Pairwise (fun x y => x.1 < y.1)) (he : ∀ x ∈ es, x.1 ≠ e.1) :
  (insertEntry e es).Pairwise (fun x y => x.1 < y.1)
  := by
  induction es with
  | nil => simp [insertEntry]
  | cons y ys ih =>
      obtain ⟨hlt, hs'⟩ := List.pairwise_cons.mp hs
      rw [insertEntry]
      split
      · rename_i hey
        apply List.pairwise_cons.mpr
        use fun x hx => by
          rcases List.mem_cons.mp hx with rfl | hmem
          · apply hey
          · apply hey.trans (hlt x hmem)
      · rename_i hey
        have hye : y.1 < e.1 := (not_lt.mp hey).lt_of_ne (he y List.mem_cons_self)
        apply List.pairwise_cons.mpr
        constructor
        · intro x hx
          rcases mem_insertEntry.mp hx with rfl | hmem
          · apply hye
          · apply hlt x hmem
        · apply ih hs' (fun x hx => he x (List.mem_cons_of_mem _ hx))

theorem find?_none_ne {m : OrderedMap κ υ} {k : κ} (h : m.find? k = none) :
  ∀ x ∈ m.entries, x.1 ≠ k
  := by
  rintro ⟨k', v⟩ hx rfl
  rw [find?_eq_some.mpr hx] at h
  cases h

/-- Insert `v` under `k` unless `k` is present; the flag tells whether it was inserted. -/
def tryEmplace (m : OrderedMap κ υ) (k : κ) (v : υ) : OrderedMap κ υ × Bool :=
  match h : m.find? k with
  | some _ => (m, false)
  | none => (⟨insertEntry (k, v) m.entries, sorted_insertEntry m.sorted (find?_none_ne h)⟩, true)

theorem find?_tryEmplace {m : OrderedMap κ υ} {k : κ} (v : υ) (h : m.find? k = none) (k' : κ) :
  (m.tryEmplace k v).1.find? k' = if k' = k then some v else m.find? k'
  := by
  rw [tryEmplace]
  split
  · rename_i hk
    rw [h] at hk
    cases hk
  · ext w
    rw [find?_eq_some]
    simp only [mem_insertEntry, Prod.mk.injEq]
    split
    · rename_i hk
      subst hk
      have hno : (k', w) ∉ m.entries := by
        intro hw
        rw [find?_eq_some.mpr hw] at h
        cases h
      simp only [true_and, hno, or_false, Option.some.injEq]
      apply eq_comm
    · rename_i hk
      rw [find?_eq_some]
      simp [hk]

theorem tryEmplace_of_some {m : OrderedMap κ υ} {k : κ} {w : υ} (h : m.find? k = some w) (v : υ) :
  m.tryEmplace k v = (m, false)
  := by
  rw [tryEmplace]
  split
  · rfl
  · rename_i hk
    rw [h] at hk
    cases hk

theorem tryEmplace_snd {m : OrderedMap κ υ} {k : κ} (v : υ) (h : m.find? k = none) :
  (m.tryEmplace k v).2 = true
  := by
  rw [tryEmplace]
  split
  · rename_i hk
    rw [h] at hk
    cases hk
  · rfl

theorem length_insertEntry (e : κ × υ) (es : List (κ × υ)) :
  (insertEntry e es).length = es.length + 1
  := by
  induction es with
  | nil => rfl
  | cons y ys ih =>
      rw [insertEntry]
      split
      · rfl
      · simp [ih]

theorem size_tryEmplace {m : OrderedMap κ υ} {k : κ} (v : υ) (h : m.find? k = none) :
  (m.tryEmplace k v).1.size = m.size + 1
  := by
  rw [tryEmplace]
  split
  · rename_i hk
    rw [h] at hk
    cases hk
  · apply length_insertEntry

/-! ### Changing a value -/

/-- Apply `f` to the value under `k`. -/
def modify (m : OrderedMap κ υ) (k : κ) (f : υ → υ) : OrderedMap κ υ where
  entries := m.entries.map (fun e => if e.1 = k then (e.1, f e.2) else e)
  sorted := by
    apply List.pairwise_map.mpr
    apply m.sorted.imp
    intro x y hxy
    split <;> split <;> exact hxy

theorem find?_modify (m : OrderedMap κ υ) (k : κ) (f : υ → υ) (k' : κ) :
  (m.modify k f).find? k' = if k' = k then (m.find? k').map f else m.find? k'
  := by
  have go : ∀ es : List (κ × υ),
      findEntry k' (es.map (fun e => if e.1 = k then (e.1, f e.2) else e))
        = if k' = k then (findEntry k' es).map f else findEntry k' es := by
    intro es
    induction es with
    | nil => simp [findEntry]
    | cons e es ih =>
        rw [List.map_cons, findEntry, findEntry, ih]
        by_cases hk : e.1 = k <;> by_cases hk' : e.1 = k' <;> grind
  apply go

@[simp]
theorem size_modify (m : OrderedMap κ υ) (k : κ) (f : υ → υ) :
  (m.modify k f).size = m.size
  := List.length_map _

/-! ### Erasing in one pass -/

/-- The entries that do not satisfy `p`. -/
def keepUnless (m : OrderedMap κ υ) (p : υ → Bool) : OrderedMap κ υ where
  entries := m.entries.filter (fun e => !p e.2)
  sorted := m.sorted.filter _

/-- Erase the entries whose value satisfies `p`; the second component lists their keys in
ascending order. -/
def eraseIf (m : OrderedMap κ υ) (p : υ → Bool) : OrderedMap κ υ × List κ :=
  (m.keepUnless p, (m.entries.filter (fun e => p e.2)).map Prod.fst)

theorem find?_eraseIf {m : OrderedMap κ υ} {p : υ → Bool} {k : κ} {v : υ} :
  (m.eraseIf p).1.find? k = some v ↔ m.find? k = some v ∧ p v = false
  := by
  rw [find?_eq_some, find?_eq_some]
  simp [eraseIf, keepUnless]

theorem mem_eraseIf {m : OrderedMap κ υ} {p : υ → Bool} {k : κ} :
  k ∈ (m.eraseIf p).2 ↔ ∃ v, m.find? k = some v ∧ p v = true
  := by
  simp [eraseIf, find?_eq_some]

theorem nodup_eraseIf (m : OrderedMap κ υ) (p : υ → Bool) :
  (m.eraseIf p).2.Nodup
  := by
  have hkeys : m.keys.Nodup := m.sorted_keys.imp (fun h => h.ne)
  apply hkeys.sublist (List.filter_sublist.map _)

theorem eraseIf_eq_nil {m : OrderedMap κ υ} {p : υ → Bool} :
  (m.eraseIf p).2 = [] ↔ ∀ k v, m.find? k = some v → p v = false
  := by
  simp [eraseIf, find?_eq_some]

theorem keepUnless_eq_self {m : OrderedMap κ υ} {p : υ → Bool}
    (h : ∀ k v, m.find? k = some v → p v = false) :
  m.keepUnless p = m
  := by
  rw [mk.injEq, keepUnless, List.filter_eq_self]
  intro e he
  rw [h e.1 e.2 (find?_eq_some.mpr he)]
  rfl

/-- The entries split into those kept and those erased. -/
theorem size_eraseIf (m : OrderedMap κ υ) (p : υ → Bool) :
  (m.eraseIf p).1.size + (m.eraseIf p).2.length = m.size
  := by
  have h := List.length_eq_length_filter_add (l := m.entries) (fun e => p e.2)
  simp only [eraseIf, keepUnless, size, List.length_map]
  omega

end OrderedMap

import Mathlib.Data.List.Induction
import Mathlib.Data.List.Nodup
import Mathlib.Data.Nat.Find
import Mathlib.Order.Basic

/-!
# Rosters

A roster lists those who are present, in the order in which they came. Entering has no effect on
someone who is present, and leaving none on someone who is not. The roster is determined by the
history of these moves: on it is who entered and has not left since, and the order is that of
the first moves of entering that no leaving has followed.
-/

universe u

namespace Roster

/-- What happens to a roster. -/
inductive Move (α : Type u) where
  | enter (x : α)
  | leave (x : α)
  | other

variable {α : Type u} {h : List (Move α)} {x y : α} {i j : ℕ}

/-! ### Who is present -/

/-- `x` entered and has not left since. -/
def Present (h : List (Move α)) (x : α) : Prop :=
  ∃ i : ℕ, h[i]? = some (.enter x) ∧ ∀ j, i < j → h[j]? ≠ some (Move.leave x)

/-- The presence of `x` begins with the move of number `i`. -/
structure JoinedAt (h : List (Move α)) (x : α) (i : ℕ) : Prop where
  enters : h[i]? = some (Move.enter x)
  stays : ∀ j, i < j → h[j]? ≠ some (Move.leave x)
  first : ∀ j, j < i → h[j]? = some (Move.enter x) →
    ∃ k, j < k ∧ k < i ∧ h[k]? = some (Move.leave x)

/-- The presence of `x` begins before that of `y`. -/
def Before (h : List (Move α)) (x y : α) : Prop :=
  ∃ i j, JoinedAt h x i ∧ JoinedAt h y j ∧ i < j

theorem JoinedAt.unique (hi : JoinedAt h x i) (hj : JoinedAt h x j) :
  i = j
  := by
  have hle : ∀ {i j}, JoinedAt h x i → JoinedAt h x j → i ≤ j := by
    intro i j hi hj
    by_contra hlt
    obtain ⟨k, hk, -, hleave⟩ := hi.first j (Nat.lt_of_not_le hlt) hj.enters
    apply hj.stays k hk hleave
  apply Nat.le_antisymm (hle hi hj) (hle hj hi)

/-- A presence has a beginning, the least of the moves of entering that no leaving follows. -/
theorem present_iff :
  Present h x ↔ ∃ i, JoinedAt h x i
  := by
  classical
  constructor
  · intro hx
    rw [Present] at hx
    use Nat.find hx
    obtain ⟨henters, hstays⟩ := Nat.find_spec hx
    use henters, hstays
    intro j hj hj'
    have hleaves := Nat.find_min hx hj
    push Not at hleaves
    obtain ⟨k, hk, hleave⟩ := hleaves hj'
    use k, hk
    constructor
    · obtain hlt | heq | hgt := Nat.lt_trichotomy k (Nat.find hx)
      · apply hlt
      · rw [heq, henters] at hleave
        cases hleave
      · cases hstays k hgt hleave
    · apply hleave
  · rintro ⟨i, hi⟩
    exact ⟨i, hi.enters, hi.stays⟩

theorem Before.irrefl (h : List (Move α)) (x : α) :
  ¬Before h x x
  := by
  rintro ⟨i, j, hi, hj, hlt⟩
  rw [hi.unique hj] at hlt
  apply Nat.lt_irrefl j hlt

/-! ### One more move -/

theorem getElem?_concat_of_lt {m : Move α} (hi : h.length < i) :
  (h ++ [m])[i]? = none
  := by
  rw [List.getElem?_eq_none_iff, List.length_append, List.length_singleton]
  apply hi

theorem getElem?_concat {m m' : Move α} :
  (h ++ [m])[i]? = some m' ↔ h[i]? = some m' ∨ i = h.length ∧ m = m'
  := by
  obtain hlt | rfl | hgt := Nat.lt_trichotomy i h.length
  · rw [List.getElem?_append_left hlt, or_iff_left]
    exact fun heq => Nat.ne_of_lt hlt heq.1
  · simp
  · rw [getElem?_concat_of_lt hgt, List.getElem?_eq_none hgt.le]
    simp [hgt.ne']

theorem lt_length_of_getElem? {m : Move α} (hi : h[i]? = some m) :
  i < h.length
  := (List.getElem?_eq_some_iff.mp hi).1

theorem present_concat {m : Move α} :
  Present (h ++ [m]) x ↔ Present h x ∧ m ≠ .leave x ∨ m = .enter x
  := by
  constructor
  · rintro ⟨i, henters, hstays⟩
    obtain hi | ⟨-, hm⟩ := getElem?_concat.mp henters
    · left
      constructor
      · use i, hi
        intro j hj hleave
        apply hstays j hj (getElem?_concat.mpr (Or.inl hleave))
      · intro hm
        apply hstays h.length (lt_length_of_getElem? hi)
        apply getElem?_concat.mpr (Or.inr ⟨rfl, hm⟩)
    · right
      apply hm
  · rintro (⟨⟨i, henters, hstays⟩, hm⟩ | hm)
    · use i, getElem?_concat.mpr (Or.inl henters)
      intro j hj hleave
      obtain hleave | ⟨-, hleave⟩ := getElem?_concat.mp hleave
      · apply hstays j hj hleave
      · apply hm hleave
    · use h.length, getElem?_concat.mpr (Or.inr ⟨rfl, hm⟩)
      intro j hj
      rw [getElem?_concat_of_lt hj]
      nofun

theorem JoinedAt.concat {m : Move α} (hi : JoinedAt h x i) (hm : m ≠ .leave x) :
  JoinedAt (h ++ [m]) x i
  where
    enters := getElem?_concat.mpr (Or.inl hi.enters)
    stays j hj hleave := by
      obtain hleave | ⟨-, hleave⟩ := getElem?_concat.mp hleave
      · apply hi.stays j hj hleave
      · apply hm hleave
    first j hj henter := by
      have hlength := lt_length_of_getElem? hi.enters
      obtain henter | ⟨rfl, -⟩ := getElem?_concat.mp henter
      · obtain ⟨k, hk, hki, hleave⟩ := hi.first j hj henter
        exact ⟨k, hk, hki, getElem?_concat.mpr (Or.inl hleave)⟩
      · omega

theorem joinedAt_length (hx : ¬Present h x) :
  JoinedAt (h ++ [.enter x]) x h.length
  where
    enters := getElem?_concat.mpr (Or.inr ⟨rfl, rfl⟩)
    stays j hj := by
      rw [getElem?_concat_of_lt hj]
      nofun
    first j hj henter := by
      obtain henter | ⟨rfl, -⟩ := getElem?_concat.mp henter
      · by_contra hleaves
        apply hx
        use j, henter
        intro k hk hleave
        apply hleaves
        exact ⟨k, hk, lt_length_of_getElem? hleave, getElem?_concat.mpr (Or.inl hleave)⟩
      · omega

theorem Before.concat {m : Move α} (hxy : Before h x y) (hx : m ≠ .leave x)
    (hy : m ≠ .leave y) :
  Before (h ++ [m]) x y
  := by
  obtain ⟨i, j, hi, hj, hlt⟩ := hxy
  exact ⟨i, j, hi.concat hx, hj.concat hy, hlt⟩

/-! ### The roster -/

/-- What a roster says of a history. -/
structure Lists (h : List (Move α)) (roster : List α) : Prop where
  mem : ∀ x, x ∈ roster ↔ Present h x
  ordered : roster.Pairwise (Before h)

theorem nodup_of_pairwise {roster : List α} (hr : roster.Pairwise (Before h)) :
  roster.Nodup
  := by
  apply hr.imp
  rintro x y hxy rfl
  apply Before.irrefl h x hxy

theorem Lists.nodup {roster : List α} (hr : Lists h roster) :
  roster.Nodup
  := nodup_of_pairwise hr.ordered

variable [DecidableEq α]

/-- One move, on a list. -/
def note (roster : List α) : Move α → List α
  | .enter x => if x ∈ roster then roster else roster ++ [x]
  | .leave x => roster.erase x
  | .other => roster

/-- The list after a history of moves. -/
def ofHistory (h : List (Move α)) : List α := h.foldl note []

theorem ofHistory_concat (h : List (Move α)) (m : Move α) :
  ofHistory (h ++ [m]) = note (ofHistory h) m
  := by rw [ofHistory, ofHistory, List.foldl_append, List.foldl_cons, List.foldl_nil]

theorem Lists.note {roster : List α} (hr : Lists h roster) (m : Move α) :
  Lists (h ++ [m]) (note roster m)
  := by
  cases m with
  | other =>
      constructor
      case mem => simp [Roster.note, hr.mem, present_concat]
      case ordered =>
          apply hr.ordered.imp
          intro x y hxy
          apply hxy.concat
          · nofun
          · nofun
  | leave z =>
      constructor
      case mem =>
          intro x
          rw [Roster.note, hr.nodup.mem_erase_iff, hr.mem, present_concat]
          simp [eq_comm, and_comm]
      case ordered =>
          rw [Roster.note]
          apply (hr.ordered.sublist List.erase_sublist).imp_of_mem
          intro x y hx hy hxy
          rw [hr.nodup.mem_erase_iff] at hx hy
          apply hxy.concat
          · rintro ⟨⟩
            apply hx.1 rfl
          · rintro ⟨⟩
            apply hy.1 rfl
  | enter z =>
      have hkeeps : roster.Pairwise (Before (h ++ [.enter z])) := by
        apply hr.ordered.imp
        intro x y hxy
        apply hxy.concat
        · nofun
        · nofun
      rw [Roster.note]
      split
      case isTrue hz =>
          constructor
          case mem =>
              intro x
              rw [hr.mem, present_concat]
              constructor
              · intro hx
                left
                use hx
                nofun
              · rintro (⟨hx, -⟩ | heq)
                · apply hx
                · obtain rfl := Move.enter.inj heq
                  apply (hr.mem z).mp hz
          case ordered => apply hkeeps
      case isFalse hz =>
          constructor
          case mem =>
              intro x
              rw [List.mem_append, List.mem_singleton, hr.mem, present_concat]
              simp [eq_comm]
          case ordered =>
              rw [List.pairwise_append]
              use hkeeps, List.pairwise_singleton _ _
              intro x hx y hy
              obtain rfl := List.mem_singleton.mp hy
              obtain ⟨i, hi⟩ := present_iff.mp ((hr.mem x).mp hx)
              use i, h.length
              constructor
              · apply hi.concat
                nofun
              · use joinedAt_length (mt (hr.mem y).mpr hz)
                apply lt_length_of_getElem? hi.enters

/-- The list holds who is present, in the order of their coming. -/
theorem lists_ofHistory (h : List (Move α)) :
  Lists h (ofHistory h)
  := by
  induction h using List.reverseRecOn with
  | nil =>
      constructor
      case mem =>
          intro x
          apply iff_of_false List.not_mem_nil
          rintro ⟨i, hi, -⟩
          cases hi
      case ordered => apply List.Pairwise.nil
  | append_singleton h m ih =>
      rw [ofHistory_concat]
      apply ih.note

/-! ### Part of a roster -/

/-- Who moves. -/
def Move.subject : Move α → Option α
  | .enter x | .leave x => some x
  | .other => none

theorem note_of_subject {m : Move α} (hm : m.subject = none) (roster : List α) :
  Roster.note roster m = roster
  := by
  cases m with
  | other => rfl
  | enter | leave => cases hm

theorem filter_note {f : α → Bool} {m : Move α} (hm : ∀ x ∈ m.subject, f x = true)
    (roster : List α) :
  (Roster.note roster m).filter f = Roster.note (roster.filter f) m
  := by
  cases m with
  | other => rfl
  | leave x => apply List.erase_filter.symm
  | enter x =>
      have hx : f x = true := hm x rfl
      rw [Roster.note, Roster.note]
      by_cases hmem : x ∈ roster
      · rw [if_pos hmem, if_pos (List.mem_filter.mpr ⟨hmem, hx⟩)]
      · rw [if_neg hmem, if_neg fun hfilter => hmem (List.mem_filter.mp hfilter).1,
          List.filter_append, List.filter_singleton, hx]
        rfl

/-- Who is not in the part does not change it. -/
theorem filter_note_of_not {f : α → Bool} {m : Move α} (hx : x ∈ m.subject) (hf : f x = false)
    (roster : List α) :
  (Roster.note roster m).filter f = roster.filter f
  := by
  cases m with
  | other => rfl
  | leave y =>
      obtain rfl := Option.some.inj hx
      rw [Roster.note, ← List.erase_filter, List.erase_of_not_mem]
      rw [List.mem_filter, hf]
      nofun
  | enter y =>
      obtain rfl := Option.some.inj hx
      rw [Roster.note]
      split
      · rfl
      · rw [List.filter_append, List.filter_singleton, hf]
        apply List.append_nil

end Roster

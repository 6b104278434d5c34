import Mathlib.Data.List.TakeWhile
import Mathlib.Data.Nat.Notation

/-!
# Blocks of a stream

A function that consumes blocks of `n` elements is given a stream piece by piece. What does not
fill a block waits for the next piece. In what pieces a stream comes makes no difference
(`absorb_append`), and at its end the blocks consumed and what is left are the chunks of the
stream (`foldl_chunks`).
-/

universe u v

namespace Blocks

variable {σ : Type u} {α : Type v}

/-- One element more. The second component waits to be a block. -/
def feed (n : ℕ) (f : σ → List α → σ) (s : σ × List α) (a : α) : σ × List α :=
  if s.2.length + 1 = n then (f s.1 (s.2 ++ [a]), []) else (s.1, s.2 ++ [a])

def absorb (n : ℕ) (f : σ → List α → σ) (s : σ × List α) (l : List α) : σ × List α :=
  l.foldl (feed n f) s

/-- Pieces of length `n`, the last of which may be shorter. -/
def chunks (n : ℕ) (l : List α) : List (List α) :=
  (List.range ((l.length + n - 1) / n)).map fun i => (l.drop (n * i)).take n

/-- A buffer that is overwritten from the position `i`, one element after the other. -/
def fill : List α → ℕ → List α → List α
  | buffer, _, [] => buffer
  | buffer, i, a :: l => fill (buffer.set i a) (i + 1) l

variable {n : ℕ} {f : σ → List α → σ} {s : σ × List α} {l : List α}

theorem absorb_append (l l' : List α) :
  absorb n f s (l ++ l') = absorb n f (absorb n f s l) l'
  := List.foldl_append

/-- What does not fill a block waits. -/
theorem absorb_of_lt (h : s.2.length + l.length < n) :
  absorb n f s l = (s.1, s.2 ++ l)
  := by
  induction l generalizing s with
  | nil => rw [List.append_nil]; rfl
  | cons a l ih =>
      rw [List.length_cons] at h
      have hfeed : feed n f s a = (s.1, s.2 ++ [a]) := by
        rw [feed, if_neg]
        omega
      have hlength : (feed n f s a).2.length + l.length < n := by
        rw [hfeed, List.length_append, List.length_singleton]
        omega
      rw [absorb, List.foldl_cons]
      apply (ih hlength).trans
      rw [hfeed, List.append_assoc, List.singleton_append]

/-- A piece that fills the block is consumed with what has waited for it. -/
theorem absorb_of_eq (hs : s.2.length < n) (h : s.2.length + l.length = n) :
  absorb n f s l = (f s.1 (s.2 ++ l), [])
  := by
  obtain rfl | ⟨l, a, rfl⟩ := l.eq_nil_or_concat
  · rw [List.length_nil] at h
    omega
  · rw [List.concat_eq_append] at h ⊢
    rw [List.length_append, List.length_singleton] at h
    have hwait : absorb n f s l = (s.1, s.2 ++ l) := absorb_of_lt (by omega)
    rw [absorb_append, hwait]
    change feed n f (s.1, s.2 ++ l) a = _
    rw [feed, if_pos]
    · rw [List.append_assoc]
    · rw [List.length_append]
      omega

/-! ### The chunks of a stream -/

theorem chunks_of_length_le (hne : l ≠ []) (hl : l.length ≤ n) :
  chunks n l = [l]
  := by
  have hpos := List.length_pos_iff.mpr hne
  have hone : (l.length + n - 1) / n = 1 := by
    rw [Nat.div_eq_iff (by omega)]
    omega
  rw [chunks, hone, List.range_one, List.map_singleton, Nat.mul_zero, List.drop_zero,
    List.take_of_length_le hl]

theorem chunks_append {b : List α} (hn : 0 < n) (hb : b.length = n) (l : List α) :
  chunks n (b ++ l) = b :: chunks n l
  := by
  have hcount : ((b ++ l).length + n - 1) / n = (l.length + n - 1) / n + 1 := by
    rw [List.length_append, hb, ← Nat.add_div_right _ hn]
    congr 1
    omega
  rw [chunks, hcount, List.range_succ_eq_map, List.map_cons, List.map_map, Nat.mul_zero,
    List.drop_zero, List.take_append_of_le_length (by omega), List.take_of_length_le (by omega),
    chunks]
  congr 1
  apply List.map_congr_left
  intro i _
  simp only [Function.comp_apply, Nat.mul_succ]
  rw [Nat.add_comm, ← List.drop_drop, List.drop_left' hb]

/-- The chunks of a stream are the blocks consumed and what is left of it. -/
theorem foldl_chunks {g : σ → List α → σ} (hn : 0 < n)
    (hg : ∀ s (b : List α), b.length = n → g s b = f s b) (s : σ) (l : List α) :
  (chunks n l).foldl g s
    = if (absorb n f (s, []) l).2 = [] then (absorb n f (s, []) l).1
      else g (absorb n f (s, []) l).1 (absorb n f (s, []) l).2
  := by
  induction hlength : l.length using Nat.strongRecOn generalizing s l with
  | ind m ih =>
      obtain hlt | hle := Nat.lt_or_ge l.length n
      · have hshort : absorb n f (s, []) l = (s, l) := by
          rw [absorb_of_lt (by simpa using hlt), List.nil_append]
        rw [hshort]
        obtain rfl | hne := eq_or_ne l []
        · have hempty : chunks n ([] : List α) = [] := by
            rw [chunks, List.length_nil, Nat.zero_add, Nat.div_eq_of_lt (by omega)]
            rfl
          rw [hempty]
          rfl
        · rw [chunks_of_length_le hne hlt.le, if_neg hne]
          rfl
      · have hblock : (l.take n).length = n := List.length_take_of_le hle
        have habsorb : absorb n f (s, []) (l.take n) = (f s (l.take n), []) := by
          rw [absorb_of_eq hn (by rw [List.length_nil, Nat.zero_add, hblock]), List.nil_append]
        have hrest := ih (l.drop n).length (by rw [List.length_drop]; omega) (f s (l.take n))
          (l.drop n) rfl
        rw [← List.take_append_drop n l, chunks_append hn hblock, List.foldl_cons,
          hg s _ hblock, hrest, absorb_append, habsorb]

/-! ### Buffers -/

theorem fill_eq {buffer m : List α} {i : ℕ} (h : i + m.length ≤ buffer.length) :
  fill buffer i m = buffer.take i ++ m ++ buffer.drop (i + m.length)
  := by
  induction m generalizing buffer i with
  | nil => rw [fill, List.append_nil, List.length_nil, Nat.add_zero, List.take_append_drop]
  | cons c m ih =>
      rw [List.length_cons] at h
      have hnext : i + 1 + m.length ≤ (buffer.set i c).length := by
        rw [List.length_set]
        omega
      have htake : (buffer.set i c).take (i + 1) = buffer.take i ++ [c] := by
        rw [List.take_add_one, List.take_set_of_le (Nat.le_refl _),
          List.getElem?_set_self (by omega)]
        rfl
      have hdrop : (buffer.set i c).drop (i + 1 + m.length) = buffer.drop (i + (m.length + 1)) := by
        rw [List.drop_set_of_lt (by omega), Nat.add_assoc, Nat.add_comm 1]
      rw [fill, ih hnext, htake, hdrop, List.append_assoc, List.append_assoc, List.append_assoc,
        List.length_cons]
      rfl

end Blocks

import Mathlib.Data.List.Perm.Basic

/-!
# Threads that make steps

The threads of a program are the list of the places where they are. When one of them makes
a step, the others stay where they are.
-/

universe u

namespace Threads

variable {α : Type u} {threads : List α} {k : ℕ} {thread : α} {next : Option α}

/-- The threads when thread `k` is now at `next`, or has ended. -/
def goOn (threads : List α) (k : ℕ) (next : Option α) : List α :=
  threads.take k ++ next.toList ++ threads.drop (k + 1)

theorem mem_goOn {x : α} :
  x ∈ goOn threads k next ↔ next = some x ∨ x ∈ threads.eraseIdx k
  := by
  simp only [goOn, List.eraseIdx_eq_take_drop_succ, List.mem_append, Option.mem_toList]
  tauto

theorem perm_cons_eraseIdx (hk : threads[k]? = some thread) :
  threads.Perm (thread :: threads.eraseIdx k)
  := by
  obtain ⟨hlt, rfl⟩ := List.getElem?_eq_some_iff.mp hk
  apply (List.getElem_cons_eraseIdx_perm hlt).symm

theorem mem_iff (hk : threads[k]? = some thread) {x : α} :
  x ∈ threads ↔ x = thread ∨ x ∈ threads.eraseIdx k
  := by
  rw [(perm_cons_eraseIdx hk).mem_iff, List.mem_cons]

theorem length_goOn_le (hk : threads[k]? = some thread) :
  (goOn threads k next).length ≤ threads.length
  := by
  obtain ⟨hlt, -⟩ := List.getElem?_eq_some_iff.mp hk
  have hnext : next.toList.length ≤ 1 := by
    cases next <;> simp
  simp only [goOn, List.length_append, List.length_take, List.length_drop]
  omega

theorem countP_goOn (hk : threads[k]? = some thread) (next : Option α) (p : α → Bool) :
  (goOn threads k next).countP p + [thread].countP p
    = threads.countP p + next.toList.countP p
  := by
  have hcount := (perm_cons_eraseIdx hk).countP_eq p
  rw [List.countP_cons, List.eraseIdx_eq_take_drop_succ, List.countP_append] at hcount
  simp only [goOn, List.countP_append, List.countP_singleton]
  omega

end Threads

import Mathlib.Data.List.Basic
import Mathlib.Order.Basic

/-!
# Runs of a state machine

A machine is a step function `step : σ → α → σ`; the labels `α` carry every choice the
environment makes. A run is a list of labels. `EveryState step P s as` says that `P`
holds of every state the run visits, and `EveryStep step C s as` that `C` holds of
every step it takes, of the state before the step and the label.
-/

universe u v

namespace Machine

variable {σ : Type u} {α : Type v} {step : σ → α → σ}

/-- The state in which the run of `step` from `s` along `as` ends. -/
def run (step : σ → α → σ) (s : σ) (as : List α) : σ :=
  as.foldl step s

/-- `P` holds of every state the run visits, the first and the last included. -/
def EveryState (step : σ → α → σ) (P : σ → Prop) : σ → List α → Prop
  | s, [] => P s
  | s, a :: as => P s ∧ EveryState step P (step s a) as

/-- `C` holds of every step the run takes. -/
def EveryStep (step : σ → α → σ) (C : σ → α → Prop) : σ → List α → Prop
  | _, [] => True
  | s, a :: as => C s a ∧ EveryStep step C (step s a) as

instance decidableEveryStep {C : σ → α → Prop} [∀ s a, Decidable (C s a)] :
    (s : σ) → (as : List α) → Decidable (EveryStep step C s as)
  | _, [] => isTrue trivial
  | s, a :: as =>
      have := decidableEveryStep (C := C) (step s a) as
      inferInstanceAs (Decidable (C s a ∧ EveryStep step C (step s a) as))

/-- The states that some run from `s₀` ends in. -/
def Reachable (step : σ → α → σ) (s₀ s : σ) : Prop :=
  ∃ as, run step s₀ as = s

@[simp]
theorem run_nil (s : σ) :
  run step s [] = s
  := rfl

@[simp]
theorem run_cons (s : σ) (a : α) (as : List α) :
  run step s (a :: as) = run step (step s a) as
  := rfl

theorem run_append (s : σ) (as bs : List α) :
  run step s (as ++ bs) = run step (run step s as) bs
  := List.foldl_append

theorem EveryState.head {P : σ → Prop} {s : σ} {as : List α} (h : EveryState step P s as) :
  P s
  := by
  cases as with
  | nil => apply h
  | cons a as => apply h.1

/-- The property holds in the state the run ends in. -/
theorem EveryState.last {P : σ → Prop} {s : σ} {as : List α} (h : EveryState step P s as) :
  P (run step s as)
  := by
  induction as generalizing s with
  | nil => apply h
  | cons a as ih => apply ih h.2

theorem EveryState.mono {P Q : σ → Prop} (hPQ : ∀ s, P s → Q s) {s : σ} {as : List α}
    (h : EveryState step P s as) :
  EveryState step Q s as
  := by
  induction as generalizing s with
  | nil => apply hPQ s h
  | cons a as ih => exact ⟨hPQ s h.1, ih h.2⟩

theorem EveryStep.mono {C D : σ → α → Prop} (hCD : ∀ s a, C s a → D s a) {s : σ}
    {as : List α} (h : EveryStep step C s as) :
  EveryStep step D s as
  := by
  induction as generalizing s with
  | nil => trivial
  | cons a as ih => exact ⟨hCD s a h.1, ih h.2⟩

/-- A condition on the labels alone. -/
theorem everyStep_of_forall_mem {C : α → Prop} {s : σ} {as : List α} (h : ∀ a ∈ as, C a) :
  EveryStep step (fun _ a => C a) s as
  := by
  induction as generalizing s with
  | nil => trivial
  | cons a as ih =>
      use h a List.mem_cons_self
      apply ih
      exact fun b hb => h b (List.mem_cons_of_mem a hb)

/-- What holds in every state says what the steps do. -/
theorem EveryState.everyStep {P : σ → Prop} {C : σ → α → Prop} (hC : ∀ s a, P s → C s a)
    {s : σ} {as : List α} (h : EveryState step P s as) :
  EveryStep step C s as
  := by
  induction as generalizing s with
  | nil => trivial
  | cons a as ih => exact ⟨hC s a h.1, ih h.2⟩

/-- What is preserved by every step that meets `C` holds throughout a run whose steps all
meet `C`. -/
theorem everyState_of_everyStep {Inv : σ → Prop} {C : σ → α → Prop}
    (hstep : ∀ s a, Inv s → C s a → Inv (step s a)) {s : σ} {as : List α} (hs : Inv s)
    (hC : EveryStep step C s as) :
  EveryState step Inv s as
  := by
  induction as generalizing s with
  | nil => apply hs
  | cons a as ih => exact ⟨hs, ih (hstep s a hs hC.1) hC.2⟩

/-- What is preserved by every step holds throughout every run. -/
theorem everyState_of_invariant {Inv : σ → Prop} (hstep : ∀ s a, Inv s → Inv (step s a))
    {s : σ} (hs : Inv s) (as : List α) :
  EveryState step Inv s as
  := by
  induction as generalizing s with
  | nil => apply hs
  | cons a as ih => exact ⟨hs, ih (hstep s a hs)⟩

/-- Where the steps with `C` keep an invariant and have `D`, a run whose steps all have `C` has
`D` at every step. -/
theorem EveryStep.of_invariant {Inv : σ → Prop} {C D : σ → α → Prop}
    (hstep : ∀ s a, Inv s → C s a → Inv (step s a)) (hD : ∀ s a, Inv s → C s a → D s a) {s : σ}
    {as : List α} (hs : Inv s) (hC : EveryStep step C s as) :
  EveryStep step D s as
  := by
  induction as generalizing s with
  | nil => trivial
  | cons a as ih => exact ⟨hD s a hs hC.1, ih (hstep s a hs hC.1) hC.2⟩

theorem Reachable.refl (s : σ) :
  Reachable step s s
  := ⟨[], rfl⟩

theorem Reachable.trans {s₀ s s' : σ} (h : Reachable step s₀ s) (h' : Reachable step s s') :
  Reachable step s₀ s'
  := by
  obtain ⟨as, rfl⟩ := h
  obtain ⟨bs, rfl⟩ := h'
  use as ++ bs
  apply run_append

/-- What is preserved by every step holds in every reachable state. -/
theorem Reachable.invariant {Inv : σ → Prop} (hstep : ∀ s a, Inv s → Inv (step s a))
    {s₀ s : σ} (h₀ : Inv s₀) (hs : Reachable step s₀ s) :
  Inv s
  := by
  obtain ⟨as, rfl⟩ := hs
  apply (everyState_of_invariant hstep h₀ as).last

/-- Where, under an invariant, a step out of a state with `P` keeps `P` exactly when it
meets `C`, a run has `P` in every state exactly when all its steps meet `C`. -/
theorem everyState_iff_everyStep {Inv P : σ → Prop} {C : σ → α → Prop}
    (hinv : ∀ s a, Inv s → Inv (step s a))
    (hstep : ∀ s a, Inv s → P s → (P (step s a) ↔ C s a)) {s : σ} (hs : Inv s) (hP : P s)
    (as : List α) :
  EveryState step P s as ↔ EveryStep step C s as
  := by
  induction as generalizing s with
  | nil => exact ⟨fun _ => trivial, fun _ => hP⟩
  | cons a as ih =>
      constructor
      · rintro ⟨-, h⟩
        have hP' : P (step s a) := h.head
        use (hstep s a hs hP).mp hP'
        apply (ih (hinv s a hs) hP').mp h
      · rintro ⟨hC, h⟩
        have hP' : P (step s a) := (hstep s a hs hP).mpr hC
        use hP
        apply (ih (hinv s a hs) hP').mpr h

theorem everyState_iff_everyStep_of_step {P : σ → Prop} {C : σ → α → Prop}
    (hstep : ∀ s a, P s → (P (step s a) ↔ C s a)) {s : σ} (hP : P s) (as : List α) :
  EveryState step P s as ↔ EveryStep step C s as
  := by
  have hinv : ∀ (s : σ) (a : α), True → True := fun _ _ => id
  apply everyState_iff_everyStep hinv _ trivial hP
  exact fun s a _ hs => hstep s a hs

theorem everyStep_append {C : σ → α → Prop} {s : σ} {as bs : List α} :
  EveryStep step C s (as ++ bs) ↔ EveryStep step C s as ∧ EveryStep step C (run step s as) bs
  := by
  induction as generalizing s with
  | nil => simp [EveryStep]
  | cons a as ih => rw [List.cons_append, EveryStep, EveryStep, ih, run_cons, and_assoc]

/-! ### Counting steps -/

/-- The number of steps of a run that meet a condition. -/
def countSteps (step : σ → α → σ) (C : σ → α → Bool) : σ → List α → ℕ
  | _, [] => 0
  | s, a :: as => (C s a).toNat + countSteps step C (step s a) as

/-- Where every step with `C` takes one off a rank, and a step with `D` may put `d` on it, the
steps with `C` are bounded by the first rank and the steps with `D`. -/
theorem countSteps_add_rank_le {Inv : σ → Prop} {C D : σ → α → Bool} {rank : σ → ℕ} {d : ℕ}
    (hinv : ∀ s a, Inv s → Inv (step s a))
    (hstep : ∀ s a, Inv s →
      (C s a).toNat + rank (step s a) ≤ rank s + d * (D s a).toNat)
    {s : σ} (hs : Inv s) (as : List α) :
  countSteps step C s as + rank (run step s as) ≤ rank s + d * countSteps step D s as
  := by
  induction as generalizing s with
  | nil => simp [countSteps]
  | cons a as ih =>
      have hfirst := hstep s a hs
      have hrest := ih (hinv s a hs)
      rw [run_cons, countSteps, countSteps, Nat.mul_add]
      omega

/-! ### What the steps put out -/

section

variable {β : Type*} {out : σ → α → List β}

/-- What the steps of a run put out, in order. -/
def outputs (step : σ → α → σ) (out : σ → α → List β) : σ → List α → List β
  | _, [] => []
  | s, a :: as => out s a ++ outputs step out (step s a) as

/-- Where each step adds to a list what it puts out, the list holds what a run has put out. -/
theorem read_run {Inv : σ → Prop} {C : σ → α → Prop} {read : σ → List β}
    (hinv : ∀ s a, Inv s → C s a → Inv (step s a))
    (hread : ∀ s a, Inv s → read (step s a) = read s ++ out s a)
    {s : σ} (hs : Inv s) {as : List α} (h : EveryStep step C s as) :
  read (run step s as) = read s ++ outputs step out s as
  := by
  induction as generalizing s with
  | nil => exact (List.append_nil _).symm
  | cons a as ih =>
      rw [run_cons, ih (hinv s a hs h.1) h.2, hread s a hs, List.append_assoc, outputs]

end

/-! ### States that grow -/

section

variable [Preorder σ]

/-- Where every step grows the state, a run does. -/
theorem le_run (hle : ∀ s a, s ≤ step s a) (s : σ) (as : List α) :
  s ≤ run step s as
  := by
  induction as generalizing s with
  | nil => apply le_refl
  | cons a as ih => apply (hle s a).trans (ih (step s a))

/-- Where every step is monotone, a run is. -/
theorem run_mono (hmono : ∀ s t a, s ≤ t → step s a ≤ step t a) {s t : σ} (h : s ≤ t)
    (as : List α) :
  run step s as ≤ run step t as
  := by
  induction as generalizing s t with
  | nil => exact h
  | cons a as ih => apply ih (hmono s t a h)

/-- A condition that grows with the state holds of the steps from a greater state. -/
theorem EveryStep.of_le {C : σ → α → Prop} (hmono : ∀ s t a, s ≤ t → step s a ≤ step t a)
    (hC : ∀ s t a, s ≤ t → C s a → C t a) {s t : σ} (hle : s ≤ t) {as : List α}
    (h : EveryStep step C s as) :
  EveryStep step C t as
  := by
  induction as generalizing s t with
  | nil => trivial
  | cons a as ih => exact ⟨hC s t a hle h.1, ih (hmono s t a hle) h.2⟩

/-- What holds of each label in every greater state holds of every step. -/
theorem everyStep_of_forall_le {C : σ → α → Prop} (hle : ∀ s a, s ≤ step s a) {s : σ}
    {as : List α} (h : ∀ a ∈ as, ∀ t, s ≤ t → C t a) :
  EveryStep step C s as
  := by
  induction as generalizing s with
  | nil => trivial
  | cons a as ih =>
      use h a List.mem_cons_self s le_rfl
      apply ih
      intro b hb t ht
      apply h b (List.mem_cons_of_mem a hb) t ((hle s a).trans ht)

end

end Machine

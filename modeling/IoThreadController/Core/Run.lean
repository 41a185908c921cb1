/-
Runs of a deterministic state machine `step : σ → ι → σ` over lists of inputs (the environment's choices are part of
the input, so one step function covers every behaviour).

- `run`: the state after a list of inputs.
- `Along step P s es`: `P` holds at every step of the run, of the state before the step and its input.
- `run_inv`, `along_of_inv`: the invariant rules. An invariant preserved by every step that meets the step condition
  `C` holds in every state of a run whose steps all meet `C`.
- `along_iff_of_inv`: step properties that agree on invariant states agree along whole runs.
- `run_countdown`: phases that lose one unit at every step are over after as many steps.
- `eventually_of_rank`: along a sequence, a rank that drops sooner or later until the goal holds reaches the goal.
- `run_latest`: a component that inputs set or leave alone holds what the latest of them set.
- `withHistory`: a machine paired with a history variable that reads each step and never influences it
  (`along_withHistory`); `traced` keeps every step.
-/
import Mathlib.Tactic

namespace IoThreadController.Core

variable {σ ι γ : Type*}

/-! ## Runs -/

def run (step : σ → ι → σ) (s : σ) (es : List ι) : σ := es.foldl step s

@[simp] theorem run_nil (step : σ → ι → σ) (s : σ) : run step s [] = s := rfl

@[simp] theorem run_cons (step : σ → ι → σ) (s : σ) (e : ι) (es : List ι) :
    run step s (e :: es) = run step (step s e) es := rfl

theorem run_append (step : σ → ι → σ) (s : σ) (a b : List ι) :
    run step s (a ++ b) = run step (run step s a) b := by
  simp [run, List.foldl_append]

/-- `P` holds at every step of the run from `s`: of the state before the step and of the step's input -/
def Along (step : σ → ι → σ) (P : σ → ι → Prop) : σ → List ι → Prop
  | _, [] => True
  | s, e :: es => P s e ∧ Along step P (step s e) es

instance Along.decidable (step : σ → ι → σ) (P : σ → ι → Prop) [∀ s e, Decidable (P s e)] :
    ∀ (s : σ) (es : List ι), Decidable (Along step P s es)
  | _, [] => inferInstanceAs (Decidable True)
  | s, e :: es =>
    have := Along.decidable step P (step s e) es
    inferInstanceAs (Decidable (P s e ∧ Along step P (step s e) es))

theorem along_append (step : σ → ι → σ) (P : σ → ι → Prop) (s : σ) (a b : List ι) :
    Along step P s (a ++ b) ↔ Along step P s a ∧ Along step P (run step s a) b := by
  induction a generalizing s with
  | nil => simp [Along]
  | cons e a ih => simp [Along, ih, and_assoc]

/-- what every input of the run has holds along the run -/
theorem along_of_forall (step : σ → ι → σ) (s : σ) {P : ι → Prop} {es : List ι} (h : ∀ e ∈ es, P e) :
    Along step (fun _ e => P e) s es := by
  induction es generalizing s with
  | nil => trivial
  | cons e es ih => exact ⟨h e List.mem_cons_self, ih _ fun e' he' => h e' (List.mem_cons_of_mem e he')⟩

theorem along_true (step : σ → ι → σ) (s : σ) (es : List ι) : Along step (fun _ _ => True) s es :=
  along_of_forall step s fun _ _ => trivial

theorem Along.imp {step : σ → ι → σ} {P Q : σ → ι → Prop} (h : ∀ s e, P s e → Q s e) {s : σ} {es : List ι}
    (hP : Along step P s es) : Along step Q s es := by
  induction es generalizing s with
  | nil => trivial
  | cons e es ih => exact ⟨h s e hP.1, ih hP.2⟩

theorem Along.and {step : σ → ι → σ} {P Q : σ → ι → Prop} {s : σ} {es : List ι} (hP : Along step P s es)
    (hQ : Along step Q s es) : Along step (fun s e => P s e ∧ Q s e) s es := by
  induction es generalizing s with
  | nil => trivial
  | cons e es ih => exact ⟨⟨hP.1, hQ.1⟩, ih hP.2 hQ.2⟩

/-! ## Invariant rules -/

/-- an invariant preserved by the steps that meet `C` holds at the end of a run whose steps all meet `C` -/
theorem run_inv {step : σ → ι → σ} {C : σ → ι → Prop} (Inv : σ → Prop)
    (hstep : ∀ s e, Inv s → C s e → Inv (step s e)) {s : σ} {es : List ι} (hs : Inv s) (hC : Along step C s es) :
    Inv (run step s es) := by
  induction es generalizing s with
  | nil => exact hs
  | cons e es ih => exact ih (hstep s e hs hC.1) hC.2

/-- a step property that follows from the invariant and the step condition holds along the run -/
theorem along_of_inv {step : σ → ι → σ} {C P : σ → ι → Prop} (Inv : σ → Prop)
    (hstep : ∀ s e, Inv s → C s e → Inv (step s e)) (hP : ∀ s e, Inv s → C s e → P s e) {s : σ} {es : List ι}
    (hs : Inv s) (hC : Along step C s es) : Along step P s es := by
  induction es generalizing s with
  | nil => trivial
  | cons e es ih => exact ⟨hP s e hs hC.1, ih (hstep s e hs hC.1) hC.2⟩

/-- step properties that agree on invariant states agree along every run whose steps all meet the condition -/
theorem along_iff_of_inv {step : σ → ι → σ} {C P Q : σ → ι → Prop} (Inv : σ → Prop)
    (hstep : ∀ s e, Inv s → C s e → Inv (step s e)) (h : ∀ s e, Inv s → C s e → (P s e ↔ Q s e)) {s : σ}
    {es : List ι} (hs : Inv s) (hC : Along step C s es) : Along step P s es ↔ Along step Q s es := by
  induction es generalizing s with
  | nil => exact Iff.rfl
  | cons e es ih => exact and_congr (h s e hs hC.1) (ih (hstep s e hs hC.1) hC.2)

/-- phases that lose one unit at every step: `es.length` steps after phase `k + es.length` is phase `k` -/
theorem run_countdown {step : σ → ι → σ} {C : σ → ι → Prop} (Phase : ℕ → σ → Prop)
    (hstep : ∀ k s e, Phase (k + 1) s → C s e → Phase k (step s e)) {k : ℕ} {s : σ} {es : List ι}
    (hs : Phase (k + es.length) s) (hC : Along step C s es) : Phase k (run step s es) := by
  induction es generalizing s with
  | nil => exact hs
  | cons e es ih =>
    apply ih _ hC.2
    exact hstep _ s e hs hC.1

/-- a rank that sooner or later drops as long as the goal does not hold reaches the goal -/
theorem eventually_of_rank {Goal : ℕ → Prop} (rank : ℕ → ℕ)
    (h : ∀ k, ¬ Goal k → ∃ j, k ≤ j ∧ (Goal j ∨ rank j < rank k)) (k : ℕ) : ∃ j, k ≤ j ∧ Goal j := by
  induction hr : rank k using Nat.strong_induction_on generalizing k with
  | _ r ih =>
    by_cases hk : Goal k
    · exact ⟨k, le_rfl, hk⟩
    · obtain ⟨j, hkj, hgoal | hlt⟩ := h k hk
      · exact ⟨j, hkj, hgoal⟩
      · obtain ⟨i, hji, hi⟩ := ih (rank j) (hr ▸ hlt) j rfl
        exact ⟨i, hkj.trans hji, hi⟩

/-! ## Inputs that set -/

/-- what each input sets or leaves alone is, after a run, what the latest input that sets it has set -/
theorem run_latest {step : σ → ι → σ} (read : σ → Option γ) (sets : ι → Option γ)
    (h : ∀ s e, read (step s e) = (sets e).or (read s)) (s : σ) (es : List ι) :
    read (run step s es) = (es.filterMap sets).getLast?.or (read s) := by
  induction es using List.reverseRecOn with
  | nil => rfl
  | append_singleton es e ih =>
    rw [run_append, run_cons, run_nil, h, ih, List.filterMap_append]
    cases he : sets e with
    | none => simp [he]
    | some v => simp [he]

/-! ## History variables -/

/-- the machine paired with a history variable: `note` reads the state, the input and the history so far -/
def withHistory (step : σ → ι → σ) (note : σ → ι → γ → γ) : σ × γ → ι → σ × γ :=
  fun p e => (step p.1 e, note p.1 e p.2)

/-- what holds along the run of the machine holds along the run with history -/
theorem along_withHistory {step : σ → ι → σ} (note : σ → ι → γ → γ) {P : σ → ι → Prop} {p : σ × γ} {es : List ι}
    (h : Along step P p.1 es) : Along (withHistory step note) (fun q e => P q.1 e) p es := by
  induction es generalizing p with
  | nil => trivial
  | cons e es ih => exact ⟨h.1, ih h.2⟩

/-- the machine with the states and inputs of its steps, the latest one first -/
def traced (step : σ → ι → σ) : σ × List (σ × ι) → ι → σ × List (σ × ι) :=
  withHistory step fun s e trace => (s, e) :: trace

end IoThreadController.Core

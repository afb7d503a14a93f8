import Mathlib

/-!
# Machines that refuse

A machine is offered actions one after another.  It takes an action and moves
to a new state, or refuses it and stays as it was.  `Accepted` relates the
actions taken so far, in order, to the state they lead to.
-/

/-- From `start` the machine was offered any actions, took `actions` in this
order and refused the others; now it is in a state. -/
inductive Accepted {σ α : Type*} (step : σ → α → Option σ) (start : σ) :
    List α → σ → Prop where
  | start : Accepted step start [] start
  | took {actions : List α} {state after : σ} {action : α}
      (earlier : Accepted step start actions state)
      (taken : step state action = some after) :
      Accepted step start (actions ++ [action]) after
  | refused {actions : List α} {state : σ} {action : α}
      (earlier : Accepted step start actions state)
      (refused : step state action = none) :
      Accepted step start actions state

namespace Accepted

variable {σ α : Type*} {step : σ → α → Option σ} {start state : σ}
  {actions : List α}

/-- The rule of invariants: what every action taken from a reached state
preserves holds after every run. -/
theorem invariant (Holds : List α → σ → Prop)
    (initially : Holds [] start)
    (preserved : ∀ {actions state action after},
      Accepted step start actions state → Holds actions state →
        step state action = some after → Holds (actions ++ [action]) after)
    (run : Accepted step start actions state) : Holds actions state := by
  induction run with
  | start => exact initially
  | took earlier taken induction => exact preserved earlier induction taken
  | refused earlier refused induction => exact induction

/-- The state is determined by the actions taken. -/
theorem foldlM_eq (run : Accepted step start actions state) :
    actions.foldlM step start = some state := by
  induction run with
  | start => rfl
  | took earlier taken induction =>
      rw [List.foldlM_append, induction]
      simp [taken]
  | refused earlier refused induction => exact induction

theorem of_foldlM (folded : actions.foldlM step start = some state) :
    Accepted step start actions state := by
  induction actions using List.reverseRecOn generalizing state with
  | nil =>
      cases folded
      exact .start
  | append_singleton actions action induction =>
      rw [List.foldlM_append] at folded
      obtain ⟨middle, first, last⟩ := Option.bind_eq_some_iff.mp folded
      apply took (induction first)
      simpa using last

/-- A run passes through the state each of its actions was taken in. -/
theorem split {before after : List α} {action : α}
    (run : Accepted step start (before ++ action :: after) state) :
    ∃ middle next, Accepted step start before middle ∧
      step middle action = some next ∧ Accepted step next after state := by
  have folded := run.foldlM_eq
  rw [List.foldlM_append] at folded
  obtain ⟨middle, first, rest⟩ := Option.bind_eq_some_iff.mp folded
  rw [List.foldlM_cons] at rest
  obtain ⟨next, taken, last⟩ := Option.bind_eq_some_iff.mp rest
  exact ⟨middle, next, of_foldlM first, taken, of_foldlM last⟩

theorem append {middle : σ} {first second : List α}
    (run : Accepted step start first middle)
    (continued : Accepted step middle second state) :
    Accepted step start (first ++ second) state := by
  apply of_foldlM
  rw [List.foldlM_append, run.foldlM_eq]
  exact continued.foldlM_eq

end Accepted

import Mathlib.Logic.Basic

/-!
# Finite runs of a labelled transition system

A run fires a list of labels in order.  An invariant is proved once for a step
and then holds along every run; a side condition on the labels may be needed to
keep it, and then it holds along every run whose labels all meet the condition.
-/

set_option autoImplicit false

namespace LabelledRun

variable {State Label : Type}

inductive Run (step : State → Label → State → Prop) : State → List Label → State → Prop
  | done (s : State) : Run step s [] s
  | fire {s middle final : State} {label : Label} {rest : List Label}
      (first : step s label middle) (later : Run step middle rest final) :
      Run step s (label :: rest) final

variable {step : State → Label → State → Prop}

theorem Run.of_append {s final : State} {before after : List Label}
    (run : Run step s (before ++ after) final) :
    ∃ middle, Run step s before middle ∧ Run step middle after final := by
  induction before generalizing s with
  | nil => exact ⟨s, .done s, run⟩
  | cons label rest ih =>
      cases run with
      | fire first later =>
          obtain ⟨middle, prefixRun, suffixRun⟩ := ih later
          exact ⟨middle, .fire first prefixRun, suffixRun⟩

theorem Run.cons_iff {s final : State} {label : Label} {rest : List Label} :
    Run step s (label :: rest) final ↔ ∃ middle, step s label middle ∧ Run step middle rest final := by
  constructor
  · intro run
    cases run with
    | fire first later => exact ⟨_, first, later⟩
  · rintro ⟨middle, first, later⟩
    exact .fire first later

theorem Run.invariant (holds : State → Prop) (allowed : Label → Prop)
    (keep : ∀ s label s', holds s → allowed label → step s label s' → holds s')
    {s final : State} {labels : List Label} (run : Run step s labels final)
    (start : holds s) (every : ∀ label ∈ labels, allowed label) : holds final := by
  induction run with
  | done => exact start
  | @fire s middle final label rest first later ih =>
      have middleHolds := keep s label middle start (every label (by simp)) first
      exact ih middleHolds fun other member => every other (by simp [member])

/-- Every label of a run was fired from a state where the invariant holds. -/
theorem Run.fired (holds : State → Prop) (allowed : Label → Prop)
    (keep : ∀ s label s', holds s → allowed label → step s label s' → holds s')
    {s final : State} {labels : List Label} (run : Run step s labels final)
    (start : holds s) (every : ∀ label ∈ labels, allowed label) :
    ∀ label ∈ labels, ∃ before after, holds before ∧ step before label after := by
  induction run with
  | done => intro label member; cases member
  | @fire s middle final label rest first later ih =>
      intro other member
      rcases List.mem_cons.mp member with rfl | member
      · exact ⟨s, middle, start, first⟩
      · have middleHolds := keep s label middle start (every label (by simp)) first
        exact ih middleHolds (fun l inRest => every l (by simp [inRest])) other member

end LabelledRun

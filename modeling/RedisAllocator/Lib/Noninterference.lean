import Mathlib.Data.List.Basic

/-!
# Noninterference by unwinding

An observer sees the answers to some turns of a run and nothing of the others.  If
the unseen turns leave the part of the state that the seen ones depend on alone,
the answers are those of the run without the unseen turns.
-/

set_option autoImplicit false

namespace Noninterference

variable {σ φ α : Type}

inductive Turn (σ α : Type)
  | seen (step : σ → α × σ)
  | unseen (step : σ → σ)

def Turn.isSeen : Turn σ α → Bool
  | .seen _ => true
  | .unseen _ => false

def answers : List (Turn σ α) → σ → List α
  | [], _ => []
  | .seen step :: rest, s => (step s).1 :: answers rest (step s).2
  | .unseen step :: rest, s => answers rest (step s)

/-- `part` decides the answer and its own next value in a seen turn, and stays in an unseen one. -/
def Turn.Respects (part : σ → φ) : Turn σ α → Prop
  | .seen step => ∀ s t, part s = part t →
      (step s).1 = (step t).1 ∧ part (step s).2 = part (step t).2
  | .unseen step => ∀ s, part (step s) = part s

theorem answers_purge (part : σ → φ) (turns : List (Turn σ α))
    (respects : ∀ turn ∈ turns, turn.Respects part) {s t : σ} (same : part s = part t) :
    answers turns s = answers (turns.filter Turn.isSeen) t := by
  induction turns generalizing s t with
  | nil => rfl
  | cons turn rest ih =>
      have first := respects turn (List.mem_cons_self ..)
      have later := fun other inRest => respects other (List.mem_cons_of_mem turn inRest)
      cases turn with
      | seen step =>
          obtain ⟨answer, next⟩ := first s t same
          rw [List.filter_cons_of_pos rfl, answers, answers, answer, ih later next]
      | unseen step =>
          rw [List.filter_cons_of_neg (by simp [Turn.isSeen]), answers]
          exact ih later ((first s).trans same)

end Noninterference

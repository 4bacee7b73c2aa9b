import Mathlib.Data.List.Induction
import RedisAllocator.Lib.LabelledRun

/-!
# What a run remembers

A state that some label turns on and another turns off is told from the labels
alone: the last of the two decides.
-/

set_option autoImplicit false

namespace LabelledRun

variable {State Label : Type} {step : State → Label → State → Prop}

/-- An invariant that speaks of the labels fired so far -/
theorem Run.history (holds : List Label → State → Prop)
    (keep : ∀ past s label s', holds past s → step s label s' → holds (past ++ [label]) s')
    {s final : State} {labels : List Label} (run : Run step s labels final) {past : List Label}
    (start : holds past s) : holds (past ++ labels) final := by
  induction run generalizing past with
  | done s => rwa [List.append_nil]
  | @fire s middle final label rest first later ih =>
      have next := ih (keep past s label middle start first)
      rwa [List.append_assoc, List.singleton_append] at next

def HandsOn {V : Type} : V → List (V × V) → V → Prop
  | first, [], last => first = last
  | first, (read, written) :: rest, last => read = first ∧ HandsOn written rest last

/-- A register that only some labels use, each of which reads it and writes it: whoever they come
from, they hand its value on. -/
theorem Run.handsOn {V : Type} (register : State → V) (uses : Label → Option (V × V))
    (holds : State → Prop)
    (keep : ∀ s label s', holds s → step s label s' → holds s' ∧
      match uses label with
      | none => register s' = register s
      | some (read, written) => read = register s ∧ register s' = written)
    {s final : State} {labels : List Label} (run : Run step s labels final) (start : holds s) :
    HandsOn (register s) (labels.filterMap uses) (register final) := by
  induction run with
  | done => rfl
  | @fire s middle final label rest first later ih =>
      obtain ⟨next, used⟩ := keep s label middle start first
      have onwards := ih next
      cases use : uses label with
      | none =>
          rw [use] at used
          rw [List.filterMap_cons_none use]
          rwa [used] at onwards
      | some entry =>
          rw [use] at used
          rw [List.filterMap_cons_some use]
          exact ⟨used.1, used.2 ▸ onwards⟩

/-- A label opened, and none has closed since. -/
def Standing (opens closes : Label → Prop) (past : List Label) : Prop :=
  ∃ earlier label later, past = earlier ++ label :: later ∧ opens label ∧
    ∀ other ∈ later, ¬ closes other

section Standing

variable {opens opens' closes : Label → Prop} {past : List Label} {label : Label}

theorem not_standing_nil : ¬ Standing opens closes [] := by
  rintro ⟨earlier, label, later, split, _⟩
  cases earlier <;> cases split

theorem standing_snoc :
    Standing opens closes (past ++ [label]) ↔
      opens label ∨ Standing opens closes past ∧ ¬ closes label := by
  constructor
  · rintro ⟨earlier, opener, later, split, opened, open_⟩
    rcases List.eq_nil_or_concat later with rfl | ⟨rest, last, rfl⟩
    · obtain ⟨_, same⟩ := List.append_inj' split rfl
      cases same
      exact .inl opened
    · rw [List.concat_eq_append, ← List.cons_append, ← List.append_assoc] at split
      obtain ⟨same, sameLast⟩ := List.append_inj' split rfl
      cases sameLast
      exact .inr ⟨⟨earlier, opener, rest, same, opened, fun other inRest =>
        open_ other (by simp [inRest])⟩, open_ label (by simp)⟩
  · rintro (opened | ⟨⟨earlier, opener, later, rfl, opened, open_⟩, stays⟩)
    · exact ⟨past, label, [], rfl, opened, fun other inNil => absurd inNil List.not_mem_nil⟩
    · refine ⟨earlier, opener, later ++ [label], by simp, opened, fun other inLater => ?_⟩
      rcases List.mem_append.mp inLater with inLater | isLast
      · exact open_ other inLater
      · exact List.mem_singleton.mp isLast ▸ stays

theorem Standing.imp (standing : Standing opens closes past)
    (implies : ∀ label ∈ past, opens label → opens' label) : Standing opens' closes past := by
  obtain ⟨earlier, label, later, rfl, opened, open_⟩ := standing
  exact ⟨earlier, label, later, rfl, implies label (by simp) opened, open_⟩

theorem Standing.opened (standing : Standing opens closes past) : ∃ label ∈ past, opens label := by
  obtain ⟨earlier, label, later, rfl, opened, _⟩ := standing
  exact ⟨label, by simp, opened⟩

theorem Standing.before {later : List Label} (standing : Standing opens closes (past ++ later))
    (shut : ∀ label ∈ later, ¬ opens label) : Standing opens closes past := by
  induction later using List.reverseRecOn with
  | nil => rwa [List.append_nil] at standing
  | append_singleton rest last ih =>
      rw [← List.append_assoc] at standing
      have stood := (standing_snoc.mp standing).resolve_left (shut last (by simp))
      exact ih stood.1 fun label inRest => shut label (by simp [inRest])

end Standing

end LabelledRun

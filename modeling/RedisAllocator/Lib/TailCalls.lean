import RedisAllocator.Lib.AbortableScript

/-!
# Scripts that end by calling themselves

`call` is one call of a script that in some of its branches calls itself again,
and does nothing after that.  `Ends` is the recursion run to its end, with the
number of calls made; `bounded` is the recursion cut off after so many calls.
A measure that every call before the last lowers bounds the number of calls, and
from that number on the cut makes no difference.
-/

set_option autoImplicit false

namespace AbortableScript.Script

variable {σ ε α : Type}

/-- Started from `s`, the recursion of `call` ends in so many calls with this outcome.  A reply
`none` stands for the call to itself. -/
inductive Ends (call : Script σ ε (Option α)) : σ → Nat → Except ε α × σ → Prop
  | returns {s s' : σ} {a : α} (run : call s = (.ok (some a), s')) : Ends call s 1 (.ok a, s')
  | raises {s s' : σ} {e : ε} (run : call s = (.error e, s')) : Ends call s 1 (.error e, s')
  | again {s s' : σ} {calls : Nat} {outcome : Except ε α × σ} (run : call s = (.ok none, s'))
      (rest : Ends call s' calls outcome) : Ends call s (calls + 1) outcome

/-- The recursion of `call`, stopped with `limit` when the last of `fuel` calls asks for more. -/
def bounded (limit : ε) (call : Script σ ε (Option α)) : Nat → Script σ ε α
  | 0 => abort limit
  | fuel + 1 => do
    match ← call with
    | some a => pure a
    | none => bounded limit call fuel

section Ends

variable {call : Script σ ε (Option α)} {s : σ} {calls : Nat} {outcome : Except ε α × σ}

theorem Ends.lastCall (ends : Ends call s calls outcome) :
    ∃ final, call final = (outcome.1.map some, outcome.2) := by
  induction ends with
  | returns run => exact ⟨_, run⟩
  | raises run => exact ⟨_, run⟩
  | again _ _ ih => exact ih

theorem Ends.bounded_eq (limit : ε) (ends : Ends call s calls outcome) :
    ∀ {fuel : Nat}, calls ≤ fuel → bounded limit call fuel s = outcome := by
  induction ends with
  | returns run =>
      intro fuel enough
      obtain ⟨fuel, rfl⟩ := Nat.exists_eq_add_of_le' enough
      rw [bounded, bind_ok run]
      rfl
  | raises run =>
      intro fuel enough
      obtain ⟨fuel, rfl⟩ := Nat.exists_eq_add_of_le' enough
      rw [bounded, bind_error run]
  | again run rest ih =>
      intro fuel enough
      obtain ⟨fuel, rfl⟩ := Nat.exists_eq_add_of_le' (Nat.le_trans (Nat.le_add_left 1 _) enough)
      rw [bounded, bind_ok run]
      exact ih (Nat.le_of_succ_le_succ enough)

end Ends

theorem bounded_ok {limit : ε} {call : Script σ ε (Option α)} (I : σ → Prop)
    (step : ∀ s s', I s → call s = (.ok none, s') → I s') {a : α} {final : σ} :
    ∀ (fuel : Nat) (s : σ), I s → bounded limit call fuel s = (.ok a, final) →
      ∃ last, I last ∧ call last = (.ok (some a), final) := by
  intro fuel
  induction fuel with
  | zero => intro s _ run; cases run
  | succ fuel ih =>
      intro s holds run
      rw [bounded] at run
      obtain ⟨reply, middle, first, later⟩ := of_bind_ok run
      cases reply with
      | none => exact ih middle (step s middle holds first) later
      | some a' =>
          cases later
          exact ⟨s, holds, first⟩

/-- `I` holds before every call and `measure` falls with each call that is not the last. -/
theorem ends_of_measure {call : Script σ ε (Option α)} (I : σ → Prop) (measure : σ → Nat)
    (step : ∀ s s', I s → call s = (.ok none, s') → I s' ∧ measure s' < measure s) :
    ∀ (s : σ), I s → ∃ calls ≤ measure s + 1, ∃ outcome, Ends call s calls outcome := by
  intro s
  induction h : measure s using Nat.strongRecOn generalizing s with
  | ind bound ih =>
      intro holds
      subst h
      cases run : call s with
      | mk reply s' =>
          match reply, run with
          | .error e, run => exact ⟨1, Nat.le_add_left _ _, _, .raises run⟩
          | .ok (some a), run => exact ⟨1, Nat.le_add_left _ _, _, .returns run⟩
          | .ok none, run =>
              obtain ⟨holds', lower⟩ := step s s' holds run
              obtain ⟨calls, few, outcome, rest⟩ := ih _ lower s' rfl holds'
              exact ⟨calls + 1, by omega, outcome, .again run rest⟩

theorem not_ends {call : Script σ ε (Option α)} (I : σ → Prop)
    (step : ∀ s, I s → ∃ s', call s = (.ok none, s') ∧ I s') {s : σ} {calls : Nat}
    {outcome : Except ε α × σ} (ends : Ends call s calls outcome) : ¬ I s := by
  induction ends with
  | returns run =>
      intro holds
      obtain ⟨_, again, _⟩ := step _ holds
      rw [run] at again
      cases again
  | raises run =>
      intro holds
      obtain ⟨_, again, _⟩ := step _ holds
      rw [run] at again
      cases again
  | again run _ ih =>
      intro holds
      obtain ⟨_, again, holds'⟩ := step _ holds
      rw [run] at again
      cases again
      exact ih holds'

end AbortableScript.Script

import RedisAllocator.Lib.AbortableScript

/-!
# Two scripts side by side

The scripts run over different states.  From related states they stop with the
same error or return related values, and in either case leave related states.
One rule for each way of composing scripts.
-/

set_option autoImplicit false

namespace AbortableScript

namespace Script

variable {τ σ ε α β γ δ ι : Type}

/-- The same error twice, or two values that `value` relates. -/
inductive Outcomes (value : β → α → Prop) : Except ε β → Except ε α → Prop
  | ok {b : β} {a : α} (related : value b a) : Outcomes value (.ok b) (.ok a)
  | error (e : ε) : Outcomes value (.error e) (.error e)

theorem Outcomes.eq {b a : Except ε α} (outcomes : Outcomes Eq b a) : b = a := by
  cases outcomes with
  | ok same => rw [same]
  | error e => rfl

def Pairs (state : τ → σ → Prop) (value : β → α → Prop) (y : Script τ ε β) (x : Script σ ε α) :
    Prop :=
  ∀ t s, state t s → Outcomes value (y t).1 (x s).1 ∧ state (y t).2 (x s).2

namespace Pairs

variable {state : τ → σ → Prop} {value : β → α → Prop} {value' : δ → γ → Prop}

theorem pure {b : β} {a : α} (related : value b a) :
    Pairs state value (Pure.pure b : Script τ ε β) (Pure.pure a : Script σ ε α) :=
  fun _ _ start => ⟨.ok related, start⟩

theorem abort (e : ε) :
    Pairs state value (Script.abort e : Script τ ε β) (Script.abort e : Script σ ε α) :=
  fun _ _ start => ⟨.error e, start⟩

theorem abort_bind (e : ε) {g : β → Script τ ε δ} {f : α → Script σ ε γ} :
    Pairs state value' (Script.abort e >>= g) (Script.abort e >>= f) :=
  fun _ _ start => ⟨.error e, start⟩

theorem read {g : τ → β} {f : σ → α} (related : ∀ t s, state t s → value (g t) (f s)) :
    Pairs state value (Script.read g : Script τ ε β) (Script.read f) :=
  fun t s start => ⟨.ok (related t s start), start⟩

theorem write {g : τ → τ} {f : σ → σ} (related : ∀ t s, state t s → state (g t) (f s)) :
    Pairs state Eq (Script.write g : Script τ ε Unit) (Script.write f) :=
  fun t s start => ⟨.ok rfl, related t s start⟩

theorem bind {y : Script τ ε β} {x : Script σ ε α} {g : β → Script τ ε δ} {f : α → Script σ ε γ}
    (first : Pairs state value y x)
    (later : ∀ b a, value b a → Pairs state value' (g b) (f a)) :
    Pairs state value' (y >>= g) (x >>= f) := by
  intro t s start
  obtain ⟨outcomes, middle⟩ := first t s start
  rw [bind_apply, bind_apply]
  generalize y t = left at outcomes middle ⊢
  generalize x s = right at outcomes middle ⊢
  obtain ⟨left, t'⟩ := left
  obtain ⟨right, s'⟩ := right
  cases outcomes with
  | ok related => exact later _ _ related t' s' middle
  | error e => exact ⟨.error e, middle⟩

/-- Where only the effect of the first part matters. -/
theorem seq {y : Script τ ε Unit} {x : Script σ ε Unit} {g : Unit → Script τ ε δ}
    {f : Unit → Script σ ε γ} (first : Pairs state Eq y x)
    (later : Pairs state value' (g ()) (f ())) : Pairs state value' (y >>= g) (x >>= f) :=
  first.bind fun _ _ _ => later

theorem ite {p q : Prop} [Decidable p] [Decidable q] {y y' : Script τ ε β} {x x' : Script σ ε α}
    (same : p ↔ q) (yes : q → Pairs state value y x) (no : ¬ q → Pairs state value y' x') :
    Pairs state value (if p then y else y') (if q then x else x') := by
  by_cases holds : q
  · rw [if_pos holds, if_pos (same.mpr holds)]
    exact yes holds
  · rw [if_neg holds, if_neg (mt same.mp holds)]
    exact no holds

theorem forM {body : ι → Script τ ε PUnit} {body' : ι → Script σ ε PUnit} {items : List ι}
    (each : ∀ i ∈ items, Pairs state Eq (body i) (body' i)) :
    Pairs state Eq (items.forM body) (items.forM body') := by
  induction items with
  | nil => exact .pure rfl
  | cons i rest ih =>
      rw [List.forall_mem_cons] at each
      exact each.1.bind fun _ _ _ => ih each.2

theorem foldlM {f : β → ι → Script τ ε β} {f' : α → ι → Script σ ε α}
    (each : ∀ b a i, value b a → Pairs state value (f b i) (f' a i)) (items : List ι) {b : β} {a : α}
    (start : value b a) : Pairs state value (items.foldlM f b) (items.foldlM f' a) := by
  induction items generalizing b a with
  | nil => exact .pure start
  | cons i rest ih => exact (each b a i start).bind fun _ _ related => ih related

end Pairs

end Script

end AbortableScript

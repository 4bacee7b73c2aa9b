import Mathlib.Order.Defs.Unbundled

/-!
# Scripts that abort without rolling back

A script reads and writes a state and may stop with an error at any point.  The
writes made before the error stay: the state reached by an aborted run is part
of its outcome.  The rules below compose complete runs, carry an invariant
through the two list loops, and frame the parts of the state a script never
writes.
-/

set_option autoImplicit false

namespace AbortableScript

/-- A program over `σ` with errors `ε`; an abort keeps the state reached. -/
def Script (σ ε α : Type) : Type := σ → Except ε α × σ

namespace Script

variable {σ ε α β γ φ : Type}

instance : Monad (Script σ ε) where
  pure a := fun s => (.ok a, s)
  bind x f := fun s =>
    match x s with
    | (.ok a, s') => f a s'
    | (.error e, s') => (.error e, s')

def abort (e : ε) : Script σ ε α := fun s => (.error e, s)

def read (f : σ → α) : Script σ ε α := fun s => (.ok (f s), s)

def write (f : σ → σ) : Script σ ε Unit := fun s => (.ok (), f s)

@[simp] theorem pure_apply (a : α) (s : σ) : (pure a : Script σ ε α) s = (.ok a, s) := rfl

@[simp] theorem abort_apply (e : ε) (s : σ) : (abort e : Script σ ε α) s = (.error e, s) := rfl

@[simp] theorem read_apply (f : σ → α) (s : σ) : (read f : Script σ ε α) s = (.ok (f s), s) := rfl

@[simp] theorem write_apply (f : σ → σ) (s : σ) :
    (write f : Script σ ε Unit) s = (.ok (), f s) := rfl

theorem bind_apply (x : Script σ ε α) (f : α → Script σ ε β) (s : σ) :
    (x >>= f) s =
      match x s with
      | (.ok a, s') => f a s'
      | (.error e, s') => (.error e, s') := rfl

theorem bind_ok {x : Script σ ε α} {f : α → Script σ ε β} {s s' : σ} {a : α}
    (run : x s = (.ok a, s')) : (x >>= f) s = f a s' := by
  rw [bind_apply, run]

theorem bind_error {x : Script σ ε α} {f : α → Script σ ε β} {s s' : σ} {e : ε}
    (run : x s = (.error e, s')) : (x >>= f) s = (.error e, s') := by
  rw [bind_apply, run]

theorem of_bind_ok {x : Script σ ε α} {f : α → Script σ ε β} {s s' : σ} {b : β}
    (run : (x >>= f) s = (.ok b, s')) : ∃ a middle, x s = (.ok a, middle) ∧
      f a middle = (.ok b, s') := by
  rw [bind_apply] at run
  cases first : x s with
  | mk result middle =>
      rw [first] at run
      cases result with
      | error e => cases run
      | ok a => exact ⟨a, middle, rfl, run⟩

theorem bind_bind (x : Script σ ε α) (f : α → Script σ ε β) (g : β → Script σ ε γ) :
    ((x >>= f) >>= g) = (x >>= fun a => f a >>= g) := by
  funext s
  rw [bind_apply, bind_apply, bind_apply]
  obtain ⟨_ | a, middle⟩ := x s <;> rfl

@[simp] theorem pure_bind_apply (a : α) (f : α → Script σ ε β) (s : σ) :
    (pure a >>= f) s = f a s := rfl

@[simp] theorem read_bind_apply (g : σ → α) (f : α → Script σ ε β) (s : σ) :
    (read g >>= f) s = f (g s) s := rfl

@[simp] theorem write_bind_apply (g : σ → σ) (f : Unit → Script σ ε β) (s : σ) :
    (write g >>= f) s = f () (g s) := rfl

@[simp] theorem abort_bind_apply (e : ε) (f : α → Script σ ε β) (s : σ) :
    ((abort e : Script σ ε α) >>= f) s = (.error e, s) := rfl

/-! ## Loops that run to completion -/

@[simp] theorem forM_nil_apply (body : α → Script σ ε PUnit) (s : σ) :
    ([] : List α).forM body s = (.ok (), s) := rfl

theorem forM_cons_apply (x : α) (rest : List α) (body : α → Script σ ε PUnit) (s : σ) :
    (x :: rest).forM body s = (body x >>= fun _ => rest.forM body) s := rfl

theorem foldlM_cons_apply (f : β → α → Script σ ε β) (b : β) (x : α) (rest : List α) (s : σ) :
    (x :: rest).foldlM f b s = (f b x >>= fun b' => rest.foldlM f b') s := rfl

/-- `I rest s` is what holds when `rest` is still to be visited. -/
theorem forM_completes (I : List α → σ → Prop) (body : α → Script σ ε PUnit)
    (step : ∀ x rest s, I (x :: rest) s → ∃ s', body x s = (.ok (), s') ∧ I rest s') :
    ∀ (items : List α) (s : σ), I items s →
      ∃ s', items.forM body s = (.ok (), s') ∧ I [] s' := by
  intro items
  induction items with
  | nil => intro s holds; exact ⟨s, rfl, holds⟩
  | cons x rest ih =>
      intro s holds
      obtain ⟨middle, first, middleHolds⟩ := step x rest s holds
      obtain ⟨final, later, finalHolds⟩ := ih middle middleHolds
      refine ⟨final, ?_, finalHolds⟩
      rw [forM_cons_apply, bind_ok first, later]

theorem foldlM_completes (I : β → List α → σ → Prop) (f : β → α → Script σ ε β)
    (step : ∀ b x rest s, I b (x :: rest) s → ∃ b' s', f b x s = (.ok b', s') ∧ I b' rest s') :
    ∀ (items : List α) (b : β) (s : σ), I b items s →
      ∃ b' s', items.foldlM f b s = (.ok b', s') ∧ I b' [] s' := by
  intro items
  induction items with
  | nil => intro b s holds; exact ⟨b, s, rfl, holds⟩
  | cons x rest ih =>
      intro b s holds
      obtain ⟨middleValue, middle, first, middleHolds⟩ := step b x rest s holds
      obtain ⟨finalValue, final, later, finalHolds⟩ := ih middleValue middle middleHolds
      refine ⟨finalValue, final, ?_, finalHolds⟩
      rw [foldlM_cons_apply, bind_ok first, later]

/-! ## Frames -/

/-- Whatever the outcome, `x` leaves the part `part` of the state as it was. -/
def Keeps (part : σ → φ) (x : Script σ ε α) : Prop := ∀ s, part (x s).2 = part s

section Keeps

variable {part : σ → φ}

theorem Keeps.pure (a : α) : Keeps part (Pure.pure a : Script σ ε α) := fun _ => rfl

theorem Keeps.abort (e : ε) : Keeps part (Script.abort e : Script σ ε α) := fun _ => rfl

theorem Keeps.read (f : σ → α) : Keeps part (Script.read f : Script σ ε α) := fun _ => rfl

theorem Keeps.write {f : σ → σ} (same : ∀ s, part (f s) = part s) :
    Keeps part (Script.write f : Script σ ε Unit) := same

theorem Keeps.bind {x : Script σ ε α} {f : α → Script σ ε β}
    (first : Keeps part x) (later : ∀ a, Keeps part (f a)) : Keeps part (x >>= f) := by
  intro s
  rw [bind_apply]
  have kept := first s
  generalize x s = outcome at kept ⊢
  obtain ⟨_ | a, middle⟩ := outcome
  · exact kept
  · exact (later a middle).trans kept

theorem Keeps.ite {c : Prop} [Decidable c] {x y : Script σ ε α}
    (yes : Keeps part x) (no : Keeps part y) : Keeps part (if c then x else y) := by
  split
  · exact yes
  · exact no

theorem Keeps.forM {body : α → Script σ ε PUnit} (each : ∀ x, Keeps part (body x)) :
    ∀ items : List α, Keeps part (items.forM body) := by
  intro items
  induction items with
  | nil => exact fun _ => rfl
  | cons x rest ih => exact Keeps.bind (each x) fun _ => ih

theorem Keeps.foldlM {f : β → α → Script σ ε β} (each : ∀ b x, Keeps part (f b x)) :
    ∀ (items : List α) (b : β), Keeps part (items.foldlM f b) := by
  intro items
  induction items with
  | nil => exact fun _ _ => rfl
  | cons x rest ih => exact fun b => Keeps.bind (each b x) fun b' => ih b'

end Keeps

theorem bind_snd_self {x : Script σ ε α} {f : α → Script σ ε β} {s : σ} (first : (x s).2 = s)
    (later : ∀ a, (f a s).2 = s) : ((x >>= f) s).2 = s := by
  rw [bind_apply]
  generalize x s = outcome at first ⊢
  obtain ⟨_ | a, middle⟩ := outcome
  · exact first
  · subst first
    exact later a

def Moves (related : σ → σ → Prop) (x : Script σ ε α) : Prop := ∀ s, related s (x s).2

section Moves

variable {related : σ → σ → Prop} [IsPreorder σ related]

theorem Moves.pure (a : α) : Moves related (Pure.pure a : Script σ ε α) :=
  fun s => refl_of related s

theorem Moves.bind {x : Script σ ε α} {f : α → Script σ ε β}
    (first : Moves related x) (later : ∀ a, Moves related (f a)) : Moves related (x >>= f) := by
  intro s
  rw [bind_apply]
  have moved := first s
  generalize x s = outcome at moved ⊢
  obtain ⟨_ | a, middle⟩ := outcome
  · exact moved
  · exact trans_of related moved (later a middle)

theorem Moves.forM {body : α → Script σ ε PUnit} (each : ∀ x, Moves related (body x)) :
    ∀ items : List α, Moves related (items.forM body) := by
  intro items
  induction items with
  | nil => exact fun s => refl_of related s
  | cons x rest ih => exact Moves.bind (each x) fun _ => ih

end Moves

/-! ## Errors -/

/-- No run of `x` stops with `e`. -/
def Avoids (e : ε) (x : Script σ ε α) : Prop := ∀ s, (x s).1 ≠ .error e

section Avoids

variable {e : ε}

theorem Avoids.pure (a : α) : Avoids e (Pure.pure a : Script σ ε α) := fun _ stops => by cases stops

theorem Avoids.abort {e' : ε} (other : e' ≠ e) : Avoids e (Script.abort e' : Script σ ε α) :=
  fun _ stops => other (Except.error.inj stops)

theorem Avoids.read (f : σ → α) : Avoids e (Script.read f : Script σ ε α) :=
  fun _ stops => by cases stops

theorem Avoids.write (f : σ → σ) : Avoids e (Script.write f : Script σ ε Unit) :=
  fun _ stops => by cases stops

theorem Avoids.bind {x : Script σ ε α} {f : α → Script σ ε β}
    (first : Avoids e x) (later : ∀ a, Avoids e (f a)) : Avoids e (x >>= f) := by
  intro s
  rw [bind_apply]
  have avoided := first s
  generalize x s = outcome at avoided ⊢
  obtain ⟨e' | a, middle⟩ := outcome
  · exact fun stops => avoided (congrArg Except.error (Except.error.inj stops))
  · exact later a middle

theorem Avoids.ite {c : Prop} [Decidable c] {x y : Script σ ε α}
    (yes : Avoids e x) (no : Avoids e y) : Avoids e (if c then x else y) := by
  split
  · exact yes
  · exact no

end Avoids

/-- From `s`, `x` reaches `goal`, or it stops with an error and leaves `s` as it was. -/
def AllOrNothing (x : Script σ ε α) (s goal : σ) : Prop :=
  (x s).2 = goal ∨ (∃ e, (x s).1 = .error e) ∧ (x s).2 = s

theorem AllOrNothing.of_ok {x : Script σ ε α} {s goal : σ} {a : α} (run : x s = (.ok a, goal)) :
    AllOrNothing x s goal := by
  rw [AllOrNothing, run]
  exact Or.inl rfl

theorem allOrNothing_iff_of_error {x : Script σ ε α} {s s' goal : σ} {e : ε}
    (run : x s = (.error e, s')) : AllOrNothing x s goal ↔ s' = goal ∨ s' = s := by
  rw [AllOrNothing, run]
  exact or_congr_right (and_iff_right ⟨e, rfl⟩)

end Script

end AbortableScript

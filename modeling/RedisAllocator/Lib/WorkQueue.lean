import Mathlib.Data.List.Nodup
import Mathlib.Logic.Function.Basic

/-!
# Work queues with competing consumers

Items are pushed once to a named queue, popped by consumers that listen on some of
the names, and started as jobs.  An item lies in one place at a time, and no
consumer gets one from a name it does not listen on.
-/

set_option autoImplicit false

namespace WorkQueue

/-- `addressed` keeps the name an item was pushed to, and `started` every job there was. -/
structure Desk (ι ν κ τ : Type) where
  addressed : ι → Option ν
  queues : ν → List ι
  held : κ → Option ι
  started : τ → Option (κ × ι)

inductive Place (ν κ τ : Type)
  | queue (name : ν)
  | hand (consumer : κ)
  | job (job : τ) (consumer : κ)

variable {ι ν κ τ : Type}

def Desk.Lies (d : Desk ι ν κ τ) (item : ι) : Place ν κ τ → Prop
  | .queue name => item ∈ d.queues name
  | .hand consumer => d.held consumer = some item
  | .job job consumer => d.started job = some (consumer, item)

def Place.Fits (listens : κ → ν → Prop) (name : ν) : Place ν κ τ → Prop
  | .queue other => other = name
  | .hand consumer => listens consumer name
  | .job _ consumer => listens consumer name

structure Desk.Accounted (listens : κ → ν → Prop) (d : Desk ι ν κ τ) : Prop where
  distinct : ∀ name, (d.queues name).Nodup
  single : ∀ item place place', d.Lies item place → d.Lies item place' → place = place'
  fits : ∀ item place, d.Lies item place →
    ∃ name, d.addressed item = some name ∧ place.Fits listens name

inductive Step [DecidableEq ι] [DecidableEq ν] [DecidableEq κ] [DecidableEq τ]
    (listens : κ → ν → Prop) : Desk ι ν κ τ → Desk ι ν κ τ → Prop
  | idle (d : Desk ι ν κ τ) : Step listens d d
  | push {d : Desk ι ν κ τ} {item : ι} {name : ν} (unaddressed : d.addressed item = none) :
      Step listens d { d with
        addressed := Function.update d.addressed item (some name)
        queues := Function.update d.queues name (d.queues name ++ [item]) }
  | pop {d : Desk ι ν κ τ} {consumer : κ} {name : ν} {item : ι} {rest : List ι}
      (listening : listens consumer name) (free : d.held consumer = none)
      (front : d.queues name = item :: rest) :
      Step listens d { d with
        queues := Function.update d.queues name rest
        held := Function.update d.held consumer (some item) }
  | start {d : Desk ι ν κ τ} {consumer : κ} {item : ι} {job : τ}
      (holds : d.held consumer = some item) (unused : d.started job = none) :
      Step listens d { d with
        held := Function.update d.held consumer none
        started := Function.update d.started job (some (consumer, item)) }

variable {listens : κ → ν → Prop} {d d' : Desk ι ν κ τ}

/-- The step may bring one item to a new place and leaves the others where they lie. -/
def Moved (d d' : Desk ι ν κ τ) (item : ι) (new : Place ν κ τ) : Prop :=
  ∀ other place, d'.Lies other place →
    other ≠ item ∧ d.Lies other place ∨ other = item ∧ place = new

theorem Desk.Accounted.single_of_moved (accounted : d.Accounted listens) {item : ι}
    {new : Place ν κ τ} (moved : Moved d d' item new) {other : ι} {place place' : Place ν κ τ}
    (lies : d'.Lies other place) (lies' : d'.Lies other place') : place = place' := by
  rcases moved other place lies with ⟨different, before⟩ | ⟨same, isNew⟩
  · rcases moved other place' lies' with ⟨_, before'⟩ | ⟨same, _⟩
    · exact accounted.single other place place' before before'
    · exact absurd same different
  · rcases moved other place' lies' with ⟨different, _⟩ | ⟨_, isNew'⟩
    · exact absurd same different
    · rw [isNew, isNew']

theorem Desk.Accounted.not_lies (accounted : d.Accounted listens) {item : ι}
    (unaddressed : d.addressed item = none) (place : Place ν κ τ) : ¬ d.Lies item place := by
  intro lies
  obtain ⟨name, addressed, _⟩ := accounted.fits item place lies
  cases unaddressed.symm.trans addressed

theorem Desk.Accounted.moved_push [DecidableEq ι] [DecidableEq ν]
    (accounted : d.Accounted listens) {item : ι} (unaddressed : d.addressed item = none)
    (name : ν) :
    Moved d { d with
      addressed := Function.update d.addressed item (some name)
      queues := Function.update d.queues name (d.queues name ++ [item]) } item (.queue name) := by
  intro other place lies
  have elsewhere : d.Lies other place → other ≠ item ∧ d.Lies other place := by
    refine fun before => ⟨?_, before⟩
    rintro rfl
    exact accounted.not_lies unaddressed place before
  cases place with
  | queue name' =>
      simp only [Desk.Lies, Function.update_apply] at lies
      split at lies
      · subst name'
        rcases List.mem_append.mp lies with before | added
        · exact Or.inl (elsewhere before)
        · exact Or.inr ⟨List.mem_singleton.mp added, rfl⟩
      · exact Or.inl (elsewhere lies)
  | hand consumer => exact Or.inl (elsewhere lies)
  | job job consumer => exact Or.inl (elsewhere lies)

theorem Desk.Accounted.moved_pop [DecidableEq ν] [DecidableEq κ]
    (accounted : d.Accounted listens) {name : ν} {item : ι} {rest : List ι}
    (front : d.queues name = item :: rest) (consumer : κ) :
    Moved d { d with
      queues := Function.update d.queues name rest
      held := Function.update d.held consumer (some item) } item (.hand consumer) := by
  intro other place lies
  have queued : d.Lies item (.queue name) := by
    rw [Desk.Lies, front]
    exact List.mem_cons_self ..
  have elsewhere : place ≠ .queue name → d.Lies other place →
      other ≠ item ∧ d.Lies other place := by
    refine fun apart before => ⟨?_, before⟩
    rintro rfl
    exact apart (accounted.single other place _ before queued)
  cases place with
  | queue name' =>
      simp only [Desk.Lies, Function.update_apply] at lies
      split at lies
      · subst name'
        have distinct := accounted.distinct name
        rw [front] at distinct
        refine Or.inl ⟨?_, ?_⟩
        · rintro rfl
          exact (List.nodup_cons.mp distinct).1 lies
        · rw [Desk.Lies, front]
          exact List.mem_cons_of_mem item lies
      · exact Or.inl (elsewhere (by simpa using ‹¬ _›) lies)
  | hand consumer' =>
      simp only [Desk.Lies, Function.update_apply] at lies
      split at lies
      · cases lies
        exact Or.inr ⟨rfl, congrArg _ ‹_›⟩
      · exact Or.inl (elsewhere (by simp) lies)
  | job job consumer => exact Or.inl (elsewhere (by simp) lies)

theorem Desk.Accounted.moved_start [DecidableEq κ] [DecidableEq τ]
    (accounted : d.Accounted listens) {consumer : κ} {item : ι}
    (holds : d.held consumer = some item) (job : τ) :
    Moved d { d with
      held := Function.update d.held consumer none
      started := Function.update d.started job (some (consumer, item)) } item
      (.job job consumer) := by
  intro other place lies
  have elsewhere : place ≠ .hand consumer → d.Lies other place →
      other ≠ item ∧ d.Lies other place := by
    refine fun apart before => ⟨?_, before⟩
    rintro rfl
    exact apart (accounted.single other place _ before holds)
  cases place with
  | queue name => exact Or.inl (elsewhere (by simp) lies)
  | hand consumer' =>
      simp only [Desk.Lies, Function.update_apply] at lies
      split at lies
      · cases lies
      · exact Or.inl (elsewhere (by simpa using ‹¬ _›) lies)
  | job job' consumer' =>
      simp only [Desk.Lies, Function.update_apply] at lies
      split at lies
      · cases lies
        exact Or.inr ⟨rfl, by rw [‹job' = job›]⟩
      · exact Or.inl (elsewhere (by simp) lies)

theorem Desk.Accounted.fits_of_moved (accounted : d.Accounted listens) {item : ι}
    {new : Place ν κ τ} (moved : Moved d d' item new) {name : ν}
    (addressed : d'.addressed item = some name) (fits : new.Fits listens name)
    (others : ∀ other, other ≠ item → d'.addressed other = d.addressed other) (other : ι)
    (place : Place ν κ τ) (lies : d'.Lies other place) :
    ∃ name, d'.addressed other = some name ∧ place.Fits listens name := by
  rcases moved other place lies with ⟨different, before⟩ | ⟨rfl, rfl⟩
  · rw [others other different]
    exact accounted.fits other place before
  · exact ⟨name, addressed, fits⟩

theorem Desk.Accounted.step [DecidableEq ι] [DecidableEq ν] [DecidableEq κ] [DecidableEq τ]
    (accounted : d.Accounted listens) (step : Step listens d d') :
    d'.Accounted listens := by
  cases step with
  | idle => exact accounted
  | @push item name unaddressed =>
      have moved := accounted.moved_push unaddressed name
      refine ⟨fun other => ?_, fun other place place' => accounted.single_of_moved moved, ?_⟩
      · simp only [Function.update_apply]
        split
        · refine List.nodup_append'.mpr ⟨accounted.distinct name, List.nodup_singleton item, ?_⟩
          rw [List.disjoint_singleton]
          exact accounted.not_lies unaddressed (.queue name)
        · exact accounted.distinct other
      · exact accounted.fits_of_moved moved (Function.update_self ..) rfl
          fun other different => Function.update_of_ne different ..
  | @pop consumer name item rest listening free front =>
      have moved := accounted.moved_pop front consumer
      refine ⟨fun other => ?_, fun other place place' => accounted.single_of_moved moved, ?_⟩
      · simp only [Function.update_apply]
        split
        · have distinct := accounted.distinct name
          rw [front] at distinct
          exact (List.nodup_cons.mp distinct).2
        · exact accounted.distinct other
      · have queued : d.Lies item (.queue name) := by
          rw [Desk.Lies, front]
          exact List.mem_cons_self ..
        obtain ⟨_, addressed, rfl⟩ := accounted.fits item _ queued
        exact accounted.fits_of_moved moved addressed listening fun _ _ => rfl
  | @start consumer item job holds unused =>
      have moved := accounted.moved_start holds job
      obtain ⟨name, addressed, listening⟩ := accounted.fits item (.hand consumer) holds
      exact ⟨accounted.distinct, fun other place place' => accounted.single_of_moved moved,
        accounted.fits_of_moved moved addressed listening fun _ _ => rfl⟩

end WorkQueue

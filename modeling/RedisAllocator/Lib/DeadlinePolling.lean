import Mathlib.Algebra.Order.Archimedean.Basic
import Mathlib.Algebra.Order.Floor.Semiring
import Mathlib.Data.Rat.Floor
import Mathlib.Tactic.Linarith

/-!
# Polling until a deadline

A loop that looks at the state, stops when it sees a value, reads the clock, gives
up from the deadline on and sleeps in between, never longer than the interval nor
beyond the deadline.  What happens to the state meanwhile is a schedule of
functions.  A sleep takes at least its time, so the loop looks only so often.
-/

set_option autoImplicit false

namespace DeadlinePolling

variable {σ α : Type}

/-- What happens before the `n`th look, between it and the reading of the clock, and during the
sleep behind it. -/
structure Schedule (σ : Type) (now : σ → Rat) where
  arrive : Nat → σ → σ
  think : Nat → σ → σ
  nap : Nat → Rat → σ → σ
  arrives : ∀ n s, now s ≤ now (arrive n s)
  thinks : ∀ n s, now s ≤ now (think n s)
  naps : ∀ n duration s, now s + duration ≤ now (nap n duration s)

/-- A value and the state it was seen in, or the states of the last look and of the last reading
of the clock. -/
inductive Result (σ α : Type)
  | seen (value : α) (looked : σ)
  | expired (looked checked : σ)

variable {now : σ → Rat}

def poll (schedule : Schedule σ now) (look : σ → Option α) (interval deadline : Rat) :
    Nat → Nat → σ → Option (Result σ α)
  | 0, _, _ => none
  | fuel + 1, n, s =>
    let looked := schedule.arrive n s
    match look looked with
    | some value => some (.seen value looked)
    | none =>
      let checked := schedule.think n looked
      if deadline ≤ now checked then some (.expired looked checked)
      else
        poll schedule look interval deadline fuel (n + 1)
          (schedule.nap n (min interval (deadline - now checked)) checked)

section Instants

variable (schedule : Schedule σ now) (interval deadline : Rat) (start : σ)

def turn : Nat → σ
  | 0 => start
  | n + 1 =>
    let checked := schedule.think n (schedule.arrive n (turn n))
    schedule.nap n (min interval (deadline - now checked)) checked

def looked (n : Nat) : σ := schedule.arrive n (turn schedule interval deadline start n)

def checked (n : Nat) : σ := schedule.think n (looked schedule interval deadline start n)

structure IsLast (last : Nat) : Prop where
  late : deadline ≤ now (checked schedule interval deadline start last)
  early : ∀ n < last, now (checked schedule interval deadline start n) < deadline

variable {schedule interval deadline start}

theorem turn_le_checked (n : Nat) : now (turn schedule interval deadline start n) ≤
    now (checked schedule interval deadline start n) :=
  (schedule.arrives n _).trans (schedule.thinks n _)

theorem IsLast.unique {last last' : Nat} (isLast : IsLast schedule interval deadline start last)
    (isLast' : IsLast schedule interval deadline start last') : last = last' := by
  rcases lt_trichotomy last last' with before | same | after
  · exact absurd isLast.late (not_le.mpr (isLast'.early last before))
  · exact same
  · exact absurd isLast'.late (not_le.mpr (isLast.early last' after))

/-- Each turn before the deadline gains an interval, or reaches the deadline. -/
theorem checked_grows (n : Nat)
    (early : ∀ m < n, now (checked schedule interval deadline start m) < deadline) :
    min deadline (now start + n * interval) ≤ now (checked schedule interval deadline start n) := by
  induction n with
  | zero =>
      have first : now start ≤ now (checked schedule interval deadline start 0) :=
        turn_le_checked 0
      exact (min_le_right ..).trans (by simpa using first)
  | succ n ih =>
      have before := ih fun m earlier => early m (Nat.lt_succ_of_lt earlier)
      have notYet := early n (Nat.lt_succ_self n)
      have slept := schedule.naps n
        (min interval (deadline - now (checked schedule interval deadline start n)))
        (checked schedule interval deadline start n)
      have later : now (checked schedule interval deadline start n) +
          min interval (deadline - now (checked schedule interval deadline start n)) ≤
          now (checked schedule interval deadline start (n + 1)) :=
        slept.trans (turn_le_checked (n + 1))
      have reached : now start + n * interval ≤
          now (checked schedule interval deadline start n) := by
        rcases min_le_iff.mp before with passed | reached
        · exact absurd notYet (not_lt.mpr passed)
        · exact reached
      have step : now start + (n + 1 : ℕ) * interval = now start + n * interval + interval := by
        push_cast
        ring
      rw [step]
      rcases min_choice interval (deadline - now (checked schedule interval deadline start n)) with
        full | short
      · apply (min_le_right ..).trans
        linarith
      · apply (min_le_left ..).trans
        linarith

theorem exists_isLast (schedule : Schedule σ now) (deadline : Rat) (start : σ)
    (positive : 0 < interval) :
    ∃ last ≤ ⌈(deadline - now start) / interval⌉₊,
      IsLast schedule interval deadline start last := by
  have late : ∃ n ≤ ⌈(deadline - now start) / interval⌉₊,
      deadline ≤ now (checked schedule interval deadline start n) := by
    by_contra never
    have early : ∀ n ≤ ⌈(deadline - now start) / interval⌉₊,
        now (checked schedule interval deadline start n) < deadline :=
      fun n bounded => not_le.mp fun passed => never ⟨n, bounded, passed⟩
    have grown := checked_grows _ fun m earlier => early m earlier.le
    have enough : deadline ≤ now start + ⌈(deadline - now start) / interval⌉₊ * interval := by
      have rounded := Nat.le_ceil ((deadline - now start) / interval)
      rw [div_le_iff₀ positive] at rounded
      linarith
    rw [min_eq_left enough] at grown
    exact absurd (early _ le_rfl) (not_lt.mpr grown)
  obtain ⟨n, bounded, passed⟩ := late
  have some : ∃ n, deadline ≤ now (checked schedule interval deadline start n) := ⟨n, passed⟩
  refine ⟨Nat.find some, (Nat.find_min' some passed).trans bounded, Nat.find_spec some, ?_⟩
  exact fun m earlier => not_le.mp (Nat.find_min some earlier)

/-- What every part of the schedule guarantees holds from the start to a turn and from an earlier
look to a later one. -/
theorem turns_related {R : σ → σ → Prop} (refl : ∀ s, R s s)
    (trans : ∀ {s t u}, R s t → R t u → R s u) (arrive : ∀ n s, R s (schedule.arrive n s))
    (think : ∀ n s, R s (schedule.think n s))
    (nap : ∀ n duration s, R s (schedule.nap n duration s)) :
    (∀ n, R start (turn schedule interval deadline start n)) ∧
      ∀ m n, m ≤ n → R (looked schedule interval deadline start m)
        (looked schedule interval deadline start n) := by
  constructor
  · intro n
    induction n with
    | zero => exact refl start
    | succ n ih => exact trans ih (trans (arrive n _) (trans (think n _) (nap n _ _)))
  · intro m n ordered
    induction n, ordered using Nat.le_induction with
    | base => exact refl _
    | succ n _ ih => exact trans ih (trans (think n _) (trans (nap n _ _) (arrive (n + 1) _)))

variable {look : σ → Option α}

theorem poll_skip {last : Nat} (isLast : IsLast schedule interval deadline start last) {n : Nat}
    (bounded : n ≤ last)
    (unseen : ∀ m < n, look (looked schedule interval deadline start m) = none) (fuel : Nat) :
    poll schedule look interval deadline (fuel + n) 0 start =
      poll schedule look interval deadline fuel n (turn schedule interval deadline start n) := by
  induction n generalizing fuel with
  | zero => rfl
  | succ n ih =>
      have before := ih (Nat.le_of_succ_le bounded)
        (fun m earlier => unseen m (Nat.lt_succ_of_lt earlier)) (fuel + 1)
      have nothing := unseen n (Nat.lt_succ_self n)
      have notYet := isLast.early n bounded
      rw [looked] at nothing
      rw [checked, looked] at notYet
      rw [← Nat.succ_add_eq_add_succ, before, poll]
      simp only [nothing, if_neg (not_le.mpr notYet)]
      rfl

theorem poll_seen {last : Nat} (isLast : IsLast schedule interval deadline start last) {n : Nat}
    (bounded : n ≤ last)
    (unseen : ∀ m < n, look (looked schedule interval deadline start m) = none) {value : α}
    (found : look (looked schedule interval deadline start n) = some value) {fuel : Nat}
    (enough : last < fuel) : poll schedule look interval deadline fuel 0 start =
      some (.seen value (looked schedule interval deadline start n)) := by
  obtain ⟨rest, rfl⟩ : ∃ rest, fuel = rest + 1 + n := ⟨fuel - n - 1, by omega⟩
  rw [looked] at found
  rw [poll_skip isLast bounded unseen, poll]
  simp only [found]
  rfl

theorem poll_expired {last : Nat} (isLast : IsLast schedule interval deadline start last)
    (unseen : ∀ m ≤ last, look (looked schedule interval deadline start m) = none) {fuel : Nat}
    (enough : last < fuel) : poll schedule look interval deadline fuel 0 start =
      some (.expired (looked schedule interval deadline start last)
        (checked schedule interval deadline start last)) := by
  obtain ⟨rest, rfl⟩ : ∃ rest, fuel = rest + 1 + last := ⟨fuel - last - 1, by omega⟩
  have nothing := unseen last le_rfl
  have passed := isLast.late
  rw [looked] at nothing
  rw [checked, looked] at passed
  rw [poll_skip isLast le_rfl fun m earlier => unseen m earlier.le, poll]
  simp only [nothing, if_pos passed]
  rfl

/-- The loop ends with the first value it looks at, or after its last turn. -/
theorem poll_result (look : σ → Option α) {last : Nat}
    (isLast : IsLast schedule interval deadline start last) :
    (∃ n ≤ last, ∃ value, (∀ m < n, look (looked schedule interval deadline start m) = none) ∧
      look (looked schedule interval deadline start n) = some value ∧
      ∀ fuel, last < fuel → poll schedule look interval deadline fuel 0 start =
        some (.seen value (looked schedule interval deadline start n))) ∨
    (∀ n ≤ last, look (looked schedule interval deadline start n) = none) ∧
      ∀ fuel, last < fuel → poll schedule look interval deadline fuel 0 start =
        some (.expired (looked schedule interval deadline start last)
          (checked schedule interval deadline start last)) := by
  by_cases never : ∀ n ≤ last, look (looked schedule interval deadline start n) = none
  · exact Or.inr ⟨never, fun fuel => poll_expired isLast never⟩
  · simp only [not_forall, exists_prop] at never
    obtain ⟨n, bounded, shows⟩ := never
    have some : ∃ n, look (looked schedule interval deadline start n) ≠ none := ⟨n, shows⟩
    obtain ⟨value, found⟩ := Option.ne_none_iff_exists'.mp (Nat.find_spec some)
    have unseen : ∀ m < Nat.find some,
        look (looked schedule interval deadline start m) = none :=
      fun m earlier => not_not.mp (Nat.find_min some earlier)
    have first := (Nat.find_min' some shows).trans bounded
    exact Or.inl ⟨Nat.find some, first, value, unseen, found, fun fuel =>
      poll_seen isLast first unseen found⟩

end Instants

end DeadlinePolling

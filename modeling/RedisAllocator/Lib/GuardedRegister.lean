import Mathlib.Data.List.Basic
import Mathlib.Logic.Function.Basic
import RedisAllocator.Lib.LabelledRun

/-!
# A register behind a lock

Threads that share a register and a lock.  Each takes the lock, looks at the
register, computes a new value from what it saw and from an input of its own, stores
it and gives the lock back; a computation that fails gives the lock back at once.
Whatever the order of their steps, every value is computed from the one before it.
-/

set_option autoImplicit false

namespace GuardedRegister

open LabelledRun

variable {Thread Value Input : Type}

inductive Phase (Value : Type)
  | outside
  | inside
  | looked (seen : Option Value)
  | computed (value : Value)
  | stored

structure State (Thread Value : Type) where
  register : Option Value
  holder : Option Thread
  phase : Thread → Phase Value
  log : List Value

inductive Act (Thread Input : Type)
  | acquire (thread : Thread)
  | look (thread : Thread)
  | compute (thread : Thread) (input : Input)
  | store (thread : Thread)
  | release (thread : Thread)

def State.start : State Thread Value := ⟨none, none, fun _ => .outside, []⟩

variable [DecidableEq Thread] (update : Option Value → Input → Option Value)

/-- One act, or nothing where the thread is not there yet or the lock is taken. -/
def act? (s : State Thread Value) : Act Thread Input → Option (State Thread Value)
  | .acquire thread =>
    match s.holder, s.phase thread with
    | none, .outside =>
      some { s with holder := some thread, phase := Function.update s.phase thread .inside }
    | _, _ => none
  | .look thread =>
    match s.phase thread with
    | .inside => some { s with phase := Function.update s.phase thread (.looked s.register) }
    | _ => none
  | .compute thread input =>
    match s.phase thread with
    | .looked seen =>
      match update seen input with
      | some value => some { s with phase := Function.update s.phase thread (.computed value) }
      | none => some { s with holder := none, phase := Function.update s.phase thread .outside }
    | _ => none
  | .store thread =>
    match s.phase thread with
    | .computed value =>
      some { s with
        register := some value
        phase := Function.update s.phase thread .stored
        log := s.log ++ [value] }
    | _ => none
  | .release thread =>
    match s.phase thread with
    | .stored => some { s with holder := none, phase := Function.update s.phase thread .outside }
    | _ => none

def Step (s : State Thread Value) (act : Act Thread Input) (s' : State Thread Value) : Prop :=
  act? update s act = some s'

inductive Successive : List Value → Prop
  | nil : Successive []
  | snoc {log : List Value} {input : Input} {value : Value} (earlier : Successive log)
      (next : update log.getLast? input = some value) : Successive (log ++ [value])

def Phase.Fits (register : Option Value) : Phase Value → Prop
  | .looked seen => seen = register
  | .computed value => ∃ input, update register input = some value
  | _ => True

structure Serial (s : State Thread Value) : Prop where
  alone : ∀ thread, s.holder ≠ some thread → s.phase thread = .outside
  fits : ∀ thread, (s.phase thread).Fits update s.register
  last : s.register = s.log.getLast?
  successive : Successive update s.log

section Serial

variable {update} {s s' : State Thread Value} {act : Act Thread Input} {thread : Thread}

theorem Serial.holder (serial : Serial update s) (entered : s.phase thread ≠ .outside) :
    s.holder = some thread := by
  by_contra other
  exact entered (serial.alone thread other)

theorem Serial.goesOn (serial : Serial update s) (held : s.holder = none ∨ s.holder = some thread)
    {holder : Option Thread} {phase : Phase Value} {register : Option Value} {log : List Value}
    (keeps : phase = .outside ∨ holder = some thread) (fits : phase.Fits update register)
    (last : register = log.getLast?) (successive : Successive update log) :
    Serial update ⟨register, holder, Function.update s.phase thread phase, log⟩ := by
  have here : Function.update s.phase thread phase thread = phase := Function.update_self ..
  have others : ∀ other, other ≠ thread →
      Function.update s.phase thread phase other = .outside := by
    intro other different
    rw [Function.update_of_ne different]
    apply serial.alone
    rcases held with free | taken
    · rw [free]
      exact nofun
    · rw [taken]
      exact fun same => different (Option.some.inj same).symm
  refine ⟨fun other away => ?_, fun other => ?_, last, successive⟩
  · by_cases same : other = thread
    · subst same
      exact here.trans (keeps.resolve_right away)
    · exact others other same
  · change (Function.update s.phase thread phase other).Fits update register
    by_cases same : other = thread
    · rwa [same, here]
    · rw [others other same]
      trivial

theorem Serial.step (serial : Serial update s) (step : Step update s act s') :
    Serial update s' := by
  have entered (thread : Thread) {phase : Phase Value} (now : s.phase thread = phase)
      (inside : phase ≠ .outside) : s.holder = some thread := serial.holder (now ▸ inside)
  cases act with
  | acquire thread =>
      rw [Step, act?] at step
      split at step
      next free _ =>
        cases step
        exact serial.goesOn (.inl free) (.inr rfl) trivial serial.last serial.successive
      next => cases step
  | look thread =>
      rw [Step, act?] at step
      split at step
      next now =>
        cases step
        have held := entered thread now nofun
        exact serial.goesOn (.inr held) (.inr held) rfl serial.last serial.successive
      next => cases step
  | compute thread input =>
      rw [Step, act?] at step
      split at step
      next seen now =>
        have held := entered thread now nofun
        have current : seen = s.register := by
          have fits := serial.fits thread
          rwa [now] at fits
        split at step
        next value made =>
          cases step
          exact serial.goesOn (.inr held) (.inr held) ⟨input, current ▸ made⟩ serial.last
            serial.successive
        next =>
          cases step
          exact serial.goesOn (.inr held) (.inl rfl) trivial serial.last serial.successive
      next => cases step
  | store thread =>
      rw [Step, act?] at step
      split at step
      next value now =>
        cases step
        have held := entered thread now nofun
        obtain ⟨input, made⟩ : ∃ input, update s.register input = some value := by
          have fits := serial.fits thread
          rwa [now] at fits
        rw [serial.last] at made
        exact serial.goesOn (.inr held) (.inr held) trivial List.getLast?_concat.symm
          (serial.successive.snoc made)
      next => cases step
  | release thread =>
      rw [Step, act?] at step
      split at step
      next now =>
        cases step
        have held := entered thread now nofun
        exact serial.goesOn (.inr held) (.inl rfl) trivial serial.last serial.successive
      next => cases step

omit [DecidableEq Thread] in
theorem Serial.start : Serial update (State.start : State Thread Value) :=
  ⟨fun _ _ => rfl, fun _ => trivial, rfl, .nil⟩

end Serial

/-- No update is lost and none is made twice: the values stored follow each other. -/
theorem successive_of_run {update : Option Value → Input → Option Value}
    {acts : List (Act Thread Input)} {final : State Thread Value}
    (run : Run (Step update) State.start acts final) : Successive update final.log :=
  (run.invariant (Serial update) (fun _ => True) (fun _ _ _ serial _ step => serial.step step)
    .start fun _ _ => trivial).successive

def request (thread : Thread) (input : Input) : List (Act Thread Input) :=
  [.acquire thread, .look thread, .compute thread input, .store thread, .release thread]

/-- A thread that finds the lock free and is not disturbed stores its value. -/
theorem request_run {update : Option Value → Input → Option Value} {s final : State Thread Value}
    {thread : Thread} {input : Input} {value : Value} {rest : List (Act Thread Input)}
    (free : s.holder = none) (ready : s.phase thread = .outside)
    (made : update s.register input = some value)
    (later : Run (Step update) { s with register := some value, log := s.log ++ [value] } rest
      final) : Run (Step update) s (request thread input ++ rest) final := by
  have back : Function.update s.phase thread .outside = s.phase := by
    rw [← ready, Function.update_eq_self]
  apply Run.fire (by rw [Step, act?, free, ready])
  apply Run.fire (by simp only [Step, act?, Function.update_self]; rfl)
  apply Run.fire (by simp only [Step, act?, Function.update_self, made]; rfl)
  apply Run.fire (by simp only [Step, act?, Function.update_self]; rfl)
  apply Run.fire (by simp only [Step, act?, Function.update_self]; rfl)
  simpa [back, free] using later

end GuardedRegister

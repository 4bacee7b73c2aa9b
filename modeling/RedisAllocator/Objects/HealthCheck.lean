import RedisAllocator.Lib.History
import RedisAllocator.Objects.DefaultPolicy
import RedisAllocator.Objects.Quarantine

/-!
# The health check of a policy

`RedisAllocatorPolicy.check_health`: the threads of an executor check the objects
of all members at the same time.  A check opens its object, asks it, sends the
commands of its mark, and closes it; other clients' commands fall between.  What
the calls into the object yield comes from outside.
-/

set_option autoImplicit false

namespace RedisAllocator

open AbortableScript AbortableScript.Script LabelledRun

/-- An object to check, and what its `open`, `is_healthy` and `close` yield. -/
structure CheckInput (Error : Type) where
  object : AllocatorObject
  opening : Except Error Unit
  health : Except Error Bool
  closing : Except Error Unit

/-- How far `check_health_once` is, with what it will return or raise. -/
inductive CheckStage (Error : Type)
  | waiting
  | sending (steps : List Step) (outcome : Except (Raised Error) Bool)
  | done (outcome : Except (Raised Error) Bool) (instant : Nat)

/-- An exception of a check, or that of `executor.map`. -/
inductive CheckFailure (Error : Type)
  | raised (error : Raised Error)
  | timeoutError

section Check

variable {Error : Type} (allocator : Allocator) (duration : Timeout)

namespace CheckInput

variable (input : CheckInput Error)

def answer : Bool :=
  match input.health with
  | .ok answer => answer
  | .error _ => false

def marks : List Step :=
  if input.answer then (if allocator.shared then [.unlock input.object.key] else [])
  else input.object.setUnhealthy allocator duration

def verdict : Except (Raised Error) Bool := input.health.mapError .outside

def begin (now : Nat) : CheckStage Error :=
  match input.opening with
  | .error error => .done (.error (.outside error)) now
  | .ok () => .sending (input.marks allocator duration) input.verdict

/-- An error in the `try` runs the handler; one in the handler takes the place of the first. -/
def replied (reply : Except Failure (Option String)) (rest : List Step)
    (outcome : Except (Raised Error) Bool) : CheckStage Error :=
  match reply, outcome with
  | .ok _, _ => .sending rest outcome
  | .error failure, .ok _ =>
    .sending (input.object.setUnhealthy allocator duration) (.error (.redis failure))
  | .error failure, .error _ => .sending [] (.error (.redis failure))

/-- `contextlib.closing` -/
def close (outcome : Except (Raised Error) Bool) : Except (Raised Error) Bool :=
  match input.closing with
  | .ok () => outcome
  | .error error => .error (.outside error)

end CheckInput

structure CheckState (Error : Type) where
  redis : Redis
  stages : Nat → CheckStage Error

inductive CheckAction
  | other (step : Step)
  | begin (input : Nat)
  | send (input : Nat)
  | close (input : Nat)

structure CheckEvent (Error : Type) where
  before : CheckState Error
  action : CheckAction

variable (inputs : List (CheckInput Error)) (maxThreads : Nat)

def CheckStage.isSending : CheckStage Error → Bool
  | .sending _ _ => true
  | _ => false

def CheckState.active (s : CheckState Error) : Nat :=
  (List.range inputs.length).countP fun i => (s.stages i).isSending

namespace CheckEvent

variable (event : CheckEvent Error)

def step? : Option Step :=
  match event.action with
  | .other step => some step
  | .send i =>
    match event.before.stages i with
    | .sending (step :: _) _ => some step
    | _ => none
  | _ => none

def script : LuaScript (Option String) :=
  match event.step? with
  | some step => step.script allocator
  | none => pure none

def reply : Except Failure (Option String) := (event.script allocator event.before.redis).1

def stageAfter (i : Nat) (input : CheckInput Error) : CheckStage Error :=
  match event.action, event.before.stages i with
  | .begin _, _ => input.begin allocator duration event.before.redis.now
  | .send _, .sending (_ :: rest) outcome =>
    input.replied allocator duration (event.reply allocator) rest outcome
  | .close _, .sending [] outcome => .done (input.close outcome) event.before.redis.now
  | _, stage => stage

def subject : Option Nat :=
  match event.action with
  | .other _ => none
  | .begin i | .send i | .close i => some i

def stagesAfter : Nat → CheckStage Error := fun i =>
  match inputs[i]? with
  | some input =>
    if event.subject = some i then event.stageAfter allocator duration i input
    else event.before.stages i
  | none => event.before.stages i

def after : CheckState Error where
  redis := (event.script allocator event.before.redis).2
  stages := event.stagesAfter allocator duration inputs

/-- The executor begins the checks in their order, no more at a time than it has threads. -/
def Permitted : Prop :=
  match event.action with
  | .other _ => True
  | .begin i => i < inputs.length ∧ (∀ j < inputs.length,
      (match event.before.stages j with
        | .waiting => True
        | _ => False) ↔ i ≤ j) ∧ event.before.active inputs < maxThreads
  | .send i => ∃ step rest outcome, event.before.stages i = .sending (step :: rest) outcome
  | .close i => ∃ outcome, event.before.stages i = .sending [] outcome

def Lifts (k : String) (instant : Nat) : Prop :=
  ∃ step, event.step? = some step ∧
    StepEvent.Lifts allocator ⟨event.before.redis, step⟩ k instant

end CheckEvent

def CheckStep (s : CheckState Error) (event : CheckEvent Error) (s' : CheckState Error) : Prop :=
  (∃ elapsed, event.before = { s with redis := s.redis.advance elapsed }) ∧
    event.Permitted inputs maxThreads ∧
    (∀ call, event.step? = some (.pool call) → call.Admissible event.before.redis) ∧
    s' = event.after allocator duration inputs

abbrev CheckRun : CheckState Error → List (CheckEvent Error) → CheckState Error → Prop :=
  Run (CheckStep allocator duration inputs maxThreads)

/-- `future.result(end_time - now)` called at `turn`: what is there is taken, and what is not is
waited for up to the deadline. -/
def CheckStage.result (deadline : Option Nat) (now turn : Nat) :
    CheckStage Error → Option (Except (CheckFailure Error) Bool)
  | .done outcome instant =>
    if deadline.all fun last => instant ≤ max turn last then some (outcome.mapError .raised)
    else some (.error .timeoutError)
  | _ =>
    if deadline.all fun last => now ≤ max turn last then none else some (.error .timeoutError)

/-- `list(executor.map(.., timeout))`: the results in the order of the inputs up to the first
error, with the instants the caller comes to them. -/
def gather (deadline : Option Nat) (now : Nat) :
    List (CheckStage Error × Nat) → Option (Except (CheckFailure Error) (List Bool))
  | [] => some (.ok [])
  | (stage, turn) :: rest =>
    match stage.result deadline now turn with
    | none => none
    | some (.error error) => some (.error error)
    | some (.ok result) =>
      (gather deadline now rest).map fun results => results.map (result :: ·)

/-- What `check_health` returns or raises, once it does; `lock_duration` sets the deadline, which
`None` does not. -/
def checkHealth (deadline : Option Nat) (turns : Nat → Nat) (s : CheckState Error) :
    Option (Except (CheckFailure Error) (Nat × Nat)) :=
  (gather deadline s.redis.now ((List.range inputs.length).map fun i =>
    (s.stages i, turns i))).map fun results => results.map fun results =>
      (results.countP id, results.length - results.countP id)

end Check

/-- The default of `check_health_once`.  `check_health` hands its `lock_duration` to `executor.map`,
which takes it as its own timeout. -/
def onceDuration : Timeout := .int 3600

/-! ## One check -/

section Progress

variable {Error : Type} {allocator : Allocator} {seconds : Int} {inputs : List (CheckInput Error)}
  {maxThreads : Nat} {input : CheckInput Error} {event : CheckEvent Error}
  {past : List (CheckEvent Error)} {s s' : CheckState Error} {i : Nat}

theorem CheckInput.marks_reply (positive : 0 < seconds) {step : Step}
    (marked : step ∈ input.marks allocator (.int seconds)) (s : Redis) :
    (step.script allocator s).1 = .ok none := by
  have unlocks (key : String) : (Step.script allocator (.unlock key) s).1 = .ok none := by
    rw [Step.script, bind_ok (unlock_run key s)]
    rfl
  have updates (key : String) :
      (Step.script allocator (.lockUpdate key "1" (.int seconds)) s).1 = .ok none := by
    have run : RedisAllocator.lockUpdate key "1" (.int seconds) s =
        (.ok (), s.putLock key (some ⟨"1", some (s.deadline seconds)⟩)) := by
      rw [RedisAllocator.lockUpdate, pyExpire, pure_bind_apply, setLock_ex s positive]
    rw [Step.script, bind_ok run]
    rfl
  rw [CheckInput.marks] at marked
  split at marked
  · split at marked
    · rw [List.mem_singleton.mp marked]
      exact unlocks _
    · cases marked
  · rw [AllocatorObject.setUnhealthy] at marked
    rcases List.mem_append.mp marked with unbinding | marking
    · cases name : input.object.name with
      | none =>
          rw [name] at unbinding
          cases unbinding
      | some name' =>
          rw [name] at unbinding
          rw [List.mem_singleton.mp unbinding]
          exact unlocks _
    · rw [List.mem_singleton.mp marking]
      exact updates _

def HasSent (past : List (CheckEvent Error)) (i : Nat) (step : Step) : Prop :=
  ∃ event ∈ past, event.action = .send i ∧ event.step? = some step

/-- What a check has sent, and what it will return, at every stage. -/
inductive CheckProgress (allocator : Allocator) (seconds : Int) (input : CheckInput Error)
    (past : List (CheckEvent Error)) (i : Nat) : CheckStage Error → Prop
  | waiting : CheckProgress allocator seconds input past i .waiting
  | unopened (error : Error) (instant : Nat) (failed : input.opening = .error error) :
      CheckProgress allocator seconds input past i (.done (.error (.outside error)) instant)
  | sending (earlier rest : List Step)
      (split : input.marks allocator (.int seconds) = earlier ++ rest)
      (sent : ∀ step ∈ earlier, HasSent past i step) (opened : input.opening = .ok ()) :
      CheckProgress allocator seconds input past i (.sending rest input.verdict)
  | done (instant : Nat) (sent : ∀ step ∈ input.marks allocator (.int seconds), HasSent past i step)
      (opened : input.opening = .ok ()) :
      CheckProgress allocator seconds input past i (.done (input.close input.verdict) instant)

theorem HasSent.snoc {step : Step} (sent : HasSent past i step) :
    HasSent (past ++ [event]) i step := by
  obtain ⟨other, inPast, action, sends⟩ := sent
  exact ⟨other, List.mem_append_left _ inPast, action, sends⟩

theorem CheckProgress.snoc {stage : CheckStage Error}
    (progress : CheckProgress allocator seconds input past i stage) :
    CheckProgress allocator seconds input (past ++ [event]) i stage := by
  cases progress with
  | waiting => exact .waiting
  | unopened error instant failed => exact .unopened error instant failed
  | sending earlier rest split sent opened =>
      exact .sending earlier rest split (fun step member => (sent step member).snoc) opened
  | done instant sent opened =>
      exact .done instant (fun step member => (sent step member).snoc) opened

theorem CheckInput.begin_progress (input : CheckInput Error) (now : Nat) :
    CheckProgress allocator seconds input past i (input.begin allocator (.int seconds) now) := by
  rw [CheckInput.begin]
  cases opening : input.opening with
  | error error => exact .unopened error now opening
  | ok _ => exact .sending [] _ rfl (fun _ inNone => absurd inNone List.not_mem_nil) opening

theorem CheckProgress.step (positive : 0 < seconds)
    (progress : CheckProgress allocator seconds input past i (event.before.stages i))
    (about : event.subject = some i) :
    CheckProgress allocator seconds input (past ++ [event]) i
      (event.stageAfter allocator (.int seconds) i input) := by
  obtain ⟨before, action⟩ := event
  cases action with
  | other step => cases about
  | begin j => exact input.begin_progress _
  | send j =>
      cases about
      have kept := @CheckProgress.snoc _ _ _ _ ⟨before, .send i⟩ _ _ _ progress
      simp only [CheckEvent.stageAfter]
      cases stage : before.stages i with
      | waiting => rwa [stage] at kept
      | done outcome instant => rwa [stage] at kept
      | sending steps outcome =>
          rw [stage] at kept
          cases steps with
          | nil => exact kept
          | cons step rest =>
              have sends : CheckEvent.step? ⟨before, .send i⟩ = some step := by
                simp only [CheckEvent.step?, stage]
              cases kept with
              | sending earlier _ split sent opened =>
                  have marked : step ∈ input.marks allocator (.int seconds) := by
                    rw [split]
                    exact List.mem_append_right _ List.mem_cons_self
                  have replied : CheckEvent.reply allocator ⟨before, .send i⟩ = .ok none := by
                    rw [CheckEvent.reply, CheckEvent.script, sends]
                    exact CheckInput.marks_reply positive marked before.redis
                  simp only [CheckInput.replied, replied]
                  refine .sending (earlier ++ [step]) rest (by rw [split]; simp) ?_ opened
                  intro other member
                  rcases List.mem_append.mp member with member | isStep
                  · exact sent other member
                  · rw [List.mem_singleton.mp isStep]
                    exact ⟨_, List.mem_append_right _ List.mem_cons_self, rfl, sends⟩
  | close j =>
      cases about
      have kept := @CheckProgress.snoc _ _ _ _ ⟨before, .close i⟩ _ _ _ progress
      simp only [CheckEvent.stageAfter]
      cases stage : before.stages i with
      | waiting => rwa [stage] at kept
      | done outcome instant => rwa [stage] at kept
      | sending steps outcome =>
          rw [stage] at kept
          cases steps with
          | cons step rest => exact kept
          | nil =>
              cases kept with
              | sending earlier _ split sent opened =>
                  refine .done _ (fun step marked => sent step ?_) opened
                  rwa [split, List.append_nil] at marked

theorem CheckProgress.of_run {start : CheckState Error} (positive : 0 < seconds)
    (waiting : start.stages = fun _ => .waiting)
    (run : CheckRun allocator (.int seconds) inputs maxThreads start past s)
    (isInput : inputs[i]? = some input) :
    CheckProgress allocator seconds input past i (s.stages i) := by
  have begun : CheckProgress allocator seconds input [] i (start.stages i) := by
    rw [waiting]
    exact .waiting
  refine run.history (fun past s => CheckProgress allocator seconds input past i (s.stages i))
    (fun past s event s' progress step => ?_) begun
  obtain ⟨⟨elapsed, later⟩, _, _, rfl⟩ := step
  have same : event.before.stages = s.stages := by rw [later]
  rw [← same] at progress
  simp only [CheckEvent.after, CheckEvent.stagesAfter, isInput]
  split
  · rename_i about
    exact progress.step positive about
  · exact progress.snoc

end Progress

/-! ## The results -/

section Results

variable {Error : Type} {allocator : Allocator} {seconds : Int} {input : CheckInput Error}
  {past : List (CheckEvent Error)} {i : Nat}

/-- Nothing was raised in the check of this object. -/
structure CheckInput.Clean (input : CheckInput Error) : Prop where
  opened : input.opening = .ok ()
  closed : input.closing = .ok ()
  answered : input.health = .ok input.answer

theorem CheckInput.Clean.close (clean : input.Clean) :
    input.close input.verdict = .ok input.answer := by
  rw [CheckInput.close, clean.closed, CheckInput.verdict, clean.answered]
  rfl

theorem CheckInput.clean_of_close {result : Bool} (opened : input.opening = .ok ())
    (returned : input.close input.verdict = .ok result) : input.Clean ∧ result = input.answer := by
  rw [CheckInput.close] at returned
  cases closing : input.closing with
  | error error =>
      rw [closing] at returned
      cases returned
  | ok _ =>
      rw [closing] at returned
      cases health : input.health with
      | error error =>
          rw [CheckInput.verdict, health] at returned
          cases returned
      | ok answer =>
          rw [CheckInput.verdict, health] at returned
          have same : answer = input.answer := by rw [CheckInput.answer, health]
          cases returned
          exact ⟨⟨opened, closing, by rw [health, ← same]⟩, same⟩

theorem CheckProgress.clean {result : Bool} {instant : Nat}
    (progress : CheckProgress allocator seconds input past i (.done (.ok result) instant)) :
    input.Clean ∧ result = input.answer := by
  generalize stage : CheckStage.done (.ok result) instant = reached at progress
  cases progress with
  | waiting => cases stage
  | unopened error _ failed => cases stage
  | sending earlier rest split sent opened => cases stage
  | done _ sent opened =>
      rw [CheckStage.done.injEq] at stage
      exact CheckInput.clean_of_close opened stage.1.symm

theorem CheckProgress.done_of_clean {outcome : Except (Raised Error) Bool} {instant : Nat}
    (clean : input.Clean)
    (progress : CheckProgress allocator seconds input past i (.done outcome instant)) :
    outcome = .ok input.answer := by
  cases progress with
  | unopened error _ failed =>
      rw [clean.opened] at failed
      cases failed
  | done _ sent opened => exact clean.close

theorem CheckStage.result_ok_iff {deadline : Option Nat} {now turn : Nat}
    {stage : CheckStage Error} {result : Bool} :
    stage.result deadline now turn = some (.ok result) ↔
      ∃ instant, stage = .done (.ok result) instant ∧ ∀ last ∈ deadline, instant ≤ max turn last := by
  have inTime : ∀ instant, (deadline.all fun last => decide (instant ≤ max turn last)) = true ↔
      ∀ last ∈ deadline, instant ≤ max turn last := by
    intro instant
    cases deadline <;> simp
  cases stage with
  | done outcome instant =>
      rw [CheckStage.result]
      by_cases early : ∀ last ∈ deadline, instant ≤ max turn last
      · rw [if_pos ((inTime instant).mpr early)]
        cases outcome with
        | error error =>
            refine iff_of_false (fun same => nomatch same) ?_
            rintro ⟨_, same, _⟩
            cases same
        | ok answer =>
            constructor
            · intro same
              cases same
              exact ⟨instant, rfl, early⟩
            · rintro ⟨_, same, _⟩
              cases same
              rfl
      · rw [if_neg fun all => early ((inTime instant).mp all)]
        refine iff_of_false (fun same => nomatch same) ?_
        rintro ⟨_, same, all⟩
        cases same
        exact early all
  | _ =>
      rw [CheckStage.result]
      · refine iff_of_false (fun same => ?_) ?_
        · split at same <;> cases same
        · rintro ⟨_, same, _⟩
          cases same
      · exact fun _ _ same => nomatch same

theorem gather_iff {deadline : Option Nat} {now : Nat} {stages : List (CheckStage Error × Nat)}
    {results : List Bool} :
    gather deadline now stages = some (.ok results) ↔
      List.Forall₂ (fun (stage : CheckStage Error × Nat) result =>
        stage.1.result deadline now stage.2 = some (.ok result)) stages results := by
  induction stages generalizing results with
  | nil =>
      rw [List.forall₂_nil_left_iff, gather]
      constructor
      · intro same
        cases same
        rfl
      · rintro rfl
        rfl
  | cons first rest ih =>
      obtain ⟨stage, turn⟩ := first
      rw [List.forall₂_cons_left_iff, gather]
      cases found : stage.result deadline now turn with
      | none =>
          refine iff_of_false (fun same => nomatch same) ?_
          rintro ⟨_, _, same, _⟩
          cases same
      | some outcome =>
          cases outcome with
          | error error =>
              refine iff_of_false (fun same => nomatch same) ?_
              rintro ⟨_, _, same, _⟩
              cases same
          | ok result =>
              simp only [Option.map_eq_some_iff]
              constructor
              · rintro ⟨reached, gathered, same⟩
                cases reached with
                | error error => cases same
                | ok later =>
                    cases same
                    exact ⟨result, later, rfl, ih.mp gathered, rfl⟩
              · rintro ⟨_, later, ⟨⟩, all, rfl⟩
                exact ⟨.ok later, ih.mpr all, rfl⟩

end Results

/-! ## The whole check -/

section Runs

variable {Error : Type} {allocator : Allocator} {duration : Timeout} {seconds : Int}
  {inputs : List (CheckInput Error)} {maxThreads : Nat} {start final : CheckState Error}
  {events : List (CheckEvent Error)} {k : String} {instant : Nat}

theorem LockedUntil.checkRun
    (run : CheckRun allocator duration inputs maxThreads start events final)
    (locked : LockedUntil k instant start.redis)
    (kept : ∀ event ∈ events, ¬ event.Lifts allocator k instant) :
    LockedUntil k instant final.redis := by
  refine run.invariant (fun s => LockedUntil k instant s.redis)
    (fun event => ¬ event.Lifts allocator k instant) (fun s event s' locked allowed step => ?_)
    locked kept
  obtain ⟨⟨elapsed, later⟩, _, admissible, rfl⟩ := step
  have started : LockedUntil k instant event.before.redis := later ▸ locked.advance elapsed
  rw [CheckEvent.after, CheckEvent.script]
  cases sends : event.step? with
  | none => exact started
  | some step =>
      refine @LockedUntil.after _ _ _ ⟨event.before.redis, step⟩ started (fun call isCall => ?_)
        fun lifts => allowed ⟨step, sends, lifts⟩
      exact admissible call (isCall ▸ sends)

theorem CheckRun.marked (positive : 0 < seconds)
    (run : CheckRun allocator duration inputs maxThreads start events final) {i : Nat}
    (sent : HasSent events i (.lockUpdate k "1" (.int seconds))) :
    ∃ earlier mark later, events = earlier ++ mark :: later ∧
      mark.step? = some (.lockUpdate k "1" (.int seconds)) ∧
      ((∀ event ∈ later, ¬ event.Lifts allocator k (mark.before.redis.deadline seconds)) →
        LockedUntil k (mark.before.redis.deadline seconds) final.redis) := by
  obtain ⟨mark, inEvents, _, sends⟩ := sent
  obtain ⟨earlier, later, rfl⟩ := List.append_of_mem inEvents
  refine ⟨earlier, mark, later, rfl, sends, fun kept => ?_⟩
  obtain ⟨_, _, run⟩ := run.of_append
  obtain ⟨_, ⟨_, _, _, rfl⟩, run⟩ := Run.cons_iff.mp run
  refine LockedUntil.checkRun run ?_ kept
  have marked := @LockedUntil.of_mark allocator k
    ⟨mark.before.redis, .lockUpdate k "1" (.int seconds)⟩ _ seconds positive rfl
  rwa [CheckEvent.after, CheckEvent.script, sends]

theorem CheckRun.checkHealth_iff (positive : 0 < seconds)
    (waiting : start.stages = fun _ => .waiting)
    (run : CheckRun allocator (.int seconds) inputs maxThreads start events final)
    (deadline : Option Nat) (turns : Nat → Nat) (counts : Nat × Nat) :
    checkHealth inputs deadline turns final = some (.ok counts) ↔
      (∀ i < inputs.length, ∃ outcome instant, final.stages i = .done outcome instant ∧
        ∀ last ∈ deadline, instant ≤ max (turns i) last) ∧
      (∀ input ∈ inputs, input.Clean) ∧
      counts = (inputs.countP (·.answer), inputs.length - inputs.countP (·.answer)) := by
  have progress (i : Nat) (below : i < inputs.length) :
      CheckProgress allocator seconds inputs[i] events i (final.stages i) :=
    CheckProgress.of_run positive waiting run (List.getElem?_eq_getElem below)
  have counted : (inputs.map (·.answer)).countP id = inputs.countP (·.answer) := by
    rw [List.countP_map]
    rfl
  rw [checkHealth]
  constructor
  · intro returned
    rw [Option.map_eq_some_iff] at returned
    obtain ⟨reached, gathered, same⟩ := returned
    cases reached with
    | error error => cases same
    | ok results =>
        obtain ⟨length, all⟩ := List.forall₂_iff_get.mp (gather_iff.mp gathered)
        have sameLength : results.length = inputs.length := by simpa using length.symm
        have each (i : Nat) (below : i < inputs.length) : ∃ instant,
            final.stages i = .done (.ok results[i]) instant ∧
              ∀ last ∈ deadline, instant ≤ max (turns i) last := by
          have result := all i (by simpa using below) (by omega)
          simpa using CheckStage.result_ok_iff.mp result
        have clean (i : Nat) (below : i < inputs.length) :
            inputs[i].Clean ∧ results[i] = inputs[i].answer := by
          obtain ⟨instant, done, _⟩ := each i below
          exact CheckProgress.clean (done ▸ progress i below)
        have answers : results = inputs.map (·.answer) := by
          refine List.ext_getElem (by simp [sameLength]) fun i _ below => ?_
          rw [List.length_map] at below
          simp [(clean i below).2]
        refine ⟨fun i below => ?_, fun input inInputs => ?_, ?_⟩
        · obtain ⟨instant, done, early⟩ := each i below
          exact ⟨_, instant, done, early⟩
        · obtain ⟨i, below, rfl⟩ := List.mem_iff_getElem.mp inInputs
          exact (clean i below).1
        · cases same
          simp only [answers, counted, List.length_map]
  · rintro ⟨finished, clean, rfl⟩
    have gathered : gather deadline final.redis.now ((List.range inputs.length).map fun i =>
        (final.stages i, turns i)) = some (.ok (inputs.map (·.answer))) := by
      refine gather_iff.mpr (List.forall₂_iff_get.mpr ⟨by simp, fun i below _ => ?_⟩)
      rw [List.length_map, List.length_range] at below
      obtain ⟨outcome, instant, done, early⟩ := finished i below
      have returned := CheckProgress.done_of_clean (clean _ (List.getElem_mem below))
        (done ▸ progress i below)
      refine CheckStage.result_ok_iff.mpr ⟨instant, ?_, by simpa using early⟩
      simp [done, returned]
    rw [gathered, Option.map_some, Except.map, counted, List.length_map]

end Runs

/-- Whatever other clients do meanwhile, `check_health` returns counts exactly when every check went
through in time, and then the counts of the answers.  A check that came to its end with a bad answer
has locked its key for an hour, and the lock is there as long as no later command lifts it; in shared
mode one with a good answer has taken the lock of its key away. -/
theorem checkHealth_marks {Error : Type} (allocator : Allocator) (inputs : List (CheckInput Error))
    (maxThreads : Nat) {start final : CheckState Error} {events : List (CheckEvent Error)}
    (waiting : start.stages = fun _ => .waiting)
    (run : CheckRun allocator onceDuration inputs maxThreads start events final) :
    (∀ deadline turns counts, checkHealth inputs deadline turns final = some (.ok counts) ↔
      (∀ i < inputs.length, ∃ outcome instant, final.stages i = .done outcome instant ∧
        ∀ last ∈ deadline, instant ≤ max (turns i) last) ∧
      (∀ input ∈ inputs, input.Clean) ∧
      counts = (inputs.countP (·.answer), inputs.length - inputs.countP (·.answer))) ∧
    ∀ i input outcome instant, inputs[i]? = some input →
      final.stages i = .done outcome instant → input.opening = .ok () →
      if input.answer then
        allocator.shared = true → ∃ earlier sent later, events = earlier ++ sent :: later ∧
          sent.step? = some (.unlock input.object.key) ∧
          (sent.after allocator onceDuration inputs).redis.locked input.object.key = false
      else ∃ earlier mark later, events = earlier ++ mark :: later ∧
        mark.step? = some (.lockUpdate input.object.key "1" onceDuration) ∧
        ((∀ event ∈ later,
          ¬ event.Lifts allocator input.object.key (mark.before.redis.deadline 3600)) →
          LockedUntil input.object.key (mark.before.redis.deadline 3600) final.redis) := by
  have hour : (0 : Int) < 3600 := by decide
  refine ⟨CheckRun.checkHealth_iff hour waiting run,
    fun i input outcome instant isInput done opened => ?_⟩
  have progress := CheckProgress.of_run hour waiting run isInput
  rw [done] at progress
  have sent : ∀ step ∈ input.marks allocator (.int 3600), HasSent events i step := by
    cases progress with
    | unopened error _ failed =>
        rw [opened] at failed
        cases failed
    | done _ sent _ => exact sent
  rw [CheckInput.marks] at sent
  split
  · rename_i good
    intro shared
    rw [if_pos good, if_pos shared] at sent
    obtain ⟨event, inEvents, _, sends⟩ := sent _ List.mem_cons_self
    obtain ⟨earlier, later, split⟩ := List.append_of_mem inEvents
    refine ⟨earlier, event, later, split, sends, ?_⟩
    have sentRun : Step.script allocator (.unlock input.object.key) event.before.redis =
        (.ok none, event.before.redis.putLock input.object.key none) := by
      rw [Step.script, bind_ok (unlock_run _ _)]
      rfl
    simp [CheckEvent.after, CheckEvent.script, sends, sentRun]
  · rename_i bad
    rw [if_neg bad] at sent
    exact CheckRun.marked hour run (sent _ (List.mem_append_right _ List.mem_cons_self))

/-- One object is asked while another client is handed its key. -/
def sickInput : CheckInput String := ⟨⟨"k", some "job", false⟩, .ok (), .ok false, .ok ()⟩

def checkStart : CheckState String := ⟨(markStart.after sharedAllocator), fun _ => .waiting⟩

def checkBegin : CheckEvent String := ⟨checkStart, .begin 0⟩

def checkUnbind : CheckEvent String :=
  ⟨checkBegin.after sharedAllocator onceDuration [sickInput], .send 0⟩

def checkOther : CheckEvent String :=
  ⟨checkUnbind.after sharedAllocator onceDuration [sickInput],
    .other (.pool (.mallocKey (.int 5) none (.int 60)))⟩

def checkMark : CheckEvent String :=
  ⟨checkOther.after sharedAllocator onceDuration [sickInput], .send 0⟩

def checkClose : CheckEvent String :=
  ⟨checkMark.after sharedAllocator onceDuration [sickInput], .close 0⟩

def checkEnd : CheckState String := checkClose.after sharedAllocator onceDuration [sickInput]

theorem check_run : CheckRun sharedAllocator onceDuration [sickInput] 8 checkStart
    [checkBegin, checkUnbind, checkOther, checkMark, checkClose] checkEnd := by
  refine .fire ⟨⟨0, rfl⟩, ?_, ?_, rfl⟩ (.fire ⟨⟨0, rfl⟩, ⟨_, _, _, rfl⟩, ?_, rfl⟩
    (.fire ⟨⟨0, rfl⟩, trivial, ?_, rfl⟩ (.fire ⟨⟨0, rfl⟩, ⟨_, _, _, rfl⟩, ?_, rfl⟩
      (.fire ⟨⟨0, rfl⟩, ⟨_, rfl⟩, ?_, rfl⟩ (.done _)))))
  · refine ⟨by decide, fun j below => ?_, by decide⟩
    exact iff_of_true trivial (Nat.zero_le j)
  all_goals
    rintro _ ⟨⟩ <;> trivial

theorem checkHealth_marks_sick :
    (∀ deadline turns counts, checkHealth [sickInput] deadline turns checkEnd =
        some (.ok counts) ↔
      (∀ i < [sickInput].length, ∃ outcome instant, checkEnd.stages i = .done outcome instant ∧
        ∀ last ∈ deadline, instant ≤ max (turns i) last) ∧
      (∀ input ∈ [sickInput], input.Clean) ∧
      counts = ([sickInput].countP (·.answer),
        [sickInput].length - [sickInput].countP (·.answer))) ∧
    ∀ i input outcome instant, [sickInput][i]? = some input →
      checkEnd.stages i = .done outcome instant → input.opening = .ok () →
      if input.answer then
        sharedAllocator.shared = true → ∃ earlier sent later,
          [checkBegin, checkUnbind, checkOther, checkMark, checkClose] =
            earlier ++ sent :: later ∧
          sent.step? = some (.unlock input.object.key) ∧
          (sent.after sharedAllocator onceDuration [sickInput]).redis.locked input.object.key = false
      else ∃ earlier mark later,
        [checkBegin, checkUnbind, checkOther, checkMark, checkClose] = earlier ++ mark :: later ∧
        mark.step? = some (.lockUpdate input.object.key "1" onceDuration) ∧
        ((∀ event ∈ later,
          ¬ event.Lifts sharedAllocator input.object.key (mark.before.redis.deadline 3600)) →
          LockedUntil input.object.key (mark.before.redis.deadline 3600) checkEnd.redis) :=
  checkHealth_marks sharedAllocator [sickInput] 8 rfl check_run

end RedisAllocator

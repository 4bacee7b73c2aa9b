import RedisAllocator.TaskQueue.RemoteExecution

/-!
# Waiting for a finished record

`execute_task_remotely` beside a worker that is known by what it writes to the record
of the submitted id.
-/

set_option autoImplicit false

namespace RedisAllocator

variable {P V E : Type}

/-- The end of the worker's run: what the task function came to and when that was stored. -/
structure Completion (V E : Type) where
  outcome : Except (TaskError E) (Option V)
  instant : Rat

abbrev Awaited (P V E : Type) : Type := World P V E (Option (Completion V E))

/-- A copy of the submitted task as a worker holds it. -/
def RedisTask.CopyOf (copy task : RedisTask P V E) : Prop :=
  copy.id = task.id ∧ copy.error = task.error ∧ copy.result = task.result

/-- One step of the others: the worker reports, or stores the finished record, once. -/
inductive Background (q : TaskQueue) (task : RedisTask P V E) :
    Awaited P V E → Awaited P V E → Prop
  | wait {s : TaskStore P V E} {done : Option (Completion V E)} (elapsed : Rat)
      (forward : 0 ≤ elapsed) :
      Background q task ⟨s, done⟩ ⟨{ s with now := s.now + elapsed }, done⟩
  | others {s s' : TaskStore P V E} {done : Option (Completion V E)} (sameClock : s'.now = s.now)
      (sameRecord : s'.results task.id = s.results task.id) :
      Background q task ⟨s, done⟩ ⟨s', done⟩
  | report {s : TaskStore P V E} (copy : RedisTask P V E) (isCopy : copy.CopyOf task)
      (current total : Rat) :
      Background q task ⟨s, none⟩ ⟨(copy.update q current total s).2.2, none⟩
  | finish {s : TaskStore P V E} (copy : RedisTask P V E) (isCopy : copy.CopyOf task)
      (saves : copy.saves = true) (outcome : Except (TaskError E) (Option V)) :
      Background q task ⟨s, none⟩
        ⟨((copy.withOutcome outcome).save q s).2, some ⟨outcome, s.now⟩⟩

abbrev Backgrounds (q : TaskQueue) (task : RedisTask P V E) :
    Awaited P V E → Awaited P V E → Prop :=
  Relation.ReflTransGen (Background q task)

/-- The arguments of `execute_task_remotely`, the store its `SETEX` finds and its surroundings. -/
structure RemoteCall (P V E : Type) where
  q : TaskQueue
  task : RedisTask P V E
  timeout : Option Rat
  once : Bool
  store : TaskStore P V E
  around : Surroundings (Background q task)

namespace RemoteCall

variable (call : RemoteCall P V E)

def attempt : RemoteAttempt (Background call.q call.task) :=
  ⟨call.q, call.task, call.timeout, call.once, ⟨call.store, none⟩, call.around⟩

def executeTaskRemotely (fuel : Nat) : Option (Answer P V E (Option (Completion V E))) :=
  call.attempt.executeTaskRemotely fuel

def deadline : Rat := call.attempt.deadline

def looked (n : Nat) : Awaited P V E := call.attempt.looked n

def checked (n : Nat) : Awaited P V E := call.attempt.checked n

def IsLast (last : Nat) : Prop := call.attempt.IsLast last

end RemoteCall

/-! ## The record -/

def RedisTask.completed (task : RedisTask P V E) : Option (Completion V E) → RedisTask P V E
  | none => task
  | some done => task.withOutcome done.outcome

/-- A record of the submitted id is the task's, or the finished one. -/
def Reflects (task : RedisTask P V E) (w : Awaited P V E) : Prop :=
  ∀ stored, w.store.results task.id = some stored →
    stored.task.val.error = (task.completed w.others).error ∧
      stored.task.val.result = (task.completed w.others).result

theorem Reflects.step {q : TaskQueue} {task : RedisTask P V E} {w w' : Awaited P V E}
    (step : Background q task w w') (reflects : Reflects task w) : Reflects task w' := by
  cases step with
  | wait elapsed forward => exact reflects
  | others sameClock sameRecord =>
      intro stored present
      rw [sameRecord] at present
      exact reflects stored present
  | @report s copy isCopy current total =>
      rcases copy.update_cases q current total s with unsaved | saved
      · rw [unsaved]
        exact reflects
      · rw [saved]
        intro stored present
        have written := q.results_setTask (copy.withProgress s.now current total) s isCopy.1
        cases written.symm.trans present
        exact isCopy.2
  | @finish s copy isCopy saves outcome =>
      intro stored present
      rw [RedisTask.results_save q s (by rw [RedisTask.id_withOutcome, isCopy.1]),
        RedisTask.saves_withOutcome, if_pos saves] at present
      cases present
      cases outcome with
      | ok value => exact ⟨isCopy.2.1, rfl⟩
      | error e => exact ⟨rfl, isCopy.2.2⟩

theorem Reflects.run {q : TaskQueue} {task : RedisTask P V E} {w w' : Awaited P V E}
    (run : Backgrounds q task w w') (reflects : Reflects task w) : Reflects task w' := by
  induction run with
  | refl => exact reflects
  | tail _ step ih => exact ih.step step

theorem Background.keeps {q : TaskQueue} {task : RedisTask P V E} {w w' : Awaited P V E}
    (step : Background q task w w') {done : Completion V E} (finished : w.others = some done) :
    w'.others = some done := by
  cases step with
  | wait elapsed forward => exact finished
  | others sameClock sameRecord => exact finished
  | report copy isCopy current total => cases finished
  | finish copy isCopy saves outcome => cases finished

theorem Backgrounds.keeps {q : TaskQueue} {task : RedisTask P V E} {w w' : Awaited P V E}
    (run : Backgrounds q task w w') {done : Completion V E} (finished : w.others = some done) :
    w'.others = some done := by
  induction run with
  | refl => exact finished
  | tail _ step ih => exact step.keeps ih

theorem Background.instant {q : TaskQueue} {task : RedisTask P V E} {w w' : Awaited P V E}
    (step : Background q task w w') : w.store.now ≤ w'.store.now ∧
      (w.others = none → ∀ done, w'.others = some done → done.instant = w.store.now) := by
  cases step with
  | wait elapsed forward =>
      refine ⟨le_add_of_nonneg_right forward, fun pending done finished => ?_⟩
      cases pending.symm.trans finished
  | others sameClock sameRecord =>
      refine ⟨sameClock.ge, fun pending done finished => ?_⟩
      cases pending.symm.trans finished
  | report copy isCopy current total =>
      refine ⟨(copy.now_update q current total _).ge, fun _ done finished => ?_⟩
      cases finished
  | finish copy isCopy saves outcome =>
      refine ⟨(RedisTask.now_save q _ _).ge, fun _ done finished => ?_⟩
      cases finished
      rfl

/-- A record that is finished later is stored later. -/
theorem Backgrounds.instant {q : TaskQueue} {task : RedisTask P V E} {w w' : Awaited P V E}
    (run : Backgrounds q task w w') : w.store.now ≤ w'.store.now ∧
      (w.others = none → ∀ done, w'.others = some done → w.store.now ≤ done.instant) := by
  induction run with
  | refl =>
      refine ⟨le_rfl, fun pending done finished => ?_⟩
      cases pending.symm.trans finished
  | @tail w₁ w₂ _ step ih =>
      refine ⟨ih.1.trans step.instant.1, fun pending done finished => ?_⟩
      cases meanwhile : w₁.others with
      | none => exact ih.1.trans (step.instant.2 meanwhile done finished).ge
      | some earlier =>
          cases (step.keeps meanwhile).symm.trans finished
          exact ih.2 pending done meanwhile

theorem Reflects.look {task : RedisTask P V E} {w : Awaited P V E} (reflects : Reflects task w) :
    w.store.reply? task.id =
      if w.store.hasTask task.id then (task.completed w.others).reply? else none := by
  rw [TaskStore.reply?]
  split
  · rename_i has
    obtain ⟨record, found⟩ := TaskStore.getTask_of_hasTask has
    obtain ⟨stored, present, _, rfl⟩ := TaskStore.results_of_getTask found
    obtain ⟨error, result⟩ := reflects stored present
    rw [found, Option.bind_some]
    exact RedisTask.reply?_congr error result
  · rename_i has
    cases found : w.store.getTask task.id with
    | none => rfl
    | some record => exact absurd (TaskStore.hasTask_of_getTask found) has

/-- `None` is taken for a pending result, and an error the task was submitted with for the
worker's. -/
theorem RedisTask.reply?_withOutcome (task : RedisTask P V E)
    (outcome : Except (TaskError E) (Option V)) :
    (task.withOutcome outcome).reply? = some (Reply.of outcome) ↔
      outcome ≠ .ok none ∧ (task.error = none ∨ ∃ e, outcome = .error e) := by
  cases outcome with
  | error e => simp [RedisTask.withOutcome, RedisTask.reply?, Reply.of]
  | ok value =>
      cases own : task.error <;> cases value <;>
        simp [RedisTask.withOutcome, RedisTask.reply?, Reply.of, own]

/-! ## What the caller observes -/

/-- The caller gets the outcome from the finished record, and `once` deletes it. -/
def Answer.Observes (answer : Answer P V E (Option (Completion V E))) (once : Bool)
    (outcome : Except (TaskError E) (Option V)) : Prop :=
  answer.reply = Reply.of outcome ∧ answer.seen.others.isSome ∧ answer.deleted = once

/-- The `GET` that settles a submitted task: the last one, or with a record that shows an error or
a result from the start the first one. -/
def RedisTask.decisive (task : RedisTask P V E) (last : Nat) : Nat :=
  if task.reply? = none then last else 0

namespace RemoteCall

/-- The worker stores the outcome no later than the deadline, and no poll misses it because it has
lapsed. -/
structure FinishedInTime (call : RemoteCall P V E) (last : Nat)
    (outcome : Except (TaskError E) (Option V)) : Prop where
  inTime : ∃ instant ≤ call.deadline, ∃ later,
    Backgrounds call.q call.task (call.checked last) later ∧
      later.others = some ⟨outcome, instant⟩
  unlapsed : ∀ n ≤ last, (call.looked n).others.isSome ∨ call.task.reply? ≠ none →
    (call.looked n).store.hasTask call.task.id

variable {call : RemoteCall P V E} {last : Nat}

theorem reflects_looked (n : Nat) : Reflects call.task (call.looked n) := by
  have sent : Reflects call.task (⟨(call.q.setTask call.attempt.sent call.store).2, none⟩ :
      Awaited P V E) := by
    intro stored present
    cases (call.q.results_setTask call.attempt.sent call.store rfl).symm.trans present
    exact ⟨rfl, rfl⟩
  have queued := sent.run (call.around.stored.2 _)
  have submitted : Reflects call.task call.attempt.submitted :=
    Reflects.run (call.around.pushed.2 _) queued
  exact submitted.run (call.attempt.related.1 n)

theorem look_looked (n : Nat) : (call.looked n).store.reply? call.task.id =
    if (call.looked n).store.hasTask call.task.id then
      (call.task.completed (call.looked n).others).reply?
    else none :=
  (reflects_looked n).look

theorem FinishedInTime.outcome_eq {outcome : Except (TaskError E) (Option V)}
    (inTime : call.FinishedInTime last outcome) {n : Nat} (bounded : n ≤ last)
    {done : Completion V E} (finished : (call.looked n).others = some done) :
    done.outcome = outcome := by
  obtain ⟨instant, _, later, further, stored⟩ := inTime.inTime
  have checked : Backgrounds call.q call.task (call.looked n) (call.checked last) :=
    (call.attempt.related.2 n last bounded).trans (call.around.thinks last _)
  have still := Backgrounds.keeps (checked.trans further) finished
  cases still.symm.trans stored
  rfl

theorem FinishedInTime.look_finished {outcome : Except (TaskError E) (Option V)}
    (inTime : call.FinishedInTime last outcome) {n : Nat} (bounded : n ≤ last)
    (finished : (call.looked n).others.isSome) :
    (call.looked n).store.reply? call.task.id = (call.task.withOutcome outcome).reply? := by
  obtain ⟨done, isDone⟩ := Option.isSome_iff_exists.mp finished
  have has := inTime.unlapsed n bounded (Or.inl finished)
  rw [look_looked, if_pos has, isDone, RedisTask.completed, inTime.outcome_eq bounded isDone]

theorem look_pending {n : Nat} (pending : (call.looked n).others.isSome = false) :
    (call.looked n).store.reply? call.task.id = none ∨
      (call.looked n).store.reply? call.task.id = call.task.reply? := by
  rw [Option.isSome_eq_false_iff, Option.isNone_iff_eq_none] at pending
  rw [look_looked, pending]
  split
  · exact Or.inr rfl
  · exact Or.inl rfl

/-- What is stored before the instant of a poll is there to be seen. -/
theorem finished_of_instant_lt {outcome : Except (TaskError E) (Option V)} {instant : Rat}
    {later : Awaited P V E} (run : Backgrounds call.q call.task (call.checked last) later)
    (stored : later.others = some ⟨outcome, instant⟩)
    (before : instant < (call.looked last).store.now) : (call.looked last).others.isSome := by
  by_contra unfinished
  have whole : Backgrounds call.q call.task (call.looked last) later :=
    .trans (call.around.thinks last _) run
  have late := whole.instant.2 (Option.not_isSome_iff_eq_none.mp unfinished) _ stored
  exact absurd before (not_lt.mpr late)

theorem decisive_le : call.task.decisive last ≤ last := by
  rw [RedisTask.decisive]
  split
  · exact le_rfl
  · exact Nat.zero_le last

theorem FinishedInTime.finished_decisive {outcome : Except (TaskError E) (Option V)}
    (inTime : call.FinishedInTime last outcome) {n : Nat} (bounded : n ≤ last)
    (unseen : ∀ m < n, (call.looked m).store.reply? call.task.id = none)
    (finished : (call.looked n).others.isSome) :
    (call.looked (call.task.decisive last)).others.isSome := by
  by_cases pending : call.task.reply? = none
  · obtain ⟨done, isDone⟩ := Option.isSome_iff_exists.mp finished
    rw [RedisTask.decisive, if_pos pending]
    exact Option.isSome_iff_exists.mpr
      ⟨done, Backgrounds.keeps (call.attempt.related.2 n last bounded) isDone⟩
  · rw [RedisTask.decisive, if_neg pending]
    by_contra unfinished
    have early : (call.looked 0).others = none := Option.not_isSome_iff_eq_none.mp unfinished
    have has := inTime.unlapsed 0 (Nat.zero_le last) (Or.inr pending)
    have shows : (call.looked 0).store.reply? call.task.id = call.task.reply? := by
      rw [look_looked, if_pos has, early]
      rfl
    -- the first poll replies already
    cases n with
    | zero => exact unfinished finished
    | succ n => exact pending (shows.symm.trans (unseen 0 (Nat.succ_pos n)))

theorem finished_of_decisive {n : Nat}
    (unseen : ∀ m < n, (call.looked m).store.reply? call.task.id = none)
    {reply handedOn : Reply V E} (found : (call.looked n).store.reply? call.task.id = some reply)
    (finished : (call.looked (call.task.decisive last)).others.isSome)
    (shows : (call.looked (call.task.decisive last)).store.reply? call.task.id = some handedOn) :
    (call.looked n).others.isSome := by
  have ordered : n ≤ call.task.decisive last := by
    by_contra later
    cases (unseen _ (not_le.mp later)).symm.trans shows
  by_contra unfinished
  rcases look_pending (Bool.eq_false_iff.mpr unfinished) with nothing | own
  · cases nothing.symm.trans found
  · have replies : call.task.reply? ≠ none := by
      rw [← own, found]
      exact Option.some_ne_none reply
    rw [RedisTask.decisive, if_neg replies] at ordered finished
    rw [Nat.le_zero.mp ordered] at unfinished
    exact unfinished finished

end RemoteCall

/-! ## A worker that is done after the first nap -/

def sampleFinish (outcome : Except (TaskError Unit) (Option Nat)) :
    Awaited Unit Nat Unit → Awaited Unit Nat Unit
  | ⟨s, none⟩ => ⟨((sampleTask.withOutcome outcome).save sampleQueue s).2, some ⟨outcome, s.now⟩⟩
  | w => w

theorem now_sampleFinish (outcome : Except (TaskError Unit) (Option Nat))
    (w : Awaited Unit Nat Unit) : (sampleFinish outcome w).store.now = w.store.now := by
  obtain ⟨s, _ | done⟩ := w
  · cases outcome <;> rfl
  · rfl

theorem results_sampleFinish (outcome : Except (TaskError Unit) (Option Nat))
    (s : TaskStore Unit Nat Unit) :
    (sampleFinish outcome ⟨s, none⟩).store.results sampleTask.id =
      some ⟨(sampleTask.withOutcome outcome).pickle, s.now + (300 : ℕ)⟩ := by
  cases outcome <;>
    exact RedisTask.results_save sampleQueue s (RedisTask.id_withOutcome sampleTask _)

theorem backgrounds_sampleFinish (outcome : Except (TaskError Unit) (Option Nat))
    (w : Awaited Unit Nat Unit) :
    Backgrounds sampleQueue sampleTask w (sampleFinish outcome w) := by
  obtain ⟨s, _ | done⟩ := w
  · exact .single (.finish sampleTask ⟨rfl, rfl, rfl⟩ rfl outcome)
  · exact .refl

def sampleSurroundings (outcome : Except (TaskError Unit) (Option Nat)) :
    Surroundings (Background sampleQueue sampleTask) where
  clock := 0
  stored := ⟨id, fun _ => .refl⟩
  pushed := ⟨id, fun _ => .refl⟩
  loop := {
    arrive := fun _ => id
    think := fun _ => id
    nap := fun _ duration w => sampleFinish outcome (sampleNap duration w)
    arrives := fun _ _ => le_rfl
    thinks := fun _ _ => le_rfl
    naps := fun _ duration w => by
      rw [now_sampleFinish]
      exact add_le_add_right (le_max_left duration 0) _ }
  cleaning := ⟨id, fun _ => .refl⟩
  arrives := fun _ _ => .refl
  thinks := fun _ _ => .refl
  naps := fun _ duration w =>
    .head (.wait (max duration 0) (le_max_right duration 0)) (backgrounds_sampleFinish outcome _)

/-- The caller polls at once and after five seconds. -/
def sampleCall (outcome : Except (TaskError Unit) (Option Nat)) : RemoteCall Unit Nat Unit :=
  ⟨sampleQueue, sampleTask, some 5, true, sampleTaskStore, sampleSurroundings outcome⟩

theorem deadline_sample (outcome : Except (TaskError Unit) (Option Nat)) :
    (sampleCall outcome).deadline = 5 := by
  change (0 : Rat) + 5 = 5
  norm_num

theorem looked_sample (outcome : Except (TaskError Unit) (Option Nat)) :
    (sampleCall outcome).looked 1 = sampleFinish outcome (sampleNap
      (min (sampleCall outcome).q.interval ((sampleCall outcome).deadline - 0))
        ((sampleCall outcome).looked 0)) :=
  rfl

theorem slept_sample (outcome : Except (TaskError Unit) (Option Nat)) :
    (0 : Rat) + max (min (sampleCall outcome).q.interval ((sampleCall outcome).deadline - 0)) 0 =
      5 := by
  rw [deadline_sample]
  change (0 : Rat) + max (min 5 (5 - 0)) 0 = 5
  norm_num

theorem isLast_sample (outcome : Except (TaskError Unit) (Option Nat)) :
    (sampleCall outcome).IsLast 1 := by
  have slept : ((sampleCall outcome).checked 1).store.now = 5 := by
    have late : ((sampleCall outcome).looked 1).store.now = 5 := by
      rw [looked_sample, now_sampleFinish]
      exact slept_sample outcome
    exact late
  constructor
  · exact (deadline_sample outcome).trans_le slept.ge
  · intro n early
    cases Nat.lt_one_iff.mp early
    exact (by norm_num : (0 : Rat) < 5).trans_eq (deadline_sample outcome).symm

theorem finished_sample (outcome : Except (TaskError Unit) (Option Nat)) :
    ((sampleCall outcome).looked 1).others = some ⟨outcome, 5⟩ := by
  rw [looked_sample, ← slept_sample outcome]
  rfl

theorem hasTask_sample (outcome : Except (TaskError Unit) (Option Nat)) {n : Nat}
    (bounded : n ≤ 1) : ((sampleCall outcome).looked n).store.hasTask sampleTask.id := by
  obtain ⟨stored, present, live⟩ : ∃ stored,
      ((sampleCall outcome).looked n).store.results sampleTask.id = some stored ∧
        ((sampleCall outcome).looked n).store.now < stored.lapsesAt := by
    rcases Nat.le_one_iff_eq_zero_or_eq_one.mp bounded with rfl | rfl
    · have sent := sampleQueue.results_setTask
        { sampleTask with expiry := 0 + sampleQueue.waits (some 5) } sampleTaskStore rfl
      exact ⟨_, sent, (by norm_num : (0 : Rat) < 0 + (300 : ℕ))⟩
    · rw [looked_sample]
      refine ⟨_, results_sampleFinish outcome _, ?_⟩
      rw [now_sampleFinish]
      exact lt_add_of_pos_right _ (by norm_num)
  exact TaskStore.hasTask_of_getTask ((TaskStore.getTask_of_results present).trans (if_pos live))

theorem finishedInTime_sample (outcome : Except (TaskError Unit) (Option Nat)) :
    (sampleCall outcome).FinishedInTime 1 outcome where
  inTime := ⟨5, (deadline_sample outcome).ge, (sampleCall outcome).checked 1, .refl,
    finished_sample outcome⟩
  unlapsed := fun _ bounded _ => hasTask_sample outcome bounded

end RedisAllocator

import RedisAllocator.TaskQueue.Tasks

/-!
# Running a task function

`execute_task_locally` beside whatever else goes on: between two steps of the
task function the world moves on as `env` lets it.  A task function is what it
does, a list of progress reports and an outcome.
-/

set_option autoImplicit false

namespace RedisAllocator

variable {P V E X : Type}

/-- The store and what the other parties are at. -/
structure World (P V E X : Type) where
  store : TaskStore P V E
  others : X

structure Report where
  current : Rat
  total : Rat
  instant : Rat

/-- The task function at work, up to the `finally` block: it calls `update`, which may raise and
be caught, and in the end returns or raises. -/
inductive Working (q : TaskQueue) (env : World P V E X → World P V E X → Prop) :
    RedisTask P V E → World P V E X → List Report → Except (TaskError E) (Option V) →
      RedisTask P V E → World P V E X → Prop
  | finish {task : RedisTask P V E} {w w' : World P V E X} (meanwhile : env w w')
      (outcome : Except (TaskError E) (Option V)) :
      Working q env task w [] outcome ((task.withOutcome outcome).save q w'.store).1
        { w' with store := ((task.withOutcome outcome).save q w'.store).2 }
  | report {task task' : RedisTask P V E} {w w' w'' : World P V E X} {reports : List Report}
      {outcome : Except (TaskError E) (Option V)} (meanwhile : env w w') (current total : Rat)
      (rest : Working q env (task.update q current total w'.store).2.1
        { w' with store := (task.update q current total w'.store).2.2 } reports outcome task' w'') :
      Working q env task w (⟨current, total, w'.store.now⟩ :: reports) outcome task' w''

def ExecuteTaskLocally (q : TaskQueue) (env : World P V E X → World P V E X → Prop)
    (task : RedisTask P V E) (timeout : Option Rat) (w : World P V E X) (reports : List Report)
    (outcome : Except (TaskError E) (Option V)) (task' : RedisTask P V E) (w' : World P V E X) :
    Prop :=
  Working q env (task.withTimeout w.store.now timeout) w reports outcome task' w'

/-! ## What one execution stores -/

/-- Time passes and nobody writes the record of `id`. -/
def Apart (id : String) (w w' : World P V E X) : Prop :=
  w.store.now ≤ w'.store.now ∧ w'.store.results id = w.store.results id

theorem Apart.trans {id : String} {w w' w'' : World P V E X} (first : Apart id w w')
    (second : Apart id w' w'') : Apart id w w'' :=
  ⟨first.1.trans second.1, second.2.trans first.2⟩

@[simp]
theorem RedisTask.saves_withOutcome (task : RedisTask P V E)
    (outcome : Except (TaskError E) (Option V)) :
    (task.withOutcome outcome).saves = task.saves := by
  cases outcome <;> rfl

@[simp]
theorem RedisTask.id_withOutcome (task : RedisTask P V E)
    (outcome : Except (TaskError E) (Option V)) : (task.withOutcome outcome).id = task.id := by
  cases outcome <;> rfl

@[simp]
theorem RedisTask.saves_withTimeout (task : RedisTask P V E) (now : Rat) (timeout : Option Rat) :
    (task.withTimeout now timeout).saves = task.saves := by
  cases timeout <;> rfl

@[simp]
theorem RedisTask.id_withTimeout (task : RedisTask P V E) (now : Rat) (timeout : Option Rat) :
    (task.withTimeout now timeout).id = task.id := by
  cases timeout <;> rfl

theorem RedisTask.save_silent (q : TaskQueue) {task : RedisTask P V E} (s : TaskStore P V E)
    (silent : task.saves = false) : task.save q s = (task, s) := by
  rw [RedisTask.save, silent]
  rfl

theorem RedisTask.update_silent (q : TaskQueue) {task : RedisTask P V E} (s : TaskStore P V E)
    (current total : Rat) (silent : task.saves = false) :
    (task.update q current total s).2 = (task.withProgress s.now current total, s) := by
  unfold RedisTask.update
  dsimp only
  split
  · rfl
  · exact RedisTask.save_silent q s silent

theorem Working.silent {q : TaskQueue} {env : World P V E X → World P V E X → Prop}
    {task task' : RedisTask P V E} {w w' : World P V E X} {reports : List Report}
    {outcome : Except (TaskError E) (Option V)} (silent : task.saves = false)
    (run : Working q env task w reports outcome task' w')
    (related : World P V E X → World P V E X → Prop)
    (allowed : ∀ w w', env w w' → related w w')
    (trans : ∀ w w' w'', related w w' → related w' w'' → related w w'') : related w w' := by
  induction run with
  | finish meanwhile outcome =>
      rw [RedisTask.save_silent q _ (by rw [RedisTask.saves_withOutcome, silent])]
      exact allowed _ _ meanwhile
  | report meanwhile current total rest ih =>
      rw [RedisTask.update_silent q _ current total silent] at ih
      exact trans _ _ _ (allowed _ _ meanwhile) (ih silent)

/-- The record holds the outcome. -/
def RedisTask.Holds (record : RedisTask P V E) : Except (TaskError E) (Option V) → Prop
  | .ok value => record.result = value
  | .error e => record.error = some e

/-- The record shows the progress of the last report, if there was one. -/
def RedisTask.Shows (record : RedisTask P V E) (reports : List Report) : Prop :=
  ∀ last ∈ reports.getLast?,
    record.currentProgress = last.current ∧ record.totalProgress = last.total

/-- From now until it lapses, `get_task` reads a record with this property. -/
def TaskStore.ReadsBack (s : TaskStore P V E) (id : String) (good : RedisTask P V E → Prop) :
    Prop :=
  ∃ lapsesAt, s.now < lapsesAt ∧ ∀ instant, s.now ≤ instant → instant < lapsesAt →
    ∃ record, ({ s with now := instant } : TaskStore P V E).getTask id = some record ∧ good record

theorem TaskStore.readsBack_iff {s : TaskStore P V E} {id : String}
    {good : RedisTask P V E → Prop} {stored : StoredTask P V E}
    (present : s.results id = some stored) :
    s.ReadsBack id good ↔
      s.now < stored.lapsesAt ∧ good { stored.task.val with saves := true } := by
  have read : ∀ instant, ({ s with now := instant } : TaskStore P V E).getTask id =
      if instant < stored.lapsesAt then some { stored.task.val with saves := true } else none :=
    fun instant => TaskStore.getTask_of_results (s := { s with now := instant }) present
  constructor
  · rintro ⟨lapsesAt, live, all⟩
    obtain ⟨record, found, holds⟩ := all s.now le_rfl live
    rw [read] at found
    split at found
    · cases found
      exact ⟨‹_›, holds⟩
    · cases found
  · rintro ⟨live, holds⟩
    refine ⟨stored.lapsesAt, live, fun instant _ still => ?_⟩
    rw [read, if_pos still]
    exact ⟨_, rfl, holds⟩

theorem RedisTask.holds_withTimeout (task : RedisTask P V E) (now : Rat) (timeout : Option Rat)
    (outcome : Except (TaskError E) (Option V)) :
    (task.withTimeout now timeout).Holds outcome ↔ task.Holds outcome := by
  cases timeout <;> cases outcome <;> exact Iff.rfl

/-- A task as a client or a listener gets hold of one. -/
inductive TaskQueue.Obtained (q : TaskQueue) : RedisTask P V E → Prop
  | built (s : TaskStore P V E) (id name : String) (params : P) :
      Obtained q (q.buildTask s id name params)
  | read {s : TaskStore P V E} {id : String} {task : RedisTask P V E}
      (found : s.getTask id = some task) : Obtained q task

theorem TaskQueue.Obtained.saves {q : TaskQueue} {task : RedisTask P V E}
    (obtained : q.Obtained task) : task.saves = true := by
  cases obtained with
  | built s id name params => rfl
  | read found =>
      obtain ⟨pickled, _, rfl⟩ := Option.map_eq_some_iff.mp found
      rfl

theorem RedisTask.save_first (q : TaskQueue) {task : RedisTask P V E} (s : TaskStore P V E)
    (saves : task.saves = true) : task.save q s = q.setTask task s := by
  rw [RedisTask.save, if_pos saves]

theorem TaskQueue.results_setTask (q : TaskQueue) (task : RedisTask P V E) {id : String}
    (s : TaskStore P V E) (sameId : task.id = id) :
    (q.setTask task s).2.results id = some ⟨task.pickle, s.now + q.timeout⟩ := by
  subst sameId
  exact Function.update_self ..

theorem RedisTask.update_first (q : TaskQueue) {task : RedisTask P V E} (s : TaskStore P V E)
    (current total : Rat) (saves : task.saves = true) (onTime : s.now ≤ task.expiry) :
    (task.update q current total s).2 =
      q.setTask (task.withProgress s.now current total) s := by
  unfold RedisTask.update
  rw [if_neg (by exact not_lt.mpr onTime)]
  exact RedisTask.save_first q s saves

theorem RedisTask.update_late (q : TaskQueue) {task : RedisTask P V E} (s : TaskStore P V E)
    (current total : Rat) (late : task.expiry < s.now) :
    (task.update q current total s).2 = (task.withProgress s.now current total, s) := by
  unfold RedisTask.update
  rw [if_pos (by exact late)]

/-- The progress fields after a list of reports. -/
def RedisTask.withReports (task : RedisTask P V E) : List Report → RedisTask P V E
  | [] => task
  | first :: rest =>
    (task.withProgress first.instant first.current first.total).withReports rest

theorem RedisTask.error_withReports (task : RedisTask P V E) (reports : List Report) :
    (task.withReports reports).error = task.error := by
  induction reports generalizing task with
  | nil => rfl
  | cons first rest ih => exact ih _

/-- What the record is in the end and when it was written: the snapshot of the first report made
in time, and only where there is none the outcome. -/
def RedisTask.lastStored (task : RedisTask P V E) (outcome : Except (TaskError E) (Option V))
    (ended : Rat) (reports : List Report) : RedisTask P V E × Rat :=
  match reports.find? fun report => report.instant ≤ task.expiry with
  | none => ((task.withReports reports).withOutcome outcome, ended)
  | some first => (task.withProgress first.instant first.current first.total, first.instant)

theorem RedisTask.lastStored_late (task : RedisTask P V E)
    (outcome : Except (TaskError E) (Option V)) (ended : Rat) {first : Report}
    (rest : List Report) (late : task.expiry < first.instant) :
    task.lastStored outcome ended (first :: rest) =
      (task.withProgress first.instant first.current first.total).lastStored outcome ended rest := by
  unfold RedisTask.lastStored
  rw [List.find?_cons_of_neg (by simpa using late)]
  rfl

theorem Working.stores {q : TaskQueue} {id : String} {task task' : RedisTask P V E}
    {w w' : World P V E X} {reports : List Report} {outcome : Except (TaskError E) (Option V)}
    (run : Working q (Apart id) task w reports outcome task' w') (sameId : task.id = id)
    (saves : task.saves = true) :
    w'.store.results id = some ⟨(task.lastStored outcome w'.store.now reports).1.pickle,
      (task.lastStored outcome w'.store.now reports).2 + q.timeout⟩ := by
  induction run with
  | @finish task _ _ meanwhile outcome =>
      simp only [RedisTask.save_first q _ ((task.saves_withOutcome outcome).trans saves)]
      exact q.results_setTask _ _ ((task.id_withOutcome outcome).trans sameId)
  | @report task _ w w' _ reports outcome meanwhile current total rest ih =>
      by_cases onTime : w'.store.now ≤ task.expiry
      · rw [RedisTask.update_first q _ current total saves onTime] at rest
        have untouched := Working.silent rfl rest (Apart id) (fun _ _ apart => apart)
          (fun _ _ _ => Apart.trans)
        rw [RedisTask.lastStored, List.find?_cons_of_pos (by simpa using onTime), untouched.2]
        exact q.results_setTask _ _ sameId
      · rw [RedisTask.update_late q _ current total (not_le.mp onTime)] at ih
        rw [RedisTask.lastStored_late _ _ _ _ (not_le.mp onTime)]
        exact ih sameId saves

/-- The outcome of an execution can be read back exactly if the task function made no report, or
the snapshot of its first report is still there, shows the last progress and happens to hold the
outcome already. -/
theorem executeTaskLocally_stored_iff (q : TaskQueue) {task task' : RedisTask P V E}
    {w w' : World P V E X} {timeout : Option Rat} {reports : List Report}
    {outcome : Except (TaskError E) (Option V)} (obtained : q.Obtained task)
    (run : ExecuteTaskLocally q (Apart task.id) task timeout w reports outcome task' w')
    (onTime : ∀ report ∈ reports,
      report.instant ≤ (task.withTimeout w.store.now timeout).expiry) :
    w'.store.ReadsBack task.id (fun record => record.Holds outcome ∧ record.Shows reports) ↔
      reports = [] ∨ ∃ first ∈ reports.head?, w'.store.now < first.instant + q.timeout ∧
        task.Holds outcome ∧
        ∀ last ∈ reports.getLast?, first.current = last.current ∧ first.total = last.total := by
  obtain ⟨task₀, started⟩ : ∃ task₀, task₀ = task.withTimeout w.store.now timeout := ⟨_, rfl⟩
  have saves : task₀.saves = true := by rw [started, RedisTask.saves_withTimeout, obtained.saves]
  have sameId : task₀.id = task.id := by rw [started, RedisTask.id_withTimeout]
  have sameOutcome : task₀.Holds outcome ↔ task.Holds outcome := by
    rw [started, RedisTask.holds_withTimeout]
  unfold ExecuteTaskLocally at run
  rw [← started] at run onTime
  rw [← sameOutcome]
  rw [TaskStore.readsBack_iff (run.stores sameId saves)]
  have positive : (0 : Rat) < q.timeout := by exact_mod_cast q.timeout_pos
  cases reports with
  | nil =>
      have live : w'.store.now < w'.store.now + q.timeout := by linarith
      simp only [true_or, iff_true]
      refine ⟨live, ?_, fun last none => by cases none⟩
      cases outcome <;> rfl
  | cons first rest =>
      have snapshot : task₀.lastStored outcome w'.store.now (first :: rest) =
          (task₀.withProgress first.instant first.current first.total, first.instant) := by
        have early := onTime first (List.mem_cons_self ..)
        rw [RedisTask.lastStored, List.find?_cons_of_pos (by simpa using early)]
      have holds_iff : ({ (task₀.withProgress first.instant first.current first.total).pickle.val
          with saves := true } : RedisTask P V E).Holds outcome ↔ task₀.Holds outcome := by
        cases outcome <;> exact Iff.rfl
      rw [snapshot]
      constructor
      · rintro ⟨live, holds, shown⟩
        exact Or.inr ⟨first, rfl, live, holds_iff.mp holds, shown⟩
      · rintro (none | ⟨_, isFirst, live, holds, shown⟩)
        · cases none
        · cases isFirst
          exact ⟨live, holds_iff.mpr holds, shown⟩

def sampleQueue : TaskQueue := ⟨300, by decide, 5, by norm_num⟩

def sampleTaskStore : TaskStore Unit Nat Unit :=
  ⟨0, fun _ => none, fun _ => [], fun _ => none⟩

def sampleWorld : World Unit Nat Unit Unit := ⟨sampleTaskStore, ()⟩

def sampleTask : RedisTask Unit Nat Unit := sampleQueue.buildTask sampleTaskStore "id" "name" ()

/-- The sample task reports half of its work at once and then returns or raises. -/
def reportedTask : RedisTask Unit Nat Unit := (sampleTask.withProgress 0 50 100).pickle.val

def reportedWorld : World Unit Nat Unit Unit :=
  ⟨(sampleQueue.setTask (sampleTask.withProgress 0 50 100) sampleTaskStore).2, ()⟩

theorem sampleTask_early : sampleTaskStore.now ≤ sampleTask.expiry := by
  simp only [sampleTaskStore, sampleTask, TaskQueue.buildTask, sampleQueue]
  norm_num

theorem sampleExecution (outcome : Except (TaskError Unit) (Option Nat)) :
    ExecuteTaskLocally sampleQueue (Apart sampleTask.id) sampleTask none sampleWorld
      [⟨50, 100, 0⟩] outcome (reportedTask.withOutcome outcome) reportedWorld := by
  have apart : Apart sampleTask.id sampleWorld sampleWorld := ⟨le_rfl, rfl⟩
  apply Working.report apart 50 100
  have first := RedisTask.update_first sampleQueue sampleTaskStore 50 100 rfl sampleTask_early
  have silent := RedisTask.save_silent sampleQueue reportedWorld.store
    (RedisTask.saves_withOutcome reportedTask outcome)
  have finished : Working sampleQueue (Apart sampleTask.id) reportedTask reportedWorld [] outcome
      _ _ := .finish ⟨le_rfl, rfl⟩ outcome
  rw [silent] at finished
  exact first ▸ finished

theorem executeTaskLocally_stored_iff_sample :
    reportedWorld.store.ReadsBack sampleTask.id
      (fun record => record.Holds (.ok (some 7)) ∧ record.Shows [⟨50, 100, 0⟩]) ↔
    ([⟨50, 100, 0⟩] : List Report) = [] ∨ ∃ first ∈ ([⟨50, 100, 0⟩] : List Report).head?,
      reportedWorld.store.now < first.instant + sampleQueue.timeout ∧
      sampleTask.Holds (.ok (some 7)) ∧
      ∀ last ∈ ([⟨50, 100, 0⟩] : List Report).getLast?,
        first.current = last.current ∧ first.total = last.total :=
  executeTaskLocally_stored_iff sampleQueue (.built sampleTaskStore "id" "name" ())
    (sampleExecution (.ok (some 7)))
    (fun report isReport => by
      rw [List.mem_singleton.mp isReport]
      exact sampleTask_early)

/-- One report is enough: the task returns 7, and the record says nothing of it. -/
theorem reported_outcome_lost :
    sampleQueue.Obtained sampleTask ∧
    ExecuteTaskLocally sampleQueue (Apart sampleTask.id) sampleTask none sampleWorld
      [⟨50, 100, 0⟩] (.ok (some 7)) (reportedTask.withOutcome (.ok (some 7))) reportedWorld ∧
    (∀ report ∈ ([⟨50, 100, 0⟩] : List Report), report.instant ≤ sampleTask.expiry) ∧
    ¬ reportedWorld.store.ReadsBack sampleTask.id
      (fun record => record.Holds (.ok (some 7)) ∧ record.Shows [⟨50, 100, 0⟩]) := by
  refine ⟨.built sampleTaskStore "id" "name" (), sampleExecution _, fun report isReport => ?_, ?_⟩
  · rw [List.mem_singleton.mp isReport]
    exact sampleTask_early
  · have stored : reportedWorld.store.results sampleTask.id = _ :=
      sampleQueue.results_setTask _ sampleTaskStore rfl
    rw [TaskStore.readsBack_iff stored]
    rintro ⟨_, held, _⟩
    cases held

end RedisAllocator

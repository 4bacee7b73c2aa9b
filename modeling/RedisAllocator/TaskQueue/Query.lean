import RedisAllocator.TaskQueue.RemoteListener

/-!
# The policies of `query`

One task object goes through both attempts of a fallback.  The schedule of the others
settles what the listener has come to by the deadline; what a policy promises is stated
on that, and so is when the code keeps it.
-/

set_option autoImplicit false

namespace RedisAllocator

variable {P V E : Type}

inductive TaskExecutePolicy
  | locally
  | remotely
  | localFirst
  | remoteFirst
  | auto
deriving DecidableEq

abbrev Pause (P V E : Type) (q : TaskQueue) (id : String) : Type :=
  Interlude (Elsewhere q id : Submission P V E → Submission P V E → Prop)

/-- The task function at work: the others before each `update` and before the end, and what it
comes to. -/
structure LocalRun (P V E : Type) (q : TaskQueue) (id : String) where
  reports : List (Pause P V E q id × Rat × Rat)
  ending : Pause P V E q id
  outcome : Except (TaskError E) (Option V)

/-- The reports with their instants, the task object and the world behind a local run. -/
structure LocalEnd (P V E : Type) where
  reports : List Report
  task : RedisTask P V E
  world : Submission P V E

namespace LocalRun

variable {q : TaskQueue} {id : String} (run : LocalRun P V E q id)

/-- From the next report up to the `finally` block. -/
def work : List (Pause P V E q id × Rat × Rat) → RedisTask P V E → Submission P V E →
    LocalEnd P V E
  | [], task, w =>
    let w := run.ending.val w
    let saved := (task.withOutcome run.outcome).save q w.store
    ⟨[], saved.1, { w with store := saved.2 }⟩
  | (before, current, total) :: rest, task, w =>
    let w := before.val w
    let updated := (task.update q current total w.store).2
    let later := work rest updated.1 { w with store := updated.2 }
    { later with reports := ⟨current, total, w.store.now⟩ :: later.reports }

def executeTaskLocally (task : RedisTask P V E) (timeout : Option Rat) (w : Submission P V E) :
    LocalEnd P V E :=
  run.work run.reports (task.withTimeout w.store.now timeout) w

def passes (w : Submission P V E) : Submission P V E :=
  run.ending.val (run.reports.foldl (fun w report => report.1.val w) w)

theorem working (reports : List (Pause P V E q id × Rat × Rat)) (task : RedisTask P V E)
    (w : Submission P V E) :
    Working q (Meanwhile q id) task w (run.work reports task w).reports run.outcome
      (run.work reports task w).task (run.work reports task w).world := by
  induction reports generalizing task w with
  | nil => exact .finish (run.ending.2 w) run.outcome
  | cons first rest ih =>
      obtain ⟨before, current, total⟩ := first
      exact .report (before.2 w) current total (ih _ _)

theorem world_silent (reports : List (Pause P V E q id × Rat × Rat)) {task : RedisTask P V E}
    (silent : task.saves = false) (w : Submission P V E) :
    (run.work reports task w).world =
      run.ending.val (reports.foldl (fun w report => report.1.val w) w) := by
  induction reports generalizing task w with
  | nil =>
      rw [work, RedisTask.save_silent q _ (by rw [RedisTask.saves_withOutcome, silent])]
      rfl
  | cons first rest ih =>
      obtain ⟨before, current, total⟩ := first
      rw [work, RedisTask.update_silent q _ current total silent]
      exact @ih (task.withProgress _ current total) silent (before.val w)

theorem passes_meanwhile (w : Submission P V E) : Meanwhile q id w (run.passes w) := by
  have reported : ∀ (reports : List (Pause P V E q id × Rat × Rat)) (w : Submission P V E),
      Meanwhile q id w (reports.foldl (fun w report => report.1.val w) w) := by
    intro reports
    induction reports with
    | nil => exact fun _ => .refl
    | cons first rest ih => exact fun w => (first.1.2 w).trans (ih (first.1.val w))
  exact (reported run.reports w).trans (run.ending.2 _)

end LocalRun

/-- The arguments of `query`, the local task function, and the others around the call. -/
structure QueryCall (P V E : Type) where
  q : TaskQueue
  id : String
  name : String
  params : P
  timeout : Option Rat
  once : Bool
  start : Submission P V E
  here : LocalRun P V E q id
  /-- before the `SETEX` of the remote attempt -/
  arriving : Pause P V E q id
  around : Surroundings (Elsewhere q id : Submission P V E → Submission P V E → Prop)

def Reply.outcome (expired : TaskError E) : Reply V E → Except (TaskError E) (Option V)
  | .raises e => .error e
  | .returns value => .ok value
  | .expires => .error expired

namespace QueryCall

variable (call : QueryCall P V E)

def task : RedisTask P V E := call.q.buildTask call.start.store call.id call.name call.params

def locally (task : RedisTask P V E) (w : Submission P V E) : LocalEnd P V E :=
  call.here.executeTaskLocally task call.timeout w

def remotely (task : RedisTask P V E) (w : Submission P V E) :
    RemoteAttempt (Elsewhere call.q call.id : Submission P V E → Submission P V E → Prop) :=
  ⟨call.q, task, call.timeout, call.once, call.arriving.val w, call.around⟩

def awaits (fuel : Nat) (task : RedisTask P V E) (w : Submission P V E) :
    Option (Except (TaskError E) (Option V) × Submission P V E) :=
  ((call.remotely task w).executeTaskRemotely fuel).map fun answer =>
    (answer.reply.outcome task.expired, answer.final)

def query (fuel : Nat) :
    TaskExecutePolicy → Option (Except (TaskError E) (Option V) × Submission P V E)
  | .locally => some (call.here.outcome, (call.locally call.task call.start).world)
  | .remotely => call.awaits fuel call.task call.start
  | .localFirst =>
    let tried := call.locally call.task call.start
    match call.here.outcome with
    | .ok value => some (.ok value, tried.world)
    -- the task object that is submitted still carries the local error
    | .error _ => call.awaits fuel tried.task tried.world
  | .remoteFirst =>
    let attempt := call.remotely call.task call.start
    (attempt.executeTaskRemotely fuel).map fun answer =>
      match answer.reply.outcome call.task.expired with
      | .ok value => (.ok value, answer.final)
      -- `set_task` has taken the callback, so this run stores nothing
      | .error _ => (call.here.outcome, (call.locally attempt.spent answer.final).world)
  | .auto =>
    if call.start.store.listened call.name then call.awaits fuel call.task call.start
    else some (call.here.outcome, (call.locally call.task call.start).world)

/-! ## What the policies promise -/

def attempt : TaskExecutePolicy →
    RemoteAttempt (Elsewhere call.q call.id : Submission P V E → Submission P V E → Prop)
  | .localFirst =>
    let tried := call.locally call.task call.start
    call.remotely tried.task tried.world
  | _ => call.remotely call.task call.start

/-- What the listener has come to by the deadline, at the reading of the clock that ends the
loop. -/
def remote (policy : TaskExecutePolicy) (last : Nat) : Except (TaskError E) (Option V) :=
  ((call.attempt policy).checked last).others.outcomeBy (call.attempt policy).deadline
    call.task.expired

def promised (last : Nat) : TaskExecutePolicy → Except (TaskError E) (Option V)
  | .locally => call.here.outcome
  | .remotely => call.remote .remotely last
  | .localFirst =>
    match call.here.outcome with
    | .ok value => .ok value
    | .error _ => call.remote .localFirst last
  | .remoteFirst =>
    match call.remote .remoteFirst last with
    | .ok value => .ok value
    | .error _ => call.here.outcome
  | .auto =>
    if call.start.store.listened call.name then call.remote .auto last else call.here.outcome

end QueryCall

/-- A returned value is found in the record. -/
def Recorded (id : String) (outcome : Except (TaskError E) (Option V)) (w : Submission P V E) :
    Prop :=
  ∀ value, outcome = .ok value → ∃ record, w.store.getTask id = some record ∧
    record.result = value ∧ record.error = none

namespace QueryCall

variable (call : QueryCall P V E)

structure Keeps (last : Nat) (policy : TaskExecutePolicy)
    (outcome : Except (TaskError E) (Option V)) (w : Submission P V E) : Prop where
  answers : outcome = call.promised last policy
  recorded : call.once = false → Recorded call.id outcome w

/-! ## When they keep it -/

def expiry : Rat := (call.task.withTimeout call.start.store.now call.timeout).expiry

/-- A value of the local run is stored unless a report made in time has spent the callback; the
snapshot of that report shows `None` until it lapses. -/
def StoresWhen (value : Option V) : Prop :=
  let tried := call.locally call.task call.start
  match tried.reports.find? fun report => report.instant ≤ call.expiry with
  | none => True
  | some first => value = none ∧ tried.world.store.now < first.instant + call.q.timeout

/-- The submitted record carries the local error: the first poll that finds the record has to come
behind a listener that has raised and stored the error that counts. -/
def LocalFirstWhen (last : Nat) : Prop :=
  match call.here.outcome with
  | .ok value => call.once = false → call.StoresWhen value
  | .error e =>
    let attempt := call.attempt .localFirst
    (∀ n ≤ last, (attempt.looked n).store.hasTask call.id = true →
      (∀ m < n, (attempt.looked m).store.hasTask call.id = false) →
        call.remote .localFirst last = .error ((attempt.looked n).others.ownError.getD e)) ∧
    ((∀ n ≤ last, (attempt.looked n).store.hasTask call.id = false) →
      call.remote .localFirst last = .error call.task.expired)

/-- The `n`th poll of the first attempt finds what the listener has stored. -/
def Finds (n : Nat) : Prop :=
  ((call.attempt .remoteFirst).looked n).store.hasTask call.id = true ∧
    ((call.attempt .remoteFirst).looked n).others.stored?.isSome

/-- A value the listener has in time is found by a poll, and none it has later; behind the local
run the record is the listener's alone. -/
def RemoteFirstWhen (last : Nat) : Prop :=
  let attempt := call.attempt .remoteFirst
  let final := call.here.passes (attempt.checked last)
  (∀ value stored instant, (attempt.checked last).others = .finished (.ok value) stored instant →
    call.here.outcome = .ok (some value) ∨
      (instant < attempt.deadline ↔ ∃ n ≤ last, call.Finds n)) ∧
  (call.once = false → ∀ value, call.here.outcome = .ok value →
    (∃ n ≤ last, call.Finds n ∧ ∃ v, (attempt.looked n).others.stored? = some (.ok v)) ∨
      (∀ n ≤ last, ¬ call.Finds n) ∧ final.store.hasTask call.id = true ∧
        final.others.shown none = (none, value))

def KeepsWhen (last : Nat) : TaskExecutePolicy → Prop
  | .localFirst => call.LocalFirstWhen last
  | .remoteFirst => call.RemoteFirstWhen last
  | _ => True

end QueryCall

/-! ## The two attempts -/

theorem Working.task {q : TaskQueue} {X : Type} {env : World P V E X → World P V E X → Prop}
    {task task' : RedisTask P V E} {w w' : World P V E X} {reports : List Report}
    {outcome : Except (TaskError E) (Option V)}
    (run : Working q env task w reports outcome task' w') :
    task'.id = task.id ∧ task'.name = task.name ∧
      task'.result = (task.withOutcome outcome).result ∧
      task'.error = (task.withOutcome outcome).error := by
  induction run with
  | @finish task _ w' _ outcome =>
      have fields : ∀ t : RedisTask P V E, (t.save q w'.store).1 = t ∨
          (t.save q w'.store).1 = t.pickle.val := by
        intro t
        unfold RedisTask.save
        split
        · exact Or.inr rfl
        · exact Or.inl rfl
      rcases fields (task.withOutcome outcome) with same | same <;> rw [same] <;>
        cases outcome <;> exact ⟨rfl, rfl, rfl, rfl⟩
  | @report task _ _ w' _ _ outcome _ current total _ ih =>
      rcases task.update_cases q current total w'.store with unsaved | saved
      · rw [unsaved] at ih
        cases outcome <;> exact ih
      · rw [saved] at ih
        cases outcome <;> exact ih

theorem recorded_iff {id : String} {w : Submission P V E}
    {fields : Option (TaskError E) × Option V}
    (read : ∀ record, w.store.getTask id = some record → (record.error, record.result) = fields)
    (outcome : Except (TaskError E) (Option V)) :
    Recorded id outcome w ↔
      ∀ value, outcome = .ok value → w.store.hasTask id = true ∧ fields = (none, value) := by
  constructor
  · intro recorded value done
    obtain ⟨record, found, result, error⟩ := recorded value done
    refine ⟨TaskStore.hasTask_of_getTask found, ?_⟩
    rw [← read record found, error, result]
  · intro all value done
    obtain ⟨has, same⟩ := all value done
    obtain ⟨record, found⟩ := TaskStore.getTask_of_hasTask has
    have both := (read record found).trans same
    exact ⟨record, found, congrArg Prod.snd both, congrArg Prod.fst both⟩

theorem Working.recorded_iff {q : TaskQueue} {id : String} {task task' : RedisTask P V E}
    {w w' : Submission P V E} {reports : List Report} {value : Option V}
    (run : Working q (Apart id) task w reports (.ok value) task' w') (sameId : task.id = id)
    (saves : task.saves = true) (noError : task.error = none) (empty : task.result = none) :
    Recorded id (.ok value) w' ↔
      match reports.find? fun report => report.instant ≤ task.expiry with
      | none => True
      | some first => value = none ∧ w'.store.now < first.instant + q.timeout := by
  have stored := run.stores sameId saves
  have read := TaskStore.getTask_of_results stored
  unfold RedisTask.lastStored at read
  cases found : reports.find? fun report => report.instant ≤ task.expiry with
  | none =>
      have positive : (0 : Rat) < q.timeout := by exact_mod_cast q.timeout_pos
      have live : w'.store.now < w'.store.now + q.timeout := by linarith
      simp only [found, if_pos live] at read
      refine iff_of_true (fun v done => ?_) trivial
      cases done
      exact ⟨_, read, rfl, (task.error_withReports reports).trans noError⟩
  | some first =>
      simp only [found] at read
      constructor
      · intro recorded
        obtain ⟨record, isRecord, result, _⟩ := recorded value rfl
        rw [read] at isRecord
        split at isRecord
        · cases isRecord
          exact ⟨result.symm.trans empty, ‹_›⟩
        · cases isRecord
      · rintro ⟨rfl, live⟩ v done
        cases done
        exact ⟨_, read.trans (if_pos live), empty, noError⟩

namespace QueryCall

variable {call : QueryCall P V E} {last : Nat}

theorem tracks_looked {task : RedisTask P V E} {w : Submission P V E}
    (fresh : Unsubmitted call.id w) (sameId : task.id = call.id) (empty : task.result = none)
    (n : Nat) : Tracks task.error call.id ((call.remotely task w).looked n) := by
  obtain ⟨still, _⟩ := fresh.meanwhile (call.arriving.2 w)
  have sent : Tracks task.error call.id _ :=
    Tracks.submit call.q (call.remotely task w).sent still.idle sameId rfl empty
  have waiting := sent.meanwhile (call.around.stored.2 _)
  have queued : Tracks task.error call.id
      { call.around.stored.val _ with
        store := (call.around.stored.val _).store.rpush task.name task.id } :=
    ⟨waiting.copy, waiting.record⟩
  have submitted := queued.meanwhile (call.around.pushed.2 _)
  exact submitted.meanwhile (RemoteAttempt.related.1 n)

theorem checked_meanwhile (policy : TaskExecutePolicy) {n : Nat} (bounded : n ≤ last) :
    Meanwhile call.q call.id ((call.attempt policy).looked n)
      ((call.attempt policy).checked last) :=
  (RemoteAttempt.related.2 n last bounded).trans ((call.attempt policy).around.thinks last _)

theorem locally_failed (fresh : Unsubmitted call.id call.start) {e : TaskError E}
    (failed : call.here.outcome = .error e) :
    (call.attempt .localFirst).task.id = call.id ∧
      (call.attempt .localFirst).task.error = some e ∧
      (call.attempt .localFirst).task.result = none ∧
      (call.attempt .localFirst).task.expired = call.task.expired ∧
      Unsubmitted call.id (call.locally call.task call.start).world := by
  have run := call.here.working call.here.reports
    (call.task.withTimeout call.start.store.now call.timeout) call.start
  obtain ⟨_, before⟩ := Working.unsubmitted run fresh
  obtain ⟨sameId, sameName, result, error⟩ := Working.task run
  rw [failed] at result error
  have empty : (call.attempt .localFirst).task.result = none := by
    refine result.trans ?_
    cases call.timeout <;> rfl
  have expired : (call.attempt .localFirst).task.expired = call.task.expired := by
    have sameTask : ∀ timeout : Option Rat,
        (call.task.withTimeout call.start.store.now timeout).name = call.task.name := by
      rintro (_ | _) <;> rfl
    rw [RedisTask.id_withTimeout] at sameId
    exact congrArg₂ (fun id name => TaskError.timeoutError ("Task " ++ id ++ " in " ++ name ++
      " has expired")) sameId (sameName.trans (sameTask call.timeout))
  rw [RedisTask.id_withTimeout] at sameId
  exact ⟨sameId, error, empty, expired, before⟩

theorem look_localFirst (fresh : Unsubmitted call.id call.start) {e : TaskError E}
    (failed : call.here.outcome = .error e) (n : Nat) :
    (call.attempt .localFirst).look ((call.attempt .localFirst).looked n) =
      if ((call.attempt .localFirst).looked n).store.hasTask call.id then
        some (.raises (((call.attempt .localFirst).looked n).others.ownError.getD e))
      else none := by
  obtain ⟨sameId, leaked, empty, _, before⟩ := call.locally_failed fresh failed
  have tracks := tracks_looked before sameId empty n
  rw [leaked] at tracks
  rw [RemoteAttempt.look, sameId]
  exact tracks.reply?_leaked

theorem look_remoteFirst (fresh : Unsubmitted call.id call.start) (n : Nat) :
    (call.attempt .remoteFirst).look ((call.attempt .remoteFirst).looked n) =
      if ((call.attempt .remoteFirst).looked n).store.hasTask call.id then
        ((call.attempt .remoteFirst).looked n).others.stored?.map fun outcome =>
          .of (outcome.map some)
      else none := by
  have tracks : Tracks call.task.error call.id ((call.remotely call.task call.start).looked n) :=
    tracks_looked fresh rfl rfl n
  exact Tracks.reply?_clean tracks

theorem keeps_iff {policy : TaskExecutePolicy} {outcome : Except (TaskError E) (Option V)}
    {w : Submission P V E} : call.Keeps last policy outcome w ↔
      outcome = call.promised last policy ∧ (call.once = false → Recorded call.id outcome w) :=
  ⟨fun keeps => ⟨keeps.answers, keeps.recorded⟩, fun both => ⟨both.1, both.2⟩⟩

theorem localFirst_value (fresh : Unsubmitted call.id call.start) {value : Option V}
    (done : call.here.outcome = .ok value) :
    call.Keeps last .localFirst (.ok value) (call.locally call.task call.start).world ↔
      call.LocalFirstWhen last := by
  have run := call.here.working call.here.reports
    (call.task.withTimeout call.start.store.now call.timeout) call.start
  obtain ⟨alone, _⟩ := Working.unsubmitted run fresh
  rw [done] at alone
  have recorded : Recorded call.id (.ok value) (call.locally call.task call.start).world ↔
      call.StoresWhen value := by
    refine alone.recorded_iff ?_ ?_ ?_ ?_ <;> cases call.timeout <;> rfl
  simp only [keeps_iff, LocalFirstWhen, promised, done, true_and]
  exact imp_congr_right fun _ => recorded

theorem localFirst_raises (fresh : Unsubmitted call.id call.start) {e : TaskError E}
    (failed : call.here.outcome = .error e) (isLast : (call.attempt .localFirst).IsLast last) :
    (∃ n ≤ last, ((call.attempt .localFirst).looked n).store.hasTask call.id = true ∧
      (∀ m < n, ((call.attempt .localFirst).looked m).store.hasTask call.id = false) ∧
      ∃ w, ∀ fuel, last < fuel → call.query fuel .localFirst =
        some (.error (((call.attempt .localFirst).looked n).others.ownError.getD e), w)) ∨
    (∀ n ≤ last, ((call.attempt .localFirst).looked n).store.hasTask call.id = false) ∧
      ∃ w, ∀ fuel, last < fuel →
        call.query fuel .localFirst = some (.error call.task.expired, w) := by
  have query : ∀ fuel, call.query fuel .localFirst =
      ((call.attempt .localFirst).executeTaskRemotely fuel).map fun answer =>
        (answer.reply.outcome (call.attempt .localFirst).task.expired, answer.final) := by
    intro fuel
    simp only [QueryCall.query, failed]
    rfl
  have looks := call.look_localFirst fresh failed
  have unfound : ∀ n, (call.attempt .localFirst).look ((call.attempt .localFirst).looked n) = none →
      ((call.attempt .localFirst).looked n).store.hasTask call.id = false := by
    intro n nothing
    rw [looks] at nothing
    simpa using nothing
  obtain ⟨_, _, _, expired, _⟩ := call.locally_failed fresh failed
  rcases RemoteAttempt.executeTaskRemotely_ends isLast with
    ⟨n, bounded, reply, unseen, found, ends⟩ | ⟨unseen, ends⟩
  · obtain ⟨w, final⟩ : ∃ w, w = ((call.attempt .localFirst).answer
        (.seen reply ((call.attempt .localFirst).looked n))).final := ⟨_, rfl⟩
    rw [looks] at found
    split at found
    · cases found
      refine Or.inl ⟨n, bounded, ‹_›, fun m earlier => unfound m (unseen m earlier), w,
        fun fuel enough => ?_⟩
      rw [query, ends fuel enough, Option.map_some, (RemoteAttempt.answer_seen _ _ _).1, final]
      rfl
    · cases found
  · refine Or.inr ⟨fun n bounded => unfound n (unseen n bounded),
      (call.attempt .localFirst).checked last, fun fuel enough => ?_⟩
    rw [query, ends fuel enough, expired]
    rfl

theorem localFirst_failure (fresh : Unsubmitted call.id call.start) {e : TaskError E}
    (failed : call.here.outcome = .error e) (isLast : (call.attempt .localFirst).IsLast last) :
    ∃ outcome w, (∀ fuel, last < fuel → call.query fuel .localFirst = some (outcome, w)) ∧
      (call.Keeps last .localFirst outcome w ↔ call.LocalFirstWhen last) := by
  have keeps : ∀ e' w, call.Keeps last .localFirst (.error e') w ↔
      call.remote .localFirst last = .error e' := by
    intro e' w
    simp only [keeps_iff, promised, failed]
    exact (and_iff_left fun _ value done => nomatch done).trans eq_comm
  rcases call.localFirst_raises fresh failed isLast with
    ⟨n, bounded, has, first, w, ends⟩ | ⟨never, w, ends⟩
  · refine ⟨_, w, ends, (keeps _ w).trans ?_⟩
    simp only [LocalFirstWhen, failed]
    constructor
    · intro same
      refine ⟨fun m early hasToo firstToo => ?_, fun never => ?_⟩
      · rcases lt_trichotomy m n with before | rfl | after
        · cases hasToo.symm.trans (first m before)
        · exact same
        · cases has.symm.trans (firstToo n after)
      · cases has.symm.trans (never n bounded)
    · exact fun both => both.1 n bounded has first
  · refine ⟨_, w, ends, (keeps _ w).trans ?_⟩
    simp only [LocalFirstWhen, failed]
    constructor
    · intro same
      refine ⟨fun m early has _ => ?_, fun _ => same⟩
      cases has.symm.trans (never m early)
    · exact fun both => both.2 never

theorem remoteFirst_ends (fresh : Unsubmitted call.id call.start)
    (isLast : (call.attempt .remoteFirst).IsLast last) :
    (∃ n ≤ last, call.Finds n ∧ ∃ v,
      ((call.attempt .remoteFirst).looked n).others.stored? = some (.ok v) ∧ ∃ w,
        (call.once = false → w = (call.attempt .remoteFirst).looked n) ∧
        ∀ fuel, last < fuel → call.query fuel .remoteFirst = some (.ok (some v), w)) ∨
    (∃ n ≤ last, call.Finds n ∧ ∃ e,
      ((call.attempt .remoteFirst).looked n).others.stored? = some (.error e) ∧ ∃ w,
        (call.once = false → w = call.here.passes ((call.attempt .remoteFirst).looked n)) ∧
        ∀ fuel, last < fuel → call.query fuel .remoteFirst = some (call.here.outcome, w)) ∨
    (∀ n ≤ last, ¬ call.Finds n) ∧ ∀ fuel, last < fuel → call.query fuel .remoteFirst =
      some (call.here.outcome, call.here.passes ((call.attempt .remoteFirst).checked last)) := by
  have query : ∀ fuel, call.query fuel .remoteFirst =
      ((call.attempt .remoteFirst).executeTaskRemotely fuel).map fun answer =>
        match answer.reply.outcome call.task.expired with
        | .ok value => (.ok value, answer.final)
        | .error _ => (call.here.outcome,
            (call.locally (call.attempt .remoteFirst).spent answer.final).world) :=
    fun _ => rfl
  have looks := call.look_remoteFirst fresh
  have silent : ∀ w, (call.locally (call.attempt .remoteFirst).spent w).world =
      call.here.passes w := by
    intro w
    apply call.here.world_silent
    rw [RedisTask.saves_withTimeout]
    rfl
  rcases RemoteAttempt.executeTaskRemotely_ends isLast with
    ⟨n, bounded, reply, unseen, found, ends⟩ | ⟨unseen, ends⟩
  · obtain ⟨answer, isAnswer⟩ : ∃ answer, answer = (call.attempt .remoteFirst).answer
        (.seen reply ((call.attempt .remoteFirst).looked n)) := ⟨_, rfl⟩
    have sameReply : answer.reply = reply := by
      rw [isAnswer, (RemoteAttempt.answer_seen _ _ _).1]
    have kept : call.once = false → answer.final = (call.attempt .remoteFirst).looked n := by
      intro unset
      rw [isAnswer, RemoteAttempt.answer, if_neg (by exact Bool.eq_false_iff.mp unset)]
    rw [looks] at found
    split at found
    · rename_i has
      obtain ⟨outcome, stored, rfl⟩ := Option.map_eq_some_iff.mp found
      have finds : call.Finds n := ⟨has, by rw [stored]; rfl⟩
      cases outcome with
      | ok v =>
          refine Or.inl ⟨n, bounded, finds, v, stored, answer.final, kept, fun fuel enough => ?_⟩
          rw [query, ends fuel enough, ← isAnswer, Option.map_some, sameReply]
          rfl
      | error e =>
          refine Or.inr (Or.inl ⟨n, bounded, finds, e, stored, call.here.passes answer.final,
            fun unset => by rw [kept unset], fun fuel enough => ?_⟩)
          rw [query, ends fuel enough, ← isAnswer, Option.map_some, sameReply, ← silent]
          rfl
    · cases found
  · refine Or.inr (Or.inr ⟨fun n bounded finds => ?_, fun fuel enough => ?_⟩)
    · have nothing := unseen n bounded
      obtain ⟨outcome, stored⟩ := Option.isSome_iff_exists.mp finds.2
      rw [looks, if_pos finds.1, stored] at nothing
      cases nothing
    · rw [query, ends fuel enough, Option.map_some, ← silent]
      rfl

theorem promised_value {value : V} {stored : Bool} {instant : Rat}
    (isOver : ((call.attempt .remoteFirst).checked last).others =
      .finished (.ok value) stored instant) :
    call.promised last .remoteFirst =
      if instant < (call.attempt .remoteFirst).deadline then .ok (some value)
      else call.here.outcome := by
  by_cases inTime : instant < (call.attempt .remoteFirst).deadline <;>
    simp [promised, remote, isOver, Listener.outcomeBy, inTime, Except.map]

theorem promised_failure
    (failed : ∀ value stored instant, ((call.attempt .remoteFirst).checked last).others ≠
      .finished (.ok value) stored instant) :
    call.promised last .remoteFirst = call.here.outcome := by
  rw [promised, remote]
  cases isOver : ((call.attempt .remoteFirst).checked last).others with
  | finished outcome stored instant =>
      cases outcome with
      | ok value => exact absurd isOver (failed value stored instant)
      | error e =>
          by_cases inTime : instant < (call.attempt .remoteFirst).deadline <;>
            simp [Listener.outcomeBy, inTime, Except.map]
  | _ => rfl

theorem found_promised_iff {value : V} {stored : Bool} {instant : Rat}
    (isOver : ((call.attempt .remoteFirst).checked last).others =
      .finished (.ok value) stored instant) :
    .ok (some value) = call.promised last .remoteFirst ↔
      call.here.outcome = .ok (some value) ∨ instant < (call.attempt .remoteFirst).deadline := by
  rw [promised_value isOver]
  split
  · exact iff_of_true rfl (Or.inr ‹_›)
  · exact eq_comm.trans (or_iff_left ‹_›).symm

theorem unfound_promised_iff : call.here.outcome = call.promised last .remoteFirst ↔
    ∀ value stored instant, ((call.attempt .remoteFirst).checked last).others =
        .finished (.ok value) stored instant →
      call.here.outcome = .ok (some value) ∨
        ¬ instant < (call.attempt .remoteFirst).deadline := by
  by_cases succeeded : ∃ value stored instant,
      ((call.attempt .remoteFirst).checked last).others = .finished (.ok value) stored instant
  · obtain ⟨value, stored, instant, isOver⟩ := succeeded
    rw [promised_value isOver]
    constructor
    · intro same value' stored' instant' isOver'
      cases isOver.symm.trans isOver'
      split at same
      · exact Or.inl same
      · exact Or.inr ‹_›
    · intro all
      split
      · exact (all value stored instant isOver).resolve_right (not_not.mpr ‹_›)
      · rfl
  · simp only [not_exists] at succeeded
    refine iff_of_true (promised_failure succeeded).symm fun value stored instant isOver => ?_
    exact absurd isOver (succeeded value stored instant)

theorem tracks_remoteFirst (fresh : Unsubmitted call.id call.start) (n : Nat) :
    Tracks none call.id ((call.attempt .remoteFirst).looked n) := by
  have tracks : Tracks call.task.error call.id ((call.remotely call.task call.start).looked n) :=
    tracks_looked fresh rfl rfl n
  exact tracks

theorem recorded_remoteFirst (fresh : Unsubmitted call.id call.start) {n : Nat}
    {w : Submission P V E}
    (steps : Meanwhile call.q call.id ((call.attempt .remoteFirst).looked n) w)
    (outcome : Except (TaskError E) (Option V)) : Recorded call.id outcome w ↔
      ∀ value, outcome = .ok value → w.store.hasTask call.id = true ∧
        w.others.shown none = (none, value) := by
  have tracks := (tracks_remoteFirst fresh n).meanwhile steps
  exact recorded_iff (fun _ found => (tracks.of_getTask found).2) outcome

theorem keeps_found_value (fresh : Unsubmitted call.id call.start) {n : Nat} (bounded : n ≤ last)
    (finds : call.Finds n) {v : V}
    (stored : ((call.attempt .remoteFirst).looked n).others.stored? = some (.ok v))
    {w : Submission P V E}
    (final : call.once = false → w = (call.attempt .remoteFirst).looked n) :
    call.Keeps last .remoteFirst (.ok (some v)) w ↔ call.RemoteFirstWhen last := by
  obtain ⟨instant, isOver⟩ := (call.checked_meanwhile .remoteFirst bounded).stored? stored
  refine keeps_iff.trans (and_congr ?_ (imp_congr_right fun unset => ?_))
  · rw [found_promised_iff isOver]
    constructor
    · intro either value' stored' instant' isOver'
      cases isOver.symm.trans isOver'
      exact either.imp_right fun inTime => iff_of_true inTime ⟨n, bounded, finds⟩
    · intro all
      exact (all v true instant isOver).imp_right fun same => same.mpr ⟨n, bounded, finds⟩
  · rw [final unset]
    refine iff_of_true ?_ fun value done => Or.inl ⟨n, bounded, finds, v, stored⟩
    refine (recorded_remoteFirst fresh .refl _).mpr fun value done => ?_
    cases done
    exact ⟨finds.1, Listener.shown_of_stored none stored⟩

theorem keeps_found_error (fresh : Unsubmitted call.id call.start) {n : Nat} (bounded : n ≤ last)
    (finds : call.Finds n) {e : TaskError E}
    (stored : ((call.attempt .remoteFirst).looked n).others.stored? = some (.error e))
    {w : Submission P V E}
    (final : call.once = false → w = call.here.passes ((call.attempt .remoteFirst).looked n)) :
    call.Keeps last .remoteFirst call.here.outcome w ↔ call.RemoteFirstWhen last := by
  obtain ⟨instant, isOver⟩ := (call.checked_meanwhile .remoteFirst bounded).stored? stored
  have failed : ∀ value stored instant, ((call.attempt .remoteFirst).checked last).others ≠
      .finished (.ok value) stored instant :=
    fun value stored instant isOver' => nomatch isOver.symm.trans isOver'
  have passed := call.here.passes_meanwhile ((call.attempt .remoteFirst).looked n)
  -- the error stays in the record, whatever the local run comes to
  have unshown : ∀ value, (call.here.passes ((call.attempt .remoteFirst).looked n)).others.shown
      none ≠ (none, value) := by
    obtain ⟨instant', still⟩ := Meanwhile.stored? passed stored
    rw [still]
    exact fun value same => nomatch same
  refine keeps_iff.trans (and_congr ?_ (imp_congr_right fun unset => ?_))
  · exact iff_of_true (promised_failure failed).symm fun value stored instant isOver =>
      absurd isOver (failed value stored instant)
  · rw [final unset, recorded_remoteFirst fresh passed]
    refine forall_congr' fun value => imp_congr_right fun _ => iff_of_false ?_ ?_
    · exact fun both => unshown value both.2
    · rintro (⟨m, early, _, v, storedToo⟩ | ⟨never, _⟩)
      · obtain ⟨instant', isOver'⟩ :=
          (call.checked_meanwhile .remoteFirst early).stored? storedToo
        exact failed v true instant' isOver'
      · exact never n bounded finds

theorem keeps_unfound (fresh : Unsubmitted call.id call.start)
    (never : ∀ n ≤ last, ¬ call.Finds n) :
    call.Keeps last .remoteFirst call.here.outcome
        (call.here.passes ((call.attempt .remoteFirst).checked last)) ↔
      call.RemoteFirstWhen last := by
  have unfound : ¬ ∃ n ≤ last, call.Finds n := fun ⟨n, bounded, finds⟩ => never n bounded finds
  have passed : Meanwhile call.q call.id ((call.attempt .remoteFirst).looked last)
      (call.here.passes ((call.attempt .remoteFirst).checked last)) :=
    (call.checked_meanwhile .remoteFirst le_rfl).trans (call.here.passes_meanwhile _)
  refine keeps_iff.trans (and_congr ?_ (imp_congr_right fun unset => ?_))
  · simp only [unfound_promised_iff, unfound, iff_false]
  · rw [recorded_remoteFirst fresh passed]
    refine forall_congr' fun value => imp_congr_right fun _ => ?_
    constructor
    · exact fun both => Or.inr ⟨never, both⟩
    · rintro (⟨m, early, finds, _⟩ | ⟨_, both⟩)
      · exact absurd finds (never m early)
      · exact both

theorem remoteFirst_iff (fresh : Unsubmitted call.id call.start)
    (isLast : (call.attempt .remoteFirst).IsLast last) :
    ∃ outcome w, (∀ fuel, last < fuel → call.query fuel .remoteFirst = some (outcome, w)) ∧
      (call.Keeps last .remoteFirst outcome w ↔ call.RemoteFirstWhen last) := by
  rcases call.remoteFirst_ends fresh isLast with
    ⟨n, bounded, finds, v, stored, w, final, ends⟩ |
      ⟨n, bounded, finds, e, stored, w, final, ends⟩ | ⟨never, ends⟩
  · exact ⟨_, w, ends, keeps_found_value fresh bounded finds stored final⟩
  · exact ⟨_, w, ends, keeps_found_error fresh bounded finds stored final⟩
  · exact ⟨_, _, ends, keeps_unfound fresh never⟩

end QueryCall

def sampleSubmission : Submission Unit Nat Unit := ⟨sampleTaskStore, .idle⟩

theorem sampleSubmission_unsubmitted : Unsubmitted "id" sampleSubmission :=
  ⟨rfl, fun _ => List.not_mem_nil⟩

def failedTask : RedisTask Unit Nat Unit := sampleTask.withOutcome (.error (.raised ()))

def sampleServe : Submission Unit Nat Unit → Submission Unit Nat Unit
  | ⟨s, .idle⟩ =>
    if s.queues "name" = "id" :: (s.queues "name").tail then
      let s := { s with queues := Function.update s.queues "name" (s.queues "name").tail }
      match s.getTask "id" with
      | some task =>
        ⟨((task.withOutcome (.ok (some 7))).save sampleQueue s).2,
          .finished (.ok 7) task.saves s.now⟩
      | none => ⟨s, .lost⟩
    else ⟨s, .idle⟩
  | w => w

theorem meanwhile_sampleServe (w : Submission Unit Nat Unit) :
    Meanwhile sampleQueue "id" w (sampleServe w) := by
  obtain ⟨s, l⟩ := w
  cases l with
  | idle =>
      simp only [sampleServe]
      split
      · rename_i front
        refine .head (.pop front) ?_
        split
        · exact .head (.fetch ‹_›) (.single (.finish _ (.ok 7)))
        · exact .single (.missing ‹_›)
      · exact .refl
  | _ => exact .refl

theorem now_sampleServe (w : Submission Unit Nat Unit) :
    (sampleServe w).store.now = w.store.now := by
  obtain ⟨s, l⟩ := w
  cases l with
  | idle =>
      simp only [sampleServe]
      split
      · split
        · exact RedisTask.now_save sampleQueue _ _
        · rfl
      · rfl
  | _ => rfl

def sampleAround :
    Surroundings (Elsewhere sampleQueue "id" : Submission Unit Nat Unit → _ → Prop) where
  clock := 0
  stored := ⟨id, fun _ => .refl⟩
  pushed := ⟨id, fun _ => .refl⟩
  loop := {
    arrive := fun _ => id
    think := fun _ => id
    nap := fun _ duration w => sampleServe (sampleNap duration w)
    arrives := fun _ _ => le_rfl
    thinks := fun _ _ => le_rfl
    naps := fun _ duration w => by
      rw [now_sampleServe]
      exact add_le_add_right (le_max_left duration 0) _ }
  cleaning := ⟨id, fun _ => .refl⟩
  arrives := fun _ _ => .refl
  thinks := fun _ _ => .refl
  naps := fun _ duration w =>
    .head (.wait (max duration 0) (le_max_right duration 0)) (meanwhile_sampleServe _)

/-- The local task function raises at once, and the caller would wait for ten seconds. -/
def sampleQuery : QueryCall Unit Nat Unit :=
  ⟨sampleQueue, "id", "name", (), some 10, false, sampleSubmission,
    ⟨[], ⟨id, fun _ => .refl⟩, .error (.raised ())⟩, ⟨id, fun _ => .refl⟩, sampleAround⟩

theorem sampleQuery_isLast : (sampleQuery.attempt .localFirst).IsLast 2 where
  late := by decide +kernel
  early := by decide +kernel

end RedisAllocator

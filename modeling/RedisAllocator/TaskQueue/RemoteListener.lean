import RedisAllocator.TaskQueue.RemoteExecution

/-!
# A listener at the other end

The listener that pops a submitted id reads the record, reports progress and stores what
it came to, while time passes and other clients and listeners work on other ids.
-/

set_option autoImplicit false

namespace RedisAllocator

variable {P V E : Type}

/-- What has become of the submitted id. -/
inductive Listener (P V E : Type)
  | idle
  | popped
  /-- `execute_task_locally` of a listener, with its own copy of the task -/
  | running (task : RedisTask P V E)
  /-- the execution is over; `stored` says whether its last `save` still wrote -/
  | finished (outcome : Except (TaskError E) V) (stored : Bool) (instant : Rat)
  /-- the record had lapsed, and `execute_task_locally(None)` came to nothing -/
  | lost

abbrev Submission (P V E : Type) : Type := World P V E (Listener P V E)

/-- One step of the others.  The value a listener returns is not `None`. -/
inductive Elsewhere (q : TaskQueue) (id : String) : Submission P V E → Submission P V E → Prop
  | wait {s : TaskStore P V E} {l : Listener P V E} (elapsed : Rat) (forward : 0 ≤ elapsed) :
      Elsewhere q id ⟨s, l⟩ ⟨{ s with now := s.now + elapsed }, l⟩
  | others {s s' : TaskStore P V E} {l : Listener P V E} (sameClock : s'.now = s.now)
      (sameRecord : s'.results id = s.results id)
      (sameQueued : ∀ name, id ∈ s'.queues name ↔ id ∈ s.queues name) :
      Elsewhere q id ⟨s, l⟩ ⟨s', l⟩
  | pop {s : TaskStore P V E} {name : String} {rest : List String}
      (front : s.queues name = id :: rest) :
      Elsewhere q id ⟨s, .idle⟩ ⟨{ s with queues := Function.update s.queues name rest }, .popped⟩
  | fetch {s : TaskStore P V E} {task : RedisTask P V E} (found : s.getTask id = some task) :
      Elsewhere q id ⟨s, .popped⟩ ⟨s, .running task⟩
  | missing {s : TaskStore P V E} (nothing : s.getTask id = none) :
      Elsewhere q id ⟨s, .popped⟩ ⟨s, .lost⟩
  | report {s : TaskStore P V E} (task : RedisTask P V E) (current total : Rat) :
      Elsewhere q id ⟨s, .running task⟩
        ⟨(task.update q current total s).2.2, .running (task.update q current total s).2.1⟩
  | finish {s : TaskStore P V E} (task : RedisTask P V E) (outcome : Except (TaskError E) V) :
      Elsewhere q id ⟨s, .running task⟩
        ⟨((task.withOutcome (outcome.map some)).save q s).2, .finished outcome task.saves s.now⟩

abbrev Meanwhile (q : TaskQueue) (id : String) : Submission P V E → Submission P V E → Prop :=
  Relation.ReflTransGen (Elsewhere q id)

theorem Elsewhere.finished {q : TaskQueue} {id : String} {w w' : Submission P V E}
    (step : Elsewhere q id w w') {outcome : Except (TaskError E) V} {stored : Bool} {instant : Rat}
    (isOver : w.others = .finished outcome stored instant) :
    w'.others = .finished outcome stored instant := by
  cases step with
  | wait elapsed forward => exact isOver
  | others sameClock sameRecord sameQueued => exact isOver
  | _ => cases isOver

theorem Meanwhile.finished {q : TaskQueue} {id : String} {w w' : Submission P V E}
    (steps : Meanwhile q id w w') {outcome : Except (TaskError E) V} {stored : Bool}
    {instant : Rat} (isOver : w.others = .finished outcome stored instant) :
    w'.others = .finished outcome stored instant := by
  induction steps with
  | refl => exact isOver
  | tail _ step ih => exact step.finished ih

theorem Elsewhere.instant {q : TaskQueue} {id : String} {w w' : Submission P V E}
    (step : Elsewhere q id w w') : w.store.now ≤ w'.store.now ∧
      ∀ outcome stored instant, w'.others = .finished outcome stored instant →
        w.others = .finished outcome stored instant ∨ w.store.now ≤ instant := by
  cases step with
  | wait elapsed forward =>
      exact ⟨le_add_of_nonneg_right forward, fun _ _ _ isOver => Or.inl isOver⟩
  | others sameClock sameRecord sameQueued =>
      exact ⟨sameClock.ge, fun _ _ _ isOver => Or.inl isOver⟩
  | report task current total =>
      exact ⟨(task.now_update q current total _).ge, fun _ _ _ isOver => nomatch isOver⟩
  | finish task outcome =>
      refine ⟨(RedisTask.now_save q _ _).ge, fun _ _ _ isOver => ?_⟩
      cases isOver
      exact Or.inr le_rfl
  | _ => exact ⟨le_rfl, fun _ _ _ isOver => nomatch isOver⟩

theorem Meanwhile.instant {q : TaskQueue} {id : String} {w w' : Submission P V E}
    (steps : Meanwhile q id w w') : w.store.now ≤ w'.store.now ∧
      ∀ outcome stored instant, w'.others = .finished outcome stored instant →
        w.others = .finished outcome stored instant ∨ w.store.now ≤ instant := by
  induction steps with
  | refl => exact ⟨le_rfl, fun _ _ _ isOver => Or.inl isOver⟩
  | tail _ step ih =>
      refine ⟨ih.1.trans step.instant.1, fun outcome stored instant isOver => ?_⟩
      rcases step.instant.2 outcome stored instant isOver with before | late
      · exact ih.2 outcome stored instant before
      · exact Or.inr (ih.1.trans late)

/-- The outcome of a run that ended before the deadline, or the timeout. -/
def Listener.outcomeBy (deadline : Rat) (expired : TaskError E) :
    Listener P V E → Except (TaskError E) (Option V)
  | .finished outcome _ instant =>
    if instant < deadline then outcome.map some else .error expired
  | _ => .error expired

/-- From the deadline on nothing changes what the listener has come to by then. -/
theorem Meanwhile.outcomeBy {q : TaskQueue} {id : String} {w w' : Submission P V E}
    (steps : Meanwhile q id w w') {deadline : Rat} (late : deadline ≤ w.store.now)
    (expired : TaskError E) :
    w'.others.outcomeBy deadline expired = w.others.outcomeBy deadline expired := by
  cases before : w.others with
  | finished outcome stored instant => rw [steps.finished before]
  | _ =>
      cases after : w'.others with
      | finished outcome stored instant =>
          rcases steps.instant.2 _ _ _ after with isOver | ended
          · cases before.symm.trans isOver
          · simp only [Listener.outcomeBy, if_neg (not_lt.mpr (late.trans ended))]
      | _ => rfl

/-! ## What the record tells -/

/-- The error and the result in the record, once a task with the error `leak` is submitted. -/
def Listener.shown (leak : Option (TaskError E)) :
    Listener P V E → Option (TaskError E) × Option V
  | .finished (.ok value) true _ => (leak, some value)
  | .finished (.error e) true _ => (some e, none)
  | _ => (leak, none)

/-- The record of `id` and the listener's copy of the task stem from the submitted task. -/
structure Tracks (leak : Option (TaskError E)) (id : String) (w : Submission P V E) : Prop where
  copy : ∀ task, w.others = .running task →
    task.id = id ∧ task.error = leak ∧ task.result = none
  record : ∀ stored, w.store.results id = some stored → stored.task.val.id = id ∧
    (stored.task.val.error, stored.task.val.result) = w.others.shown leak

theorem Tracks.of_getTask {leak : Option (TaskError E)} {id : String} {w : Submission P V E}
    (tracks : Tracks leak id w) {record : RedisTask P V E}
    (found : w.store.getTask id = some record) :
    record.id = id ∧ (record.error, record.result) = w.others.shown leak := by
  obtain ⟨stored, present, _, rfl⟩ := TaskStore.results_of_getTask found
  exact tracks.record stored present

theorem Tracks.step {q : TaskQueue} {leak : Option (TaskError E)} {id : String}
    {w w' : Submission P V E} (step : Elsewhere q id w w') (tracks : Tracks leak id w) :
    Tracks leak id w' := by
  cases step with
  | wait elapsed forward => exact ⟨tracks.copy, tracks.record⟩
  | others sameClock sameRecord sameQueued =>
      refine ⟨tracks.copy, fun stored present => ?_⟩
      rw [sameRecord] at present
      exact tracks.record stored present
  | pop front => exact ⟨fun task running => (nomatch running), tracks.record⟩
  | fetch found =>
      refine ⟨fun task running => ?_, tracks.record⟩
      cases running
      obtain ⟨sameId, shown⟩ := tracks.of_getTask found
      exact ⟨sameId, congrArg Prod.fst shown, congrArg Prod.snd shown⟩
  | missing nothing => exact ⟨fun task running => (nomatch running), tracks.record⟩
  | @report s task current total =>
      obtain ⟨sameId, error, result⟩ := tracks.copy task rfl
      rcases task.update_cases q current total s with unsaved | saved
      · rw [unsaved]
        refine ⟨fun _ running => ?_, tracks.record⟩
        cases running
        exact ⟨sameId, error, result⟩
      · rw [saved]
        refine ⟨fun _ running => ?_, fun stored present => ?_⟩
        · cases running
          exact ⟨sameId, error, result⟩
        · have written :=
            q.results_setTask (task.withProgress s.now current total) s sameId
          cases written.symm.trans present
          exact ⟨sameId, Prod.ext error result⟩
  | @finish s task outcome =>
      obtain ⟨sameId, error, result⟩ := tracks.copy task rfl
      refine ⟨fun task running => (nomatch running), fun stored present => ?_⟩
      rw [RedisTask.results_save q s (by rw [RedisTask.id_withOutcome, sameId]),
        RedisTask.saves_withOutcome] at present
      cases saves : task.saves with
      | true =>
          rw [saves] at present
          cases present
          cases outcome with
          | ok value => exact ⟨sameId, Prod.ext error rfl⟩
          | error e => exact ⟨sameId, Prod.ext rfl result⟩
      | false =>
          -- a report in time has spent the callback, and its snapshot stays
          rw [saves] at present
          obtain ⟨storedId, shown⟩ := tracks.record stored present
          cases outcome <;> exact ⟨storedId, shown⟩

theorem Tracks.meanwhile {q : TaskQueue} {leak : Option (TaskError E)} {id : String}
    {w w' : Submission P V E} (steps : Meanwhile q id w w') (tracks : Tracks leak id w) :
    Tracks leak id w' := by
  induction steps with
  | refl => exact tracks
  | tail _ step ih => exact ih.step step

theorem Tracks.submit (q : TaskQueue) {leak : Option (TaskError E)} {id : String}
    {w : Submission P V E} (task : RedisTask P V E) (idle : w.others = .idle)
    (sameId : task.id = id) (error : task.error = leak) (result : task.result = none) :
    Tracks leak id { w with store := (q.setTask task w.store).2 } where
  copy := fun _ running => by
    rw [idle] at running
    cases running
  record := fun stored present => by
    rw [q.results_setTask task w.store sameId] at present
    cases present
    rw [idle]
    exact ⟨sameId, Prod.ext error result⟩

/-- The outcome in the record, if the listener's last `save` has put it there. -/
def Listener.stored? : Listener P V E → Option (Except (TaskError E) V)
  | .finished outcome true _ => some outcome
  | _ => none

def Listener.ownError : Listener P V E → Option (TaskError E)
  | .finished (.error e) true _ => some e
  | _ => none

theorem Listener.shown_of_stored {l : Listener P V E} {outcome : Except (TaskError E) V}
    (leak : Option (TaskError E)) (known : l.stored? = some outcome) :
    l.shown leak = match outcome with
      | .ok value => (leak, some value)
      | .error e => (some e, none) := by
  cases l with
  | finished outcome' stored instant =>
      cases stored with
      | true =>
          cases known
          cases outcome <;> rfl
      | false => cases known
  | _ => cases known

theorem Meanwhile.stored? {q : TaskQueue} {id : String} {w w' : Submission P V E}
    (steps : Meanwhile q id w w') {outcome : Except (TaskError E) V}
    (known : w.others.stored? = some outcome) :
    ∃ instant, w'.others = .finished outcome true instant := by
  cases isOver : w.others with
  | finished outcome' stored instant =>
      rw [isOver] at known
      cases stored with
      | true =>
          cases known
          exact ⟨instant, steps.finished isOver⟩
      | false => cases known
  | _ =>
      rw [isOver] at known
      cases known

theorem Tracks.reply? {leak : Option (TaskError E)} {id : String} {w : Submission P V E}
    (tracks : Tracks leak id w) : w.store.reply? id =
      if w.store.hasTask id then
        match w.others.shown leak with
        | (some e, _) => some (.raises e)
        | (none, result) => result.map fun value => .returns (some value)
      else none := by
  rw [TaskStore.reply?]
  split
  · obtain ⟨record, found⟩ := TaskStore.getTask_of_hasTask ‹_›
    rw [found, Option.bind_some, ← (tracks.of_getTask found).2]
    cases failed : record.error <;> simp [RedisTask.reply?, failed]
  · rename_i has
    cases found : w.store.getTask id with
    | none => rfl
    | some record => exact absurd (TaskStore.hasTask_of_getTask found) has

theorem Tracks.reply?_leaked {e : TaskError E} {id : String} {w : Submission P V E}
    (tracks : Tracks (some e) id w) : w.store.reply? id =
      if w.store.hasTask id then some (.raises (w.others.ownError.getD e)) else none := by
  rw [tracks.reply?]
  cases w.others with
  | finished outcome stored instant => cases outcome <;> cases stored <;> rfl
  | _ => rfl

theorem Tracks.reply?_clean {id : String} {w : Submission P V E} (tracks : Tracks none id w) :
    w.store.reply? id =
      if w.store.hasTask id then w.others.stored?.map fun outcome => .of (outcome.map some)
      else none := by
  rw [tracks.reply?]
  cases w.others with
  | finished outcome stored instant => cases outcome <;> cases stored <;> rfl
  | _ => rfl

/-! ## Before the submission -/

/-- No queue holds the id and no listener knows it. -/
structure Unsubmitted (id : String) (w : Submission P V E) : Prop where
  idle : w.others = .idle
  unqueued : ∀ name, id ∉ w.store.queues name

theorem Unsubmitted.step {q : TaskQueue} {id : String} {w w' : Submission P V E}
    (step : Elsewhere q id w w') (before : Unsubmitted id w) :
    Unsubmitted id w' ∧ Apart id w w' := by
  cases step with
  | wait elapsed forward =>
      exact ⟨⟨before.idle, before.unqueued⟩, by simpa using forward, rfl⟩
  | others sameClock sameRecord sameQueued =>
      exact ⟨⟨before.idle, fun name => (sameQueued name).not.mpr (before.unqueued name)⟩,
        sameClock.ge, sameRecord⟩
  | @pop s name rest front =>
      exact absurd (front ▸ List.mem_cons_self ..) (before.unqueued name)
  | fetch found => exact nomatch before.idle
  | missing nothing => exact nomatch before.idle
  | report task current total => exact nomatch before.idle
  | finish task outcome => exact nomatch before.idle

theorem Unsubmitted.meanwhile {q : TaskQueue} {id : String} {w w' : Submission P V E}
    (steps : Meanwhile q id w w') (before : Unsubmitted id w) :
    Unsubmitted id w' ∧ Apart id w w' := by
  induction steps with
  | refl => exact ⟨before, le_rfl, rfl⟩
  | tail _ step ih =>
      obtain ⟨still, apart⟩ := ih
      obtain ⟨after, further⟩ := still.step step
      exact ⟨after, apart.trans further⟩

theorem Working.unsubmitted {q : TaskQueue} {id : String} {task task' : RedisTask P V E}
    {w w' : Submission P V E} {reports : List Report}
    {outcome : Except (TaskError E) (Option V)}
    (run : Working q (Meanwhile q id) task w reports outcome task' w')
    (before : Unsubmitted id w) :
    Working q (Apart id) task w reports outcome task' w' ∧ Unsubmitted id w' := by
  induction run with
  | finish meanwhile outcome =>
      obtain ⟨still, apart⟩ := before.meanwhile meanwhile
      refine ⟨.finish apart outcome, still.idle, fun name => ?_⟩
      rw [RedisTask.queues_save]
      exact still.unqueued name
  | report meanwhile current total rest ih =>
      obtain ⟨still, apart⟩ := before.meanwhile meanwhile
      obtain ⟨alone, after⟩ := ih ⟨still.idle, fun name => by
        rw [RedisTask.queues_update]
        exact still.unqueued name⟩
      exact ⟨.report apart current total alone, after⟩

end RedisAllocator

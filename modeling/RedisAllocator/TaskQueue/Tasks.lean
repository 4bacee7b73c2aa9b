import Mathlib.Algebra.Order.Ring.Unbundled.Rat
import Mathlib.Tactic.Linarith

/-!
# Tasks and their stored records

`RedisTask`, the Redis keys of one task queue, and the methods that read and write
one record.  The keys are one field per family: `<prefix>|<suffix>|task-result:<id>`,
`<prefix>|<suffix>|task-queue|<name>` and `<prefix>|<suffix>|task-listen|<name>`.
Seconds are rationals, and the wall clock, the monotonic clock and the clock of
Redis are one.
-/

set_option autoImplicit false

namespace RedisAllocator

inductive TaskError (E : Type)
  | timeoutError (message : String)
  | raised (error : E)
deriving DecidableEq

structure RedisTask (P V E : Type) where
  id : String
  name : String
  params : P
  expiry : Rat
  /-- `none` is Python's `None`, which a task function may also return -/
  result : Option V
  error : Option (TaskError E)
  updateProgressTime : Rat
  currentProgress : Rat
  totalProgress : Rat
  /-- `_save is not None`: the callback stores the task that holds it -/
  saves : Bool

/-- A pickled task; one that holds the callback, a lambda, cannot be pickled. -/
def Pickled (P V E : Type) : Type := { task : RedisTask P V E // task.saves = false }

/-- The pickled copy `set_task` writes, of a task it has taken the callback from. -/
def RedisTask.pickle {P V E : Type} (task : RedisTask P V E) : Pickled P V E :=
  ⟨{ task with saves := false }, rfl⟩

structure StoredTask (P V E : Type) where
  task : Pickled P V E
  lapsesAt : Rat

structure TaskStore (P V E : Type) where
  now : Rat
  results : String → Option (StoredTask P V E)
  queues : String → List String
  listens : String → Option Rat

/-- `RedisTaskQueue`.  `SETEX` takes whole seconds and no less than one, and `sleep` rejects a
negative time. -/
structure TaskQueue where
  timeout : Nat
  timeout_pos : 0 < timeout
  interval : Rat
  interval_nonneg : 0 ≤ interval

variable {P V E : Type}

namespace TaskStore

def get (s : TaskStore P V E) (id : String) : Option (Pickled P V E) :=
  match s.results id with
  | some stored => if s.now < stored.lapsesAt then some stored.task else none
  | none => none

def setex (s : TaskStore P V E) (id : String) (seconds : Nat) (task : Pickled P V E) :
    TaskStore P V E :=
  { s with results := Function.update s.results id (some ⟨task, s.now + seconds⟩) }

def delete (s : TaskStore P V E) (id : String) : TaskStore P V E :=
  { s with results := Function.update s.results id none }

def rpush (s : TaskStore P V E) (name id : String) : TaskStore P V E :=
  { s with queues := Function.update s.queues name (s.queues name ++ [id]) }

def listened (s : TaskStore P V E) (name : String) : Bool :=
  match s.listens name with
  | some lapsesAt => s.now < lapsesAt
  | none => false

end TaskStore

/-! ## `set_task`, `get_task`, `has_task` -/

namespace TaskQueue

/-- `set_task`: the task loses its callback for good, not only in the pickled copy. -/
def setTask (q : TaskQueue) (task : RedisTask P V E) (s : TaskStore P V E) :
    RedisTask P V E × TaskStore P V E :=
  (task.pickle.val, s.setex task.id q.timeout task.pickle)

end TaskQueue

namespace TaskStore

/-- `get_task`: the copy that is read gets a callback of its own. -/
def getTask (s : TaskStore P V E) (id : String) : Option (RedisTask P V E) :=
  (s.get id).map fun pickled => { pickled.val with saves := true }

def hasTask (s : TaskStore P V E) (id : String) : Bool := (s.get id).isSome

theorem getTask_of_results {s : TaskStore P V E} {id : String} {stored : StoredTask P V E}
    (present : s.results id = some stored) : s.getTask id =
      if s.now < stored.lapsesAt then some { stored.task.val with saves := true } else none := by
  simp only [getTask, get, present]
  split <;> rfl

theorem results_of_getTask {s : TaskStore P V E} {id : String} {record : RedisTask P V E}
    (found : s.getTask id = some record) :
    ∃ stored, s.results id = some stored ∧ s.now < stored.lapsesAt ∧
      record = { stored.task.val with saves := true } := by
  cases present : s.results id with
  | none =>
      simp only [getTask, get, present] at found
      cases found
  | some stored =>
      rw [getTask_of_results present] at found
      split at found
      · cases found
        exact ⟨stored, rfl, ‹_›, rfl⟩
      · cases found

theorem getTask_of_hasTask {s : TaskStore P V E} {id : String} (has : s.hasTask id = true) :
    ∃ record, s.getTask id = some record := by
  obtain ⟨pickled, found⟩ := Option.isSome_iff_exists.mp has
  exact ⟨_, by rw [getTask, found]; rfl⟩

theorem hasTask_of_getTask {s : TaskStore P V E} {id : String} {record : RedisTask P V E}
    (found : s.getTask id = some record) : s.hasTask id = true := by
  obtain ⟨pickled, present, _⟩ := Option.map_eq_some_iff.mp found
  rw [hasTask, present]
  rfl

end TaskStore

/-! ## `RedisTask` -/

def TaskQueue.buildTask (q : TaskQueue) (s : TaskStore P V E) (id name : String) (params : P) :
    RedisTask P V E :=
  ⟨id, name, params, s.now + q.timeout, none, none, 0, 0, 100, true⟩

namespace RedisTask

def save (q : TaskQueue) (task : RedisTask P V E) (s : TaskStore P V E) :
    RedisTask P V E × TaskStore P V E :=
  if task.saves then q.setTask task s else (task, s)

/-- The `TimeoutError` of `update` and of `execute_task_remotely`. -/
def expired (task : RedisTask P V E) : TaskError E :=
  .timeoutError ("Task " ++ task.id ++ " in " ++ task.name ++ " has expired")

def withProgress (task : RedisTask P V E) (now current total : Rat) : RedisTask P V E :=
  { task with currentProgress := current, totalProgress := total, updateProgressTime := now }

def update (q : TaskQueue) (task : RedisTask P V E) (current total : Rat) (s : TaskStore P V E) :
    Except (TaskError E) Unit × RedisTask P V E × TaskStore P V E :=
  let task := task.withProgress s.now current total
  if task.expiry < s.now then (.error task.expired, task, s)
  else (.ok (), task.save q s)

/-- What `execute_task_locally` makes of the outcome of the task function. -/
def withOutcome (task : RedisTask P V E) : Except (TaskError E) (Option V) → RedisTask P V E
  | .ok value => { task with result := value }
  | .error e => { task with error := some e }

def withTimeout (task : RedisTask P V E) (now : Rat) : Option Rat → RedisTask P V E
  | some timeout => { task with expiry := now + timeout }
  | none => task

end RedisTask

end RedisAllocator

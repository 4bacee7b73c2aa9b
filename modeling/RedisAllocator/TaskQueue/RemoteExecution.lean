import Mathlib.Logic.Relation
import RedisAllocator.Lib.DeadlinePolling
import RedisAllocator.TaskQueue.Execution

/-!
# Submitting a task and waiting for it

`execute_task_remotely` as a function of its surroundings: what happens before each
of its commands is given, and the loop answers, deletes and gives up by itself.  Who
the others are and what a step of theirs may do is left open.
-/

set_option autoImplicit false

namespace RedisAllocator

open DeadlinePolling

variable {P V E X : Type}

inductive Reply (V E : Type)
  | raises (error : TaskError E)
  | returns (value : Option V)
  | expires
deriving DecidableEq

def Reply.of : Except (TaskError E) (Option V) → Reply V E
  | .ok value => .returns value
  | .error e => .raises e

/-- The reply to a record: its error comes first, and `None` is no result. -/
def RedisTask.reply? (record : RedisTask P V E) : Option (Reply V E) :=
  match record.error with
  | some e => some (.raises e)
  | none => record.result.map fun value => Reply.returns (some value)

/-- One poll: `get_task` and what the loop makes of it. -/
def TaskStore.reply? (s : TaskStore P V E) (id : String) : Option (Reply V E) :=
  (s.getTask id).bind RedisTask.reply?

/-- `timeout` of the call, or the queue's. -/
def TaskQueue.waits (q : TaskQueue) (timeout : Option Rat) : Rat := timeout.getD q.timeout

abbrev Interlude (step : World P V E X → World P V E X → Prop) : Type :=
  { meanwhile : World P V E X → World P V E X // ∀ w, Relation.ReflTransGen step w (meanwhile w) }

/-- The clock `expiry` is computed from, and what happens before each later command of the caller;
`sleep` takes at least its time. -/
structure Surroundings (step : World P V E X → World P V E X → Prop) where
  clock : Rat
  stored : Interlude step
  pushed : Interlude step
  loop : Schedule (World P V E X) fun w => w.store.now
  cleaning : Interlude step
  arrives : ∀ n w, Relation.ReflTransGen step w (loop.arrive n w)
  thinks : ∀ n w, Relation.ReflTransGen step w (loop.think n w)
  naps : ∀ n duration w, Relation.ReflTransGen step w (loop.nap n duration w)

structure Answer (P V E X : Type) where
  reply : Reply V E
  seen : World P V E X
  deleted : Bool
  final : World P V E X

structure RemoteAttempt (step : World P V E X → World P V E X → Prop) where
  q : TaskQueue
  task : RedisTask P V E
  timeout : Option Rat
  once : Bool
  start : World P V E X
  around : Surroundings step

namespace RemoteAttempt

section Loop

variable {step : World P V E X → World P V E X → Prop} (attempt : RemoteAttempt step)

def sent : RedisTask P V E :=
  { attempt.task with expiry := attempt.around.clock + attempt.q.waits attempt.timeout }

def spent : RedisTask P V E := (attempt.q.setTask attempt.sent attempt.start.store).1

def submitted : World P V E X :=
  let w := attempt.around.stored.val
    { attempt.start with store := (attempt.q.setTask attempt.sent attempt.start.store).2 }
  attempt.around.pushed.val { w with store := w.store.rpush attempt.task.name attempt.task.id }

def deadline : Rat := attempt.submitted.store.now + attempt.q.waits attempt.timeout

def look (w : World P V E X) : Option (Reply V E) := w.store.reply? attempt.task.id

def answer : Result (World P V E X) (Reply V E) → Answer P V E X
  | .seen reply seen =>
    if attempt.once then
      let w := attempt.around.cleaning.val seen
      ⟨reply, seen, true, { w with store := w.store.delete attempt.task.id }⟩
    else ⟨reply, seen, false, seen⟩
  | .expired seen late => ⟨.expires, seen, false, late⟩

def executeTaskRemotely (fuel : Nat) : Option (Answer P V E X) :=
  (poll attempt.around.loop attempt.look attempt.q.interval attempt.deadline fuel 0
    attempt.submitted).map attempt.answer

def looked (n : Nat) : World P V E X :=
  DeadlinePolling.looked attempt.around.loop attempt.q.interval attempt.deadline
    attempt.submitted n

def checked (n : Nat) : World P V E X :=
  DeadlinePolling.checked attempt.around.loop attempt.q.interval attempt.deadline
    attempt.submitted n

/-- The last turn of the loop, if no poll brings a reply. -/
def IsLast (last : Nat) : Prop :=
  DeadlinePolling.IsLast attempt.around.loop attempt.q.interval attempt.deadline
    attempt.submitted last

end Loop

variable {step : World P V E X → World P V E X → Prop} {attempt : RemoteAttempt step} {last : Nat}

theorem exists_isLast (attempt : RemoteAttempt step) (positive : 0 < attempt.q.interval) :
    ∃ last ≤ ⌈attempt.q.waits attempt.timeout / attempt.q.interval⌉₊, attempt.IsLast last := by
  have waits : attempt.deadline - attempt.submitted.store.now =
      attempt.q.waits attempt.timeout := by
    rw [deadline]
    ring
  rw [← waits]
  exact DeadlinePolling.exists_isLast attempt.around.loop attempt.deadline attempt.submitted
    positive

theorem related :
    (∀ n, Relation.ReflTransGen step attempt.submitted (attempt.looked n)) ∧
      ∀ m n, m ≤ n → Relation.ReflTransGen step (attempt.looked m) (attempt.looked n) := by
  have turns : (∀ n, Relation.ReflTransGen step attempt.submitted
      (turn attempt.around.loop attempt.q.interval attempt.deadline attempt.submitted n)) ∧
      ∀ m n, m ≤ n → Relation.ReflTransGen step (attempt.looked m) (attempt.looked n) :=
    turns_related (fun _ => .refl) (fun first second => first.trans second)
      attempt.around.arrives attempt.around.thinks attempt.around.naps
  exact ⟨fun n => (turns.1 n).trans (attempt.around.arrives n _), turns.2⟩

/-- The attempt answers with the first poll that brings a reply, or runs into its deadline. -/
theorem executeTaskRemotely_ends (isLast : attempt.IsLast last) :
    (∃ n ≤ last, ∃ reply, (∀ m < n, attempt.look (attempt.looked m) = none) ∧
      attempt.look (attempt.looked n) = some reply ∧
      ∀ fuel, last < fuel → attempt.executeTaskRemotely fuel =
        some (attempt.answer (.seen reply (attempt.looked n)))) ∨
    (∀ n ≤ last, attempt.look (attempt.looked n) = none) ∧
      ∀ fuel, last < fuel → attempt.executeTaskRemotely fuel =
        some (attempt.answer (.expired (attempt.looked last) (attempt.checked last))) := by
  rcases poll_result attempt.look isLast with
    ⟨n, early, reply, unseen, found, ends⟩ | ⟨unseen, ends⟩
  · refine Or.inl ⟨n, early, reply, unseen, found, fun fuel enough => ?_⟩
    rw [executeTaskRemotely, ends fuel enough]
    rfl
  · refine Or.inr ⟨unseen, fun fuel enough => ?_⟩
    rw [executeTaskRemotely, ends fuel enough]
    rfl

theorem answer_seen (attempt : RemoteAttempt step) (reply : Reply V E) (seen : World P V E X) :
    (attempt.answer (.seen reply seen)).reply = reply ∧
      (attempt.answer (.seen reply seen)).seen = seen ∧
      (attempt.answer (.seen reply seen)).deleted = attempt.once := by
  rw [answer]
  cases attempt.once <;> exact ⟨rfl, rfl, rfl⟩

theorem answer_deleted_iff {result : Result (World P V E X) (Reply V E)}
    (replies : ∀ reply seen, result = .seen reply seen → reply ≠ .expires) :
    (attempt.answer result).deleted ↔
      attempt.once ∧ (attempt.answer result).reply ≠ .expires := by
  cases result with
  | seen reply seen =>
      obtain ⟨sameReply, _, deleted⟩ := attempt.answer_seen reply seen
      rw [sameReply, deleted]
      exact (and_iff_left (replies reply seen rfl)).symm
  | expired seen late => simp [answer]

theorem results_answer {result : Result (World P V E X) (Reply V E)}
    (deleted : (attempt.answer result).deleted) :
    (attempt.answer result).final.store.results attempt.task.id = none := by
  cases result with
  | seen reply seen =>
      rw [(attempt.answer_seen reply seen).2.2] at deleted
      rw [answer, if_pos deleted]
      exact Function.update_self ..
  | expired seen late => cases deleted

end RemoteAttempt

theorem RedisTask.reply?_congr {record task : RedisTask P V E} (error : record.error = task.error)
    (result : record.result = task.result) : record.reply? = task.reply? := by
  rw [RedisTask.reply?, RedisTask.reply?, error, result]

theorem RedisTask.reply?_ne_expires (record : RedisTask P V E) :
    record.reply? ≠ some .expires := by
  cases failed : record.error <;> cases done : record.result <;>
    simp [RedisTask.reply?, failed, done]

theorem TaskStore.reply?_ne_expires (s : TaskStore P V E) (id : String) :
    s.reply? id ≠ some .expires := by
  intro expires
  obtain ⟨record, _, replies⟩ := Option.bind_eq_some_iff.mp expires
  exact record.reply?_ne_expires replies

/-! ## What a task of the others writes -/

theorem RedisTask.results_save (q : TaskQueue) {task : RedisTask P V E} {id : String}
    (s : TaskStore P V E) (sameId : task.id = id) :
    (task.save q s).2.results id =
      if task.saves then some ⟨task.pickle, s.now + q.timeout⟩ else s.results id := by
  unfold RedisTask.save
  split
  · exact q.results_setTask task s sameId
  · rfl

theorem RedisTask.update_cases (q : TaskQueue) (task : RedisTask P V E) (current total : Rat)
    (s : TaskStore P V E) :
    (task.update q current total s).2 = (task.withProgress s.now current total, s) ∨
      (task.update q current total s).2 = q.setTask (task.withProgress s.now current total) s := by
  by_cases onTime : s.now ≤ task.expiry
  · cases saves : task.saves with
    | true => exact Or.inr (RedisTask.update_first q s current total saves onTime)
    | false => exact Or.inl (RedisTask.update_silent q s current total saves)
  · exact Or.inl (RedisTask.update_late q s current total (not_le.mp onTime))

theorem RedisTask.queues_save (q : TaskQueue) (task : RedisTask P V E) (s : TaskStore P V E) :
    (task.save q s).2.queues = s.queues := by
  unfold RedisTask.save
  split <;> rfl

theorem RedisTask.queues_update (q : TaskQueue) (task : RedisTask P V E) (current total : Rat)
    (s : TaskStore P V E) : (task.update q current total s).2.2.queues = s.queues := by
  rcases task.update_cases q current total s with unsaved | saved
  · rw [unsaved]
  · rw [saved]
    rfl

theorem RedisTask.now_save (q : TaskQueue) (task : RedisTask P V E) (s : TaskStore P V E) :
    (task.save q s).2.now = s.now := by
  unfold RedisTask.save
  split <;> rfl

theorem RedisTask.now_update (q : TaskQueue) (task : RedisTask P V E) (current total : Rat)
    (s : TaskStore P V E) : (task.update q current total s).2.2.now = s.now := by
  rcases task.update_cases q current total s with unsaved | saved
  · rw [unsaved]
  · rw [saved]
    rfl

def sampleNap (duration : Rat) (w : World Unit Nat Unit X) : World Unit Nat Unit X :=
  { w with store := { w.store with now := w.store.now + max duration 0 } }

end RedisAllocator

import RedisAllocator.Lib.Replay
import RedisAllocator.TaskQueue.KeyNames
import RedisAllocator.TaskQueue.Routing

/-!
# Task queues on one Redis

The server by its keys, and the methods of a task queue as the commands they send
to it.  To a queue that shares no key with the others the server is a store of its
own, one field per family: no type error, no reply and no record of another queue
ever reaches it.
-/

set_option autoImplicit false

namespace RedisAllocator

open LabelledRun

variable {P V E : Type}

/-! ## The server -/

/-- What the strings say: a pickled task, or the `1` of `set_queue_listened`. -/
inductive Text (P V E : Type)
  | task (pickled : Pickled P V E)
  | one

/-- Redis drops a list with its last element. -/
inductive Value (P V E : Type)
  | string (text : Text P V E) (lapsesAt : Rat)
  | list (first : String) (rest : List String)

structure Server (P V E : Type) where
  now : Rat
  keys : String → Option (Value P V E)

inductive QueueError
  | wrongType
  | undecodable
deriving DecidableEq

namespace Server

def empty (now : Rat) : Server P V E := ⟨now, fun _ => none⟩

def advance (s : Server P V E) (elapsed : Rat) : Server P V E := { s with now := s.now + elapsed }

def put (s : Server P V E) (key : String) (value : Option (Value P V E)) : Server P V E :=
  { s with keys := Function.update s.keys key value }

def live (s : Server P V E) (key : String) : Option (Value P V E) :=
  match s.keys key with
  | some (.string text lapsesAt) => if s.now < lapsesAt then some (.string text lapsesAt) else none
  | value => value

def setex (s : Server P V E) (key : String) (seconds : Nat) (text : Text P V E) : Server P V E :=
  s.put key (some (.string text (s.now + seconds)))

def delete (s : Server P V E) (key : String) : Server P V E := s.put key none

def has (s : Server P V E) (key : String) : Bool := (s.live key).isSome

def get (s : Server P V E) (key : String) : Except QueueError (Option (Text P V E)) :=
  match s.live key with
  | none => .ok none
  | some (.string text _) => .ok (some text)
  | some (.list _ _) => .error .wrongType

/-- A string that has lapsed is dropped here, too. -/
def getdel (s : Server P V E) (key : String) :
    Except QueueError (Option (Text P V E)) × Server P V E :=
  match s.get key with
  | .ok text => (.ok text, s.delete key)
  | .error e => (.error e, s)

def rpush (s : Server P V E) (key id : String) : Except QueueError Unit × Server P V E :=
  match s.live key with
  | none => (.ok (), s.put key (some (.list id [])))
  | some (.list first rest) => (.ok (), s.put key (some (.list first (rest ++ [id]))))
  | some (.string _ _) => (.error .wrongType, s)

/-- What `LPOP` leaves of a list. -/
def tailOf : List String → Option (Value P V E)
  | [] => none
  | first :: rest => some (.list first rest)

/-- `BLPOP`: the first key that holds a list, and what was in front of it. -/
def blpop (s : Server P V E) :
    List String → Except QueueError (Option (String × String)) × Server P V E
  | [] => (.ok none, s)
  | key :: keys =>
    match s.live key with
    | none => s.blpop keys
    | some (.list first rest) => (.ok (some (key, first)), s.put key (tailOf rest))
    | some (.string _ _) => (.error .wrongType, s)

end Server

/-! ## The methods -/

inductive QueueCall (P V E : Type)
  | setTask (task : RedisTask P V E)
  | push (task : RedisTask P V E)
  | pop (names : List String)
  | getTask (taskId : String) (once : Bool)
  | hasTask (taskId : String)
  | deleteTask (taskId : String)
  | setQueueListened (name : String)
  | isListened (name : String)

inductive QueueReply (P V E : Type)
  | done
  | task (found : Option (RedisTask P V E))
  | popped (taskId : Option String)
  | holds (answer : Bool)

/-- What `get_task` makes of a string. -/
def loadTask : Option (Text P V E) → Except QueueError (QueueReply P V E)
  | none => .ok (.task none)
  | some (.task pickled) => .ok (.task (some { pickled.val with saves := true }))
  | some .one => .error .undecodable

/-- The commands a call sends to the server; `listen` has no use for the key it popped from. -/
def QueueNames.perform (names : QueueNames) (queue : TaskQueue) (call : QueueCall P V E)
    (s : Server P V E) : Except QueueError (QueueReply P V E) × Server P V E :=
  match call with
  | .setTask task =>
    (.ok (.task (some task.pickle.val)),
      s.setex (names.resultKey task.id) queue.timeout (.task task.pickle))
  | .push task =>
    let (reply, s) := s.rpush (names.queueKey task.name) task.id
    (reply.map fun _ => .done, s)
  | .pop listened =>
    let (reply, s) := s.blpop (listened.map names.queueKey)
    (reply.map fun popped => .popped (popped.map Prod.snd), s)
  | .getTask taskId once =>
    let (reply, s) :=
      if once then s.getdel (names.resultKey taskId) else (s.get (names.resultKey taskId), s)
    (reply.bind loadTask, s)
  | .hasTask taskId => (.ok (.holds (s.has (names.resultKey taskId))), s)
  | .deleteTask taskId => (.ok .done, s.delete (names.resultKey taskId))
  | .setQueueListened name =>
    (.ok .done, s.setex (names.queueListenName name) queue.timeout .one)
  | .isListened name => (.ok (.holds (s.has (names.queueListenName name))), s)

/-- The same call on the store of one queue. -/
def TaskStore.perform (queue : TaskQueue) (call : QueueCall P V E) (t : TaskStore P V E) :
    QueueReply P V E × TaskStore P V E :=
  match call with
  | .setTask task =>
    let (task, t) := queue.setTask task t
    (.task (some task), t)
  | .push task => (.done, t.rpush task.name task.id)
  | .pop listened =>
    match t.blpop listened with
    | none => (.popped none, t)
    | some (taskId, t) => (.popped (some taskId), t)
  | .getTask taskId once => (.task (t.getTask taskId), if once then t.delete taskId else t)
  | .hasTask taskId => (.holds (t.hasTask taskId), t)
  | .deleteTask taskId => (.done, t.delete taskId)
  | .setQueueListened name => (.done, queue.setQueueListened name t)
  | .isListened name => (.holds (t.listened name), t)

/-! ## A server that spells a store -/

def TaskStore.value (t : TaskStore P V E) : Family → String → Option (Value P V E)
  | .queue, name => Server.tailOf (t.queues name)
  | .listen, name => (t.listens name).map (.string .one)
  | .result, taskId =>
    (t.results taskId).map fun stored => .string (.task stored.task) stored.lapsesAt

structure Server.Spells (s : Server P V E) (names : QueueNames) (t : TaskStore P V E) : Prop where
  now : s.now = t.now
  keys : ∀ family name, s.keys (names.key family name) = t.value family name

namespace Server.Spells

variable {names : QueueNames} {s : Server P V E} {t t' : TaskStore P V E}

theorem put (spells : s.Spells names t) (family : Family) (name : String)
    {value : Option (Value P V E)} (now : t'.now = t.now)
    (changed : ∀ other text, t'.value other text =
      if other = family ∧ text = name then value else t.value other text) :
    (s.put (names.key family name) value).Spells names t' := by
  refine ⟨spells.now.trans now.symm, fun other text => ?_⟩
  simp only [Server.put, Function.update_apply, names.key_inj, changed, spells.keys]

theorem results (spells : s.Spells names t) (taskId : String) (stored : Option (StoredTask P V E)) :
    (s.put (names.resultKey taskId)
      (stored.map fun stored => .string (.task stored.task) stored.lapsesAt)).Spells names
      { t with results := Function.update t.results taskId stored } := by
  refine spells.put .result taskId rfl fun other text => ?_
  cases other with
  | queue => simp [TaskStore.value]
  | listen => simp [TaskStore.value]
  | result =>
      by_cases same : text = taskId
      · simp [TaskStore.value, same]
      · simp [TaskStore.value, same]

theorem queues (spells : s.Spells names t) (name : String) (ids : List String) :
    (s.put (names.queueKey name) (Server.tailOf ids)).Spells names
      { t with queues := Function.update t.queues name ids } := by
  refine spells.put .queue name rfl fun other text => ?_
  cases other with
  | listen => simp [TaskStore.value]
  | result => simp [TaskStore.value]
  | queue =>
      by_cases same : text = name
      · simp [TaskStore.value, same]
      · simp [TaskStore.value, same]

theorem listens (spells : s.Spells names t) (name : String) (lapsesAt : Rat) :
    (s.put (names.queueListenName name) (some (.string .one lapsesAt))).Spells names
      { t with listens := Function.update t.listens name (some lapsesAt) } := by
  refine spells.put .listen name rfl fun other text => ?_
  cases other with
  | queue => simp [TaskStore.value]
  | result => simp [TaskStore.value]
  | listen =>
      by_cases same : text = name
      · simp [TaskStore.value, same]
      · simp [TaskStore.value, same]

theorem live_result (spells : s.Spells names t) (taskId : String) :
    s.live (names.resultKey taskId) = (t.results taskId).bind fun stored =>
      if t.now < stored.lapsesAt then some (.string (.task stored.task) stored.lapsesAt)
      else none := by
  have stored : s.keys (names.resultKey taskId) = t.value .result taskId :=
    spells.keys .result taskId
  rw [Server.live, stored, TaskStore.value, spells.now]
  cases t.results taskId <;> rfl

theorem get (spells : s.Spells names t) (taskId : String) :
    s.get (names.resultKey taskId) = .ok ((t.get taskId).map .task) := by
  rw [Server.get, spells.live_result, TaskStore.get]
  cases t.results taskId with
  | none => rfl
  | some stored =>
      rw [Option.bind_some]
      by_cases unlapsed : t.now < stored.lapsesAt
      · simp only [if_pos unlapsed, Option.map_some]
      · simp only [if_neg unlapsed, Option.map_none]

theorem has_result (spells : s.Spells names t) (taskId : String) :
    s.has (names.resultKey taskId) = t.hasTask taskId := by
  rw [Server.has, spells.live_result, TaskStore.hasTask, TaskStore.get]
  cases t.results taskId with
  | none => rfl
  | some stored =>
      rw [Option.bind_some]
      by_cases unlapsed : t.now < stored.lapsesAt
      · simp only [if_pos unlapsed, Option.isSome_some]
      · simp only [if_neg unlapsed, Option.isSome_none]

theorem has_listen (spells : s.Spells names t) (name : String) :
    s.has (names.queueListenName name) = t.listened name := by
  have stored : s.keys (names.queueListenName name) = t.value .listen name :=
    spells.keys .listen name
  rw [Server.has, Server.live, stored, TaskStore.value, TaskStore.listened, spells.now]
  cases t.listens name with
  | none => rfl
  | some lapsesAt =>
      simp only [Option.map_some]
      by_cases unlapsed : t.now < lapsesAt
      · rw [if_pos unlapsed, decide_eq_true unlapsed, Option.isSome_some]
      · rw [if_neg unlapsed, decide_eq_false unlapsed, Option.isSome_none]

theorem live_queue (spells : s.Spells names t) (name : String) :
    s.live (names.queueKey name) = Server.tailOf (t.queues name) := by
  have stored : s.keys (names.queueKey name) = t.value .queue name := spells.keys .queue name
  rw [Server.live, stored, TaskStore.value]
  cases t.queues name with
  | nil => rfl
  | cons first rest => rfl

theorem rpush (spells : s.Spells names t) (name taskId : String) :
    (s.rpush (names.queueKey name) taskId).1 = .ok () ∧
      (s.rpush (names.queueKey name) taskId).2.Spells names (t.rpush name taskId) := by
  have written := spells.queues name (t.queues name ++ [taskId])
  rw [Server.rpush, spells.live_queue, TaskStore.rpush]
  cases waiting : t.queues name with
  | nil =>
      rw [waiting] at written
      exact ⟨rfl, written⟩
  | cons first rest =>
      rw [waiting] at written
      exact ⟨rfl, written⟩

theorem blpop (spells : s.Spells names t) (listened : List String) :
    (s.blpop (listened.map names.queueKey)).1.map (Option.map Prod.snd) =
        .ok ((t.blpop listened).map Prod.fst) ∧
      (s.blpop (listened.map names.queueKey)).2.Spells names
        (((t.blpop listened).map Prod.snd).getD t) := by
  induction listened with
  | nil => exact ⟨rfl, spells⟩
  | cons name later ih =>
      rw [List.map_cons, Server.blpop, spells.live_queue, TaskStore.blpop]
      cases waiting : t.queues name with
      | nil => exact ih
      | cons first rest => exact ⟨rfl, spells.queues name rest⟩

theorem setTask (spells : s.Spells names t) (queue : TaskQueue) (task : RedisTask P V E) :
    (s.setex (names.resultKey task.id) queue.timeout (.task task.pickle)).Spells names
      (queue.setTask task t).2 := by
  rw [Server.setex, spells.now]
  exact spells.results task.id (some ⟨task.pickle, t.now + queue.timeout⟩)

theorem setQueueListened (spells : s.Spells names t) (queue : TaskQueue) (name : String) :
    (s.setex (names.queueListenName name) queue.timeout .one).Spells names
      (queue.setQueueListened name t) := by
  rw [Server.setex, spells.now]
  exact spells.listens name (t.now + queue.timeout)

theorem loadTask (spells : s.Spells names t) (taskId : String) :
    (s.get (names.resultKey taskId)).bind loadTask = .ok (.task (t.getTask taskId)) := by
  rw [spells.get, TaskStore.getTask]
  cases t.get taskId <;> rfl

theorem popped {reply : Except QueueError (Option (String × String))} {taskId : Option String}
    (same : reply.map (Option.map Prod.snd) = .ok taskId) :
    (reply.map fun popped => QueueReply.popped (popped.map Prod.snd)) =
      (.ok (.popped taskId) : Except QueueError (QueueReply P V E)) := by
  cases reply with
  | error e => cases same
  | ok popped =>
      cases same
      rfl

/-- A call gives the same reply on both sides, and never a type error. -/
theorem perform (spells : s.Spells names t) (queue : TaskQueue) (call : QueueCall P V E) :
    (names.perform queue call s).1 = .ok (t.perform queue call).1 ∧
      (names.perform queue call s).2.Spells names (t.perform queue call).2 := by
  cases call with
  | setTask task => exact ⟨rfl, spells.setTask queue task⟩
  | push task =>
      obtain ⟨reply, next⟩ := spells.rpush task.name task.id
      refine ⟨?_, next⟩
      simp only [QueueNames.perform, reply]
      rfl
  | pop listened =>
      obtain ⟨reply, next⟩ := spells.blpop listened
      rw [QueueNames.perform, TaskStore.perform]
      cases found : t.blpop listened with
      | none =>
          rw [found] at reply next
          exact ⟨popped reply, next⟩
      | some first =>
          rw [found] at reply next
          exact ⟨popped reply, next⟩
  | getTask taskId once =>
      cases once with
      | false => exact ⟨spells.loadTask taskId, spells⟩
      | true =>
          have deleted := spells.results taskId none
          have loaded := spells.loadTask taskId
          simp only [QueueNames.perform, Server.getdel, spells.get, if_true] at loaded ⊢
          exact ⟨loaded, deleted⟩
  | hasTask taskId =>
      rw [QueueNames.perform, TaskStore.perform, spells.has_result]
      exact ⟨rfl, spells⟩
  | deleteTask taskId => exact ⟨rfl, spells.results taskId none⟩
  | setQueueListened name => exact ⟨rfl, spells.setQueueListened queue name⟩
  | isListened name =>
      rw [QueueNames.perform, TaskStore.perform, spells.has_listen]
      exact ⟨rfl, spells⟩

end Server.Spells

/-! ## Other queues -/

/-- `s'` shows what `s` shows under `key`. -/
def Server.Spares (key : String) (s s' : Server P V E) : Prop :=
  s'.now = s.now ∧ s'.keys key = s.keys key

namespace Server

variable {key other : String} (s : Server P V E)

theorem spares_refl : s.Spares key s := ⟨rfl, rfl⟩

theorem spares_put (foreign : key ≠ other) (value : Option (Value P V E)) :
    s.Spares key (s.put other value) :=
  ⟨rfl, Function.update_of_ne foreign ..⟩

theorem spares_getdel (foreign : key ≠ other) : s.Spares key (s.getdel other).2 := by
  rw [getdel]
  cases s.get other with
  | error e => exact s.spares_refl
  | ok text => exact s.spares_put foreign none

theorem spares_rpush (foreign : key ≠ other) (id : String) :
    s.Spares key (s.rpush other id).2 := by
  rw [rpush]
  split
  · exact s.spares_put foreign _
  · exact s.spares_put foreign _
  · exact s.spares_refl

theorem spares_blpop {others : List String} (foreign : key ∉ others) :
    s.Spares key (s.blpop others).2 := by
  induction others with
  | nil => exact s.spares_refl
  | cons other later ih =>
      rw [List.mem_cons, not_or] at foreign
      rw [blpop]
      split
      · exact ih foreign.2
      · exact s.spares_put foreign.1 _
      · exact s.spares_refl

end Server

theorem QueueNames.perform_spares {names : QueueNames} {key : String}
    (foreign : ∀ family name, key ≠ names.key family name) (queue : TaskQueue)
    (call : QueueCall P V E) (s : Server P V E) : s.Spares key (names.perform queue call s).2 := by
  cases call with
  | setTask task => exact s.spares_put (foreign .result task.id) _
  | push task => exact s.spares_rpush (foreign .queue task.name) task.id
  | pop listened =>
      refine s.spares_blpop fun among => ?_
      obtain ⟨name, _, same⟩ := List.mem_map.mp among
      exact foreign .queue name same.symm
  | getTask taskId once =>
      cases once with
      | false => exact s.spares_refl
      | true => exact s.spares_getdel (foreign .result taskId)
  | hasTask taskId => exact s.spares_refl
  | deleteTask taskId => exact s.spares_put (foreign .result taskId) none
  | setQueueListened name => exact s.spares_put (foreign .listen name) _
  | isListened name => exact s.spares_refl

theorem Server.Spells.other {a b : QueueNames} (apart : a.Apart b) {s : Server P V E}
    {t : TaskStore P V E} (spells : s.Spells b t) (queue : TaskQueue) (call : QueueCall P V E) :
    (a.perform queue call s).2.Spells b t := by
  have different := (QueueNames.apart_iff a b).mp apart
  have spares (family : Family) (name : String) :=
    a.perform_spares (fun family' name' => (different family' name' family name).symm) queue call s
  refine ⟨(spares .queue "").1.trans spells.now, fun family name => ?_⟩
  exact (spares family name).2.trans (spells.keys family name)

/-! ## Many queues in one run -/

/-- Time passes, or an instance of one of the queues sends what a call needs. -/
inductive ServerRequest (ι P V E : Type)
  | wait (elapsed : Rat)
  | call (owner : ι) (queue : TaskQueue) (call : QueueCall P V E)

section Requests

variable {ι : Type}

def ServerRequest.concerns [DecidableEq ι] (i : ι) : ServerRequest ι P V E → Bool
  | .wait _ => true
  | .call owner _ _ => owner = i

def Server.respond (queues : ι → QueueNames) :
    ServerRequest ι P V E → Server P V E → Except QueueError (QueueReply P V E) × Server P V E
  | .wait elapsed, s => (.ok .done, s.advance elapsed)
  | .call owner queue call, s => (queues owner).perform queue call s

def TaskStore.respond :
    ServerRequest ι P V E → TaskStore P V E → Except QueueError (QueueReply P V E) × TaskStore P V E
  | .wait elapsed, t => (.ok .done, { t with now := t.now + elapsed })
  | .call _ queue call, t => ((.ok (t.perform queue call).1), (t.perform queue call).2)

def TaskStore.empty (now : Rat) : TaskStore P V E := ⟨now, fun _ => none, fun _ => [], fun _ => none⟩

theorem Server.spells_empty (names : QueueNames) (now : Rat) :
    (Server.empty now : Server P V E).Spells names (.empty now) := by
  refine ⟨rfl, fun family name => ?_⟩
  cases family <;> rfl

variable [DecidableEq ι]

theorem Server.Spells.replies {queues : ι → QueueNames} {i : ι}
    (apart : ∀ j, j ≠ i → (queues j).Apart (queues i)) (requests : List (ServerRequest ι P V E))
    {s : Server P V E} {t : TaskStore P V E} (spells : s.Spells (queues i) t) :
    repliesTo (ServerRequest.concerns i) (Server.respond queues) requests s =
        (replay TaskStore.respond (requests.filter (ServerRequest.concerns i)) t).1 ∧
      (replay (Server.respond queues) requests s).2.Spells (queues i)
        (replay TaskStore.respond (requests.filter (ServerRequest.concerns i)) t).2 := by
  refine replay_component (fun (s : Server P V E) t => s.Spells (queues i) t) ?_ ?_ requests spells
  · intro request s t mine spells
    cases request with
    | wait elapsed => exact ⟨rfl, congrArg (· + elapsed) spells.now, spells.keys⟩
    | call owner queue call =>
        obtain rfl : owner = i := of_decide_eq_true mine
        exact spells.perform queue call
  · intro request s t notMine spells
    cases request with
    | wait elapsed => cases notMine
    | call owner queue call =>
        exact spells.other (apart owner (of_decide_eq_false notMine)) queue call

end Requests

/-! ## Queues that share a key -/

def secondQueue : TaskQueue := ⟨1, by decide, 1, by decide⟩

/-- A call that leaves something under a key. -/
def QueueCall.leaving [Inhabited P] : Family → String → QueueCall P V E
  | .queue, name => .push ⟨"", name, default, 0, none, none, 0, 0, 100, false⟩
  | .listen, name => .setQueueListened name
  | .result, taskId => .setTask ⟨taskId, "", default, 0, none, none, 0, 0, 100, false⟩

/-- A call whose reply tells whether there is anything under a key. -/
def QueueCall.finding : Family → String → QueueCall P V E
  | .queue, name => .pop [name]
  | .listen, name => .isListened name
  | .result, taskId => .hasTask taskId

theorem Server.live_setex (s : Server P V E) (key : String) (text : Text P V E) :
    ((s.setex key 1 text).live key).isSome := by
  have later : s.now < s.now + (1 : Nat) := by simp
  have stored : (s.setex key 1 text).keys key = some (.string text (s.now + (1 : Nat))) :=
    Function.update_self ..
  have live : (s.setex key 1 text).live key = some (.string text (s.now + (1 : Nat))) := by
    rw [Server.live, stored]
    exact if_pos later
  rw [live, Option.isSome_some]

theorem QueueCall.leaves [Inhabited P] (names : QueueNames) (family : Family) (name : String)
    (now : Rat) : ((names.perform secondQueue (.leaving family name)
      (Server.empty now : Server P V E)).2.live (names.key family name)).isSome := by
  cases family with
  | queue =>
      simp only [leaving, QueueNames.perform, Server.rpush, Server.live, Server.empty, Server.put,
        QueueNames.key, Function.update_self, Option.isSome_some]
  | listen => exact Server.live_setex _ _ _
  | result => exact Server.live_setex _ _ _

theorem QueueCall.finds (names : QueueNames) (family : Family) (name : String) (now : Rat)
    {s : Server P V E} (found : (s.live (names.key family name)).isSome) :
    (names.perform secondQueue (.finding family name) s).1 ≠
      .ok ((TaskStore.empty now).perform secondQueue (.finding family name)).1 := by
  intro same
  cases family with
  | queue =>
      simp only [finding, QueueNames.perform, List.map_cons, Server.blpop] at same
      obtain ⟨value, live⟩ := Option.isSome_iff_exists.mp found
      rw [QueueNames.key] at live
      rw [live] at same
      cases value with
      | string text lapsesAt => cases same
      | list first rest => cases same
  | listen =>
      have there : s.has (names.queueListenName name) = true := found
      simp only [finding, QueueNames.perform, there] at same
      cases same
  | result =>
      have there : s.has (names.resultKey name) = true := found
      simp only [finding, QueueNames.perform, there] at same
      cases same

/-- From an empty Redis every queue gets the replies it would get alone, whatever the others send
in between, exactly if no two of them can share a key. -/
theorem queues_undisturbed_iff {ι : Type} [DecidableEq ι] [Inhabited P] (queues : ι → QueueNames) :
    (∀ i now (requests : List (ServerRequest ι P V E)),
      repliesTo (ServerRequest.concerns i) (Server.respond queues) requests (.empty now) =
        (replay TaskStore.respond (requests.filter (ServerRequest.concerns i)) (.empty now)).1) ↔
    ∀ i j, i ≠ j → (queues i).Apart (queues j) := by
  constructor
  · intro undisturbed i j different
    rw [QueueNames.apart_iff]
    intro family name family' name' shared
    have replies := undisturbed j 0
      [.call i secondQueue (.leaving family name), .call j secondQueue (.finding family' name')]
    have left := QueueCall.leaves (P := P) (V := V) (E := E) (queues i) family name 0
    rw [shared] at left
    have unseen : ServerRequest.concerns j (.call i secondQueue (.leaving family name) :
        ServerRequest ι P V E) = false := decide_eq_false different
    have seen : ServerRequest.concerns j (.call j secondQueue (.finding family' name') :
        ServerRequest ι P V E) = true := decide_eq_true rfl
    rw [repliesTo_cons, repliesTo_cons, unseen, seen, List.filter_cons_of_neg (by simp [unseen]),
      List.filter_cons_of_pos seen] at replies
    exact QueueCall.finds (queues j) family' name' 0 left (List.cons.inj replies).1
  · intro apart i now requests
    exact ((Server.spells_empty (queues i) now).replies (fun j => apart j i) requests).1

example : ¬ QueueNames.Apart ⟨"a", "b"⟩ ⟨"a|b", "task-queue"⟩ := fun apart =>
  (apart _ (.inr (.inl rfl))).1 (by decide)

end RedisAllocator

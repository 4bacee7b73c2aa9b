import RedisAllocator.Lib.WorkQueue
import RedisAllocator.TaskQueue.Delivery

/-!
# Clients, listeners and their queues

Any number of calls of `execute_task_remotely` and of `listen` on one Redis, which
take turns command by command.  Seen from the ids alone this is a set of work
queues with competing consumers.
-/

set_option autoImplicit false

namespace RedisAllocator

variable {W P V E : Type}

/-! ## A call of `execute_task_remotely` -/

inductive Phase (V E : Type)
  | stored
  | pushed
  | polling (deadline : Rat)
  | checking (deadline : Rat)
  | deleting (reply : Reply V E)
  | answered (reply : Reply V E)

structure Client (P V E : Type) where
  queue : TaskQueue
  task : RedisTask P V E
  timeout : Option Rat
  once : Bool
  phase : Phase V E

/-- The commands behind `SETEX`; time for the sleep passes between two of them. -/
def Client.next (client : Client P V E) (s : TaskStore P V E) :
    Option (TaskStore P V E × Phase V E) :=
  match client.phase with
  | .stored => some (s.rpush client.task.name client.task.id, .pushed)
  | .pushed => some (s, .polling (s.now + client.queue.waits client.timeout))
  | .polling deadline =>
    match s.reply? client.task.id with
    | some reply => some (s, if client.once then .deleting reply else .answered reply)
    | none => some (s, .checking deadline)
  | .checking deadline =>
    some (s, if deadline ≤ s.now then .answered .expires else .polling deadline)
  | .deleting reply => some (s.delete client.task.id, .answered reply)
  | .answered _ => none

/-! ## A call of `listen` -/

structure Listening where
  queue : TaskQueue
  names : List String

/-- `BLPOP`: the first id of the first queue that has one. -/
def TaskStore.blpop (s : TaskStore P V E) : List String → Option (String × TaskStore P V E)
  | [] => none
  | name :: names =>
    match s.queues name with
    | id :: rest => some (id, { s with queues := Function.update s.queues name rest })
    | [] => s.blpop names

def TaskQueue.setQueueListened (q : TaskQueue) (name : String) (s : TaskStore P V E) :
    TaskStore P V E :=
  { s with listens := Function.update s.listens name (some (s.now + q.timeout)) }

/-- One `execute_task_locally` of the executor; `get_task` may have brought it `None`. -/
structure Execution (W P V E : Type) where
  worker : W
  id : String
  task : Option (RedisTask P V E)
  outcome : Option (Except (TaskError E) (Option V))

def Execution.report (q : TaskQueue) (execution : Execution W P V E) (current total : Rat)
    (s : TaskStore P V E) : Execution W P V E × TaskStore P V E :=
  match execution.task with
  | some task =>
    let updated := (task.update q current total s).2
    ({ execution with task := some updated.1 }, updated.2)
  | none => (execution, s)

/-- The task function comes to an end; `None` can neither hold nor save the outcome. -/
def Execution.finish (q : TaskQueue) (execution : Execution W P V E)
    (outcome : Except (TaskError E) (Option V)) (s : TaskStore P V E) :
    Execution W P V E × TaskStore P V E :=
  match execution.task with
  | some task =>
    let saved := (task.withOutcome outcome).save q s
    ({ execution with task := some saved.1, outcome := some outcome }, saved.2)
  | none => ({ execution with outcome := some outcome }, s)

/-! ## All of them -/

/-- The calls by the ids they submit, and the executions by the threads they run in. -/
structure System (W P V E : Type) where
  store : TaskStore P V E
  clients : String → Option (Client P V E)
  popped : W → Option String
  executions : Nat → Option (Execution W P V E)

def System.empty (now : Rat) : System W P V E :=
  ⟨⟨now, fun _ => none, fun _ => [], fun _ => none⟩, fun _ => none, fun _ => none, fun _ => none⟩

inductive Command (W P V E : Type)
  | submit (task : RedisTask P V E)
  | client (id : String)
  | pop (worker : W)
  | fetch (worker : W) (thread : Nat)
  | report (thread : Nat)
  | finish (thread : Nat)
  | announce (worker : W)
  | wait

/-- One command on Redis.  No id is submitted twice, and no record lapses before the listener that
popped its id reads it. -/
inductive RouteStep [DecidableEq W] (listening : W → Listening) :
    System W P V E → Command W P V E → System W P V E → Prop
  | submit {s : System W P V E} (queue : TaskQueue) (task : RedisTask P V E)
      (timeout : Option Rat) (once : Bool) (clock : Rat) (unused : s.clients task.id = none) :
      RouteStep listening s (.submit task)
        { s with
          store := (queue.setTask { task with expiry := clock + queue.waits timeout } s.store).2
          clients := Function.update s.clients task.id
            (some ⟨queue, { task with expiry := clock + queue.waits timeout }, timeout, once,
              .stored⟩) }
  | client {s : System W P V E} {id : String} {client : Client P V E} {store : TaskStore P V E}
      {phase : Phase V E} (calling : s.clients id = some client)
      (next : client.next s.store = some (store, phase)) :
      RouteStep listening s (.client id)
        { s with
          store := store
          clients := Function.update s.clients id (some { client with phase := phase }) }
  | pop {s : System W P V E} {worker : W} {id : String} {store : TaskStore P V E}
      (idle : s.popped worker = none)
      (popped : s.store.blpop (listening worker).names = some (id, store)) :
      RouteStep listening s (.pop worker)
        { s with store := store, popped := Function.update s.popped worker (some id) }
  | fetch {s : System W P V E} {worker : W} {id : String} {thread : Nat}
      (holds : s.popped worker = some id) (unused : s.executions thread = none)
      (unlapsed : ∀ stored, s.store.results id = some stored → s.store.now < stored.lapsesAt) :
      RouteStep listening s (.fetch worker thread)
        { s with
          popped := Function.update s.popped worker none
          executions := Function.update s.executions thread
            (some ⟨worker, id, s.store.getTask id, none⟩) }
  | report {s : System W P V E} {thread : Nat} {execution : Execution W P V E}
      (working : s.executions thread = some execution) (unfinished : execution.outcome = none)
      (current total : Rat) :
      RouteStep listening s (.report thread)
        { s with
          store :=
            (execution.report (listening execution.worker).queue current total s.store).2
          executions := Function.update s.executions thread
            (some (execution.report (listening execution.worker).queue current total s.store).1) }
  | finish {s : System W P V E} {thread : Nat} {execution : Execution W P V E}
      (working : s.executions thread = some execution) (unfinished : execution.outcome = none)
      (outcome : Except (TaskError E) (Option V)) :
      RouteStep listening s (.finish thread)
        { s with
          store := (execution.finish (listening execution.worker).queue outcome s.store).2
          executions := Function.update s.executions thread
            (some (execution.finish (listening execution.worker).queue outcome s.store).1) }
  | announce {s : System W P V E} {worker : W} {name : String} (idle : s.popped worker = none)
      (listens : name ∈ (listening worker).names) :
      RouteStep listening s (.announce worker)
        { s with store := (listening worker).queue.setQueueListened name s.store }
  | wait {s : System W P V E} (elapsed : Rat) (forward : 0 ≤ elapsed) :
      RouteStep listening s .wait
        { s with store := { s.store with now := s.store.now + elapsed } }

/-- The task is submitted without an error or a result of its own. -/
def Command.Fresh : Command W P V E → Prop
  | .submit task => task.reply? = none
  | _ => True

/-! ## What the routing promises -/

def System.Produced (s : System W P V E) (id : String)
    (outcome : Except (TaskError E) (Option V)) : Prop :=
  ∃ thread execution, s.executions thread = some execution ∧ execution.id = id ∧
    execution.outcome = some outcome

/-- Each id runs at most once, from one listener's hands, for a listener on its queue and on the
submitted parameters, and a client is told what the execution of its id came to. -/
structure System.Routed (listening : W → Listening) (s : System W P V E) : Prop where
  once : ∀ thread thread' execution execution', s.executions thread = some execution →
    s.executions thread' = some execution' → execution.id = execution'.id → thread = thread'
  handed : ∀ worker id, s.popped worker = some id →
    (∀ worker', s.popped worker' = some id → worker' = worker) ∧
      (∀ thread execution, s.executions thread = some execution → execution.id ≠ id) ∧
      ∃ client, s.clients id = some client ∧ client.task.name ∈ (listening worker).names
  runs : ∀ thread execution, s.executions thread = some execution →
    ∃ client task, s.clients execution.id = some client ∧
      client.task.name ∈ (listening execution.worker).names ∧
      execution.task = some task ∧ task.id = execution.id ∧ task.params = client.task.params
  told : ∀ id client reply, s.clients id = some client → client.phase = .answered reply →
    reply ≠ .expires → ∃ outcome, s.Produced id outcome ∧ reply = Reply.of outcome

/-! ## The ids on their way -/

def Client.addressed (client : Client P V E) : Option String :=
  match client.phase with
  | .stored => none
  | _ => some client.task.name

def addresses (clients : String → Option (Client P V E)) (id : String) : Option String :=
  (clients id).bind Client.addressed

def Execution.started (execution : Execution W P V E) : W × String :=
  (execution.worker, execution.id)

def starts (executions : Nat → Option (Execution W P V E)) (thread : Nat) : Option (W × String) :=
  (executions thread).map Execution.started

theorem addresses_update (clients : String → Option (Client P V E)) (id : String)
    (client : Client P V E) : addresses (Function.update clients id (some client)) =
      Function.update (addresses clients) id client.addressed :=
  Function.comp_update (fun client : Option (Client P V E) => client.bind Client.addressed)
    clients id (some client)

theorem starts_update (executions : Nat → Option (Execution W P V E)) (thread : Nat)
    (execution : Execution W P V E) : starts (Function.update executions thread (some execution)) =
      Function.update (starts executions) thread (some execution.started) :=
  Function.comp_update (Option.map Execution.started) executions thread (some execution)

theorem starts_work {executions : Nat → Option (Execution W P V E)} {thread : Nat}
    {before after : Execution W P V E} (working : executions thread = some before)
    (worker : after.worker = before.worker) (id : after.id = before.id) :
    starts (Function.update executions thread (some after)) = starts executions := by
  rw [starts_update, Function.update_eq_self_iff, starts, working, Option.map_some,
    Execution.started, Execution.started, worker, id]

def System.desk (s : System W P V E) : WorkQueue.Desk String String W Nat :=
  ⟨addresses s.clients, s.store.queues, s.popped, starts s.executions⟩

def Listening.Serves (listening : W → Listening) (worker : W) (name : String) : Prop :=
  name ∈ (listening worker).names

theorem TaskStore.blpop_spec {s s' : TaskStore P V E} {names : List String} {id : String}
    (popped : s.blpop names = some (id, s')) : ∃ name ∈ names, ∃ rest,
      s.queues name = id :: rest ∧
        s' = { s with queues := Function.update s.queues name rest } := by
  induction names with
  | nil => cases popped
  | cons name names ih =>
      rw [TaskStore.blpop] at popped
      split at popped
      · cases popped
        exact ⟨name, List.mem_cons_self .., _, ‹_›, rfl⟩
      · obtain ⟨name', member, found⟩ := ih popped
        exact ⟨name', List.mem_cons_of_mem name member, found⟩

theorem Execution.report_spec (q : TaskQueue) (execution : Execution W P V E) (current total : Rat)
    (s : TaskStore P V E) :
    (execution.report q current total s).1.worker = execution.worker ∧
      (execution.report q current total s).1.id = execution.id ∧
      (execution.report q current total s).1.outcome = execution.outcome ∧
      (execution.report q current total s).2.queues = s.queues := by
  rw [Execution.report]
  split
  · exact ⟨rfl, rfl, rfl, RedisTask.queues_update ..⟩
  · exact ⟨rfl, rfl, rfl, rfl⟩

theorem Execution.finish_spec (q : TaskQueue) (execution : Execution W P V E)
    (outcome : Except (TaskError E) (Option V)) (s : TaskStore P V E) :
    (execution.finish q outcome s).1.worker = execution.worker ∧
      (execution.finish q outcome s).1.id = execution.id ∧
      (execution.finish q outcome s).1.outcome = some outcome ∧
      (execution.finish q outcome s).2.queues = s.queues := by
  rw [Execution.finish]
  split
  · exact ⟨rfl, rfl, rfl, RedisTask.queues_save ..⟩
  · exact ⟨rfl, rfl, rfl, rfl⟩

/-- A call pushes its id, deletes the record, or leaves Redis as it is and knows at most what it
has just read. -/
theorem Client.next_cases {client : Client P V E} {s s' : TaskStore P V E} {phase : Phase V E}
    (next : client.next s = some (s', phase)) :
    (client.phase = .stored ∧ s' = s.rpush client.task.name client.task.id ∧ phase = .pushed) ∨
      (∃ reply, client.phase = .deleting reply ∧ s' = s.delete client.task.id ∧
        phase = .answered reply) ∨
      client.phase ≠ .stored ∧ s' = s ∧
        ((∃ deadline, phase = .polling deadline ∨ phase = .checking deadline) ∨
          phase = .answered .expires ∨
          ∃ reply, s.reply? client.task.id = some reply ∧
            (client.once = true ∧ phase = .deleting reply ∨
              client.once = false ∧ phase = .answered reply)) := by
  rw [Client.next] at next
  split at next <;> rename_i current
  · cases next
    exact Or.inl ⟨current, rfl, rfl⟩
  · cases next
    exact Or.inr (Or.inr ⟨by simp [current], rfl, Or.inl ⟨_, Or.inl rfl⟩⟩)
  · split at next
    · rename_i reply found
      cases next
      refine Or.inr (Or.inr ⟨by simp [current], rfl, Or.inr (Or.inr ⟨reply, found, ?_⟩)⟩)
      cases once : client.once
      · exact Or.inr ⟨rfl, rfl⟩
      · exact Or.inl ⟨rfl, rfl⟩
    · cases next
      exact Or.inr (Or.inr ⟨by simp [current], rfl, Or.inl ⟨_, Or.inr rfl⟩⟩)
  · cases next
    refine Or.inr (Or.inr ⟨by simp [current], rfl, ?_⟩)
    split
    · exact Or.inr (Or.inl rfl)
    · exact Or.inl ⟨_, Or.inl rfl⟩
  · cases next
    exact Or.inr (Or.inl ⟨_, current, rfl, rfl⟩)
  · cases next

theorem Client.addressed_of_ne {client : Client P V E} (further : client.phase ≠ .stored) :
    client.addressed = some client.task.name := by
  rw [Client.addressed]
  split
  · exact absurd ‹_› further
  · rfl

theorem Client.next_addressed {client : Client P V E} {s s' : TaskStore P V E} {phase : Phase V E}
    (next : client.next s = some (s', phase)) :
    (client.phase = .stored ∧ s' = s.rpush client.task.name client.task.id ∧ phase = .pushed) ∨
      client.addressed = some client.task.name ∧
        ({ client with phase := phase } : Client P V E).addressed = some client.task.name ∧
        s'.queues = s.queues := by
  rcases client.next_cases next with push | ⟨reply, deleting, rfl, rfl⟩ | ⟨further, rfl, now⟩
  · exact Or.inl push
  · refine Or.inr ⟨Client.addressed_of_ne ?_, rfl, rfl⟩
    simp [deleting]
  · refine Or.inr ⟨Client.addressed_of_ne further, ?_, rfl⟩
    rcases now with ⟨deadline, rfl | rfl⟩ | rfl | ⟨reply, _, ⟨_, rfl⟩ | ⟨_, rfl⟩⟩ <;> rfl

theorem System.desk_idle [DecidableEq W] {listens : W → String → Prop} {s s' : System W P V E}
    (addressed : addresses s'.clients = addresses s.clients)
    (queues : s'.store.queues = s.store.queues) (popped : s'.popped = s.popped)
    (started : starts s'.executions = starts s.executions) :
    WorkQueue.Step listens s.desk s'.desk := by
  rw [System.desk, System.desk, addressed, queues, popped, started]
  exact .idle _

theorem System.desk_step [DecidableEq W] {listening : W → Listening} {s s' : System W P V E}
    {command : Command W P V E} (step : RouteStep listening s command s')
    (keyed : ∀ id client, s.clients id = some client → client.task.id = id) :
    WorkQueue.Step (Listening.Serves listening) s.desk s'.desk := by
  cases step with
  | submit queue task timeout once clock unused =>
      have unaddressed : addresses s.clients task.id = none := by
        rw [addresses, unused, Option.bind_none]
      refine System.desk_idle ?_ rfl rfl rfl
      rw [addresses_update, Function.update_eq_self_iff]
      exact unaddressed.symm
  | @client id client store phase calling next =>
      have current : addresses s.clients id = client.addressed := by
        rw [addresses, calling, Option.bind_some]
      rcases client.next_addressed next with ⟨isStored, rfl, rfl⟩ | ⟨before, after, queues⟩
      · have unaddressed : addresses s.clients id = none := by
          rw [current, Client.addressed, isStored]
        rw [System.desk, System.desk, addresses_update, keyed id client calling]
        exact .push unaddressed
      · refine System.desk_idle ?_ queues rfl rfl
        rw [addresses_update, Function.update_eq_self_iff, current, before, after]
  | @pop worker id store idle popped =>
      obtain ⟨name, listens, rest, front, rfl⟩ := TaskStore.blpop_spec popped
      exact .pop listens idle front
  | @fetch worker id thread holds unused unlapsed =>
      have started : starts s.executions thread = none := by
        rw [starts, unused, Option.map_none]
      rw [System.desk, System.desk, starts_update]
      exact .start holds started
  | @report thread execution working unfinished current total =>
      obtain ⟨worker, id, _, queues⟩ := execution.report_spec
        (listening execution.worker).queue current total s.store
      exact System.desk_idle rfl queues rfl (starts_work working worker id)
  | @finish thread execution working unfinished outcome =>
      obtain ⟨worker, id, _, queues⟩ := execution.finish_spec
        (listening execution.worker).queue outcome s.store
      exact System.desk_idle rfl queues rfl (starts_work working worker id)
  | announce idle listens => exact System.desk_idle rfl rfl rfl rfl
  | wait elapsed forward => exact System.desk_idle rfl rfl rfl rfl

end RedisAllocator

import Mathlib.Algebra.BigOperators.Group.Finset.Piecewise
import Mathlib.Algebra.Order.BigOperators.Group.Finset
import RedisAllocator.Lib.LabelledRun
import RedisAllocator.TaskQueue.Routing

/-!
# The loop of `listen`

What a listener does with an id it pops, and how its loop gets from one
registration to the next.  `get_task` may bring a task that has expired or
nothing at all, and the loop hands either on.  Registration and the look at the
event wait until the inner loop has found the queues empty for an interval.
-/

set_option autoImplicit false

namespace RedisAllocator

open LabelledRun

variable {P V E : Type}

/-! ## A popped id -/

/-- The arguments `task_fn` is called with for a popped id: `executor.submit` takes whatever
`get_task` brings. -/
def TaskStore.taskFnCalls (s : TaskStore P V E) (id : String) : List (Option (RedisTask P V E)) :=
  [s.getTask id]

def TaskStore.Later (id : String) (s s' : TaskStore P V E) : Prop :=
  s.now ≤ s'.now ∧ s'.results id = s.results id

structure InFlight (P V E : Type) where
  store : TaskStore P V E
  client : Client P V E

inductive Beside
  | others
  | caller

inductive BesideStep : InFlight P V E → Beside → InFlight P V E → Prop
  | others {store store' : TaskStore P V E} {client : Client P V E}
      (later : store.Later client.task.id store') :
      BesideStep ⟨store, client⟩ .others ⟨store', client⟩
  | caller {store store' : TaskStore P V E} {client : Client P V E} {phase : Phase V E}
      (next : client.next store = some (store', phase)) :
      BesideStep ⟨store, client⟩ .caller ⟨store', { client with phase := phase }⟩

def TaskQueue.expiring (q : TaskQueue) (task : RedisTask P V E) (timeout : Option Rat)
    (clock : Rat) : RedisTask P V E := { task with expiry := clock + q.waits timeout }

structure Handover (P V E : Type) where
  q : TaskQueue
  task : RedisTask P V E
  timeout : Option Rat
  once : Bool
  clock : Rat
  atStore : TaskStore P V E
  names : List String
  beforePop : List Beside
  atPop : InFlight P V E
  popped : TaskStore P V E
  beforeFetch : List Beside
  atFetch : InFlight P V E
  stores : clock ≤ atStore.now
  waits : Run BesideStep ⟨(q.setTask (q.expiring task timeout clock) atStore).2,
    q, q.expiring task timeout clock, timeout, once, .stored⟩ beforePop atPop
  pops : atPop.store.blpop names = some (task.id, popped)
  fetches : Run BesideStep ⟨popped, atPop.client⟩ beforeFetch atFetch

/-- The call has its answer, and with `once` has deleted the record. -/
def Client.Cleared (client : Client P V E) : Prop :=
  client.once = true ∧ ∃ reply, reply ≠ .expires ∧ client.phase = .answered reply

/-- The record is the submitted one until the call deletes it; an answer of the call is what the
submitted task already had. -/
structure InFlight.Intact (sent : RedisTask P V E) (once : Bool) (lapsesAt : Rat)
    (s : InFlight P V E) : Prop where
  task : s.client.task = sent
  sameOnce : s.client.once = once
  kept : ¬ s.client.Cleared → s.store.results sent.id = some ⟨sent.pickle, lapsesAt⟩
  cleared : s.client.Cleared → s.store.results sent.id = none
  deleting : ∀ reply, s.client.phase = .deleting reply →
    s.client.once = true ∧ reply ≠ .expires ∧ sent.reply? = some reply
  answered : ∀ reply, s.client.phase = .answered reply →
    reply = .expires ∨ sent.reply? = some reply

theorem Client.next_answered {client : Client P V E} {reply : Reply V E} (s : TaskStore P V E)
    (answered : client.phase = .answered reply) : client.next s = none := by
  rw [Client.next, answered]

theorem RedisTask.reply?_of_results {sent : RedisTask P V E} {s : TaskStore P V E}
    {lapsesAt : Rat} {reply : Reply V E}
    (present : s.results sent.id = some ⟨sent.pickle, lapsesAt⟩)
    (found : s.reply? sent.id = some reply) : sent.reply? = some reply := by
  rw [TaskStore.reply?, TaskStore.getTask_of_results present] at found
  split at found
  · exact found
  · cases found

theorem InFlight.Intact.of_unanswered {sent : RedisTask P V E} {once : Bool} {lapsesAt : Rat}
    {s : InFlight P V E} (task : s.client.task = sent) (sameOnce : s.client.once = once)
    (present : s.store.results sent.id = some ⟨sent.pickle, lapsesAt⟩)
    (undecided : ∀ reply, s.client.phase ≠ .deleting reply ∧ s.client.phase ≠ .answered reply) :
    s.Intact sent once lapsesAt where
  task := task
  sameOnce := sameOnce
  kept := fun _ => present
  cleared := fun ⟨_, reply, _, phase⟩ => absurd phase (undecided reply).2
  deleting := fun reply phase => absurd phase (undecided reply).1
  answered := fun reply phase => absurd phase (undecided reply).2

theorem InFlight.Intact.step {sent : RedisTask P V E} {once : Bool} {lapsesAt : Rat}
    {s s' : InFlight P V E} {beside : Beside} (step : BesideStep s beside s')
    (intact : s.Intact sent once lapsesAt) : s'.Intact sent once lapsesAt := by
  obtain ⟨rfl, rfl, kept, cleared, deleting, answered⟩ := intact
  cases step with
  | others later =>
      exact ⟨rfl, rfl, fun uncleared => later.2.trans (kept uncleared),
        fun isCleared => later.2.trans (cleared isCleared), deleting, answered⟩
  | @caller store _ client phase next =>
      have uncleared : ¬ client.Cleared := by
        rintro ⟨_, reply, _, answered⟩
        cases (client.next_answered store answered).symm.trans next
      have present := kept uncleared
      -- the push, the `DEL`, and what leaves Redis alone
      rcases client.next_cases next with ⟨_, rfl, rfl⟩ | ⟨reply, before, rfl, rfl⟩ | ⟨_, rfl, now⟩
      · exact of_unanswered rfl rfl present fun _ => ⟨nofun, nofun⟩
      · obtain ⟨once, answers, own⟩ := deleting reply before
        refine ⟨rfl, rfl, fun kept => absurd ⟨once, reply, answers, rfl⟩ kept,
          fun _ => Function.update_self .., fun _ phase => (nomatch phase), fun _ phase => ?_⟩
        cases phase
        exact Or.inr own
      · rcases now with ⟨deadline, rfl | rfl⟩ | rfl | ⟨reply, found, now⟩
        · exact of_unanswered rfl rfl present fun _ => ⟨nofun, nofun⟩
        · exact of_unanswered rfl rfl present fun _ => ⟨nofun, nofun⟩
        · refine ⟨rfl, rfl, fun _ => present, fun ⟨_, reply, answers, phase⟩ => ?_,
            fun _ phase => (nomatch phase), fun _ phase => ?_⟩
          · cases phase
            exact absurd rfl answers
          · cases phase
            exact Or.inl rfl
        · have own := RedisTask.reply?_of_results present found
          have answers : reply ≠ .expires := by
            rintro rfl
            exact RedisTask.reply?_ne_expires _ own
          rcases now with ⟨once, rfl⟩ | ⟨unset, rfl⟩
          · refine ⟨rfl, rfl, fun _ => present, fun ⟨_, _, _, phase⟩ => (nomatch phase),
              fun _ phase => ?_, fun _ phase => (nomatch phase)⟩
            cases phase
            exact ⟨once, answers, own⟩
          · refine ⟨rfl, rfl, fun _ => present, fun ⟨once, _⟩ => ?_, fun _ phase => (nomatch phase),
              fun _ phase => ?_⟩
            · cases unset.symm.trans once
            · cases phase
              exact Or.inr own

theorem InFlight.Intact.run {sent : RedisTask P V E} {once : Bool} {lapsesAt : Rat}
    {s s' : InFlight P V E} {moments : List Beside} (run : Run BesideStep s moments s')
    (intact : s.Intact sent once lapsesAt) : s'.Intact sent once lapsesAt :=
  run.invariant (fun s => s.Intact sent once lapsesAt) (fun _ => True)
    (fun _ _ _ intact _ step => intact.step step) intact fun _ _ => trivial

namespace Handover

variable (handover : Handover P V E)

def sent : RedisTask P V E :=
  handover.q.expiring handover.task handover.timeout handover.clock

def calls : List (Option (RedisTask P V E)) :=
  handover.atFetch.store.taskFnCalls handover.task.id

def ExecutesUntilExpiry : Prop :=
  (handover.atPop.store.now < handover.sent.expiry →
    handover.calls = [some { handover.sent with saves := true }]) ∧
  (handover.sent.expiry < handover.atPop.store.now → handover.calls = [])

variable {handover}

theorem intact_atFetch : handover.atFetch.Intact handover.sent handover.once
    (handover.atStore.now + handover.q.timeout) := by
  have stored : InFlight.Intact handover.sent handover.once
      (handover.atStore.now + handover.q.timeout)
      ⟨(handover.q.setTask handover.sent handover.atStore).2, handover.q, handover.sent,
        handover.timeout, handover.once, .stored⟩ :=
    .of_unanswered rfl rfl (handover.q.results_setTask handover.sent handover.atStore rfl)
      fun _ => ⟨nofun, nofun⟩
  obtain ⟨task, once, kept, cleared, deleting, answered⟩ := stored.run handover.waits
  obtain ⟨name, _, rest, _, popped⟩ := TaskStore.blpop_spec handover.pops
  have taken : InFlight.Intact handover.sent handover.once
      (handover.atStore.now + handover.q.timeout) ⟨handover.popped, handover.atPop.client⟩ := by
    rw [popped]
    exact ⟨task, once, kept, cleared, deleting, answered⟩
  exact taken.run handover.fetches

theorem calls_kept (uncleared : ¬ handover.atFetch.client.Cleared) : handover.calls =
    [if handover.atFetch.store.now < handover.atStore.now + handover.q.timeout then
      some { handover.sent with saves := true } else none] := by
  have present := intact_atFetch.kept uncleared
  exact congrArg (fun task => [task]) (TaskStore.getTask_of_results present)

theorem calls_cleared (isCleared : handover.atFetch.client.Cleared) : handover.calls = [none] := by
  have nothing : handover.atFetch.store.results handover.task.id = none :=
    intact_atFetch.cleared isCleared
  rw [calls, TaskStore.taskFnCalls, TaskStore.getTask, TaskStore.get, nothing]
  rfl

end Handover

/-- A popped task is run exactly until it expires, if it is popped no later and, where it is popped
before, its record is read before it has lapsed and before the call has deleted it, as it may where
the task was submitted with an error or a result. -/
theorem handover_executesUntilExpiry_iff (handover : Handover P V E) :
    (handover.ExecutesUntilExpiry ↔
      handover.atPop.store.now ≤ handover.sent.expiry ∧
        (handover.atPop.store.now < handover.sent.expiry →
          handover.atFetch.store.now < handover.atStore.now + handover.q.timeout ∧
            ¬ handover.atFetch.client.Cleared)) ∧
    (handover.atFetch.client.Cleared → handover.once = true ∧ handover.task.reply? ≠ none) := by
  constructor
  · rw [Handover.ExecutesUntilExpiry, and_comm, ← not_lt]
    by_cases isCleared : handover.atFetch.client.Cleared
    · simp [Handover.calls_cleared isCleared, isCleared]
    · simp [Handover.calls_kept isCleared, isCleared]
  · rintro ⟨once, reply, answers, phase⟩
    have own := (Handover.intact_atFetch.answered reply phase).resolve_left answers
    have shows : handover.task.reply? = some reply := own
    exact ⟨Handover.intact_atFetch.sameOnce.symm.trans once, shows ▸ Option.some_ne_none reply⟩

def sentStore : TaskStore Unit Nat Unit :=
  (sampleQueue.setTask (sampleQueue.expiring sampleTask (some 600) 0) sampleTaskStore).2

def sentClient : Client Unit Nat Unit :=
  ⟨sampleQueue, sampleQueue.expiring sampleTask (some 600) 0, some 600, false, .stored⟩

def lapsedHandover : Handover Unit Nat Unit where
  q := sampleQueue
  task := sampleTask
  timeout := some 600
  once := false
  clock := 0
  atStore := sampleTaskStore
  names := ["name"]
  beforePop := [.caller, .others]
  atPop := ⟨{ sentStore.rpush "name" "id" with now := 400 }, { sentClient with phase := .pushed }⟩
  popped := { sentStore with
    now := 400, queues := Function.update (sentStore.rpush "name" "id").queues "name" [] }
  beforeFetch := []
  atFetch := ⟨{ sentStore with
      now := 400, queues := Function.update (sentStore.rpush "name" "id").queues "name" [] },
    { sentClient with phase := .pushed }⟩
  stores := le_rfl
  waits := by
    refine .fire (.caller rfl) (.fire (.others ?_) (.done _))
    exact ⟨by decide +kernel, rfl⟩
  pops := rfl
  fetches := .done _

/-- The task function gets `None` for a task that has 200 seconds left. -/
theorem lapsed_called_with_nothing :
    lapsedHandover.atPop.store.now < lapsedHandover.sent.expiry ∧
      lapsedHandover.calls = [none] ∧ ¬ lapsedHandover.ExecutesUntilExpiry := by
  have early : lapsedHandover.atPop.store.now < lapsedHandover.sent.expiry := by decide +kernel
  have uncleared : ¬ lapsedHandover.atFetch.client.Cleared := fun ⟨once, _⟩ => nomatch once
  have nothing : lapsedHandover.calls = [none] := by
    rw [Handover.calls_kept uncleared, if_neg (by decide +kernel)]
  refine ⟨early, nothing, fun executes => ?_⟩
  cases nothing.symm.trans (executes.1 early)

/-! ## The loop -/

/-- Before the look at the event, in a `BLPOP` since some instant, asleep, or returned. -/
inductive ListenPhase
  | checking
  | polling (since : Rat)
  | sleeping (wakesAt : Rat)
  | stopped

/-- A call of `listen`: what it has handed to the executor, when it last registered, and how many
`BLPOP` returned an id since the event is set. -/
structure Attending (P V E : Type) where
  store : TaskStore P V E
  phase : ListenPhase
  event : Bool
  submitted : List (Option (RedisTask P V E))
  registeredAt : Option Rat
  takenSince : Nat

def Attending.started (store : TaskStore P V E) (event : Bool) : Attending P V E :=
  ⟨store, .checking, event, [], none, 0⟩

inductive ListenAction (P V E : Type)
  | pass (elapsed : Rat)
  | push (name id : String)
  /-- whatever else clients and other listeners do: they push nothing -/
  | others (store : TaskStore P V E)
  /-- `event.set()` -/
  | stop
  | check
  | take
  | register
  | wake

structure ListenEvent (P V E : Type) where
  before : Attending P V E
  action : ListenAction P V E

def Listening.registers (listening : Listening) (s : TaskStore P V E) : TaskStore P V E :=
  listening.names.foldl (fun s name => listening.queue.setQueueListened name s) s

def Listening.waiting (listening : Listening) (s : TaskStore P V E) : Nat :=
  ∑ name ∈ listening.names.toFinset, (s.queues name).length

namespace ListenPhase

/-- The phase lasts until `instant`: a `BLPOP` as long as it finds nothing and the interval is not
over, which for an interval of zero is never, and a sleep its interval. -/
def MayLast (listening : Listening) (s : TaskStore P V E) (instant : Rat) : ListenPhase → Prop
  | .checking => False
  | .polling since => s.blpop listening.names = none ∧
      (0 < listening.queue.interval → instant ≤ since + listening.queue.interval)
  | .sleeping wakesAt => instant ≤ wakesAt
  | .stopped => True

end ListenPhase

/-- The commands themselves take no time: it passes in a `BLPOP` that waits and in `time.sleep`. -/
inductive ListenAct (listening : Listening) :
    Attending P V E → ListenAction P V E → Attending P V E → Prop
  | pass {s : Attending P V E} (elapsed : Rat) (forward : 0 ≤ elapsed)
      (lasts : s.phase.MayLast listening s.store (s.store.now + elapsed)) :
      ListenAct listening s (.pass elapsed)
        { s with store := { s.store with now := s.store.now + elapsed } }
  | push {s : Attending P V E} (name id : String) :
      ListenAct listening s (.push name id) { s with store := s.store.rpush name id }
  | others {s : Attending P V E} (store : TaskStore P V E) (sameClock : store.now = s.store.now)
      (shorter : ∀ name, (store.queues name).length ≤ (s.store.queues name).length) :
      ListenAct listening s (.others store) { s with store := store }
  | stop {s : Attending P V E} (unset : s.event = false) :
      ListenAct listening s .stop { s with event := true, takenSince := 0 }
  | check {s : Attending P V E} (checking : s.phase = .checking) :
      ListenAct listening s .check
        { s with phase := if s.event then .stopped else .polling s.store.now }
  | take {s : Attending P V E} {since : Rat} {id : String} {store : TaskStore P V E}
      (polling : s.phase = .polling since)
      (popped : s.store.blpop listening.names = some (id, store)) :
      ListenAct listening s .take
        { s with
          store := store
          phase := .polling store.now
          submitted := s.submitted ++ store.taskFnCalls id
          takenSince := if s.event then s.takenSince + 1 else s.takenSince }
  | register {s : Attending P V E} {since : Rat} (polling : s.phase = .polling since)
      (empty : s.store.blpop listening.names = none) (limited : 0 < listening.queue.interval)
      (waited : s.store.now = since + listening.queue.interval) :
      ListenAct listening s .register
        { s with
          store := listening.registers s.store
          phase := .sleeping (s.store.now + listening.queue.interval)
          registeredAt := some s.store.now }
  | wake {s : Attending P V E} (sleeping : s.phase = .sleeping s.store.now) :
      ListenAct listening s .wake { s with phase := .checking }

def ListenStep (listening : Listening) (s : Attending P V E) (event : ListenEvent P V E)
    (s' : Attending P V E) : Prop :=
  event.before = s ∧ ListenAct listening s event.action s'

abbrev ListenRun (listening : Listening) :
    Attending P V E → List (ListenEvent P V E) → Attending P V E → Prop :=
  Run (ListenStep listening)

theorem ListenRun.act {listening : Listening} {s s' final : Attending P V E}
    {action : ListenAction P V E} {events : List (ListenEvent P V E)}
    (act : ListenAct listening s action s') (rest : ListenRun listening s' events final) :
    ListenRun listening s (⟨s, action⟩ :: events) final := .fire ⟨rfl, act⟩ rest

/-! ## Presence and stop -/

namespace Attending

variable (listening : Listening) (s : Attending P V E)

/-- From the first registration until the loop ends, `Auto` finds a listener on each queue. -/
def Present : Prop :=
  s.phase ≠ .stopped → s.registeredAt ≠ none → ∀ name ∈ listening.names, s.store.listened name

def StopsSoon : Prop := s.takenSince ≤ 1

end Attending

/-- An id is taken early enough for a whole interval before the registration lapses, and no other
listener makes a registration lapse earlier; when the event is set in the inner loop at most one id
waits; and from then on none is pushed as long as the inner loop lasts, but for a first one if none
waited. -/
def ListenEvent.Calm (listening : Listening) (event : ListenEvent P V E) : Prop :=
  match event.action with
  | .take => ∀ registered, event.before.registeredAt = some registered →
      event.before.store.now < registered + listening.queue.timeout - listening.queue.interval
  | .stop => ∀ since, event.before.phase = .polling since →
      listening.waiting event.before.store ≤ 1
  | .push name _ => event.before.event = true → name ∈ listening.names →
      ∀ since, event.before.phase = .polling since →
        listening.waiting event.before.store + event.before.takenSince = 0
  | .others store => ∀ name ∈ listening.names, ∀ lapsesAt,
      event.before.store.listens name = some lapsesAt →
        ∃ later, lapsesAt ≤ later ∧ store.listens name = some later
  | _ => True

/-! ### What the commands do -/

theorem Listening.registers_spec (listening : Listening) (s : TaskStore P V E) :
    (listening.registers s).now = s.now ∧ (listening.registers s).queues = s.queues ∧
      ∀ name ∈ listening.names,
        (listening.registers s).listens name = some (s.now + listening.queue.timeout) := by
  have each : ∀ (names : List String) (s : TaskStore P V E),
      let s' := names.foldl (fun s name => listening.queue.setQueueListened name s) s
      s'.now = s.now ∧ s'.queues = s.queues ∧ ∀ name,
        (name ∈ names → s'.listens name = some (s.now + listening.queue.timeout)) ∧
        (name ∉ names → s'.listens name = s.listens name) := by
    intro names
    induction names with
    | nil =>
        intro s
        refine ⟨rfl, rfl, fun name => ⟨fun isMember => ?_, fun _ => rfl⟩⟩
        cases isMember
    | cons first rest ih =>
        intro s
        obtain ⟨now, queues, listens⟩ := ih (listening.queue.setQueueListened first s)
        refine ⟨now, queues, fun name => ⟨fun isMember => ?_, fun other => ?_⟩⟩
        · by_cases again : name ∈ rest
          · exact (listens name).1 again
          · obtain rfl := (List.mem_cons.mp isMember).resolve_right again
            exact ((listens name).2 again).trans (Function.update_self ..)
        · rw [List.mem_cons, not_or] at other
          exact ((listens name).2 other.2).trans (Function.update_of_ne other.1 ..)
  obtain ⟨now, queues, listens⟩ := each listening.names s
  exact ⟨now, queues, fun name isMember => (listens name).1 isMember⟩

theorem Listening.waiting_update (listening : Listening) (s : TaskStore P V E) (name : String)
    (ids : List String) :
    listening.waiting { s with queues := Function.update s.queues name ids } +
        (if name ∈ listening.names then (s.queues name).length else 0) =
      listening.waiting s + if name ∈ listening.names then ids.length else 0 := by
  have lengths : (fun other => (Function.update s.queues name ids other).length) =
      Function.update (fun other => (s.queues other).length) name ids.length :=
    Function.comp_update List.length s.queues name ids
  rw [waiting, waiting, lengths]
  by_cases listens : name ∈ listening.names
  · have isMember : name ∈ listening.names.toFinset := List.mem_toFinset.mpr listens
    rw [Finset.sum_update_of_mem isMember, Finset.sum_eq_sum_sdiff_singleton_add isMember
      fun other => (s.queues other).length, if_pos listens, if_pos listens]
    omega
  · rw [Finset.sum_update_of_notMem fun isMember => listens (List.mem_toFinset.mp isMember),
      if_neg listens, if_neg listens]

theorem Listening.waiting_rpush (listening : Listening) (s : TaskStore P V E)
    (name id : String) : listening.waiting (s.rpush name id) =
      listening.waiting s + if name ∈ listening.names then 1 else 0 := by
  have pushed := listening.waiting_update s name (s.queues name ++ [id])
  rw [List.length_append, List.length_singleton] at pushed
  rw [TaskStore.rpush]
  split at pushed <;> rename_i listens
  · rw [if_pos listens]
    omega
  · rw [if_neg listens]
    exact pushed

theorem Listening.waiting_blpop (listening : Listening) {s s' : TaskStore P V E} {id : String}
    (popped : s.blpop listening.names = some (id, s')) :
    listening.waiting s' + 1 = listening.waiting s := by
  obtain ⟨name, listens, rest, front, rfl⟩ := TaskStore.blpop_spec popped
  have taken := listening.waiting_update s name rest
  rw [if_pos listens, if_pos listens, front, List.length_cons] at taken
  omega

/-! ### The invariant -/

def ListenPhase.InTime (listening : Listening) (registered now : Rat) : ListenPhase → Prop
  | .checking => now ≤ registered + listening.queue.interval
  | .polling since => now ≤ since + listening.queue.interval ∧
      since + listening.queue.interval < registered + listening.queue.timeout
  | .sleeping wakesAt => now ≤ wakesAt ∧ wakesAt = registered + listening.queue.interval
  | .stopped => True

structure Attending.Orderly (listening : Listening) (s : Attending P V E) : Prop where
  limited : s.registeredAt ≠ none → 0 < listening.queue.interval
  listened : ∀ registered, s.registeredAt = some registered → ∀ name ∈ listening.names,
    ∃ lapsesAt, registered + listening.queue.timeout ≤ lapsesAt ∧
      s.store.listens name = some lapsesAt
  inTime : ∀ registered, s.registeredAt = some registered →
    s.phase.InTime listening registered s.store.now
  unset : s.event = false → s.takenSince = 0
  taken : s.takenSince ≤ 1
  left : s.event = true → ∀ since, s.phase = .polling since →
    listening.waiting s.store + s.takenSince ≤ 1

namespace Attending.Orderly

variable {listening : Listening} {s s' : Attending P V E}

theorem present (orderly : s.Orderly listening)
    (short : 2 * listening.queue.interval < listening.queue.timeout) : s.Present listening := by
  intro running registeredBefore name listens
  obtain ⟨registered, isRegistered⟩ := Option.ne_none_iff_exists'.mp registeredBefore
  obtain ⟨lapsesAt, late, found⟩ := orderly.listened registered isRegistered name listens
  have inTime := orderly.inTime registered isRegistered
  have nonneg := listening.queue.interval_nonneg
  have early : s.store.now < registered + listening.queue.timeout := by
    cases phase : s.phase with
    | checking =>
        rw [phase] at inTime
        simp only [ListenPhase.InTime] at inTime
        linarith
    | polling since =>
        rw [phase] at inTime
        exact inTime.1.trans_lt inTime.2
    | sleeping wakesAt =>
        rw [phase] at inTime
        obtain ⟨before, rfl⟩ := inTime
        linarith
    | stopped => exact absurd phase running
  simp only [TaskStore.listened, found, decide_eq_true_eq]
  linarith

theorem started (store : TaskStore P V E) (event : Bool) :
    (Attending.started store event).Orderly listening where
  limited := fun registered => absurd rfl registered
  listened := fun _ registered => by cases registered
  inTime := fun _ registered => by cases registered
  unset := fun _ => rfl
  taken := Nat.zero_le 1
  left := fun _ _ polling => by cases polling

theorem step {action : ListenAction P V E} (orderly : s.Orderly listening)
    (short : 2 * listening.queue.interval < listening.queue.timeout)
    (calm : (ListenEvent.mk s action).Calm listening)
    (act : ListenAct listening s action s') : s'.Orderly listening := by
  cases act with
  | pass elapsed forward lasts =>
      refine { orderly with inTime := fun registered isRegistered => ?_ }
      have inTime := orderly.inTime registered isRegistered
      have limited := orderly.limited fun never => by cases never.symm.trans isRegistered
      dsimp only
      cases phase : s.phase with
      | checking =>
          rw [phase] at lasts
          exact lasts.elim
      | polling since =>
          rw [phase] at lasts inTime
          exact ⟨lasts.2 limited, inTime.2⟩
      | sleeping wakesAt =>
          rw [phase] at lasts inTime
          exact ⟨lasts, inTime.2⟩
      | stopped => trivial
  | push name id =>
      refine { orderly with left := fun set since polling => ?_ }
      have waiting := listening.waiting_rpush s.store name id
      split at waiting <;> rename_i listens
      · have none := calm set listens since polling
        dsimp only at none ⊢
        omega
      · have before := orderly.left set since polling
        dsimp only at before ⊢
        omega
  | others store sameClock shorter =>
      refine { orderly with
        listened := fun registered isRegistered name listens => ?_
        inTime := fun registered isRegistered => ?_
        left := fun set since polling => ?_ }
      · obtain ⟨lapsesAt, late, found⟩ := orderly.listened registered isRegistered name listens
        obtain ⟨later, longer, found'⟩ := calm name listens lapsesAt found
        exact ⟨later, late.trans longer, found'⟩
      · rw [sameClock]
        exact orderly.inTime registered isRegistered
      · have fewer : listening.waiting store ≤ listening.waiting s.store :=
          Finset.sum_le_sum fun name _ => shorter name
        have before := orderly.left set since polling
        dsimp only
        omega
  | stop unset =>
      refine { orderly with
        unset := fun set => by cases set
        taken := Nat.zero_le 1
        left := fun _ since polling => ?_ }
      exact calm since polling
  | check checking =>
      have unsetEvent : s.event = true ∨ s.event = false := by cases s.event <;> simp
      rcases unsetEvent with set | unset
      · rw [if_pos set]
        exact { orderly with
          inTime := fun _ _ => trivial
          left := fun _ _ polling => by cases polling }
      · rw [if_neg (by simp [unset])]
        refine { orderly with
          inTime := fun registered isRegistered => ?_
          left := fun set => by cases unset.symm.trans set }
        have inTime := orderly.inTime registered isRegistered
        rw [checking] at inTime
        simp only [ListenPhase.InTime] at inTime ⊢
        have nonneg := listening.queue.interval_nonneg
        constructor <;> linarith
  | @take since id store polling popped =>
      obtain ⟨name, _, rest, _, rfl⟩ := TaskStore.blpop_spec popped
      have fewer := listening.waiting_blpop popped
      refine { orderly with
        inTime := fun registered isRegistered => ⟨?_, ?_⟩
        unset := fun unset => ?_
        taken := ?_
        left := fun set since' _ => ?_ }
      · have nonneg := listening.queue.interval_nonneg
        dsimp only
        linarith
      · have early := calm registered isRegistered
        dsimp only at early ⊢
        linarith
      · rw [unset]
        exact orderly.unset unset
      · dsimp only
        split
        · have left := orderly.left ‹_› since polling
          omega
        · exact orderly.taken
      · have left := orderly.left set since polling
        dsimp only at set ⊢
        rw [if_pos set]
        omega
  | register polling empty limited waited =>
      obtain ⟨now, queues, listens⟩ := listening.registers_spec s.store
      refine { orderly with
        limited := fun _ => limited
        listened := fun registered isRegistered name isListened => ?_
        inTime := fun registered isRegistered => ?_
        left := fun _ _ polling => by cases polling }
      · cases isRegistered
        exact ⟨_, le_rfl, listens name isListened⟩
      · cases isRegistered
        refine ⟨?_, rfl⟩
        dsimp only
        rw [now]
        linarith
  | wake sleeping =>
      refine { orderly with
        inTime := fun registered isRegistered => ?_
        left := fun _ _ polling => by cases polling }
      have inTime := orderly.inTime registered isRegistered
      rw [sleeping] at inTime
      exact inTime.2.le

end Attending.Orderly

/-- In a run of `listen` whose steps are calm the listener stays present, and takes at most one id
after its event is set. -/
theorem listen_present_until_stopped {listening : Listening}
    (short : 2 * listening.queue.interval < listening.queue.timeout) {store : TaskStore P V E}
    {event : Bool} {events : List (ListenEvent P V E)} {final : Attending P V E}
    (run : ListenRun listening (Attending.started store event) events final)
    (calm : ∀ e ∈ events, e.Calm listening) :
    final.Present listening ∧ final.StopsSoon := by
  have orderly : final.Orderly listening :=
    run.invariant (fun s => s.Orderly listening) (fun e => e.Calm listening)
      (fun s e s' orderly calm ⟨same, act⟩ => by
        subst same
        exact orderly.step short calm act)
      (Attending.Orderly.started store event) calm
  exact ⟨orderly.present short, orderly.taken⟩

def tightListening : Listening := ⟨⟨11, by decide, 5, by decide +kernel⟩, ["name"]⟩

def registeredOnce : Attending Unit Nat Unit :=
  { Attending.started sampleTaskStore false with
    store := tightListening.registers { sampleTaskStore with now := 0 + 5 }
    phase := .sleeping (0 + 5 + 5)
    registeredAt := some (0 + 5) }

def idleEvents : List (ListenEvent Unit Nat Unit) :=
  let polling : Attending Unit Nat Unit :=
    { Attending.started sampleTaskStore false with phase := .polling 0 }
  [⟨Attending.started sampleTaskStore false, .check⟩, ⟨polling, .pass 5⟩,
    ⟨{ polling with store := { sampleTaskStore with now := 0 + 5 } }, .register⟩]

theorem idle_run :
    ListenRun tightListening (Attending.started sampleTaskStore false) idleEvents registeredOnce := by
  refine .act (.check rfl) (.act (.pass 5 (by decide +kernel) ⟨rfl, fun _ => le_rfl⟩) ?_)
  exact .act (.register rfl rfl (by decide +kernel) rfl) (.done _)

theorem listen_present_until_stopped_idle :
    registeredOnce.Present tightListening ∧ registeredOnce.StopsSoon :=
  listen_present_until_stopped (by decide +kernel) idle_run (by
    rintro e isEvent
    simp only [idleEvents, List.mem_cons, List.not_mem_nil, or_false] at isEvent
    rcases isEvent with rfl | rfl | rfl <;> trivial)

/-- After its first registration and one sleep the listener polls for four seconds, two ids come
and the event is set: it takes both, and four seconds later it is still waiting, with its
registration lapsed. -/
theorem busy_listener_lapses : ∃ events final,
    ListenRun tightListening (Attending.started sampleTaskStore false) events final ∧
      2 * tightListening.queue.interval < tightListening.queue.timeout ∧
      ¬ final.Present tightListening ∧ ¬ final.StopsSoon := by
  have waits : (0 : Rat) ≤ 5 ∧ (0 : Rat) < 5 ∧ (0 : Rat) ≤ 4 ∧ (0 : Rat) + 5 + 5 + 4 ≤ 0 + 5 + 5 + 5 ∧
      (0 : Rat) + 5 + 5 + 4 + 4 ≤ 0 + 5 + 5 + 4 + 5 := by decide +kernel
  refine ⟨_, _, .act (.check rfl) <| .act (.pass 5 waits.1 ⟨rfl, fun _ => le_rfl⟩) <|
    .act (.register rfl rfl waits.2.1 rfl) <| .act (.pass 5 waits.1 le_rfl) <|
    .act (.wake rfl) <| .act (.check rfl) <|
    .act (.pass 4 waits.2.2.1 ⟨rfl, fun _ => waits.2.2.2.1⟩) <|
    .act (.push "name" "a") <| .act (.push "name" "b") <| .act (.stop rfl) <|
    .act (.take rfl rfl) <| .act (.take rfl rfl) <|
    .act (.pass 4 waits.2.2.1 ⟨rfl, fun _ => waits.2.2.2.2⟩) <| .done _,
    by decide +kernel, fun present => ?_, fun soon => ?_⟩
  · have listened := present (fun stopped => by cases stopped) (fun never => by cases never)
      "name" (by decide)
    revert listened
    decide +kernel
  · exact absurd (show 2 ≤ 1 from soon) (by decide)

end RedisAllocator

import RedisAllocator.Lib.LabelledRun
import RedisAllocator.TaskQueue.Query
import RedisAllocator.TaskQueue.Routing

/-!
# Whose task and whose reply

What is stored under an id stems from the submission of that id and from its
execution.  With the ids in one place each, this routes parameters to the
executions and their outcomes to the callers.
-/

set_option autoImplicit false

namespace RedisAllocator

open LabelledRun

variable {W P V E : Type}

/-! ## Where the data come from -/

def System.Submitted (s : System W P V E) (id : String) (params : P) : Prop :=
  ∃ client, s.clients id = some client ∧ client.task.params = params

def System.Started (s : System W P V E) (id : String) : Prop :=
  ∃ thread execution, s.executions thread = some execution ∧ execution.id = id

structure Keeps (s s' : System W P V E) : Prop where
  client : ∀ id client, s.clients id = some client →
    ∃ client', s'.clients id = some client' ∧ client'.task = client.task
  execution : ∀ thread execution, s.executions thread = some execution →
    ∃ execution', s'.executions thread = some execution' ∧ execution'.id = execution.id ∧
      ∀ outcome, execution.outcome = some outcome → execution'.outcome = some outcome

theorem System.Submitted.keep {s s' : System W P V E} {id : String} {params : P}
    (submitted : s.Submitted id params) (keeps : Keeps s s') : s'.Submitted id params := by
  obtain ⟨client, calling, rfl⟩ := submitted
  obtain ⟨client', calling', sameTask⟩ := keeps.client id client calling
  exact ⟨client', calling', by rw [sameTask]⟩

theorem System.Started.keep {s s' : System W P V E} {id : String} (started : s.Started id)
    (keeps : Keeps s s') : s'.Started id := by
  obtain ⟨thread, execution, working, rfl⟩ := started
  obtain ⟨execution', working', sameId, _⟩ := keeps.execution thread execution working
  exact ⟨thread, execution', working', sameId⟩

theorem System.Produced.keep {s s' : System W P V E} {id : String}
    {outcome : Except (TaskError E) (Option V)} (produced : s.Produced id outcome)
    (keeps : Keeps s s') : s'.Produced id outcome := by
  obtain ⟨thread, execution, working, rfl, finished⟩ := produced
  obtain ⟨execution', working', sameId, still⟩ := keeps.execution thread execution working
  exact ⟨thread, execution', working', sameId, still outcome finished⟩

theorem System.Produced.started {s : System W P V E} {id : String}
    {outcome : Except (TaskError E) (Option V)} (produced : s.Produced id outcome) :
    s.Started id := by
  obtain ⟨thread, execution, working, sameId, _⟩ := produced
  exact ⟨thread, execution, working, sameId⟩

/-- The record is the submitted task, and a reply in it comes from an execution. -/
structure Stems (s : System W P V E) (id : String) (record : RedisTask P V E) : Prop where
  sameId : record.id = id
  submitted : s.Submitted id record.params
  reply : record.reply? = none ∨
    ∃ outcome, s.Produced id outcome ∧ record.reply? = some (Reply.of outcome)

theorem Stems.keep {s s' : System W P V E} {id : String} {record : RedisTask P V E}
    (recorded : Stems s id record) (keeps : Keeps s s') : Stems s' id record where
  sameId := recorded.sameId
  submitted := recorded.submitted.keep keeps
  reply := recorded.reply.imp_right fun ⟨outcome, produced, shown⟩ =>
    ⟨outcome, produced.keep keeps, shown⟩

/-- The execution has a copy of the submitted task, pending until it is finished. -/
structure Runs (s : System W P V E) (execution : Execution W P V E) : Prop where
  copy : ∃ task, execution.task = some task ∧ task.id = execution.id ∧
    s.Submitted execution.id task.params ∧ (execution.outcome = none → task.reply? = none)

theorem Runs.keep {s s' : System W P V E} {execution : Execution W P V E}
    (runs : Runs s execution) (keeps : Keeps s s') : Runs s' execution := by
  obtain ⟨task, holds, sameId, submitted, pending⟩ := runs.copy
  exact ⟨task, holds, sameId, submitted.keep keeps, pending⟩

/-- A reply on its way to the caller comes from an execution. -/
def Backed (s : System W P V E) (id : String) : Phase V E → Prop
  | .deleting reply => ∃ outcome, s.Produced id outcome ∧ reply = Reply.of outcome
  | .answered reply =>
    reply ≠ .expires → ∃ outcome, s.Produced id outcome ∧ reply = Reply.of outcome
  | _ => True

theorem Backed.keep {s s' : System W P V E} {id : String} {phase : Phase V E}
    (backed : Backed s id phase) (keeps : Keeps s s') : Backed s' id phase := by
  cases phase with
  | deleting reply =>
      obtain ⟨outcome, produced, isReply⟩ := backed
      exact ⟨outcome, produced.keep keeps, isReply⟩
  | answered reply =>
      intro answers
      obtain ⟨outcome, produced, isReply⟩ := backed answers
      exact ⟨outcome, produced.keep keeps, isReply⟩
  | stored => trivial
  | pushed => trivial
  | polling deadline => trivial
  | checking deadline => trivial

structure Traced (s : System W P V E) : Prop where
  record : ∀ id stored, s.store.results id = some stored → Stems s id stored.task.val
  execution : ∀ thread execution, s.executions thread = some execution → Runs s execution
  client : ∀ id client, s.clients id = some client →
    client.task.id = id ∧ Backed s id client.phase
  kept : ∀ id client, s.clients id = some client →
    (s.store.results id).isSome ∨ s.Started id

theorem Traced.of_frame {s s' : System W P V E} (traced : Traced s) (keeps : Keeps s s')
    (record : ∀ id stored, s'.store.results id = some stored →
      s.store.results id = some stored ∨ Stems s' id stored.task.val)
    (execution : ∀ thread execution, s'.executions thread = some execution →
      s.executions thread = some execution ∨ Runs s' execution)
    (client : ∀ id client, s'.clients id = some client →
      s.clients id = some client ∨ client.task.id = id ∧ Backed s' id client.phase)
    (kept : ∀ id client, s'.clients id = some client →
      (s.clients id).isSome ∧ ((s.store.results id).isSome → (s'.store.results id).isSome) ∨
        (s'.store.results id).isSome ∨ s'.Started id) : Traced s' where
  record := fun id stored present => by
    rcases record id stored present with before | new
    · exact (traced.record id stored before).keep keeps
    · exact new
  execution := fun thread working isWorking => by
    rcases execution thread working isWorking with before | new
    · exact (traced.execution thread working before).keep keeps
    · exact new
  client := fun id calling isCalling => by
    rcases client id calling isCalling with before | new
    · obtain ⟨sameId, backed⟩ := traced.client id calling before
      exact ⟨sameId, backed.keep keeps⟩
    · exact new
  kept := fun id calling isCalling => by
    rcases kept id calling isCalling with ⟨before, still⟩ | new
    · obtain ⟨earlier, wasCalling⟩ := Option.isSome_iff_exists.mp before
      rcases traced.kept id earlier wasCalling with present | started
      · exact Or.inl (still present)
      · exact Or.inr (started.keep keeps)
    · exact new

theorem Keeps.of_eq {s s' : System W P V E} (clients : s'.clients = s.clients)
    (executions : s'.executions = s.executions) : Keeps s s' where
  client := fun id client calling => ⟨client, by rw [clients, calling], rfl⟩
  execution := fun thread execution working =>
    ⟨execution, by rw [executions, working], rfl, fun _ finished => finished⟩

theorem Keeps.of_client {s s' : System W P V E} {id : String} {client : Client P V E}
    (clients : s'.clients = Function.update s.clients id (some client))
    (executions : s'.executions = s.executions)
    (sameTask : ∀ before, s.clients id = some before → client.task = before.task) :
    Keeps s s' where
  client := fun other before calling => by
    rw [clients, Function.update_apply]
    split
    · subst other
      exact ⟨client, rfl, sameTask before calling⟩
    · exact ⟨before, calling, rfl⟩
  execution := fun thread execution working =>
    ⟨execution, by rw [executions, working], rfl, fun _ finished => finished⟩

theorem Keeps.of_execution {s s' : System W P V E} {thread : Nat} {execution : Execution W P V E}
    (clients : s'.clients = s.clients)
    (executions : s'.executions = Function.update s.executions thread (some execution))
    (same : ∀ before, s.executions thread = some before → execution.id = before.id ∧
      ∀ outcome, before.outcome = some outcome → execution.outcome = some outcome) :
    Keeps s s' where
  client := fun id client calling => ⟨client, by rw [clients, calling], rfl⟩
  execution := fun other before working => by
    rw [executions, Function.update_apply]
    split
    · subst other
      obtain ⟨sameId, still⟩ := same before working
      exact ⟨execution, rfl, sameId, still⟩
    · exact ⟨before, working, rfl, fun _ finished => finished⟩

theorem TaskQueue.results_setTask_cases (q : TaskQueue) (task : RedisTask P V E)
    {s : TaskStore P V E} {id : String} {stored : StoredTask P V E}
    (present : (q.setTask task s).2.results id = some stored) :
    s.results id = some stored ∨ task.id = id ∧ stored.task = task.pickle := by
  by_cases sameId : task.id = id
  · rw [q.results_setTask task s sameId] at present
    cases present
    exact Or.inr ⟨sameId, rfl⟩
  · apply Or.inl
    rw [← present]
    exact (Function.update_of_ne (Ne.symm sameId) ..).symm

theorem TaskQueue.isSome_setTask (q : TaskQueue) (task : RedisTask P V E) {s : TaskStore P V E}
    {id : String} (present : (s.results id).isSome) :
    ((q.setTask task s).2.results id).isSome := by
  by_cases sameId : task.id = id
  · rw [q.results_setTask task s sameId]
    rfl
  · have untouched : (q.setTask task s).2.results id = s.results id :=
      Function.update_of_ne (Ne.symm sameId) ..
    rwa [untouched]

theorem RedisTask.reply?_withOutcome_cases {task : RedisTask P V E} (pending : task.reply? = none)
    (outcome : Except (TaskError E) (Option V)) :
    (task.withOutcome outcome).reply? = none ∨
      (task.withOutcome outcome).reply? = some (Reply.of outcome) := by
  have sound : task.error = none := by
    cases failed : task.error with
    | none => rfl
    | some e =>
        rw [RedisTask.reply?, failed] at pending
        cases pending
  by_cases handsOn : outcome ≠ .ok none
  · exact Or.inr ((task.reply?_withOutcome outcome).mpr ⟨handsOn, Or.inl sound⟩)
  · rw [not_not.mp handsOn]
    apply Or.inl
    rw [RedisTask.reply?, RedisTask.withOutcome, sound]
    rfl

theorem System.client_of_lies {listening : W → Listening} {s : System W P V E}
    (accounted : s.desk.Accounted (Listening.Serves listening)) {id : String}
    (place : WorkQueue.Place String W Nat) (lies : s.desk.Lies id place) :
    ∃ client, s.clients id = some client ∧
      place.Fits (Listening.Serves listening) client.task.name := by
  obtain ⟨name, addressed, fits⟩ := accounted.fits id place lies
  obtain ⟨client, calling, isName⟩ := Option.bind_eq_some_iff.mp addressed
  rw [Client.addressed] at isName
  split at isName
  · cases isName
  · cases isName
    exact ⟨client, calling, fits⟩

theorem System.lies_of_execution {s : System W P V E} {thread : Nat}
    {execution : Execution W P V E} (working : s.executions thread = some execution) :
    s.desk.Lies execution.id (.job thread execution.worker) := by
  change starts s.executions thread = some (execution.worker, execution.id)
  rw [starts, working]
  rfl

theorem System.unstarted_of_popped {listening : W → Listening} {s : System W P V E}
    (accounted : s.desk.Accounted (Listening.Serves listening)) {worker : W} {id : String}
    (holds : s.popped worker = some id) : ¬ s.Started id := by
  rintro ⟨thread, execution, working, rfl⟩
  cases accounted.single _ (.hand worker) _ holds (System.lies_of_execution working)

theorem Traced.of_same {s s' : System W P V E} (traced : Traced s)
    (results : s'.store.results = s.store.results) (clients : s'.clients = s.clients)
    (executions : s'.executions = s.executions) : Traced s' :=
  traced.of_frame (.of_eq clients executions) (fun _ _ present => Or.inl (results ▸ present))
    (fun _ _ working => Or.inl (executions ▸ working))
    (fun _ _ calling => Or.inl (clients ▸ calling)) fun id client calling =>
      Or.inl ⟨by rw [← clients, calling]; rfl, fun present => by rwa [results]⟩

/-! ## One command -/

section Commands

variable {s : System W P V E}

theorem Traced.submit (traced : Traced s) (queue : TaskQueue) (task : RedisTask P V E)
    (timeout : Option Rat) (once : Bool) (unused : s.clients task.id = none)
    (fresh : task.reply? = none) :
    Traced { s with
      store := (queue.setTask task s.store).2
      clients := Function.update s.clients task.id
        (some ⟨queue, task, timeout, once, .stored⟩) } := by
  have keeps : Keeps s { s with
      store := (queue.setTask task s.store).2
      clients := Function.update s.clients task.id
        (some ⟨queue, task, timeout, once, .stored⟩) } :=
    .of_client rfl rfl fun before calling => by cases unused.symm.trans calling
  refine traced.of_frame keeps (fun id stored present => ?_)
    (fun thread execution working => Or.inl working) (fun id client calling => ?_)
    fun id client calling => ?_
  · rcases queue.results_setTask_cases task present with before | ⟨sameId, copy⟩
    · exact Or.inl before
    · rw [copy, ← sameId]
      exact Or.inr ⟨rfl, ⟨_, Function.update_self .., rfl⟩, Or.inl fresh⟩
  · simp only [Function.update_apply] at calling
    split at calling
    · cases calling
      exact Or.inr ⟨‹id = task.id›.symm, trivial⟩
    · exact Or.inl calling
  · simp only [Function.update_apply] at calling
    split at calling
    · subst id
      refine Or.inr (Or.inl ?_)
      rw [queue.results_setTask task s.store rfl]
      rfl
    · exact Or.inl ⟨by rw [calling]; rfl, queue.isSome_setTask task⟩

theorem Traced.backed_poll (traced : Traced s) {id : String} {reply : Reply V E}
    (found : s.store.reply? id = some reply) :
    ∃ outcome, s.Produced id outcome ∧ reply = Reply.of outcome := by
  obtain ⟨record, read, replies⟩ := Option.bind_eq_some_iff.mp found
  obtain ⟨stored, present, _, rfl⟩ := TaskStore.results_of_getTask read
  rcases (traced.record id stored present).reply with pending | ⟨outcome, produced, shown⟩
  · cases pending.symm.trans replies
  · exact ⟨outcome, produced, Option.some.inj (replies.symm.trans shown)⟩

theorem Traced.backed_next (traced : Traced s) {id : String} {client : Client P V E}
    {store : TaskStore P V E} {phase : Phase V E} (calling : s.clients id = some client)
    (next : client.next s.store = some (store, phase)) : Backed s id phase := by
  obtain ⟨sameId, backed⟩ := traced.client id client calling
  rcases client.next_cases next with ⟨_, _, rfl⟩ | ⟨reply, deleting, _, rfl⟩ | ⟨_, _, now⟩
  · trivial
  · rw [deleting] at backed
    exact fun _ => backed
  · rcases now with ⟨deadline, rfl | rfl⟩ | rfl | ⟨reply, found, now⟩
    · trivial
    · trivial
    · exact fun answers => absurd rfl answers
    · rw [sameId] at found
      have brought := traced.backed_poll found
      rcases now with ⟨_, rfl⟩ | ⟨_, rfl⟩
      · exact brought
      · exact fun _ => brought

theorem Traced.next (traced : Traced s) {id : String} {client : Client P V E}
    {store : TaskStore P V E} {phase : Phase V E} (calling : s.clients id = some client)
    (next : client.next s.store = some (store, phase)) :
    Traced { s with
      store := store
      clients := Function.update s.clients id (some { client with phase := phase }) } := by
  have keeps : Keeps s { s with
      store := store
      clients := Function.update s.clients id (some { client with phase := phase }) } :=
    .of_client rfl rfl fun before isBefore => by
      cases calling.symm.trans isBefore
      rfl
  obtain ⟨sameId, backed⟩ := traced.client id client calling
  have nextBacked := traced.backed_next calling next
  -- the call writes no record, and deletes one only when its task was started
  have results : store.results = s.store.results ∨ ∃ reply, client.phase = .deleting reply ∧
      store.results = Function.update s.store.results client.task.id none := by
    rcases client.next_cases next with ⟨_, rfl, _⟩ | ⟨reply, deleting, rfl, _⟩ | ⟨_, rfl, _⟩
    · exact Or.inl rfl
    · exact Or.inr ⟨reply, deleting, rfl⟩
    · exact Or.inl rfl
  refine traced.of_frame keeps (fun other stored present => ?_)
    (fun thread execution working => Or.inl working) (fun other caller isCalling => ?_)
    fun other caller isCalling => ?_
  · rcases results with same | ⟨reply, _, deleted⟩
    · exact Or.inl (same ▸ present)
    · simp only [deleted, Function.update_apply] at present
      split at present
      · cases present
      · exact Or.inl present
  · simp only [Function.update_apply] at isCalling
    split at isCalling
    · cases isCalling
      subst other
      exact Or.inr ⟨sameId, nextBacked.keep keeps⟩
    · exact Or.inl isCalling
  · have wasCalling : (s.clients other).isSome := by
      simp only [Function.update_apply] at isCalling
      split at isCalling
      · subst other
        rw [calling]
        rfl
      · rw [isCalling]
        rfl
    rcases results with same | ⟨reply, isDeleting, deleted⟩
    · exact Or.inl ⟨wasCalling, fun present => same ▸ present⟩
    · by_cases own : other = id
      · rw [isDeleting] at backed
        obtain ⟨outcome, produced, _⟩ := backed
        rw [own]
        exact Or.inr (Or.inr (produced.started.keep keeps))
      · refine Or.inl ⟨wasCalling, fun present => ?_⟩
        rw [sameId] at deleted
        simpa only [deleted, Function.update_of_ne own] using present

theorem Traced.fetch [DecidableEq W] {listening : W → Listening} (traced : Traced s)
    (accounted : s.desk.Accounted (Listening.Serves listening)) {worker : W} {id : String}
    {thread : Nat} (holds : s.popped worker = some id) (unused : s.executions thread = none)
    (unlapsed : ∀ stored, s.store.results id = some stored → s.store.now < stored.lapsesAt) :
    Traced { s with
      popped := Function.update s.popped worker none
      executions := Function.update s.executions thread
        (some ⟨worker, id, s.store.getTask id, none⟩) } := by
  have keeps : Keeps s { s with
      popped := Function.update s.popped worker none
      executions := Function.update s.executions thread
        (some ⟨worker, id, s.store.getTask id, none⟩) } :=
    .of_execution rfl rfl fun before working => by cases unused.symm.trans working
  -- the record is still the submitted one, since the id was never started
  have unstarted := System.unstarted_of_popped accounted holds
  obtain ⟨client, calling, _⟩ := System.client_of_lies accounted (.hand worker) holds
  obtain ⟨stored, present⟩ := Option.isSome_iff_exists.mp
    ((traced.kept id client calling).resolve_right unstarted)
  have read := (TaskStore.getTask_of_results present).trans (if_pos (unlapsed stored present))
  have recorded := traced.record id stored present
  have pending : stored.task.val.reply? = none := by
    apply recorded.reply.resolve_right
    rintro ⟨outcome, produced, _⟩
    exact unstarted produced.started
  refine traced.of_frame keeps (fun id stored present => Or.inl present)
    (fun other execution working => ?_) (fun id client calling => Or.inl calling)
    fun id client calling => Or.inl ⟨by rw [calling]; rfl, fun present => present⟩
  simp only [Function.update_apply] at working
  split at working
  · cases working
    exact Or.inr ⟨_, read, recorded.sameId, recorded.submitted.keep keeps, fun _ => pending⟩
  · exact Or.inl working

/-- A running execution writes nothing but a copy of its task. -/
theorem Traced.write {s' : System W P V E} (traced : Traced s) (keeps : Keeps s s')
    (clients : s'.clients = s.clients) {thread : Nat} {execution : Execution W P V E}
    (executions : s'.executions = Function.update s.executions thread (some execution))
    (runs : Runs s' execution)
    (wrote : s'.store = s.store ∨ ∃ (q : TaskQueue) (copy : RedisTask P V E),
      s'.store = (q.setTask copy s.store).2 ∧ Stems s' copy.id copy) : Traced s' := by
  refine traced.of_frame keeps (fun id stored present => ?_) (fun other ran working => ?_)
    (fun id client calling => Or.inl (clients ▸ calling)) fun id client calling => ?_
  · rcases wrote with same | ⟨q, copy, set, recorded⟩
    · exact Or.inl (same ▸ present)
    · rw [set] at present
      rcases q.results_setTask_cases copy present with before | ⟨rfl, isCopy⟩
      · exact Or.inl before
      · rw [isCopy]
        exact Or.inr ⟨recorded.sameId, recorded.submitted, recorded.reply⟩
  · rw [executions, Function.update_apply] at working
    split at working
    · cases working
      exact Or.inr runs
    · exact Or.inl working
  · refine Or.inl ⟨by rw [← clients, calling]; rfl, fun present => ?_⟩
    rcases wrote with same | ⟨q, copy, set, _⟩
    · rwa [same]
    · rw [set]
      exact q.isSome_setTask copy present

theorem Traced.report (traced : Traced s) (q : TaskQueue) {thread : Nat}
    {execution : Execution W P V E} (working : s.executions thread = some execution)
    (unfinished : execution.outcome = none) (current total : Rat) :
    Traced { s with
      store := (execution.report q current total s.store).2
      executions := Function.update s.executions thread
        (some (execution.report q current total s.store).1) } := by
  obtain ⟨task, holds, sameId, submitted, pending⟩ :=
    (traced.execution thread execution working).copy
  have reported : execution.report q current total s.store =
      ({ execution with task := some (task.update q current total s.store).2.1 },
        (task.update q current total s.store).2.2) := by
    rw [Execution.report, holds]
  rw [reported]
  have keeps : Keeps s { s with
      store := (task.update q current total s.store).2.2
      executions := Function.update s.executions thread
        (some { execution with task := some (task.update q current total s.store).2.1 }) } :=
    .of_execution rfl rfl fun before isBefore => by
      cases working.symm.trans isBefore
      exact ⟨rfl, fun outcome finished => finished⟩
  have stillSubmitted := submitted.keep keeps
  rcases task.update_cases q current total s.store with unsaved | saved
  · rw [unsaved] at stillSubmitted keeps ⊢
    exact traced.write keeps rfl rfl ⟨_, rfl, sameId, stillSubmitted, pending⟩ (Or.inl rfl)
  · rw [saved] at stillSubmitted keeps ⊢
    refine traced.write keeps rfl rfl ⟨_, rfl, sameId, stillSubmitted, pending⟩
      (Or.inr ⟨q, _, rfl, rfl, ?_, Or.inl (pending unfinished)⟩)
    rw [← sameId] at stillSubmitted
    exact stillSubmitted

theorem Traced.finish (traced : Traced s) (q : TaskQueue) {thread : Nat}
    {execution : Execution W P V E} (working : s.executions thread = some execution)
    (unfinished : execution.outcome = none) (outcome : Except (TaskError E) (Option V)) :
    Traced { s with
      store := (execution.finish q outcome s.store).2
      executions := Function.update s.executions thread
        (some (execution.finish q outcome s.store).1) } := by
  obtain ⟨task, holds, sameId, submitted, pending⟩ :=
    (traced.execution thread execution working).copy
  have finished : execution.finish q outcome s.store =
      ({ execution with
          task := some ((task.withOutcome outcome).save q s.store).1
          outcome := some outcome },
        ((task.withOutcome outcome).save q s.store).2) := by
    rw [Execution.finish, holds]
  rw [finished]
  have keeps : Keeps s { s with
      store := ((task.withOutcome outcome).save q s.store).2
      executions := Function.update s.executions thread (some { execution with
        task := some ((task.withOutcome outcome).save q s.store).1
        outcome := some outcome }) } :=
    .of_execution rfl rfl fun before isBefore => by
      cases working.symm.trans isBefore
      refine ⟨rfl, fun earlier finished => ?_⟩
      cases unfinished.symm.trans finished
  have stillSubmitted := submitted.keep keeps
  have copyId : (task.withOutcome outcome).id = execution.id :=
    (task.id_withOutcome outcome).trans sameId
  have copyParams : (task.withOutcome outcome).params = task.params := by
    cases outcome <;> rfl
  rw [← copyParams] at stillSubmitted
  have ended {pending : Prop} (unfinished : some outcome = none) : pending :=
    absurd unfinished (Option.some_ne_none outcome)
  cases saves : (task.withOutcome outcome).saves with
  | false =>
      have silent := RedisTask.save_silent q s.store saves
      rw [silent] at stillSubmitted keeps ⊢
      exact traced.write keeps rfl rfl ⟨_, rfl, copyId, stillSubmitted, ended⟩ (Or.inl rfl)
  | true =>
      have saved := RedisTask.save_first q s.store saves
      rw [saved] at stillSubmitted keeps ⊢
      refine traced.write keeps rfl rfl ⟨_, rfl, copyId, stillSubmitted, ended⟩
        (Or.inr ⟨q, _, rfl, rfl, ?_, ?_⟩)
      · rw [copyId]
        exact stillSubmitted
      · refine (RedisTask.reply?_withOutcome_cases (pending unfinished) outcome).imp_right ?_
        refine fun shown => ⟨outcome, ⟨thread, _, Function.update_self .., ?_, rfl⟩, shown⟩
        exact copyId.symm

end Commands

/-! ## Every run -/

/-- Each id is in one place, and what is stored under it stems from its submission and its
execution. -/
structure Tracked (listening : W → Listening) (s : System W P V E) : Prop where
  accounted : s.desk.Accounted (Listening.Serves listening)
  traced : Traced s

theorem Tracked.empty (listening : W → Listening) (now : Rat) :
    Tracked listening (System.empty now : System W P V E) where
  accounted := by
    have nowhere : ∀ id place, ¬ (System.empty now : System W P V E).desk.Lies id place := by
      intro id place lies
      cases place with
      | queue name => exact absurd lies List.not_mem_nil
      | hand worker => exact absurd lies (Option.some_ne_none id).symm
      | job thread worker => exact absurd lies (Option.some_ne_none (worker, id)).symm
    exact ⟨fun _ => List.nodup_nil, fun id place _ lies => absurd lies (nowhere id place),
      fun id place lies => absurd lies (nowhere id place)⟩
  traced := ⟨fun _ stored present => absurd present (Option.some_ne_none stored).symm,
    fun _ execution working => absurd working (Option.some_ne_none execution).symm,
    fun _ client calling => absurd calling (Option.some_ne_none client).symm,
    fun _ client calling => absurd calling (Option.some_ne_none client).symm⟩

variable {listening : W → Listening}

theorem Tracked.step [DecidableEq W] {s s' : System W P V E} {command : Command W P V E}
    (tracked : Tracked listening s) (fresh : command.Fresh)
    (step : RouteStep listening s command s') : Tracked listening s' where
  accounted := tracked.accounted.step
    (System.desk_step step fun id client calling => (tracked.traced.client id client calling).1)
  traced := by
    have traced := tracked.traced
    cases step with
    | submit queue task timeout once clock unused =>
        exact traced.submit queue { task with expiry := clock + queue.waits timeout } timeout once
          unused fresh
    | client calling next => exact traced.next calling next
    | pop idle popped =>
        obtain ⟨name, _, rest, _, rfl⟩ := TaskStore.blpop_spec popped
        exact traced.of_same rfl rfl rfl
    | fetch holds unused unlapsed => exact traced.fetch tracked.accounted holds unused unlapsed
    | report working unfinished current total => exact traced.report _ working unfinished ..
    | finish working unfinished outcome => exact traced.finish _ working unfinished outcome
    | announce idle listens => exact traced.of_same rfl rfl rfl
    | wait elapsed forward => exact traced.of_same rfl rfl rfl

theorem Tracked.routed {s : System W P V E} (tracked : Tracked listening s) :
    s.Routed listening where
  once := fun thread thread' execution execution' working working' sameId => by
    have lies := System.lies_of_execution working
    have lies' := System.lies_of_execution working'
    rw [← sameId] at lies'
    exact (WorkQueue.Place.job.inj (tracked.accounted.single _ _ _ lies lies')).1
  handed := fun worker id holds => by
    refine ⟨fun worker' holds' => ?_, fun thread execution working sameId => ?_, ?_⟩
    · cases tracked.accounted.single id (.hand worker) (.hand worker') holds holds'
      rfl
    · exact System.unstarted_of_popped tracked.accounted holds ⟨thread, execution, working, sameId⟩
    · exact System.client_of_lies tracked.accounted (.hand worker) holds
  runs := fun thread execution working => by
    obtain ⟨client, calling, listens⟩ :=
      System.client_of_lies tracked.accounted _ (System.lies_of_execution working)
    obtain ⟨task, holds, sameId, ⟨client', calling', params⟩, _⟩ :=
      (tracked.traced.execution thread execution working).copy
    cases calling.symm.trans calling'
    exact ⟨client, task, calling, listens, holds, sameId, params.symm⟩
  told := fun id client reply calling answered => by
    have backed := (tracked.traced.client id client calling).2
    rw [answered] at backed
    exact backed

/-- However the commands of clients and listeners are mixed, every state is routed, if no task is
submitted with an error or a result of its own. -/
theorem routed_of_run [DecidableEq W] {now : Rat} {commands : List (Command W P V E)}
    {s : System W P V E} (run : Run (RouteStep listening) (System.empty now) commands s)
    (fresh : ∀ command ∈ commands, command.Fresh) : s.Routed listening := by
  have tracked : Tracked listening s :=
    run.invariant (Tracked listening) Command.Fresh
      (fun _ _ _ tracked fresh step => tracked.step fresh step) (Tracked.empty listening now) fresh
  exact tracked.routed

def sampleListening (_ : Unit) : Listening := ⟨sampleQueue, ["name"]⟩

theorem Client.next_reply {client : Client P V E} {s : TaskStore P V E} {deadline : Rat}
    {stored : StoredTask P V E} {reply : Reply V E} (polls : client.phase = .polling deadline)
    (present : s.results client.task.id = some stored) (live : s.now < stored.lapsesAt)
    (replies : stored.task.val.reply? = some reply) : client.next s =
      some (s, if client.once then .deleting reply else .answered reply) := by
  have found : s.reply? client.task.id = some reply := by
    rw [TaskStore.reply?, TaskStore.getTask_of_results present, if_pos live]
    exact replies
  rw [Client.next, polls]
  simp only [found]

theorem routed_of_run_sample : ∃ s : System Unit Unit Nat Unit,
    Run (RouteStep sampleListening) (System.empty 0)
      [.submit sampleTask, .client "id", .client "id", .pop (), .fetch () 0, .finish 0] s ∧
    s.Produced "id" (.ok (some 7)) ∧ s.Routed sampleListening := by
  obtain ⟨s, run, produced⟩ : ∃ s : System Unit Unit Nat Unit,
      Run (RouteStep sampleListening) (System.empty 0)
        [.submit sampleTask, .client "id", .client "id", .pop (), .fetch () 0, .finish 0] s ∧
      s.Produced "id" (.ok (some 7)) := by
    have live : (0 : Rat) < 0 + (300 : ℕ) := by norm_num
    apply Exists.intro
    constructor
    · apply Run.fire (.submit sampleQueue sampleTask (some 5) true 0 rfl)
      apply Run.fire (.client rfl rfl)
      apply Run.fire (.client rfl rfl)
      apply Run.fire (.pop rfl rfl)
      apply Run.fire (.fetch rfl rfl fun stored present => Option.some.inj present ▸ live)
      apply Run.fire (.finish rfl rfl (.ok (some 7)))
      exact .done _
    · refine ⟨0, _, rfl, ?_, ?_⟩
      · exact (Execution.finish_spec sampleQueue _ (.ok (some 7)) _).2.1
      · exact (Execution.finish_spec sampleQueue _ (.ok (some 7)) _).2.2.1
  refine ⟨s, run, produced, routed_of_run run ?_⟩
  simp only [List.forall_mem_cons, List.not_mem_nil, false_implies, implies_true, and_true]
  exact ⟨rfl, trivial, trivial, trivial, trivial, trivial⟩

/-- The sample task is submitted after its local run raised: the caller is told the old error and
deletes the record before the listener reads it. -/
theorem failedTask_unrouted : ∃ s : System Unit Unit Nat Unit,
    Run (RouteStep sampleListening) (System.empty 0)
      [.submit failedTask, .client "id", .client "id", .client "id", .client "id", .pop (),
        .fetch () 0] s ∧
    (∃ execution, s.executions 0 = some execution ∧ execution.task = none) ∧
    ¬ s.Routed sampleListening := by
  obtain ⟨s, run, execution, working, nothing⟩ : ∃ s : System Unit Unit Nat Unit,
      Run (RouteStep sampleListening) (System.empty 0)
        [.submit failedTask, .client "id", .client "id", .client "id", .client "id", .pop (),
          .fetch () 0] s ∧
      ∃ execution, s.executions 0 = some execution ∧ execution.task = none := by
    have live : (0 : Rat) < 0 + (300 : ℕ) := by norm_num
    apply Exists.intro
    constructor
    · apply Run.fire (.submit sampleQueue failedTask (some 5) true 0 rfl)
      apply Run.fire (.client rfl rfl)
      apply Run.fire (.client rfl rfl)
      apply Run.fire (.client rfl (Client.next_reply rfl rfl live rfl))
      apply Run.fire (.client rfl rfl)
      apply Run.fire (.pop rfl rfl)
      apply Run.fire (.fetch rfl rfl fun stored present =>
        (Option.some_ne_none stored present.symm).elim)
      exact .done _
    · exact ⟨_, rfl, rfl⟩
  refine ⟨s, run, ⟨execution, working, nothing⟩, fun routed => ?_⟩
  obtain ⟨_, task, _, _, holds, _⟩ := routed.runs 0 execution working
  cases nothing.symm.trans holds

end RedisAllocator

import Mathlib.Data.Set.Card
import RedisAllocator.Lib.History
import RedisAllocator.Locks.PoolHealth

/-!
# Threads that report their health

`RedisThreadHealthCheckPool`: a thread registers by a lock on its id and the id in
the pool, renews the lock, and at the end leaves the pool and gives the lock up.
Each method sends its commands one by one, and those of other threads come in
between; so do the two commands of a health check.  A thread is its id: two
threads under one id are one here.
-/

set_option autoImplicit false

namespace RedisAllocator

open AbortableScript AbortableScript.Script LabelledRun

/-- One command of a thread on its own id -/
inductive HealthStep
  | update
  | extend
  | shrink
  | unlock
deriving DecidableEq

inductive HealthMethod
  | initialise
  | update
  | finalize

def HealthMethod.steps : HealthMethod → List HealthStep
  | .initialise => [.update, .extend]
  | .update => [.update]
  | .finalize => [.shrink, .unlock]

/-- The pool, and what the method that a thread is in has still to send. -/
structure HealthPool where
  pool : LockPool Redis
  pending : String → List HealthStep

namespace HealthPool

variable (s : HealthPool)

def now : Nat := s.pool.locks.now

def advance (elapsed : Nat) : HealthPool :=
  { s with pool := ⟨s.pool.members, s.pool.locks.advance elapsed⟩ }

def lock? (thread : String) : Option StringKey := s.pool.locks.locks thread

end HealthPool

def HealthStep.send (timeout : Int) (thread : String) (pool : LockPool Redis) :
    HealthStep → Except Failure Unit × LockPool Redis
  | .update =>
    let (reply, locks) := lockUpdate thread "1" (.int timeout) pool.locks
    (reply, ⟨pool.members, locks⟩)
  | .extend =>
    let (reply, members) := RedisLockPool.extend (some [thread]) pool.members
    (reply, ⟨members, pool.locks⟩)
  | .shrink =>
    let (reply, members) := RedisLockPool.shrink (some [thread]) pool.members
    (reply, ⟨members, pool.locks⟩)
  | .unlock =>
    let (reply, locks) := RedisAllocator.unlock thread pool.locks
    (reply.map fun _ => (), ⟨pool.members, locks⟩)

/-- An error reply raises, and the method sends nothing more. -/
def stillToSend (reply : Except Failure Unit) (rest : List HealthStep) : List HealthStep :=
  match reply with
  | .ok () => rest
  | .error _ => []

inductive HealthAction
  | call (thread : String) (method : HealthMethod)
  | send (thread : String)

structure HealthEvent where
  before : HealthPool
  action : HealthAction

namespace HealthEvent

variable (timeout : Int) (event : HealthEvent)

def after : HealthPool :=
  match event.action with
  | .call thread method =>
    { event.before with pending := Function.update event.before.pending thread method.steps }
  | .send thread =>
    match event.before.pending thread with
    | [] => event.before
    | step :: rest =>
      let (reply, pool) := step.send timeout thread event.before.pool
      ⟨pool, Function.update event.before.pending thread (stillToSend reply rest)⟩

/-- A thread is in one method at a time. -/
def Permitted : Prop :=
  match event.action with
  | .call thread _ => event.before.pending thread = []
  | .send thread => event.before.pending thread ≠ []

def Sends (thread : String) (step : HealthStep) : Prop :=
  event.action = .send thread ∧ (event.before.pending thread).head? = some step

end HealthEvent

def HealthStepOf (timeout : Int) (s : HealthPool) (event : HealthEvent) (s' : HealthPool) : Prop :=
  (∃ elapsed, event.before = s.advance elapsed) ∧ event.Permitted ∧ s' = event.after timeout

abbrev HealthRun (timeout : Int) : HealthPool → List HealthEvent → HealthPool → Prop :=
  Run (HealthStepOf timeout)

/-! ## One command -/

namespace HealthStep

variable {timeout : Int} (thread : String) (pool : LockPool Redis)

theorem send_update (positive : 0 < timeout) :
    HealthStep.update.send timeout thread pool = (.ok (), ⟨pool.members,
      pool.locks.putLock thread (some ⟨"1", some (pool.locks.deadline timeout)⟩)⟩) := by
  simp [send, lockUpdate, pyExpire, setLock_ex _ positive]

theorem send_update_refused (nonpositive : timeout ≤ 0) :
    HealthStep.update.send timeout thread pool =
      (.error (.command "ERR invalid expire time in 'set' command"), pool) := by
  simp [send, lockUpdate, pyExpire, setLock_ex_refused _ nonpositive]

theorem send_extend :
    HealthStep.extend.send timeout thread pool =
      (.ok (), ⟨pool.members ∪ {thread}, pool.locks⟩) := by
  simp only [send, RedisLockPool.extend_run, ThreadLockPool.extend, List.toFinset_cons,
    List.toFinset_nil, insert_empty_eq]

theorem send_shrink :
    HealthStep.shrink.send timeout thread pool =
      (.ok (), ⟨pool.members \ {thread}, pool.locks⟩) := by
  simp only [send, RedisLockPool.shrink_run, ThreadLockPool.shrink, List.toFinset_cons,
    List.toFinset_nil, insert_empty_eq]

theorem send_unlock :
    HealthStep.unlock.send timeout thread pool =
      (.ok (), ⟨pool.members, pool.locks.putLock thread none⟩) := by
  rw [send, unlock_run]
  rfl

theorem send_frame (step : HealthStep) {other : String} (different : other ≠ thread) :
    let after := (step.send timeout thread pool).2
    after.locks.locks other = pool.locks.locks other ∧
      (other ∈ after.members ↔ other ∈ pool.members) := by
  cases step with
  | update =>
      by_cases positive : 0 < timeout
      · simp [send_update thread pool positive, Redis.putLock, different]
      · simp [send_update_refused thread pool (not_lt.mp positive)]
  | extend => simp [send_extend, different]
  | shrink => simp [send_shrink, different]
  | unlock => simp [send_unlock, Redis.putLock, different]

theorem send_now (step : HealthStep) :
    (step.send timeout thread pool).2.locks.now = pool.locks.now := by
  cases step with
  | update =>
      by_cases positive : 0 < timeout
      · rw [send_update thread pool positive]
        rfl
      · rw [send_update_refused thread pool (not_lt.mp positive)]
  | extend => rw [send_extend]
  | shrink => rw [send_shrink]
  | unlock =>
      rw [send_unlock]
      rfl

end HealthStep

/-! ## One event -/

section Event

variable {timeout : Int} {event : HealthEvent} {thread : String}

/-- What an event does to one thread's lock, membership and method. -/
inductive Touches (timeout : Int) (event : HealthEvent) (thread : String) (s' : HealthPool) : Prop
  | nothing (lock : s'.lock? thread = event.before.lock? thread)
      (member : thread ∈ s'.pool.members ↔ thread ∈ event.before.pool.members)
      (pending : s'.pending thread = event.before.pending thread)
      (idle : ∀ step, ¬ event.Sends thread step)
  | begins (method : HealthMethod) (lock : s'.lock? thread = event.before.lock? thread)
      (member : thread ∈ s'.pool.members ↔ thread ∈ event.before.pool.members)
      (ready : event.before.pending thread = []) (pending : s'.pending thread = method.steps)
      (idle : ∀ step, ¬ event.Sends thread step)
  | update (rest : List HealthStep) (positive : 0 < timeout)
      (lock : s'.lock? thread =
        some ⟨"1", some (event.before.now + 1000 * timeout.toNat)⟩)
      (member : thread ∈ s'.pool.members ↔ thread ∈ event.before.pool.members)
      (ready : event.before.pending thread = .update :: rest) (pending : s'.pending thread = rest)
      (sends : ∀ step, event.Sends thread step ↔ step = .update)
  | refused (rest : List HealthStep) (nonpositive : timeout ≤ 0)
      (lock : s'.lock? thread = event.before.lock? thread)
      (member : thread ∈ s'.pool.members ↔ thread ∈ event.before.pool.members)
      (ready : event.before.pending thread = .update :: rest) (pending : s'.pending thread = [])
      (sends : ∀ step, event.Sends thread step ↔ step = .update)
  | extend (rest : List HealthStep) (lock : s'.lock? thread = event.before.lock? thread)
      (member : thread ∈ s'.pool.members)
      (ready : event.before.pending thread = .extend :: rest) (pending : s'.pending thread = rest)
      (sends : ∀ step, event.Sends thread step ↔ step = .extend)
  | shrink (rest : List HealthStep) (lock : s'.lock? thread = event.before.lock? thread)
      (member : thread ∉ s'.pool.members)
      (ready : event.before.pending thread = .shrink :: rest) (pending : s'.pending thread = rest)
      (sends : ∀ step, event.Sends thread step ↔ step = .shrink)
  | unlock (rest : List HealthStep) (lock : s'.lock? thread = none)
      (member : thread ∈ s'.pool.members ↔ thread ∈ event.before.pool.members)
      (ready : event.before.pending thread = .unlock :: rest) (pending : s'.pending thread = rest)
      (sends : ∀ step, event.Sends thread step ↔ step = .unlock)

theorem HealthEvent.sends_other {other : String} (action : event.action = .send other)
    (different : thread ≠ other) (step : HealthStep) : ¬ event.Sends thread step := by
  rintro ⟨sends, _⟩
  rw [action] at sends
  cases sends
  exact different rfl

theorem HealthEvent.sends_iff {first : HealthStep} {rest : List HealthStep}
    (action : event.action = .send thread) (ready : event.before.pending thread = first :: rest)
    (step : HealthStep) : event.Sends thread step ↔ step = first := by
  rw [HealthEvent.Sends, ready]
  exact ⟨fun ⟨_, head⟩ => (Option.some.inj head).symm, fun same => ⟨action, same ▸ rfl⟩⟩

theorem HealthEvent.after_send {first : HealthStep} {rest : List HealthStep}
    {reply : Except Failure Unit} {pool : LockPool Redis} (action : event.action = .send thread)
    (ready : event.before.pending thread = first :: rest)
    (sent : first.send timeout thread event.before.pool = (reply, pool)) :
    event.after timeout =
      ⟨pool, Function.update event.before.pending thread (stillToSend reply rest)⟩ := by
  simp only [HealthEvent.after, action, ready, sent]

theorem HealthEvent.touches_own {first : HealthStep} {rest : List HealthStep}
    (action : event.action = .send thread) (ready : event.before.pending thread = first :: rest) :
    Touches timeout event thread (event.after timeout) := by
  have sends := HealthEvent.sends_iff action ready
  cases first with
  | update =>
      by_cases positive : 0 < timeout
      · rw [after_send action ready (HealthStep.send_update thread event.before.pool positive)]
        exact .update rest positive (Function.update_self ..) Iff.rfl ready
          (Function.update_self ..) sends
      · have nonpositive := not_lt.mp positive
        rw [after_send action ready
          (HealthStep.send_update_refused thread event.before.pool nonpositive)]
        exact .refused rest nonpositive rfl Iff.rfl ready (Function.update_self ..) sends
  | extend =>
      rw [after_send action ready (HealthStep.send_extend thread event.before.pool)]
      exact .extend rest rfl (by simp) ready (Function.update_self ..) sends
  | shrink =>
      rw [after_send action ready (HealthStep.send_shrink thread event.before.pool)]
      exact .shrink rest rfl (by simp) ready (Function.update_self ..) sends
  | unlock =>
      rw [after_send action ready (HealthStep.send_unlock thread event.before.pool)]
      exact .unlock rest (Function.update_self ..) Iff.rfl ready (Function.update_self ..) sends

theorem HealthEvent.touches (permitted : event.Permitted) (thread : String) :
    Touches timeout event thread (event.after timeout) := by
  obtain ⟨before, action⟩ := event
  cases action with
  | call caller method =>
      have idle (step : HealthStep) :
          ¬ HealthEvent.Sends ⟨before, .call caller method⟩ thread step := by
        rintro ⟨sends, _⟩
        cases sends
      by_cases same : thread = caller
      · subst same
        exact .begins method rfl Iff.rfl permitted (by simp [HealthEvent.after]) idle
      · exact .nothing rfl Iff.rfl (by simp [HealthEvent.after, same]) idle
  | send sender =>
      cases ready : before.pending sender with
      | nil => exact absurd ready permitted
      | cons first rest =>
          by_cases same : thread = sender
          · subst same
            exact HealthEvent.touches_own rfl ready
          · obtain ⟨lock, member⟩ :=
              @HealthStep.send_frame timeout sender before.pool first thread same
            rw [HealthEvent.after_send rfl ready rfl]
            exact .nothing lock member (Function.update_of_ne same ..)
              (HealthEvent.sends_other rfl same)

theorem HealthEvent.after_now (permitted : event.Permitted) :
    (event.after timeout).now = event.before.now := by
  obtain ⟨before, action⟩ := event
  cases action with
  | call caller method => rfl
  | send sender =>
      cases ready : before.pending sender with
      | nil => exact absurd ready permitted
      | cons first rest =>
          rw [HealthEvent.after_send rfl ready rfl]
          exact HealthStep.send_now sender before.pool first

end Event

/-! ## A thread over a run -/

/-- Where a thread stands: a member has a lock, but for one that is leaving. -/
inductive HealthStage (lock : Option StringKey) (member : Prop) : List HealthStep → Prop
  | idle (backed : member → lock ≠ none) : HealthStage lock member []
  | initialising (backed : member → lock ≠ none) : HealthStage lock member [.update, .extend]
  | extending (held : lock ≠ none) : HealthStage lock member [.extend]
  | updating (backed : member → lock ≠ none) : HealthStage lock member [.update]
  | finalizing (backed : member → lock ≠ none) : HealthStage lock member [.shrink, .unlock]
  | leaving (out : ¬ member) : HealthStage lock member [.unlock]

theorem HealthStage.backed {lock : Option StringKey} {member : Prop} {pending : List HealthStep}
    (stage : HealthStage lock member pending) (isMember : member) : lock ≠ none := by
  cases stage with
  | idle backed => exact backed isMember
  | initialising backed => exact backed isMember
  | extending held => exact held
  | updating backed => exact backed isMember
  | finalizing backed => exact backed isMember
  | leaving out => exact absurd isMember out

/-- What a thread's commands so far say of its lock and its membership. -/
structure HealthRecord (timeout : Int) (thread : String) (past : List HealthEvent)
    (s : HealthPool) : Prop where
  clock : ∀ event ∈ past, event.before.now ≤ s.now
  unlocked : s.lock? thread = none → 0 < timeout →
    ¬ Standing (·.Sends thread .update) (·.Sends thread .unlock) past
  locked : ∀ held, s.lock? thread = some held → 0 < timeout ∧ ∃ instant,
    held = ⟨"1", some (instant + 1000 * timeout.toNat)⟩ ∧
    Standing (fun event => event.Sends thread .update ∧ event.before.now = instant)
      (·.Sends thread .unlock) past ∧
    ∀ event ∈ past, event.Sends thread .update → event.before.now ≤ instant
  member : thread ∈ s.pool.members ↔
    Standing (·.Sends thread .extend) (·.Sends thread .shrink) past
  stage : HealthStage (s.lock? thread) (thread ∈ s.pool.members) (s.pending thread)

section Run

variable {timeout : Int} {thread : String} {past : List HealthEvent} {s s' : HealthPool}
  {event : HealthEvent}

theorem HealthStage.touches
    (stage : HealthStage (event.before.lock? thread) (thread ∈ event.before.pool.members)
      (event.before.pending thread))
    (touches : Touches timeout event thread s') :
    HealthStage (s'.lock? thread) (thread ∈ s'.pool.members) (s'.pending thread) := by
  cases touches with
  | nothing lock member pending idle => rwa [lock, propext member, pending]
  | begins method lock member ready pending idle =>
      rw [ready] at stage
      cases stage with
      | idle backed =>
          rw [lock, propext member, pending]
          cases method with
          | initialise => exact .initialising backed
          | update => exact .updating backed
          | finalize => exact .finalizing backed
  | update rest positive lock member ready pending sends =>
      rw [ready] at stage
      have held : s'.lock? thread ≠ none := lock ▸ Option.some_ne_none _
      rw [pending]
      cases stage with
      | initialising backed => exact .extending held
      | updating backed => exact .idle fun _ => held
  | refused rest nonpositive lock member ready pending sends =>
      rw [ready] at stage
      rw [lock, propext member, pending]
      cases stage with
      | initialising backed => exact .idle backed
      | updating backed => exact .idle backed
  | extend rest lock member ready pending sends =>
      rw [ready] at stage
      rw [lock, pending]
      cases stage with
      | extending held => exact .idle fun _ => held
  | shrink rest lock member ready pending sends =>
      rw [ready] at stage
      rw [pending]
      cases stage with
      | finalizing backed => exact .leaving member
  | unlock rest lock member ready pending sends =>
      rw [ready] at stage
      rw [pending, propext member]
      cases stage with
      | leaving out => exact .idle fun isMember => absurd isMember out

theorem HealthRecord.lock_kept (recorded : HealthRecord timeout thread past s)
    (same : s'.lock? thread = s.lock? thread)
    (quiet : 0 < timeout → ¬ event.Sends thread .update) (kept : ¬ event.Sends thread .unlock) :
    (s'.lock? thread = none → 0 < timeout →
      ¬ Standing (·.Sends thread .update) (·.Sends thread .unlock) (past ++ [event])) ∧
    ∀ held, s'.lock? thread = some held → 0 < timeout ∧ ∃ instant,
      held = ⟨"1", some (instant + 1000 * timeout.toNat)⟩ ∧
      Standing (fun event => event.Sends thread .update ∧ event.before.now = instant)
        (·.Sends thread .unlock) (past ++ [event]) ∧
      ∀ other ∈ past ++ [event], other.Sends thread .update → other.before.now ≤ instant := by
  refine ⟨fun free positive => ?_, fun held isHeld => ?_⟩
  · have none := recorded.unlocked (same ▸ free) positive
    simp [standing_snoc, quiet positive, none]
  · obtain ⟨positive, instant, shape, standing, latest⟩ := recorded.locked held (same ▸ isHeld)
    refine ⟨positive, instant, shape, standing_snoc.mpr (.inr ⟨standing, kept⟩), ?_⟩
    intro other inPast sends
    rcases List.mem_append.mp inPast with inPast | isLast
    · exact latest other inPast sends
    · exact absurd (List.mem_singleton.mp isLast ▸ sends) (quiet positive)

theorem HealthRecord.step (recorded : HealthRecord timeout thread past s)
    (step : HealthStepOf timeout s event s') :
    HealthRecord timeout thread (past ++ [event]) s' := by
  obtain ⟨⟨elapsed, before⟩, permitted, rfl⟩ := step
  have touches : Touches timeout event thread (event.after timeout) :=
    HealthEvent.touches permitted thread
  have started : event.before.now = s.now + elapsed := congrArg HealthPool.now before
  have sameLock : event.before.lock? thread = s.lock? thread := by rw [before]; rfl
  have sameMembers : event.before.pool.members = s.pool.members := by rw [before]; rfl
  have samePending : event.before.pending thread = s.pending thread := by rw [before]; rfl
  have clock : ∀ other ∈ past ++ [event], other.before.now ≤ (event.after timeout).now := by
    intro other inPast
    rw [HealthEvent.after_now permitted]
    rcases List.mem_append.mp inPast with inPast | isLast
    · exact (recorded.clock other inPast).trans (by omega)
    · rw [List.mem_singleton.mp isLast]
  have stage : HealthStage ((event.after timeout).lock? thread)
      (thread ∈ (event.after timeout).pool.members) ((event.after timeout).pending thread) :=
    HealthStage.touches (by rw [sameLock, sameMembers, samePending]; exact recorded.stage) touches
  have member := recorded.member
  rw [← sameMembers] at member
  cases touches with
  | nothing lock member' pending idle =>
      obtain ⟨unlocked, locked⟩ := recorded.lock_kept (lock.trans sameLock)
        (fun _ => idle .update) (idle .unlock)
      exact ⟨clock, unlocked, locked, by simp [member', member, standing_snoc, idle], stage⟩
  | begins method lock member' ready pending idle =>
      obtain ⟨unlocked, locked⟩ := recorded.lock_kept (lock.trans sameLock)
        (fun _ => idle .update) (idle .unlock)
      exact ⟨clock, unlocked, locked, by simp [member', member, standing_snoc, idle], stage⟩
  | update rest positive lock member' ready pending sends =>
      refine ⟨clock, fun free => ?_, fun held isHeld => ?_, ?_, stage⟩
      · rw [lock] at free
        cases free
      · rw [lock] at isHeld
        cases isHeld
        refine ⟨positive, event.before.now, rfl, standing_snoc.mpr (.inl ⟨?_, rfl⟩), ?_⟩
        · exact (sends .update).mpr rfl
        · intro other inPast _
          exact HealthEvent.after_now permitted ▸ clock other inPast
      · simp [member', member, standing_snoc, sends]
  | refused rest nonpositive lock member' ready pending sends =>
      obtain ⟨unlocked, locked⟩ := recorded.lock_kept (lock.trans sameLock)
        (fun positive => absurd positive (not_lt.mpr nonpositive)) (mt (sends .unlock).mp (by decide))
      exact ⟨clock, unlocked, locked, by simp [member', member, standing_snoc, sends], stage⟩
  | extend rest lock member' ready pending sends =>
      obtain ⟨unlocked, locked⟩ := recorded.lock_kept (lock.trans sameLock)
        (fun _ => mt (sends .update).mp (by decide)) (mt (sends .unlock).mp (by decide))
      exact ⟨clock, unlocked, locked, by simp [member', standing_snoc, sends], stage⟩
  | shrink rest lock member' ready pending sends =>
      obtain ⟨unlocked, locked⟩ := recorded.lock_kept (lock.trans sameLock)
        (fun _ => mt (sends .update).mp (by decide)) (mt (sends .unlock).mp (by decide))
      exact ⟨clock, unlocked, locked, by simp [member', standing_snoc, sends], stage⟩
  | unlock rest lock member' ready pending sends =>
      refine ⟨clock, fun _ _ => by simp [standing_snoc, sends], fun held isHeld => ?_, ?_, stage⟩
      · rw [lock] at isHeld
        cases isHeld
      · simp [member', member, standing_snoc, sends]

theorem HealthRecord.of_run {start : HealthPool} (noMembers : start.pool.members = ∅)
    (noLocks : start.pool.locks.locks = fun _ => none) (idle : start.pending = fun _ => [])
    (run : HealthRun timeout start past s) : HealthRecord timeout thread past s := by
  have free : start.lock? thread = none := congrFun noLocks thread
  have recorded : HealthRecord timeout thread [] start := by
    refine ⟨by simp, fun _ _ => not_standing_nil, ?_, ?_, ?_⟩
    · intro held isHeld
      rw [free] at isHeld
      cases isHeld
    · simp [noMembers, not_standing_nil]
    · rw [idle]
      exact .idle fun isMember => absurd isMember (by simp [noMembers])
  exact run.history (HealthRecord timeout thread) (fun _ _ _ _ recorded step => recorded.step step)
    recorded

theorem HealthRecord.status_iff (recorded : HealthRecord timeout thread past s) (late elapsed : Nat) :
    (RedisLock.get? late (s.advance elapsed).pool.locks thread).isSome = true ↔
      0 < timeout ∧ Standing
        (fun event => event.Sends thread .update ∧
          s.now + elapsed < event.before.now + 1000 * timeout.toNat + late)
        (·.Sends thread .unlock) past := by
  have entry : (s.advance elapsed).pool.locks.locks thread = s.lock? thread := rfl
  rw [RedisLock.get?, entry]
  cases lock : s.lock? thread with
  | none =>
      refine iff_of_false (by simp) ?_
      rintro ⟨positive, standing⟩
      exact recorded.unlocked lock positive (standing.imp fun _ _ opened => opened.1)
  | some held =>
      obtain ⟨positive, instant, rfl, standing, latest⟩ := recorded.locked held lock
      have now : (s.advance elapsed).pool.locks.now = s.now + elapsed := rfl
      rw [now, Option.isSome_filter, Option.any_some, StringKey.served, decide_eq_true_eq]
      constructor
      · intro within
        refine ⟨positive, standing.imp fun event _ opened => ⟨opened.1, ?_⟩⟩
        rw [opened.2]
        exact within
      · rintro ⟨_, beating⟩
        obtain ⟨event, inPast, sends, within⟩ := beating.opened
        have := latest event inPast sends
        omega

end Run

/-- Threads register, renew and leave in any interleaving, and a health check reads the members
and then, after more of it, their locks.  It counts as locked the threads that registered and have
updated within `timeout` without giving the lock up, and as free the other registered ones; a
registered thread has always updated. -/
theorem threadHealth_reports (timeout : Int) (late elapsed : Nat) {start s₁ s₂ : HealthPool}
    {past between : List HealthEvent} (noMembers : start.pool.members = ∅)
    (noLocks : start.pool.locks.locks = fun _ => none) (idle : start.pending = fun _ => [])
    (before : HealthRun timeout start past s₁) (meanwhile : HealthRun timeout s₁ between s₂)
    {keys : List String} (lists : Lists keys s₁.pool.members) :
    let registered := {thread | Standing (·.Sends thread .extend) (·.Sends thread .shrink) past}
    let beating := {thread | 0 < timeout ∧ Standing
      (fun event : HealthEvent => event.Sends thread .update ∧
        s₂.now + elapsed < event.before.now + 1000 * timeout.toNat + late)
      (·.Sends thread .unlock) (past ++ between)}
    healthCheck (RedisLockPool.getKeyLockStatus late (s₂.advance elapsed).pool.locks keys) =
        ((registered ∩ beating).ncard, (registered \ beating).ncard) ∧
      ∀ thread ∈ registered,
        0 < timeout ∧ Standing (·.Sends thread .update) (·.Sends thread .unlock) past := by
  intro registered beating
  have recorded₁ (thread : String) : HealthRecord timeout thread past s₁ :=
    .of_run noMembers noLocks idle before
  have recorded₂ (thread : String) : HealthRecord timeout thread (past ++ between) s₂ :=
    meanwhile.history (HealthRecord timeout thread) (fun _ _ _ _ recorded step => recorded.step step)
      (recorded₁ thread)
  have isMember : registered = s₁.pool.members := by
    ext thread
    exact (recorded₁ thread).member.symm
  refine ⟨?_, fun thread isRegistered => ?_⟩
  · have locked : ((s₁.pool.members.filter fun thread =>
        (RedisLock.get? late (s₂.advance elapsed).pool.locks thread).isSome = true : Finset String) :
          Set String) = registered ∩ beating := by
      ext thread
      rw [Finset.coe_filter, isMember]
      exact and_congr Iff.rfl ((recorded₂ thread).status_iff late elapsed)
    rw [RedisLockPool.getKeyLockStatus, healthCheck_lists lists, ← Set.sdiff_self_inter, ← locked,
      isMember, ← Finset.coe_sdiff, Set.ncard_coe_finset, Set.ncard_coe_finset,
      Finset.card_sdiff_of_subset (Finset.filter_subset ..)]
  · rw [isMember, Finset.mem_coe] at isRegistered
    cases lock : s₁.lock? thread with
    | none => exact absurd lock ((recorded₁ thread).stage.backed isRegistered)
    | some held =>
        obtain ⟨positive, _, _, standing, _⟩ := (recorded₁ thread).locked held lock
        exact ⟨positive, standing.imp fun _ _ opened => opened.1⟩

def healthStart : HealthPool := ⟨⟨∅, Redis.empty 0⟩, fun _ => []⟩

def healthCall : HealthEvent := ⟨healthStart.advance 0, .call "7" .initialise⟩

def healthUpdate : HealthEvent := ⟨(healthCall.after 10).advance 0, .send "7"⟩

def healthExtend : HealthEvent := ⟨(healthUpdate.after 10).advance 5, .send "7"⟩

def healthLeave : HealthEvent := ⟨(healthExtend.after 10).advance 2000, .call "7" .finalize⟩

theorem health_run :
    HealthRun 10 healthStart [healthCall, healthUpdate, healthExtend] (healthExtend.after 10) :=
  .fire ⟨⟨0, rfl⟩, rfl, rfl⟩ (.fire ⟨⟨0, rfl⟩, List.cons_ne_nil _ _, rfl⟩
    (.fire ⟨⟨5, rfl⟩, List.cons_ne_nil _ _, rfl⟩ (.done _)))

theorem health_leaves : HealthRun 10 (healthExtend.after 10) [healthLeave] (healthLeave.after 10) :=
  .fire ⟨⟨2000, rfl⟩, rfl, rfl⟩ (.done _)

theorem threadHealth_reports_sample :
    let past := [healthCall, healthUpdate, healthExtend]
    let registered := {thread | Standing (·.Sends thread .extend) (·.Sends thread .shrink) past}
    let beating := {thread | 0 < (10 : Int) ∧ Standing
      (fun event : HealthEvent => event.Sends thread .update ∧
        (healthLeave.after 10).now + 1 < event.before.now + 1000 * (10 : Int).toNat + 0)
      (·.Sends thread .unlock) (past ++ [healthLeave])}
    healthCheck (RedisLockPool.getKeyLockStatus 0
        ((healthLeave.after 10).advance 1).pool.locks ["7"]) =
        ((registered ∩ beating).ncard, (registered \ beating).ncard) ∧
      ∀ thread ∈ registered,
        0 < (10 : Int) ∧ Standing (·.Sends thread .update) (·.Sends thread .unlock) past :=
  threadHealth_reports 10 0 1 rfl rfl rfl health_run health_leaves ⟨by decide, by decide⟩

end RedisAllocator

import RedisAllocator.Objects.Locks
import RedisAllocator.Pool.Runs

/-!
# Allocation objects beside the pool

`RedisAllocatorObject`: heartbeats, health marks and releases, each a short list
of single commands that other clients' commands fall between.  A heartbeat or an
unhealthy mark can put a lock on a key that waits in the free list.  The scripts
cope with such keys, except `_free_script`, which reads a lock as proof that the
key is not queued.
-/

set_option autoImplicit false

namespace RedisAllocator

open AbortableScript AbortableScript.Script NeighbourList LabelledRun

/-! ## Methods as lists of commands -/

/-- What reaches Redis at once: a script of the pool or one command on a lock. -/
inductive Step
  | pool (call : Call)
  | lockUpdate (key value : String) (timeout : Timeout)
  | unlock (key : String)

def Step.script (allocator : Allocator) : Step → LuaScript (Option String)
  | .pool call => call.perform allocator.shared
  | .lockUpdate key value timeout => do RedisAllocator.lockUpdate key value timeout; pure none
  | .unlock key => do let _ ← RedisAllocator.unlock key; pure none

/-- `RedisAllocatorObject` as far as Redis is concerned; `name` is that of the wrapped object. -/
structure AllocatorObject where
  key : String
  name : Option String
  released : Bool

inductive Method
  | update (timeout : Timeout)
  | setHealthy (duration : Timeout)
  | setUnhealthy (duration : Timeout)
  | release (timeout : Int)

namespace AllocatorObject

variable (allocator : Allocator) (object : AllocatorObject)

/-- `self.allocator.update` or `self.allocator.free`. -/
def updateSteps (positive : Prop) [Decidable positive] (timeout : Timeout) : List Step :=
  if positive then [.lockUpdate object.key "1" timeout] else [.pool (.freeKeys [object.key] (-1))]

/-- `timeout > 0` raises a `TypeError` unless `timeout` is a number. -/
def update : Timeout → List Step
  | .int seconds => object.updateSteps (0 < seconds) (.int seconds)
  | .float seconds => object.updateSteps (0 < seconds) (.float seconds)
  | .timedelta _ => []
  | .none => []

def setHealthy (duration : Timeout) : List Step :=
  (match object.name with
    | some name => [.lockUpdate (allocator.softBindName name) object.key duration]
    | none => []) ++
  if allocator.shared then [.unlock object.key] else []

def setUnhealthy (duration : Timeout) : List Step :=
  (match object.name with
    | some name => [.unlock (allocator.softBindName name)]
    | none => []) ++
  [.lockUpdate object.key "1" duration]

def release (timeout : Int) : List Step :=
  if object.released then [] else [.pool (.freeKeys [object.key] timeout)]

def steps : Method → List Step
  | .update timeout => object.update timeout
  | .setHealthy duration => object.setHealthy allocator duration
  | .setUnhealthy duration => object.setUnhealthy allocator duration
  | .release timeout => object.release timeout

end AllocatorObject

/-! ## Sessions -/

/-- The pool, the objects that `malloc` handed out, and what is left of the methods begun. -/
structure Session where
  redis : Redis
  objects : List AllocatorObject
  running : List (List Step)

inductive Move
  | pool (call : Call)
  | malloc (timeout : Timeout) (name : Option String) (cacheTimeout : Timeout)
  | begin (object : Nat) (method : Method)
  | go (thread : Nat)

structure MoveEvent where
  before : Session
  move : Move

namespace MoveEvent

variable (allocator : Allocator) (event : MoveEvent)

/-- The command of a move; beginning a method sends none. -/
def step? : Option Step :=
  match event.move with
  | .pool call => some (.pool call)
  | .malloc timeout name cacheTimeout => some (.pool (.mallocKey timeout name cacheTimeout))
  | .begin _ _ => none
  | .go thread => (event.before.running[thread]?).bind List.head?

def script : LuaScript (Option String) :=
  match event.step? with
  | some step => step.script allocator
  | none => pure none

def reply : Except Failure (Option String) := (event.script allocator event.before.redis).1

def objectsAfter : List AllocatorObject :=
  match event.move with
  | .malloc _ name _ =>
    match event.reply allocator with
    | .ok (some key) => event.before.objects ++ [⟨key, name, false⟩]
    | _ => event.before.objects
  | .begin object (.release _) =>
    event.before.objects.modify object fun o => { o with released := true }
  | _ => event.before.objects

/-- An error ends the method that met it. -/
def runningAfter : List (List Step) :=
  match event.move with
  | .begin object method =>
    match event.before.objects[object]? with
    | some o => event.before.running ++ [o.steps allocator method]
    | none => event.before.running
  | .go thread => event.before.running.modify thread fun steps =>
    match event.reply allocator with
    | .ok _ => steps.tail
    | .error _ => []
  | _ => event.before.running

def after : Session where
  redis := (event.script allocator event.before.redis).2
  objects := event.objectsAfter allocator
  running := event.runningAfter allocator

end MoveEvent

def MoveStep (allocator : Allocator) (session : Session) (event : MoveEvent) (session' : Session) :
    Prop :=
  (∃ elapsed, event.before = { session with redis := session.redis.advance elapsed }) ∧
  (∀ call, event.step? = some (.pool call) → call.Admissible event.before.redis) ∧
  session' = event.after allocator

abbrev MoveRun (allocator : Allocator) : Session → List MoveEvent → Session → Prop :=
  Run (MoveStep allocator)

/-! ## Which releases are safe -/

def Redis.queued (s : Redis) (k : String) : Bool :=
  (s.hget k).any fun val => decide (val.prev ≠ allocatedSentinel)

/-- The move frees no key that is queued and has a live lock. -/
def MoveEvent.FreesSafely (event : MoveEvent) : Prop :=
  ∀ keys timeout, event.step? = some (.pool (.freeKeys keys timeout)) →
    ∀ k ∈ keys, ¬ (event.before.redis.queued k = true ∧ event.before.redis.locked k = true)

section Session

variable {allocator : Allocator} {s s' : Redis} {p : FreePool String}

theorem Represents.queued_iff (rep : Represents s p) (k : String) :
    s.queued k = true ↔ k ∈ p.free := by
  rw [Redis.queued]
  cases stored : s.hget k with
  | none =>
      have noMember := (rep.hget_none_iff k).mp stored
      simpa using p.notMem_free_of_expiry_none noMember
  | some val =>
      have marked := rep.prev_eq_sentinel_iff stored
      simp only [Option.any_some, decide_eq_true_eq, ne_eq, marked, not_not]

theorem Represents.of_besidesLocks (rep : Represents s p)
    (same : s'.besidesLocks = s.besidesLocks) : Represents s' p := by
  simp only [Redis.besidesLocks, Prod.mk.injEq] at same
  obtain ⟨_, pool, head, tail⟩ := same
  exact rep.of_outside_pool pool head tail

theorem lockUpdate_orderly (key value : String) (timeout : Timeout) :
    Orderly (lockUpdate key value timeout s).1 := by
  have sending : ∀ ex, Orderly (Command.setLock key value ex s).1 := by
    intro ex
    cases ex with
    | none => exact .ok _
    | some seconds =>
        by_cases positive : 0 < seconds
        · rw [setLock_ex s positive]
          exact .ok _
        · rw [setLock_ex_refused s (not_lt.mp positive)]
          exact .error (by simp) (by simp)
  cases timeout with
  | float seconds => exact .error (by simp) (by simp)
  | _ => exact sending _

theorem Step.represents (rep : Represents s p) (step : Step)
    (admissible : ∀ call, step = .pool call → call.Admissible s)
    (safe : ∀ keys timeout, step = .pool (.freeKeys keys timeout) →
      ∀ k ∈ keys, ¬ (s.queued k = true ∧ s.locked k = true)) :
    Orderly (step.script allocator s).1 ∧ ∃ p', Represents (step.script allocator s).2 p' := by
  cases step with
  | pool call =>
      have sound : Sound (fun k => ∃ keys timeout, call = .freeKeys keys timeout ∧ k ∈ keys) s p :=
        ⟨rep, fun k present named => by
          obtain ⟨keys, timeout, rfl, inKeys⟩ := named
          by_contra locked
          exact safe keys timeout rfl k inKeys
            ⟨(rep.queued_iff k).mpr present, by simpa using locked⟩⟩
      obtain ⟨orderly, p', sound', _⟩ := call_sound sound allocator.shared call
        (admissible call rfl) (fun keys timeout same k inKeys => ⟨keys, timeout, same, inKeys⟩)
      exact ⟨orderly, p', sound'.rep⟩
  | lockUpdate key value timeout =>
      have kept : ∃ p',
          Sound (fun _ => False) (RedisAllocator.lockUpdate key value timeout s).2 p' ∧ True :=
        ⟨p, ⟨rep.of_besidesLocks (lockUpdate_keeps key value timeout s), fun _ _ no => no.elim⟩,
          trivial⟩
      obtain ⟨orderly, p', sound', _⟩ :=
        discard_sound rfl (lockUpdate_orderly key value timeout) kept
      exact ⟨orderly, p', sound'.rep⟩
  | unlock key =>
      have run : Step.script allocator (.unlock key) s = (.ok none, s.putLock key none) := by
        rw [Step.script, bind_ok (unlock_run key s)]
        rfl
      rw [run]
      exact ⟨.ok _, p, rep.of_outside_pool rfl rfl rfl⟩

theorem MoveEvent.represents (allocator : Allocator) {event : MoveEvent}
    (rep : Represents event.before.redis p)
    (admissible : ∀ call, event.step? = some (.pool call) → call.Admissible event.before.redis)
    (safe : event.FreesSafely) :
    Orderly (event.reply allocator) ∧ ∃ p', Represents (event.after allocator).redis p' := by
  rw [MoveEvent.reply, MoveEvent.after, MoveEvent.script]
  cases found : event.step? with
  | none => exact ⟨.ok _, p, rep⟩
  | some step =>
      exact step.represents rep (fun call same => admissible call (by rw [found, same]))
        (fun keys timeout same => safe keys timeout (by rw [found, same]))

/-- If no key is freed while it is queued and locked, heartbeats, health marks and releases leave
the pool well formed in every state, and no assert fails. -/
theorem moveRun_wellFormed {start final : Session} {events : List MoveEvent}
    (noEntry : start.redis.pool = ∅) (head : start.redis.headPointer = "")
    (tail : start.redis.tailPointer = "") (run : MoveRun allocator start events final)
    (safe : ∀ event ∈ events, event.FreesSafely) :
    ∀ event ∈ events,
      (∃ L, WellFormed (event.after allocator).redis L) ∧
      (∀ message, event.reply allocator ≠ .error (.assertion message)) ∧
      event.reply allocator ≠ .error .recursionLimit := by
  have advanced : ∀ {session : Session} {event : MoveEvent} {p : FreePool String},
      Represents session.redis p →
      (∃ elapsed, event.before = { session with redis := session.redis.advance elapsed }) →
      Represents event.before.redis p := by
    rintro session event p rep ⟨elapsed, later⟩
    rw [later]
    exact rep.of_outside_pool rfl rfl rfl
  intro event inEvents
  obtain ⟨session, _, ⟨p, rep⟩, later, admissible, _⟩ :=
    run.fired (fun session => ∃ p, Represents session.redis p) MoveEvent.FreesSafely
    (fun session event session' holds safe step => by
      obtain ⟨p, rep⟩ := holds
      obtain ⟨later, admissible, rfl⟩ := step
      exact (MoveEvent.represents allocator (advanced rep later) admissible safe).2)
    ⟨_, (empty_sound (S := fun _ => False) noEntry head tail).rep⟩ safe event inEvents
  obtain ⟨orderly, p', rep'⟩ :=
    MoveEvent.represents allocator (advanced rep later) admissible (safe event inEvents)
  refine ⟨⟨p'.free, rep'.wellFormed⟩, fun message same => ?_, fun same => ?_⟩
  · exact (orderly _ same).1 message rfl
  · exact (orderly _ same).2 rfl

end Session

/-! ## A heartbeat and a release -/

def heartbeatAllocator (shared : Bool) : Allocator := ⟨"app", "allocator", shared⟩

/-- A pool with one key: it is handed out, its holder sends a heartbeat and then releases it. -/
def heartbeatEvents (shared : Bool) : List MoveEvent :=
  let allocator := heartbeatAllocator shared
  let extend : MoveEvent := ⟨⟨Redis.empty 0, [], []⟩, .pool (.extend ["k"] none)⟩
  let malloc : MoveEvent := ⟨extend.after allocator, .malloc (.int 30) none (.int 60)⟩
  let update : MoveEvent := ⟨malloc.after allocator, .begin 0 (.update (.int 10))⟩
  let updated : MoveEvent := ⟨update.after allocator, .go 0⟩
  let release : MoveEvent := ⟨updated.after allocator, .begin 0 (.release (-1))⟩
  [extend, malloc, update, updated, release, ⟨release.after allocator, .go 1⟩]

def heartbeatRelease (shared : Bool) : MoveEvent :=
  (heartbeatEvents shared).getLast (List.cons_ne_nil _ _)

def heartbeatEnd (shared : Bool) : Session :=
  (heartbeatRelease shared).after (heartbeatAllocator shared)

theorem heartbeat_run (shared : Bool) :
    MoveRun (heartbeatAllocator shared) ⟨Redis.empty 0, [], []⟩ (heartbeatEvents shared)
      (heartbeatEnd shared) := by
  have idle : ∀ session : Session,
      session = { session with redis := session.redis.advance 0 } := fun _ => rfl
  cases shared <;>
  · refine .fire ⟨⟨0, idle _⟩, ?_, rfl⟩ (.fire ⟨⟨0, idle _⟩, ?_, rfl⟩ (.fire ⟨⟨0, idle _⟩, ?_, rfl⟩
      (.fire ⟨⟨0, idle _⟩, ?_, rfl⟩ (.fire ⟨⟨0, idle _⟩, ?_, rfl⟩ (.fire ⟨⟨0, idle _⟩, ?_, rfl⟩
        (.done _)))))) <;>
    · rintro _ ⟨⟩ <;> trivial

theorem heartbeat_safe : ∀ event ∈ heartbeatEvents false, event.FreesSafely := by
  simp only [heartbeatEvents, List.forall_mem_cons, List.not_mem_nil, false_implies, implies_true,
    and_true]
  refine ⟨?_, ?_, ?_, ?_, ?_, ?_⟩ <;> rintro keys timeout ⟨⟩
  decide

theorem moveRun_wellFormed_heartbeat :
    (∃ L, WellFormed (heartbeatEnd false).redis L) ∧
    (∀ message,
      (heartbeatRelease false).reply (heartbeatAllocator false) ≠ .error (.assertion message)) ∧
    (heartbeatRelease false).reply (heartbeatAllocator false) ≠ .error .recursionLimit :=
  moveRun_wellFormed rfl rfl rfl (heartbeat_run false) heartbeat_safe (heartbeatRelease false)
    (List.getLast_mem _)

theorem not_wellFormed_of_selfLoop {s : Redis} {k : String} {e : Int} (named : Nameable k)
    (stored : s.hget k = some ⟨k, k, e⟩) : ¬ ∃ L, WellFormed s L := by
  rintro ⟨L, wellFormed⟩
  by_cases present : k ∈ L
  · have noNil : "" ∉ L := fun nil =>
      (wellFormed.named "" (wellFormed.member "" nil)).1 rfl
    exact predIn_ne_self present wellFormed.nodup noNil
      (wellFormed.linked k present _ stored).1.symm
  · exact named.2 (wellFormed.marked k present _ stored).1

/-- In shared mode the key stayed in the free list, and the release links it to itself. -/
theorem heartbeat_corrupts :
    MoveRun (heartbeatAllocator true) ⟨Redis.empty 0, [], []⟩ (heartbeatEvents true)
        (heartbeatEnd true) ∧
      ¬ ∃ L, WellFormed (heartbeatEnd true).redis L := by
  exact ⟨heartbeat_run _, not_wellFormed_of_selfLoop (k := "k") (e := -1) ⟨by decide, by decide⟩ rfl⟩

end RedisAllocator

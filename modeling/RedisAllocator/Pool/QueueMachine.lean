import RedisAllocator.Lib.Replay
import RedisAllocator.Pool.FreeList
import RedisAllocator.Pool.Sweep

/-!
# The allocator as a queue

The allocator without its pointers: a queue of free keys beside the clock, the
garbage collector's cursor, the locks and the bindings.  Each method is one
operation on it.  Replaying the calls of a run on this machine gives the replies
of the scripts, the error replies included, and the queue that their pointers
represent at the end.
-/

set_option autoImplicit false

namespace RedisAllocator

open AbortableScript AbortableScript.Script LabelledRun

def FreePool.requeue {K : Type} [DecidableEq K] (p : FreePool K) (k : K) : FreePool K :=
  match p.expiry k with
  | none => p
  | some e => p.giveBack (fun _ => true) e k

structure QueueAllocator where
  now : Nat
  pool : FreePool String
  gcCursor : Option String
  locks : String → Option StringKey
  binds : String → Option StringKey

namespace QueueAllocator

variable (a : QueueAllocator)

/-! ## The machine -/

def time : Int := (a.now / 1000 : Nat)

def expired (expiry : Int) : Bool := 0 < expiry && expiry ≤ a.time

def locked (k : String) : Bool := ((a.locks k).filter (·.live a.now)).isSome

def expiryAfter (timeout : Int) : Int := if timeout ≤ 0 then -1 else a.time + timeout

def deadline (seconds : Int) : Nat := a.now + 1000 * seconds.toNat

def written (value : String) (seconds : Int) : StringKey :=
  ⟨value, if 0 < seconds then some (a.deadline seconds) else none⟩

def unlockAll (keys : List String) : String → Option StringKey :=
  fun k => if k ∈ keys then none else a.locks k

def bound? (name : String) : Option StringKey := (a.binds name).filter (·.live a.now)

/-- The key that a name is bound to, if it can be handed out. -/
def boundKey (name : String) : Option String :=
  if name = "" then none
  else ((a.bound? name).map StringKey.value).filter
    fun k => (a.pool.expiry k).isSome && !a.locked k

def bind (name : String) (cacheTimeout : Int) (k : String) : QueueAllocator :=
  if name = "" then a
  else { a with binds := Function.update a.binds name (some (a.written k cacheTimeout)) }

def forget (name : String) : QueueAllocator :=
  if name = "" ∨ a.bound? name = none then a
  else { a with binds := Function.update a.binds name none }

def lock (k : String) (timeout : Int) : QueueAllocator :=
  { a with locks := Function.update a.locks k (some (a.written "1" timeout)) }

def extend (keys : List String) (timeout : Option Int) : Except Failure Unit × QueueAllocator :=
  match validateKeys keys with
  | .error e => (.error (.valueError e), a)
  | .ok () => (.ok (),
    { a with
      pool := keys.foldl (·.join (a.expiryAfter (timeout.getD (-1))) ·) a.pool
      locks := a.unlockAll (a.pool.newIn keys) })

def shrink (keys : List String) : QueueAllocator :=
  { a with pool := keys.foldl FreePool.remove a.pool }

def clear : QueueAllocator := { a with pool := .empty }

def assign (keys : List String) (timeout : Int) (allItems pairs : List String) :
    Except Failure Unit × QueueAllocator :=
  match validateKeys keys with
  | .error e => (.error (.valueError e), a)
  | .ok () => (.ok (),
    { a with
      pool := a.pool.assign (a.expiryAfter timeout) keys allItems pairs
      locks := a.unlockAll (a.pool.newIn pairs) })

def poppedPool (shared : Bool) : FreePool String :=
  match a.pool.available a.expired a.locked with
  | none => a.pool.afterPop a.expired a.locked
  | some k =>
    if shared then (a.pool.afterPop a.expired a.locked).requeue k
    else a.pool.afterPop a.expired a.locked

def pop (shared : Bool) (timeout : Int) (name : String) (cacheTimeout : Int) :
    Option String × QueueAllocator :=
  let first := a.pool.available a.expired a.locked
  let popped := { a with pool := a.poppedPool shared }
  match first with
  | none => (none, popped)
  | some k => (some k, ((if shared then popped else popped.lock k timeout).bind name cacheTimeout k))

def mallocKey (shared : Bool) (timeout : Int) (name : String) (cacheTimeout : Int) :
    Except Failure (Option String) × QueueAllocator :=
  match a.boundKey name with
  | none =>
    let (popped, a') := (a.forget name).pop shared timeout name cacheTimeout
    (.ok popped, a')
  | some k =>
    let renewed := a.bind name cacheTimeout k
    if shared then (.ok (some k), renewed)
    else
      let taken := { renewed with pool := a.pool.take k }
      if 0 < timeout then (.ok (some k), taken.lock k timeout)
      else (.error (.command "ERR invalid expire time in 'set' command"), taken)

def freeKeys (keys : List String) (timeout : Int) : QueueAllocator :=
  { a with
    pool := keys.foldl (·.giveBack a.locked (a.expiryAfter timeout) ·) a.pool
    locks := a.unlockAll keys }

def cursor : String :=
  match a.gcCursor with
  | none => "0"
  | some cursor => if cursor = "" then "0" else cursor

def gc (count : Int) (hscan : String → Int → ScanReply) : Except Failure Unit × QueueAllocator :=
  if 0 < count then
    (.ok (),
      { a with
        pool := (hscan a.cursor count).items.foldl (·.collect a.expired a.locked ·) a.pool
        gcCursor := some (hscan a.cursor count).cursor })
  else (.error (.assertionError "count should be positive"), a)

def perform (shared : Bool) : Call → Except Failure (Option String) × QueueAllocator
  | .extend keys timeout => ((a.extend keys timeout).1.map fun _ => none, (a.extend keys timeout).2)
  | .shrink keys => (.ok none, a.shrink keys)
  | .assign keys timeout allItems pairs =>
    ((a.assign keys timeout allItems pairs).1.map fun _ => none,
      (a.assign keys timeout allItems pairs).2)
  | .clear => (.ok none, a.clear)
  | .mallocKey timeout name cacheTimeout =>
    a.mallocKey shared timeout.wholeSeconds (name.getD "") cacheTimeout.wholeSeconds
  | .freeKeys keys timeout => (.ok none, a.freeKeys keys timeout)
  | .gc count hscan => ((a.gc count hscan).1.map fun _ => none, (a.gc count hscan).2)

end QueueAllocator

/-- A call at an instant -/
structure Request where
  now : Nat
  call : Call

def Event.request (event : Event) : Request := ⟨event.before.now, event.call⟩

def QueueAllocator.respond (shared : Bool) (request : Request) (a : QueueAllocator) :
    Except Failure (Option String) × QueueAllocator :=
  { a with now := request.now }.perform shared request.call

/-! ## The scripts compute the machine -/

/-- What the machine sees of `s` when the pointers represent `p`. -/
def Redis.queueView (s : Redis) (p : FreePool String) : QueueAllocator :=
  ⟨s.now, p, s.gcCursor, s.locks, s.binds⟩

theorem Redis.queueView_congr {s t : Redis} (same : s.outside = t.outside) (p : FreePool String) :
    s.queueView p = t.queueView p := by
  simp only [outside, Prod.mk.injEq] at same
  obtain ⟨now, cursor, locks, binds⟩ := same
  rw [queueView, queueView, now, cursor, locks, binds]

/-- The script replies like the machine, and leaves a state that represents the machine's queue. -/
def Simulates {α : Type} (x : LuaScript α) (s : Redis) (outcome : Except Failure α × QueueAllocator) :
    Prop :=
  (x s).1 = outcome.1 ∧ Represents (x s).2 outcome.2.pool ∧
    outcome.2 = (x s).2.queueView outcome.2.pool

section Simulates

variable {α : Type} {s t : Redis} {p : FreePool String}

theorem Completes.simulates {x : LuaScript α} {a : α} (done : Completes x s a p t) :
    Simulates x s (.ok a, t.queueView p) := by
  obtain ⟨s', run, rep, frame⟩ := done
  rw [Simulates, run]
  exact ⟨rfl, rep, Redis.queueView_congr frame.symm p⟩

theorem Simulates.of_stopped {x : LuaScript α} {failure : Failure} {s' : Redis}
    (run : x s = (.error failure, s')) (rep : Represents s' p) (frame : s'.outside = t.outside) :
    Simulates x s (.error failure, t.queueView p) := by
  rw [Simulates, run]
  exact ⟨rfl, rep, Redis.queueView_congr frame.symm p⟩

theorem Simulates.discard {x : LuaScript Unit} {outcome : Except Failure Unit × QueueAllocator}
    (simulates : Simulates x s outcome) :
    Simulates (x >>= fun _ => pure none : LuaScript (Option String)) s
      (outcome.1.map fun _ => none, outcome.2) := by
  obtain ⟨reply, after⟩ := outcome
  obtain ⟨same, rest⟩ := simulates
  cases run : x s with
  | mk result s' =>
      rw [run] at same rest
      subst same
      cases result with
      | ok u => rw [Simulates, bind_ok run]; exact ⟨rfl, rest⟩
      | error failure => rw [Simulates, bind_error run]; exact ⟨rfl, rest⟩

theorem raiseInvalid_stops {keys : List String} {e : KeyError}
    (refused : validateKeys keys = .error e) (x : LuaScript α) (rep : Represents s p) :
    Simulates (raiseInvalid keys >>= fun _ => x) s (.error (.valueError e), s.queueView p) := by
  refine Simulates.of_stopped (bind_error ?_) rep rfl
  rw [raiseInvalid, refused]
  rfl

theorem extend_simulates (rep : Represents s p) (keys : List String) (timeout : Option Int) :
    Simulates (extend keys timeout) s ((s.queueView p).extend keys timeout) := by
  rw [QueueAllocator.extend]
  cases valid : validateKeys keys with
  | ok u => exact (extend_completes rep valid timeout).simulates
  | error e =>
      have someKey : keys ≠ [] := fun empty => by rw [empty] at valid; cases valid
      rw [extend, if_neg someKey]
      exact raiseInvalid_stops valid _ rep

theorem assign_simulates (rep : Represents s p) {keys allItems pairs : List String} {timeout : Int}
    (admissible : (Call.assign keys timeout allItems pairs).Admissible s) :
    Simulates (assign keys timeout allItems pairs) s
      ((s.queueView p).assign keys timeout allItems pairs) := by
  rw [QueueAllocator.assign]
  cases valid : validateKeys keys with
  | ok u =>
      obtain ⟨unique, members, once, listed⟩ := rep.listings admissible
      exact (assign_completes rep valid unique members once listed timeout).simulates
  | error e =>
      have someKey : keys ≠ [] := fun empty => by rw [empty] at valid; cases valid
      rw [assign, if_neg someKey]
      exact raiseInvalid_stops valid _ rep

theorem gc_simulates (rep : Represents s p) {count : Int} {hscan : String → Int → ScanReply}
    (admissible : (Call.gc count hscan).Admissible s) :
    Simulates (gc count hscan) s ((s.queueView p).gc count hscan) := by
  rw [QueueAllocator.gc]
  by_cases positive : 0 < count
  · rw [if_pos positive]
    have visits : p.Visits s.isExpiryInvalid s.locked
        (hscan (s.queueView p).cursor count).items := by
      obtain ⟨unique, members⟩ := admissible (s.queueView p).cursor count
      refine FreePool.visits_of_nodup unique fun k inItems => ?_
      rw [← rep.mem_keys_iff]
      exact members (List.mem_toFinset.mpr inItems)
    obtain ⟨s', run, rep', frame⟩ := checkItems_complete rep visits
    have start : gc count hscan s = ((hscan (s.queueView p).cursor count).items.forM
        checkItemHealth >>= fun _ => setCursor (hscan (s.queueView p).cursor count).cursor) s := by
      simp only [gc, if_pos positive, gcScript, getCursor, read_bind_apply]
      rfl
    rw [Simulates, start, bind_ok run]
    simp only [Redis.outside, Prod.mk.injEq] at frame
    obtain ⟨now, _, locks, binds⟩ := frame
    refine ⟨rfl, rep'.of_outside_pool rfl rfl rfl, ?_⟩
    simp only [Redis.queueView, setCursor, write_apply, now, locks, binds]
  · rw [if_neg positive, gc, if_neg positive]
    exact Simulates.of_stopped rfl rep rfl

end Simulates

/-! ### `malloc_key` -/

section MallocKey

variable {s : Redis} {p : FreePool String}

theorem Represents.boundKey_queueView (rep : Represents s p) (name : String) :
    (s.queueView p).boundKey name = s.boundKey name := by
  simp only [QueueAllocator.boundKey, Redis.boundKey, rep.hget_isSome]
  rfl

theorem Redis.queueView_refreshed (s : Redis) (p : FreePool String) (name : String)
    (cacheTimeout : Int) (k : String) :
    (s.refreshed name cacheTimeout k).queueView p = (s.queueView p).bind name cacheTimeout k := by
  rw [Redis.refreshed, QueueAllocator.bind]
  split
  · rfl
  · rfl

theorem Redis.queueView_dropStale (s : Redis) (p : FreePool String) (name : String) :
    (s.dropStale name).queueView p = (s.queueView p).forget name := by
  rw [Redis.dropStale, QueueAllocator.forget]
  by_cases nothing : name = "" ∨ s.bind? name = none
  · have same : name = "" ∨ (s.queueView p).bound? name = none := nothing
    rw [if_pos nothing, if_pos same]
  · have same : ¬ (name = "" ∨ (s.queueView p).bound? name = none) := nothing
    rw [if_neg nothing, if_neg same]
    rfl

theorem Redis.queueView_locked {s : Redis} {p : FreePool String} {name k : String}
    {timeout cacheTimeout : Int} (positive : 0 < timeout) :
    ((s.refreshed name cacheTimeout k).putLock k
      (some ⟨"1", some (s.deadline timeout)⟩)).queueView p =
      ((s.refreshed name cacheTimeout k).queueView p).lock k timeout := by
  have same : s.deadline timeout = (s.refreshed name cacheTimeout k).deadline timeout := by
    rw [deadline, deadline, now_refreshed]
  rw [same, QueueAllocator.lock, QueueAllocator.written, if_pos positive]
  rfl

/-- What comes back to the end of the queue was taken from its head. -/
theorem FreePool.requeue_afterPop {K : Type} [DecidableEq K] {p : FreePool K}
    {expired : Int → Bool} {locked : K → Bool} {k : K} {e : Int}
    (first : p.available expired locked = some k) (found : p.expiry k = some e) :
    (p.afterPop expired locked).requeue k =
      (p.afterPop expired locked).push k e (notMem_free_afterPop first) := by
  have kept : (p.afterPop expired locked).expiry k = some e := by
    rw [expiry_afterPop_of_available first, found]
  rw [requeue, kept]
  exact giveBack_held (by rw [kept]; rfl) rfl (notMem_free_afterPop first)

theorem mallocPop_simulates (rep : Represents s p) (shared : Bool) (timeout : Int) (name : String)
    (cacheTimeout : Int) :
    Simulates (mallocPop shared timeout name cacheTimeout) s
      (.ok ((s.queueView p).pop shared timeout name cacheTimeout).1,
        ((s.queueView p).pop shared timeout name cacheTimeout).2) := by
  have sameFirst : (s.queueView p).pool.available (s.queueView p).expired (s.queueView p).locked =
      p.available s.isExpiryInvalid s.locked := rfl
  simp only [QueueAllocator.pop, QueueAllocator.poppedPool, sameFirst]
  cases first : p.available s.isExpiryInvalid s.locked with
  | none => exact (mallocPop_none timeout cacheTimeout name shared rep first).simulates
  | some k =>
      cases shared with
      | false =>
          have done := (mallocPop_locks timeout cacheTimeout name rep first).simulates
          rw [Redis.queueView_refreshed] at done
          exact done
      | true =>
          obtain ⟨e, found, done⟩ := mallocPop_rotates timeout cacheTimeout name rep first
          have requeued := FreePool.requeue_afterPop first found
          have simulates := done.simulates
          rw [← requeued, Redis.queueView_refreshed] at simulates
          exact simulates

theorem mallocKey_simulates (rep : Represents s p) (shared : Bool) (timeout : Timeout)
    (name : Option String) (cacheTimeout : Timeout) :
    Simulates (mallocKey shared timeout name cacheTimeout) s
      ((s.queueView p).mallocKey shared timeout.wholeSeconds (name.getD "")
        cacheTimeout.wholeSeconds) := by
  rw [QueueAllocator.mallocKey, rep.boundKey_queueView]
  cases bound : s.boundKey (name.getD "") with
  | none =>
      obtain ⟨pool, head, tail, _⟩ := s.dropStale_frame (name.getD "")
      have rep' : Represents (s.dropStale (name.getD "")) p := rep.of_outside_pool pool head tail
      have popped := mallocPop_simulates rep' shared timeout.wholeSeconds (name.getD "")
        cacheTimeout.wholeSeconds
      rw [Redis.queueView_dropStale] at popped
      rw [Simulates, mallocKey_unusable shared timeout cacheTimeout bound]
      exact popped
  | some k =>
      cases shared with
      | true =>
          have done := (mallocScript_binds timeout.wholeSeconds cacheTimeout.wholeSeconds rep
            bound).simulates
          rw [Redis.queueView_refreshed] at done
          exact done
      | false =>
          have renewed : (s.refreshed (name.getD "") cacheTimeout.wholeSeconds k).queueView
              (p.take k) = { (s.queueView p).bind (name.getD "") cacheTimeout.wholeSeconds k with
                pool := p.take k } := by
            rw [Redis.queueView_refreshed, QueueAllocator.bind, QueueAllocator.bind]
            split
            · rfl
            · rfl
          by_cases positive : 0 < timeout.wholeSeconds
          · have done := (mallocScript_binds_locks timeout.wholeSeconds cacheTimeout.wholeSeconds
              rep bound positive).simulates
            rw [Redis.queueView_locked positive, renewed] at done
            simp only [if_pos positive, Bool.false_eq_true, if_false]
            exact done
          · obtain ⟨s', run, rep', frame⟩ := mallocScript_binds_refused timeout.wholeSeconds
              cacheTimeout.wholeSeconds rep bound (not_lt.mp positive)
            have stopped := Simulates.of_stopped run rep' frame
            rw [renewed] at stopped
            simp only [if_neg positive, Bool.false_eq_true, if_false]
            exact stopped

end MallocKey

/-! ## Runs -/

section Runs

variable {s : Redis} {p : FreePool String}

theorem call_simulates (sound : AllSound s p) (shared : Bool) {call : Call}
    (admissible : call.Admissible s) :
    Simulates (call.perform shared) s ((s.queueView p).perform shared call) := by
  have rep := sound.rep
  cases call with
  | extend keys timeout => exact (extend_simulates rep keys timeout).discard
  | shrink keys => exact (shrink_completes rep keys).simulates.discard
  | assign keys timeout allItems pairs => exact (assign_simulates rep admissible).discard
  | clear => exact (clear_completes s).simulates.discard
  | mallocKey timeout name cacheTimeout =>
      exact mallocKey_simulates rep shared timeout name cacheTimeout
  | freeKeys keys timeout =>
      have unlocked : ∀ k ∈ p.free, s.locked k = false :=
        fun k present => sound.unlocked k present trivial
      exact (freeKeys_completes rep unlocked keys timeout).simulates.discard
  | gc count hscan => exact (gc_simulates rep admissible).discard

/-- `s` holds the machine's queue behind its pointers, and no queued key has a live lock. -/
def Redis.Holds (s : Redis) (a : QueueAllocator) : Prop :=
  AllSound s a.pool ∧ a = s.queueView a.pool

theorem CallStep.simulates {shared : Bool} {s s' : Redis} {event : Event} {a : QueueAllocator}
    (holds : s.Holds a) (step : CallStep shared s event s') :
    (a.respond shared event.request).1 = event.reply shared ∧
      s'.Holds (a.respond shared event.request).2 := by
  obtain ⟨sound, view⟩ := holds
  obtain ⟨started, _, p', sound', _⟩ := step.sound sound
  obtain ⟨⟨elapsed, later⟩, admissible, after⟩ := step
  have now : { a with now := event.before.now } = event.before.queueView a.pool := by
    rw [view, later]
    rfl
  obtain ⟨reply, rep, same⟩ := call_simulates started shared admissible
  rw [QueueAllocator.respond, Event.request, now, after]
  have samePool : p' = ((event.before.queueView a.pool).perform shared event.call).2.pool :=
    sound'.rep.unique rep
  exact ⟨reply.symm, samePool ▸ sound', same⟩

theorem CallRun.simulates {shared : Bool} {final : Redis} {events : List Event}
    (run : CallRun shared s events final) (sound : AllSound s p) :
    (replay (QueueAllocator.respond shared) (events.map Event.request) (s.queueView p)).1 =
      events.map (Event.reply shared) ∧
    final.Holds (replay (QueueAllocator.respond shared) (events.map Event.request)
      (s.queueView p)).2 :=
  Run.replays Redis.Holds (fun _ => True) (fun _ _ _ _ holds _ step => step.simulates holds) run
    ⟨sound, rfl⟩ fun _ _ => trivial

end Runs

/-- From an empty pool on, whatever the clients call and whatever orders Redis and Lua choose, the
scripts reply what the queue machine replies to the same calls at the same instants, and in the end
the pointers hold its queue, with its locks, bindings and cursor. -/
theorem callRun_replays (shared : Bool) {start final : Redis} {events : List Event}
    (noEntry : start.pool = ∅) (head : start.headPointer = "") (tail : start.tailPointer = "")
    (run : CallRun shared start events final) :
    ∃ p, WellFormed final p.free ∧ final.expiryOf = p.expiry ∧
      replay (QueueAllocator.respond shared) (events.map Event.request)
        (start.queueView FreePool.empty) = (events.map (Event.reply shared), final.queueView p) := by
  obtain ⟨replies, sound, view⟩ := CallRun.simulates run (empty_sound noEntry head tail)
  exact ⟨_, sound.rep.wellFormed, sound.rep.expiryOf, Prod.ext replies view⟩

theorem callRun_replays_sample :
    ∃ p, WellFormed (sampleMalloc.after false) p.free ∧
      (sampleMalloc.after false).expiryOf = p.expiry ∧
      replay (QueueAllocator.respond false) ([sampleStart, sampleMalloc].map Event.request)
        ((Redis.empty 0).queueView FreePool.empty) =
          ([sampleStart, sampleMalloc].map (Event.reply false),
            (sampleMalloc.after false).queueView p) :=
  callRun_replays false rfl rfl rfl sample_run

end RedisAllocator

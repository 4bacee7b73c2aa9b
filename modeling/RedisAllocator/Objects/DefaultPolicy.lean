import RedisAllocator.Allocator.Policy
import RedisAllocator.Locks.LockClasses
import RedisAllocator.Objects.KeyNames

/-!
# `malloc` of the default policy

`DefaultRedisAllocatorPolicy.malloc` tries the update lock, refreshes the pool if
it got it, collects garbage and then calls `malloc_key`.  Between any two of these
commands other clients are served, so each finds a state of its own.
-/

set_option autoImplicit false

namespace RedisAllocator

structure DefaultPolicy (Param : Type) extends Policy Param where
  gcCount : Int
  updateInterval : Int
  autoClose : Bool

/-- `_update_lock_key`, which `lock` puts behind the prefix of the resource locks. -/
def Allocator.updateLockKey (allocator : Allocator) : String :=
  allocator.poolStr ++ "|policy_update_lock"

/-- What a Python method raises: an error of a command, of the caller's own code, or the
`RuntimeError` of `refresh_until_healthy`. -/
inductive Raised (Error : Type)
  | redis (failure : Failure)
  | outside (error : Error)
  | stillUnhealthy (maxAttempts : Nat)
deriving DecidableEq

/-- What one `malloc` meets: whether the five-second cache answers for `_try_refresh_pool`, the
choices of a refresh and of HSCAN, and the state in which each command runs. -/
structure MallocTurn (Param Error : Type) where
  cached : Bool
  atLock : Redis
  refresh : Refresh Param Error
  atRefresh : Redis
  hscan : String → Int → ScanReply
  atGc : Redis
  atMalloc : Redis

/-! ## Results of steps that may raise -/

theorem except_bind_ok {ε α β : Type} {x : Except ε α} {f : α → Except ε β} {result : β}
    (ok : (x >>= f) = .ok result) : ∃ a, x = .ok a ∧ f a = .ok result := by
  cases x with
  | error _ => cases ok
  | ok a => exact ⟨a, rfl, ok⟩

theorem except_mapError_ok {ε ε' α : Type} {x : Except ε α} {f : ε → ε'} {a : α}
    (ok : x.mapError f = .ok a) : x = .ok a := by
  cases x with
  | error _ => cases ok
  | ok _ =>
      cases ok
      rfl

/-! ## The policy -/

section DefaultPolicy

variable {Param Error : Type}

def Policy.fetchError (policy : Policy Param) (refresh : Refresh Param Error) (n : Nat) :
    Option Error :=
  match policy.updater with
  | none => none
  | some updater =>
    match (updater.collect refresh.fetch n []).1 with
    | .error error => some error
    | .ok _ => none

namespace DefaultPolicy

variable (policy : DefaultPolicy Param) (allocator : Allocator)

/-- `allocator.lock(self._update_lock_key, timeout=self.update_interval)` -/
def lockUpdates : LuaScript Bool :=
  RedisLock.lock 0 allocator.updateLockKey "1" (.int policy.updateInterval)

def tryRefreshPool (turn : MallocTurn Param Error) : Except (Raised Error) Unit :=
  if turn.cached ∨ policy.updater.isNone then .ok ()
  else do
    let acquired ← (policy.lockUpdates allocator turn.atLock).1.mapError .redis
    if acquired then
      match policy.fetchError turn.refresh 1, (policy.refreshPool turn.refresh 1).1 with
      | some error, _ => .error (.outside error)
      | none, none => .ok ()
      | none, some call => do
        let _ ← (call.perform allocator.shared turn.atRefresh).1.mapError .redis
        .ok ()
    else .ok ()

def malloc (timeout cacheTimeout : Timeout) (name : Option String) (turn : MallocTurn Param Error) :
    Except (Raised Error) (Option String) := do
  policy.tryRefreshPool allocator turn
  (gc policy.gcCount turn.hscan turn.atGc).1.mapError .redis
  (mallocKey allocator.shared timeout name cacheTimeout turn.atMalloc).1.mapError .redis

/-- Up to `malloc_key` nothing raises. -/
def ReachesMallocKey (turn : MallocTurn Param Error) : Prop :=
  policy.tryRefreshPool allocator turn = .ok () ∧
    (gc policy.gcCount turn.hscan turn.atGc).1 = .ok ()

theorem malloc_eq_ok_iff {timeout cacheTimeout : Timeout} {name : Option String}
    {turn : MallocTurn Param Error} {found : Option String} :
    policy.malloc allocator timeout cacheTimeout name turn = .ok found ↔
      policy.ReachesMallocKey allocator turn ∧
      (mallocKey allocator.shared timeout name cacheTimeout turn.atMalloc).1 = .ok found := by
  constructor
  · intro returned
    obtain ⟨_, refreshed, returned⟩ := except_bind_ok returned
    obtain ⟨_, collected, returned⟩ := except_bind_ok returned
    exact ⟨⟨refreshed, except_mapError_ok collected⟩, except_mapError_ok returned⟩
  · rintro ⟨⟨refreshed, collected⟩, returned⟩
    rw [malloc, refreshed, collected, returned]
    rfl

end DefaultPolicy

end DefaultPolicy

end RedisAllocator

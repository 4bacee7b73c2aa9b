import RedisAllocator.Objects.Locks

/-!
# The two lock classes

`RedisLock` over the string keys of the store and `ThreadLock` over its
dictionary, method by method.  A Redis server may still serve a key for up to a
millisecond past its deadline; `late` is that delay.  `ThreadLock` reads the wall
clock in seconds, once in a call.
-/

set_option autoImplicit false

namespace RedisAllocator

open AbortableScript AbortableScript.Script

inductive LockStatus
  | free
  | unavailable
  | locked
  | error
deriving DecidableEq, Repr

inductive LockCall
  | keyStatus (key : String) (timeout : Int)
  | update (key value : String) (timeout : Timeout)
  | lock (key value : String) (timeout : Timeout)
  | isLocked (key : String)
  | lockValue (key : String)
  | rlock (key value : String) (timeout : Timeout)
  | unlock (key : String)
deriving DecidableEq

/-- What a call answers; of `lock`, `is_locked` and the like only the truth value counts. -/
inductive LockReply
  | nothing
  | truth (answer : Bool)
  | text (value : Option String)
  | status (status : LockStatus)
deriving DecidableEq

def LockCall.key : LockCall → String
  | .keyStatus key _ => key
  | .update key _ _ => key
  | .lock key _ _ => key
  | .isLocked key => key
  | .lockValue key => key
  | .rlock key _ _ => key
  | .unlock key => key

/-! ## `RedisLock` -/

/-- The key is still served `late` milliseconds after its deadline. -/
def StringKey.served (late now : Nat) (key : StringKey) : Bool :=
  match key.expireAt with
  | none => true
  | some instant => now < instant + late

namespace RedisLock

variable (late : Nat)

def get? (s : Redis) (key : String) : Option StringKey := (s.locks key).filter (·.served late s.now)

/-- `TTL`: rounded to the nearest second, -1 without a deadline, -2 without the key. -/
def ttl (s : Redis) (key : String) : Int :=
  match get? late s key with
  | none => -2
  | some ⟨_, none⟩ => -1
  | some ⟨_, some instant⟩ => ((instant - s.now + 500) / 1000 : Nat)

def keyStatus (key : String) (timeout : Int) : LuaScript LockStatus :=
  read fun s =>
    if timeout < ttl late s key then .unavailable
    else if 0 ≤ ttl late s key then .locked
    else if ttl late s key = -1 then .error
    else .free

/-- `SET ... EX ... NX`: the key that was in the way, if any. -/
def setNx (key value : String) (timeout : Timeout) : LuaScript (Option StringKey) := do
  let ex ← pyExpire timeout
  let instant ← Command.expireAt ex
  let old ← read (get? late · key)
  if old.isSome then pure old
  else do
    write (·.putLock key (some ⟨value, instant⟩))
    pure none

def lock (key value : String) (timeout : Timeout) : LuaScript Bool := do
  let old ← setNx late key value timeout
  pure old.isNone

def isLocked (key : String) : LuaScript Bool := read fun s => (get? late s key).isSome

def lockValue (key : String) : LuaScript (Option String) :=
  read fun s => (get? late s key).map StringKey.value

/-- A lock that is held already is left as it is, also when the values agree. -/
def rlock (key value : String) (timeout : Timeout) : LuaScript Bool := do
  let old ← setNx late key value timeout
  match old with
  | none => pure true
  | some held => pure (held.value = value)

def unlock (key : String) : LuaScript Bool := do
  let present ← isLocked late key
  write (·.putLock key none)
  pure present

def perform : LockCall → LuaScript LockReply
  | .keyStatus key timeout => do let status ← keyStatus late key timeout; pure (.status status)
  | .update key value timeout => do lockUpdate key value timeout; pure .nothing
  | .lock key value timeout => do let locked ← lock late key value timeout; pure (.truth locked)
  | .isLocked key => do let locked ← isLocked late key; pure (.truth locked)
  | .lockValue key => do let value ← lockValue late key; pure (.text value)
  | .rlock key value timeout => do let locked ← rlock late key value timeout; pure (.truth locked)
  | .unlock key => do let released ← unlock late key; pure (.truth released)

/-! ### Runs of the methods -/

theorem get?_zero (s : Redis) (key : String) : get? 0 s key = s.lock? key := by
  have same : StringKey.served 0 s.now = StringKey.live s.now := by
    funext lock
    rcases lock with ⟨_, _ | instant⟩ <;> rfl
  rw [get?, Redis.lock?, same]

section Positive

variable {seconds : Int} (positive : 0 < seconds) (s : Redis) (key value : String)
include positive

theorem setNx_run : setNx late key value (.int seconds) s =
    (.ok (get? late s key), if (get? late s key).isSome then s
      else s.putLock key (some ⟨value, some (s.deadline seconds)⟩)) := by
  simp only [setNx, pyExpire, pure_bind_apply]
  rw [bind_ok (expireAt_ex s positive)]
  simp only [read_bind_apply]
  cases get? late s key <;> rfl

theorem perform_update : perform late (.update key value (.int seconds)) s =
    (.ok .nothing, s.putLock key (some ⟨value, some (s.deadline seconds)⟩)) := by
  have updated : lockUpdate key value (.int seconds) s =
      (.ok (), s.putLock key (some ⟨value, some (s.deadline seconds)⟩)) :=
    setLock_ex s positive key value
  rw [perform, bind_ok updated, pure_apply]

theorem lock_apply : lock late key value (.int seconds) s =
    (.ok (get? late s key).isNone, if (get? late s key).isSome then s
      else s.putLock key (some ⟨value, some (s.deadline seconds)⟩)) := by
  rw [lock, bind_ok (setNx_run late positive s key value), pure_apply]

theorem rlock_apply : rlock late key value (.int seconds) s =
    (.ok ((get? late s key).all (·.value = value)), if (get? late s key).isSome then s
      else s.putLock key (some ⟨value, some (s.deadline seconds)⟩)) := by
  rw [rlock, bind_ok (setNx_run late positive s key value)]
  cases get? late s key <;> rfl

theorem perform_lock : perform late (.lock key value (.int seconds)) s =
    (.ok (.truth (get? late s key).isNone), if (get? late s key).isSome then s
      else s.putLock key (some ⟨value, some (s.deadline seconds)⟩)) := by
  rw [perform, bind_ok (lock_apply late positive s key value), pure_apply]

theorem perform_rlock : perform late (.rlock key value (.int seconds)) s =
    (.ok (.truth ((get? late s key).all (·.value = value))), if (get? late s key).isSome then s
      else s.putLock key (some ⟨value, some (s.deadline seconds)⟩)) := by
  rw [perform, bind_ok (rlock_apply late positive s key value), pure_apply]

end Positive

theorem perform_keyStatus (s : Redis) (key : String) (timeout : Int) :
    perform late (.keyStatus key timeout) s =
      (.ok (.status (if timeout < ttl late s key then .unavailable
        else if 0 ≤ ttl late s key then .locked
        else if ttl late s key = -1 then .error
        else .free)), s) := rfl

theorem perform_unlock (s : Redis) (key : String) : perform late (.unlock key) s =
    (.ok (.truth (get? late s key).isSome), s.putLock key none) := rfl

end RedisLock

/-! ## `ThreadLock` -/

structure LockData where
  value : String
  expiry : Rat
deriving DecidableEq

structure ThreadLock where
  now : Rat
  locks : String → Option LockData

namespace ThreadLock

variable (s : ThreadLock) (key value : String)

def empty (now : Rat) : ThreadLock := ⟨now, fun _ => none⟩

def advance (elapsed : Rat) : ThreadLock := { s with now := s.now + elapsed }

def data : LockData := (s.locks key).getD ⟨"1", 0⟩

def put (data : Option LockData) : ThreadLock :=
  { s with locks := Function.update s.locks key data }

/-- A missing key is stored by being looked up. -/
def lookedUp : ThreadLock := s.put key (some (s.data key))

def getTtl : Rat := (s.data key).expiry - s.now

def isExpired : Bool := s.getTtl key ≤ 0

def keyStatus (timeout : Int) : LockStatus × ThreadLock :=
  (if s.getTtl key ≤ 0 then .free
    else if timeout < s.getTtl key then .unavailable
    else .locked, s.lookedUp key)

def update (timeout : Timeout) : ThreadLock := s.put key (some ⟨value, s.now + timeout.toSeconds⟩)

def lock (timeout : Timeout) : Bool × ThreadLock :=
  if !s.isExpired key then (false, s.lookedUp key)
  else (true, s.update key value timeout)

def isLocked : Bool × ThreadLock := (!s.isExpired key, s.lookedUp key)

def lockValue : Option String × ThreadLock :=
  (if (s.data key).expiry ≤ s.now then none else some (s.data key).value, s.lookedUp key)

def rlock (timeout : Timeout) : Bool × ThreadLock :=
  if s.now < (s.data key).expiry ∧ (s.data key).value ≠ value then (false, s.lookedUp key)
  else (true, s.update key value timeout)

/-- `self._locks.pop(key, None) is not None` -/
def unlock : Bool × ThreadLock := ((s.locks key).isSome, s.put key none)

def perform (call : LockCall) : LockReply × ThreadLock :=
  match call with
  | .keyStatus key timeout => (.status (s.keyStatus key timeout).1, (s.keyStatus key timeout).2)
  | .update key value timeout => (.nothing, s.update key value timeout)
  | .lock key value timeout => (.truth (s.lock key value timeout).1, (s.lock key value timeout).2)
  | .isLocked key => (.truth (s.isLocked key).1, (s.isLocked key).2)
  | .lockValue key => (.text (s.lockValue key).1, (s.lockValue key).2)
  | .rlock key value timeout => (.truth (s.rlock key value timeout).1, (s.rlock key value timeout).2)
  | .unlock key => (.truth (s.unlock key).1, (s.unlock key).2)

end ThreadLock

end RedisAllocator

import Mathlib.Data.Finmap
import RedisAllocator.Lib.AbortableScript

/-!
# The Redis state behind one allocator

Every key one allocator reads or writes, one field per key family: the pool hash
`<prefix>|<suffix>|pool` with its values already decoded to
`(prev, next, expiry)`, the pointer keys `|head` and `|tail`, the `|gc_cursor`,
the lock keys `<prefix>|<suffix>:<key>` and the soft-binding keys
`<prefix>|<suffix>-cache:bind:<name>`.  The clock counts milliseconds; `TIME`
gives the scripts whole seconds.  A plain string key with a time to live is gone
from the instant it names on.
-/

set_option autoImplicit false

namespace RedisAllocator

open AbortableScript

def allocatedSentinel : String := "#ALLOCATED"

structure PoolEntry where
  prev : String
  next : String
  expiry : Int
deriving DecidableEq, Repr

def PoolEntry.allocated (expiry : Int) : PoolEntry :=
  ⟨allocatedSentinel, allocatedSentinel, expiry⟩

/-- A plain string key: its value and the instant Redis drops it, if any. -/
structure StringKey where
  value : String
  expireAt : Option Nat
deriving DecidableEq, Repr

def StringKey.live (now : Nat) (key : StringKey) : Bool :=
  match key.expireAt with
  | none => true
  | some instant => now < instant

/-- The instant `SET .. EX seconds` stores.  Redis refuses a time that is not positive, and from
`limit` on, where there is one, an instant that does not fit. -/
def expiresAt? (limit : Option Nat) (now : Nat) (seconds : Int) : Option Nat :=
  let instant := now + 1000 * seconds.toNat
  if 0 < seconds ∧ limit.all (instant < ·) then some instant else none

theorem expiresAt?_positive (now : Nat) {seconds : Int} (positive : 0 < seconds) :
    expiresAt? none now seconds = some (now + 1000 * seconds.toNat) := by
  simp [expiresAt?, positive]

theorem expiresAt?_refused (limit : Option Nat) (now : Nat) {seconds : Int}
    (refused : seconds ≤ 0) : expiresAt? limit now seconds = none := by
  simp [expiresAt?, not_lt.mpr refused]

theorem StringKey.live_antitone (lock : StringKey) {now elapsed : Nat}
    (live : lock.live (now + elapsed) = true) : lock.live now = true := by
  obtain ⟨value, instant⟩ := lock
  cases instant with
  | none => rfl
  | some instant =>
      simp only [StringKey.live, decide_eq_true_eq] at live ⊢
      omega

structure Redis where
  now : Nat
  pool : Finmap fun _ : String => PoolEntry
  head : Option String
  tail : Option String
  gcCursor : Option String
  locks : String → Option StringKey
  binds : String → Option StringKey

/-- The three key shapes and the NUL byte that `_validate_keys` rejects. -/
inductive KeyError
  | empty
  | separator (key : String)
  | sentinel
  | nulByte (key : String)
deriving DecidableEq, Repr

inductive Failure
  /-- a Lua `assert` -/
  | assertion (message : String)
  | command (message : String)
  /-- the recursion bound of the model; never reached, see `popFromHead` -/
  | recursionLimit
  | valueError (error : KeyError)
  /-- a Python `assert` -/
  | assertionError (message : String)
  | dataError (message : String)
deriving DecidableEq, Repr

abbrev LuaScript := Script Redis Failure

namespace Redis

/-! ## Reading and writing the state -/

def empty (now : Nat) : Redis := ⟨now, ∅, none, none, none, fun _ => none, fun _ => none⟩

/-- `tonumber(redis.call("TIME")[1])` -/
def time (s : Redis) : Int := (s.now / 1000 : Nat)

def advance (s : Redis) (elapsed : Nat) : Redis := { s with now := s.now + elapsed }

def hget (s : Redis) (key : String) : Option PoolEntry := s.pool.lookup key

def hset (s : Redis) (key : String) (value : PoolEntry) : Redis :=
  { s with pool := s.pool.insert key value }

def hdel (s : Redis) (key : String) : Redis := { s with pool := s.pool.erase key }

/-- `current_pointer`: a missing pointer key reads as the empty string. -/
def headPointer (s : Redis) : String := s.head.getD ""

def tailPointer (s : Redis) : String := s.tail.getD ""

def setHead (s : Redis) (pointer : String) : Redis := { s with head := some pointer }

def setTail (s : Redis) (pointer : String) : Redis := { s with tail := some pointer }

def lock? (s : Redis) (key : String) : Option StringKey := (s.locks key).filter (·.live s.now)

/-- `EXISTS key_str(key) > 0` -/
def locked (s : Redis) (key : String) : Bool := (s.lock? key).isSome

def putLock (s : Redis) (key : String) (lock : Option StringKey) : Redis :=
  { s with locks := Function.update s.locks key lock }

def bind? (s : Redis) (name : String) : Option StringKey := (s.binds name).filter (·.live s.now)

def putBind (s : Redis) (name : String) (binding : Option StringKey) : Redis :=
  { s with binds := Function.update s.binds name binding }

/-- `is_expiry_invalid`: the expiry is set and not after the current second. -/
def isExpiryInvalid (s : Redis) (expiry : Int) : Bool := 0 < expiry && expiry ≤ s.time

def deadline (s : Redis) (seconds : Int) : Nat := s.now + 1000 * seconds.toNat

def timeoutToExpiry (s : Redis) (timeout : Int) : Int :=
  if timeout ≤ 0 then -1 else s.time + timeout

/-! ### The pool hash -/

section Hash

variable (s : Redis) (key other : String) (value : PoolEntry) (pointer : String)

@[simp] theorem hget_hset : (s.hset key value).hget other =
    if other = key then some value else s.hget other := by
  unfold hget hset
  by_cases same : other = key
  · subst same
    rw [if_pos rfl]
    exact Finmap.lookup_insert _
  · rw [if_neg same]
    exact Finmap.lookup_insert_of_ne _ same

@[simp] theorem hget_hdel : (s.hdel key).hget other =
    if other = key then none else s.hget other := by
  unfold hget hdel
  by_cases same : other = key
  · subst same
    rw [if_pos rfl]
    exact Finmap.lookup_erase _ _
  · rw [if_neg same]
    exact Finmap.lookup_erase_ne same

@[simp] theorem hget_setHead : (s.setHead pointer).hget other = s.hget other := rfl
@[simp] theorem hget_setTail : (s.setTail pointer).hget other = s.hget other := rfl
@[simp] theorem hget_putLock (lock : Option StringKey) :
    (s.putLock key lock).hget other = s.hget other := rfl
@[simp] theorem hget_putBind (binding : Option StringKey) :
    (s.putBind key binding).hget other = s.hget other := rfl
@[simp] theorem hget_advance (elapsed : Nat) : (s.advance elapsed).hget other = s.hget other := rfl

theorem mem_pool_iff : key ∈ s.pool ↔ ∃ entry, s.hget key = some entry := Finmap.mem_iff

/-! ### The two pointers -/

@[simp] theorem headPointer_hset : (s.hset key value).headPointer = s.headPointer := rfl
@[simp] theorem headPointer_hdel : (s.hdel key).headPointer = s.headPointer := rfl
@[simp] theorem headPointer_setHead : (s.setHead pointer).headPointer = pointer := rfl
@[simp] theorem headPointer_setTail : (s.setTail pointer).headPointer = s.headPointer := rfl
@[simp] theorem tailPointer_hset : (s.hset key value).tailPointer = s.tailPointer := rfl
@[simp] theorem tailPointer_hdel : (s.hdel key).tailPointer = s.tailPointer := rfl
@[simp] theorem tailPointer_setHead : (s.setHead pointer).tailPointer = s.tailPointer := rfl
@[simp] theorem tailPointer_setTail : (s.setTail pointer).tailPointer = pointer := rfl

end Hash

/-! ### The clock -/

theorem isExpiryInvalid_congr {s s' : Redis} (sameNow : s'.now = s.now) :
    s'.isExpiryInvalid = s.isExpiryInvalid := by
  funext expiry
  rw [isExpiryInvalid, isExpiryInvalid, time, time, sameNow]

/-! ### Everything but the pool -/

/-- The part of the state that moving keys in and out of the free list never writes. -/
def outside (s : Redis) :
    Nat × Option String × (String → Option StringKey) × (String → Option StringKey) :=
  (s.now, s.gcCursor, s.locks, s.binds)

section Outside

variable {s s' : Redis} (same : s'.outside = s.outside)
include same

theorem now_of_outside : s'.now = s.now := congrArg (·.1) same

theorem locks_of_outside : s'.locks = s.locks := congrArg (·.2.2.1) same

theorem binds_of_outside : s'.binds = s.binds := congrArg (·.2.2.2) same

theorem lock?_of_outside (key : String) : s'.lock? key = s.lock? key := by
  rw [lock?, lock?, locks_of_outside same, now_of_outside same]

theorem locked_of_outside (key : String) : s'.locked key = s.locked key := by
  rw [locked, locked, lock?_of_outside same]

theorem isExpiryInvalid_of_outside (expiry : Int) :
    s'.isExpiryInvalid expiry = s.isExpiryInvalid expiry := by
  rw [isExpiryInvalid_congr (now_of_outside same)]

end Outside

/-! ### Locks and bindings -/

section Strings

variable {s s' : Redis}

theorem putLock_outside_congr (same : s'.outside = s.outside) (k : String)
    (lock : Option StringKey) : (s'.putLock k lock).outside = (s.putLock k lock).outside := by
  simp only [outside, putLock, Prod.mk.injEq] at same ⊢
  obtain ⟨now, cursor, locks, binds⟩ := same
  exact ⟨now, cursor, by rw [locks], binds⟩

theorem putBind_outside_congr (same : s'.outside = s.outside) (name : String)
    (binding : Option StringKey) :
    (s'.putBind name binding).outside = (s.putBind name binding).outside := by
  simp only [outside, putBind, Prod.mk.injEq] at same ⊢
  obtain ⟨now, cursor, locks, binds⟩ := same
  exact ⟨now, cursor, locks, by rw [binds]⟩

@[simp] theorem lock?_putLock (s : Redis) (k other : String) (lock : Option StringKey) :
    (s.putLock k lock).lock? other =
      if other = k then lock.filter (·.live s.now) else s.lock? other := by
  by_cases same : other = k
  · subst same
    simp [lock?, putLock]
  · simp [lock?, putLock, same]

@[simp] theorem lock?_putBind (s : Redis) (name other : String) (binding : Option StringKey) :
    (s.putBind name binding).lock? other = s.lock? other := rfl

@[simp] theorem locked_putBind (s : Redis) (name other : String) (binding : Option StringKey) :
    (s.putBind name binding).locked other = s.locked other := rfl

@[simp] theorem bind?_putLock (s : Redis) (k other : String) (lock : Option StringKey) :
    (s.putLock k lock).bind? other = s.bind? other := rfl

@[simp] theorem bind?_putBind (s : Redis) (name other : String) (binding : Option StringKey) :
    (s.putBind name binding).bind? other =
      if other = name then binding.filter (·.live s.now) else s.bind? other := by
  by_cases same : other = name
  · subst same
    simp [bind?, putBind]
  · simp [bind?, putBind, same]

@[simp] theorem locked_putLock_none (s : Redis) (k other : String) :
    (s.putLock k none).locked other = (decide (other ≠ k) && s.locked other) := by
  by_cases same : other = k
  · simp [locked, same]
  · simp [locked, same]

theorem locked_putLock_of_ne (s : Redis) {k other : String} (different : other ≠ k)
    (lock : Option StringKey) : (s.putLock k lock).locked other = s.locked other := by
  rw [locked, lock?_putLock, if_neg different, locked]

end Strings

end Redis

end RedisAllocator

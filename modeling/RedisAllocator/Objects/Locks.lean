import RedisAllocator.Allocator.LockFrames

/-!
# The Python side of locks and bindings

`RedisLock.update` and `unlock`, the key names of one allocator, and the three
soft-binding methods.  These are single commands, not scripts.  `get_soft_bind`
reads the key the scripts use, `<prefix>|<suffix>-cache:bind:<name>`.  The other
two go through `RedisLock` and so end at `<prefix>|<suffix>:` followed by that
whole string, which is the lock of a key nobody allocates.
-/

set_option autoImplicit false

namespace RedisAllocator

open AbortableScript AbortableScript.Script

/-- What names the Redis keys of an allocator, and its mode. -/
structure Allocator where
  keyPrefix : String
  suffix : String
  shared : Bool

namespace Allocator

variable (allocator : Allocator)

/-- `_key_str`, the key of a lock: the locks of `Redis` are the keys of this shape. -/
def keyStr (key : String) : String := allocator.keyPrefix ++ "|" ++ allocator.suffix ++ ":" ++ key

def cacheStr : String := allocator.keyPrefix ++ "|" ++ allocator.suffix ++ "-cache"

/-- `_soft_bind_name`: the bindings of `Redis` are the keys of this shape. -/
def softBindName (name : String) : String := allocator.cacheStr ++ ":bind:" ++ name

end Allocator

/-! ## `RedisLock` -/

/-- The `ex` that redis-py sends: an `int` as it is, a `timedelta` cut to whole seconds, and no
`float`. -/
def pyExpire : Timeout → LuaScript (Option Int)
  | .int seconds => pure (some seconds)
  | .timedelta seconds => pure (some (truncate seconds))
  | .float _ => abort (.dataError "ex must be datetime.timedelta or int")
  | .none => pure none

def lockUpdate (key value : String) (timeout : Timeout) : LuaScript Unit := do
  let ex ← pyExpire timeout
  Command.setLock key value ex

def unlock (key : String) : LuaScript Bool := do
  let deleted ← Command.delLock key
  pure (0 < deleted)

/-! ## Soft bindings -/

def updateSoftBind (allocator : Allocator) (name key : String) (timeout : Timeout) : LuaScript Unit :=
  lockUpdate (allocator.softBindName name) key timeout

def unbindSoftBind (allocator : Allocator) (name : String) : LuaScript Unit := do
  let _ ← unlock (allocator.softBindName name)

def getSoftBind (name : String) : LuaScript (Option String) := Command.getBind name

/-! ## What they leave alone -/

/-- The clock, the pool with its pointers, the cursor and the bindings. -/
def Redis.besidesLocks (s : Redis) :
    (Nat × Option String × (String → Option StringKey)) ×
      (Finmap fun _ : String => PoolEntry) × Option String × Option String :=
  ((s.now, s.gcCursor, s.binds), s.pool, s.head, s.tail)

theorem expireAt_keeps {φ : Type} (part : Redis → φ) (ex : Option Int) :
    Keeps part (Command.expireAt ex) := by
  cases ex with
  | none => exact Keeps.pure _
  | some seconds =>
      refine Keeps.bind (Keeps.read _) fun now => ?_
      cases expiresAt? none now seconds with
      | none => exact Keeps.abort _
      | some instant => exact Keeps.pure _

theorem pyExpire_keeps {φ : Type} (part : Redis → φ) (timeout : Timeout) :
    Keeps part (pyExpire timeout) := by
  cases timeout with
  | float seconds => exact Keeps.abort _
  | _ => exact Keeps.pure _

theorem lockUpdate_keeps (key value : String) (timeout : Timeout) :
    Keeps Redis.besidesLocks (lockUpdate key value timeout) :=
  Keeps.bind (pyExpire_keeps _ timeout) fun ex => Keeps.bind (expireAt_keeps _ ex) fun _ =>
    Keeps.write fun _ => rfl

theorem unlock_keeps (key : String) : Keeps Redis.besidesLocks (unlock key) :=
  Keeps.bind (Keeps.bind (Keeps.read _) fun _ => Keeps.bind (Keeps.write fun _ => rfl) fun _ =>
    Keeps.pure _) fun _ => Keeps.pure _

theorem unlock_run (key : String) (s : Redis) :
    unlock key s = (.ok (s.locked key), s.putLock key none) := by
  rw [unlock, bind_ok (delLock_run s key)]
  cases s.locked key <;> rfl

end RedisAllocator

import RedisAllocator.Redis.Store

/-!
# The shared Lua functions of the allocator scripts

`RedisAllocator._lua_required_string`, function by function, over decoded pool
values.  `HGET` and the other commands act on the one allocator's keys.
-/

set_option autoImplicit false

namespace RedisAllocator

open AbortableScript AbortableScript.Script

/-! ## Redis commands -/

namespace Command

def hget (key : String) : LuaScript (Option PoolEntry) := read (·.hget key)

def hset (key : String) (value : PoolEntry) : LuaScript Unit := write (·.hset key value)

def hdel (key : String) : LuaScript Unit := write (·.hdel key)

/-- `HEXISTS poolItemsKey key > 0` -/
def hexists (key : String) : LuaScript Bool := read fun s => (s.hget key).isSome

def hlen : LuaScript Nat := read (·.pool.keys.card)

def existsLock (key : String) : LuaScript Bool := read (·.locked key)

/-- `DEL key_str(key)`: the number of keys removed, a lapsed key not counted. -/
def delLock (key : String) : LuaScript Nat := do
  let present ← existsLock key
  write (·.putLock key none)
  pure (if present then 1 else 0)

/-- The instant a `SET` stores; the times of the allocator are taken to be far from the limit. -/
def expireAt (ex : Option Int) : LuaScript (Option Nat) :=
  match ex with
  | none => pure none
  | some seconds => do
    let now ← read Redis.now
    match expiresAt? none now seconds with
    | some instant => pure (some instant)
    | none => abort (.command "ERR invalid expire time in 'set' command")

/-- `SET key_str(key) value`, with `EX` when `ex` is given. -/
def setLock (key value : String) (ex : Option Int) : LuaScript Unit := do
  let instant ← expireAt ex
  write (·.putLock key (some ⟨value, instant⟩))

def getBind (name : String) : LuaScript (Option String) :=
  read fun s => (s.bind? name).map StringKey.value

def setBind (name value : String) (ex : Option Int) : LuaScript Unit := do
  let instant ← expireAt ex
  write (·.putBind name (some ⟨value, instant⟩))

def delBind (name : String) : LuaScript Unit := write (·.putBind name none)

end Command

/-! ## Helpers -/

def luaAssert (holds : Prop) [Decidable holds] (message : String) : LuaScript Unit :=
  if holds then pure () else abort (.assertion message)

def assertSome {α : Type} (value : Option α) (message : String) : LuaScript α :=
  match value with
  | some a => pure a
  | none => abort (.assertion message)

def timeoutToExpiry (timeout : Int) : LuaScript Int := read (·.timeoutToExpiry timeout)

def isExpiryInvalid (expiry : Int) : LuaScript Bool := read (·.isExpiryInvalid expiry)

def currentHead : LuaScript String := read (·.headPointer)

def currentTail : LuaScript String := read (·.tailPointer)

def setCurrentHead (pointer : String) : LuaScript Unit := write (·.setHead pointer)

def setCurrentTail (pointer : String) : LuaScript Unit := write (·.setTail pointer)

def emptyPointers : LuaScript Unit := do
  setCurrentHead ""
  setCurrentTail ""

/-! ## `push_to_tail` -/

/-- The debug asserts on an item that already has an entry. -/
def assertPushable (itemName : String) : LuaScript Unit := do
  match ← Command.hget itemName with
  | none => pure ()
  | some item =>
    luaAssert (item.prev = allocatedSentinel ∨ item.prev = "") "item should be allocated or free"
    luaAssert (item.next = "" ∨ item.next = allocatedSentinel)
      "item should be the last item in the free list"

def linkBehindTail (head tail itemName : String) : LuaScript Unit :=
  if tail = "" ∨ head = "" then setCurrentHead itemName
  else do
    let tailVal ← assertSome (← Command.hget tail) "tail value should not be nil"
    luaAssert (tailVal.next = "") "tail should be the last item in the free list"
    Command.hset tail ⟨tailVal.prev, itemName, tailVal.expiry⟩

def pushToTail (itemName : String) (expiry : Int) : LuaScript Unit := do
  let head ← currentHead
  let tail ← currentTail
  assertPushable itemName
  Command.hset itemName ⟨tail, "", expiry⟩
  linkBehindTail head tail itemName
  setCurrentTail itemName

/-! ## `pop_from_head` -/

/-- `_advance_head_after_removal`: a dangling `headNext` clears the list. -/
def advanceHeadAfterRemoval (headNext : String) : LuaScript Unit :=
  if headNext = "" then emptyPointers
  else do
    match ← Command.hget headNext with
    | none => emptyPointers
    | some nextVal =>
      Command.hset headNext ⟨"", nextVal.next, nextVal.expiry⟩
      setCurrentHead headNext

/-- The last two branches, for a head that is handed out. -/
def unlinkHead (headNext : String) : LuaScript Unit :=
  if headNext = "" then emptyPointers
  else do
    let nextVal ← assertSome (← Command.hget headNext) "next value should not be nil"
    Command.hset headNext ⟨"", nextVal.next, nextVal.expiry⟩
    setCurrentHead headNext

/-- `pop_from_head`, the recursion bounded by `fuel`.  The scripts give it two more calls than
there are entries, and it never asks for more (`popFromHead_terminates`). -/
def popFromHead : Nat → LuaScript (Option String × Int)
  | 0 => abort .recursionLimit
  | fuel + 1 => do
    let head ← currentHead
    if head = "" then pure (none, -1)
    else do
      let headVal ← assertSome (← Command.hget head) "head value should not be nil"
      let expired ← isExpiryInvalid headVal.expiry
      let locked ← Command.existsLock head
      if expired then do
        Command.hdel head
        advanceHeadAfterRemoval headVal.next
        popFromHead fuel
      else if locked then do
        Command.hset head (.allocated headVal.expiry)
        advanceHeadAfterRemoval headVal.next
        popFromHead fuel
      else do
        unlinkHead headVal.next
        Command.hset head (.allocated headVal.expiry)
        pure (some head, headVal.expiry)

/-! ## `set_item_allocated` and `check_item_health` -/

def dropIfExpired (itemName : String) (expiry : Int) : LuaScript Unit := do
  let expired ← isExpiryInvalid expiry
  if expired then Command.hdel itemName else pure ()

def relinkPrev (prev next : String) : LuaScript Unit :=
  if prev = "" then setCurrentHead next
  else do
    let prevVal ← assertSome (← Command.hget prev) "prev value should not be nil"
    Command.hset prev ⟨prevVal.prev, next, prevVal.expiry⟩

def relinkNext (prev next : String) : LuaScript Unit :=
  if next = "" then setCurrentTail prev
  else do
    let nextVal ← assertSome (← Command.hget next) "next value should not be nil"
    Command.hset next ⟨prev, nextVal.next, nextVal.expiry⟩

/-- The entry `set_item_allocated` works on: the one passed in, else the stored one. -/
def givenOrStored (itemName : String) : Option PoolEntry → LuaScript PoolEntry
  | some val => pure val
  | none => do assertSome (← Command.hget itemName) "val should not be nil"

def setItemAllocated (itemName : String) (given : Option PoolEntry) : LuaScript Unit := do
  let val ← givenOrStored itemName given
  if val.prev = allocatedSentinel then
    luaAssert (val.next = allocatedSentinel) "next item should also be allocated"
  else do
    luaAssert (val.next ≠ allocatedSentinel) "next item should not be allocated"
    -- an expired entry goes here and comes back, allocated, in the last line
    dropIfExpired itemName val.expiry
    relinkPrev val.prev val.next
    relinkNext val.prev val.next
    Command.hset itemName (.allocated val.expiry)

def checkItemHealth (itemName : String) : LuaScript Unit := do
  let value ← assertSome (← Command.hget itemName) "value should not be nil"
  let expired ← isExpiryInvalid value.expiry
  if expired then do
    setItemAllocated itemName (some value)
    Command.hdel itemName
  else do
    let locked ← Command.existsLock itemName
    if value.prev = allocatedSentinel then
      if locked then pure () else pushToTail itemName value.expiry
    else
      if locked then setItemAllocated itemName (some value) else pure ()

end RedisAllocator

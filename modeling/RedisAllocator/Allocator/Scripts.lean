import Mathlib.Data.List.Infix
import Mathlib.Data.Rat.Defs
import RedisAllocator.Allocator.LuaLibrary
import RedisAllocator.Lib.LabelledRun

/-!
# The scripts and their Python entry points

One definition for each script, one for the method that calls it, and `Call`, the
methods a client can invoke.  Where Redis or Lua chooses an order (`HKEYS`,
`HSCAN`, `pairs`), the call carries the choice and `Call.Admissible` says which
choices there are.
-/

set_option autoImplicit false

namespace RedisAllocator

open AbortableScript AbortableScript.Script

/-! ## Timeouts -/

/-- `Timeout = Union[float, timedelta, None]`; an `int` passes for a `float`. -/
inductive Timeout
  | int (seconds : Int)
  | float (seconds : Rat)
  | timedelta (seconds : Rat)
  | none
deriving DecidableEq

/-- `datetime(2099, 1, 1).timestamp()` on a host in UTC. -/
def endOf2098 : Rat := 4070908800

def Timeout.toSeconds : Timeout → Rat
  | .int seconds => seconds
  | .float seconds => seconds
  | .timedelta seconds => seconds
  | .none => endOf2098

/-- Python's `int(q)`: the fraction is cut off, towards zero. -/
def truncate (q : Rat) : Int := q.num.tdiv q.den

/-- `int(self._to_seconds(timeout))` -/
def Timeout.wholeSeconds (timeout : Timeout) : Int := truncate timeout.toSeconds

/-! ## `_validate_keys` -/

def poolValueSep : String := "||"

/-- The text of the `ValueError`; `repr` is Python's `{key!r:.80}`. -/
def KeyError.message (repr : String → String) : KeyError → String
  | .empty => "pool key cannot be empty (collides with empty-pointer sentinel)"
  | .separator key => "pool key cannot contain " ++ repr poolValueSep ++ " separator: " ++ repr key
  | .sentinel =>
    "pool key cannot equal " ++ repr allocatedSentinel ++ " (reserved as internal sentinel)"
  | .nulByte key => "pool key cannot contain NUL byte: " ++ repr key

def validateKey (key : String) : Except KeyError Unit :=
  if key = "" then .error .empty
  else if poolValueSep.toList <:+: key.toList then .error (.separator key)
  else if key = allocatedSentinel then .error .sentinel
  else if Char.ofNat 0 ∈ key.toList then .error (.nulByte key)
  else .ok ()

def validateKeys : List String → Except KeyError Unit
  | [] => .ok ()
  | key :: rest =>
    match validateKey key with
    | .error error => .error error
    | .ok () => validateKeys rest

/-- `_validate_keys` as a step of a method: a rejected batch raises before any script runs. -/
def raiseInvalid (keys : List String) : LuaScript Unit :=
  match validateKeys keys with
  | .error error => abort (.valueError error)
  | .ok () => pure ()

/-! ## `_extend_script` and `_shrink_script` -/

/-- A new key loses its residual lock before it joins the free list. -/
def insertUnlocked (itemName : String) (expiry : Int) : LuaScript Unit := do
  let _ ← Command.delLock itemName
  pushToTail itemName expiry

def extendItem (expiry : Int) (itemName : String) : LuaScript Unit := do
  match ← Command.hget itemName with
  | some val => Command.hset itemName ⟨val.prev, val.next, expiry⟩
  | none => insertUnlocked itemName expiry

def extendScript (timeout : Int) (keys : List String) : LuaScript Unit := do
  let expiry ← timeoutToExpiry timeout
  keys.forM (extendItem expiry)

def extend (keys : List String) (timeout : Option Int) : LuaScript Unit :=
  if keys = [] then pure ()
  else do
    raiseInvalid keys
    extendScript (timeout.getD (-1)) keys

/-- `set_item_allocated` followed by `HDEL`. -/
def evict (itemName : String) : LuaScript Unit := do
  setItemAllocated itemName none
  Command.hdel itemName

def shrinkItem (itemName : String) : LuaScript Unit := do
  let isMember ← Command.hexists itemName
  if isMember then evict itemName else pure ()

def shrinkScript (keys : List String) : LuaScript Unit := keys.forM shrinkItem

def shrink (keys : List String) : LuaScript Unit :=
  if keys = [] then pure () else shrinkScript keys

/-! ## `_clear_script` and `_assign_script` -/

def clear : LuaScript Unit := do
  write fun s => { s with pool := ∅ }
  emptyPointers

/-- One round of the loop over `HKEYS`; the result is `assignSet` after it. -/
def keepOrEvict (assignSet : List String) (itemName : String) : LuaScript (List String) :=
  if itemName ∈ assignSet then pure (assignSet.filter (· ≠ itemName))
  else do
    evict itemName
    pure assignSet

/-- One round of the loop over `pairs(assignSet)`; a key set to `nil` before is skipped. -/
def addIfLeft (assignSet : List String) (expiry : Int) (k : String) : LuaScript Unit :=
  if k ∈ assignSet then insertUnlocked k expiry else pure ()

/-- `allItems` is the reply of `HKEYS`, `pairs` the order in which Lua walks its table. -/
def assignScript (timeout : Int) (keys allItems pairs : List String) : LuaScript Unit := do
  let expiry ← timeoutToExpiry timeout
  let assignSet ← allItems.foldlM keepOrEvict keys
  pairs.forM (addIfLeft assignSet expiry)

def assign (keys : List String) (timeout : Int) (allItems pairs : List String) : LuaScript Unit :=
  if keys = [] then clear
  else do
    raiseInvalid keys
    assignScript timeout keys allItems pairs

/-! ## `_malloc_script` -/

def refreshCache (name : String) (cacheTimeout : Int) (cacheKey : String) : LuaScript Unit :=
  if name = "" then pure ()
  else if 0 < cacheTimeout then Command.setBind name cacheKey (some cacheTimeout)
  else Command.setBind name cacheKey none

def lockBound (shared : Bool) (timeout : Int) (cachedKey : String) : LuaScript Unit :=
  if shared then pure ()
  else do
    setItemAllocated cachedKey none
    Command.setLock cachedKey "1" (some timeout)

/-- The soft-binding path; `none` means the call goes on to the free list. -/
def mallocBound (shared : Bool) (timeout : Int) (name : String) (cacheTimeout : Int) :
    LuaScript (Option String) :=
  if name = "" then pure none
  else do
    match ← Command.getBind name with
    | none => pure none
    | some cachedKey =>
      let isMember ← Command.hexists cachedKey
      let locked ← Command.existsLock cachedKey
      if !isMember || locked then do
        Command.delBind name
        pure none
      else do
        refreshCache name cacheTimeout cachedKey
        lockBound shared timeout cachedKey
        pure (some cachedKey)

/-- What happens to a popped item: locked in non-shared mode, back to the tail in shared mode. -/
def lockOrRotate (shared : Bool) (timeout : Int) (itemName : String) (expiry : Int) :
    LuaScript Unit :=
  if shared then pushToTail itemName expiry
  else if 0 < timeout then Command.setLock itemName "1" (some timeout)
  else Command.setLock itemName "1" none

def mallocPop (shared : Bool) (timeout : Int) (name : String) (cacheTimeout : Int) :
    LuaScript (Option String) := do
  let size ← Command.hlen
  let popped ← popFromHead (size + 2)
  match popped.1 with
  | none => pure none
  | some itemName =>
    lockOrRotate shared timeout itemName popped.2
    refreshCache name cacheTimeout itemName
    pure (some itemName)

def mallocScript (shared : Bool) (timeout : Int) (name : String) (cacheTimeout : Int) :
    LuaScript (Option String) := do
  match ← mallocBound shared timeout name cacheTimeout with
  | some cachedKey => pure (some cachedKey)
  | none => mallocPop shared timeout name cacheTimeout

def mallocKey (shared : Bool) (timeout : Timeout) (name : Option String) (cacheTimeout : Timeout) :
    LuaScript (Option String) :=
  mallocScript shared timeout.wholeSeconds (name.getD "") cacheTimeout.wholeSeconds

/-! ## `_free_script` and `_gc_script` -/

def freeItem (expiry : Int) (k : String) : LuaScript Unit := do
  let deleted ← Command.delLock k
  let isMember ← Command.hexists k
  if 0 < deleted ∧ isMember then pushToTail k expiry else pure ()

def freeScript (timeout : Int) (keys : List String) : LuaScript Unit := do
  let expiry ← timeoutToExpiry timeout
  keys.forM (freeItem expiry)

def freeKeys (keys : List String) (timeout : Int) : LuaScript Unit :=
  if keys = [] then pure () else freeScript timeout keys

/-- A reply of `HSCAN`: the cursor to go on from and the keys of the batch. -/
structure ScanReply where
  cursor : String
  items : List String

def getCursor : LuaScript String :=
  read fun s =>
    match s.gcCursor with
    | none => "0"
    | some cursor => if cursor = "" then "0" else cursor

def setCursor (cursor : String) : LuaScript Unit := write fun s => { s with gcCursor := some cursor }

def gcScript (count : Int) (hscan : String → Int → ScanReply) : LuaScript Unit := do
  let cursor ← getCursor
  let reply := hscan cursor count
  reply.items.forM checkItemHealth
  setCursor reply.cursor

def gc (count : Int) (hscan : String → Int → ScanReply) : LuaScript Unit :=
  if 0 < count then gcScript count hscan
  else abort (.assertionError "count should be positive")

/-! ## Calls and runs -/

inductive Call
  | extend (keys : List String) (timeout : Option Int)
  | shrink (keys : List String)
  | assign (keys : List String) (timeout : Int) (allItems pairs : List String)
  | clear
  | mallocKey (timeout : Timeout) (name : Option String) (cacheTimeout : Timeout)
  | freeKeys (keys : List String) (timeout : Int)
  | gc (count : Int) (hscan : String → Int → ScanReply)

/-- The choices of Redis and Lua: `HKEYS` lists the members and `pairs` the keys of the table,
each once in any order; `HSCAN` returns members, none twice. -/
def Call.Admissible (s : Redis) : Call → Prop
  | .assign keys _ allItems pairs =>
    allItems.Nodup ∧ allItems.toFinset = s.pool.keys ∧ pairs.Nodup ∧ pairs.toFinset = keys.toFinset
  | .gc _ hscan => ∀ cursor count,
    (hscan cursor count).items.Nodup ∧ (hscan cursor count).items.toFinset ⊆ s.pool.keys
  | _ => True

/-- The method run as one atomic script; only `malloc_key` has a reply. -/
def Call.perform (shared : Bool) : Call → LuaScript (Option String)
  | .extend keys timeout => do RedisAllocator.extend keys timeout; pure none
  | .shrink keys => do RedisAllocator.shrink keys; pure none
  | .assign keys timeout allItems pairs => do
    RedisAllocator.assign keys timeout allItems pairs
    pure none
  | .clear => do RedisAllocator.clear; pure none
  | .mallocKey timeout name cacheTimeout => RedisAllocator.mallocKey shared timeout name cacheTimeout
  | .freeKeys keys timeout => do RedisAllocator.freeKeys keys timeout; pure none
  | .gc count hscan => do RedisAllocator.gc count hscan; pure none

structure Event where
  before : Redis
  call : Call

def Event.reply (shared : Bool) (event : Event) : Except Failure (Option String) :=
  (event.call.perform shared event.before).1

/-- The state the script leaves, also when it aborts. -/
def Event.after (shared : Bool) (event : Event) : Redis :=
  (event.call.perform shared event.before).2

def CallStep (shared : Bool) (s : Redis) (event : Event) (s' : Redis) : Prop :=
  (∃ elapsed, event.before = s.advance elapsed) ∧ event.call.Admissible event.before ∧
    s' = event.after shared

abbrev CallRun (shared : Bool) : Redis → List Event → Redis → Prop :=
  LabelledRun.Run (CallStep shared)

end RedisAllocator

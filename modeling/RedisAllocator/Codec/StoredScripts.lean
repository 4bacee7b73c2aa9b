import RedisAllocator.Codec.PoolValue

/-!
# The scripts on the stored strings

`RedisAllocator.Allocator` keeps the entries of the pool hash decoded.  Here the
hash holds the strings that Redis stores, and the scripts split and join them
where the Lua code does.  A field of a string that does not match is Lua's `nil`:
it equals nothing, a command refuses it, and `tostring` writes it out.
-/

set_option autoImplicit false

namespace RedisAllocator

open AbortableScript AbortableScript.Script

/-- The keys of one allocator, the values of the pool hash as they are stored. -/
structure StoredRedis where
  now : Nat
  pool : Finmap fun _ : String => String
  head : Option String
  tail : Option String
  gcCursor : Option String
  locks : String → Option StringKey
  binds : String → Option StringKey

abbrev StoredScript := Script StoredRedis Failure

namespace StoredRedis

/-- The keys beside the pool hash. -/
def keys (t : StoredRedis) : Redis :=
  ⟨t.now, ∅, t.head, t.tail, t.gcCursor, t.locks, t.binds⟩

def hget (t : StoredRedis) (key : String) : Option String := t.pool.lookup key

def hset (t : StoredRedis) (key value : String) : StoredRedis :=
  { t with pool := t.pool.insert key value }

def hdel (t : StoredRedis) (key : String) : StoredRedis := { t with pool := t.pool.erase key }

def setHead (t : StoredRedis) (pointer : String) : StoredRedis := { t with head := some pointer }

def setTail (t : StoredRedis) (pointer : String) : StoredRedis := { t with tail := some pointer }

def putLock (t : StoredRedis) (key : String) (lock : Option StringKey) : StoredRedis :=
  { t with locks := Function.update t.locks key lock }

def putBind (t : StoredRedis) (name : String) (binding : Option StringKey) : StoredRedis :=
  { t with binds := Function.update t.binds name binding }

/-- `is_expiry_invalid` of what `tonumber` made of the last field. -/
def isExpiryInvalid (t : StoredRedis) (expiry : Option Rat) : Bool :=
  expiry.any fun instant : Rat => 0 < instant && instant ≤ t.keys.time

@[simp] theorem hget_hset (t : StoredRedis) (key other value : String) :
    (t.hset key value).hget other = if other = key then some value else t.hget other := by
  unfold hget hset
  by_cases same : other = key
  · subst same
    rw [if_pos rfl]
    exact Finmap.lookup_insert _
  · rw [if_neg same]
    exact Finmap.lookup_insert_of_ne _ same

@[simp] theorem hget_hdel (t : StoredRedis) (key other : String) :
    (t.hdel key).hget other = if other = key then none else t.hget other := by
  unfold hget hdel
  by_cases same : other = key
  · subst same
    rw [if_pos rfl]
    exact Finmap.lookup_erase _ _
  · rw [if_neg same]
    exact Finmap.lookup_erase_ne same

end StoredRedis

namespace Stored

/-! ## Redis commands -/

/-- An argument of a command, which has to be a string. -/
def argument : Option String → StoredScript String
  | some value => pure value
  | none => abort (.command "Lua redis() command arguments must be strings or integers")

def hget (key : String) : StoredScript (Option String) := read (·.hget key)

def hset (key value : String) : StoredScript Unit := write (·.hset key value)

def hdel (key : String) : StoredScript Unit := write (·.hdel key)

def hexists (key : String) : StoredScript Bool := read fun t => (t.hget key).isSome

def hlen : StoredScript Nat := read (·.pool.keys.card)

def existsLock (key : String) : StoredScript Bool := read (·.keys.locked key)

def delLock (key : String) : StoredScript Nat := do
  let present ← existsLock key
  write (·.putLock key none)
  pure (if present then 1 else 0)

def expireAt (ex : Option Int) : StoredScript (Option Nat) :=
  match ex with
  | none => pure none
  | some seconds => do
    let now ← read StoredRedis.now
    match expiresAt? none now seconds with
    | some instant => pure (some instant)
    | none => abort (.command "ERR invalid expire time in 'set' command")

def setLock (key value : String) (ex : Option Int) : StoredScript Unit := do
  let instant ← expireAt ex
  write (·.putLock key (some ⟨value, instant⟩))

def getBind (name : String) : StoredScript (Option String) :=
  read fun t => (t.keys.bind? name).map StringKey.value

def setBind (name value : String) (ex : Option Int) : StoredScript Unit := do
  let instant ← expireAt ex
  write (·.putBind name (some ⟨value, instant⟩))

def delBind (name : String) : StoredScript Unit := write (·.putBind name none)

/-! ## Helpers -/

def luaAssert (holds : Prop) [Decidable holds] (message : String) : StoredScript Unit :=
  if holds then pure () else abort (.assertion message)

def assertSome {α : Type} (value : Option α) (message : String) : StoredScript α :=
  match value with
  | some a => pure a
  | none => abort (.assertion message)

def timeoutToExpiry (timeout : Int) : StoredScript Int := read (·.keys.timeoutToExpiry timeout)

def isExpiryInvalid (expiry : Option Rat) : StoredScript Bool := read (·.isExpiryInvalid expiry)

def currentHead : StoredScript String := read (·.keys.headPointer)

def currentTail : StoredScript String := read (·.keys.tailPointer)

def setCurrentHead (pointer : String) : StoredScript Unit := write (·.setHead pointer)

def setCurrentTail (pointer : String) : StoredScript Unit := write (·.setTail pointer)

def emptyPointers : StoredScript Unit := do
  setCurrentHead ""
  setCurrentTail ""

/-- How `%.14g` writes the numbers that are no integers. -/
abbrev Fractions := Rat → String

variable (fraction : Fractions)

def tostring (number : Rat) : String :=
  if number.den = 1 then Lua.tostring number.num else fraction number

/-- `join_pool_value`; `tostring(nil)` is `nil`. -/
def joinPoolValue (prev next : Option String) (expiry : Option Rat) : String :=
  prev.getD "nil" ++ poolValueSep ++ next.getD "nil" ++ poolValueSep ++
    tostring fraction (expiry.getD (-1))

def allocated (expiry : Option Rat) : String :=
  joinPoolValue fraction (some allocatedSentinel) (some allocatedSentinel) expiry

/-! ## `push_to_tail` -/

def assertPushable (itemName : String) : StoredScript Unit := do
  match ← hget itemName with
  | none => pure ()
  | some itemVal =>
    let (prev, next, _) := splitPoolValue (some itemVal)
    luaAssert (prev = some allocatedSentinel ∨ prev = some "") "item should be allocated or free"
    luaAssert (next = some "" ∨ next = some allocatedSentinel)
      "item should be the last item in the free list"

def linkBehindTail (head tail itemName : String) : StoredScript Unit :=
  if tail = "" ∨ head = "" then setCurrentHead itemName
  else do
    let tailVal ← assertSome (← hget tail) "tail value should not be nil"
    let (tailPrev, tailNext, tailExpiry) := splitPoolValue (some tailVal)
    luaAssert (tailNext = some "") "tail should be the last item in the free list"
    hset tail (joinPoolValue fraction tailPrev (some itemName) tailExpiry)

def pushToTail (itemName : String) (expiry : Option Rat) : StoredScript Unit := do
  let head ← currentHead
  let tail ← currentTail
  assertPushable itemName
  hset itemName (joinPoolValue fraction (some tail) (some "") expiry)
  linkBehindTail fraction head tail itemName
  setCurrentTail itemName

/-! ## `pop_from_head` -/

def advanceHeadAfterRemoval (headNext : Option String) : StoredScript Unit :=
  if headNext = some "" then emptyPointers
  else do
    let headNext ← argument headNext
    match ← hget headNext with
    | none => emptyPointers
    | some nextVal =>
      let (_, nNext, nExpiry) := splitPoolValue (some nextVal)
      hset headNext (joinPoolValue fraction (some "") nNext nExpiry)
      setCurrentHead headNext

def unlinkHead (headNext : Option String) : StoredScript Unit :=
  if headNext = some "" then emptyPointers
  else do
    let headNext ← argument headNext
    let nextVal ← assertSome (← hget headNext) "next value should not be nil"
    let (_, nextNext, nextExpiry) := splitPoolValue (some nextVal)
    hset headNext (joinPoolValue fraction (some "") nextNext nextExpiry)
    setCurrentHead headNext

def popFromHead : Nat → StoredScript (Option String × Option Rat)
  | 0 => abort .recursionLimit
  | fuel + 1 => do
    let head ← currentHead
    if head = "" then pure (none, some (-1))
    else do
      let headVal ← assertSome (← hget head) "head value should not be nil"
      let (_, headNext, headExpiry) := splitPoolValue (some headVal)
      let expired ← isExpiryInvalid headExpiry
      let locked ← existsLock head
      if expired then do
        hdel head
        advanceHeadAfterRemoval fraction headNext
        popFromHead fuel
      else if locked then do
        hset head (allocated fraction headExpiry)
        advanceHeadAfterRemoval fraction headNext
        popFromHead fuel
      else do
        unlinkHead fraction headNext
        hset head (allocated fraction headExpiry)
        pure (some head, headExpiry)

/-! ## `set_item_allocated` and `check_item_health` -/

def dropIfExpired (itemName : String) (expiry : Option Rat) : StoredScript Unit := do
  let expired ← isExpiryInvalid expiry
  if expired then hdel itemName else pure ()

def relinkPrev (prev next : Option String) : StoredScript Unit :=
  if prev = some "" then do setCurrentHead (← argument next)
  else do
    let prev ← argument prev
    let prevVal ← assertSome (← hget prev) "prev value should not be nil"
    let (prevPrev, _, prevExpiry) := splitPoolValue (some prevVal)
    hset prev (joinPoolValue fraction prevPrev next prevExpiry)

def relinkNext (prev next : Option String) : StoredScript Unit :=
  if next = some "" then do setCurrentTail (← argument prev)
  else do
    let next ← argument next
    let nextVal ← assertSome (← hget next) "next value should not be nil"
    let (_, nextNext, nextExpiry) := splitPoolValue (some nextVal)
    hset next (joinPoolValue fraction prev nextNext nextExpiry)

def givenOrStored (itemName : String) : Option String → StoredScript String
  | some val => pure val
  | none => do assertSome (← hget itemName) "val should not be nil"

def setItemAllocated (itemName : String) (given : Option String) : StoredScript Unit := do
  let val ← givenOrStored itemName given
  let (prev, next, expiry) := splitPoolValue (some val)
  if prev = some allocatedSentinel then
    luaAssert (next = some allocatedSentinel) "next item should also be allocated"
  else do
    luaAssert (next ≠ some allocatedSentinel) "next item should not be allocated"
    dropIfExpired itemName expiry
    relinkPrev fraction prev next
    relinkNext fraction prev next
    hset itemName (allocated fraction expiry)

def checkItemHealth (itemName : String) : StoredScript Unit := do
  let value ← assertSome (← hget itemName) "value should not be nil"
  let (prev, _, expiry) := splitPoolValue (some value)
  let expired ← isExpiryInvalid expiry
  if expired then do
    setItemAllocated fraction itemName (some value)
    hdel itemName
  else do
    let locked ← existsLock itemName
    if prev = some allocatedSentinel then
      if locked then pure () else pushToTail fraction itemName expiry
    else
      if locked then setItemAllocated fraction itemName (some value) else pure ()

/-! ## `get_free_list` -/

def freeListRounds : Nat → Option String → List String → StoredScript (List String)
  | 0, _, items => pure items
  | rounds + 1, current, items =>
    match current with
    | none => pure items
    | some current =>
      if current = "" then pure items
      else do
        match ← hget current with
        | none => pure (items ++ [current])
        | some val =>
          let (_, next, _) := splitPoolValue (some val)
          if next = some "" ∨ next = some allocatedSentinel then pure (items ++ [current])
          else freeListRounds rounds next (items ++ [current])

def getFreeList : StoredScript (List String) := do
  let current ← currentHead
  if current = "" then pure []
  else do
    let maxIters ← hlen
    freeListRounds maxIters (some current) []

/-! ## The scripts -/

def raiseInvalid (keys : List String) : StoredScript Unit :=
  match validateKeys keys with
  | .error error => abort (.valueError error)
  | .ok () => pure ()

def insertUnlocked (itemName : String) (expiry : Int) : StoredScript Unit := do
  let _ ← delLock itemName
  pushToTail fraction itemName (some expiry)

def extendItem (expiry : Int) (itemName : String) : StoredScript Unit := do
  match ← hget itemName with
  | some val =>
    let (prev, next, _) := splitPoolValue (some val)
    hset itemName (joinPoolValue fraction prev next (some expiry))
  | none => insertUnlocked fraction itemName expiry

def extendScript (timeout : Int) (keys : List String) : StoredScript Unit := do
  let expiry ← timeoutToExpiry timeout
  keys.forM (extendItem fraction expiry)

def extend (keys : List String) (timeout : Option Int) : StoredScript Unit :=
  if keys = [] then pure ()
  else do
    raiseInvalid keys
    extendScript fraction (timeout.getD (-1)) keys

def evict (itemName : String) : StoredScript Unit := do
  setItemAllocated fraction itemName none
  hdel itemName

def shrinkItem (itemName : String) : StoredScript Unit := do
  let isMember ← hexists itemName
  if isMember then evict fraction itemName else pure ()

def shrink (keys : List String) : StoredScript Unit :=
  if keys = [] then pure () else keys.forM (shrinkItem fraction)

def clear : StoredScript Unit := do
  write fun t => { t with pool := ∅ }
  emptyPointers

def keepOrEvict (assignSet : List String) (itemName : String) : StoredScript (List String) :=
  if itemName ∈ assignSet then pure (assignSet.filter (· ≠ itemName))
  else do
    evict fraction itemName
    pure assignSet

def addIfLeft (assignSet : List String) (expiry : Int) (k : String) : StoredScript Unit :=
  if k ∈ assignSet then insertUnlocked fraction k expiry else pure ()

def assignScript (timeout : Int) (keys allItems pairs : List String) : StoredScript Unit := do
  let expiry ← timeoutToExpiry timeout
  let assignSet ← allItems.foldlM (keepOrEvict fraction) keys
  pairs.forM (addIfLeft fraction assignSet expiry)

def assign (keys : List String) (timeout : Int) (allItems pairs : List String) :
    StoredScript Unit :=
  if keys = [] then clear
  else do
    raiseInvalid keys
    assignScript fraction timeout keys allItems pairs

def refreshCache (name : String) (cacheTimeout : Int) (cacheKey : String) : StoredScript Unit :=
  if name = "" then pure ()
  else if 0 < cacheTimeout then setBind name cacheKey (some cacheTimeout)
  else setBind name cacheKey none

def lockBound (shared : Bool) (timeout : Int) (cachedKey : String) : StoredScript Unit :=
  if shared then pure ()
  else do
    setItemAllocated fraction cachedKey none
    setLock cachedKey "1" (some timeout)

def mallocBound (shared : Bool) (timeout : Int) (name : String) (cacheTimeout : Int) :
    StoredScript (Option String) :=
  if name = "" then pure none
  else do
    match ← getBind name with
    | none => pure none
    | some cachedKey =>
      let isMember ← hexists cachedKey
      let locked ← existsLock cachedKey
      if !isMember || locked then do
        delBind name
        pure none
      else do
        refreshCache name cacheTimeout cachedKey
        lockBound fraction shared timeout cachedKey
        pure (some cachedKey)

def lockOrRotate (shared : Bool) (timeout : Int) (itemName : String) (expiry : Option Rat) :
    StoredScript Unit :=
  if shared then pushToTail fraction itemName expiry
  else if 0 < timeout then setLock itemName "1" (some timeout)
  else setLock itemName "1" none

def mallocPop (shared : Bool) (timeout : Int) (name : String) (cacheTimeout : Int) :
    StoredScript (Option String) := do
  let size ← hlen
  let popped ← popFromHead fraction (size + 2)
  match popped.1 with
  | none => pure none
  | some itemName =>
    lockOrRotate fraction shared timeout itemName popped.2
    refreshCache name cacheTimeout itemName
    pure (some itemName)

def mallocScript (shared : Bool) (timeout : Int) (name : String) (cacheTimeout : Int) :
    StoredScript (Option String) := do
  match ← mallocBound fraction shared timeout name cacheTimeout with
  | some cachedKey => pure (some cachedKey)
  | none => mallocPop fraction shared timeout name cacheTimeout

def freeItem (expiry : Int) (k : String) : StoredScript Unit := do
  let deleted ← delLock k
  let isMember ← hexists k
  if 0 < deleted ∧ isMember then pushToTail fraction k (some expiry) else pure ()

def freeScript (timeout : Int) (keys : List String) : StoredScript Unit := do
  let expiry ← timeoutToExpiry timeout
  keys.forM (freeItem fraction expiry)

def freeKeys (keys : List String) (timeout : Int) : StoredScript Unit :=
  if keys = [] then pure () else freeScript fraction timeout keys

def getCursor : StoredScript String :=
  read fun t =>
    match t.gcCursor with
    | none => "0"
    | some cursor => if cursor = "" then "0" else cursor

def setCursor (cursor : String) : StoredScript Unit :=
  write fun t => { t with gcCursor := some cursor }

def gcScript (count : Int) (hscan : String → Int → ScanReply) : StoredScript Unit := do
  let cursor ← getCursor
  let reply := hscan cursor count
  reply.items.forM (checkItemHealth fraction)
  setCursor reply.cursor

def gc (count : Int) (hscan : String → Int → ScanReply) : StoredScript Unit :=
  if 0 < count then gcScript fraction count hscan
  else abort (.assertionError "count should be positive")

/-- `Call.perform` on the strings. -/
def perform (shared : Bool) : Call → StoredScript (Option String)
  | .extend keys timeout => do extend fraction keys timeout; pure none
  | .shrink keys => do shrink fraction keys; pure none
  | .assign keys timeout allItems pairs => do
    assign fraction keys timeout allItems pairs
    pure none
  | .clear => do clear; pure none
  | .mallocKey timeout name cacheTimeout =>
    mallocScript fraction shared timeout.wholeSeconds (name.getD "") cacheTimeout.wholeSeconds
  | .freeKeys keys timeout => do freeKeys fraction keys timeout; pure none
  | .gc count hscan => do gc fraction count hscan; pure none

end Stored

end RedisAllocator

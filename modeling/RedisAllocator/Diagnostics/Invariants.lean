import Mathlib.Data.Finset.Sort
import Mathlib.Data.List.AList
import Mathlib.Data.String.Basic
import RedisAllocator.Codec.PoolValue
import RedisAllocator.Lib.PointerWalk
import RedisAllocator.Locks.LockClasses

/-!
# The invariant checks of the diagnostics

`diagnostics/invariants.py` over a raw snapshot, and the snapshot that the
collector's script takes of a pool.  A Python dictionary is an association list,
`sorted` of a set its elements by code points.
-/

set_option autoImplicit false

namespace RedisAllocator

/-! ## Decoding -/

namespace Python

/-- The digits behind a first one; single underscores may stand between digits. -/
def readDigits (value : Nat) : List Char → Option Nat
  | [] => some value
  | '_' :: c :: text =>
    if c.isDigit then readDigits (10 * value + (c.toNat - '0'.toNat)) text else none
  | c :: text => if c.isDigit then readDigits (10 * value + (c.toNat - '0'.toNat)) text else none

def digits : List Char → Option Int
  | [] => none
  | c :: text => if c.isDigit then (readDigits (c.toNat - '0'.toNat) text).map Int.ofNat else none

/-- `int(text)` of an ASCII text; `none` is its `ValueError`. -/
def int (text : List Char) : Option Int := Lua.signed digits (Lua.trim text)

/-- `text.partition("||")` and `text.rpartition("||")`, the separator left out. -/
def partition (text : List Char) : List Char × List Char :=
  (GreedyMatch.cutFirst '|' text).getD (text, [])

def rpartition (text : List Char) : List Char × List Char :=
  (GreedyMatch.cutLast '|' text).getD ([], text)

end Python

def parsePoolEntry (raw : String) : PoolEntry :=
  let (rest, expiry) := Python.rpartition raw.toList
  let (prev, next) := Python.partition rest
  ⟨String.ofList prev, String.ofList next, (Python.int expiry).getD (-1)⟩

def PoolEntry.isAllocatedMarker (entry : PoolEntry) : Bool :=
  entry.prev = allocatedSentinel && entry.next = allocatedSentinel

def PoolEntry.isFreeNode (entry : PoolEntry) : Bool := !entry.isAllocatedMarker

structure RawAllocatorSnapshot where
  head : String
  tail : String
  entries : AList fun _ : String => PoolEntry
  lockKeys : AList fun _ : String => Bool
  lockTtls : AList fun _ : String => Int
  shared : Bool
  now : Int

namespace RawAllocatorSnapshot

variable (snapshot : RawAllocatorSnapshot)

/-- `lock_keys.get(key, False)` -/
def lockKey (key : String) : Bool := (snapshot.lockKeys.lookup key).getD false

/-! ## The walks -/

/-- The loop both walks share: `visited` are the keys passed so far, which is also `seen`. -/
def walkFrom (follow : PoolEntry → String) : Nat → String → List String →
    List String × Option String
  | 0, current, visited => (visited, some current)
  | steps + 1, current, visited =>
    if current = "" then (visited, none)
    else if current ∈ visited then (visited, some current)
    else
      match snapshot.entries.lookup current with
      | none => (visited ++ ["<missing:" ++ current ++ ">"], none)
      | some entry =>
        if entry.isAllocatedMarker then (visited ++ ["<allocated:" ++ current ++ ">"], none)
        else walkFrom follow steps (follow entry) (visited ++ [current])

/-- `_walk_forward`: the nodes and markers passed, and where the walk came back to itself. -/
def walkForward : List String × Option String :=
  if snapshot.head = "" then ([], none)
  else snapshot.walkFrom PoolEntry.next (snapshot.entries.entries.length + 1) snapshot.head []

def walkBackward : List String × Option String :=
  if snapshot.tail = "" then ([], none)
  else
    let (visited, cycle) :=
      snapshot.walkFrom PoolEntry.prev (snapshot.entries.entries.length + 1) snapshot.tail []
    (visited.reverse, cycle)

end RawAllocatorSnapshot

/-! ## The violations -/

inductive Violation
  | forwardCycle (key : String)
  | backwardCycle (key : String)
  | mismatch (forward backward : List String)
  | freeSets (walked entries : Finset String)
  | emptyPool (head tail : String)
  | imbalance (head tail : String)
  | headMissing (head : String)
  | headPrev (head prev : String)
  | tailMissing (tail : String)
  | tailNext (tail next : String)
  | lockedFree (key : String)
  | halfAllocated (key : String)
deriving DecidableEq

/-- The reported text; `repr` is Python's `{key!r}`. -/
def Violation.message (repr : String → String) : Violation → String
  | .forwardCycle key => "forward walk cycle detected at " ++ repr key
  | .backwardCycle key => "backward walk cycle detected at " ++ repr key
  | .mismatch forward backward =>
    "forward/backward mismatch: forward=" ++ list forward ++ ", backward=" ++ list backward
  | .freeSets walked entries =>
    "walked free set differs from hash free set: walked=" ++ list (walked.sort (· ≤ ·)) ++
      ", entries=" ++ list (entries.sort (· ≤ ·))
  | .emptyPool head tail =>
    "empty pool has non-empty pointers: head=" ++ repr head ++ ", tail=" ++ repr tail
  | .imbalance head tail =>
    "head/tail pointer imbalance: head=" ++ repr head ++ ", tail=" ++ repr tail
  | .headMissing head => "head points to missing entry: " ++ repr head
  | .headPrev head prev =>
    "head entry prev is not empty: head=" ++ repr head ++ ", prev=" ++ repr prev
  | .tailMissing tail => "tail points to missing entry: " ++ repr tail
  | .tailNext tail next =>
    "tail entry next is not empty: tail=" ++ repr tail ++ ", next=" ++ repr next
  | .lockedFree key => "free entry has lock key: " ++ repr key
  | .halfAllocated key => "half-allocated entry: " ++ repr key
where
  /-- A list as `str` prints it. -/
  list (keys : List String) : String := "[" ++ ", ".intercalate (keys.map repr) ++ "]"

def report (broken : Prop) [Decidable broken] (violation : Violation) : List Violation :=
  if broken then [violation] else []

namespace RawAllocatorSnapshot

variable (snapshot : RawAllocatorSnapshot)

def freeViaWalk : Finset String :=
  (snapshot.walkForward.1.filter fun key => key.toList.head? ≠ some '<').toFinset

def freeViaEntries : Finset String :=
  ((snapshot.entries.entries.filter fun item => item.2.isFreeNode).map Sigma.fst).toFinset

def walkViolations : List Violation :=
  let (forward, forwardCycle) := snapshot.walkForward
  let (backward, backwardCycle) := snapshot.walkBackward
  (forwardCycle.map Violation.forwardCycle).toList ++
  (backwardCycle.map Violation.backwardCycle).toList ++
  report (forward ≠ backward) (.mismatch forward backward) ++
  report (snapshot.freeViaWalk ≠ snapshot.freeViaEntries)
    (.freeSets snapshot.freeViaWalk snapshot.freeViaEntries)

/-- One end of the list: its entry is there, and a free one has nothing beyond it. -/
def endViolations (pointer : String) (beyond : PoolEntry → String) (missing : Violation)
    (linked : String → Violation) : List Violation :=
  if pointer = "" then []
  else
    match snapshot.entries.lookup pointer with
    | none => [missing]
    | some entry => report (entry.isFreeNode ∧ beyond entry ≠ "") (linked (beyond entry))

def entryViolations (key : String) (entry : PoolEntry) : List Violation :=
  report (entry.isFreeNode ∧ snapshot.lockKey key) (.lockedFree key) ++
  report (entry.prev = allocatedSentinel ∧ entry.next ≠ allocatedSentinel) (.halfAllocated key) ++
  report (entry.next = allocatedSentinel ∧ entry.prev ≠ allocatedSentinel) (.halfAllocated key)

def checkInvariants : List Violation :=
  if snapshot.entries.entries = [] then
    snapshot.walkViolations ++
    report (snapshot.head ≠ "" ∨ snapshot.tail ≠ "") (.emptyPool snapshot.head snapshot.tail)
  else
    snapshot.walkViolations ++
    report ((snapshot.head != "") ≠ (snapshot.tail != ""))
      (.imbalance snapshot.head snapshot.tail) ++
    snapshot.endViolations snapshot.head PoolEntry.prev (.headMissing snapshot.head)
      (.headPrev snapshot.head) ++
    snapshot.endViolations snapshot.tail PoolEntry.next (.tailMissing snapshot.tail)
      (.tailNext snapshot.tail) ++
    snapshot.entries.entries.flatMap fun item => snapshot.entryViolations item.1 item.2

end RawAllocatorSnapshot

/-! ## Collecting a snapshot -/

def mapDict {β γ : Type} (value : String → β → γ) (dict : AList fun _ : String => β) :
    AList fun _ : String => γ :=
  ⟨dict.entries.map fun item => ⟨item.1, value item.1 item.2⟩, by
    rw [List.NodupKeys, List.keys, List.map_map]
    exact dict.nodupKeys⟩

/-- `_collect_raw_pool`: `kvs` is the reply of `HGETALL`, in whatever order; the server's
seconds are the local clock's where they are 0. -/
def collectRawPool (shared : Bool) (localTime : Int) (s : Redis)
    (kvs : AList fun _ : String => PoolEntry) : RawAllocatorSnapshot where
  head := s.headPointer
  tail := s.tailPointer
  entries := mapDict (fun _ entry => parsePoolEntry entry.value) kvs
  lockKeys := mapDict (fun key _ => s.locked key) kvs
  lockTtls := mapDict (fun key _ => RedisLock.ttl 0 s key) kvs
  shared := shared
  now := if s.time = 0 then localTime else s.time

end RedisAllocator

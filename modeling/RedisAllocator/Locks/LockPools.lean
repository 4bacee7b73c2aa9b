import RedisAllocator.Redis.Store

/-!
# The two lock pools

`RedisLockPool` keeps its keys in a Redis Set, `ThreadLockPool` in a Python set.
The state is the set of members; Redis has no key for an empty one.  Lua's
`unpack` raises on a table of more than `limit` elements, and what a script wrote
before it raised stays written.
-/

set_option autoImplicit false

namespace RedisAllocator

open AbortableScript AbortableScript.Script

abbrev PoolScript := Script (Finset String) Failure

inductive PoolCall
  | extend (keys : Option (List String))
  | shrink (keys : List String)
  | assign (keys : Option (List String))
  | clear
  | keys
  | contains (key : String)
  | len

inductive PoolReply
  | nothing
  | members (keys : Finset String)
  | truth (answer : Bool)
  | count (length : Nat)

/-! ## `RedisLockPool` -/

namespace RedisLockPool

def del : PoolScript Unit := write fun _ => ∅

def sadd (values : List String) : PoolScript Unit :=
  if values = [] then abort (.command "ERR wrong number of arguments for 'sadd' command")
  else write (· ∪ values.toFinset)

def srem (values : List String) : PoolScript Unit :=
  if values = [] then abort (.command "ERR wrong number of arguments for 'srem' command")
  else write (· \ values.toFinset)

def unpack (limit : Nat) (values : List String) : PoolScript (List String) :=
  if limit < values.length then abort (.command "too many results to unpack") else pure values

def extend (keys : Option (List String)) : PoolScript Unit :=
  match keys with
  | none => pure ()
  | some keys => if 0 < keys.length then sadd keys else pure ()

def shrink (keys : Option (List String)) : PoolScript Unit :=
  match keys with
  | none => pure ()
  | some keys => if 0 < keys.length then srem keys else pure ()

def assignScript (limit : Nat) (args : List String) : PoolScript Unit := do
  del
  let values ← unpack limit args
  sadd values

def clear : PoolScript Unit := del

def assign (limit : Nat) (keys : Option (List String)) : PoolScript Unit :=
  match keys with
  | none => clear
  | some keys => if 0 < keys.length then assignScript limit keys else clear

/-- `SMEMBERS` -/
def keys : PoolScript (Finset String) := read id

/-- `SISMEMBER` -/
def contains (key : String) : PoolScript Bool := read fun members => decide (key ∈ members)

def len : PoolScript Nat := do
  let members ← keys
  pure members.card

def perform (limit : Nat) : PoolCall → PoolScript PoolReply
  | .extend keys => do extend keys; pure .nothing
  | .shrink keys => do shrink (some keys); pure .nothing
  | .assign keys => do assign limit keys; pure .nothing
  | .clear => do clear; pure .nothing
  | .keys => do let members ← keys; pure (.members members)
  | .contains key => do let answer ← contains key; pure (.truth answer)
  | .len => do let length ← len; pure (.count length)

end RedisLockPool

/-! ## `ThreadLockPool` -/

namespace ThreadLockPool

def extend (keys : Option (List String)) (pool : Finset String) : Finset String :=
  match keys with
  | none => pool
  | some keys => pool ∪ keys.toFinset

def shrink (keys : List String) (pool : Finset String) : Finset String := pool \ keys.toFinset

def clear (_ : Finset String) : Finset String := ∅

def assign (keys : Option (List String)) (pool : Finset String) : Finset String :=
  extend keys (clear pool)

def perform (call : PoolCall) (pool : Finset String) : PoolReply × Finset String :=
  match call with
  | .extend keys => (.nothing, extend keys pool)
  | .shrink keys => (.nothing, shrink keys pool)
  | .assign keys => (.nothing, assign keys pool)
  | .clear => (.nothing, clear pool)
  | .keys => (.members pool, pool)
  | .contains key => (.truth (decide (key ∈ pool)), pool)
  | .len => (.count pool.card, pool)

end ThreadLockPool

/-! ## One call of each -/

def PoolCall.Fits (limit : Nat) : PoolCall → Prop
  | .assign requested => (requested.getD []).length ≤ limit
  | _ => True

instance (limit : Nat) (call : PoolCall) : Decidable (call.Fits limit) :=
  match call with
  | .assign requested => inferInstanceAs (Decidable ((requested.getD []).length ≤ limit))
  | .extend _ | .shrink _ | .clear | .keys | .contains _ | .len => inferInstanceAs (Decidable True)

section Calls

variable (limit : Nat) (members : Finset String)

theorem ThreadLockPool.assign_eq (keys : Option (List String)) :
    ThreadLockPool.assign keys members = (keys.getD []).toFinset := by
  cases keys with
  | none => rfl
  | some keys => exact Finset.empty_union _

theorem RedisLockPool.sadd_cons (key : String) (rest : List String) :
    sadd (key :: rest) members = (.ok (), members ∪ (key :: rest).toFinset) := by
  rw [sadd, if_neg (List.cons_ne_nil key rest), write_apply]

theorem RedisLockPool.extend_run (keys : Option (List String)) :
    RedisLockPool.extend keys members = (.ok (), ThreadLockPool.extend keys members) := by
  cases keys with
  | none => rfl
  | some keys =>
      rw [RedisLockPool.extend, ThreadLockPool.extend]
      cases keys with
      | nil =>
          rw [List.toFinset_nil, Finset.union_empty]
          rfl
      | cons key rest =>
          rw [if_pos (List.length_pos_of_ne_nil (List.cons_ne_nil key rest)), sadd_cons]

theorem RedisLockPool.shrink_run (keys : List String) :
    RedisLockPool.shrink (some keys) members = (.ok (), ThreadLockPool.shrink keys members) := by
  rw [RedisLockPool.shrink, ThreadLockPool.shrink]
  cases keys with
  | nil =>
      rw [List.toFinset_nil, Finset.sdiff_empty]
      rfl
  | cons key rest =>
      rw [if_pos (List.length_pos_of_ne_nil (List.cons_ne_nil key rest)), srem,
        if_neg (List.cons_ne_nil key rest), write_apply]

theorem RedisLockPool.assign_fits {limit : Nat} {keys : Option (List String)}
    (fits : (keys.getD []).length ≤ limit) :
    RedisLockPool.assign limit keys members = (.ok (), (keys.getD []).toFinset) := by
  cases keys with
  | none => rfl
  | some keys =>
      rw [Option.getD_some] at fits ⊢
      rw [RedisLockPool.assign]
      cases keys with
      | nil => rfl
      | cons key rest =>
          rw [if_pos (List.length_pos_of_ne_nil (List.cons_ne_nil key rest)), assignScript, del,
            write_bind_apply, unpack, if_neg (Nat.not_lt.mpr fits), pure_bind_apply, sadd_cons,
            Finset.empty_union]

/-- `unpack` raises behind the `DEL`: the pool is empty. -/
theorem RedisLockPool.assign_overflows {limit : Nat} {keys : Option (List String)}
    (long : limit < (keys.getD []).length) :
    RedisLockPool.assign limit keys members =
      (.error (.command "too many results to unpack"), ∅) := by
  cases keys with
  | none => exact absurd long (Nat.not_lt_zero _)
  | some keys =>
      rw [Option.getD_some] at long
      rw [RedisLockPool.assign, if_pos (Nat.zero_lt_of_lt long), assignScript, del,
        write_bind_apply, unpack, if_pos long, abort_bind_apply]

theorem RedisLockPool.perform_fits {limit : Nat} {call : PoolCall} (fits : call.Fits limit) :
    RedisLockPool.perform limit call members =
      (.ok (ThreadLockPool.perform call members).1, (ThreadLockPool.perform call members).2) := by
  cases call with
  | extend keys => rw [RedisLockPool.perform, bind_ok (extend_run members keys)]; rfl
  | shrink keys => rw [RedisLockPool.perform, bind_ok (shrink_run members keys)]; rfl
  | assign keys =>
      rw [RedisLockPool.perform, bind_ok (assign_fits members fits), ThreadLockPool.perform,
        ThreadLockPool.assign_eq]
      rfl
  | clear => rfl
  | keys => rfl
  | contains key => rfl
  | len => rfl

end Calls

/-- `assign` replaces the members or leaves them alone exactly where `unpack` takes the keys or
there is nothing to lose. -/
theorem RedisLockPool.assign_allOrNothing_iff (limit : Nat) (keys : Option (List String))
    (members : Finset String) :
    AllOrNothing (RedisLockPool.assign limit keys) members (keys.getD []).toFinset ↔
      (keys.getD []).length ≤ limit ∨ members = ∅ := by
  by_cases fits : (keys.getD []).length ≤ limit
  · exact iff_of_true (.of_ok (assign_fits members fits)) (Or.inl fits)
  · have long := Nat.lt_of_not_le fits
    have some : ∅ ≠ (keys.getD []).toFinset := by
      intro empty
      rw [eq_comm, List.toFinset_eq_empty_iff] at empty
      rw [empty] at long
      exact Nat.not_lt_zero _ long
    rw [allOrNothing_iff_of_error (assign_overflows members long), or_iff_right some,
      or_iff_right fits, eq_comm]

/-- 8001 keys for a pool of two, where `unpack` takes 8000. -/
theorem RedisLockPool.assign_empties_pool :
    ¬ AllOrNothing
      (RedisLockPool.assign 8000 (some ((List.range 8001).map fun i => "key" ++ toString i)))
      {"old1", "old2"} ((List.range 8001).map fun i => "key" ++ toString i).toFinset := by
  generalize listed : (List.range 8001).map (fun i => "key" ++ toString i) = keys
  have long : 8000 < ((some keys).getD []).length := by
    rw [Option.getD_some, ← listed, List.length_map, List.length_range]
    exact Nat.lt_succ_self 8000
  rw [allOrNothing_iff_of_error (assign_overflows _ long)]
  rintro (replaced | left)
  · rw [eq_comm, List.toFinset_eq_empty_iff, ← List.length_eq_zero_iff] at replaced
    rw [Option.getD_some, replaced] at long
    exact Nat.not_lt_zero _ long
  · exact absurd left.symm (Finset.insert_ne_empty _ _)

end RedisAllocator

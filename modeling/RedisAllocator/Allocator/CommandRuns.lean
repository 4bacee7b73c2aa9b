import RedisAllocator.Allocator.Scripts

/-!
# What the commands on locks and bindings do

The exact outcome of `DEL`, `SET` and `SET ... EX` on the two families of string
keys, of `refresh_cache`, and of the validation that runs before any script.
-/

set_option autoImplicit false

namespace RedisAllocator

open AbortableScript AbortableScript.Script

namespace Redis

variable {s s' : Redis}

def refreshed (s : Redis) (name : String) (cacheTimeout : Int) (cacheKey : String) : Redis :=
  if name = "" then s
  else s.putBind name
    (some ⟨cacheKey, if 0 < cacheTimeout then some (s.deadline cacheTimeout) else none⟩)

theorem refreshed_outside_congr (same : s'.outside = s.outside) (name : String)
    (cacheTimeout : Int) (cacheKey : String) :
    (s'.refreshed name cacheTimeout cacheKey).outside =
      (s.refreshed name cacheTimeout cacheKey).outside := by
  rw [refreshed, refreshed, deadline, deadline, now_of_outside same]
  split
  · exact same
  · exact putBind_outside_congr same _ _

@[simp] theorem lock?_refreshed (s : Redis) (name : String) (cacheTimeout : Int)
    (cacheKey other : String) :
    (s.refreshed name cacheTimeout cacheKey).lock? other = s.lock? other := by
  rw [refreshed]
  split <;> rfl

@[simp] theorem locked_refreshed (s : Redis) (name : String) (cacheTimeout : Int)
    (cacheKey other : String) :
    (s.refreshed name cacheTimeout cacheKey).locked other = s.locked other := by
  rw [locked, lock?_refreshed, locked]

@[simp] theorem now_refreshed (s : Redis) (name : String) (cacheTimeout : Int) (cacheKey : String) :
    (s.refreshed name cacheTimeout cacheKey).now = s.now := by
  rw [refreshed]
  split <;> rfl

@[simp] theorem locks_refreshed (s : Redis) (name : String) (cacheTimeout : Int)
    (cacheKey : String) : (s.refreshed name cacheTimeout cacheKey).locks = s.locks := by
  rw [refreshed]
  split <;> rfl

/-- The lock `malloc_key` leaves on what it returns; without a positive time it never lapses. -/
def mallocLock (s : Redis) (timeout : Int) : StringKey :=
  ⟨"1", if 0 < timeout then some (s.deadline timeout) else none⟩

theorem mallocLock_of_outside (same : s'.outside = s.outside) (timeout : Int) :
    s'.mallocLock timeout = s.mallocLock timeout := by
  rw [mallocLock, mallocLock, deadline, deadline, now_of_outside same]

end Redis

/-! ## Commands on locks and bindings -/

section Commands

variable (s : Redis)

theorem delLock_run (k : String) :
    Command.delLock k s = (.ok (if s.locked k then 1 else 0), s.putLock k none) := by
  simp only [Command.delLock, Command.existsLock, read_bind_apply, write_bind_apply, pure_apply]

theorem insertUnlocked_run (k : String) (e : Int) :
    insertUnlocked k e s = pushToTail k e (s.putLock k none) := rfl

theorem expireAt_ex {seconds : Int} (positive : 0 < seconds) :
    Command.expireAt (some seconds) s = (.ok (some (s.deadline seconds)), s) := by
  simp only [Command.expireAt, read_bind_apply, expiresAt?_positive _ positive]
  rfl

theorem expireAt_refused {seconds : Int} (refused : seconds ≤ 0) :
    Command.expireAt (some seconds) s =
      (.error (.command "ERR invalid expire time in 'set' command"), s) := by
  simp only [Command.expireAt, read_bind_apply, expiresAt?_refused none _ refused]
  rfl

theorem setLock_ex {seconds : Int} (positive : 0 < seconds) (k value : String) :
    Command.setLock k value (some seconds) s =
      (.ok (), s.putLock k (some ⟨value, some (s.deadline seconds)⟩)) := by
  rw [Command.setLock, bind_ok (expireAt_ex s positive)]
  rfl

theorem setLock_ex_refused {seconds : Int} (refused : seconds ≤ 0) (k value : String) :
    Command.setLock k value (some seconds) s =
      (.error (.command "ERR invalid expire time in 'set' command"), s) := by
  rw [Command.setLock, bind_error (expireAt_refused s refused)]

theorem refreshCache_run (name : String) (cacheTimeout : Int) (cacheKey : String) :
    refreshCache name cacheTimeout cacheKey s = (.ok (), s.refreshed name cacheTimeout cacheKey) := by
  rw [refreshCache, Redis.refreshed]
  by_cases noName : name = ""
  · rw [if_pos noName, if_pos noName]
    rfl
  · rw [if_neg noName, if_neg noName]
    by_cases positive : 0 < cacheTimeout
    · rw [if_pos positive, Command.setBind, bind_ok (expireAt_ex s positive)]
      simp only [if_pos positive]
      rfl
    · simp only [if_neg positive, Command.setBind, Command.expireAt]
      rfl

theorem lockOrRotate_locks (timeout : Int) (k : String) (e : Int) :
    lockOrRotate false timeout k e s = (.ok (), s.putLock k (some (s.mallocLock timeout))) := by
  rw [lockOrRotate, if_neg Bool.false_ne_true, Redis.mallocLock]
  by_cases positive : 0 < timeout
  · rw [if_pos positive, setLock_ex s positive, if_pos positive]
  · rw [if_neg positive, if_neg positive]
    rfl

end Commands

/-! ## `_validate_keys` -/

theorem validateKeys_ok_iff (keys : List String) :
    validateKeys keys = .ok () ↔ ∀ k ∈ keys, validateKey k = .ok () := by
  induction keys with
  | nil => simp [validateKeys]
  | cons k rest ih =>
      rw [validateKeys, List.forall_mem_cons, ← ih]
      cases first : validateKey k with
      | error e => simp
      | ok u => simp

theorem raiseInvalid_run (keys : List String) (s : Redis) :
    raiseInvalid keys s = (.ok (), s) ∧ validateKeys keys = .ok () ∨
      (∃ e, raiseInvalid keys s = (.error (.valueError e), s)) ∧ validateKeys keys ≠ .ok () := by
  rw [raiseInvalid]
  cases validateKeys keys with
  | error e => exact Or.inr ⟨⟨e, rfl⟩, by simp⟩
  | ok u => exact Or.inl ⟨rfl, rfl⟩

end RedisAllocator

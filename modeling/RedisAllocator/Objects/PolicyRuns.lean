import RedisAllocator.Objects.DefaultPolicy

/-!
# Runs of an allocator with its policy

The commands of any number of clients, one after the other: the pool scripts, the
two methods that write a binding of the API, and the policy's attempt at its update
lock.  What a refresh does after that is an `assign` or an `extend`, and what
`malloc` does after the refresh is a `gc` and a `malloc_key`; so the four are here
one by one, each with whatever comes between.  A lock of no key that has been a
member is one of an API binding or the update lock.
-/

set_option autoImplicit false

namespace RedisAllocator

open AbortableScript AbortableScript.Script LabelledRun

inductive PolicyCommand
  | script (call : Call)
  | updateSoftBind (name key : String) (timeout : Timeout)
  | unbindSoftBind (name : String)
  | lockUpdates

/-- The state, and every key that has been a member. -/
structure PoolHistory where
  redis : Redis
  ever : Finset String

section PolicyRun

variable {Param : Type} (policy : DefaultPolicy Param) (allocator : Allocator)

def PolicyCommand.after : PolicyCommand → Redis → Redis
  | .script call, s => (call.perform allocator.shared s).2
  | .updateSoftBind name key timeout, s =>
    (RedisAllocator.updateSoftBind allocator name key timeout s).2
  | .unbindSoftBind name, s => (RedisAllocator.unbindSoftBind allocator name s).2
  | .lockUpdates, s => (policy.lockUpdates allocator s).2

/-- Without an updater `_try_refresh_pool` returns before it takes the lock. -/
def PolicyCommand.Permitted (s : Redis) : PolicyCommand → Prop
  | .script call => call.Admissible s
  | .lockUpdates => policy.updater.isSome
  | _ => True

def PoolHistory.next (history : PoolHistory) (elapsed : Nat) (command : PolicyCommand) :
    PoolHistory :=
  let redis := command.after policy allocator (history.redis.advance elapsed)
  ⟨redis, history.ever ∪ redis.pool.keys⟩

def PolicyStep (history : PoolHistory) (command : PolicyCommand) (history' : PoolHistory) : Prop :=
  ∃ elapsed, command.Permitted policy (history.redis.advance elapsed) ∧
    history' = history.next policy allocator elapsed command

abbrev PolicyRun : PoolHistory → List PolicyCommand → PoolHistory → Prop :=
  Run (PolicyStep policy allocator)

def PoolHistory.start (now : Nat) : PoolHistory := ⟨Redis.empty now, ∅⟩

/-- The keys that have been members, are none now, and still have a live lock. -/
def PoolHistory.evicted (history : PoolHistory) : Finset String :=
  history.ever.filter fun k => history.redis.hget k = none ∧ history.redis.locked k = true

/-! ## Where locks come from -/

/-- A lock that a call leaves was there before, or its key is a member before or afterwards. -/
theorem Event.lock_origin (shared : Bool) (event : Event)
    (admissible : event.call.Admissible event.before) {k : String}
    (present : (event.after shared).locks k ≠ none) :
    event.before.locks k ≠ none ∨ event.before.hget k ≠ none ∨
      (event.after shared).hget k ≠ none := by
  have others (noFree : ¬ event.Frees k) (noMalloc : ¬ event.Returns false k)
      (same : event.after shared = event.after false) : event.before.locks k ≠ none ∨
        event.before.hget k ≠ none ∨ (event.after shared).hget k ≠ none := by
    rw [same] at present ⊢
    rcases event.lockOf_after admissible k with kept | ⟨_, frees | inserts | returns⟩
    · have sameLock : (event.after false).locks k = event.before.locks k := congrArg Prod.snd kept
      exact Or.inl (sameLock ▸ present)
    · exact absurd frees noFree
    · exact Or.inr (Or.inr inserts.2.2)
    · exact absurd returns noMalloc
  obtain ⟨s, call⟩ := event
  cases call with
  | mallocKey timeout name cacheTimeout =>
      cases shared with
      | true =>
          have kept := mallocScript_shared_locks timeout.wholeSeconds (name.getD "")
            cacheTimeout.wholeSeconds s
          exact Or.inl (kept ▸ present)
      | false =>
          by_cases returned : Event.Returns false ⟨s, .mallocKey timeout name cacheTimeout⟩ k
          · exact Or.inr (Or.inl (mallocScript_stored (Prod.ext returned rfl)))
          · refine others ?_ returned rfl
            rintro ⟨_, _, other, _⟩
            cases other
  | freeKeys keys timeout =>
      rw [Event.after, Call.perform, discard_snd] at present
      exact Or.inl (freeKeys_unlocks keys timeout s k present)
  | _ =>
      refine others ?_ (discard_ne_some _ s k) rfl
      rintro ⟨_, _, other, _⟩
      cases other

theorem lockUpdate_lockOf {j k : String} (different : k ≠ j) (value : String) (timeout : Timeout) :
    Keeps (Redis.lockOf k) (lockUpdate j value timeout) :=
  Keeps.bind (pyExpire_keeps _ timeout) fun ex => Keeps.bind (expireAt_keeps _ ex) fun _ =>
    Keeps.write fun s => by simp [Redis.lockOf, Redis.putLock, different]

theorem lock_lockOf {j k : String} (different : k ≠ j) (late : Nat) (value : String)
    (timeout : Timeout) : Keeps (Redis.lockOf k) (RedisLock.lock late j value timeout) := by
  refine Keeps.bind ?_ fun _ => Keeps.pure _
  exact Keeps.bind (pyExpire_keeps _ timeout) fun ex => Keeps.bind (expireAt_keeps _ ex) fun _ =>
    Keeps.bind (Keeps.read _) fun _ => Keeps.ite (Keeps.pure _)
      (Keeps.bind (Keeps.write fun s => by simp [Redis.lockOf, Redis.putLock, different]) fun _ =>
        Keeps.pure _)

/-- `k` is one of the two kinds of keys that get a lock without being members. -/
def Allocator.LocksBesides (k : String) : Prop :=
  (∃ name, k = allocator.softBindName name) ∨ (policy.updater.isSome ∧ k = allocator.updateLockKey)

variable {policy allocator}

theorem PolicyCommand.lock_origin {command : PolicyCommand} {s : Redis} {k : String}
    (permitted : command.Permitted policy s)
    (present : (command.after policy allocator s).locks k ≠ none) :
    s.locks k ≠ none ∨ s.hget k ≠ none ∨ (command.after policy allocator s).hget k ≠ none ∨
      allocator.LocksBesides policy k := by
  cases command with
  | script call =>
      rcases Event.lock_origin allocator.shared ⟨s, call⟩ permitted present with
        before | before | after
      · exact Or.inl before
      · exact Or.inr (Or.inl before)
      · exact Or.inr (Or.inr (Or.inl after))
  | updateSoftBind name key timeout =>
      by_cases same : k = allocator.softBindName name
      · exact Or.inr (Or.inr (Or.inr (Or.inl ⟨name, same⟩)))
      · have kept :
            (RedisAllocator.updateSoftBind allocator name key timeout s).2.locks k = s.locks k :=
          congrArg Prod.snd (lockUpdate_lockOf same key timeout s)
        exact Or.inl (kept ▸ present)
  | unbindSoftBind name =>
      have removing : Moves Unlocks (unlock (allocator.softBindName name)) :=
        Moves.bind (delLock_unlocks _) fun _ => Moves.pure _
      exact Or.inl (Moves.bind removing (fun _ => Moves.pure _) s k present)
  | lockUpdates =>
      by_cases same : k = allocator.updateLockKey
      · exact Or.inr (Or.inr (Or.inr (Or.inr ⟨permitted, same⟩)))
      · have kept : (policy.lockUpdates allocator s).2.locks k = s.locks k :=
          congrArg Prod.snd (lock_lockOf same 0 "1" _ s)
        exact Or.inl (kept ▸ present)

/-- Members are known, and so is where every lock comes from. -/
structure PoolHistory.Accounted (policy : DefaultPolicy Param) (allocator : Allocator)
    (history : PoolHistory) : Prop where
  members : ∀ k, history.redis.hget k ≠ none → k ∈ history.ever
  locks : ∀ k, history.redis.locks k ≠ none → k ∈ history.ever ∨ allocator.LocksBesides policy k

theorem PoolHistory.Accounted.start (now : Nat) :
    (PoolHistory.start now).Accounted policy allocator where
  members := fun _ present => absurd rfl present
  locks := fun _ present => absurd rfl present

theorem PoolHistory.Accounted.step {history history' : PoolHistory} {command : PolicyCommand}
    (accounted : history.Accounted policy allocator)
    (step : PolicyStep policy allocator history command history') :
    history'.Accounted policy allocator := by
  obtain ⟨elapsed, permitted, rfl⟩ := step
  have known : ∀ k, k ∈ history.ever → k ∈ (history.next policy allocator elapsed command).ever :=
    fun k => Finset.mem_union_left _
  have current : ∀ k, (history.next policy allocator elapsed command).redis.hget k ≠ none →
      k ∈ (history.next policy allocator elapsed command).ever := fun k present => by
    refine Finset.mem_union_right _ ?_
    rw [Finmap.mem_keys, Redis.mem_pool_iff]
    exact Option.ne_none_iff_exists'.mp present
  refine ⟨current, fun k present => ?_⟩
  rcases PolicyCommand.lock_origin permitted present with locked | stored | inserted | besides
  · exact (accounted.locks k locked).imp_left (known k)
  · exact Or.inl (known k (accounted.members k stored))
  · exact Or.inl (current k inserted)
  · exact Or.inr besides

theorem PolicyRun.accounted {now : Nat} {commands : List PolicyCommand} {final : PoolHistory}
    (run : PolicyRun policy allocator (.start now) commands final) :
    final.Accounted policy allocator :=
  run.invariant (PoolHistory.Accounted policy allocator) (fun _ => True)
    (fun _ _ _ accounted _ step => accounted.step step) (.start now) fun _ _ => trivial

theorem Allocator.updateLockKey_ne_softBindName (name : String) :
    allocator.updateLockKey ≠ allocator.softBindName name := by
  intro same
  simp only [updateLockKey, poolStr, softBindName, cacheStr, String.append_assoc,
    String.append_right_inj] at same
  have characters := congrArg String.toList same
  simp at characters

/-- Without an updater nobody holds the update lock. -/
theorem PolicyRun.update_unlocked {now : Nat} {commands : List PolicyCommand} {final : PoolHistory}
    (run : PolicyRun policy allocator (.start now) commands final)
    (noUpdater : policy.updater = none) (locked : final.redis.locks allocator.updateLockKey ≠ none) :
    allocator.updateLockKey ∈ final.ever := by
  rcases (PolicyRun.accounted run).locks _ locked with known | ⟨name, same⟩ | ⟨updates, _⟩
  · exact known
  · exact absurd same (Allocator.updateLockKey_ne_softBindName name)
  · rw [noUpdater] at updates
    cases updates

end PolicyRun

end RedisAllocator

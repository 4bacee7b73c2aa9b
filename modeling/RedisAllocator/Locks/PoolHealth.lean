import RedisAllocator.Locks.LockPools
import RedisAllocator.Locks.Simulation

/-!
# The lock status of a pool

`BaseLockPool.items_locked_status` and `health_check` over the members and the
locks of a pool, in both classes.  A set is listed in an order of its own, so two
pools list the same keys differently; the counts do not depend on it.
-/

set_option autoImplicit false

namespace RedisAllocator

open AbortableScript AbortableScript.Script LabelledRun

structure LockPool (Locks : Type) where
  members : Finset String
  locks : Locks

/-- The keys of a set in the order they are iterated in -/
def Lists (keys : List String) (members : Finset String) : Prop :=
  keys.Nodup ∧ keys.toFinset = members

/-- `health_check` on what `values_lock_status` yields -/
def healthCheck (items : List Bool) : Nat × Nat :=
  (items.countP id, items.length - items.countP id)

/-! ## `_get_key_lock_status` -/

/-- `MGET`; redis-py answers no keys with an empty list. -/
def RedisLockPool.getKeyLockStatus (late : Nat) (s : Redis) (keys : List String) : List Bool :=
  keys.map fun key => (RedisLock.get? late s key).isSome

def ThreadLockPool.getKeyLockStatus : List String → ThreadLock → List Bool × ThreadLock
  | [], t => ([], t)
  | key :: rest, t =>
    let (status, looked) := t.isLocked key
    let (statuses, t') := getKeyLockStatus rest looked
    (status :: statuses, t')

inductive LockPoolCall
  | pool (call : PoolCall)
  | lock (call : LockCall)
  | itemsLockedStatus
  | healthCheck

inductive LockPoolReply
  | pool (reply : PoolReply)
  | lock (reply : LockReply)
  | items (items : List (String × Bool))
  | counts (locked free : Nat)

/-- `keys` is the order in which `SMEMBERS` lists the members. -/
def RedisLockPool.respond (limit late : Nat) (keys : List String) (call : LockPoolCall)
    (pool : LockPool Redis) : Except Failure LockPoolReply × LockPool Redis :=
  match call with
  | .pool call =>
    let (reply, members) := RedisLockPool.perform limit call pool.members
    (reply.map .pool, ⟨members, pool.locks⟩)
  | .lock call =>
    let (reply, locks) := RedisLock.perform late call pool.locks
    (reply.map .lock, ⟨pool.members, locks⟩)
  | .itemsLockedStatus =>
    (.ok (.items (keys.zip (RedisLockPool.getKeyLockStatus late pool.locks keys))), pool)
  | .healthCheck =>
    let counts := RedisAllocator.healthCheck (RedisLockPool.getKeyLockStatus late pool.locks keys)
    (.ok (.counts counts.1 counts.2), pool)

def ThreadLockPool.respond (keys : List String) (call : LockPoolCall) (pool : LockPool ThreadLock) :
    LockPoolReply × LockPool ThreadLock :=
  match call with
  | .pool call =>
    let (reply, members) := ThreadLockPool.perform call pool.members
    (.pool reply, ⟨members, pool.locks⟩)
  | .lock call =>
    let (reply, locks) := pool.locks.perform call
    (.lock reply, ⟨pool.members, locks⟩)
  | .itemsLockedStatus =>
    let (statuses, locks) := ThreadLockPool.getKeyLockStatus keys pool.locks
    (.items (keys.zip statuses), ⟨pool.members, locks⟩)
  | .healthCheck =>
    let (statuses, locks) := ThreadLockPool.getKeyLockStatus keys pool.locks
    let counts := RedisAllocator.healthCheck statuses
    (.counts counts.1 counts.2, ⟨pool.members, locks⟩)

/-! ## Counting -/

theorem Lists.length_eq {keys : List String} {members : Finset String}
    (lists : Lists keys members) : keys.length = members.card := by
  rw [← lists.2, List.toFinset_card_of_nodup lists.1]

theorem healthCheck_lists {keys : List String} {members : Finset String}
    (lists : Lists keys members) (locked : String → Bool) :
    healthCheck (keys.map locked) =
      ((members.filter (locked · = true)).card,
        members.card - (members.filter (locked · = true)).card) := by
  have counted : (keys.map locked).countP id = (members.filter (locked · = true)).card := by
    rw [List.countP_map, List.countP_eq_length_filter, Function.id_comp]
    have unique : (keys.filter locked).Nodup := lists.1.filter _
    rw [← List.toFinset_card_of_nodup unique, List.toFinset_filter, lists.2]
  rw [healthCheck, counted, List.length_map, lists.length_eq]

theorem zip_getKeyLockStatus (s : Redis) (keys : List String) :
    keys.zip (RedisLockPool.getKeyLockStatus 0 s keys) =
      keys.map fun key => (key, (RedisLock.get? 0 s key).isSome) := by
  rw [RedisLockPool.getKeyLockStatus]
  induction keys with
  | nil => rfl
  | cons key rest ih => rw [List.map_cons, List.zip_cons_cons, ih, List.map_cons]

section Status

variable {s : Redis} {t : ThreadLock}

theorem Related.isLocked_iff (related : Related s t) (k : String) :
    (t.isLocked k).1 = (RedisLock.get? 0 s k).isSome := by
  cases related.sight 0 k with
  | live value instant left positive served inTime inDict deadline owned =>
      rw [owned.isLocked, inTime]
      rfl
  | free served inTime unowned =>
      rw [unowned.isLocked, inTime]
      rfl
  | overdue value instant served inTime past unowned =>
      rw [unowned.isLocked, inTime]
      rfl

theorem Related.getKeyLockStatus (related : Related s t) (keys : List String) :
    (ThreadLockPool.getKeyLockStatus keys t).1 = RedisLockPool.getKeyLockStatus 0 s keys ∧
      Related s (ThreadLockPool.getKeyLockStatus keys t).2 := by
  induction keys generalizing t with
  | nil => exact ⟨rfl, related⟩
  | cons key rest ih =>
      obtain ⟨statuses, still⟩ := ih (related.lookedUp key)
      refine ⟨?_, still⟩
      have head := related.isLocked_iff key
      have tail : (ThreadLockPool.getKeyLockStatus rest (t.isLocked key).2).1 =
          RedisLockPool.getKeyLockStatus 0 s rest := statuses
      simp only [ThreadLockPool.getKeyLockStatus, RedisLockPool.getKeyLockStatus, head, tail,
        List.map_cons]

theorem Related.perform (related : Related s t) {call : LockCall} (timely : call.timely = true)
    (rival : call.Rival 0 s) : Related (RedisLock.perform 0 call s).2 (t.perform call).2 := by
  cases call with
  | unlock k => exact related.unlock k
  | update k value timeout => exact (related.step timely rival).2 trivial
  | keyStatus k timeout => exact (related.step timely rival).2 rfl
  | lock k value timeout => exact (related.step timely rival).2 rfl
  | isLocked k => exact (related.step timely rival).2 rfl
  | lockValue k => exact (related.step timely rival).2 rfl
  | rlock k value timeout => exact (related.step timely rival).2 rfl

end Status

/-! ## Both classes side by side -/

structure PoolPair where
  redis : LockPool Redis
  thread : LockPool ThreadLock

def PoolPair.advance (pair : PoolPair) (seconds : Nat) : PoolPair where
  redis := ⟨pair.redis.members, pair.redis.locks.advance (1000 * seconds)⟩
  thread := ⟨pair.thread.members, pair.thread.locks.advance seconds⟩

/-- A call on both pools, with the order in which each lists its members. -/
structure PoolEvent where
  before : PoolPair
  call : LockPoolCall
  smembers : List String
  iteration : List String

namespace PoolEvent

variable (event : PoolEvent) (limit : Nat)

def redisReply : Except Failure LockPoolReply :=
  (RedisLockPool.respond limit 0 event.smembers event.call event.before.redis).1

def threadReply : LockPoolReply :=
  (ThreadLockPool.respond event.iteration event.call event.before.thread).1

def after : PoolPair where
  redis := (RedisLockPool.respond limit 0 event.smembers event.call event.before.redis).2
  thread := (ThreadLockPool.respond event.iteration event.call event.before.thread).2

/-- `unpack` takes the keys of an `assign`, timeouts are positive whole seconds, and a `rlock` is
not called under the value that holds the key. -/
def Fair : Prop :=
  match event.call with
  | .pool call => call.Fits limit
  | .lock call => call.timely = true ∧ call.Rival 0 event.before.redis.locks
  | _ => True

end PoolEvent

def PoolStep (limit : Nat) (pair : PoolPair) (event : PoolEvent) (pair' : PoolPair) : Prop :=
  (∃ seconds, event.before = pair.advance seconds) ∧
    Lists event.smembers event.before.redis.members ∧
    Lists event.iteration event.before.thread.members ∧ pair' = event.after limit

abbrev PoolRun (limit : Nat) : PoolPair → List PoolEvent → PoolPair → Prop := Run (PoolStep limit)

structure PoolPair.Alike (pair : PoolPair) : Prop where
  members : pair.redis.members = pair.thread.members
  locks : Related pair.redis.locks pair.thread.locks

section Alike

variable {limit : Nat} {pair pair' : PoolPair} {event : PoolEvent}

theorem PoolPair.Alike.advance (alike : pair.Alike) (seconds : Nat) :
    (pair.advance seconds).Alike := ⟨alike.members, alike.locks.advance seconds⟩

theorem PoolEvent.after_alike (alike : event.before.Alike) (fair : event.Fair limit) :
    (event.after limit).Alike := by
  obtain ⟨before, call, smembers, iteration⟩ := event
  obtain ⟨members, locks⟩ := alike
  cases call with
  | pool call =>
      have sameMembers : before.redis.members = before.thread.members := members
      have same := RedisLockPool.perform_fits before.redis.members fair
      refine ⟨?_, locks⟩
      simp only [PoolEvent.after, RedisLockPool.respond, ThreadLockPool.respond, same]
      rw [sameMembers]
  | lock call => exact ⟨members, locks.perform fair.1 fair.2⟩
  | itemsLockedStatus => exact ⟨members, (locks.getKeyLockStatus iteration).2⟩
  | healthCheck => exact ⟨members, (locks.getKeyLockStatus iteration).2⟩

theorem PoolRun.alike {start final : PoolPair} {events : List PoolEvent}
    (run : PoolRun limit start events final) (alike : start.Alike)
    (fair : ∀ event ∈ events, event.Fair limit) :
    ∀ event ∈ events, event.before.Alike ∧ Lists event.smembers event.before.redis.members ∧
      Lists event.iteration event.before.redis.members := by
  intro event inEvents
  obtain ⟨pair, pair', pairAlike, ⟨seconds, before⟩, smembers, iteration, _⟩ :=
    run.fired PoolPair.Alike (fun event => event.Fair limit)
      (fun pair event pair' alike fair step => by
        obtain ⟨⟨seconds, before⟩, _, _, after⟩ := step
        rw [after]
        exact PoolEvent.after_alike (before ▸ alike.advance seconds) fair)
      alike fair event inEvents
  have beforeAlike : event.before.Alike := before ▸ pairAlike.advance seconds
  exact ⟨beforeAlike, smembers, beforeAlike.members ▸ iteration⟩

end Alike

/-- In every run of calls on a `RedisLockPool` and a `ThreadLockPool` side by side, a health check
answers the same on both: how many members have a live lock, and how many have not.  The statuses
they list are the same pairs, in the order of each. -/
theorem healthCheck_alike (limit : Nat) {start final : PoolPair} {events : List PoolEvent}
    (noMembers : start.redis.members = ∅ ∧ start.thread.members = ∅)
    (noLocks : start.redis.locks.locks = fun _ => none) {now : Rat} (epoch : 0 ≤ now)
    (fresh : start.thread.locks = ThreadLock.empty now) (run : PoolRun limit start events final)
    (fair : ∀ event ∈ events, event.Fair limit) :
    ∀ event ∈ events,
      let locked := event.before.redis.members.filter
        fun k => (RedisLock.get? 0 event.before.redis.locks k).isSome = true
      (event.call = .healthCheck →
        event.redisReply limit =
          .ok (.counts locked.card (event.before.redis.members.card - locked.card)) ∧
        event.threadReply =
          .counts locked.card (event.before.redis.members.card - locked.card)) ∧
      (event.call = .itemsLockedStatus → ∃ items items',
        event.redisReply limit = .ok (.items items) ∧ event.threadReply = .items items' ∧
        items.Perm items' ∧ items.map Prod.fst = event.smembers ∧
        ∀ item ∈ items, item.2 = decide (item.1 ∈ locked)) := by
  intro event inEvents
  have startAlike : start.Alike :=
    ⟨noMembers.1.trans noMembers.2.symm, fresh ▸ Related.empty noLocks epoch⟩
  obtain ⟨alike, smembers, iteration⟩ := run.alike startAlike fair event inEvents
  obtain ⟨before, call, listed, iterated⟩ := event
  obtain ⟨statuses, _⟩ := alike.locks.getKeyLockStatus iterated
  refine ⟨?_, ?_⟩
  · rintro rfl
    have redis := healthCheck_lists smembers
      fun k => (RedisLock.get? 0 before.redis.locks k).isSome
    have thread := healthCheck_lists iteration
      fun k => (RedisLock.get? 0 before.redis.locks k).isSome
    refine ⟨?_, ?_⟩
    · simp only [PoolEvent.redisReply, RedisLockPool.respond, RedisLockPool.getKeyLockStatus, redis]
    · simp only [PoolEvent.threadReply, ThreadLockPool.respond, statuses,
        RedisLockPool.getKeyLockStatus, thread]
  · rintro rfl
    have redis := zip_getKeyLockStatus before.redis.locks listed
    have thread := zip_getKeyLockStatus before.redis.locks iterated
    have sameKeys : listed.Perm iterated :=
      List.perm_of_nodup_nodup_toFinset_eq smembers.1 iteration.1
        (smembers.2.trans iteration.2.symm)
    refine ⟨_, _, congrArg (Except.ok ∘ LockPoolReply.items) redis, ?_, sameKeys.map _, ?_, ?_⟩
    · simp only [PoolEvent.threadReply, ThreadLockPool.respond, statuses, thread]
    · rw [List.map_map]
      exact List.map_id listed
    · intro item inItems
      obtain ⟨k, isListed, rfl⟩ := List.mem_map.mp inItems
      have isMember : k ∈ before.redis.members := smembers.2 ▸ List.mem_toFinset.mpr isListed
      simp [isMember]

/-- A member is locked for ten seconds and looked at after four and after ten. -/
def pairStart : PoolPair := ⟨⟨∅, Redis.empty 0⟩, ⟨∅, ThreadLock.empty 1⟩⟩

def pairExtend : PoolEvent := ⟨pairStart.advance 0, .pool (.extend (some ["a", "b"])), [], []⟩

def pairLock : PoolEvent :=
  ⟨(pairExtend.after 8000).advance 0, .lock (.update "a" "1" (.int 10)), ["a", "b"], ["b", "a"]⟩

def pairCheck : PoolEvent :=
  ⟨(pairLock.after 8000).advance 4, .healthCheck, ["b", "a"], ["a", "b"]⟩

theorem pair_run : PoolRun 8000 pairStart [pairExtend, pairLock, pairCheck] (pairCheck.after 8000) :=
  .fire ⟨⟨0, rfl⟩, ⟨List.nodup_nil, rfl⟩, ⟨List.nodup_nil, rfl⟩, rfl⟩
    (.fire ⟨⟨0, rfl⟩, ⟨by decide, by decide⟩, ⟨by decide, by decide⟩, rfl⟩
      (.fire ⟨⟨4, rfl⟩, ⟨by decide, by decide⟩, ⟨by decide, by decide⟩, rfl⟩ (.done _)))

theorem healthCheck_alike_pair :
    let locked := pairCheck.before.redis.members.filter
      fun k => (RedisLock.get? 0 pairCheck.before.redis.locks k).isSome = true
    (pairCheck.call = .healthCheck →
      pairCheck.redisReply 8000 =
        .ok (.counts locked.card (pairCheck.before.redis.members.card - locked.card)) ∧
      pairCheck.threadReply =
        .counts locked.card (pairCheck.before.redis.members.card - locked.card)) ∧
    (pairCheck.call = .itemsLockedStatus → ∃ items items',
      pairCheck.redisReply 8000 = .ok (.items items) ∧ pairCheck.threadReply = .items items' ∧
      items.Perm items' ∧ items.map Prod.fst = pairCheck.smembers ∧
      ∀ item ∈ items, item.2 = decide (item.1 ∈ locked)) :=
  healthCheck_alike 8000 ⟨rfl, rfl⟩ rfl (by norm_num : (0 : Rat) ≤ 1) rfl pair_run
    (by
      intro event inEvents
      simp only [List.mem_cons, List.not_mem_nil, or_false] at inEvents
      rcases inEvents with rfl | rfl | rfl
      · trivial
      · exact ⟨rfl, trivial⟩
      · trivial)
    pairCheck (by simp)

end RedisAllocator

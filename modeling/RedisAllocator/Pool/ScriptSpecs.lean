import RedisAllocator.Allocator.CommandRuns
import RedisAllocator.Pool.Refinement

/-!
# What the scripts do to a represented pool

One lemma for each item a script treats and for each path of `_malloc_script`:
the script completes, the pool afterwards is given by the queue operation, and
every lock and binding it writes is named.  Nothing here speaks of runs.
-/

set_option autoImplicit false

namespace RedisAllocator

open AbortableScript AbortableScript.Script

/-- `x` completes on `s` with reply `a`.  The pool is then `p`, and outside the pool the state is
that of `t`. -/
def Completes {α : Type} (x : LuaScript α) (s : Redis) (a : α) (p : FreePool String) (t : Redis) :
    Prop :=
  ∃ s', x s = (.ok a, s') ∧ Represents s' p ∧ s'.outside = t.outside

section Completes

variable {α β : Type} {s t : Redis} {p : FreePool String}

theorem Completes.bind {x : LuaScript α} {f : α → LuaScript β} {a : α} {b : β}
    {q : FreePool String} {u : Redis} (first : Completes x s a p t)
    (later : ∀ s', Represents s' p → s'.outside = t.outside → Completes (f a) s' b q u) :
    Completes (x >>= f) s b q u := by
  obtain ⟨s₁, run, rep₁, frame₁⟩ := first
  obtain ⟨s₂, run₂, rep₂, frame₂⟩ := later s₁ rep₁ frame₁
  exact ⟨s₂, by rw [bind_ok run, run₂], rep₂, frame₂⟩

theorem Completes.of_keeps {x : LuaScript α} {a : α} (kept : Keeps Redis.outside x)
    (run : ∃ s', x s = (.ok a, s') ∧ Represents s' p) : Completes x s a p s := by
  obtain ⟨s', run, rep⟩ := run
  have frame := kept s
  rw [run] at frame
  exact ⟨s', run, rep, frame⟩

end Completes

/-! ## `_validate_keys` -/

theorem nameable_of_validateKey {k : String} (accepted : validateKey k = .ok ()) : Nameable k := by
  rw [validateKey] at accepted
  split at accepted
  · cases accepted
  · split at accepted
    · cases accepted
    · split at accepted
      · cases accepted
      · exact ⟨‹_›, ‹_›⟩

theorem nameable_of_validateKeys {keys : List String} (accepted : validateKeys keys = .ok ()) :
    ∀ k ∈ keys, Nameable k :=
  fun k inKeys => nameable_of_validateKey ((validateKeys_ok_iff keys).mp accepted k inKeys)

/-! ## Items of `extend`, `shrink`, `assign` and `free` -/

section Items

variable {s : Redis} {p : FreePool String} {k : String}

theorem Represents.setExpiry (rep : Represents s p) {val : PoolEntry}
    (stored : s.hget k = some val) (e : Int) :
    Represents (s.hset k ⟨val.prev, val.next, e⟩) (p.setExpiry k e) where
  head := rep.head
  tail := rep.tail
  entry := by
    intro j
    rw [Redis.hget_hset, FreePool.free_setExpiry, FreePool.expiry_setExpiry]
    by_cases same : j = k
    · subst same
      rw [if_pos rfl, Function.update_self, Option.map_some]
      rw [rep.entry j] at stored
      obtain ⟨old, _, rfl⟩ := Option.map_eq_some_iff.mp stored
      simp only [entryIn]
      split <;> rfl
    · rw [if_neg same, Function.update_of_ne same, rep.entry j]
  named := by
    intro j isMember
    by_cases same : j = k
    · subst same
      exact rep.named j (by rw [← rep.hget_isSome, stored]; rfl)
    · rw [FreePool.expiry_setExpiry, Function.update_of_ne same] at isMember
      exact rep.named j isMember

theorem pushToTail_completes (rep : Represents s p) (fresh : k ∉ p.free) (named : Nameable k)
    (e : Int) : Completes (pushToTail k e) s () (p.push k e fresh) s :=
  .of_keeps (pushToTail_keeps k e) (pushToTail_spec rep fresh named e)

theorem insertUnlocked_completes (rep : Represents s p) (fresh : k ∉ p.free) (named : Nameable k)
    (e : Int) :
    Completes (insertUnlocked k e) s () (p.push k e fresh) (s.putLock k none) := by
  obtain ⟨s', run, rep', frame⟩ := pushToTail_completes (s := s.putLock k none)
    (rep.of_outside_pool rfl rfl rfl) fresh named e
  exact ⟨s', by rw [insertUnlocked_run, run], rep', frame⟩

theorem extendItem_member (rep : Represents s p) (isMember : (p.expiry k).isSome) (e : Int) :
    Completes (extendItem e k) s () (p.setExpiry k e) s := by
  rw [← rep.hget_isSome] at isMember
  obtain ⟨val, stored⟩ := Option.isSome_iff_exists.mp isMember
  refine ⟨s.hset k ⟨val.prev, val.next, e⟩, ?_, rep.setExpiry stored e, rfl⟩
  simp only [extendItem, Command.hget, read_bind_apply, stored]
  rfl

theorem extendItem_new (rep : Represents s p) (noMember : p.expiry k = none) (named : Nameable k)
    (e : Int) :
    Completes (extendItem e k) s () (p.push k e (p.notMem_free_of_expiry_none noMember))
      (s.putLock k none) := by
  have absent := (rep.hget_none_iff k).mpr noMember
  obtain ⟨s', run, done⟩ :=
    insertUnlocked_completes rep (p.notMem_free_of_expiry_none noMember) named e
  refine ⟨s', ?_, done⟩
  simp only [extendItem, Command.hget, read_bind_apply, absent]
  exact run

theorem setItemAllocated_completes (rep : Represents s p) (isMember : (p.expiry k).isSome) :
    Completes (setItemAllocated k none) s () (p.take k) s :=
  .of_keeps (setItemAllocated_keeps k none) (setItemAllocated_spec rep isMember (Or.inl rfl))

theorem evict_completes (rep : Represents s p) (isMember : (p.expiry k).isSome) :
    Completes (evict k) s () (p.remove k) s := by
  refine (setItemAllocated_completes rep isMember).bind fun s' rep' frame => ?_
  refine ⟨s'.hdel k, rfl, ?_, frame⟩
  rw [← FreePool.take_remove]
  exact rep'.hdel (p.notMem_free_take k)

theorem shrinkItem_completes (rep : Represents s p) (k : String) :
    Completes (shrinkItem k) s () (p.remove k) s := by
  cases isMember : (p.expiry k).isSome with
  | true =>
      obtain ⟨s', run, done⟩ := evict_completes rep isMember
      refine ⟨s', ?_, done⟩
      simp only [shrinkItem, Command.hexists, read_bind_apply, rep.hget_isSome, isMember, if_true]
      exact run
  | false =>
      rw [p.remove_of_expiry_none (Option.not_isSome_iff_eq_none.mp (by simp [isMember]))]
      refine ⟨s, ?_, rep, rfl⟩
      simp only [shrinkItem, Command.hexists, read_bind_apply, rep.hget_isSome, isMember,
        Bool.false_eq_true, if_false]
      rfl

theorem clear_completes (s : Redis) : Completes clear s () FreePool.empty s :=
  ⟨_, rfl, ⟨rfl, rfl, fun k => by simp [Redis.hget, FreePool.empty, Redis.setHead, Redis.setTail],
    fun k isMember => by cases isMember⟩, rfl⟩

theorem freeItem_held (rep : Represents s p) (isMember : (p.expiry k).isSome)
    (held : s.locked k = true) (fresh : k ∉ p.free) (e : Int) :
    Completes (freeItem e k) s () (p.push k e fresh) (s.putLock k none) := by
  have rep' : Represents (s.putLock k none) p := rep.of_outside_pool rfl rfl rfl
  obtain ⟨s', run, done⟩ := pushToTail_completes rep' fresh (rep.named k isMember) e
  refine ⟨s', ?_, done⟩
  rw [freeItem, bind_ok (delLock_run s k)]
  simp only [Command.hexists, read_bind_apply, rep'.hget_isSome, isMember, held, if_true,
    Nat.zero_lt_one, and_self]
  exact run

theorem freeItem_idle (rep : Represents s p)
    (idle : ¬ (s.locked k = true ∧ (p.expiry k).isSome)) (e : Int) :
    Completes (freeItem e k) s () p (s.putLock k none) := by
  have rep' : Represents (s.putLock k none) p := rep.of_outside_pool rfl rfl rfl
  refine ⟨s.putLock k none, ?_, rep', rfl⟩
  rw [freeItem, bind_ok (delLock_run s k)]
  simp only [Command.hexists, read_bind_apply, rep'.hget_isSome]
  rw [if_neg]
  · rfl
  · rintro ⟨deleted, isMember⟩
    refine idle ⟨?_, isMember⟩
    by_contra unlocked
    rw [if_neg unlocked] at deleted
    exact absurd deleted (Nat.lt_irrefl 0)

theorem checkItemHealth_completes (rep : Represents s p) {e : Int} (found : p.expiry k = some e) :
    Completes (checkItemHealth k) s () (p.visit (s.isExpiryInvalid e) (s.locked k) k e) s :=
  .of_keeps (checkItemHealth_keeps k) (checkItemHealth_spec rep found)

end Items

/-! ## The soft-binding path of `_malloc_script` -/

theorem Represents.refreshed {s : Redis} {p : FreePool String} (rep : Represents s p)
    (name : String) (cacheTimeout : Int) (cacheKey : String) :
    Represents (s.refreshed name cacheTimeout cacheKey) p := by
  rw [Redis.refreshed]
  split
  · exact rep
  · exact rep.of_outside_pool rfl rfl rfl

section MallocBound

variable {s : Redis} {p : FreePool String} {name k : String} {binding : StringKey}
  (shared : Bool) (timeout cacheTimeout : Int)

theorem mallocBound_unbound (rep : Represents s p) (unbound : name = "" ∨ s.bind? name = none) :
    Completes (mallocBound shared timeout name cacheTimeout) s none p s := by
  refine ⟨s, ?_, rep, rfl⟩
  rw [mallocBound]
  by_cases noName : name = ""
  · rw [if_pos noName]
    rfl
  · have none := unbound.resolve_left noName
    simp only [if_neg noName, Command.getBind, read_bind_apply, none, Option.map_none]
    rfl

theorem mallocBound_bound (rep : Represents s p) (named : name ≠ "")
    (bound : s.bind? name = some binding) :
    mallocBound shared timeout name cacheTimeout s =
      (if (!(p.expiry binding.value).isSome || s.locked binding.value) = true then do
        Command.delBind name
        pure none
      else do
        refreshCache name cacheTimeout binding.value
        lockBound shared timeout binding.value
        pure (some binding.value)) s := by
  simp only [mallocBound, if_neg named, Command.getBind, read_bind_apply, bound, Option.map_some,
    Command.hexists, Command.existsLock, rep.hget_isSome]

theorem mallocBound_stale (rep : Represents s p) (named : name ≠ "")
    (bound : s.bind? name = some binding)
    (stale : p.expiry binding.value = none ∨ s.locked binding.value = true) :
    Completes (mallocBound shared timeout name cacheTimeout) s none p (s.putBind name none) := by
  refine ⟨s.putBind name none, ?_, rep.of_outside_pool rfl rfl rfl, rfl⟩
  rw [mallocBound_bound shared timeout cacheTimeout rep named bound, if_pos]
  · rfl
  · rcases stale with noMember | locked
    · rw [noMember]
      rfl
    · rw [locked, Bool.or_true]

variable (rep : Represents s p) (named : name ≠ "") (bound : s.bind? name = some binding)
  (isMember : (p.expiry binding.value).isSome) (unlocked : s.locked binding.value = false)
include rep named bound isMember unlocked

/-- A usable binding: the renewal of the binding is done, the lock is still to be taken. -/
theorem mallocBound_usable :
    mallocBound shared timeout name cacheTimeout s =
      (lockBound shared timeout binding.value >>= fun _ => pure (some binding.value))
        (s.refreshed name cacheTimeout binding.value) := by
  rw [mallocBound_bound shared timeout cacheTimeout rep named bound, if_neg]
  · rw [bind_ok (refreshCache_run s name cacheTimeout binding.value)]
  · rw [isMember, unlocked]
    exact Bool.false_ne_true

theorem mallocBound_shared :
    Completes (mallocBound true timeout name cacheTimeout) s (some binding.value) p
      (s.refreshed name cacheTimeout binding.value) := by
  refine ⟨_, ?_, rep.refreshed name cacheTimeout binding.value, rfl⟩
  rw [mallocBound_usable true timeout cacheTimeout rep named bound isMember unlocked]
  rfl

theorem mallocBound_locks (positive : 0 < timeout) :
    Completes (mallocBound false timeout name cacheTimeout) s (some binding.value)
      (p.take binding.value)
      ((s.refreshed name cacheTimeout binding.value).putLock binding.value
        (some ⟨"1", some (s.deadline timeout)⟩)) := by
  obtain ⟨s₁, run, rep₁, frame⟩ := setItemAllocated_completes
    (rep.refreshed name cacheTimeout binding.value) isMember
  refine ⟨s₁.putLock binding.value (some ⟨"1", some (s.deadline timeout)⟩), ?_,
    rep₁.of_outside_pool rfl rfl rfl, Redis.putLock_outside_congr frame _ _⟩
  rw [mallocBound_usable false timeout cacheTimeout rep named bound isMember unlocked]
  have sameDeadline : s₁.deadline timeout = s.deadline timeout := by
    rw [Redis.deadline, Redis.deadline, Redis.now_of_outside frame, Redis.now_refreshed]
  have locking : lockBound false timeout binding.value
      (s.refreshed name cacheTimeout binding.value) =
        (.ok (), s₁.putLock binding.value (some ⟨"1", some (s.deadline timeout)⟩)) := by
    rw [lockBound, if_neg Bool.false_ne_true, bind_ok run, setLock_ex s₁ positive, sameDeadline]
  rw [bind_ok locking]
  rfl

/-- `SET ... EX` with a time that is not positive stops the script after the key was unlinked. -/
theorem mallocBound_refused (refused : timeout ≤ 0) :
    ∃ s', mallocBound false timeout name cacheTimeout s =
        (.error (.command "ERR invalid expire time in 'set' command"), s') ∧
      Represents s' (p.take binding.value) ∧
      s'.outside = (s.refreshed name cacheTimeout binding.value).outside := by
  obtain ⟨s₁, run, rep₁, frame⟩ := setItemAllocated_completes
    (rep.refreshed name cacheTimeout binding.value) isMember
  refine ⟨s₁, ?_, rep₁, frame⟩
  rw [mallocBound_usable false timeout cacheTimeout rep named bound isMember unlocked]
  apply bind_error
  rw [lockBound, if_neg Bool.false_ne_true, bind_ok run, setLock_ex_refused s₁ refused]

end MallocBound

/-! ## The pop path of `_malloc_script` -/

section MallocPop

variable {s : Redis} {p : FreePool String} {k : String} (timeout cacheTimeout : Int)
  (name : String)

theorem Represents.length_le (rep : Represents s p) : p.free.length ≤ s.pool.keys.card := by
  rw [← List.toFinset_card_of_nodup p.nodup]
  refine Finset.card_le_card fun k inFree => ?_
  obtain ⟨e, _, stored⟩ := rep.hget_free (List.mem_toFinset.mp inFree)
  exact Finmap.mem_keys.mpr ((s.mem_pool_iff k).mpr ⟨_, stored⟩)

theorem popFromHead_completes (rep : Represents s p) :
    ∃ e, Completes (popFromHead (s.pool.keys.card + 2)) s
        (p.available s.isExpiryInvalid s.locked, e)
        (p.afterPop s.isExpiryInvalid s.locked) s ∧
      ∀ k, p.available s.isExpiryInvalid s.locked = some k → p.expiry k = some e := by
  have enough : p.free.length < s.pool.keys.card + 2 := by
    have fits := rep.length_le
    omega
  obtain ⟨s', e, run, rep', popped⟩ := popFromHead_spec _ rep enough
  exact ⟨e, .of_keeps (popFromHead_keeps _) ⟨s', run, rep'⟩, popped⟩

theorem mallocPop_none (shared : Bool) (rep : Represents s p)
    (exhausted : p.available s.isExpiryInvalid s.locked = none) :
    Completes (mallocPop shared timeout name cacheTimeout) s none
      (p.afterPop s.isExpiryInvalid s.locked) s := by
  obtain ⟨e, ⟨s', run, rep', frame⟩, _⟩ := popFromHead_completes rep
  rw [exhausted] at run
  refine ⟨s', ?_, rep', frame⟩
  simp only [mallocPop, Command.hlen, read_bind_apply]
  rw [bind_ok run]
  rfl

theorem mallocPop_locks (rep : Represents s p)
    (first : p.available s.isExpiryInvalid s.locked = some k) :
    Completes (mallocPop false timeout name cacheTimeout) s (some k)
      (p.afterPop s.isExpiryInvalid s.locked)
      ((s.putLock k (some (s.mallocLock timeout))).refreshed name cacheTimeout k) := by
  obtain ⟨e, ⟨s', run, rep', frame⟩, _⟩ := popFromHead_completes rep
  rw [first] at run
  have sameLock := Redis.mallocLock_of_outside frame timeout
  have repLocked : Represents (s'.putLock k (some (s.mallocLock timeout)))
      (p.afterPop s.isExpiryInvalid s.locked) := rep'.of_outside_pool rfl rfl rfl
  refine ⟨(s'.putLock k (some (s.mallocLock timeout))).refreshed name cacheTimeout k, ?_,
    repLocked.refreshed name cacheTimeout k,
    Redis.refreshed_outside_congr (Redis.putLock_outside_congr frame _ _) _ _ _⟩
  simp only [mallocPop, Command.hlen, read_bind_apply]
  rw [bind_ok run]
  simp only
  rw [bind_ok (lockOrRotate_locks s' timeout k e), bind_ok (refreshCache_run _ _ _ _), sameLock]
  rfl

theorem mallocPop_rotates (rep : Represents s p)
    (first : p.available s.isExpiryInvalid s.locked = some k) :
    ∃ e, p.expiry k = some e ∧
      Completes (mallocPop true timeout name cacheTimeout) s (some k)
        ((p.afterPop s.isExpiryInvalid s.locked).push k e (FreePool.notMem_free_afterPop first))
        (s.refreshed name cacheTimeout k) := by
  obtain ⟨e, ⟨s', run, rep', frame⟩, popped⟩ := popFromHead_completes rep
  have found := popped k first
  rw [first] at run
  have named := rep.named k (by rw [found]; rfl)
  obtain ⟨s₂, pushed, rep₂, frame₂⟩ :=
    pushToTail_completes rep' (FreePool.notMem_free_afterPop first) named e
  refine ⟨e, found, s₂.refreshed name cacheTimeout k, ?_, rep₂.refreshed name cacheTimeout k,
    Redis.refreshed_outside_congr (frame₂.trans frame) _ _ _⟩
  simp only [mallocPop, Command.hlen, read_bind_apply]
  rw [bind_ok run]
  simp only [lockOrRotate, if_true]
  rw [bind_ok pushed, bind_ok (refreshCache_run _ _ _ _)]
  rfl

end MallocPop

/-! ## Both paths of `_malloc_script` -/

/-- The key a usable binding of `name` leads to: a member without a live lock. -/
def Redis.boundKey (s : Redis) (name : String) : Option String :=
  if name = "" then none
  else ((s.bind? name).map StringKey.value).filter fun k => (s.hget k).isSome && !s.locked k

theorem Redis.boundKey_eq_some {s : Redis} {name k : String} :
    s.boundKey name = some k ↔ name ≠ "" ∧ (∃ binding, s.bind? name = some binding ∧
      binding.value = k) ∧ (s.hget k).isSome ∧ s.locked k = false := by
  rw [boundKey]
  split
  · simp_all
  · simp [Option.filter_eq_some_iff, *]

section Paths

variable {s : Redis} {p : FreePool String} {name : String} (shared : Bool)
  (timeout cacheTimeout : Int)

theorem mallocScript_pops (rep : Represents s p) (unbound : s.boundKey name = none) :
    ∃ s₁, mallocScript shared timeout name cacheTimeout s =
        mallocPop shared timeout name cacheTimeout s₁ ∧
      Represents s₁ p ∧ s₁.now = s.now ∧ s₁.locked = s.locked := by
  by_cases nothing : name = "" ∨ s.bind? name = none
  · obtain ⟨s₁, run, rep₁, frame⟩ :=
      mallocBound_unbound shared timeout cacheTimeout rep nothing
    refine ⟨s₁, ?_, rep₁, Redis.now_of_outside frame, funext (Redis.locked_of_outside frame)⟩
    rw [mallocScript, bind_ok run]
  · obtain ⟨named, isBound⟩ := not_or.mp nothing
    obtain ⟨binding, bound⟩ := Option.ne_none_iff_exists'.mp isBound
    have stale : p.expiry binding.value = none ∨ s.locked binding.value = true := by
      by_contra usable
      obtain ⟨isMember, unlocked⟩ := not_or.mp usable
      have found : s.boundKey name = some binding.value :=
        Redis.boundKey_eq_some.mpr ⟨named, ⟨binding, bound, rfl⟩,
          by rwa [rep.hget_isSome, ← Option.ne_none_iff_isSome], by simpa using unlocked⟩
      rw [unbound] at found
      cases found
    obtain ⟨s₁, run, rep₁, frame⟩ :=
      mallocBound_stale shared timeout cacheTimeout rep named bound stale
    refine ⟨s₁, ?_, rep₁, Redis.now_of_outside (s := s.putBind name none) frame,
      funext (Redis.locked_of_outside (s := s.putBind name none) frame)⟩
    rw [mallocScript, bind_ok run]

variable {k : String}

theorem mallocScript_binds (rep : Represents s p) (bound : s.boundKey name = some k) :
    Completes (mallocScript true timeout name cacheTimeout) s (some k) p
      (s.refreshed name cacheTimeout k) := by
  obtain ⟨named, ⟨binding, found, rfl⟩, isMember, unlocked⟩ := Redis.boundKey_eq_some.mp bound
  rw [rep.hget_isSome] at isMember
  obtain ⟨s', run, done⟩ :=
    mallocBound_shared timeout cacheTimeout rep named found isMember unlocked
  exact ⟨s', by rw [mallocScript, bind_ok run]; rfl, done⟩

theorem mallocScript_binds_locks (rep : Represents s p) (bound : s.boundKey name = some k)
    (positive : 0 < timeout) :
    Completes (mallocScript false timeout name cacheTimeout) s (some k) (p.take k)
      ((s.refreshed name cacheTimeout k).putLock k (some ⟨"1", some (s.deadline timeout)⟩)) := by
  obtain ⟨named, ⟨binding, found, rfl⟩, isMember, unlocked⟩ := Redis.boundKey_eq_some.mp bound
  rw [rep.hget_isSome] at isMember
  obtain ⟨s', run, done⟩ :=
    mallocBound_locks timeout cacheTimeout rep named found isMember unlocked positive
  exact ⟨s', by rw [mallocScript, bind_ok run]; rfl, done⟩

theorem mallocScript_binds_refused (rep : Represents s p) (bound : s.boundKey name = some k)
    (refused : timeout ≤ 0) :
    ∃ s', mallocScript false timeout name cacheTimeout s =
        (.error (.command "ERR invalid expire time in 'set' command"), s') ∧
      Represents s' (p.take k) ∧ s'.outside = (s.refreshed name cacheTimeout k).outside := by
  obtain ⟨named, ⟨binding, found, rfl⟩, isMember, unlocked⟩ := Redis.boundKey_eq_some.mp bound
  rw [rep.hget_isSome] at isMember
  obtain ⟨s', run, done⟩ :=
    mallocBound_refused timeout cacheTimeout rep named found isMember unlocked refused
  exact ⟨s', by rw [mallocScript, bind_error run], done⟩

end Paths

end RedisAllocator

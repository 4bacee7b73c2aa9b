import RedisAllocator.Allocator.Termination
import RedisAllocator.Allocator.CommandRuns

/-!
# Which locks a call may change

Whatever the state, also a corrupted one, and also when the script stops half
way: the lock of `k` changes only when `k` is freed, inserted into the pool or
returned by `malloc_key`, and what `malloc_key` returns had no live lock.
-/

set_option autoImplicit false

namespace RedisAllocator

open AbortableScript AbortableScript.Script

/-- The clock, the locks and the bindings: what `gc` leaves alone besides the pool. -/
def Redis.strings (s : Redis) : Nat × (String → Option StringKey) × (String → Option StringKey) :=
  (s.now, s.locks, s.binds)

def Redis.lockOf (k : String) (s : Redis) : Nat × Option StringKey := (s.now, s.locks k)

section Keeps

variable {α β : Type} {x : LuaScript α}

theorem keeps_strings (kept : Keeps Redis.outside x) : Keeps Redis.strings x := by
  intro s
  have same := kept s
  rw [Redis.strings, Redis.strings, Redis.now_of_outside same, Redis.locks_of_outside same,
    Redis.binds_of_outside same]

theorem keeps_lockOf (kept : Keeps Redis.strings x) (k : String) : Keeps (Redis.lockOf k) x := by
  intro s
  have same := kept s
  rw [Redis.strings, Redis.strings, Prod.mk.injEq, Prod.mk.injEq] at same
  rw [Redis.lockOf, Redis.lockOf, same.1, same.2.1]

theorem outside_lockOf (kept : Keeps Redis.outside x) (k : String) : Keeps (Redis.lockOf k) x :=
  keeps_lockOf (keeps_strings kept) k

theorem delLock_lockOf {j k : String} (different : k ≠ j) :
    Keeps (Redis.lockOf k) (Command.delLock j) :=
  Keeps.bind (Keeps.read _) fun _ => Keeps.bind
    (Keeps.write fun s => by simp [Redis.lockOf, Redis.putLock, different]) fun _ => Keeps.pure _

theorem raiseInvalid_keeps (keys : List String) : Keeps Redis.outside (raiseInvalid keys) := by
  rw [raiseInvalid]
  split
  · exact Keeps.abort _
  · exact Keeps.pure _

theorem evict_keeps (itemName : String) : Keeps Redis.outside (evict itemName) :=
  Keeps.bind (setItemAllocated_keeps itemName none) fun _ => hdel_keeps itemName

theorem shrink_keeps (keys : List String) : Keeps Redis.outside (shrink keys) :=
  Keeps.ite (Keeps.pure _) (Keeps.forM (fun itemName =>
    Keeps.bind (Keeps.read _) fun _ => Keeps.ite (evict_keeps itemName) (Keeps.pure _)) keys)

theorem clear_keeps : Keeps Redis.outside clear :=
  Keeps.bind (Keeps.write fun _ => rfl) fun _ => emptyPointers_keeps

theorem gc_keeps (count : Int) (hscan : String → Int → ScanReply) :
    Keeps Redis.strings (gc count hscan) :=
  Keeps.ite
    (Keeps.bind (Keeps.read _) fun _ => Keeps.bind
      (keeps_strings (Keeps.forM checkItemHealth_keeps _)) fun _ => Keeps.write fun _ => rfl)
    (Keeps.abort _)

theorem freeKeys_lockOf {keys : List String} {k : String} (unnamed : k ∉ keys) (timeout : Int) :
    Keeps (Redis.lockOf k) (freeKeys keys timeout) := by
  refine Keeps.ite (Keeps.pure _) (Keeps.bind (Keeps.read _) fun expiry => ?_)
  induction keys with
  | nil => exact Keeps.pure _
  | cons j rest ih =>
      rw [List.mem_cons, not_or] at unnamed
      exact Keeps.bind (Keeps.bind (delLock_lockOf unnamed.1) fun _ =>
        Keeps.bind (Keeps.read _) fun _ => Keeps.ite
          (outside_lockOf (pushToTail_keeps j expiry) k) (Keeps.pure _)) fun _ => ih unnamed.2

def Unlocks (s s' : Redis) : Prop := ∀ k, s'.locks k ≠ none → s.locks k ≠ none

instance : IsPreorder Redis Unlocks where
  refl _ _ := id
  trans _ _ _ first later k := first k ∘ later k

theorem outside_unlocks (kept : Keeps Redis.outside x) : Moves Unlocks x := by
  intro s k present
  rwa [Redis.locks_of_outside (kept s)] at present

theorem delLock_unlocks (j : String) : Moves Unlocks (Command.delLock j) := by
  refine Moves.bind (fun s => refl_of Unlocks s) fun _ => Moves.bind ?_ fun _ => Moves.pure _
  intro s k present
  by_cases same : k = j
  · simp [Redis.putLock, same] at present
  · simpa [Redis.putLock, same] using present

theorem freeKeys_unlocks (keys : List String) (timeout : Int) :
    Moves Unlocks (freeKeys keys timeout) := by
  rw [freeKeys]
  split
  · exact fun s => refl_of Unlocks s
  · refine Moves.bind (fun s => refl_of Unlocks s) fun expiry => Moves.forM (fun k => ?_) keys
    exact Moves.bind (delLock_unlocks k) fun _ => outside_unlocks
      (Keeps.bind (Keeps.read _) fun _ => Keeps.ite (pushToTail_keeps k expiry) (Keeps.pure _))

theorem keeps_now (kept : Keeps Redis.outside x) : Keeps Redis.now x :=
  fun s => Redis.now_of_outside (kept s)

theorem delLock_now (k : String) : Keeps Redis.now (Command.delLock k) :=
  Keeps.bind (Keeps.read _) fun _ => Keeps.bind (Keeps.write fun _ => rfl) fun _ => Keeps.pure _

theorem freeKeys_now (keys : List String) (timeout : Int) :
    Keeps Redis.now (freeKeys keys timeout) := by
  have item : ∀ expiry k, Keeps Redis.now (freeItem expiry k) := fun expiry k =>
    Keeps.bind (delLock_now k) fun _ => Keeps.bind (Keeps.read _) fun _ =>
      Keeps.ite (keeps_now (pushToTail_keeps k expiry)) (Keeps.pure _)
  exact Keeps.ite (Keeps.pure _) (Keeps.bind (Keeps.read _) fun expiry =>
    Keeps.forM (item expiry) keys)

end Keeps

/-! ## Insertion -/

def Stores (k : String) (s s' : Redis) : Prop := s.hget k ≠ none → s'.hget k ≠ none

instance (k : String) : IsPreorder Redis (Stores k) where
  refl _ := id
  trans _ _ _ first later := later ∘ first

/-- The lock of `k` is as before, unless `k` was just inserted. -/
def Guards (k : String) (s s' : Redis) : Prop :=
  (s'.lockOf k = s.lockOf k ∨ s'.now = s.now ∧ s.hget k = none ∧ s'.hget k ≠ none) ∧ Stores k s s'

instance (k : String) : IsPreorder Redis (Guards k) where
  refl _ := ⟨Or.inl rfl, id⟩
  trans a b c first later := by
    obtain ⟨lock, stores⟩ := first
    obtain ⟨lock', stores'⟩ := later
    refine ⟨?_, stores' ∘ stores⟩
    rcases lock' with same' | ⟨now', absent', present'⟩
    · rcases lock with same | ⟨now, absent, present⟩
      · exact Or.inl (same'.trans same)
      · exact Or.inr ⟨(congrArg Prod.fst same').trans now, absent, stores' present⟩
    · have absent : a.hget k = none := by
        by_contra present
        exact stores present absent'
      rcases lock with same | ⟨now, _, _⟩
      · exact Or.inr ⟨now'.trans (congrArg Prod.fst same), absent, present'⟩
      · exact Or.inr ⟨now'.trans now, absent, present'⟩

section Insertion

theorem hset_stores (j k : String) (value : PoolEntry) :
    Moves (Stores k) (Command.hset j value) := by
  intro s present
  simp only [Command.hset, write_apply, Redis.hget_hset]
  split
  · exact Option.some_ne_none _
  · exact present

theorem setCurrentTail_stores (pointer k : String) :
    Moves (Stores k) (setCurrentTail pointer) := fun _ => id

theorem linkBehindTail_stores (head tail j k : String) :
    Moves (Stores k) (linkBehindTail head tail j) := by
  rw [linkBehindTail]
  split
  · exact fun _ => id
  · refine Moves.bind (fun _ => id) fun value => Moves.bind ?_ fun val => Moves.bind ?_ fun _ =>
      hset_stores tail k _
    · cases value <;> exact fun _ => id
    · rw [luaAssert]
      split <;> exact fun _ => id

theorem pushToTail_split (j : String) (e : Int) (s : Redis) :
    (∃ failure, pushToTail j e s = (.error failure, s) ∧ s.hget j ≠ none) ∨
      pushToTail j e s = (linkBehindTail s.headPointer s.tailPointer j >>= fun _ =>
        setCurrentTail j) (s.hset j ⟨s.tailPointer, "", e⟩) := by
  have unchanged : (∃ failure, assertPushable j s = (.error failure, s) ∧ s.hget j ≠ none) ∨
      assertPushable j s = (.ok (), s) := by
    simp only [assertPushable, Command.hget, read_bind_apply]
    cases stored : s.hget j with
    | none => exact Or.inr rfl
    | some item =>
        simp only [luaAssert]
        split
        · simp only [pure_bind_apply]
          split
          · exact Or.inr rfl
          · exact Or.inl ⟨_, rfl, Option.some_ne_none _⟩
        · exact Or.inl ⟨_, rfl, Option.some_ne_none _⟩
  simp only [pushToTail, currentHead, currentTail, read_bind_apply]
  rcases unchanged with ⟨failure, refused, present⟩ | passed
  · exact Or.inl ⟨failure, bind_error refused, present⟩
  · rw [bind_ok passed]
    exact Or.inr rfl

theorem pushToTail_stores (j k : String) (e : Int) : Moves (Stores k) (pushToTail j e) := by
  intro s present
  rcases pushToTail_split j e s with ⟨_, refused, _⟩ | run
  · rw [refused]
    exact present
  · rw [run]
    refine Moves.bind (linkBehindTail_stores _ _ j k) (fun _ => setCurrentTail_stores j k) _ ?_
    rw [Redis.hget_hset]
    split
    · exact Option.some_ne_none _
    · exact present

theorem pushToTail_inserts (j : String) (e : Int) (s : Redis) :
    (pushToTail j e s).2.hget j ≠ none := by
  rcases pushToTail_split j e s with ⟨_, refused, present⟩ | run
  · rw [refused]
    exact present
  · rw [run]
    refine Moves.bind (linkBehindTail_stores _ _ j j) (fun _ => setCurrentTail_stores j j) _ ?_
    rw [Redis.hget_hset, if_pos rfl]
    exact Option.some_ne_none _

theorem insertUnlocked_now (j : String) (e : Int) (s : Redis) :
    (insertUnlocked j e s).2.now = s.now := by
  rw [insertUnlocked_run]
  exact Redis.now_of_outside (s := s.putLock j none) (pushToTail_keeps j e (s.putLock j none))

theorem insertUnlocked_stores (j k : String) (e : Int) : Moves (Stores k) (insertUnlocked j e) :=
  Moves.bind (fun _ => id) fun _ => pushToTail_stores j k e

theorem insertUnlocked_lockOf {j k : String} (different : k ≠ j) (e : Int) :
    Keeps (Redis.lockOf k) (insertUnlocked j e) :=
  Keeps.bind (delLock_lockOf different) fun _ => outside_lockOf (pushToTail_keeps j e) k

theorem extendItem_guards (j k : String) (e : Int) : Moves (Guards k) (extendItem e j) := by
  intro s
  cases stored : s.hget j with
  | some val =>
      have run : extendItem e j s = (.ok (), s.hset j ⟨val.prev, val.next, e⟩) := by
        simp only [extendItem, Command.hget, read_bind_apply, stored]
        rfl
      rw [run]
      exact ⟨Or.inl rfl, hset_stores j k _ s⟩
  | none =>
      have run : extendItem e j s = insertUnlocked j e s := by
        simp only [extendItem, Command.hget, read_bind_apply, stored]
      rw [run]
      refine ⟨?_, insertUnlocked_stores j k e s⟩
      by_cases same : k = j
      · subst same
        exact Or.inr ⟨insertUnlocked_now k e s, stored, pushToTail_inserts k e _⟩
      · exact Or.inl (insertUnlocked_lockOf same e s)

theorem extend_guards (keys : List String) (timeout : Option Int) (k : String) :
    Moves (Guards k) (extend keys timeout) := by
  rw [extend]
  split
  · exact fun s => refl_of (Guards k) s
  · refine Moves.bind (fun s => ?_) fun _ => Moves.bind (fun s => refl_of (Guards k) s) fun _ =>
      Moves.forM (fun j => extendItem_guards j k _) keys
    rcases raiseInvalid_run keys s with ⟨run, _⟩ | ⟨⟨_, run⟩, _⟩ <;>
    · rw [run]
      exact refl_of (Guards k) s

theorem extend_lockOf {keys : List String} {k : String} (unnamed : k ∉ keys)
    (timeout : Option Int) : Keeps (Redis.lockOf k) (extend keys timeout) := by
  refine Keeps.ite (Keeps.pure _) (Keeps.bind (outside_lockOf (raiseInvalid_keeps keys) k)
    fun _ => Keeps.bind (Keeps.read _) fun expiry => ?_)
  induction keys with
  | nil => exact Keeps.pure _
  | cons j rest ih =>
      rw [List.mem_cons, not_or] at unnamed
      refine Keeps.bind (Keeps.bind (Keeps.read _) fun value => ?_) fun _ => ih unnamed.2
      cases value with
      | none => exact insertUnlocked_lockOf unnamed.1 expiry
      | some val => exact Keeps.write fun _ => rfl

def LeavesOrStores (k : String) (s s' : Redis) : Prop :=
  (s'.lockOf k = s.lockOf k ∨ s'.now = s.now ∧ s'.hget k ≠ none) ∧ Stores k s s'

instance (k : String) : IsPreorder Redis (LeavesOrStores k) where
  refl _ := ⟨Or.inl rfl, id⟩
  trans a b c first later := by
    obtain ⟨lock, stores⟩ := first
    obtain ⟨lock', stores'⟩ := later
    refine ⟨?_, stores' ∘ stores⟩
    rcases lock' with same' | ⟨now', present'⟩ <;> rcases lock with same | ⟨now, present⟩
    · exact Or.inl (same'.trans same)
    · exact Or.inr ⟨(congrArg Prod.fst same').trans now, stores' present⟩
    · exact Or.inr ⟨now'.trans (congrArg Prod.fst same), present'⟩
    · exact Or.inr ⟨now'.trans now, present'⟩

theorem addIfLeft_moves (left : List String) (e : Int) (j k : String) :
    Moves (LeavesOrStores k) (addIfLeft left e j) := by
  rw [addIfLeft]
  split
  · intro s
    refine ⟨?_, insertUnlocked_stores j k e s⟩
    by_cases same : k = j
    · subst same
      exact Or.inr ⟨insertUnlocked_now k e s, pushToTail_inserts k e _⟩
    · exact Or.inl (insertUnlocked_lockOf same e s)
  · exact fun s => refl_of (LeavesOrStores k) s

theorem addIfLeft_lockOf {left : List String} {k : String} (notLeft : k ∉ left) (e : Int)
    (j : String) : Keeps (Redis.lockOf k) (addIfLeft left e j) := by
  rw [addIfLeft]
  split
  · rename_i inLeft
    refine insertUnlocked_lockOf (fun same => notLeft ?_) e
    rw [same]
    exact inLeft
  · exact Keeps.pure _

theorem keepOrEvict_keeps (left : List String) (j : String) :
    Keeps Redis.outside (keepOrEvict left j) := by
  rw [keepOrEvict]
  split
  · exact Keeps.pure _
  · exact Keeps.bind (evict_keeps j) fun _ => Keeps.pure _

theorem keepOrEvict_left {allItems : List String} : ∀ {keys left : List String} {s s' : Redis},
    allItems.foldlM keepOrEvict keys s = (.ok left, s') →
    ∀ k ∈ left, k ∈ keys ∧ k ∉ allItems := by
  induction allItems with
  | nil =>
      intro keys left s s' run k kept
      cases run
      exact ⟨kept, List.not_mem_nil⟩
  | cons j rest ih =>
      intro keys left s s' run k kept
      rw [foldlM_cons_apply] at run
      obtain ⟨_, middle, first, run⟩ := of_bind_ok run
      obtain ⟨inLeft, notRest⟩ := ih run k kept
      rw [List.mem_cons, not_or]
      rw [keepOrEvict] at first
      split at first
      · cases first
        obtain ⟨inKeys, different⟩ := List.mem_filter.mp inLeft
        exact ⟨inKeys, by simpa using different, notRest⟩
      · rename_i notKept
        obtain ⟨_, _, _, first⟩ := of_bind_ok first
        cases first
        exact ⟨inLeft, fun same => notKept (same ▸ inLeft), notRest⟩

theorem assign_guards (keys : List String) (timeout : Int) {allItems : List String}
    (pairs : List String) {s : Redis} (members : ∀ k, k ∈ allItems ↔ s.hget k ≠ none)
    (k : String) :
    let s' := (assign keys timeout allItems pairs s).2
    s'.lockOf k = s.lockOf k ∨ s'.now = s.now ∧ k ∈ keys ∧ s.hget k = none ∧ s'.hget k ≠ none := by
  simp only [assign]
  split
  · exact Or.inl (outside_lockOf clear_keeps k s)
  · rcases raiseInvalid_run keys s with ⟨accepted, _⟩ | ⟨⟨_, refused⟩, _⟩
    · rw [bind_ok accepted]
      simp only [assignScript, timeoutToExpiry, read_bind_apply]
      have evicting := outside_lockOf (Keeps.foldlM keepOrEvict_keeps allItems keys)
        k s
      cases run : allItems.foldlM keepOrEvict keys s with
      | mk outcome middle =>
          rw [run] at evicting
          cases outcome with
          | error failure =>
              rw [bind_error run]
              exact Or.inl evicting
          | ok left =>
              rw [bind_ok run]
              by_cases inLeft : k ∈ left
              · obtain ⟨inKeys, notItem⟩ := keepOrEvict_left run k inLeft
                have absent : s.hget k = none := by
                  by_contra present
                  exact notItem ((members k).mpr present)
                obtain ⟨lock, _⟩ := Moves.forM
                  (fun j => addIfLeft_moves left (s.timeoutToExpiry timeout) j k) pairs middle
                rcases lock with same | ⟨now, present⟩
                · exact Or.inl (same.trans evicting)
                · exact Or.inr ⟨now.trans (congrArg Prod.fst evicting), inKeys, absent, present⟩
              · exact Or.inl ((Keeps.forM (addIfLeft_lockOf inLeft _) pairs middle).trans evicting)
    · rw [bind_error refused]
      exact Or.inl rfl

end Insertion

/-! ## `malloc_key` -/

section Malloc

def AddsNone (s s' : Redis) : Prop := ∀ k, s'.hget k ≠ none → s.hget k ≠ none

instance : IsPreorder Redis AddsNone where
  refl _ _ := id
  trans _ _ _ first later k := first k ∘ later k

theorem SkipsHead.addsNone {s s' : Redis} (skips : SkipsHead s s') : AddsNone s s' := by
  intro k present
  rw [ne_eq, ← Redis.nextOf_eq_none] at present ⊢
  by_cases same : k = s.headPointer
  · rw [same]
    exact skips.stored
  · rwa [skips.others k same] at present

theorem popFromHead_found (fuel : Nat) {s s' : Redis} {k : String} {e : Int}
    (run : popFromHead fuel s = (.ok (some k, e), s')) : s.locked k = false ∧ s.hget k ≠ none := by
  rw [popFromHead_eq_bounded] at run
  -- the skipped heads change no lock and add no entry
  obtain ⟨last, ⟨same, known⟩, popped⟩ := bounded_ok
    (fun t => t.outside = s.outside ∧ AddsNone s t)
    (fun t t' before again => ⟨(popCall_again again).outside.trans before.1,
      trans_of AddsNone before.2 (popCall_again again).addsNone⟩)
    fuel s ⟨rfl, refl_of AddsNone s⟩ run
  obtain ⟨unlocked, stored⟩ := popCall_found popped
  rw [Redis.locked_of_outside same] at unlocked
  exact ⟨unlocked, known k stored⟩

/-- A call that returns no key changes no lock; one that returns `k` found it without a live
lock and leaves this one on it. -/
structure HandsOut (timeout : Int) (s : Redis) (reply : Except Failure (Option String))
    (s' : Redis) : Prop where
  now : s'.now = s.now
  others : (∀ k, reply ≠ .ok (some k)) → s'.locks = s.locks
  unlocked : ∀ k, reply = .ok (some k) → s.locked k = false
  locks : ∀ k, reply = .ok (some k) →
    s'.locks = Function.update s.locks k (some (s.mallocLock timeout))

theorem HandsOut.nothing {timeout : Int} {s s' : Redis} {reply : Except Failure (Option String)}
    (none : ∀ k, reply ≠ .ok (some k)) (now : s'.now = s.now) (locks : s'.locks = s.locks) :
    HandsOut timeout s reply s' :=
  ⟨now, fun _ => locks, fun k some => absurd some (none k), fun k some => absurd some (none k)⟩

theorem HandsOut.key {timeout : Int} {s s' : Redis} {k : String} (now : s'.now = s.now)
    (unlocked : s.locked k = false)
    (locks : s'.locks = Function.update s.locks k (some (s.mallocLock timeout))) :
    HandsOut timeout s (.ok (some k)) s' := by
  refine ⟨now, fun none => absurd rfl (none k), fun j same => ?_, fun j same => ?_⟩ <;>
  · cases same
    assumption

theorem mallocBound_handsOut (timeout : Int) (name : String) (cacheTimeout : Int) (s : Redis) :
    HandsOut timeout s (mallocBound false timeout name cacheTimeout s).1
      (mallocBound false timeout name cacheTimeout s).2 := by
  rw [mallocBound]
  split
  · exact .nothing (by simp) rfl rfl
  · simp only [Command.getBind, read_bind_apply]
    cases (s.bind? name).map StringKey.value with
    | none => exact .nothing (by simp) rfl rfl
    | some k =>
        simp only [Command.hexists, Command.existsLock, read_bind_apply]
        split
        · exact .nothing (by simp [Command.delBind]) rfl rfl
        · rename_i usable
          simp only [Bool.or_eq_true, Bool.not_eq_true', not_or, Bool.not_eq_true] at usable
          rw [bind_ok (refreshCache_run s name cacheTimeout k), lockBound,
            if_neg Bool.false_ne_true]
          have taking := setItemAllocated_keeps k none (s.refreshed name cacheTimeout k)
          have sameNow := Redis.now_of_outside taking
          have sameLocks := Redis.locks_of_outside taking
          rw [Redis.now_refreshed] at sameNow
          rw [Redis.locks_refreshed] at sameLocks
          cases run : setItemAllocated k none (s.refreshed name cacheTimeout k) with
          | mk outcome s₁ =>
              rw [run] at sameNow sameLocks
              cases outcome with
              | error failure =>
                  rw [bind_error (bind_error run)]
                  exact .nothing (by simp) sameNow sameLocks
              | ok u =>
                  have goOn : (setItemAllocated k none >>= fun _ =>
                      Command.setLock k "1" (some timeout)) (s.refreshed name cacheTimeout k) =
                      Command.setLock k "1" (some timeout) s₁ := bind_ok run
                  by_cases positive : 0 < timeout
                  · rw [setLock_ex s₁ positive] at goOn
                    rw [bind_ok goOn]
                    refine .key sameNow usable.2 ?_
                    have sameDeadline : s₁.deadline timeout = s.deadline timeout := by
                      rw [Redis.deadline, Redis.deadline, sameNow]
                    rw [pure_apply, Redis.mallocLock, if_pos positive, ← sameLocks, ← sameDeadline]
                    rfl
                  · rw [setLock_ex_refused s₁ (not_lt.mp positive)] at goOn
                    rw [bind_error goOn]
                    exact .nothing (by simp) sameNow sameLocks

theorem mallocPop_handsOut (timeout : Int) (name : String) (cacheTimeout : Int) (s : Redis) :
    HandsOut timeout s (mallocPop false timeout name cacheTimeout s).1
      (mallocPop false timeout name cacheTimeout s).2 := by
  simp only [mallocPop, Command.hlen, read_bind_apply]
  have popping := popFromHead_keeps (s.pool.keys.card + 2) s
  cases run : popFromHead (s.pool.keys.card + 2) s with
  | mk outcome s₁ =>
      rw [run] at popping
      have sameNow := Redis.now_of_outside popping
      have sameLocks := Redis.locks_of_outside popping
      cases outcome with
      | error failure =>
          rw [bind_error run]
          exact .nothing (by simp) sameNow sameLocks
      | ok popped =>
          obtain ⟨_ | k, e⟩ := popped
          · rw [bind_ok run]
            exact .nothing (by simp) sameNow sameLocks
          · rw [bind_ok run]
            simp only
            rw [bind_ok (lockOrRotate_locks s₁ timeout k e), bind_ok (refreshCache_run _ _ _ _)]
            refine .key ?_ (popFromHead_found _ run).1 ?_
            · rw [pure_apply, Redis.now_refreshed]
              exact sameNow
            · rw [pure_apply, Redis.locks_refreshed, Redis.mallocLock_of_outside popping,
                ← sameLocks]
              rfl

theorem mallocScript_handsOut (timeout : Int) (name : String) (cacheTimeout : Int) (s : Redis) :
    HandsOut timeout s (mallocScript false timeout name cacheTimeout s).1
      (mallocScript false timeout name cacheTimeout s).2 := by
  have bound := mallocBound_handsOut timeout name cacheTimeout s
  rw [mallocScript]
  cases run : mallocBound false timeout name cacheTimeout s with
  | mk outcome s₁ =>
      rw [run] at bound
      cases outcome with
      | error failure =>
          rw [bind_error run]
          exact .nothing (by simp) bound.now (bound.others (by simp))
      | ok found =>
          cases found with
          | some k =>
              rw [bind_ok run]
              exact .key bound.now (bound.unlocked k rfl) (bound.locks k rfl)
          | none =>
              rw [bind_ok run]
              have sameLocks := bound.others (by simp)
              have sameLock : ∀ k, s₁.locked k = s.locked k := fun k => by
                rw [Redis.locked, Redis.locked, Redis.lock?, Redis.lock?, sameLocks, bound.now]
              have popped := mallocPop_handsOut timeout name cacheTimeout s₁
              refine ⟨popped.now.trans bound.now, fun none => (popped.others none).trans sameLocks,
                fun k some => (sameLock k).symm.trans (popped.unlocked k some), fun k some => ?_⟩
              rw [popped.locks k some, sameLocks, Redis.mallocLock, Redis.mallocLock,
                Redis.deadline, Redis.deadline, bound.now]

section Stored

variable {shared : Bool} {timeout : Int} {name : String} {cacheTimeout : Int} {s s' : Redis}
  {k : String}

theorem mallocBound_stored {found : Option String}
    (run : mallocBound shared timeout name cacheTimeout s = (.ok found, s')) :
    (∀ k, found = some k → s.hget k ≠ none) ∧ (found = none → s'.pool = s.pool) := by
  rw [mallocBound] at run
  split at run
  · cases run
    exact ⟨fun _ same => (by cases same), fun _ => rfl⟩
  · simp only [Command.getBind, read_bind_apply] at run
    cases cached : (s.bind? name).map StringKey.value with
    | none =>
        rw [cached] at run
        cases run
        exact ⟨fun _ same => (by cases same), fun _ => rfl⟩
    | some cachedKey =>
        simp only [cached, Command.hexists, Command.existsLock, read_bind_apply] at run
        split at run
        · cases run
          exact ⟨fun _ same => (by cases same), fun _ => rfl⟩
        · rename_i usable
          simp only [Bool.or_eq_true, Bool.not_eq_true', not_or, Bool.not_eq_false] at usable
          obtain ⟨_, _, _, run⟩ := of_bind_ok run
          obtain ⟨_, _, _, run⟩ := of_bind_ok run
          cases run
          refine ⟨fun k same => ?_, fun none => (by cases none)⟩
          cases same
          exact Option.isSome_iff_ne_none.mp usable.1

theorem mallocPop_stored
    (run : mallocPop shared timeout name cacheTimeout s = (.ok (some k), s')) :
    s.hget k ≠ none := by
  simp only [mallocPop, Command.hlen, read_bind_apply] at run
  obtain ⟨popped, s₁, popping, run⟩ := of_bind_ok run
  obtain ⟨_ | itemName, e⟩ := popped
  · cases run
  · obtain ⟨_, _, _, run⟩ := of_bind_ok run
    obtain ⟨_, _, _, run⟩ := of_bind_ok run
    cases run
    exact (popFromHead_found _ popping).2

theorem mallocScript_stored
    (run : mallocScript shared timeout name cacheTimeout s = (.ok (some k), s')) :
    s.hget k ≠ none := by
  obtain ⟨found, s₁, bound, run⟩ := of_bind_ok run
  obtain ⟨stored, samePool⟩ := mallocBound_stored bound
  cases found with
  | some cachedKey =>
      cases run
      exact stored k rfl
  | none =>
      have present := mallocPop_stored run
      rwa [Redis.hget, samePool rfl] at present

end Stored

theorem refreshCache_locks (name : String) (cacheTimeout : Int) (cacheKey : String) :
    Keeps Redis.locks (refreshCache name cacheTimeout cacheKey) := by
  intro s
  rw [refreshCache_run, Redis.locks_refreshed]

theorem outside_locks {α : Type} {x : LuaScript α} (kept : Keeps Redis.outside x) :
    Keeps Redis.locks x :=
  fun s => Redis.locks_of_outside (kept s)

theorem mallocScript_shared_locks (timeout : Int) (name : String) (cacheTimeout : Int) :
    Keeps Redis.locks (mallocScript true timeout name cacheTimeout) := by
  have bound : Keeps Redis.locks (mallocBound true timeout name cacheTimeout) := by
    refine Keeps.ite (Keeps.pure _) (Keeps.bind (Keeps.read _) fun found => ?_)
    cases found with
    | none => exact Keeps.pure _
    | some cachedKey =>
        exact Keeps.bind (Keeps.read _) fun _ => Keeps.bind (Keeps.read _) fun _ => Keeps.ite
          (Keeps.bind (Keeps.write fun _ => rfl) fun _ => Keeps.pure _)
          (Keeps.bind (refreshCache_locks _ _ _) fun _ => Keeps.bind (Keeps.pure _) fun _ =>
            Keeps.pure _)
  refine Keeps.bind bound fun found => ?_
  cases found with
  | some cachedKey => exact Keeps.pure _
  | none =>
      refine Keeps.bind (Keeps.read _) fun size =>
        Keeps.bind (outside_locks (popFromHead_keeps _)) fun popped => ?_
      cases popped.1 with
      | none => exact Keeps.pure _
      | some itemName =>
          exact Keeps.bind (outside_locks (pushToTail_keeps _ _)) fun _ =>
            Keeps.bind (refreshCache_locks _ _ _) fun _ => Keeps.pure _

end Malloc

end RedisAllocator

import RedisAllocator.Lib.TailCalls
import RedisAllocator.Allocator.LuaFrames
import RedisAllocator.Allocator.Scripts

/-!
# `pop_from_head` ends on every state

The list under the head may be cut, cyclic or half allocated.  Each call that
goes on to another has deleted its entry or marked it allocated, and nothing in
between changes a next pointer again, so the entries that still link to
something else become fewer.  A head that is marked already links to an entry
that does not exist: the list is cleared, and the next call finds it empty.
-/

set_option autoImplicit false

namespace RedisAllocator

open AbortableScript AbortableScript.Script

/-! ## One call -/

/-- One call of `pop_from_head`; `none` is the `return pop_from_head()` of the first two
branches. -/
def popCall : LuaScript (Option (Option String × Int)) := do
  let head ← currentHead
  if head = "" then pure (some (none, -1))
  else do
    let headVal ← assertSome (← Command.hget head) "head value should not be nil"
    let expired ← isExpiryInvalid headVal.expiry
    let locked ← Command.existsLock head
    if expired then do
      Command.hdel head
      advanceHeadAfterRemoval headVal.next
      pure none
    else if locked then do
      Command.hset head (.allocated headVal.expiry)
      advanceHeadAfterRemoval headVal.next
      pure none
    else do
      unlinkHead headVal.next
      Command.hset head (.allocated headVal.expiry)
      pure (some (some head, headVal.expiry))

theorem popFromHead_eq_bounded (fuel : Nat) :
    popFromHead fuel = bounded .recursionLimit popCall fuel := by
  induction fuel with
  | zero => rfl
  | succ fuel ih =>
      funext s
      simp only [bounded, popFromHead, popCall, ih, bind_bind, currentHead, read_bind_apply]
      by_cases none : s.headPointer = ""
      · rw [if_pos none, if_pos none]
        rfl
      · rw [if_neg none, if_neg none]
        simp only [bind_bind, Command.hget, read_bind_apply]
        cases stored : s.hget s.headPointer with
        | none => rfl
        | some headVal =>
            simp only [assertSome, pure_bind_apply, isExpiryInvalid, Command.existsLock,
              read_bind_apply]
            by_cases expired : s.isExpiryInvalid headVal.expiry = true
            · rw [if_pos expired, if_pos expired]
              simp only [bind_bind]
              rfl
            · rw [if_neg expired, if_neg expired]
              split
              · simp only [bind_bind]
                rfl
              · simp only [bind_bind]
                rfl

/-! ## What a call does -/

def Redis.nextOf (s : Redis) (key : String) : Option String := (s.hget key).map (·.next)

def Redis.linked (s : Redis) : Finset String :=
  s.pool.keys.filter fun k => s.nextOf k ≠ some allocatedSentinel

section Links

variable {s s' : Redis} {key : String}

theorem Redis.nextOf_eq_none : s.nextOf key = none ↔ s.hget key = none := Option.map_eq_none_iff

theorem Redis.nextOf_hdel (other : String) :
    (s.hdel key).nextOf other = if other = key then none else s.nextOf other := by
  rw [nextOf, hget_hdel, apply_ite (Option.map PoolEntry.next), Option.map_none, nextOf]

theorem Redis.nextOf_hset (value : PoolEntry) (other : String) :
    (s.hset key value).nextOf other = if other = key then some value.next else s.nextOf other := by
  rw [nextOf, hget_hset, apply_ite (Option.map PoolEntry.next), Option.map_some, nextOf]

theorem Redis.mem_linked : key ∈ s.linked ↔
    s.nextOf key ≠ none ∧ s.nextOf key ≠ some allocatedSentinel := by
  rw [linked, Finset.mem_filter, Finmap.mem_keys, mem_pool_iff, ← Option.ne_none_iff_exists']
  exact and_congr_left' (not_congr nextOf_eq_none).symm

theorem advanceHeadAfterRemoval_links (next : String) (s : Redis) :
    ∃ s', advanceHeadAfterRemoval next s = (.ok (), s') ∧ s'.nextOf = s.nextOf ∧
      (s'.headPointer = "" ∨ s'.headPointer = next ∧ s'.nextOf next ≠ none) := by
  by_cases isNil : next = ""
  · rw [advanceHeadAfterRemoval, if_pos isNil]
    exact ⟨_, rfl, rfl, Or.inl rfl⟩
  · rw [advanceHeadAfterRemoval, if_neg isNil]
    simp only [Command.hget, read_bind_apply]
    cases stored : s.hget next with
    | none => exact ⟨_, rfl, rfl, Or.inl rfl⟩
    | some nextVal =>
        have links : (s.hset next ⟨"", nextVal.next, nextVal.expiry⟩).nextOf = s.nextOf := by
          funext k
          rw [Redis.nextOf_hset]
          by_cases same : k = next
          · rw [if_pos same, same, Redis.nextOf, stored, Option.map_some]
          · rw [if_neg same]
        refine ⟨_, rfl, links, Or.inr ⟨rfl, ?_⟩⟩
        change (s.hset next ⟨"", nextVal.next, nextVal.expiry⟩).nextOf next ≠ none
        rw [links, ne_eq, Redis.nextOf_eq_none, stored]
        exact Option.some_ne_none _

theorem unlinkHead_reply (next : String) (s : Redis) :
    (∃ s', unlinkHead next s = (.ok (), s')) ∨
      ∃ message s', unlinkHead next s = (.error (.assertion message), s') := by
  by_cases isNil : next = ""
  · rw [unlinkHead, if_pos isNil]
    exact Or.inl ⟨_, rfl⟩
  · rw [unlinkHead, if_neg isNil]
    simp only [Command.hget, read_bind_apply]
    cases stored : s.hget next with
    | none => exact Or.inr ⟨_, _, rfl⟩
    | some nextVal => exact Or.inl ⟨_, rfl⟩

inductive PopReply : Except Failure (Option String × Int) → Prop
  | key (k : String) (expiry : Int) : PopReply (.ok (some k, expiry))
  | nil : PopReply (.ok (none, -1))
  | assertion (message : String) : PopReply (.error (.assertion message))

/-- A call that goes on to another: the head it found is deleted or marked, no other entry links
elsewhere than before, and the head is now the entry behind it or nothing. -/
structure SkipsHead (s s' : Redis) : Prop where
  named : s.headPointer ≠ ""
  stored : s.nextOf s.headPointer ≠ none
  others : ∀ k, k ≠ s.headPointer → s'.nextOf k = s.nextOf k
  marked : s.headPointer ∉ s'.linked
  head : s'.headPointer = "" ∨
    s.nextOf s.headPointer = some s'.headPointer ∧ s'.nextOf s'.headPointer ≠ none
  outside : s'.outside = s.outside

theorem SkipsHead.of_dropped {t : Redis} {val : PoolEntry} (named : s.headPointer ≠ "")
    (stored : s.hget s.headPointer = some val)
    (others : ∀ k, k ≠ s.headPointer → t.nextOf k = s.nextOf k)
    (marked : s.headPointer ∉ t.linked) (same : t.outside = s.outside) :
    ∃ s', advanceHeadAfterRemoval val.next t = (.ok (), s') ∧ SkipsHead s s' := by
  obtain ⟨s', run, links, head⟩ := advanceHeadAfterRemoval_links val.next t
  have kept := advanceHeadAfterRemoval_keeps val.next t
  rw [run] at kept
  have nextOfHead : s.nextOf s.headPointer = some val.next := by
    rw [Redis.nextOf, stored, Option.map_some]
  refine ⟨s', run, named, ?_, fun k different => ?_, ?_, ?_, kept.trans same⟩
  · rw [nextOfHead]
    exact Option.some_ne_none _
  · rw [links, others k different]
  · rw [Redis.mem_linked, links, ← Redis.mem_linked]
    exact marked
  · rcases head with cleared | ⟨onNext, present⟩
    · exact Or.inl cleared
    · exact Or.inr ⟨by rw [nextOfHead, onNext], by rw [onNext]; exact present⟩

/-- Everything one call can do.  A key it hands out was stored and not locked. -/
theorem popCall_cases (s : Redis) :
    (∃ reply s', popCall s = (Except.map some reply, s') ∧ PopReply reply ∧
      ∀ k e, reply = .ok (some k, e) → s.locked k = false ∧ s.hget k ≠ none) ∨
      ∃ s', popCall s = (.ok none, s') ∧ SkipsHead s s' := by
  simp only [popCall, currentHead, read_bind_apply]
  by_cases named : s.headPointer = ""
  · rw [if_pos named]
    exact Or.inl ⟨_, _, rfl, .nil, fun k e handed => by cases handed⟩
  rw [if_neg named]
  simp only [Command.hget, read_bind_apply]
  cases stored : s.hget s.headPointer with
  | none => exact Or.inl ⟨.error _, _, rfl, .assertion _, fun k e handed => by cases handed⟩
  | some headVal =>
      simp only [assertSome, pure_bind_apply, isExpiryInvalid, read_bind_apply,
        Command.existsLock]
      by_cases expired : s.isExpiryInvalid headVal.expiry = true
      · obtain ⟨s', advanced, skips⟩ := SkipsHead.of_dropped (t := s.hdel s.headPointer) named
          stored (fun k different => by rw [Redis.nextOf_hdel, if_neg different])
          (by simp [Redis.mem_linked, Redis.nextOf_hdel]) rfl
        rw [if_pos expired]
        refine Or.inr ⟨s', ?_, skips⟩
        rw [Command.hdel, write_bind_apply, bind_ok advanced, pure_apply]
      rw [if_neg expired]
      by_cases locked : s.locked s.headPointer = true
      · obtain ⟨s', advanced, skips⟩ := SkipsHead.of_dropped
          (t := s.hset s.headPointer (.allocated headVal.expiry)) named stored
          (fun k different => by rw [Redis.nextOf_hset, if_neg different])
          (by simp [Redis.mem_linked, Redis.nextOf_hset, PoolEntry.allocated]) rfl
        rw [if_pos locked]
        refine Or.inr ⟨s', ?_, skips⟩
        rw [Command.hset, write_bind_apply, bind_ok advanced, pure_apply]
      rw [if_neg locked]
      rcases unlinkHead_reply headVal.next s with ⟨s', unlinked⟩ | ⟨message, s', stopped⟩
      · rw [bind_ok unlinked]
        refine Or.inl ⟨_, _, rfl, .key _ _, fun k e handed => ?_⟩
        cases handed
        exact ⟨Bool.eq_false_iff.mpr locked, by rw [stored]; exact Option.some_ne_none _⟩
      · rw [bind_error stopped]
        exact Or.inl ⟨.error _, _, rfl, .assertion _, fun k e handed => by cases handed⟩

theorem popCall_again (again : popCall s = (.ok none, s')) : SkipsHead s s' := by
  rcases popCall_cases s with ⟨reply, _, run, _, _⟩ | ⟨_, run, skips⟩
  · rw [run] at again
    cases reply <;> cases again
  · rw [run] at again
    cases again
    exact skips

theorem popCall_last {reply : Except Failure (Option String × Int)}
    (last : popCall s = (reply.map some, s')) : PopReply reply := by
  rcases popCall_cases s with ⟨reply', _, run, ends, _⟩ | ⟨_, run, _⟩
  · rw [run] at last
    cases reply <;> cases reply' <;> cases last <;> exact ends
  · rw [run] at last
    cases reply <;> cases last

theorem popCall_found {k : String} {e : Int} (last : popCall s = (.ok (some (some k, e)), s')) :
    s.locked k = false ∧ s.hget k ≠ none := by
  rcases popCall_cases s with ⟨reply, _, run, _, found⟩ | ⟨_, run, _⟩
  · rw [run] at last
    refine found k e ?_
    cases reply with
    | error failure => cases last
    | ok popped => cases last; rfl
  · rw [run] at last
    cases last

/-! ## The measure -/

def Redis.callsLeft (s : Redis) : Nat := if s.headPointer = "" then 0 else s.linked.card + 1

theorem SkipsHead.unreserved (skips : SkipsHead s s') (free : s.hget allocatedSentinel = none) :
    s'.hget allocatedSentinel = none := by
  rw [← Redis.nextOf_eq_none] at free ⊢
  rw [skips.others _ fun same => skips.stored (same ▸ free), free]

theorem SkipsHead.linked (skips : SkipsHead s s') : s'.linked = s.linked.erase s.headPointer := by
  ext k
  rw [Finset.mem_erase]
  by_cases same : k = s.headPointer
  · subst same
    exact iff_of_false skips.marked fun both => both.1 rfl
  · rw [Redis.mem_linked, Redis.mem_linked, skips.others k same]
    exact ⟨fun links => ⟨same, links⟩, And.right⟩

theorem SkipsHead.callsLeft_lt (skips : SkipsHead s s')
    (free : s.hget allocatedSentinel = none) : s'.callsLeft < s.callsLeft := by
  rw [Redis.callsLeft, Redis.callsLeft, if_neg skips.named]
  rcases skips.head with cleared | ⟨next, present⟩
  · rw [if_pos cleared]
    exact Nat.succ_pos _
  · -- the head behind is stored, so the entry left behind was not marked before
    have links : s.headPointer ∈ s.linked := by
      refine Redis.mem_linked.mpr ⟨skips.stored, fun mark => present ?_⟩
      rw [mark, Option.some.injEq] at next
      rw [← next, Redis.nextOf_eq_none]
      exact skips.unreserved free
    have fewer := Finset.card_erase_lt_of_mem links
    rw [← skips.linked] at fewer
    split
    · exact Nat.succ_pos _
    · exact Nat.succ_lt_succ fewer

theorem Redis.callsLeft_le (s : Redis) : s.callsLeft ≤ s.pool.keys.card + 1 := by
  have fewer : s.linked.card ≤ s.pool.keys.card := Finset.card_filter_le _ _
  rw [callsLeft]
  split
  · exact Nat.zero_le _
  · exact Nat.succ_le_succ fewer

end Links

theorem popCall_ends (s : Redis) (free : s.hget allocatedSentinel = none) :
    ∃ calls ≤ s.pool.keys.card + 2, ∃ reply s', Ends popCall s calls (reply, s') := by
  obtain ⟨calls, few, ⟨reply, s'⟩, ends⟩ := ends_of_measure
    (fun s => s.hget allocatedSentinel = none) Redis.callsLeft
    (fun s s' free again => ⟨(popCall_again again).unreserved free,
      (popCall_again again).callsLeft_lt free⟩) s free
  exact ⟨calls, few.trans (Nat.succ_le_succ s.callsLeft_le), reply, s', ends⟩

theorem popFromHead_of_ends {s s' : Redis} {calls : Nat}
    {reply : Except Failure (Option String × Int)} (ends : Ends popCall s calls (reply, s')) :
    PopReply reply ∧ ∀ fuel, calls ≤ fuel → popFromHead fuel s = (reply, s') := by
  obtain ⟨final, last⟩ := ends.lastCall
  refine ⟨popCall_last last, fun fuel enough => ?_⟩
  rw [popFromHead_eq_bounded, ends.bounded_eq _ enough]

-- a locked head that links to itself takes all the calls the bound allows
example :
    let s := (((Redis.empty 0).hset "a" ⟨"", "a", -1⟩).setHead "a").putLock "a" (some ⟨"1", none⟩)
    (popFromHead 2 s).1 = .error .recursionLimit ∧ (popFromHead 3 s).1 = .ok (none, -1) := by
  decide

/-- On every state, of whatever links, locks and clock, `pop_from_head` ends after at most two
calls more than there are entries: with a key, nil or a failed assert. -/
theorem popFromHead_terminates (s : Redis) (free : s.hget allocatedSentinel = none) :
    ∃ calls ≤ s.pool.keys.card + 2, ∃ reply s', Ends popCall s calls (reply, s') ∧
      PopReply reply ∧ ∀ fuel, calls ≤ fuel → popFromHead fuel s = (reply, s') := by
  obtain ⟨calls, few, reply, s', ends⟩ := popCall_ends s free
  exact ⟨calls, few, reply, s', ends, popFromHead_of_ends ends⟩

def selfLoop : Redis :=
  (((Redis.empty 0).hset "a" ⟨"", "a", -1⟩).setHead "a").putLock "a" (some ⟨"1", none⟩)

theorem popFromHead_terminates_selfLoop :
    ∃ calls ≤ selfLoop.pool.keys.card + 2, ∃ reply s', Ends popCall selfLoop calls (reply, s') ∧
      PopReply reply ∧ ∀ fuel, calls ≤ fuel → popFromHead fuel selfLoop = (reply, s') :=
  popFromHead_terminates selfLoop (by decide)

/-! ## An entry named like the mark -/

structure Redis.HeadIsMark (s : Redis) : Prop where
  head : s.headPointer = allocatedSentinel
  stored : ∃ val, s.hget allocatedSentinel = some val ∧ val.next = allocatedSentinel ∧
    s.isExpiryInvalid val.expiry = false
  locked : s.locked allocatedSentinel = true

theorem popCall_headIsMark {s : Redis} (isMark : s.HeadIsMark) :
    ∃ s', popCall s = (.ok none, s') ∧ s'.HeadIsMark := by
  obtain ⟨head, ⟨⟨prev, next, expiry⟩, stored, loops, current⟩, locked⟩ := isMark
  simp only at loops current
  subst loops
  have named : allocatedSentinel ≠ "" := by decide
  refine ⟨((s.hset allocatedSentinel (.allocated expiry)).hset allocatedSentinel
    ⟨"", allocatedSentinel, expiry⟩).setHead allocatedSentinel, ?_, rfl,
    ⟨⟨"", allocatedSentinel, expiry⟩, by simp, rfl, current⟩, locked⟩
  simp only [popCall, currentHead, read_bind_apply, head, named, if_false, Command.hget, stored,
    assertSome, pure_bind_apply, isExpiryInvalid, Command.existsLock, current, locked,
    Bool.false_eq_true, if_true, advanceHeadAfterRemoval, Command.hset, write_bind_apply, bind_bind,
    Redis.hget_hset]
  rfl

/-- Without the condition on the names the recursion may have no end. -/
theorem popCall_endless {s : Redis} (isMark : s.HeadIsMark) (calls : Nat)
    (outcome : Except Failure (Option String × Int) × Redis) : ¬ Ends popCall s calls outcome :=
  fun ends => not_ends Redis.HeadIsMark (fun _ => popCall_headIsMark) ends isMark

/-! ## `malloc_key` stays within its bound -/

theorem assertSome_avoids {α : Type} (value : Option α) (message : String) :
    Avoids .recursionLimit (assertSome value message) := by
  cases value with
  | none => exact Avoids.abort Failure.noConfusion
  | some a => exact Avoids.pure a

theorem luaAssert_avoids (holds : Prop) [Decidable holds] (message : String) :
    Avoids .recursionLimit (luaAssert holds message) :=
  Avoids.ite (Avoids.pure _) (Avoids.abort Failure.noConfusion)

theorem storedSome_avoids (key message : String) :
    Avoids .recursionLimit (do assertSome (← Command.hget key) message) :=
  Avoids.bind (Avoids.read _) fun value => assertSome_avoids value message

theorem expireAt_avoids (ex : Option Int) : Avoids .recursionLimit (Command.expireAt ex) := by
  cases ex with
  | none => exact Avoids.pure _
  | some seconds =>
      refine Avoids.bind (Avoids.read _) fun now => ?_
      cases expiresAt? none now seconds with
      | none => exact Avoids.abort Failure.noConfusion
      | some instant => exact Avoids.pure _

theorem setLock_avoids (key value : String) (ex : Option Int) :
    Avoids .recursionLimit (Command.setLock key value ex) :=
  Avoids.bind (expireAt_avoids ex) fun _ => Avoids.write _

theorem setBind_avoids (name value : String) (ex : Option Int) :
    Avoids .recursionLimit (Command.setBind name value ex) :=
  Avoids.bind (expireAt_avoids ex) fun _ => Avoids.write _

theorem pushToTail_avoids (itemName : String) (expiry : Int) :
    Avoids .recursionLimit (pushToTail itemName expiry) := by
  have pushable : Avoids .recursionLimit (assertPushable itemName) := by
    refine Avoids.bind (Avoids.read _) fun value => ?_
    cases value with
    | none => exact Avoids.pure _
    | some item => exact Avoids.bind (luaAssert_avoids _ _) fun _ => luaAssert_avoids _ _
  have link : ∀ head tail, Avoids .recursionLimit (linkBehindTail head tail itemName) :=
    fun head tail => Avoids.ite (Avoids.write _)
      (Avoids.bind (Avoids.read _) fun value => Avoids.bind (assertSome_avoids value _) fun _ =>
        Avoids.bind (luaAssert_avoids _ _) fun _ => Avoids.write _)
  exact Avoids.bind (Avoids.read _) fun _ => Avoids.bind (Avoids.read _) fun _ =>
    Avoids.bind pushable fun _ => Avoids.bind (Avoids.write _) fun _ =>
      Avoids.bind (link _ _) fun _ => Avoids.write _

theorem setItemAllocated_avoids (itemName : String) :
    Avoids .recursionLimit (setItemAllocated itemName none) := by
  have drop : ∀ e, Avoids .recursionLimit (dropIfExpired itemName e) := fun e =>
    Avoids.bind (Avoids.read _) fun _ => Avoids.ite (Avoids.write _) (Avoids.pure _)
  have relink : ∀ prev next, Avoids .recursionLimit (relinkPrev prev next) ∧
      Avoids .recursionLimit (relinkNext prev next) := fun prev next =>
    ⟨Avoids.ite (Avoids.write _) (Avoids.bind (Avoids.read _) fun value =>
        Avoids.bind (assertSome_avoids value _) fun _ => Avoids.write _),
      Avoids.ite (Avoids.write _) (Avoids.bind (Avoids.read _) fun value =>
        Avoids.bind (assertSome_avoids value _) fun _ => Avoids.write _)⟩
  exact Avoids.bind (storedSome_avoids itemName _) fun val => Avoids.ite (luaAssert_avoids _ _)
    (Avoids.bind (luaAssert_avoids _ _) fun _ => Avoids.bind (drop _) fun _ =>
      Avoids.bind (relink _ _).1 fun _ => Avoids.bind (relink _ _).2 fun _ => Avoids.write _)

section Malloc

variable (shared : Bool) (timeout : Int) (name : String) (cacheTimeout : Int)

theorem refreshCache_avoids (cacheKey : String) :
    Avoids .recursionLimit (refreshCache name cacheTimeout cacheKey) :=
  Avoids.ite (Avoids.pure _) (Avoids.ite (setBind_avoids _ _ _) (setBind_avoids _ _ _))

theorem lockOrRotate_avoids (itemName : String) (expiry : Int) :
    Avoids .recursionLimit (lockOrRotate shared timeout itemName expiry) :=
  Avoids.ite (pushToTail_avoids _ _) (Avoids.ite (setLock_avoids _ _ _) (setLock_avoids _ _ _))

theorem mallocBound_avoids :
    Avoids .recursionLimit (mallocBound shared timeout name cacheTimeout) := by
  refine Avoids.ite (Avoids.pure _) (Avoids.bind (Avoids.read _) fun bound => ?_)
  cases bound with
  | none => exact Avoids.pure _
  | some cachedKey =>
      have lock : Avoids .recursionLimit (lockBound shared timeout cachedKey) :=
        Avoids.ite (Avoids.pure _) (Avoids.bind (setItemAllocated_avoids _) fun _ =>
          setLock_avoids _ _ _)
      exact Avoids.bind (Avoids.read _) fun _ => Avoids.bind (Avoids.read _) fun _ =>
        Avoids.ite (Avoids.bind (Avoids.write _) fun _ => Avoids.pure _)
          (Avoids.bind (refreshCache_avoids _ _ _) fun _ => Avoids.bind lock fun _ =>
            Avoids.pure _)

theorem mallocBound_nothing {s s' : Redis}
    (run : mallocBound shared timeout name cacheTimeout s = (.ok none, s')) :
    s'.pool = s.pool := by
  rw [mallocBound] at run
  split at run
  · cases run
    rfl
  · simp only [Command.getBind, read_bind_apply] at run
    cases bound : (s.bind? name).map StringKey.value with
    | none =>
        rw [bound] at run
        cases run
        rfl
    | some cachedKey =>
        simp only [bound, Command.hexists, Command.existsLock, read_bind_apply] at run
        split at run
        · cases run
          rfl
        · obtain ⟨_, _, _, locking⟩ := of_bind_ok run
          obtain ⟨_, _, _, last⟩ := of_bind_ok locking
          cases last

theorem mallocPop_within_limit {s : Redis} (free : s.hget allocatedSentinel = none) :
    (mallocPop shared timeout name cacheTimeout s).1 ≠ .error .recursionLimit := by
  obtain ⟨calls, few, reply, s', ends⟩ := popCall_ends s free
  obtain ⟨kind, run⟩ := popFromHead_of_ends ends
  simp only [mallocPop, Command.hlen, read_bind_apply]
  cases kind with
  | key k expiry =>
      rw [bind_ok (run _ few)]
      exact Avoids.bind (lockOrRotate_avoids _ _ _ _) (fun _ =>
        Avoids.bind (refreshCache_avoids _ _ _) fun _ => Avoids.pure _) s'
  | nil =>
      rw [bind_ok (run _ few)]
      exact Avoids.pure _ s'
  | assertion message =>
      rw [bind_error (run _ few)]
      exact fun stops => Failure.noConfusion (Except.error.inj stops)

/-- `_malloc_script` grants its recursion as many calls as it needs, also on a corrupted pool. -/
theorem mallocScript_within_limit {s : Redis} (free : s.hget allocatedSentinel = none) :
    (mallocScript shared timeout name cacheTimeout s).1 ≠ .error .recursionLimit := by
  rw [mallocScript]
  cases run : mallocBound shared timeout name cacheTimeout s with
  | mk reply s' =>
      match reply, run with
      | .error e, run =>
          rw [bind_error run]
          have avoided := mallocBound_avoids shared timeout name cacheTimeout s
          rw [run] at avoided
          exact fun stops => avoided (congrArg Except.error (Except.error.inj stops))
      | .ok (some k), run =>
          rw [bind_ok run]
          exact Avoids.pure _ s'
      | .ok none, run =>
          rw [bind_ok run]
          refine mallocPop_within_limit shared timeout name cacheTimeout ?_
          rw [Redis.hget, mallocBound_nothing shared timeout name cacheTimeout run]
          exact free

end Malloc

end RedisAllocator

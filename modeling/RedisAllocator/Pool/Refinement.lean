import RedisAllocator.Allocator.LuaFrames
import RedisAllocator.Lib.NeighbourList
import RedisAllocator.Pool.FreePool

/-!
# The pool hash represents a free pool

`Represents s p`: following the pointers of `s` from head to tail reads off the
queue of `p`, and the other members carry the allocated marker.  Each pointer
function of the Lua library, run on a state that represents a pool, completes
without an assert and leaves a state that represents the pool after the
corresponding queue operation.
-/

set_option autoImplicit false

namespace RedisAllocator

open AbortableScript AbortableScript.Script NeighbourList

/-- What `_validate_keys` guarantees about members as far as the pointers are concerned. -/
def Nameable (k : String) : Prop := k ≠ "" ∧ k ≠ allocatedSentinel

/-- The entry that stores member `k` beside the queue `free`. -/
def entryIn (free : List String) (k : String) (expiry : Int) : PoolEntry :=
  if k ∈ free then ⟨predIn "" free k, succIn "" free k, expiry⟩ else .allocated expiry

structure Represents (s : Redis) (p : FreePool String) : Prop where
  head : s.headPointer = p.free.headD ""
  tail : s.tailPointer = p.free.getLastD ""
  entry : ∀ k, s.hget k = (p.expiry k).map (entryIn p.free k)
  named : ∀ k, (p.expiry k).isSome → Nameable k

namespace Represents

variable {s : Redis} {p : FreePool String}

theorem noNil (rep : Represents s p) : "" ∉ p.free :=
  fun present => (rep.named "" (p.member "" present)).1 rfl

theorem hget_free (rep : Represents s p) {k : String} (present : k ∈ p.free) :
    ∃ e, p.expiry k = some e ∧ s.hget k = some ⟨predIn "" p.free k, succIn "" p.free k, e⟩ := by
  obtain ⟨e, found⟩ := Option.isSome_iff_exists.mp (p.member k present)
  refine ⟨e, found, ?_⟩
  rw [rep.entry k, found, Option.map_some, entryIn, if_pos present]

theorem hget_allocated (rep : Represents s p) {k : String} {e : Int} (absent : k ∉ p.free)
    (found : p.expiry k = some e) : s.hget k = some (.allocated e) := by
  rw [rep.entry k, found, Option.map_some, entryIn, if_neg absent]

theorem hget_none_iff (rep : Represents s p) (k : String) :
    s.hget k = none ↔ p.expiry k = none := by
  rw [rep.entry k, Option.map_eq_none_iff]

theorem hget_isSome (rep : Represents s p) (k : String) :
    (s.hget k).isSome = (p.expiry k).isSome := by
  rw [rep.entry k, Option.isSome_map]

/-- A neighbour is another free member or the empty pointer, so never the sentinel. -/
theorem mem_keys_iff (rep : Represents s p) (k : String) :
    k ∈ s.pool.keys ↔ (p.expiry k).isSome := by
  rw [← rep.hget_isSome, Option.isSome_iff_exists, Finmap.mem_keys, s.mem_pool_iff]

theorem predIn_ne_sentinel (rep : Represents s p) {k : String} (present : k ∈ p.free) :
    predIn "" p.free k ≠ allocatedSentinel := by
  by_cases isNil : predIn "" p.free k = ""
  · rw [isNil]
    decide
  · exact (rep.named _ (p.member _ (predIn_mem present p.nodup isNil))).2

theorem succIn_ne_sentinel (rep : Represents s p) {k : String} (present : k ∈ p.free) :
    succIn "" p.free k ≠ allocatedSentinel := by
  by_cases isNil : succIn "" p.free k = ""
  · rw [isNil]
    decide
  · exact (rep.named _ (p.member _ (succIn_mem present p.nodup isNil))).2

theorem prev_eq_sentinel_iff (rep : Represents s p) {k : String} {val : PoolEntry}
    (stored : s.hget k = some val) : val.prev = allocatedSentinel ↔ k ∉ p.free := by
  by_cases present : k ∈ p.free
  · obtain ⟨e, _, linked⟩ := rep.hget_free present
    rw [stored, Option.some.injEq] at linked
    subst linked
    exact iff_of_false (rep.predIn_ne_sentinel present) (fun absent => absent present)
  · rw [rep.entry k] at stored
    obtain ⟨e, _, rfl⟩ := Option.map_eq_some_iff.mp stored
    rw [entryIn, if_neg present]
    exact iff_of_true rfl present

theorem marked (rep : Represents s p) {k : String} (absent : k ∉ p.free) (val : PoolEntry)
    (stored : s.hget k = some val) : ∃ e, val = .allocated e := by
  rw [rep.entry k] at stored
  obtain ⟨e, _, rfl⟩ := Option.map_eq_some_iff.mp stored
  exact ⟨e, if_neg absent⟩

theorem of_outside_pool {s' : Redis} (rep : Represents s p) (pool : s'.pool = s.pool)
    (head : s'.head = s.head) (tail : s'.tail = s.tail) : Represents s' p where
  head := by rw [← rep.head, Redis.headPointer, Redis.headPointer, head]
  tail := by rw [← rep.tail, Redis.tailPointer, Redis.tailPointer, tail]
  entry := fun k => by rw [← rep.entry k, Redis.hget, Redis.hget, pool]
  named := rep.named

end Represents

/-! ## Entries beside a longer or a shorter queue -/

section EntryIn

variable {free : List String}

theorem entryIn_concat_self {x : String} (unique : (free ++ [x]).Nodup) (e : Int) :
    entryIn (free ++ [x]) x e = ⟨free.getLastD "", "", e⟩ := by
  have fresh : x ∉ free := (notMem_of_split unique).1
  rw [entryIn, if_pos (by simp), predIn_concat_self unique, succIn_concat_self fresh]

theorem entryIn_concat {x k : String} (unique : (free ++ [x]).Nodup) (different : k ≠ x) (e : Int) :
    entryIn (free ++ [x]) k e =
      if k ∈ free ∧ k = free.getLastD "" then ⟨predIn "" free k, x, e⟩ else entryIn free k e := by
  by_cases present : k ∈ free
  · rw [entryIn, if_pos (by simp [present]), predIn_concat present unique,
      succIn_concat present (List.nodup_append.mp unique).1, entryIn, if_pos present]
    by_cases last : k = free.getLastD ""
    · rw [if_pos last, if_pos ⟨present, last⟩]
    · rw [if_neg last, if_neg (fun both => last both.2)]
  · rw [if_neg (fun both => present both.1), entryIn, entryIn, if_neg present,
      if_neg (by simp [present, different])]

theorem entryIn_erase_self {x : String} (unique : free.Nodup) (e : Int) :
    entryIn (free.erase x) x e = .allocated e := if_neg unique.not_mem_erase

theorem entryIn_erase {x k : String} (present : x ∈ free) (unique : free.Nodup) (noNil : "" ∉ free)
    (different : k ≠ x) (e : Int) :
    entryIn (free.erase x) k e =
      ⟨if k ∈ free ∧ k = succIn "" free x then predIn "" free x else (entryIn free k e).prev,
        if k ∈ free ∧ k = predIn "" free x then succIn "" free x else (entryIn free k e).next, e⟩ := by
  by_cases other : k ∈ free
  · have still : k ∈ free.erase x := (List.mem_erase_of_ne different).mpr other
    simp only [entryIn, if_pos still, other, true_and, if_true,
      predIn_erase present unique noNil other different,
      succIn_erase present unique noNil other different]
  · have gone : k ∉ free.erase x := fun h => other (List.mem_of_mem_erase h)
    simp only [entryIn, if_neg gone, other, false_and, if_false]
    rfl

@[simp] theorem expiry_entryIn (k : String) (e : Int) : (entryIn free k e).expiry = e := by
  rw [entryIn]
  split <;> rfl

end EntryIn

/-- The two pointer writes past `x`, first at its predecessor, then at its successor, turn every
other stored entry into the one beside the shorter queue. -/
theorem relinked_entry {s : Redis} {p : FreePool String} (rep : Represents s p) {x : String}
    (present : x ∈ p.free) {k : String} (different : k ≠ x) {prev next : String}
    (isPred : prev = predIn "" p.free x) (isSucc : next = succIn "" p.free x)
    (afterPrev : Option PoolEntry)
    (first : afterPrev = if k = prev ∧ prev ≠ "" then
      (s.hget k).map fun v => ⟨v.prev, next, v.expiry⟩ else s.hget k) :
    (if k = next ∧ next ≠ "" then afterPrev.map fun v => ⟨prev, v.next, v.expiry⟩ else afterPrev) =
      (p.expiry k).map (entryIn (p.free.erase x) k) := by
  have noNil := rep.noNil
  have prevMem : prev ≠ "" → prev ∈ p.free := isPred ▸ predIn_mem present p.nodup
  have nextMem : next ≠ "" → next ∈ p.free := isSucc ▸ succIn_mem present p.nodup
  have apart : prev ≠ "" → prev ≠ next := isPred ▸ isSucc ▸ predIn_ne_succIn present p.nodup
  have atPrevIff : k ∈ p.free ∧ k = prev ↔ k = prev ∧ prev ≠ "" :=
    ⟨fun both => ⟨both.2, fun isNil => noNil (isNil ▸ both.2 ▸ both.1)⟩,
      fun both => ⟨both.1 ▸ prevMem both.2, both.1⟩⟩
  have atNextIff : k ∈ p.free ∧ k = next ↔ k = next ∧ next ≠ "" :=
    ⟨fun both => ⟨both.2, fun isNil => noNil (isNil ▸ both.2 ▸ both.1)⟩,
      fun both => ⟨both.1 ▸ nextMem both.2, both.1⟩⟩
  rw [first, rep.entry k]
  cases isMember : p.expiry k with
  | none => simp
  | some old =>
      simp only [Option.map_some, entryIn_erase present p.nodup noNil different old, ← isPred,
        ← isSucc, atPrevIff, atNextIff]
      by_cases atNext : k = next ∧ next ≠ ""
      · have notPrev : ¬ (k = prev ∧ prev ≠ "") :=
          fun both => apart both.2 (both.1.symm.trans atNext.1)
        simp only [if_pos atNext, if_neg notPrev, Option.map_some, expiry_entryIn]
      · by_cases atPrev : k = prev ∧ prev ≠ ""
        · simp only [if_neg atNext, if_pos atPrev, Option.map_some, expiry_entryIn]
        · simp only [if_neg atNext, if_neg atPrev]
          exact congrArg (fun e => some (PoolEntry.mk _ _ e)) (expiry_entryIn k old)

/-- `x` is unlinked: the pointers and every other entry are those beside the shorter queue. -/
structure Unlinked (s : Redis) (p : FreePool String) (x : String) : Prop where
  head : s.headPointer = (p.free.erase x).headD ""
  tail : s.tailPointer = (p.free.erase x).getLastD ""
  others : ∀ k, k ≠ x → s.hget k = (p.expiry k).map (entryIn (p.free.erase x) k)
  named : ∀ k, (p.expiry k).isSome → Nameable k

section Unlinked

variable {s : Redis} {p : FreePool String} {x : String}

theorem Unlinked.take (unlinked : Unlinked s p x) {e : Int} (found : p.expiry x = some e)
    (marked : s.hget x = some (.allocated e)) : Represents s (p.take x) where
  head := unlinked.head
  tail := unlinked.tail
  entry := by
    intro k
    by_cases same : k = x
    · subst same
      rw [marked, FreePool.expiry_take, found, Option.map_some, FreePool.free_take,
        entryIn_erase_self p.nodup]
    · exact unlinked.others k same
  named := unlinked.named

theorem Unlinked.remove (unlinked : Unlinked s p x) (gone : s.hget x = none) :
    Represents s (p.remove x) where
  head := unlinked.head
  tail := unlinked.tail
  entry := by
    intro k
    by_cases same : k = x
    · subst same
      rw [gone, FreePool.expiry_remove, Function.update_self, Option.map_none]
    · rw [unlinked.others k same, FreePool.expiry_remove, Function.update_of_ne same,
        FreePool.free_remove]
  named := by
    intro k isMember
    by_cases same : k = x
    · rw [same, FreePool.expiry_remove, Function.update_self] at isMember
      cases isMember
    · rw [FreePool.expiry_remove, Function.update_of_ne same] at isMember
      exact unlinked.named k isMember

theorem Represents.hdel (rep : Represents s p) (absent : x ∉ p.free) :
    Represents (s.hdel x) (p.remove x) := by
  refine Unlinked.remove ⟨?_, ?_, fun k different => ?_, rep.named⟩ ?_
  · rw [List.erase_of_not_mem absent]
    exact rep.head
  · rw [List.erase_of_not_mem absent]
    exact rep.tail
  · rw [Redis.hget_hdel, if_neg different, List.erase_of_not_mem absent, rep.entry k]
  · rw [Redis.hget_hdel, if_pos rfl]

end Unlinked

/-! ## `push_to_tail` -/

section Push

variable {s : Redis} {p : FreePool String}

theorem assertPushable_run {k : String}
    (marked : ∀ val, s.hget k = some val → ∃ e, val = .allocated e) :
    assertPushable k s = (.ok (), s) := by
  simp only [assertPushable, Command.hget, read_bind_apply]
  cases stored : s.hget k with
  | none => rfl
  | some val =>
      obtain ⟨e, rfl⟩ := marked val stored
      rfl

theorem linkBehindTail_run {x : String} {head tail : String} {tailVal : PoolEntry}
    (headSome : head ≠ "") (tailSome : tail ≠ "") (stored : s.hget tail = some tailVal)
    (last : tailVal.next = "") :
    linkBehindTail head tail x s = (.ok (), s.hset tail ⟨tailVal.prev, x, tailVal.expiry⟩) := by
  simp only [linkBehindTail, tailSome, headSome, or_self, if_false, Command.hget, read_bind_apply,
    stored, assertSome, pure_bind_apply, luaAssert, last, if_true]
  rfl

theorem Represents.named_push (rep : Represents s p) {x : String} (fresh : x ∉ p.free)
    (named : Nameable x) (e : Int) (k : String) (isMember : ((p.push x e fresh).expiry k).isSome) :
    Nameable k := by
  rw [FreePool.expiry_push] at isMember
  by_cases same : k = x
  · exact same ▸ named
  · rw [Function.update_of_ne same] at isMember
    exact rep.named k isMember

theorem pushToTail_run (rep : Represents s p) {x : String} (fresh : x ∉ p.free) (e : Int) :
    pushToTail x e s =
      (linkBehindTail s.headPointer s.tailPointer x >>= fun _ => setCurrentTail x)
        (s.hset x ⟨s.tailPointer, "", e⟩) := by
  simp only [pushToTail, currentHead, currentTail, read_bind_apply]
  rw [bind_ok (assertPushable_run (rep.marked fresh))]
  rfl

theorem pushToTail_alone (rep : Represents s p) {x : String} (fresh : x ∉ p.free)
    (named : Nameable x) (e : Int) (queue : p.free = []) :
    ∃ s', pushToTail x e s = (.ok (), s') ∧ Represents s' (p.push x e fresh) := by
  have unique : (p.free ++ [x]).Nodup := (p.push x e fresh).nodup
  have head : s.headPointer = "" := by rw [rep.head, queue, List.headD_nil]
  have tail : s.tailPointer = "" := by rw [rep.tail, queue, List.getLastD_nil]
  refine ⟨((s.hset x ⟨"", "", e⟩).setHead x).setTail x, ?_, ?_, ?_, ?_, rep.named_push fresh named e⟩
  · rw [pushToTail_run rep fresh, head, tail]
    rfl
  · rw [FreePool.free_push, queue]
    rfl
  · rw [FreePool.free_push, queue]
    rfl
  · intro k
    rw [FreePool.free_push, FreePool.expiry_push]
    simp only [Redis.hget_setTail, Redis.hget_setHead, Redis.hget_hset]
    by_cases same : k = x
    · subst same
      rw [if_pos rfl, Function.update_self, Option.map_some, entryIn_concat_self unique, queue]
      rfl
    · rw [if_neg same, Function.update_of_ne same, rep.entry k]
      congr 1
      funext old
      rw [entryIn_concat unique same, if_neg (by simp [queue])]

theorem pushToTail_behind (rep : Represents s p) {x : String} (fresh : x ∉ p.free)
    (named : Nameable x) (e : Int) {first : String} {rest : List String}
    (queue : p.free = first :: rest) :
    ∃ s', pushToTail x e s = (.ok (), s') ∧ Represents s' (p.push x e fresh) := by
  have unique : (p.free ++ [x]).Nodup := (p.push x e fresh).nodup
  have last : p.free.getLastD "" ∈ p.free := by
    rw [queue, List.getLastD_cons]
    exact List.getLastD_mem_cons
  obtain ⟨old, found, stored⟩ := rep.hget_free last
  have lastSome : p.free.getLastD "" ≠ "" := fun same => rep.noNil (same ▸ last)
  have headSome : s.headPointer ≠ "" := by
    rw [rep.head, queue, List.headD_cons]
    exact fun same => rep.noNil (by rw [queue, same]; exact List.mem_cons_self ..)
  have lastOther : p.free.getLastD "" ≠ x := fun same => fresh (same ▸ last)
  rw [(succIn_eq_nil_iff last p.nodup rep.noNil).mpr rfl] at stored
  have storedAfter : (s.hset x ⟨s.tailPointer, "", e⟩).hget (p.free.getLastD "") =
      some ⟨predIn "" p.free (p.free.getLastD ""), "", old⟩ := by
    rw [Redis.hget_hset, if_neg lastOther, stored]
  refine ⟨((s.hset x ⟨p.free.getLastD "", "", e⟩).hset (p.free.getLastD "")
    ⟨predIn "" p.free (p.free.getLastD ""), x, old⟩).setTail x, ?_, ?_, ?_, ?_,
    rep.named_push fresh named e⟩
  · rw [pushToTail_run rep fresh, rep.tail] at *
    rw [bind_ok (linkBehindTail_run headSome lastSome storedAfter rfl)]
    rfl
  · rw [FreePool.free_push, queue]
    simpa [queue] using rep.head
  · rw [FreePool.free_push, List.getLastD_concat]
    rfl
  · intro k
    rw [FreePool.free_push, FreePool.expiry_push]
    simp only [Redis.hget_setTail, Redis.hget_hset]
    by_cases same : k = x
    · subst same
      rw [if_neg (Ne.symm lastOther), if_pos rfl, Function.update_self, Option.map_some,
        entryIn_concat_self unique]
    · rw [if_neg same, Function.update_of_ne same]
      by_cases isLast : k = p.free.getLastD ""
      · rw [if_pos isLast, isLast, found, Option.map_some,
          entryIn_concat unique (isLast ▸ same), if_pos ⟨last, rfl⟩]
      · rw [if_neg isLast, rep.entry k]
        congr 1
        funext old
        rw [entryIn_concat unique same, if_neg (fun both => isLast both.2)]

/-- `push_to_tail` of a key that is not queued is the queue's `push`. -/
theorem pushToTail_spec (rep : Represents s p) {x : String} (fresh : x ∉ p.free)
    (named : Nameable x) (e : Int) :
    ∃ s', pushToTail x e s = (.ok (), s') ∧ Represents s' (p.push x e fresh) := by
  cases queue : p.free with
  | nil => exact pushToTail_alone rep fresh named e queue
  | cons first rest => exact pushToTail_behind rep fresh named e queue

end Push

/-! ## `set_item_allocated` -/

section SetItemAllocated

variable {s : Redis} {p : FreePool String}

theorem relinkPrev_run (prev next : String)
    (stored : prev ≠ "" → ∃ val, s.hget prev = some val) :
    ∃ s', relinkPrev prev next s = (.ok (), s') ∧
      (∀ k, s'.hget k = if k = prev ∧ prev ≠ "" then (s.hget k).map fun v => ⟨v.prev, next, v.expiry⟩
        else s.hget k) ∧
      s'.headPointer = (if prev = "" then next else s.headPointer) ∧
      s'.tailPointer = s.tailPointer := by
  by_cases isNil : prev = ""
  · subst isNil
    exact ⟨s.setHead next, rfl, fun k => by simp, rfl, rfl⟩
  · obtain ⟨val, found⟩ := stored isNil
    refine ⟨s.hset prev ⟨val.prev, next, val.expiry⟩, ?_, fun k => ?_, ?_, rfl⟩
    · simp only [relinkPrev, if_neg isNil, Command.hget, read_bind_apply, found, assertSome,
        pure_bind_apply]
      rfl
    · by_cases same : k = prev
      · subst same
        simp [found, isNil]
      · simp [same]
    · rw [if_neg isNil]
      rfl

theorem relinkNext_run (prev next : String)
    (stored : next ≠ "" → ∃ val, s.hget next = some val) :
    ∃ s', relinkNext prev next s = (.ok (), s') ∧
      (∀ k, s'.hget k = if k = next ∧ next ≠ "" then (s.hget k).map fun v => ⟨prev, v.next, v.expiry⟩
        else s.hget k) ∧
      s'.headPointer = s.headPointer ∧
      s'.tailPointer = (if next = "" then prev else s.tailPointer) := by
  by_cases isNil : next = ""
  · subst isNil
    exact ⟨s.setTail prev, rfl, fun k => by simp, rfl, rfl⟩
  · obtain ⟨val, found⟩ := stored isNil
    refine ⟨s.hset next ⟨prev, val.next, val.expiry⟩, ?_, fun k => ?_, rfl, ?_⟩
    · simp only [relinkNext, if_neg isNil, Command.hget, read_bind_apply, found, assertSome,
        pure_bind_apply]
      rfl
    · by_cases same : k = next
      · subst same
        simp [found, isNil]
      · simp [same]
    · rw [if_neg isNil]
      rfl

theorem dropIfExpired_run (x : String) (e : Int) :
    ∃ s', dropIfExpired x e s = (.ok (), s') ∧ (∀ k, k ≠ x → s'.hget k = s.hget k) ∧
      s'.headPointer = s.headPointer ∧ s'.tailPointer = s.tailPointer := by
  cases expired : s.isExpiryInvalid e with
  | true =>
      refine ⟨s.hdel x, ?_, fun k different => ?_, rfl, rfl⟩
      · simp only [dropIfExpired, isExpiryInvalid, read_bind_apply, expired, if_true]
        rfl
      · rw [Redis.hget_hdel, if_neg different]
  | false =>
      refine ⟨s, ?_, fun k different => rfl, rfl, rfl⟩
      simp only [dropIfExpired, isExpiryInvalid, read_bind_apply, expired, Bool.false_eq_true,
        if_false]
      rfl

theorem givenOrStored_run {x : String} {val : PoolEntry} {given : Option PoolEntry}
    (stored : s.hget x = some val) (current : given = none ∨ given = some val) :
    givenOrStored x given s = (.ok val, s) := by
  rcases current with rfl | rfl
  · simp only [givenOrStored, Command.hget, read_bind_apply, stored]
    rfl
  · rfl

theorem setItemAllocated_free (rep : Represents s p) {x : String} (present : x ∈ p.free)
    {given : Option PoolEntry} (current : given = none ∨ given = s.hget x) :
    ∃ s', setItemAllocated x given s = (.ok (), s') ∧ Represents s' (p.take x) := by
  obtain ⟨e, found, stored⟩ := rep.hget_free present
  rw [stored] at current
  obtain ⟨prev, isPred⟩ : ∃ prev, prev = predIn "" p.free x := ⟨_, rfl⟩
  obtain ⟨next, isSucc⟩ : ∃ next, next = succIn "" p.free x := ⟨_, rfl⟩
  have prevOther : prev ≠ x := isPred ▸ predIn_ne_self present p.nodup rep.noNil
  have nextOther : next ≠ x := isSucc ▸ succIn_ne_self present p.nodup rep.noNil
  have apart : prev ≠ "" → prev ≠ next := isPred ▸ isSucc ▸ predIn_ne_succIn present p.nodup
  have notMarked : ¬ prev = allocatedSentinel := isPred ▸ rep.predIn_ne_sentinel present
  have notMarked' : ¬ next = allocatedSentinel := isSucc ▸ rep.succIn_ne_sentinel present
  rw [← isPred, ← isSucc] at stored current
  obtain ⟨s₁, run₁, hash₁, head₁, tail₁⟩ := dropIfExpired_run (s := s) x e
  obtain ⟨s₂, run₂, hash₂, head₂, tail₂⟩ := relinkPrev_run (s := s₁) prev next
    (fun isSome => by
      obtain ⟨_, _, linked⟩ := rep.hget_free (isPred ▸ predIn_mem present p.nodup (isPred ▸ isSome))
      exact ⟨_, (hash₁ prev prevOther).trans linked⟩)
  obtain ⟨s₃, run₃, hash₃, head₃, tail₃⟩ := relinkNext_run (s := s₂) prev next
    (fun isSome => by
      obtain ⟨_, _, linked⟩ := rep.hget_free (isSucc ▸ succIn_mem present p.nodup (isSucc ▸ isSome))
      rw [hash₂, if_neg (fun both => apart both.2 both.1.symm), hash₁ next nextOther]
      exact ⟨_, linked⟩)
  refine ⟨s₃.hset x (.allocated e), ?_, Unlinked.take ⟨?_, ?_, ?_, rep.named⟩ found ?_⟩
  · rw [setItemAllocated, bind_ok (givenOrStored_run stored current)]
    simp only [notMarked, if_false, luaAssert, ne_eq, notMarked', not_false_eq_true, if_true,
      pure_bind_apply]
    rw [bind_ok run₁, bind_ok run₂, bind_ok run₃]
    rfl
  · rw [Redis.headPointer_hset, head₃, head₂, head₁, rep.head, headD_erase present p.nodup rep.noNil,
      isPred, isSucc]
  · rw [Redis.tailPointer_hset, tail₃, tail₂, tail₁, rep.tail,
      getLastD_erase present p.nodup rep.noNil, isPred, isSucc]
  · intro k different
    rw [Redis.hget_hset, if_neg different, hash₃]
    exact relinked_entry rep present different isPred isSucc _ (by rw [hash₂, hash₁ k different])
  · rw [Redis.hget_hset, if_pos rfl]

theorem setItemAllocated_allocated {x : String} {e : Int} (stored : s.hget x = some (.allocated e))
    {given : Option PoolEntry} (current : given = none ∨ given = s.hget x) :
    setItemAllocated x given s = (.ok (), s) := by
  rw [stored] at current
  rw [setItemAllocated, bind_ok (givenOrStored_run stored current)]
  rfl

theorem setItemAllocated_spec (rep : Represents s p) {x : String} (isMember : (p.expiry x).isSome)
    {given : Option PoolEntry} (current : given = none ∨ given = s.hget x) :
    ∃ s', setItemAllocated x given s = (.ok (), s') ∧ Represents s' (p.take x) := by
  by_cases present : x ∈ p.free
  · exact setItemAllocated_free rep present current
  · obtain ⟨e, found⟩ := Option.isSome_iff_exists.mp isMember
    refine ⟨s, setItemAllocated_allocated (rep.hget_allocated present found) current, ?_⟩
    rw [FreePool.take_of_notMem p x present]
    exact rep

end SetItemAllocated

/-! ## `pop_from_head` -/

section Pop

variable {s : Redis} {p : FreePool String}

theorem unlinkHead_run (next : String) (stored : next ≠ "" → ∃ val, s.hget next = some val) :
    ∃ s', unlinkHead next s = (.ok (), s') ∧ advanceHeadAfterRemoval next s = (.ok (), s') ∧
      (∀ k, s'.hget k = if k = next ∧ next ≠ "" then (s.hget k).map fun v => ⟨"", v.next, v.expiry⟩
        else s.hget k) ∧
      s'.headPointer = next ∧ s'.tailPointer = (if next = "" then "" else s.tailPointer) := by
  by_cases isNil : next = ""
  · subst isNil
    exact ⟨(s.setHead "").setTail "", rfl, rfl, fun k => by simp, rfl, rfl⟩
  · obtain ⟨val, found⟩ := stored isNil
    refine ⟨(s.hset next ⟨"", val.next, val.expiry⟩).setHead next, ?_, ?_, fun k => ?_, rfl, ?_⟩
    · simp only [unlinkHead, if_neg isNil, Command.hget, read_bind_apply, found, assertSome,
        pure_bind_apply]
      rfl
    · simp only [advanceHeadAfterRemoval, if_neg isNil, Command.hget, read_bind_apply, found]
      rfl
    · by_cases same : k = next
      · subst same
        simp [found, isNil]
      · simp [same]
    · rw [if_neg isNil]
      rfl

theorem unlinkHead_spec (s₀ : Redis) (rep : Represents s p) {x : String} {rest : List String}
    (queue : p.free = x :: rest) (others : ∀ k, k ≠ x → s₀.hget k = s.hget k)
    (tail : s₀.tailPointer = s.tailPointer) :
    ∃ s', unlinkHead (succIn "" p.free x) s₀ = (.ok (), s') ∧
      advanceHeadAfterRemoval (succIn "" p.free x) s₀ = (.ok (), s') ∧
      Unlinked s' p x ∧ s'.hget x = s₀.hget x := by
  have present : x ∈ p.free := queue ▸ List.mem_cons_self ..
  have noPred : predIn "" p.free x = "" :=
    (predIn_eq_nil_iff present p.nodup rep.noNil).mpr (by rw [queue, List.headD_cons])
  obtain ⟨next, isSucc⟩ : ∃ next, next = succIn "" p.free x := ⟨_, rfl⟩
  have nextOther : next ≠ x := isSucc ▸ succIn_ne_self present p.nodup rep.noNil
  rw [← isSucc]
  obtain ⟨s', run, run', hash, head', tail'⟩ := unlinkHead_run (s := s₀) next
    (fun isSome => by
      obtain ⟨_, _, linked⟩ := rep.hget_free (isSucc ▸ succIn_mem present p.nodup (isSucc ▸ isSome))
      exact ⟨_, (others next nextOther).trans linked⟩)
  refine ⟨s', run, run', ⟨?_, ?_, ?_, rep.named⟩, ?_⟩
  · rw [head', headD_erase present p.nodup rep.noNil, if_pos noPred, isSucc]
  · rw [tail', tail, getLastD_erase present p.nodup rep.noNil, noPred, rep.tail, isSucc]
  · intro k different
    rw [hash]
    exact relinked_entry rep present different noPred.symm isSucc _
      (by rw [others k different, if_neg (fun both => both.2 rfl)])
  · rw [hash, if_neg (fun both => nextOther both.1.symm)]

theorem popFromHead_cons (rep : Represents s p) {x : String} {rest : List String}
    (queue : p.free = x :: rest) (fuel : Nat) {e : Int} (found : p.expiry x = some e) :
    popFromHead (fuel + 1) s =
      (if s.isExpiryInvalid e then do
        Command.hdel x
        advanceHeadAfterRemoval (succIn "" p.free x)
        popFromHead fuel
      else if s.locked x then do
        Command.hset x (.allocated e)
        advanceHeadAfterRemoval (succIn "" p.free x)
        popFromHead fuel
      else do
        unlinkHead (succIn "" p.free x)
        Command.hset x (.allocated e)
        pure (some x, e)) s := by
  have present : x ∈ p.free := queue ▸ List.mem_cons_self ..
  have head : s.headPointer = x := by rw [rep.head, queue, List.headD_cons]
  have named : x ≠ "" := (rep.named x (p.member x present)).1
  obtain ⟨e', found', stored⟩ := rep.hget_free present
  rw [found, Option.some.injEq] at found'
  subst found'
  simp only [popFromHead, currentHead, read_bind_apply, head, named, if_false, Command.hget, stored,
    assertSome, pure_bind_apply, isExpiryInvalid, Command.existsLock]

/-- `x`, run on `s₁`, pops from the queue `p` as these expiries and locks have it. -/
def Pops (x : LuaScript (Option String × Int)) (s₁ : Redis) (p : FreePool String)
    (invalid : Int → Bool) (locked : String → Bool) : Prop :=
  ∃ s' e, x s₁ = (.ok (p.available invalid locked, e), s') ∧
    Represents s' (p.afterPop invalid locked) ∧
    ∀ k, p.available invalid locked = some k → p.expiry k = some e

theorem Pops.skip {fuel : Nat} {s s₁ s₂ : Redis} {p q : FreePool String} {x : String}
    {rest : List String} {e : Int} (queue : p.free = x :: rest) (found : p.expiry x = some e)
    (skipped : p.skips s.isExpiryInvalid s.locked x = true) (queue₂ : q.free = rest)
    (others : ∀ k, k ≠ x → q.expiry k = p.expiry k)
    (self : q.expiry x = if s.isExpiryInvalid e then none else some e)
    (advanced : advanceHeadAfterRemoval (succIn "" p.free x) s₁ = (.ok (), s₂))
    (frame₁ : s₁.outside = s.outside)
    (recur : Pops (popFromHead fuel) s₂ q s₂.isExpiryInvalid s₂.locked) :
    Pops (advanceHeadAfterRemoval (succIn "" p.free x) >>= fun _ => popFromHead fuel) s₁ p
      s.isExpiryInvalid s.locked := by
  have fresh : x ∉ rest := (List.nodup_cons.mp (queue ▸ p.nodup)).1
  have frame₂ : s₂.outside = s.outside := by
    have kept := advanceHeadAfterRemoval_keeps (succIn "" p.free x) s₁
    rw [advanced] at kept
    exact kept.trans frame₁
  have sameExpiry : s₂.isExpiryInvalid = s.isExpiryInvalid :=
    funext fun _ => Redis.isExpiryInvalid_of_outside frame₂ _
  have sameLocks : s₂.locked = s.locked := funext fun _ => Redis.locked_of_outside frame₂ _
  obtain ⟨first, after⟩ := FreePool.pop_skip queue skipped queue₂ others (by
    rw [self, found]
    rfl)
  obtain ⟨s', e', run, rep', popped⟩ := recur
  rw [sameExpiry, sameLocks] at run rep' popped
  unfold Pops
  rw [first, after]
  refine ⟨s', e', by rw [bind_ok advanced, run], rep', fun k isSome => ?_⟩
  have inRest : k ∈ rest := queue₂ ▸ List.mem_of_find?_eq_some isSome
  rw [← others k (fun same => fresh (same ▸ inRest))]
  exact popped k isSome

theorem Pops.hand {x : String} {rest : List String} {e : Int} (queue : p.free = x :: rest)
    (found : p.expiry x = some e) (usable : p.skips s.isExpiryInvalid s.locked x = false)
    (rep : Represents s p) :
    Pops (do
      unlinkHead (succIn "" p.free x)
      Command.hset x (.allocated e)
      pure (some x, e)) s p s.isExpiryInvalid s.locked := by
  obtain ⟨first, after⟩ := FreePool.pop_usable queue usable
  obtain ⟨s₁, unlinkedRun, _, unlinked, _⟩ := unlinkHead_spec s rep queue (fun _ _ => rfl) rfl
  refine ⟨s₁.hset x (.allocated e), e, ?_, ?_, ?_⟩
  · rw [bind_ok unlinkedRun, first]
    rfl
  · rw [after]
    refine Unlinked.take ⟨unlinked.head, unlinked.tail, fun k different => ?_,
      unlinked.named⟩ found ?_
    · rw [Redis.hget_hset, if_neg different, unlinked.others k different]
    · rw [Redis.hget_hset, if_pos rfl]
  · intro k isSome
    rw [first, Option.some.injEq] at isSome
    exact isSome ▸ found

theorem popFromHead_nil (rep : Represents s p) (queue : p.free = []) (fuel : Nat) :
    Pops (popFromHead (fuel + 1)) s p s.isExpiryInvalid s.locked := by
  obtain ⟨none, same⟩ := FreePool.pop_nil s.isExpiryInvalid s.locked queue
  have head : s.headPointer = "" := by rw [rep.head, queue, List.headD_nil]
  refine ⟨s, -1, ?_, by rw [same]; exact rep, fun k isSome => ?_⟩
  · simp only [popFromHead, currentHead, read_bind_apply, head, if_true, none, pure_apply]
  · rw [none] at isSome
    cases isSome

/-- With more fuel than the queue is long, `pop_from_head` is the queue's `pop`. -/
theorem popFromHead_spec (fuel : Nat) : ∀ {s : Redis} {p : FreePool String}, Represents s p →
    p.free.length < fuel → Pops (popFromHead fuel) s p s.isExpiryInvalid s.locked := by
  induction fuel with
  | zero => intro s p _ short; exact absurd short (Nat.not_lt_zero _)
  | succ fuel ih =>
      intro s p rep short
      cases queue : p.free with
      | nil => exact popFromHead_nil rep queue fuel
      | cons x rest =>
          have present : x ∈ p.free := queue ▸ List.mem_cons_self ..
          have shorter : rest.length < fuel := by
            rw [queue, List.length_cons] at short
            omega
          obtain ⟨e, found, stored⟩ := rep.hget_free present
          unfold Pops
          rw [popFromHead_cons rep queue fuel found]
          by_cases expired : s.isExpiryInvalid e = true
          · rw [if_pos expired]
            obtain ⟨s₂, _, advanced, unlinked, entry⟩ := unlinkHead_spec (s.hdel x) rep queue
              (fun k different => by rw [Redis.hget_hdel, if_neg different]) rfl
            have rep₂ : Represents s₂ (p.remove x) :=
              unlinked.remove (by rw [entry, Redis.hget_hdel, if_pos rfl])
            have queue₂ : (p.remove x).free = rest := by
              rw [FreePool.free_remove, queue, List.erase_cons_head]
            apply Pops.skip (s := s) queue found _ queue₂ _ _ advanced rfl
            · exact ih rep₂ (queue₂ ▸ shorter)
            · simp [FreePool.skips, found, expired]
            · exact fun k different => Function.update_of_ne different _ _
            · rw [if_pos expired, FreePool.expiry_remove, Function.update_self]
          · rw [if_neg expired]
            by_cases locked : s.locked x = true
            · rw [if_pos locked]
              obtain ⟨s₂, _, advanced, unlinked, entry⟩ := unlinkHead_spec (s.hset x (.allocated e))
                rep queue
                (fun k different => by rw [Redis.hget_hset, if_neg different]) rfl
              have rep₂ : Represents s₂ (p.take x) :=
                unlinked.take found (by rw [entry, Redis.hget_hset, if_pos rfl])
              have queue₂ : (p.take x).free = rest := by
                rw [FreePool.free_take, queue, List.erase_cons_head]
              apply Pops.skip (s := s) queue found _ queue₂ _ _ advanced rfl
              · exact ih rep₂ (queue₂ ▸ shorter)
              · simp [FreePool.skips, locked]
              · exact fun k _ => rfl
              · rw [if_neg expired, FreePool.expiry_take, found]
            · rw [if_neg locked]
              exact Pops.hand queue found (by simp [FreePool.skips, found, expired, locked]) rep

end Pop

/-! ## `check_item_health` -/

section CheckItemHealth

variable {s : Redis} {p : FreePool String}

theorem checkItemHealth_run {k : String} {val : PoolEntry} (stored : s.hget k = some val) :
    checkItemHealth k s =
      (if s.isExpiryInvalid val.expiry then do
        setItemAllocated k (some val)
        Command.hdel k
      else if val.prev = allocatedSentinel then
        if s.locked k then pure () else pushToTail k val.expiry
      else
        if s.locked k then setItemAllocated k (some val) else pure ()) s := by
  simp only [checkItemHealth, Command.hget, read_bind_apply, stored, assertSome, pure_bind_apply,
    isExpiryInvalid, Command.existsLock]
  split <;> rfl

theorem checkItemHealth_spec (rep : Represents s p) {k : String} {e : Int}
    (found : p.expiry k = some e) :
    ∃ s', checkItemHealth k s = (.ok (), s') ∧
      Represents s' (p.visit (s.isExpiryInvalid e) (s.locked k) k e) := by
  have isMember : (p.expiry k).isSome := by rw [found]; rfl
  have named := rep.named k isMember
  obtain ⟨val, stored⟩ : ∃ val, s.hget k = some val := by
    rw [rep.entry k, found]
    exact ⟨_, rfl⟩
  have sameExpiry : val.expiry = e := by
    have linked := rep.entry k
    rw [stored, found, Option.map_some, Option.some.injEq] at linked
    rw [linked, expiry_entryIn]
  have start := checkItemHealth_run stored
  rw [sameExpiry] at start
  rw [start, FreePool.visit]
  obtain ⟨s₁, run₁, rep₁⟩ := setItemAllocated_spec rep isMember (Or.inr stored.symm)
  by_cases expired : s.isExpiryInvalid e = true
  · rw [if_pos expired, if_pos expired]
    refine ⟨s₁.hdel k, by rw [bind_ok run₁]; rfl, ?_⟩
    rw [← FreePool.take_remove]
    exact rep₁.hdel (p.notMem_free_take k)
  · rw [if_neg expired, if_neg expired]
    by_cases fresh : k ∉ p.free
    · rw [if_pos ((rep.prev_eq_sentinel_iff stored).mpr fresh), dif_pos fresh]
      by_cases locked : s.locked k = true
      · rw [if_pos locked, if_pos locked]
        exact ⟨s, rfl, rep⟩
      · rw [if_neg locked, if_neg locked]
        exact pushToTail_spec rep fresh named e
    · rw [if_neg (fun marked => fresh ((rep.prev_eq_sentinel_iff stored).mp marked)), dif_neg fresh]
      by_cases locked : s.locked k = true
      · rw [if_pos locked, if_pos locked]
        exact ⟨s₁, run₁, rep₁⟩
      · rw [if_neg locked, if_neg locked]
        exact ⟨s, rfl, rep⟩

end CheckItemHealth

end RedisAllocator

import RedisAllocator.Codec.StoredScripts
import RedisAllocator.Lib.ScriptPairs
import RedisAllocator.Pool.FreeList
import RedisAllocator.Pool.QueueMachine

/-!
# Runs on the stored strings

The scripts do on the strings what they do on decoded entries, as long as no name
they store begins with a bar and no expiry needs an exponent.  It holds on every
hash, well-formed or not: what a script writes is made of what it was given and of
what it has read.
-/

set_option autoImplicit false

namespace RedisAllocator

open AbortableScript AbortableScript.Script LabelledRun

/-! ## Strings and entries -/

def PlainName (name : String) : Prop := Storable name ∧ name.toList.head? ≠ some '|'

/-- What a pool may name its keys: only what can be read back. -/
structure PoolNames where
  Allowed : String → Prop
  plain : ∀ {k}, Allowed k → PlainName k

/-- An expiry that `tostring` writes in full. -/
def ShortExpiry (expiry : Int) : Prop := expiry.natAbs < 10 ^ 14

structure PoolEntry.Readable (entry : PoolEntry) : Prop where
  next : PlainName entry.next
  expiry : ShortExpiry entry.expiry

/-- The strings in `t` are those of the entries in `s`, under allowed names, and the other keys are
the same. -/
structure StoredRedis.Holds (names : PoolNames) (now : Nat) (t : StoredRedis) (s : Redis) :
    Prop where
  instant : s.now = now
  keys : t.keys = { s with pool := ∅ }
  values : ∀ k, t.hget k = (s.hget k).map PoolEntry.value
  readable : ∀ k entry, s.hget k = some entry → names.Allowed k ∧ entry.Readable

theorem plainName_empty : PlainName "" := ⟨.inl rfl, by decide⟩

theorem plainName_sentinel : PlainName allocatedSentinel := ⟨.inr (.inl rfl), by decide⟩

theorem PoolEntry.readable_allocated {expiry : Int} (short : ShortExpiry expiry) :
    (PoolEntry.allocated expiry).Readable := ⟨plainName_sentinel, short⟩

theorem PoolEntry.Readable.split {entry : PoolEntry} (readable : entry.Readable) :
    splitPoolValue (some entry.value) =
      (some entry.prev, some entry.next, some (entry.expiry : Rat)) :=
  (poolValue_roundTrip_iff _ _ readable.next.1 readable.expiry).mpr readable.next.2

theorem PoolEntry.Readable.withPrev {entry : PoolEntry} (readable : entry.Readable)
    (prev : String) : PoolEntry.Readable ⟨prev, entry.next, entry.expiry⟩ :=
  ⟨readable.next, readable.expiry⟩

theorem PoolEntry.Readable.withNext {entry : PoolEntry} (readable : entry.Readable)
    {next : String} (plain : PlainName next) :
    PoolEntry.Readable ⟨entry.prev, next, entry.expiry⟩ :=
  ⟨plain, readable.expiry⟩

namespace Stored

variable (fraction : Fractions)

theorem tostring_intCast (n : Int) : tostring fraction n = Lua.tostring n := by
  rw [tostring, if_pos (Rat.den_intCast n), Rat.num_intCast]

@[simp] theorem joinPoolValue_some (prev next : String) (expiry : Int) :
    joinPoolValue fraction (some prev) (some next) (some (expiry : Rat)) =
      PoolEntry.value ⟨prev, next, expiry⟩ := by
  rw [joinPoolValue, Option.getD_some, Option.getD_some, Option.getD_some, tostring_intCast]
  rfl

@[simp] theorem allocated_some (expiry : Int) :
    allocated fraction (some (expiry : Rat)) = (PoolEntry.allocated expiry).value :=
  joinPoolValue_some fraction _ _ _

end Stored

theorem Redis.timeoutToExpiry_congr {s : Redis} {now : Nat} (instant : s.now = now)
    (timeout : Int) : s.timeoutToExpiry timeout = (Redis.empty now).timeoutToExpiry timeout := by
  subst instant
  rfl

/-! ## Commands -/

namespace StoredRedis.Holds

variable {names : PoolNames} {now : Nat} {t : StoredRedis} {s : Redis}

theorem head (holds : t.Holds names now s) : t.keys.headPointer = s.headPointer := by
  rw [holds.keys]; rfl

theorem tail (holds : t.Holds names now s) : t.keys.tailPointer = s.tailPointer := by
  rw [holds.keys]; rfl

theorem isSome_hget (holds : t.Holds names now s) (k : String) :
    (t.hget k).isSome = (s.hget k).isSome := by
  rw [holds.values, Option.isSome_map]

theorem pool_keys (holds : t.Holds names now s) : t.pool.keys = s.pool.keys := by
  ext k
  rw [Finmap.mem_keys, Finmap.mem_keys, ← Finmap.lookup_isSome, ← Finmap.lookup_isSome]
  exact Bool.eq_iff_iff.mp (holds.isSome_hget k)

theorem isExpiryInvalid (holds : t.Holds names now s) (expiry : Int) :
    t.isExpiryInvalid (some (expiry : Rat)) = s.isExpiryInvalid expiry := by
  have time : t.keys.time = s.time := by rw [holds.keys]; rfl
  simp [StoredRedis.isExpiryInvalid, Redis.isExpiryInvalid, time]

theorem hset (holds : t.Holds names now s) {k : String} (allowed : names.Allowed k)
    {entry : PoolEntry} (readable : entry.Readable) :
    (t.hset k entry.value).Holds names now (s.hset k entry) := by
  refine ⟨holds.instant, holds.keys, fun other => ?_, fun other entry' stored => ?_⟩
  · rw [hget_hset, Redis.hget_hset]
    split
    · rfl
    · exact holds.values other
  · rw [Redis.hget_hset] at stored
    split at stored
    · rename_i same
      cases stored
      exact ⟨same ▸ allowed, readable⟩
    · exact holds.readable other entry' stored

theorem hdel (holds : t.Holds names now s) (k : String) :
    (t.hdel k).Holds names now (s.hdel k) := by
  refine ⟨holds.instant, holds.keys, fun other => ?_, fun other entry stored => ?_⟩
  · rw [hget_hdel, Redis.hget_hdel]
    split
    · rfl
    · exact holds.values other
  · rw [Redis.hget_hdel] at stored
    split at stored
    · cases stored
    · exact holds.readable other entry stored

theorem beside (holds : t.Holds names now s) {t' : StoredRedis} {s' : Redis}
    (pool : t'.pool = t.pool) (pool' : s'.pool = s.pool) (instant : s'.now = s.now)
    (keys : t'.keys = { s' with pool := ∅ }) : t'.Holds names now s' := by
  have hget (k : String) : t'.hget k = t.hget k := by rw [StoredRedis.hget, pool]; rfl
  have hget' (k : String) : s'.hget k = s.hget k := by rw [Redis.hget, pool']; rfl
  refine ⟨instant.trans holds.instant, keys, fun k => ?_, fun k entry stored => ?_⟩
  · rw [hget, hget', holds.values]
  · rw [hget'] at stored
    exact holds.readable k entry stored

end StoredRedis.Holds

/-- On strings and entries that hold the same, `y` does what `x` does. -/
abbrev Mirrors (names : PoolNames) (now : Nat) {α β : Type} (value : β → α → Prop)
    (y : StoredScript β) (x : LuaScript α) : Prop :=
  Pairs (StoredRedis.Holds names now) value y x

namespace Stored

section Commands

variable {names : PoolNames} {now : Nat} {γ δ : Type} {value : δ → γ → Prop}

theorem hget_pairs (k : String) :
    Mirrors names now (fun v entry => v = entry.map PoolEntry.value ∧
      ∀ e, entry = some e → names.Allowed k ∧ e.Readable) (hget k) (Command.hget k) :=
  .read fun _ _ holds => ⟨holds.values k, holds.readable k⟩

theorem hset_pairs {k : String} (allowed : names.Allowed k) {entry : PoolEntry}
    (readable : entry.Readable) :
    Mirrors names now Eq (hset k entry.value) (Command.hset k entry) :=
  .write fun _ _ holds => holds.hset allowed readable

theorem hdel_pairs (k : String) : Mirrors names now Eq (hdel k) (Command.hdel k) :=
  .write fun _ _ holds => holds.hdel k

theorem hexists_pairs (k : String) :
    Mirrors names now
      (fun present isMember => present = isMember ∧ (isMember = true → names.Allowed k))
      (hexists k) (Command.hexists k) := by
  refine .read fun t s holds => ⟨holds.isSome_hget k, fun isMember => ?_⟩
  obtain ⟨entry, stored⟩ := Option.isSome_iff_exists.mp isMember
  exact (holds.readable k entry stored).1

theorem hlen_pairs : Mirrors names now Eq hlen Command.hlen :=
  .read fun _ _ holds => congrArg Finset.card holds.pool_keys

theorem existsLock_pairs (k : String) :
    Mirrors names now Eq (existsLock k) (Command.existsLock k) :=
  .read fun _ _ holds => by rw [holds.keys]; rfl

theorem beside_pairs {g : StoredRedis → StoredRedis} {f : Redis → Redis}
    (pool : ∀ t, (g t).pool = t.pool) (pool' : ∀ s, (f s).pool = s.pool)
    (instant : ∀ s, (f s).now = s.now) (keys : ∀ t, (g t).keys = f t.keys)
    (frame : ∀ s : Redis, f { s with pool := ∅ } = { f s with pool := ∅ }) :
    Mirrors names now Eq (write g) (write f) := by
  refine .write fun t s holds => holds.beside (pool t) (pool' s) (instant s) ?_
  rw [keys, holds.keys, frame]

theorem putLock_pairs (k : String) (lock : Option StringKey) :
    Mirrors names now Eq (write (·.putLock k lock)) (write (·.putLock k lock)) :=
  beside_pairs (fun _ => rfl) (fun _ => rfl) (fun _ => rfl) (fun _ => rfl) fun _ => rfl

theorem putBind_pairs (name : String) (binding : Option StringKey) :
    Mirrors names now Eq (write (·.putBind name binding)) (write (·.putBind name binding)) :=
  beside_pairs (fun _ => rfl) (fun _ => rfl) (fun _ => rfl) (fun _ => rfl) fun _ => rfl

theorem delLock_pairs (k : String) : Mirrors names now Eq (delLock k) (Command.delLock k) := by
  refine (existsLock_pairs k).bind fun present present' same => ?_
  subst same
  exact (putLock_pairs k none).seq (.pure rfl)

theorem expireAt_pairs (ex : Option Int) :
    Mirrors names now Eq (expireAt ex) (Command.expireAt ex) := by
  cases ex with
  | none => exact .pure rfl
  | some seconds =>
      have clock : Mirrors names now Eq (read StoredRedis.now) (read Redis.now) :=
        .read fun _ _ holds => congrArg Redis.now holds.keys
      refine clock.bind fun instant instant' same => ?_
      subst same
      cases expiresAt? none instant seconds with
      | none => exact .abort _
      | some _ => exact .pure rfl

theorem setLock_pairs (k held : String) (ex : Option Int) :
    Mirrors names now Eq (setLock k held ex) (Command.setLock k held ex) := by
  refine (expireAt_pairs ex).bind fun instant instant' same => ?_
  subst same
  exact putLock_pairs k _

theorem getBind_pairs (name : String) :
    Mirrors names now Eq (getBind name) (Command.getBind name) :=
  .read fun _ _ holds => by rw [holds.keys]; rfl

theorem setBind_pairs (name bound : String) (ex : Option Int) :
    Mirrors names now Eq (setBind name bound ex) (Command.setBind name bound ex) := by
  refine (expireAt_pairs ex).bind fun instant instant' same => ?_
  subst same
  exact putBind_pairs name _

theorem currentHead_pairs : Mirrors names now Eq currentHead RedisAllocator.currentHead :=
  .read fun _ _ holds => holds.head

theorem currentTail_pairs : Mirrors names now Eq currentTail RedisAllocator.currentTail :=
  .read fun _ _ holds => holds.tail

theorem setCurrentHead_pairs (pointer : String) :
    Mirrors names now Eq (setCurrentHead pointer) (RedisAllocator.setCurrentHead pointer) :=
  beside_pairs (fun _ => rfl) (fun _ => rfl) (fun _ => rfl) (fun _ => rfl) fun _ => rfl

theorem setCurrentTail_pairs (pointer : String) :
    Mirrors names now Eq (setCurrentTail pointer) (RedisAllocator.setCurrentTail pointer) :=
  beside_pairs (fun _ => rfl) (fun _ => rfl) (fun _ => rfl) (fun _ => rfl) fun _ => rfl

@[simp] theorem argument_bind (given : String) (g : String → StoredScript δ) :
    (argument (some given) >>= g) = g given := rfl

theorem given_bind (itemName given : String) (g : String → StoredScript δ) :
    (givenOrStored itemName (some given) >>= g) = g given := rfl

theorem givenEntry_bind (itemName : String) (given : PoolEntry) (f : PoolEntry → LuaScript γ) :
    (RedisAllocator.givenOrStored itemName (some given) >>= f) = f given := rfl

theorem emptyPointers_pairs : Mirrors names now Eq emptyPointers RedisAllocator.emptyPointers :=
  (setCurrentHead_pairs "").seq (setCurrentTail_pairs "")

theorem isExpiryInvalid_pairs (expiry : Int) :
    Mirrors names now Eq (isExpiryInvalid (some (expiry : Rat)))
      (RedisAllocator.isExpiryInvalid expiry) :=
  .read fun _ _ holds => holds.isExpiryInvalid expiry

theorem luaAssert_pairs {p q : Prop} [Decidable p] [Decidable q] (same : p ↔ q)
    (message : String) :
    Mirrors names now Eq (luaAssert p message) (RedisAllocator.luaAssert q message) :=
  .ite same (fun _ => .pure rfl) fun _ => .abort _

theorem entry_pairs {k message : String} {g : String → StoredScript δ}
    {f : PoolEntry → LuaScript γ}
    (later : ∀ entry : PoolEntry, names.Allowed k → entry.Readable →
      Mirrors names now value (g entry.value) (f entry)) :
    Mirrors names now value (hget k >>= fun v => assertSome v message >>= g)
      (Command.hget k >>= fun v => RedisAllocator.assertSome v message >>= f) := by
  refine (hget_pairs k).bind fun v entry found => ?_
  obtain ⟨rfl, readable⟩ := found
  cases entry with
  | none => exact Pairs.abort_bind _
  | some entry => exact later entry (readable entry rfl).1 (readable entry rfl).2

end Commands

/-! ## The shared Lua functions -/

section Library

variable {names : PoolNames} {now : Nat} (fraction : Fractions)

theorem assertPushable_pairs (itemName : String) :
    Mirrors names now Eq (assertPushable itemName) (RedisAllocator.assertPushable itemName) := by
  refine (hget_pairs itemName).bind fun v entry found => ?_
  obtain ⟨rfl, readable⟩ := found
  cases entry with
  | none => exact .pure rfl
  | some item =>
      simp only [Option.map_some]
      rw [(readable item rfl).2.split]
      refine (luaAssert_pairs (by simp) _).seq ?_
      exact luaAssert_pairs (by simp) _

theorem linkBehindTail_pairs (head tail : String) {itemName : String}
    (allowed : names.Allowed itemName) :
    Mirrors names now Eq (linkBehindTail fraction head tail itemName)
      (RedisAllocator.linkBehindTail head tail itemName) := by
  refine .ite Iff.rfl (fun _ => setCurrentHead_pairs itemName) fun _ => entry_pairs ?_
  intro tailVal allowedTail readable
  rw [readable.split]
  refine (luaAssert_pairs (by simp) _).seq ?_
  rw [joinPoolValue_some]
  exact hset_pairs allowedTail (readable.withNext (names.plain allowed))

theorem pushToTail_pairs {itemName : String} (allowed : names.Allowed itemName) {expiry : Int}
    (short : ShortExpiry expiry) :
    Mirrors names now Eq (pushToTail fraction itemName (some (expiry : Rat)))
      (RedisAllocator.pushToTail itemName expiry) := by
  refine currentHead_pairs.bind fun head head' sameHead => ?_
  refine currentTail_pairs.bind fun tail tail' sameTail => ?_
  subst sameHead sameTail
  refine (assertPushable_pairs itemName).seq ?_
  rw [joinPoolValue_some]
  refine (hset_pairs allowed ⟨plainName_empty, short⟩).seq ?_
  refine (linkBehindTail_pairs fraction head tail allowed).seq ?_
  exact setCurrentTail_pairs itemName

theorem advanceHeadAfterRemoval_pairs (headNext : String) :
    Mirrors names now Eq (advanceHeadAfterRemoval fraction (some headNext))
      (RedisAllocator.advanceHeadAfterRemoval headNext) := by
  refine .ite (by rw [Option.some.injEq]) (fun _ => emptyPointers_pairs) fun _ => ?_
  rw [argument_bind]
  refine (hget_pairs headNext).bind fun v entry found => ?_
  obtain ⟨rfl, readable⟩ := found
  cases entry with
  | none => exact emptyPointers_pairs
  | some nextVal =>
      obtain ⟨allowed, readable⟩ := readable nextVal rfl
      simp only [Option.map_some, readable.split, joinPoolValue_some]
      refine (hset_pairs allowed (readable.withPrev "")).seq ?_
      exact setCurrentHead_pairs headNext

theorem unlinkHead_pairs (headNext : String) :
    Mirrors names now Eq (unlinkHead fraction (some headNext))
      (RedisAllocator.unlinkHead headNext) := by
  refine .ite (by rw [Option.some.injEq]) (fun _ => emptyPointers_pairs) fun _ => ?_
  rw [argument_bind]
  refine entry_pairs fun nextVal allowed readable => ?_
  simp only [readable.split, joinPoolValue_some]
  refine (hset_pairs allowed (readable.withPrev "")).seq ?_
  exact setCurrentHead_pairs headNext

def PopsAlike (names : PoolNames) (stored : Option String × Option Rat)
    (popped : Option String × Int) : Prop :=
  stored = (popped.1, some (popped.2 : Rat)) ∧
    ∀ k, popped.1 = some k → names.Allowed k ∧ ShortExpiry popped.2

theorem popFromHead_pairs (fuel : Nat) :
    Mirrors names now (PopsAlike names) (popFromHead fraction fuel)
      (RedisAllocator.popFromHead fuel) := by
  induction fuel with
  | zero => exact .abort _
  | succ fuel ih =>
      refine currentHead_pairs.bind fun head head' same => ?_
      subst same
      refine .ite Iff.rfl (fun _ => .pure ⟨by simp, fun k popped => by cases popped⟩) fun _ => ?_
      refine entry_pairs fun headVal allowed readable => ?_
      simp only [readable.split, allocated_some]
      refine (isExpiryInvalid_pairs headVal.expiry).bind fun expired expired' same => ?_
      subst same
      refine (existsLock_pairs head).bind fun locked locked' same => ?_
      subst same
      have marked := PoolEntry.readable_allocated readable.expiry
      have handOut := @hset_pairs names now head allowed _ marked
      refine .ite Iff.rfl (fun _ => ?_) fun _ => .ite Iff.rfl (fun _ => ?_) fun _ => ?_
      · exact (hdel_pairs head).seq ((advanceHeadAfterRemoval_pairs fraction headVal.next).seq ih)
      · exact handOut.seq ((advanceHeadAfterRemoval_pairs fraction headVal.next).seq ih)
      · refine (unlinkHead_pairs fraction headVal.next).seq (handOut.seq (.pure ⟨rfl, ?_⟩))
        intro k popped
        cases popped
        exact ⟨allowed, readable.expiry⟩

theorem dropIfExpired_pairs (itemName : String) (expiry : Int) :
    Mirrors names now Eq (dropIfExpired itemName (some (expiry : Rat)))
      (RedisAllocator.dropIfExpired itemName expiry) := by
  refine (isExpiryInvalid_pairs expiry).bind fun expired expired' same => ?_
  subst same
  exact .ite Iff.rfl (fun _ => hdel_pairs itemName) fun _ => .pure rfl

theorem relinkPrev_pairs (prev : String) {next : String} (plain : PlainName next) :
    Mirrors names now Eq (relinkPrev fraction (some prev) (some next))
      (RedisAllocator.relinkPrev prev next) := by
  refine .ite (by rw [Option.some.injEq]) (fun _ => setCurrentHead_pairs next) fun _ => ?_
  rw [argument_bind]
  refine entry_pairs fun prevVal allowedPrev readable => ?_
  simp only [readable.split, joinPoolValue_some]
  exact hset_pairs allowedPrev (readable.withNext plain)

theorem relinkNext_pairs (prev next : String) :
    Mirrors names now Eq (relinkNext fraction (some prev) (some next))
      (RedisAllocator.relinkNext prev next) := by
  refine .ite (by rw [Option.some.injEq]) (fun _ => setCurrentTail_pairs prev) fun _ => ?_
  rw [argument_bind]
  refine entry_pairs fun nextVal allowedNext readable => ?_
  simp only [readable.split, joinPoolValue_some]
  exact hset_pairs allowedNext (readable.withPrev prev)

theorem markAllocated_pairs {itemName : String} (allowed : names.Allowed itemName) {val : PoolEntry}
    (readable : val.Readable) :
    Mirrors names now Eq (setItemAllocated fraction itemName (some val.value))
      (RedisAllocator.setItemAllocated itemName (some val)) := by
  rw [setItemAllocated, RedisAllocator.setItemAllocated, given_bind, givenEntry_bind,
    readable.split]
  refine .ite (by rw [Option.some.injEq]) (fun _ => luaAssert_pairs (by rw [Option.some.injEq]) _)
    fun _ => ?_
  refine (luaAssert_pairs (by rw [ne_eq, ne_eq, Option.some.injEq]) _).seq ?_
  rw [allocated_some]
  refine (dropIfExpired_pairs itemName val.expiry).seq ?_
  refine (relinkPrev_pairs fraction val.prev readable.next).seq ?_
  refine (relinkNext_pairs fraction val.prev val.next).seq ?_
  exact hset_pairs allowed (PoolEntry.readable_allocated readable.expiry)

theorem setItemAllocated_pairs (itemName : String) :
    Mirrors names now Eq (setItemAllocated fraction itemName none)
      (RedisAllocator.setItemAllocated itemName none) := by
  have stored : setItemAllocated fraction itemName none =
      hget itemName >>= fun v => assertSome v "val should not be nil" >>= fun val =>
        setItemAllocated fraction itemName (some val) := by
    rw [setItemAllocated, givenOrStored, bind_bind]
    rfl
  have decoded : RedisAllocator.setItemAllocated itemName none =
      Command.hget itemName >>= fun v =>
        RedisAllocator.assertSome v "val should not be nil" >>= fun val =>
          RedisAllocator.setItemAllocated itemName (some val) := by
    rw [RedisAllocator.setItemAllocated, RedisAllocator.givenOrStored, bind_bind]
    rfl
  rw [stored, decoded]
  exact entry_pairs fun val allowed readable => markAllocated_pairs fraction allowed readable

theorem checkItemHealth_pairs (itemName : String) :
    Mirrors names now Eq (checkItemHealth fraction itemName)
      (RedisAllocator.checkItemHealth itemName) := by
  refine entry_pairs fun val allowed readable => ?_
  simp only [readable.split, Option.some.injEq]
  refine (isExpiryInvalid_pairs val.expiry).bind fun expired expired' same => ?_
  subst same
  have marked := @markAllocated_pairs names now fraction itemName allowed val readable
  refine .ite Iff.rfl (fun _ => marked.seq (hdel_pairs itemName)) fun _ => ?_
  refine (existsLock_pairs itemName).bind fun locked locked' same => ?_
  subst same
  refine .ite Iff.rfl (fun _ => .ite Iff.rfl (fun _ => .pure rfl) fun _ => ?_) fun _ => ?_
  · exact pushToTail_pairs fraction allowed readable.expiry
  · exact .ite Iff.rfl (fun _ => marked) fun _ => .pure rfl

theorem freeListRounds_pairs (rounds : Nat) (current : String) (items : List String) :
    Mirrors names now Eq (freeListRounds rounds (some current) items)
      (RedisAllocator.freeListRounds rounds current items) := by
  induction rounds generalizing current items with
  | zero => exact .pure rfl
  | succ rounds ih =>
      refine .ite Iff.rfl (fun _ => .pure rfl) fun _ => ?_
      refine (hget_pairs current).bind fun v entry found => ?_
      obtain ⟨rfl, readable⟩ := found
      cases entry with
      | none => exact .pure rfl
      | some val =>
          simp only [Option.map_some, (readable val rfl).2.split, Option.some.injEq]
          exact .ite Iff.rfl (fun _ => .pure rfl) fun _ => ih val.next _

theorem getFreeList_pairs : Mirrors names now Eq getFreeList RedisAllocator.getFreeList := by
  refine currentHead_pairs.bind fun current current' same => ?_
  subst same
  refine .ite Iff.rfl (fun _ => .pure rfl) fun _ => ?_
  refine hlen_pairs.bind fun maxIters maxIters' same => ?_
  subst same
  exact freeListRounds_pairs maxIters current []

end Library

/-! ## The scripts -/

section Scripts

variable {names : PoolNames} {now : Nat} (fraction : Fractions)

theorem raiseInvalid_pairs {γ δ : Type} {value : δ → γ → Prop} {keys : List String}
    {y : StoredScript δ} {x : LuaScript γ}
    (accepted : (∀ k ∈ keys, validateKey k = .ok ()) → Mirrors names now value y x) :
    Mirrors names now value (raiseInvalid keys >>= fun _ => y)
      (RedisAllocator.raiseInvalid keys >>= fun _ => x) := by
  cases valid : validateKeys keys with
  | error e =>
      rw [raiseInvalid, RedisAllocator.raiseInvalid, valid]
      exact Pairs.abort_bind _
  | ok =>
      rw [raiseInvalid, RedisAllocator.raiseInvalid, valid]
      exact accepted ((validateKeys_ok_iff keys).mp valid)

theorem timeoutToExpiry_pairs {timeout : Int}
    (short : ShortExpiry ((Redis.empty now).timeoutToExpiry timeout)) :
    Mirrors names now (fun stored expiry => stored = expiry ∧ ShortExpiry expiry)
      (timeoutToExpiry timeout) (RedisAllocator.timeoutToExpiry timeout) := by
  refine .read fun t s holds => ⟨?_, ?_⟩
  · rw [holds.keys]
    rfl
  · rwa [Redis.timeoutToExpiry_congr holds.instant]

theorem insertUnlocked_pairs {itemName : String} (allowed : names.Allowed itemName) {expiry : Int}
    (short : ShortExpiry expiry) :
    Mirrors names now Eq (insertUnlocked fraction itemName expiry)
      (RedisAllocator.insertUnlocked itemName expiry) :=
  (delLock_pairs itemName).bind fun _ _ _ => pushToTail_pairs fraction allowed short

theorem extendItem_pairs {itemName : String} (allowed : names.Allowed itemName) {expiry : Int}
    (short : ShortExpiry expiry) :
    Mirrors names now Eq (extendItem fraction expiry itemName)
      (RedisAllocator.extendItem expiry itemName) := by
  refine (hget_pairs itemName).bind fun v entry found => ?_
  obtain ⟨rfl, readable⟩ := found
  cases entry with
  | none => exact insertUnlocked_pairs fraction allowed short
  | some val =>
      simp only [Option.map_some, (readable val rfl).2.split, joinPoolValue_some]
      exact hset_pairs allowed ⟨(readable val rfl).2.next, short⟩

theorem evict_pairs (itemName : String) :
    Mirrors names now Eq (evict fraction itemName) (RedisAllocator.evict itemName) :=
  (setItemAllocated_pairs fraction itemName).seq (hdel_pairs itemName)

theorem shrinkItem_pairs (itemName : String) :
    Mirrors names now Eq (shrinkItem fraction itemName) (RedisAllocator.shrinkItem itemName) := by
  refine (hexists_pairs itemName).bind fun present isMember found => ?_
  obtain ⟨rfl, _⟩ := found
  exact .ite Iff.rfl (fun _ => evict_pairs fraction itemName) fun _ => .pure rfl

theorem clear_pairs : Mirrors names now Eq clear RedisAllocator.clear := by
  refine Pairs.seq (.write fun t s holds => ?_) emptyPointers_pairs
  exact ⟨holds.instant, holds.keys, fun k => rfl, fun k entry stored => by cases stored⟩

variable {keys : List String} (given : ∀ k ∈ keys, validateKey k = .ok () → names.Allowed k)
  {timeout : Int}
  (short : ShortExpiry ((Redis.empty now).timeoutToExpiry timeout))

include given short in
theorem extendScript_pairs (accepted : ∀ k ∈ keys, validateKey k = .ok ()) :
    Mirrors names now Eq (extendScript fraction timeout keys)
      (RedisAllocator.extendScript timeout keys) := by
  refine (timeoutToExpiry_pairs short).bind fun expiry expiry' same => ?_
  obtain ⟨rfl, shortened⟩ := same
  exact .forM fun k present =>
    extendItem_pairs fraction (given k present (accepted k present)) shortened

theorem shrink_pairs (keys : List String) :
    Mirrors names now Eq (shrink fraction keys) (RedisAllocator.shrink keys) :=
  .ite Iff.rfl (fun _ => .pure rfl) fun _ => .forM fun k _ => shrinkItem_pairs fraction k

include given short in
theorem assignScript_pairs (accepted : ∀ k ∈ keys, validateKey k = .ok ())
    (allItems pairs : List String) :
    Mirrors names now Eq (assignScript fraction timeout keys allItems pairs)
      (RedisAllocator.assignScript timeout keys allItems pairs) := by
  refine (timeoutToExpiry_pairs short).bind fun expiry expiry' same => ?_
  obtain ⟨rfl, shortened⟩ := same
  have swept : Mirrors names now (fun left left' => left = left' ∧ left' ⊆ keys)
      (allItems.foldlM (keepOrEvict fraction) keys)
      (allItems.foldlM RedisAllocator.keepOrEvict keys) := by
    refine Pairs.foldlM (fun left left' itemName related => ?_) allItems ⟨rfl, fun _ => id⟩
    obtain ⟨rfl, within⟩ := related
    refine .ite Iff.rfl (fun _ => .pure ⟨rfl, ?_⟩) fun _ => ?_
    · exact fun k kept => within (List.mem_of_mem_filter kept)
    · exact (evict_pairs fraction itemName).seq (.pure ⟨rfl, within⟩)
  refine swept.bind fun left left' related => ?_
  obtain ⟨rfl, within⟩ := related
  refine .forM fun k _ => .ite Iff.rfl (fun kept => ?_) fun _ => .pure rfl
  exact insertUnlocked_pairs fraction (given k (within kept) (accepted k (within kept))) shortened

theorem refreshCache_pairs (name : String) (cacheTimeout : Int) (cacheKey : String) :
    Mirrors names now Eq (refreshCache name cacheTimeout cacheKey)
      (RedisAllocator.refreshCache name cacheTimeout cacheKey) := by
  refine .ite Iff.rfl (fun _ => .pure rfl) fun _ => ?_
  exact .ite Iff.rfl (fun _ => setBind_pairs name cacheKey _) fun _ =>
    setBind_pairs name cacheKey none

theorem lockBound_pairs (shared : Bool) (timeout : Int) (cachedKey : String) :
    Mirrors names now Eq (lockBound fraction shared timeout cachedKey)
      (RedisAllocator.lockBound shared timeout cachedKey) := by
  refine .ite Iff.rfl (fun _ => .pure rfl) fun _ => ?_
  exact (setItemAllocated_pairs fraction cachedKey).seq (setLock_pairs cachedKey "1" _)

theorem mallocBound_pairs (shared : Bool) (timeout : Int) (name : String) (cacheTimeout : Int) :
    Mirrors names now Eq (mallocBound fraction shared timeout name cacheTimeout)
      (RedisAllocator.mallocBound shared timeout name cacheTimeout) := by
  refine .ite Iff.rfl (fun _ => .pure rfl) fun _ => ?_
  refine (getBind_pairs name).bind fun bound bound' same => ?_
  subst same
  cases bound with
  | none => exact .pure rfl
  | some cachedKey =>
      refine (hexists_pairs cachedKey).bind fun isMember isMember' found => ?_
      obtain ⟨rfl, _⟩ := found
      refine (existsLock_pairs cachedKey).bind fun locked locked' same => ?_
      subst same
      refine .ite Iff.rfl (fun _ => (putBind_pairs name none).seq (.pure rfl)) fun _ => ?_
      refine (refreshCache_pairs name cacheTimeout cachedKey).seq ?_
      exact (lockBound_pairs fraction shared timeout cachedKey).seq (.pure rfl)

theorem lockOrRotate_pairs (shared : Bool) (timeout : Int) {itemName : String}
    (allowed : names.Allowed itemName) {expiry : Int} (short : ShortExpiry expiry) :
    Mirrors names now Eq (lockOrRotate fraction shared timeout itemName (some (expiry : Rat)))
      (RedisAllocator.lockOrRotate shared timeout itemName expiry) := by
  refine .ite Iff.rfl (fun _ => pushToTail_pairs fraction allowed short) fun _ => ?_
  exact .ite Iff.rfl (fun _ => setLock_pairs itemName "1" _) fun _ => setLock_pairs itemName "1" _

theorem mallocPop_pairs (shared : Bool) (timeout : Int) (name : String) (cacheTimeout : Int) :
    Mirrors names now Eq (mallocPop fraction shared timeout name cacheTimeout)
      (RedisAllocator.mallocPop shared timeout name cacheTimeout) := by
  refine hlen_pairs.bind fun size size' same => ?_
  subst same
  refine (popFromHead_pairs fraction (size + 2)).bind fun stored popped alike => ?_
  obtain ⟨item, expiry⟩ := popped
  obtain ⟨rfl, allowed⟩ := alike
  cases item with
  | none => exact .pure rfl
  | some itemName =>
      obtain ⟨allowed, short⟩ := allowed itemName rfl
      refine (lockOrRotate_pairs fraction shared timeout allowed short).seq ?_
      exact (refreshCache_pairs name cacheTimeout itemName).seq (.pure rfl)

theorem mallocScript_pairs (shared : Bool) (timeout : Int) (name : String) (cacheTimeout : Int) :
    Mirrors names now Eq (mallocScript fraction shared timeout name cacheTimeout)
      (RedisAllocator.mallocScript shared timeout name cacheTimeout) := by
  refine (mallocBound_pairs fraction shared timeout name cacheTimeout).bind
    fun bound bound' same => ?_
  subst same
  cases bound with
  | some cachedKey => exact .pure rfl
  | none => exact mallocPop_pairs fraction shared timeout name cacheTimeout

include short in
theorem freeScript_pairs (keys : List String) :
    Mirrors names now Eq (freeScript fraction timeout keys)
      (RedisAllocator.freeScript timeout keys) := by
  refine (timeoutToExpiry_pairs short).bind fun expiry expiry' same => ?_
  obtain ⟨rfl, shortened⟩ := same
  refine .forM fun k _ => (delLock_pairs k).bind fun deleted deleted' same => ?_
  subst same
  refine (hexists_pairs k).bind fun isMember isMember' found => ?_
  obtain ⟨rfl, allowed⟩ := found
  exact .ite Iff.rfl (fun holds => pushToTail_pairs fraction (allowed holds.2) shortened)
    fun _ => .pure rfl

theorem gcScript_pairs (count : Int) (hscan : String → Int → ScanReply) :
    Mirrors names now Eq (gcScript fraction count hscan) (RedisAllocator.gcScript count hscan) := by
  have cursor : Mirrors names now Eq getCursor RedisAllocator.getCursor := by
    refine .read fun t s holds => ?_
    have same : t.gcCursor = s.gcCursor := congrArg Redis.gcCursor holds.keys
    cases stored : s.gcCursor with
    | none => simp only [same, stored]
    | some cursor => simp only [same, stored]
  refine cursor.bind fun cursor cursor' same => ?_
  subst same
  refine Pairs.seq (.forM fun k _ => checkItemHealth_pairs fraction k) ?_
  exact beside_pairs (fun _ => rfl) (fun _ => rfl) (fun _ => rfl) (fun _ => rfl) fun _ => rfl

end Scripts

end Stored

/-! ## Calls and runs -/

/-- Of the names a call brings with it those that are accepted are allowed, and its expiry is
written in full. -/
def Call.Writable (names : PoolNames) (s : Redis) : Call → Prop
  | .extend keys timeout =>
    (∀ k ∈ keys, validateKey k = .ok () → names.Allowed k) ∧
      ShortExpiry (s.timeoutToExpiry (timeout.getD (-1)))
  | .assign keys timeout _ _ =>
    (∀ k ∈ keys, validateKey k = .ok () → names.Allowed k) ∧
      ShortExpiry (s.timeoutToExpiry timeout)
  | .freeKeys _ timeout => ShortExpiry (s.timeoutToExpiry timeout)
  | _ => True

theorem Call.perform_pairs {names : PoolNames} (fraction : Stored.Fractions)
    (shared : Bool) {call : Call} {s : Redis} (writable : call.Writable names s) :
    Mirrors names s.now Eq (Stored.perform fraction shared call) (call.perform shared) := by
  have short {timeout : Int} (written : ShortExpiry (s.timeoutToExpiry timeout)) :
      ShortExpiry ((Redis.empty s.now).timeoutToExpiry timeout) := by
    rwa [Redis.timeoutToExpiry_congr rfl] at written
  cases call with
  | extend keys timeout =>
      refine Pairs.seq (.ite Iff.rfl (fun _ => .pure rfl) fun _ => ?_) (.pure rfl)
      exact Stored.raiseInvalid_pairs
        (Stored.extendScript_pairs fraction writable.1 (short writable.2))
  | shrink keys => exact (Stored.shrink_pairs fraction keys).seq (.pure rfl)
  | assign keys timeout allItems pairs =>
      refine Pairs.seq (.ite Iff.rfl (fun _ => Stored.clear_pairs) fun _ => ?_) (.pure rfl)
      exact Stored.raiseInvalid_pairs fun accepted =>
        Stored.assignScript_pairs fraction writable.1 (short writable.2) accepted allItems pairs
  | clear => exact Stored.clear_pairs.seq (.pure rfl)
  | mallocKey timeout name cacheTimeout =>
      exact Stored.mallocScript_pairs fraction shared timeout.wholeSeconds (name.getD "")
        cacheTimeout.wholeSeconds
  | freeKeys keys timeout =>
      refine Pairs.seq (.ite Iff.rfl (fun _ => .pure rfl) fun _ => ?_) (.pure rfl)
      exact Stored.freeScript_pairs fraction (short writable) keys
  | gc count hscan =>
      refine Pairs.seq (.ite Iff.rfl (fun _ => ?_) fun _ => .abort _) (.pure rfl)
      exact Stored.gcScript_pairs fraction count hscan

def StoredRedis.respond (fraction : Stored.Fractions) (shared : Bool) (request : Request)
    (t : StoredRedis) : Except Failure (Option String) × StoredRedis :=
  Stored.perform fraction shared request.call { t with now := request.now }

def StoredRedis.empty (now : Nat) : StoredRedis :=
  ⟨now, ∅, none, none, none, fun _ => none, fun _ => none⟩

theorem StoredRedis.holds_empty (names : PoolNames) (now : Nat) :
    (StoredRedis.empty now).Holds names (Redis.empty now).now (Redis.empty now) :=
  ⟨rfl, rfl, fun _ => rfl, fun _ _ stored => by cases stored⟩

section Runs

variable {names : PoolNames} {fraction : Stored.Fractions} {shared : Bool} {s s' : Redis}
  {t : StoredRedis} {event : Event}

theorem StoredRedis.Holds.at (holds : t.Holds names s.now s) (elapsed : Nat) :
    ({ t with now := s.now + elapsed } : StoredRedis).Holds names (s.now + elapsed)
      (s.advance elapsed) := by
  refine ⟨rfl, ?_, holds.values, holds.readable⟩
  have keys := holds.keys
  simp only [StoredRedis.keys, Redis.advance, Redis.mk.injEq] at keys ⊢
  simp [keys]

theorem CallStep.mirrored (step : CallStep shared s event s')
    (writable : event.call.Writable names event.before) (holds : t.Holds names s.now s) :
    (t.respond fraction shared event.request).1 = event.reply shared ∧
      (t.respond fraction shared event.request).2.Holds names s'.now s' := by
  obtain ⟨⟨elapsed, later⟩, _, rfl⟩ := step
  have started : ({ t with now := event.before.now } : StoredRedis).Holds names event.before.now
      event.before := by
    rw [later]
    exact holds.at elapsed
  obtain ⟨outcomes, after⟩ := Call.perform_pairs fraction shared writable _ _ started
  refine ⟨outcomes.eq, ?_⟩
  have instant : (event.after shared).now = event.before.now := after.instant
  rw [instant]
  exact after

theorem CallRun.mirrored {final : Redis} {events : List Event}
    (run : CallRun shared s events final) (holds : t.Holds names s.now s)
    (writable : ∀ event ∈ events, event.call.Writable names event.before) :
    (replay (StoredRedis.respond fraction shared) (events.map Event.request) t).1 =
        events.map (Event.reply shared) ∧
      (replay (StoredRedis.respond fraction shared) (events.map Event.request) t).2.Holds names
        final.now final :=
  Run.replays (fun s (t : StoredRedis) => t.Holds names s.now s)
    (fun event : Event => event.call.Writable names event.before)
    (fun _ _ _ _ holds writable step => step.mirrored writable holds) run holds writable

end Runs

/-- `validateKey` accepts more than that, see `barredKey_misread`. -/
def unbarredNames : PoolNames where
  Allowed k := validateKey k = .ok () ∧ k.toList.head? ≠ some '|'
  plain := fun allowed => ⟨.inr (.inr allowed.1), allowed.2⟩

/-- In every run whose names can be read back and whose expiries are written in full, the scripts
reply on the stored strings what they reply on the decoded entries, and leave the strings of the
entries that they leave. -/
theorem callRun_mirrored (names : PoolNames) (fraction : Stored.Fractions) (shared : Bool)
    {start final : Redis} {events : List Event} (run : CallRun shared start events final)
    {t : StoredRedis} (holds : t.Holds names start.now start)
    (writable : ∀ event ∈ events, event.call.Writable names event.before) :
    ∃ last, replay (StoredRedis.respond fraction shared) (events.map Event.request) t =
        (events.map (Event.reply shared), last) ∧ last.Holds names final.now final ∧
      (Stored.getFreeList last).1 = (getFreeList final).1 := by
  obtain ⟨replies, last⟩ := run.mirrored holds writable
  exact ⟨_, Prod.ext replies rfl, last, (Stored.getFreeList_pairs _ _ last).1.eq⟩

theorem callRun_mirrored_sample :
    ∃ last, replay (StoredRedis.respond (fun _ => "") false)
        ([sampleStart, sampleMalloc].map Event.request) (StoredRedis.empty 0) =
          ([sampleStart, sampleMalloc].map (Event.reply false), last) ∧
      last.Holds unbarredNames (sampleMalloc.after false).now (sampleMalloc.after false) ∧
      (Stored.getFreeList last).1 = (getFreeList (sampleMalloc.after false)).1 :=
  callRun_mirrored unbarredNames (fun _ => "") false sample_run (StoredRedis.holds_empty _ 0) (by
    intro event inRun
    rcases List.mem_cons.mp inRun with rfl | inRun
    · have unbarred : ∀ k ∈ ["a", "b"], k.toList.head? ≠ some '|' := by decide
      have short : (-1 : Int).natAbs < 10 ^ 14 := by decide
      exact ⟨fun k given accepted => ⟨accepted, unbarred k given⟩, short⟩
    · obtain rfl := List.mem_singleton.mp inRun
      exact trivial)

end RedisAllocator

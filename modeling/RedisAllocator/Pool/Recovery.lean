import RedisAllocator.Allocator.Exclusivity
import RedisAllocator.Lib.History
import RedisAllocator.Pool.QueueMachine

/-!
# What the garbage collector brings back

Non-shared mode.  A client that stops without freeing its key leaves a member that
is in no queue, under a lock that lapses.  Along a run the lock of a key is told
from the calls so far: it is there exactly while the last client that got the key
is within its timeout and nobody has freed the key since.  So a visit of the
collector puts a key back exactly when nobody holds it.
-/

set_option autoImplicit false

namespace RedisAllocator

open AbortableScript AbortableScript.Script LabelledRun

/-! ## Who holds a key -/

/-- `malloc_key` returns `k` and locks it with `lock`. -/
def Event.Locks (event : Event) (k : String) (lock : StringKey) : Prop :=
  ∃ timeout name cacheTimeout, event.call = .mallocKey timeout name cacheTimeout ∧
    event.Returns false k ∧ lock = event.before.mallocLock timeout.wholeSeconds

/-- `malloc_key` returns `k` for a time that is not over at `now`. -/
def Event.HandsOutBeyond (event : Event) (k : String) (now : Nat) : Prop :=
  ∃ timeout name cacheTimeout, event.call = .mallocKey timeout name cacheTimeout ∧
    event.Returns false k ∧
    (0 < timeout.wholeSeconds → now < event.before.now + 1000 * timeout.wholeSeconds.toNat)

/-- The key is freed, or put in anew after it was taken out of the pool. -/
def Event.GivesUp (event : Event) (k : String) : Prop := event.Frees k ∨ event.Inserts false k

section Event

variable {s s' : Redis} {p : FreePool String} {event : Event} {k : String} {lock : StringKey}
  {now : Nat}

theorem Event.Locks.handsOutBeyond (locks : event.Locks k lock) (live : lock.live now = true) :
    event.HandsOutBeyond k now := by
  obtain ⟨timeout, name, cacheTimeout, call, returned, rfl⟩ := locks
  refine ⟨timeout, name, cacheTimeout, call, returned, fun positive => ?_⟩
  rw [Redis.mallocLock, if_pos positive] at live
  exact of_decide_eq_true live

theorem Event.HandsOutBeyond.live (handsOut : event.HandsOutBeyond k now) :
    ∃ lock, event.Locks k lock ∧ lock.live now = true := by
  obtain ⟨timeout, name, cacheTimeout, call, returned, within⟩ := handsOut
  refine ⟨_, ⟨timeout, name, cacheTimeout, call, returned, rfl⟩, ?_⟩
  rw [Redis.mallocLock]
  by_cases positive : 0 < timeout.wholeSeconds
  · rw [if_pos positive]
    exact decide_eq_true (within positive)
  · rw [if_neg positive]
    rfl

theorem Event.Locks.after (locks : event.Locks k lock) : (event.after false).locks k = some lock := by
  obtain ⟨timeout, name, cacheTimeout, call, returned, rfl⟩ := locks
  obtain ⟨timeout', name', cacheTimeout', call', _, update⟩ := event.returns_malloc returned
  rw [call, Call.mallocKey.injEq] at call'
  obtain ⟨rfl, _, _⟩ := call'
  rw [update, Function.update_self]

theorem Event.GivesUp.unlocks (givesUp : event.GivesUp k) (sound : AllSound event.before p)
    (admissible : event.call.Admissible event.before) : (event.after false).locks k = none := by
  obtain ⟨_, rep, view⟩ := call_simulates sound false admissible
  have locks : (event.after false).locks =
      ((event.before.queueView p).perform false event.call).2.locks :=
    (congrArg QueueAllocator.locks view).symm
  have newcomer (keys : List String) (named : k ∈ keys) (absent : event.before.hget k = none) :
      (event.before.queueView p).unlockAll (p.newIn keys) k = none := by
    refine if_pos ?_
    rw [FreePool.newIn, List.mem_filter, (sound.rep.hget_none_iff k).mp absent]
    exact ⟨named, rfl⟩
  have joined (absent : event.before.hget k = none) (present : (event.after false).hget k ≠ none)
      (same : ((event.before.queueView p).perform false event.call).2 =
        event.before.queueView p) : False := by
    rw [same] at rep
    exact present ((rep.hget_none_iff k).mpr ((sound.rep.hget_none_iff k).mp absent))
  rw [locks]
  rcases givesUp with ⟨keys, timeout, call, named⟩ |
    ⟨⟨keys, timeout, call, named⟩ | ⟨keys, timeout, allItems, pairs, call, named⟩, absent, present⟩
  · rw [call]
    exact if_pos named
  · cases valid : validateKeys keys with
    | ok u =>
        simp only [call, QueueAllocator.perform, QueueAllocator.extend, valid]
        exact newcomer keys named absent
    | error e =>
        refine (joined absent present ?_).elim
        simp only [call, QueueAllocator.perform, QueueAllocator.extend, valid]
  · cases valid : validateKeys keys with
    | ok u =>
        rw [call] at admissible
        obtain ⟨_, _, _, listed⟩ := admissible
        have inPairs : k ∈ pairs := List.mem_toFinset.mp (listed ▸ List.mem_toFinset.mpr named)
        simp only [call, QueueAllocator.perform, QueueAllocator.assign, valid]
        exact newcomer pairs inPairs absent
    | error e =>
        refine (joined absent present ?_).elim
        simp only [call, QueueAllocator.perform, QueueAllocator.assign, valid]

end Event

/-- The calls so far tell whether `k` is locked, and until when. -/
structure LockHistory (k : String) (past : List Event) (s : Redis) : Prop where
  sound : ∃ p, AllSound s p
  origin : ∀ lock, s.locks k = some lock → Standing (·.Locks k lock) (·.GivesUp k) past
  held : ∀ now, s.now ≤ now → Standing (·.HandsOutBeyond k now) (·.GivesUp k) past →
    ∃ lock, s.locks k = some lock ∧ lock.live now = true

section LockHistory

variable {k : String} {past : List Event} {s s' : Redis} {event : Event}

theorem LockHistory.step (history : LockHistory k past s) (step : CallStep false s event s') :
    LockHistory k (past ++ [event]) s' := by
  obtain ⟨p, sound⟩ := history.sound
  obtain ⟨started, _, p', sound', _⟩ := step.sound sound
  obtain ⟨⟨elapsed, later⟩, admissible, rfl⟩ := step
  have sameLocks : event.before.locks = s.locks := by rw [later]; rfl
  have passed : s.now ≤ event.before.now := by rw [later]; exact Nat.le_add_right ..
  have now := Event.now_after admissible
  refine ⟨⟨p', sound'⟩, fun lock isLock => ?_, fun instant reached standing => ?_⟩
  · have kept : ¬ event.GivesUp k := fun givesUp => by
      rw [givesUp.unlocks started admissible] at isLock
      cases isLock
    rcases event.lockOf_after admissible k with same | ⟨_, frees | inserts | returned⟩
    · have before : s.locks k = some lock := by
        rw [← sameLocks, ← isLock]
        exact (congrArg Prod.snd same).symm
      exact standing_snoc.mpr (.inr ⟨history.origin lock before, kept⟩)
    · exact absurd (.inl frees) kept
    · exact absurd (.inr inserts) kept
    · obtain ⟨timeout, name, cacheTimeout, call, _, update⟩ := event.returns_malloc returned
      rw [update, Function.update_self] at isLock
      exact standing_snoc.mpr (.inl
        ⟨timeout, name, cacheTimeout, call, returned, (Option.some.inj isLock).symm⟩)
  · rcases standing_snoc.mp standing with handsOut | ⟨earlier, kept⟩
    · obtain ⟨lock, locks, live⟩ := handsOut.live
      exact ⟨lock, locks.after, live⟩
    · have sinceBefore : event.before.now ≤ instant := now ▸ reached
      obtain ⟨lock, isLock, live⟩ := history.held instant (passed.trans sinceBefore) earlier
      have isLock' : event.before.locks k = some lock := by rw [sameLocks, isLock]
      rcases event.lockOf_after admissible k with same | ⟨_, frees | inserts | returned⟩
      · exact ⟨lock, (congrArg Prod.snd same).trans isLock', live⟩
      · exact absurd (.inl frees) kept
      · exact absurd (.inr inserts) kept
      · -- a key with a live lock is not handed out
        obtain ⟨elapsed', rfl⟩ := Nat.exists_eq_add_of_le sinceBefore
        have liveNow := lock.live_antitone live
        obtain ⟨_, _, _, _, unlocked, _⟩ := event.returns_malloc returned
        rw [Redis.locked, Redis.lock?, isLock', Option.filter, if_pos liveNow] at unlocked
        cases unlocked

theorem LockHistory.start (noEntry : s.pool = ∅) (head : s.headPointer = "")
    (tail : s.tailPointer = "") (noLocks : s.locks = fun _ => none) : LockHistory k [] s where
  sound := ⟨_, empty_sound noEntry head tail⟩
  origin := fun lock isLock => by
    rw [noLocks] at isLock
    cases isLock
  held := fun _ _ standing => absurd standing not_standing_nil

theorem LockHistory.of_run {start : Redis} (noEntry : start.pool = ∅)
    (head : start.headPointer = "") (tail : start.tailPointer = "")
    (noLocks : start.locks = fun _ => none) (run : CallRun false start past s) :
    LockHistory k past s :=
  run.history (LockHistory k) (fun _ _ _ _ history step => history.step step)
    (.start noEntry head tail noLocks)

/-- A key is locked while the last client that got it has time left and nobody gave it up. -/
theorem LockHistory.locked_iff (history : LockHistory k past s) (elapsed : Nat) :
    (s.advance elapsed).locked k = true ↔
      Standing (·.HandsOutBeyond k (s.now + elapsed)) (·.GivesUp k) past := by
  have now : (s.advance elapsed).now = s.now + elapsed := rfl
  have locks : (s.advance elapsed).locks = s.locks := rfl
  rw [Redis.locked, Redis.lock?, locks, now]
  constructor
  · intro locked
    obtain ⟨lock, found⟩ := Option.isSome_iff_exists.mp locked
    obtain ⟨isLock, live⟩ := Option.filter_eq_some_iff.mp found
    exact (history.origin lock isLock).imp fun _ _ locks => locks.handsOutBeyond live
  · intro standing
    obtain ⟨lock, isLock, live⟩ := history.held _ (Nat.le_add_right ..) standing
    rw [isLock, Option.filter, if_pos live]
    rfl

end LockHistory

theorem FreePool.mem_free_collectAll {K : Type} [DecidableEq K] {p : FreePool K}
    {expired : Int → Bool} {locked : K → Bool} {keys : List K} {k : K} (visited : k ∈ keys)
    (isMember : (p.expiry k).isSome) (unexpired : (p.expiry k).any expired = false) :
    k ∈ (keys.foldl (·.collect expired locked ·) p).free ↔ locked k = false := by
  have skipped : p.skips expired locked k = locked k := by rw [skips, unexpired, Bool.false_or]
  rw [free_collectAll, List.mem_append, List.mem_eraseDups, List.mem_filter, List.mem_filter,
    reclaims, skipped, isMember]
  by_cases present : k ∈ p.free <;> simp [present, visited]

def Redis.cursor (s : Redis) : String :=
  match s.gcCursor with
  | none => "0"
  | some cursor => if cursor = "" then "0" else cursor

/-- Of the members it visits, `gc` drops those that have expired and queues the rest, except those
that some client was handed, is within the timeout of, and nobody has freed since. -/
theorem gc_recovers {start final : Redis} {past rest : List Event} {scan : Event} {count : Int}
    {hscan : String → Int → ScanReply} (noEntry : start.pool = ∅) (head : start.headPointer = "")
    (tail : start.tailPointer = "") (noLocks : start.locks = fun _ => none)
    (run : CallRun false start (past ++ scan :: rest) final) (call : scan.call = .gc count hscan)
    (positive : 0 < count) :
    ∃ L, WellFormed (scan.after false) L ∧ ∀ k ∈ (hscan scan.before.cursor count).items,
      if (scan.before.expiryOf k).any scan.before.isExpiryInvalid then
        (scan.after false).hget k = none
      else
        (scan.after false).hget k ≠ none ∧
          (k ∈ L ↔ ¬ Standing (·.HandsOutBeyond k scan.before.now) (·.GivesUp k) past) := by
  obtain ⟨s, earlier, run⟩ := run.of_append
  obtain ⟨_, step, _⟩ := Run.cons_iff.mp run
  have history (k : String) : LockHistory k past s := .of_run noEntry head tail noLocks earlier
  obtain ⟨p, sound⟩ := (history "").sound
  obtain ⟨started, _⟩ := step.sound sound
  obtain ⟨⟨elapsed, later⟩, admissible, _⟩ := step
  obtain ⟨_, rep, _⟩ := call_simulates started false admissible
  have collected : ((scan.before.queueView p).perform false scan.call).2.pool =
      (hscan scan.before.cursor count).items.foldl
        (·.collect scan.before.isExpiryInvalid scan.before.locked ·) p := by
    rw [call, QueueAllocator.perform, QueueAllocator.gc, if_pos positive]
    rfl
  rw [collected] at rep
  refine ⟨_, rep.wellFormed, fun k visited => ?_⟩
  have isMember : (p.expiry k).isSome := by
    rw [call] at admissible
    have inPool := (admissible scan.before.cursor count).2 (List.mem_toFinset.mpr visited)
    rwa [started.rep.mem_keys_iff] at inPool
  have locked := (history k).locked_iff elapsed
  have now : s.now + elapsed = scan.before.now := by rw [later]; rfl
  rw [← later, now] at locked
  have remains := rep.hget_none_iff k
  rw [FreePool.expiry_collectAll, ← started.rep.expiryOf] at remains
  rw [← started.rep.expiryOf] at isMember
  by_cases expired : (scan.before.expiryOf k).any scan.before.isExpiryInvalid
  · rw [if_pos expired]
    exact remains.mpr (if_pos ⟨visited, expired⟩)
  · rw [if_neg expired]
    have unexpired : ¬ (k ∈ (hscan scan.before.cursor count).items ∧
        (scan.before.expiryOf k).any scan.before.isExpiryInvalid) := fun both => expired both.2
    rw [if_neg unexpired] at remains
    refine ⟨fun gone => ?_, ?_⟩
    · rw [remains.mp gone] at isMember
      cases isMember
    · rw [started.rep.expiryOf] at isMember expired
      rw [← locked, FreePool.mem_free_collectAll visited isMember (Bool.eq_false_iff.mpr expired),
        Bool.not_eq_true]

/-- A client gets the key for 30 seconds and is never heard of again; `gc` comes after 31. -/
theorem lost_run : CallRun false (Redis.empty 0)
    ([soleStart, soleMalloc (.int 30)] ++ soleGc (.int 30) 31000 :: [soleAgain (.int 30) 31000])
    ((soleAgain (.int 30) 31000).after false) := sole_run (.int 30) 31000 (by decide)

theorem gc_recovers_lost :
    ∃ L, WellFormed ((soleGc (.int 30) 31000).after false) L ∧
      ∀ k ∈ ["k"],
        if ((soleGc (.int 30) 31000).before.expiryOf k).any
            (soleGc (.int 30) 31000).before.isExpiryInvalid then
          ((soleGc (.int 30) 31000).after false).hget k = none
        else
          ((soleGc (.int 30) 31000).after false).hget k ≠ none ∧
            (k ∈ L ↔ ¬ Standing (·.HandsOutBeyond k (soleGc (.int 30) 31000).before.now)
              (·.GivesUp k) [soleStart, soleMalloc (.int 30)]) :=
  gc_recovers rfl rfl rfl rfl lost_run rfl (by decide)

end RedisAllocator

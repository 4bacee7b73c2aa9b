import Mathlib.Tactic.Ring
import RedisAllocator.Locks.Ownership

/-!
# `ThreadLock` beside `RedisLock`

Both classes answer the same calls, their clocks moving on by the same whole
seconds.  A simulation relates the dictionary, which keeps what has lapsed or was
only looked up, to the keys of the store.  The answers part where `unlock` meets
such an entry, and where a server still serves a key past its deadline.
-/

set_option autoImplicit false

namespace RedisAllocator

open AbortableScript AbortableScript.Script

/-! ## Runs side by side -/

/-- Timeouts are positive whole numbers of seconds. -/
def LockCall.timely : LockCall → Bool
  | .keyStatus _ timeout => 0 < timeout
  | .update _ _ (.int seconds) => 0 < seconds
  | .lock _ _ (.int seconds) => 0 < seconds
  | .rlock _ _ (.int seconds) => 0 < seconds
  | .update _ _ _ => false
  | .lock _ _ _ => false
  | .rlock _ _ _ => false
  | _ => true

/-- A `rlock` is not called under the value that holds the key. -/
def LockCall.Rival (late : Nat) (s : Redis) : LockCall → Prop
  | .rlock key value _ => ∀ held, RedisLock.get? late s key = some held → held.value ≠ value
  | _ => True

def Fair (late : Nat) : Redis → List (LockEvent Nat) → Prop
  | _, [] => True
  | s, event :: rest =>
    event.call.timely = true ∧ event.call.Rival late (s.advance (1000 * event.elapsed)) ∧
      Fair late (RedisLock.perform late event.call (s.advance (1000 * event.elapsed))).2 rest

def LockCall.Agrees (late : Nat) (s : Redis) (t : ThreadLock) (call : LockCall) : Prop :=
  (RedisLock.perform late call s).1 = .ok (t.perform call).1 ∧
    ∀ k, call = .unlock k → (t.perform call).1 = .truth (t.isLocked k).1

/-- `unlock` meets no lapsed entry, and the calls that look meet no key past its deadline. -/
def LockCall.Plain (late : Nat) (s : Redis) (t : ThreadLock) : LockCall → Prop
  | .update _ _ _ => True
  | .unlock key => ∀ data, t.locks key = some data → t.now < data.expiry
  | call => RedisLock.get? late s call.key = RedisLock.get? 0 s call.key

def AlongBoth (late : Nat) (holds : Redis → ThreadLock → LockCall → Prop) :
    Redis → ThreadLock → List (LockEvent Nat) → Prop
  | _, _, [] => True
  | s, t, event :: rest =>
    holds (s.advance (1000 * event.elapsed)) (t.advance event.elapsed) event.call ∧
      AlongBoth late holds
        (RedisLock.perform late event.call (s.advance (1000 * event.elapsed))).2
        ((t.advance event.elapsed).perform event.call).2 rest

/-! ## The simulation -/

/-- Each key is absent from the store and at most looked up in the dictionary, or both hold the
same value with the same number of seconds to go, which may be negative. -/
structure Related (s : Redis) (t : ThreadLock) : Prop where
  clock : 0 ≤ t.now
  keys : ∀ k, (s.locks k = none ∧ (t.data k).expiry ≤ 0) ∨
    ∃ value instant, ∃ left : Int, s.locks k = some ⟨value, some instant⟩ ∧
      t.locks k = some ⟨value, t.now + left⟩ ∧ (instant : Int) = s.now + 1000 * left

namespace Related

variable {s : Redis} {t : ThreadLock}

theorem empty {now : Rat} (noLocks : s.locks = fun _ => none) (epoch : 0 ≤ now) :
    Related s (ThreadLock.empty now) :=
  ⟨epoch, fun k => Or.inl ⟨by rw [noLocks], le_rfl⟩⟩

theorem advance (related : Related s t) (seconds : Nat) :
    Related (s.advance (1000 * seconds)) (t.advance seconds) where
  clock := add_nonneg related.clock (Nat.cast_nonneg _)
  keys := by
    intro k
    rcases related.keys k with absent | ⟨value, instant, left, inStore, inDict, deadline⟩
    · exact Or.inl absent
    · refine Or.inr ⟨value, instant, left - seconds, inStore, ?_, ?_⟩
      · rw [ThreadLock.advance]
        simp only [inDict, Int.cast_sub, Int.cast_natCast]
        congr 2
        ring
      · simp only [Redis.advance]
        omega

theorem live_or_free (related : Related s t) (k : String) :
    (∃ value instant, ∃ left : Int, 0 < left ∧
      RedisLock.get? 0 s k = some ⟨value, some instant⟩ ∧
      t.locks k = some ⟨value, t.now + left⟩ ∧ (instant : Int) = s.now + 1000 * left) ∨
    RedisLock.get? 0 s k = none ∧ (t.data k).expiry ≤ t.now := by
  rcases related.keys k with ⟨absent, lookedUp⟩ | ⟨value, instant, left, inStore, inDict, deadline⟩
  · refine Or.inr ⟨?_, lookedUp.trans related.clock⟩
    rw [RedisLock.get?, absent, Option.filter_none]
  · by_cases live : 0 < left
    · refine Or.inl ⟨value, instant, left, live, ?_, inDict, deadline⟩
      rw [RedisLock.get?, inStore, Option.filter_some_pos]
      exact decide_eq_true (by omega)
    · refine Or.inr ⟨?_, ?_⟩
      · rw [RedisLock.get?, inStore, Option.filter_some_neg]
        exact decide_eq_false (by omega)
      · rw [ThreadLock.data_of_locks inDict]
        have lapsed : (left : Rat) ≤ 0 := by exact_mod_cast not_lt.mp live
        linarith

theorem write (related : Related s t) {k : String} {lock : Option StringKey}
    {data : Option LockData}
    (written : (lock = none ∧ (data.getD ⟨"1", 0⟩).expiry ≤ 0) ∨
      ∃ value instant, ∃ left : Int, lock = some ⟨value, some instant⟩ ∧
        data = some ⟨value, t.now + left⟩ ∧ (instant : Int) = s.now + 1000 * left) :
    Related (s.putLock k lock) (t.put k data) where
  clock := related.clock
  keys := by
    intro j
    by_cases same : j = k
    · subst same
      simpa only [Redis.putLock, ThreadLock.data, ThreadLock.put, Function.update_self] using written
    · simpa only [Redis.putLock, ThreadLock.data, ThreadLock.put, Function.update_of_ne same]
        using related.keys j

theorem put (related : Related s t) (k value : String) {seconds : Int} (positive : 0 < seconds) :
    Related (s.putLock k (some ⟨value, some (s.deadline seconds)⟩))
      (t.update k value (.int seconds)) := by
  refine related.write (Or.inr ⟨value, s.deadline seconds, seconds, rfl, rfl, ?_⟩)
  rw [Redis.deadline]
  omega

theorem unlock (related : Related s t) (k : String) :
    Related (s.putLock k none) (t.put k none) :=
  related.write (Or.inl ⟨rfl, le_rfl⟩)

theorem lookedUp (related : Related s t) (k : String) : Related s (t.lookedUp k) := by
  have same : s.putLock k (s.locks k) = s := by rw [Redis.putLock, Function.update_eq_self]
  rw [← same]
  apply related.write
  rcases related.keys k with ⟨absent, lookedUp⟩ | ⟨value, instant, left, inStore, inDict, deadline⟩
  · exact Or.inl ⟨absent, lookedUp⟩
  · exact Or.inr ⟨value, instant, left, inStore, by rw [ThreadLock.data_of_locks inDict], deadline⟩

end Related

/-! ## One call -/

/-- Nobody holds `k`: it is looked up in vain, and whoever asks for it gets it. -/
structure ThreadLock.Unowned (k : String) (t : ThreadLock) : Prop where
  isLocked : t.isLocked k = (false, t.lookedUp k)
  lockValue : t.lockValue k = (none, t.lookedUp k)
  keyStatus : ∀ timeout, t.keyStatus k timeout = (.free, t.lookedUp k)
  lock : ∀ w timeout, t.lock k w timeout = (true, t.update k w timeout)
  rlock : ∀ w timeout, t.rlock k w timeout = (true, t.update k w timeout)

theorem ThreadLock.unowned_of_data {t : ThreadLock} {k : String}
    (lapsed : (t.data k).expiry ≤ t.now) : t.Unowned k := by
  have short : t.getTtl k ≤ 0 := sub_nonpos.mpr lapsed
  have expired : t.isExpired k = true := decide_eq_true short
  constructor
  · rw [ThreadLock.isLocked, expired, Bool.not_true]
  · simp only [ThreadLock.lockValue, lapsed, if_true]
  · intro timeout
    simp only [ThreadLock.keyStatus, short, if_true]
  · intro w timeout
    simp [ThreadLock.lock, expired]
  · intro w timeout
    simp [ThreadLock.rlock, not_lt.mpr lapsed]

inductive Sight (late : Nat) (s : Redis) (t : ThreadLock) (k : String) : Prop
  | live (value : String) (instant : Nat) (left : Int) (positive : 0 < left)
      (served : RedisLock.get? late s k = some ⟨value, some instant⟩)
      (inTime : RedisLock.get? 0 s k = some ⟨value, some instant⟩)
      (inDict : t.locks k = some ⟨value, t.now + left⟩)
      (deadline : (instant : Int) = s.now + 1000 * left) (owned : t.Owned k value)
  | free (served : RedisLock.get? late s k = none) (inTime : RedisLock.get? 0 s k = none)
      (unowned : t.Unowned k)
  | overdue (value : String) (instant : Nat)
      (served : RedisLock.get? late s k = some ⟨value, some instant⟩)
      (inTime : RedisLock.get? 0 s k = none) (past : instant ≤ s.now) (unowned : t.Unowned k)

theorem RedisLock.get?_mono {late : Nat} {s : Redis} {k : String} {held : StringKey}
    (inTime : RedisLock.get? 0 s k = some held) : RedisLock.get? late s k = some held := by
  obtain ⟨stored, live⟩ := Option.filter_eq_some_iff.mp inTime
  rw [RedisLock.get?, stored, Option.filter_some_pos]
  obtain ⟨_, _ | deadline⟩ := held
  · rfl
  · have early : s.now < deadline + 0 := of_decide_eq_true live
    exact decide_eq_true (by omega)

theorem Related.sight {s : Redis} {t : ThreadLock} (related : Related s t) (late : Nat)
    (k : String) : Sight late s t k := by
  rcases related.live_or_free k with ⟨value, instant, left, positive, inTime, inDict, deadline⟩ |
    ⟨inTime, lapsed⟩
  · have ahead : t.now < t.now + (left : Rat) := by
      have remains : (0 : Rat) < left := by exact_mod_cast positive
      linarith
    exact .live value instant left positive (RedisLock.get?_mono inTime) inTime inDict deadline
      (ThreadLock.owned_of_locks inDict ahead rfl)
  · have unowned := ThreadLock.unowned_of_data lapsed
    cases served : RedisLock.get? late s k with
    | none => exact .free served inTime unowned
    | some held =>
        obtain ⟨stored, _⟩ := Option.filter_eq_some_iff.mp served
        rcases related.keys k with ⟨absent, _⟩ | ⟨value, instant, left, inStore, _, _⟩
        · rw [absent] at stored
          cases stored
        · cases stored.symm.trans inStore
          refine .overdue value instant served inTime ?_ unowned
          rw [RedisLock.get?, inStore] at inTime
          by_contra early
          have live : StringKey.served 0 s.now ⟨value, some instant⟩ = true :=
            decide_eq_true (not_le.mp early)
          rw [Option.filter_some_pos live] at inTime
          cases inTime

section Step

variable {late : Nat} {s : Redis} {t : ThreadLock} {k : String}

theorem RedisLock.ttl_live {value : String} {instant : Nat} {left : Int} (positive : 0 < left)
    (served : RedisLock.get? late s k = some ⟨value, some instant⟩)
    (deadline : (instant : Int) = s.now + 1000 * left) : RedisLock.ttl late s k = left := by
  rw [RedisLock.ttl, served]
  simp only
  omega

theorem RedisLock.ttl_overdue {value : String} {instant : Nat}
    (served : RedisLock.get? late s k = some ⟨value, some instant⟩) (past : instant ≤ s.now) :
    RedisLock.ttl late s k = 0 := by
  rw [RedisLock.ttl, served]
  simp only
  omega

/-- `call` behaves alike in both classes exactly if it is plain, and then the states stay
related. -/
def StepsAlike (late : Nat) (s : Redis) (t : ThreadLock) (call : LockCall) : Prop :=
  (call.Agrees late s t ↔ call.Plain late s t) ∧
    (call.Plain late s t → Related (RedisLock.perform late call s).2 (t.perform call).2)

theorem looking_step {call : LockCall} {r r' : LockReply} {s' : Redis} {t' : ThreadLock}
    (looks : ∀ k, call ≠ .unlock k)
    (plain : call.Plain late s t ↔ RedisLock.get? late s call.key = RedisLock.get? 0 s call.key)
    (redis : RedisLock.perform late call s = (.ok r, s')) (thread : t.perform call = (r', t'))
    (same : r = r' ↔ RedisLock.get? late s call.key = RedisLock.get? 0 s call.key)
    (related' : r = r' → Related s' t') : StepsAlike late s t call := by
  rw [StepsAlike, plain, LockCall.Agrees, redis, thread, ← same]
  refine ⟨⟨fun agrees => Except.ok.inj agrees.1, fun equal => ⟨congrArg Except.ok equal, ?_⟩⟩,
    related'⟩
  intro k unlocks
  exact absurd unlocks (looks k)

variable (related : Related s t)
include related

theorem isLocked_alike (k : String) : StepsAlike late s t (.isLocked k) := by
  refine looking_step (by simp) Iff.rfl rfl rfl ?_ fun _ => related.lookedUp k
  rw [LockReply.truth.injEq]
  cases related.sight late k with
  | live value instant left positive served inTime inDict deadline owned =>
      simp [owned.isLocked, served, inTime, LockCall.key]
  | free served inTime unowned => simp [unowned.isLocked, served, inTime, LockCall.key]
  | overdue value instant served inTime past unowned =>
      simp [unowned.isLocked, served, inTime, LockCall.key]

theorem lockValue_alike (k : String) : StepsAlike late s t (.lockValue k) := by
  refine looking_step (by simp) Iff.rfl rfl rfl ?_ fun _ => related.lookedUp k
  rw [LockReply.text.injEq]
  cases related.sight late k with
  | live value instant left positive served inTime inDict deadline owned =>
      simp [owned.lockValue, served, inTime, LockCall.key]
  | free served inTime unowned => simp [unowned.lockValue, served, inTime, LockCall.key]
  | overdue value instant served inTime past unowned =>
      simp [unowned.lockValue, served, inTime, LockCall.key]

theorem keyStatus_alike (k : String) {timeout : Int} (positive : 0 < timeout) :
    StepsAlike late s t (.keyStatus k timeout) := by
  refine looking_step (by simp) Iff.rfl (RedisLock.perform_keyStatus late s k timeout) rfl ?_
    fun _ => related.lookedUp k
  rw [LockReply.status.injEq, LockCall.key]
  cases related.sight late k with
  | live value instant left ahead served inTime inDict deadline owned =>
      have inStore := RedisLock.ttl_live ahead served deadline
      have inThread : t.getTtl k = left := by
        rw [ThreadLock.getTtl, ThreadLock.data_of_locks inDict, add_sub_cancel_left]
      have someLeft : ¬ (left : Rat) ≤ 0 := by exact_mod_cast not_le.mpr ahead
      simp only [ThreadLock.keyStatus, inThread, someLeft, if_false, inStore, ahead.le, if_true,
        Int.cast_lt, served, inTime]
  | free served inTime unowned =>
      have inStore : RedisLock.ttl late s k = -2 := by rw [RedisLock.ttl, served]
      have above : ¬ timeout < -2 := by omega
      simp [unowned.keyStatus, inStore, above, served, inTime]
  | overdue value instant served inTime past unowned =>
      have inStore := RedisLock.ttl_overdue served past
      have above : ¬ timeout < 0 := by omega
      simp [unowned.keyStatus, inStore, above, served, inTime]

theorem lock_alike (k value : String) {seconds : Int} (positive : 0 < seconds) :
    StepsAlike late s t (.lock k value (.int seconds)) := by
  refine looking_step (by simp) Iff.rfl (RedisLock.perform_lock late positive s k value) rfl ?_ ?_
  · rw [LockReply.truth.injEq, LockCall.key]
    cases related.sight late k with
    | live held instant left ahead served inTime inDict deadline owned =>
        simp [owned.lock, served, inTime]
    | free served inTime unowned => simp [unowned.lock, served, inTime]
    | overdue held instant served inTime past unowned => simp [unowned.lock, served, inTime]
  · rw [LockReply.truth.injEq]
    intro same
    cases related.sight late k with
    | live held instant left ahead served inTime inDict deadline owned =>
        simpa [owned.lock, served] using related
    | free served inTime unowned => simpa [unowned.lock, served] using related.put k value positive
    | overdue held instant served inTime past unowned =>
        rw [unowned.lock, served] at same
        cases same

theorem rlock_alike (k value : String) {seconds : Int} (positive : 0 < seconds)
    (rival : ∀ held, RedisLock.get? late s k = some held → held.value ≠ value) :
    StepsAlike late s t (.rlock k value (.int seconds)) := by
  refine looking_step (by simp) Iff.rfl (RedisLock.perform_rlock late positive s k value) rfl ?_ ?_
  · rw [LockReply.truth.injEq, LockCall.key]
    cases related.sight late k with
    | live held instant left ahead served inTime inDict deadline owned =>
        have different := rival _ served
        simp [owned.rlock value _ different.symm, served, inTime, different]
    | free served inTime unowned => simp [unowned.rlock, served, inTime]
    | overdue held instant served inTime past unowned =>
        simp [unowned.rlock, served, inTime, rival _ served]
  · rw [LockReply.truth.injEq]
    intro same
    cases related.sight late k with
    | live held instant left ahead served inTime inDict deadline owned =>
        simpa [owned.rlock value _ (rival _ served).symm, served] using related
    | free served inTime unowned => simpa [unowned.rlock, served] using related.put k value positive
    | overdue held instant served inTime past unowned =>
        rw [unowned.rlock, served] at same
        simp [rival _ served] at same

theorem update_alike (k value : String) {seconds : Int} (positive : 0 < seconds) :
    StepsAlike late s t (.update k value (.int seconds)) := by
  have redis := RedisLock.perform_update late positive s k value
  refine ⟨iff_of_true ⟨by rw [redis]; rfl, fun _ unlocks => by cases unlocks⟩ trivial, fun _ => ?_⟩
  rw [redis]
  exact related.put k value positive

theorem unlock_alike (k : String) : StepsAlike late s t (.unlock k) := by
  refine ⟨?_, fun _ => related.unlock k⟩
  have agrees : LockCall.Agrees late s t (.unlock k) ↔
      (RedisLock.get? late s k).isSome = (t.locks k).isSome ∧
        (t.locks k).isSome = (t.isLocked k).1 := by
    rw [LockCall.Agrees, RedisLock.perform_unlock]
    simp [ThreadLock.perform, ThreadLock.unlock]
  rw [agrees, LockCall.Plain]
  rcases related.live_or_free k with ⟨value, instant, left, positive, inTime, inDict, _⟩ | ⟨_, lapsed⟩
  · have ahead : t.now < t.now + (left : Rat) := by
      have remains : (0 : Rat) < left := by exact_mod_cast positive
      linarith
    have owned := ThreadLock.owned_of_locks inDict ahead rfl
    rw [RedisLock.get?_mono inTime, inDict, owned.isLocked]
    simp [positive]
  · rw [(ThreadLock.unowned_of_data lapsed).isLocked]
    cases inDict : t.locks k with
    | none =>
        rcases related.keys k with ⟨absent, _⟩ | ⟨_, _, _, _, present, _⟩
        · rw [RedisLock.get?, absent]
          simp
        · rw [inDict] at present
          cases present
    | some data =>
        rw [ThreadLock.data_of_locks inDict] at lapsed
        simp [lapsed]

end Step

/-! ## Whole runs -/

theorem Related.step {late : Nat} {s : Redis} {t : ThreadLock} (related : Related s t)
    {call : LockCall} (timely : call.timely = true) (rival : call.Rival late s) :
    StepsAlike late s t call := by
  cases call with
  | keyStatus k timeout => exact keyStatus_alike related k (of_decide_eq_true timely)
  | isLocked k => exact isLocked_alike related k
  | lockValue k => exact lockValue_alike related k
  | unlock k => exact unlock_alike related k
  | update k value timeout =>
      cases timeout with
      | int seconds => exact update_alike related k value (of_decide_eq_true timely)
      | _ => cases timely
  | lock k value timeout =>
      cases timeout with
      | int seconds => exact lock_alike related k value (of_decide_eq_true timely)
      | _ => cases timely
  | rlock k value timeout =>
      cases timeout with
      | int seconds => exact rlock_alike related k value (of_decide_eq_true timely) rival
      | _ => cases timely

theorem Related.run {late : Nat} {events : List (LockEvent Nat)} : ∀ {s : Redis} {t : ThreadLock},
    Related s t → Fair late s events →
      (AlongBoth late (LockCall.Agrees late) s t events ↔
        AlongBoth late (LockCall.Plain late) s t events) := by
  induction events with
  | nil => exact fun _ _ => Iff.rfl
  | cons event rest ih =>
      intro s t related fair
      obtain ⟨timely, rival, later⟩ := fair
      obtain ⟨alike, still⟩ := (related.advance event.elapsed).step timely rival
      rw [AlongBoth, AlongBoth, alike]
      refine and_congr_right fun plain => ih (still plain) later

/-- A `ThreadLock` answers like a `RedisLock` exactly if no `unlock` meets an entry that has lapsed
or was only looked up, and no other call a key that the server still serves past its deadline. -/
theorem threadLock_simulates_iff (late : Nat) {s : Redis} {now : Rat} {events : List (LockEvent Nat)}
    (noLocks : s.locks = fun _ => none) (epoch : 0 ≤ now) (fair : Fair late s events) :
    AlongBoth late (LockCall.Agrees late) s (ThreadLock.empty now) events ↔
      AlongBoth late (LockCall.Plain late) s (ThreadLock.empty now) events :=
  (Related.empty noLocks epoch).run fair

def heldRelease : List (LockEvent Nat) :=
  [⟨0, .lock "k" "v" (.int 10)⟩, ⟨5, .unlock "k"⟩]

theorem threadLock_simulates_iff_held :
    AlongBoth 0 (LockCall.Agrees 0) (Redis.empty 0) (ThreadLock.empty 1) heldRelease ↔
      AlongBoth 0 (LockCall.Plain 0) (Redis.empty 0) (ThreadLock.empty 1) heldRelease :=
  threadLock_simulates_iff 0 rfl (by norm_num) ⟨rfl, trivial, rfl, trivial, trivial⟩

def probedRelease : List (LockEvent Nat) := [⟨0, .isLocked "k"⟩, ⟨0, .unlock "k"⟩]

/-- The look leaves an entry behind, and the release of nothing is reported as one. -/
theorem probed_release_reported :
    Fair 0 (Redis.empty 0) probedRelease ∧
    ¬ AlongBoth 0 (LockCall.Agrees 0) (Redis.empty 0) (ThreadLock.empty 1) probedRelease := by
  refine ⟨⟨rfl, trivial, rfl, trivial, trivial⟩, fun alike => ?_⟩
  have answers : (.ok (.truth false) : Except Failure LockReply) = .ok (.truth true) :=
    alike.2.1.1
  cases answers

end RedisAllocator

import Mathlib.Tactic.Linarith
import RedisAllocator.Locks.LockClasses

/-!
# Lock ownership

Whoever acquires a key keeps it for the time asked for, as long as nobody unlocks
it, updates it or takes it again under the same value.  `ThreadLock` keeps this
promise.  A `RedisLock` that is taken again keeps its old deadline, and the
promise holds exactly as far as that goes.
-/

set_option autoImplicit false

namespace RedisAllocator

open AbortableScript AbortableScript.Script LabelledRun

structure LockEvent (T : Type) where
  elapsed : T
  call : LockCall

def LockCall.Acquires (call : LockCall) (k v : String) (seconds : Int) : Prop :=
  call = .lock k v (.int seconds) ∨ call = .rlock k v (.int seconds) ∨
    call = .update k v (.int seconds)

/-- The calls that may end or change what the owner `v` of `k` holds. -/
def LockCall.disturbs (k v : String) : LockCall → Bool
  | .unlock j => j = k
  | .update j _ _ => j = k
  | .rlock j w _ => j = k && w = v
  | _ => false

/-- The answer of an acquiring call that took the key; `update` has none and always does. -/
def LockReply.succeeds : LockReply → Bool
  | .nothing => true
  | .truth answer => answer
  | _ => false

/-! ## `RedisLock` -/

namespace RedisLock

variable {late : Nat} {k v : String}

def Step (late : Nat) (s : Redis) (event : LockEvent Nat) (s' : Redis) : Prop :=
  s' = (perform late event.call (s.advance event.elapsed)).2

/-- `k` is locked by `v`, and whoever else tries to lock it fails and changes nothing. -/
structure Owned (late : Nat) (k v : String) (s : Redis) : Prop where
  isLocked : isLocked late k s = (.ok true, s)
  lockValue : lockValue late k s = (.ok (some v), s)
  lock : ∀ w seconds, 0 < seconds → lock late k w (.int seconds) s = (.ok false, s)
  rlock : ∀ w seconds, w ≠ v → 0 < seconds → rlock late k w (.int seconds) s = (.ok false, s)

def OwnedUntil (late : Nat) (k v : String) (instant : Nat) (s : Redis) : Prop :=
  ∀ events final, Run (Step late) s events final →
    (∀ event ∈ events, event.call.disturbs k v = false) → final.now < instant →
      Owned late k v final

theorem owned_of_get? {s : Redis} {held : StringKey} (served : get? late s k = some held)
    (value : held.value = v) : Owned late k v s where
  isLocked := by rw [RedisLock.isLocked, read_apply, served]; rfl
  lockValue := by rw [RedisLock.lockValue, read_apply, served, Option.map_some, value]
  lock := fun w seconds positive => by rw [lock_apply late positive, served]; rfl
  rlock := fun w seconds different positive => by
    rw [rlock_apply late positive, served]
    simp [value, different.symm]

theorem perform_frame {φ : Type} (part : Redis → φ) {call : LockCall}
    (same : ∀ s lock, part (s.putLock call.key lock) = part s) : Keeps part (perform late call) := by
  have guarded : ∀ value timeout, Keeps part (setNx late call.key value timeout) := by
    intro value timeout
    refine Keeps.bind (pyExpire_keeps part timeout) fun ex => Keeps.bind (expireAt_keeps part ex)
      fun instant => Keeps.bind (Keeps.read _) fun old => Keeps.ite (Keeps.pure _) ?_
    exact Keeps.bind (Keeps.write fun s => same s _) fun _ => Keeps.pure _
  cases call with
  | keyStatus key timeout => exact Keeps.bind (Keeps.read _) fun _ => Keeps.pure _
  | update key value timeout =>
      refine Keeps.bind (Keeps.bind (pyExpire_keeps part timeout) fun ex => ?_) fun _ => Keeps.pure _
      exact Keeps.bind (expireAt_keeps part ex) fun _ => Keeps.write fun s => same s _
  | lock key value timeout =>
      exact Keeps.bind (Keeps.bind (guarded value timeout) fun _ => Keeps.pure _) fun _ =>
        Keeps.pure _
  | isLocked key => exact Keeps.bind (Keeps.read _) fun _ => Keeps.pure _
  | lockValue key => exact Keeps.bind (Keeps.read _) fun _ => Keeps.pure _
  | rlock key value timeout =>
      refine Keeps.bind (Keeps.bind (guarded value timeout) fun old => ?_) fun _ => Keeps.pure _
      cases old with
      | none => exact Keeps.pure _
      | some held => exact Keeps.pure _
  | unlock key =>
      refine Keeps.bind (Keeps.bind (Keeps.read _) fun _ => ?_) fun _ => Keeps.pure _
      exact Keeps.bind (Keeps.write fun s => same s none) fun _ => Keeps.pure _

theorem perform_now (call : LockCall) (s : Redis) : (perform late call s).2.now = s.now :=
  perform_frame Redis.now (fun _ _ => rfl) s

theorem setNx_served {s : Redis} {held : StringKey} (served : get? late s k = some held)
    (value : String) (timeout : Timeout) : (setNx late k value timeout s).2 = s := by
  refine bind_snd_self (pyExpire_keeps id timeout s) fun ex =>
    bind_snd_self (expireAt_keeps id ex s) fun instant => ?_
  rw [read_bind_apply, served]
  rfl

theorem perform_keeps {s : Redis} {held : StringKey} (served : get? late s k = some held)
    {call : LockCall} (calm : call.disturbs k v = false) :
    (perform late call s).2.locks k = s.locks k := by
  by_cases other : call.key = k
  · have unchanged : (perform late call s).2 = s := by
      cases call with
      | keyStatus key timeout => rfl
      | isLocked key => rfl
      | lockValue key => rfl
      | update key value timeout => simp [LockCall.disturbs, show key = k from other] at calm
      | unlock key => simp [LockCall.disturbs, show key = k from other] at calm
      | lock key value timeout =>
          cases other
          exact bind_snd_self (bind_snd_self (setNx_served served value timeout) fun _ => rfl)
            fun _ => rfl
      | rlock key value timeout =>
          cases other
          refine bind_snd_self (bind_snd_self (setNx_served served value timeout) fun old => ?_)
            fun _ => rfl
          cases old <;> rfl
    rw [unchanged]
  · exact perform_frame (fun s => s.locks k)
      (fun s lock => Function.update_of_ne (Ne.symm other) ..) s

theorem ownedUntil_of_locks {s : Redis} {instant : Nat} {held : StringKey}
    (stored : s.locks k = some held) (value : held.value = v)
    (lasts : ∀ deadline, held.expireAt = some deadline → instant ≤ deadline + late) :
    OwnedUntil late k v instant s := by
  have serves : ∀ t : Redis, t.locks k = some held → t.now < instant →
      get? late t k = some held := by
    intro t same early
    rw [get?, same, Option.filter_some_pos]
    obtain ⟨_, _ | deadline⟩ := held
    · rfl
    · have far := lasts deadline rfl
      exact decide_eq_true (by omega)
  intro events final run calm early
  have kept : final.now < instant → final.locks k = some held := by
    refine run.invariant (fun s => s.now < instant → s.locks k = some held)
      (fun event => event.call.disturbs k v = false) ?_ (fun _ => stored) calm
    intro s event s' holds still step before
    subst step
    rw [perform_now] at before
    have atCall : (s.advance event.elapsed).locks k = some held :=
      holds (Nat.lt_of_le_of_lt (Nat.le_add_right ..) before)
    rw [perform_keeps (serves _ atCall before) still, atCall]
  exact owned_of_get? (serves final (kept early) early) value

theorem not_ownedUntil {s : Redis} {instant deadline : Nat} {held : StringKey}
    (served : get? late s k = some held) (lapses : held.expireAt = some deadline)
    (early : deadline + late < instant) : ¬ OwnedUntil late k v instant s := by
  intro owned
  obtain ⟨stored, live⟩ := Option.filter_eq_some_iff.mp served
  have future : s.now < deadline + late := by
    rw [StringKey.served, lapses] at live
    exact of_decide_eq_true live
  have waited : s.now + (deadline + late - s.now) = deadline + late := by omega
  have atEnd := owned [⟨deadline + late - s.now, .isLocked k⟩] (s.advance (deadline + late - s.now))
    (.fire rfl (.done _)) (by simp [LockCall.disturbs]) (waited.trans_lt early)
  have gone : get? late (s.advance (deadline + late - s.now)) k = none := by
    rw [get?, Redis.advance, stored, Option.filter_some_neg]
    rw [StringKey.served, lapses]
    exact decide_eq_false (waited.not_lt)
  have answer := congrArg Prod.fst atEnd.isLocked
  rw [RedisLock.isLocked, read_apply, gone] at answer
  cases answer

/-- The owner is promised the whole time exactly if the call sets the deadline, or the deadline
found is far enough. -/
theorem ownedUntil_iff {s : Redis} {call : LockCall} {seconds : Int} (positive : 0 < seconds)
    (acquires : call.Acquires k v seconds) {reply : LockReply}
    (answer : (perform late call s).1 = .ok reply) (success : reply.succeeds = true) :
    OwnedUntil late k v (s.deadline seconds) (perform late call s).2 ↔
      (call = .rlock k v (.int seconds) → ∀ held deadline, get? late s k = some held →
        held.expireAt = some deadline → s.deadline seconds ≤ deadline + late) := by
  have fresh : OwnedUntil late k v (s.deadline seconds)
      (s.putLock k (some ⟨v, some (s.deadline seconds)⟩)) :=
    ownedUntil_of_locks (Function.update_self ..) rfl fun deadline same => by
      cases same
      exact Nat.le_add_right ..
  rcases acquires with rfl | rfl | rfl
  · rw [perform_lock late positive] at answer ⊢
    cases served : get? late s k with
    | none => simpa using fresh
    | some held =>
        rw [served] at answer
        cases answer
        cases success
  · rw [perform_rlock late positive] at answer ⊢
    cases served : get? late s k with
    | none => simpa using fresh
    | some held =>
        rw [served] at answer
        cases answer
        have value : held.value = v := of_decide_eq_true success
        have stored := (Option.filter_eq_some_iff.mp served).1
        simp only [Option.isSome_some, if_true, true_implies]
        constructor
        · intro owned other deadline same lapses
          cases same
          by_contra early
          exact not_ownedUntil served lapses (not_le.mp early) owned
        · intro far
          exact ownedUntil_of_locks stored value fun deadline => far held deadline rfl
  · rw [perform_update late positive]
    simpa using fresh

end RedisLock

/-! ## `ThreadLock` -/

namespace ThreadLock

variable {k v : String} {s : ThreadLock} {held : LockData}

def Step (s : ThreadLock) (event : LockEvent Rat) (s' : ThreadLock) : Prop :=
  0 ≤ event.elapsed ∧ s' = ((s.advance event.elapsed).perform event.call).2

structure Owned (k v : String) (s : ThreadLock) : Prop where
  isLocked : s.isLocked k = (true, s)
  lockValue : s.lockValue k = (some v, s)
  lock : ∀ w timeout, s.lock k w timeout = (false, s)
  rlock : ∀ w timeout, w ≠ v → s.rlock k w timeout = (false, s)

def OwnedUntil (k v : String) (instant : Rat) (s : ThreadLock) : Prop :=
  ∀ events final, Run Step s events final →
    (∀ event ∈ events, event.call.disturbs k v = false) → final.now < instant → Owned k v final

theorem data_of_locks (stored : s.locks k = some held) : s.data k = held := by
  rw [data, stored, Option.getD_some]

theorem lookedUp_of_locks (stored : s.locks k = some held) : s.lookedUp k = s := by
  rw [lookedUp, data_of_locks stored, put, ← stored, Function.update_eq_self]

theorem isExpired_of_locks (stored : s.locks k = some held) (live : s.now < held.expiry) :
    s.isExpired k = false := by
  rw [isExpired, getTtl, data_of_locks stored]
  exact decide_eq_false (not_le.mpr (sub_pos.mpr live))

theorem owned_of_locks (stored : s.locks k = some held) (live : s.now < held.expiry)
    (value : held.value = v) : Owned k v s where
  isLocked := by
    rw [ThreadLock.isLocked, isExpired_of_locks stored live, lookedUp_of_locks stored, Bool.not_false]
  lockValue := by
    simp only [ThreadLock.lockValue, data_of_locks stored, not_le.mpr live, if_false, value,
      lookedUp_of_locks stored]
  lock := fun w timeout => by
    rw [ThreadLock.lock, isExpired_of_locks stored live, Bool.not_false, if_pos rfl,
      lookedUp_of_locks stored]
  rlock := fun w timeout different => by
    rw [ThreadLock.rlock, data_of_locks stored, if_pos ⟨live, value ▸ different.symm⟩,
      lookedUp_of_locks stored]

theorem perform_now (call : LockCall) : (s.perform call).2.now = s.now := by
  cases call with
  | lock key value timeout =>
      simp only [perform, lock]
      split <;> rfl
  | rlock key value timeout =>
      simp only [perform, rlock]
      split <;> rfl
  | _ => rfl

theorem perform_other {call : LockCall} (other : call.key ≠ k) :
    (s.perform call).2.locks k = s.locks k := by
  have untouched : ∀ data, (s.put call.key data).locks k = s.locks k :=
    fun data => Function.update_of_ne other.symm ..
  cases call with
  | lock key value timeout =>
      simp only [perform, lock]
      split <;> exact untouched _
  | rlock key value timeout =>
      simp only [perform, rlock]
      split <;> exact untouched _
  | _ => exact untouched _

theorem perform_keeps (stored : s.locks k = some held) (live : s.now < held.expiry)
    (value : held.value = v) {call : LockCall} (calm : call.disturbs k v = false) :
    (s.perform call).2.locks k = s.locks k := by
  by_cases other : call.key = k
  · have owned := owned_of_locks stored live value
    have unchanged : (s.perform call).2 = s := by
      cases call with
      | keyStatus key timeout =>
          cases other
          exact lookedUp_of_locks stored
      | isLocked key =>
          cases other
          exact lookedUp_of_locks stored
      | lockValue key =>
          cases other
          exact lookedUp_of_locks stored
      | update key w timeout => simp [LockCall.disturbs, show key = k from other] at calm
      | unlock key => simp [LockCall.disturbs, show key = k from other] at calm
      | lock key w timeout =>
          cases other
          exact congrArg Prod.snd (owned.lock w timeout)
      | rlock key w timeout =>
          cases other
          have different : w ≠ v := by simpa [LockCall.disturbs, LockCall.key] using calm
          exact congrArg Prod.snd (owned.rlock w timeout different)
    rw [unchanged]
  · exact perform_other other

theorem ownedUntil_of_locks (stored : s.locks k = some held) (value : held.value = v) :
    OwnedUntil k v held.expiry s := by
  intro events final run calm early
  have kept : final.now < held.expiry → final.locks k = some held := by
    refine run.invariant (fun s => s.now < held.expiry → s.locks k = some held)
      (fun event => event.call.disturbs k v = false) ?_ (fun _ => stored) calm
    intro s event s' holds still step before
    obtain ⟨forward, rfl⟩ := step
    rw [perform_now] at before
    have atCall : (s.advance event.elapsed).locks k = some held := by
      apply holds
      simp only [advance] at before
      linarith
    rw [perform_keeps atCall before value still, atCall]
  exact owned_of_locks (kept early) early value

/-- Whoever acquires a key, again or for the first time, has a deadline of their own. -/
theorem locks_of_acquires {call : LockCall} {seconds : Int} (acquires : call.Acquires k v seconds)
    (success : (s.perform call).1.succeeds = true) :
    (s.perform call).2.locks k = some ⟨v, s.now + seconds⟩ := by
  have written : (s.update k v (.int seconds)).locks k = some ⟨v, s.now + seconds⟩ :=
    Function.update_self ..
  rcases acquires with rfl | rfl | rfl
  · simp only [perform, lock] at success ⊢
    split at success
    · cases success
    · rename_i granted
      rw [if_neg granted]
      exact written
  · simp only [perform, rlock] at success ⊢
    split at success
    · cases success
    · rename_i granted
      rw [if_neg granted]
      exact written
  · exact written

end ThreadLock

/-- Whoever takes a key owns it for the time asked for: always under a `ThreadLock`, and under a
`RedisLock` unless the call found a lock of its own with a nearer deadline. -/
theorem acquired_owned_iff {call : LockCall} {k v : String} {seconds : Int} (positive : 0 < seconds)
    (acquires : call.Acquires k v seconds) :
    (∀ late (s : Redis) reply, (RedisLock.perform late call s).1 = .ok reply →
      reply.succeeds = true →
      (RedisLock.OwnedUntil late k v (s.deadline seconds) (RedisLock.perform late call s).2 ↔
        (call = .rlock k v (.int seconds) → ∀ held deadline,
          RedisLock.get? late s k = some held → held.expireAt = some deadline →
            s.deadline seconds ≤ deadline + late))) ∧
    ∀ s : ThreadLock, (s.perform call).1.succeeds = true →
      ThreadLock.OwnedUntil k v (s.now + seconds) (s.perform call).2 :=
  ⟨fun _ _ _ answer success => RedisLock.ownedUntil_iff positive acquires answer success,
    fun _ success =>
      ThreadLock.ownedUntil_of_locks (ThreadLock.locks_of_acquires acquires success) rfl⟩

def halfwayLock : Redis :=
  (RedisLock.perform 1 (.lock "k" "v" (.int 10)) (Redis.empty 0)).2.advance 5000

theorem acquired_owned_iff_sample :
    (∀ late (s : Redis) reply,
      (RedisLock.perform late (.rlock "k" "v" (.int 10)) s).1 = .ok reply →
      reply.succeeds = true →
      (RedisLock.OwnedUntil late "k" "v" (s.deadline 10)
          (RedisLock.perform late (.rlock "k" "v" (.int 10)) s).2 ↔
        (LockCall.rlock "k" "v" (.int 10) = .rlock "k" "v" (.int 10) → ∀ held deadline,
          RedisLock.get? late s "k" = some held → held.expireAt = some deadline →
            s.deadline 10 ≤ deadline + late))) ∧
    ∀ s : ThreadLock, (s.perform (.rlock "k" "v" (.int 10))).1.succeeds = true →
      ThreadLock.OwnedUntil "k" "v" (s.now + (10 : Int)) (s.perform (.rlock "k" "v" (.int 10))).2 :=
  acquired_owned_iff (by decide) (Or.inr (Or.inl rfl))

/-- Taken again halfway for another ten seconds, the lock lasts the five that were left. -/
theorem reentry_keeps_deadline :
    (RedisLock.perform 1 (.rlock "k" "v" (.int 10)) halfwayLock).1 = .ok (.truth true) ∧
    ¬ RedisLock.OwnedUntil 1 "k" "v" (halfwayLock.deadline 10)
      (RedisLock.perform 1 (.rlock "k" "v" (.int 10)) halfwayLock).2 := by
  have served : RedisLock.get? 1 halfwayLock "k" = some ⟨"v", some 10000⟩ := by decide
  refine ⟨by decide, ?_⟩
  rw [RedisLock.perform_rlock 1 (by decide), served]
  exact RedisLock.not_ownedUntil served rfl (by decide)

end RedisAllocator

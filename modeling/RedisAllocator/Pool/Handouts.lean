import Mathlib.Data.Rat.Floor
import RedisAllocator.Pool.Runs

/-!
# What `malloc_key` hands out

Two promises, each judged on the outcome of a single call in a well-formed pool:
a lock that keeps to the timeout, and a key that has not expired.  The pop path
and the soft-binding path keep them differently, and each theorem says exactly
when they are kept.
-/

set_option autoImplicit false

namespace RedisAllocator

open AbortableScript AbortableScript.Script

/-! ## The timeout of a lock -/

/-- The outcome of `malloc_key` keeps to `timeout`: the script does not stop, and what it returns
is locked for `timeout` rounded up, or for good if `timeout` is not positive.  In a well-formed
pool nothing but a refused `SET` stops it, and that comes after the writes of the binding and of
the list. -/
def KeepsTimeout (timeout : Rat) (s : Redis)
    (outcome : Except Failure (Option String) × Redis) : Prop :=
  (∀ failure, outcome.1 ≠ .error failure) ∧
    ∀ k, outcome.1 = .ok (some k) → ∃ lock, outcome.2.lock? k = some lock ∧
      (0 < timeout → ∃ instant, lock.expireAt = some instant ∧
        (instant : Int) ≤ s.now + 1000 * ⌈timeout⌉) ∧
      (timeout ≤ 0 → lock.expireAt = none)

def Redis.Exhausted (s : Redis) (L : List String) : Prop :=
  ∀ k ∈ L, s.locked k = true ∨ ∃ val, s.hget k = some val ∧ s.isExpiryInvalid val.expiry = true

theorem truncate_of_nonneg {q : Rat} (nonneg : 0 ≤ q) : truncate q = ⌊q⌋ := by
  rw [truncate, Rat.floor_def', Int.tdiv_eq_ediv_of_nonneg (Rat.num_nonneg.mpr nonneg)]

theorem truncate_pos_iff (q : Rat) : 0 < truncate q ↔ 1 ≤ q := by
  by_cases nonneg : 0 ≤ q
  · rw [truncate_of_nonneg nonneg, Int.floor_pos]
  · have negative : q < 0 := not_le.mp nonneg
    have numerator := Rat.num_neg.mpr negative
    have reflected : 0 ≤ (-q.num).tdiv q.den := Int.tdiv_nonneg (by omega) (Int.natCast_nonneg _)
    rw [Int.neg_tdiv] at reflected
    have cut : truncate q ≤ 0 := by
      rw [truncate]
      omega
    constructor
    · intro positive
      omega
    · intro large
      linarith

theorem truncate_le_ceil {q : Rat} (positive : 0 < q) : truncate q ≤ ⌈q⌉ := by
  rw [truncate_of_nonneg positive.le]
  exact Int.floor_le_ceil q

section KeepsTimeout

variable {timeout : Rat} {s s' : Redis}

theorem keepsTimeout_none : KeepsTimeout timeout s (.ok none, s') :=
  ⟨fun _ same => (by cases same), fun _ same => (by cases same)⟩

theorem not_keepsTimeout_error (failure : Failure) : ¬ KeepsTimeout timeout s (.error failure, s') :=
  fun keeps => keeps.1 failure rfl

theorem keepsTimeout_mallocLock_iff {k : String} {lock : StringKey}
    (locked : s'.lock? k = some lock)
    (isMallocLock : lock = s.mallocLock (truncate timeout)) :
    KeepsTimeout timeout s (.ok (some k), s') ↔ 1 ≤ timeout ∨ timeout ≤ 0 := by
  subst isMallocLock
  constructor
  · rintro ⟨_, locks⟩
    by_contra neither
    obtain ⟨short, positive⟩ := not_or.mp neither
    rw [not_le] at positive
    obtain ⟨lock, held, lapses, _⟩ := locks k rfl
    rw [locked] at held
    cases held
    obtain ⟨instant, stored, _⟩ := lapses positive
    rw [Redis.mallocLock, if_neg ((truncate_pos_iff timeout).not.mpr short)] at stored
    cases stored
  · intro either
    refine ⟨fun _ same => (by cases same), fun j same => ?_⟩
    cases same
    refine ⟨_, locked, fun positive => ?_, fun nonpositive => ?_⟩
    · have large : 1 ≤ timeout := either.resolve_right (not_le.mpr positive)
      have whole := (truncate_pos_iff timeout).mpr large
      have bounded := truncate_le_ceil positive
      refine ⟨s.deadline (truncate timeout), by rw [Redis.mallocLock, if_pos whole], ?_⟩
      rw [Redis.deadline]
      omega
    · have small : ¬ 1 ≤ timeout := by linarith
      rw [Redis.mallocLock, if_neg ((truncate_pos_iff timeout).not.mpr small)]

end KeepsTimeout

theorem available_eq_none_iff {s : Redis} {L : List String} (wf : WellFormed s L) :
    wf.pool.available s.isExpiryInvalid s.locked = none ↔ s.Exhausted L := by
  rw [FreePool.available, List.find?_eq_none]
  refine forall₂_congr fun k present => ?_
  simp only [FreePool.skips, WellFormed.pool, Bool.not_eq_true', Bool.not_eq_false,
    Bool.or_eq_true, Option.any_map]
  cases s.hget k <;> simp [or_comm]

theorem Redis.mallocLock_live (s : Redis) (timeout : Int) :
    (s.mallocLock timeout).live s.now = true := by
  rw [Redis.mallocLock]
  by_cases positive : 0 < timeout
  · have later : s.now < s.deadline timeout := by
      rw [Redis.deadline]
      omega
    simp [StringKey.live, positive, later]
  · simp [StringKey.live, positive]

section Locks

variable {s : Redis} {p : FreePool String} {name k : String} (timeout cacheTimeout : Int)

theorem mallocScript_binds_lock? (rep : Represents s p) (bound : s.boundKey name = some k)
    (positive : 0 < timeout) :
    ∃ s', mallocScript false timeout name cacheTimeout s = (.ok (some k), s') ∧
      s'.lock? k = some (s.mallocLock timeout) := by
  obtain ⟨s', run, _, frame⟩ :=
    mallocScript_binds_locks timeout cacheTimeout rep bound positive
  have live := s.mallocLock_live timeout
  rw [Redis.mallocLock, if_pos positive] at live ⊢
  refine ⟨s', run, ?_⟩
  rw [Redis.lock?_of_outside frame, Redis.lock?_putLock, if_pos rfl, Redis.now_refreshed,
    Option.filter_some_pos live]

theorem mallocScript_pops_lock? (rep : Represents s p) (unbound : s.boundKey name = none)
    (first : p.available s.isExpiryInvalid s.locked = some k) :
    ∃ s', mallocScript false timeout name cacheTimeout s = (.ok (some k), s') ∧
      s'.lock? k = some (s.mallocLock timeout) := by
  obtain ⟨s₁, run, rep₁, sameNow, sameLocks⟩ :=
    mallocScript_pops false timeout cacheTimeout rep unbound
  rw [← sameLocks, ← Redis.isExpiryInvalid_congr sameNow] at first
  obtain ⟨s', popped, _, frame⟩ := mallocPop_locks timeout cacheTimeout name rep₁ first
  have sameLock : s₁.mallocLock timeout = s.mallocLock timeout := by
    rw [Redis.mallocLock, Redis.mallocLock, Redis.deadline, Redis.deadline, sameNow]
  refine ⟨s', run.trans popped, ?_⟩
  rw [Redis.lock?_of_outside frame, Redis.lock?_refreshed, Redis.lock?_putLock, if_pos rfl,
    Option.filter_some_pos (s₁.mallocLock_live timeout), sameLock]

theorem mallocScript_pops_none (shared : Bool) (rep : Represents s p)
    (unbound : s.boundKey name = none)
    (exhausted : p.available s.isExpiryInvalid s.locked = none) :
    ∃ s', mallocScript shared timeout name cacheTimeout s = (.ok none, s') := by
  obtain ⟨s₁, run, rep₁, sameNow, sameLocks⟩ :=
    mallocScript_pops shared timeout cacheTimeout rep unbound
  rw [← sameLocks, ← Redis.isExpiryInvalid_congr sameNow] at exhausted
  obtain ⟨s', popped, _⟩ := mallocPop_none timeout cacheTimeout name shared rep₁ exhausted
  exact ⟨s', run.trans popped⟩

theorem mallocScript_pops_some (shared : Bool) (rep : Represents s p)
    (unbound : s.boundKey name = none)
    (first : p.available s.isExpiryInvalid s.locked = some k) :
    ∃ s', mallocScript shared timeout name cacheTimeout s = (.ok (some k), s') := by
  obtain ⟨s₁, run, rep₁, sameNow, sameLocks⟩ :=
    mallocScript_pops shared timeout cacheTimeout rep unbound
  rw [← sameLocks, ← Redis.isExpiryInvalid_congr sameNow] at first
  cases shared with
  | false =>
      obtain ⟨s', popped, _⟩ := mallocPop_locks timeout cacheTimeout name rep₁ first
      exact ⟨s', run.trans popped⟩
  | true =>
      obtain ⟨_, _, s', popped, _⟩ := mallocPop_rotates timeout cacheTimeout name rep₁ first
      exact ⟨s', run.trans popped⟩

theorem mallocScript_pops_available (shared : Bool) (rep : Represents s p)
    (unbound : s.boundKey name = none)
    (returned : (mallocScript shared timeout name cacheTimeout s).1 = .ok (some k)) :
    p.available s.isExpiryInvalid s.locked = some k := by
  cases first : p.available s.isExpiryInvalid s.locked with
  | none =>
      obtain ⟨s', run⟩ := mallocScript_pops_none timeout cacheTimeout shared rep unbound first
      rw [run] at returned
      cases returned
  | some j =>
      obtain ⟨s', run⟩ := mallocScript_pops_some timeout cacheTimeout shared rep unbound first
      rw [run] at returned
      cases returned
      rfl

end Locks

/-- `malloc_key` returns nothing exactly if no usable binding and no usable key is there. -/
theorem mallocKey_none_iff {s : Redis} {L : List String} (wf : WellFormed s L) (shared : Bool)
    (timeout cacheTimeout : Timeout) (name : Option String) :
    (mallocKey shared timeout name cacheTimeout s).1 = .ok none ↔
      s.boundKey (name.getD "") = none ∧ s.Exhausted L := by
  rw [mallocKey]
  cases bound : s.boundKey (name.getD "") with
  | some k =>
      refine iff_of_false (fun returned => ?_) fun never => by cases never.1
      cases shared with
      | true =>
          obtain ⟨s', run, _⟩ := mallocScript_binds timeout.wholeSeconds
            cacheTimeout.wholeSeconds wf.represents bound
          rw [run] at returned
          cases returned
      | false =>
          by_cases positive : 0 < timeout.wholeSeconds
          · obtain ⟨s', run, _⟩ := mallocScript_binds_locks _ cacheTimeout.wholeSeconds
              wf.represents bound positive
            rw [run] at returned
            cases returned
          · obtain ⟨s', run, _⟩ := mallocScript_binds_refused _ cacheTimeout.wholeSeconds
              wf.represents bound (not_lt.mp positive)
            rw [run] at returned
            cases returned
  | none =>
      rw [and_iff_right rfl, ← available_eq_none_iff wf]
      cases first : wf.pool.available s.isExpiryInvalid s.locked with
      | none =>
          obtain ⟨s', run⟩ := mallocScript_pops_none timeout.wholeSeconds
            cacheTimeout.wholeSeconds shared wf.represents bound first
          exact iff_of_true (by rw [run]) rfl
      | some k =>
          refine iff_of_false (fun returned => ?_) (by simp)
          obtain ⟨s', run⟩ := mallocScript_pops_some timeout.wholeSeconds
            cacheTimeout.wholeSeconds shared wf.represents bound first
          rw [run] at returned
          cases returned

/-- `malloc_key` keeps to its timeout exactly if that is a second or more, or the call pops and
the timeout is not a fraction of a second or there is nothing to hand out. -/
theorem mallocKey_keepsTimeout_iff {s : Redis} {L : List String} (wf : WellFormed s L)
    (timeout cacheTimeout : Timeout) (name : Option String) :
    KeepsTimeout timeout.toSeconds s (mallocKey false timeout name cacheTimeout s) ↔
      1 ≤ timeout.toSeconds ∨ (s.boundKey (name.getD "") = none ∧
        (timeout.toSeconds ≤ 0 ∨ s.Exhausted L)) := by
  rw [mallocKey, Timeout.wholeSeconds]
  cases bound : s.boundKey (name.getD "") with
  | some k =>
      simp only [reduceCtorEq, false_and, or_false]
      by_cases whole : 0 < truncate timeout.toSeconds
      · obtain ⟨s', run, locked⟩ := mallocScript_binds_lock? _ cacheTimeout.wholeSeconds
          wf.represents bound whole
        rw [run, keepsTimeout_mallocLock_iff locked rfl]
        have large := (truncate_pos_iff _).mp whole
        simp [large]
      · obtain ⟨s', run, _⟩ := mallocScript_binds_refused _ cacheTimeout.wholeSeconds
          wf.represents bound (not_lt.mp whole)
        rw [run]
        simp only [not_keepsTimeout_error, false_iff]
        exact (truncate_pos_iff _).not.mp whole
  | none =>
      simp only [true_and]
      rw [← available_eq_none_iff wf]
      cases first : wf.pool.available s.isExpiryInvalid s.locked with
      | none =>
          obtain ⟨s', run⟩ := mallocScript_pops_none (truncate timeout.toSeconds)
            cacheTimeout.wholeSeconds false wf.represents bound first
          rw [run]
          simp [keepsTimeout_none]
      | some k =>
          obtain ⟨s', run, locked⟩ := mallocScript_pops_lock? (truncate timeout.toSeconds)
            cacheTimeout.wholeSeconds wf.represents bound first
          rw [run, keepsTimeout_mallocLock_iff locked rfl]
          simp

/-- The sample chain with `job` bound to its head, which expires after 5 seconds. -/
def jobChain (now : Nat) : Redis := (sampleChain.putBind "job" (some ⟨"a", none⟩)).advance now

theorem jobChain_wellFormed (now : Nat) : WellFormed (jobChain now) ["a", "b"] := by
  have rep : Represents (jobChain now) sampleChain_wellFormed.pool :=
    sampleChain_wellFormed.represents.of_outside_pool rfl rfl rfl
  exact rep.wellFormed

theorem mallocKey_keepsTimeout_iff_sample :
    KeepsTimeout (Timeout.int 30).toSeconds (jobChain 0)
        (mallocKey false (.int 30) (some "job") (.int 60) (jobChain 0)) ↔
      1 ≤ (Timeout.int 30).toSeconds ∨ ((jobChain 0).boundKey ((some "job").getD "") = none ∧
        ((Timeout.int 30).toSeconds ≤ 0 ∨ (jobChain 0).Exhausted ["a", "b"])) :=
  mallocKey_keepsTimeout_iff (jobChain_wellFormed 0) (.int 30) (.int 60) (some "job")

/-- A timeout of zero, which elsewhere means a lock for good, stops the call on a bound key. -/
theorem bound_timeout_zero_stops : WellFormed (jobChain 0) ["a", "b"] ∧
    ¬ KeepsTimeout (Timeout.int 0).toSeconds (jobChain 0)
      (mallocKey false (.int 0) (some "job") (.int 60) (jobChain 0)) := by
  refine ⟨jobChain_wellFormed 0, fun keeps => ?_⟩
  exact keeps.1 (.command "ERR invalid expire time in 'set' command") (by decide)

/-! ## The expiry of a key -/

/-- What `malloc_key` returns is a member whose expiry is unset or still to come. -/
def HandsOutUnexpired (outcome : Except Failure (Option String) × Redis) : Prop :=
  ∀ k, outcome.1 = .ok (some k) → ∃ val, outcome.2.hget k = some val ∧
    (val.expiry ≤ 0 ∨ outcome.2.time < val.expiry)

theorem Redis.isExpiryInvalid_eq_false {s : Redis} {expiry : Int} :
    s.isExpiryInvalid expiry = false ↔ expiry ≤ 0 ∨ s.time < expiry := by
  simp only [isExpiryInvalid, Bool.and_eq_false_iff, decide_eq_false_iff_not, not_lt, not_le]

section HandsOut

variable {s s' : Redis} {p q : FreePool String} {name k : String} {e : Int}

theorem handsOutUnexpired_iff (rep : Represents s' q) (sameNow : s'.now = s.now)
    (found : q.expiry k = some e) :
    HandsOutUnexpired (.ok (some k), s') ↔ s.isExpiryInvalid e = false := by
  obtain ⟨val, stored, rfl⟩ := rep.hget_of_expiry found
  rw [← Redis.isExpiryInvalid_congr sameNow, Redis.isExpiryInvalid_eq_false]
  constructor
  · intro fresh
    obtain ⟨other, storedToo, unexpired⟩ := fresh k rfl
    cases stored.symm.trans storedToo
    exact unexpired
  · intro unexpired j same
    cases same
    exact ⟨val, stored, unexpired⟩

theorem handsOutUnexpired_of_no_key {reply : Except Failure (Option String)}
    (noKey : ∀ k, reply ≠ .ok (some k)) : HandsOutUnexpired (reply, s') :=
  fun k same => absurd same (noKey k)

variable (shared : Bool) (timeout cacheTimeout : Int)

theorem mallocScript_pops_unexpired (rep : Represents s p) (unbound : s.boundKey name = none) :
    HandsOutUnexpired (mallocScript shared timeout name cacheTimeout s) := by
  obtain ⟨s₁, run, rep₁, sameNow, _⟩ :=
    mallocScript_pops shared timeout cacheTimeout rep unbound
  rw [run]
  cases first : p.available s₁.isExpiryInvalid s₁.locked with
  | none =>
      obtain ⟨s', popped, _⟩ := mallocPop_none timeout cacheTimeout name shared rep₁ first
      rw [popped]
      exact handsOutUnexpired_of_no_key fun k same => by cases same
  | some k =>
      obtain ⟨e, found, unexpired⟩ := FreePool.unexpired_of_available first
      cases shared with
      | false =>
          obtain ⟨s', popped, rep', frame⟩ := mallocPop_locks timeout cacheTimeout name rep₁ first
          have sameNow' : s'.now = s₁.now :=
            (Redis.now_of_outside frame).trans (Redis.now_refreshed ..)
          rw [popped, handsOutUnexpired_iff rep' sameNow'
            ((FreePool.expiry_afterPop_of_available first).trans found)]
          exact unexpired
      | true =>
          obtain ⟨e', found', s', popped, rep', frame⟩ :=
            mallocPop_rotates timeout cacheTimeout name rep₁ first
          cases found.symm.trans found'
          have sameNow' : s'.now = s₁.now :=
            (Redis.now_of_outside frame).trans (Redis.now_refreshed ..)
          rw [popped, handsOutUnexpired_iff rep' sameNow' (Function.update_self ..)]
          exact unexpired

/-- The soft-binding path hands out what is bound, expired or not, unless it stops before. -/
theorem mallocScript_binds_unexpired_iff (rep : Represents s p) (bound : s.boundKey name = some k)
    (found : p.expiry k = some e) :
    HandsOutUnexpired (mallocScript shared timeout name cacheTimeout s) ↔
      s.isExpiryInvalid e = true → shared = false ∧ timeout ≤ 0 := by
  cases shared with
  | true =>
      obtain ⟨s', run, rep', frame⟩ := mallocScript_binds timeout cacheTimeout rep bound
      rw [run, handsOutUnexpired_iff rep' ((Redis.now_of_outside frame).trans
        (Redis.now_refreshed ..)) found]
      simp
  | false =>
      by_cases positive : 0 < timeout
      · obtain ⟨s', run, rep', frame⟩ :=
          mallocScript_binds_locks timeout cacheTimeout rep bound positive
        rw [run, handsOutUnexpired_iff rep' ((Redis.now_of_outside frame).trans
          (Redis.now_refreshed ..)) found]
        simp [not_le.mpr positive]
      · obtain ⟨s', run, _⟩ :=
          mallocScript_binds_refused timeout cacheTimeout rep bound (not_lt.mp positive)
        rw [run]
        simp [not_lt.mp positive, handsOutUnexpired_of_no_key]

end HandsOut

/-- `malloc_key` hands out no expired key, exactly if no usable binding leads to an expired
member, or it does and the script stops on the refused lock. -/
theorem mallocKey_unexpired_iff {s : Redis} {L : List String} (wf : WellFormed s L) (shared : Bool)
    (timeout cacheTimeout : Timeout) (name : Option String) :
    HandsOutUnexpired (mallocKey shared timeout name cacheTimeout s) ↔
      ∀ k val, s.boundKey (name.getD "") = some k → s.hget k = some val →
        s.isExpiryInvalid val.expiry = true → shared = false ∧ timeout.toSeconds < 1 := by
  rw [mallocKey]
  cases bound : s.boundKey (name.getD "") with
  | none =>
      simp [mallocScript_pops_unexpired shared timeout.wholeSeconds cacheTimeout.wholeSeconds
        wf.represents bound]
  | some k =>
      obtain ⟨_, _, isMember, _⟩ := Redis.boundKey_eq_some.mp bound
      obtain ⟨val, stored⟩ := Option.isSome_iff_exists.mp isMember
      have short : timeout.wholeSeconds ≤ 0 ↔ timeout.toSeconds < 1 := by
        rw [← not_lt, Timeout.wholeSeconds, truncate_pos_iff, not_le]
      rw [mallocScript_binds_unexpired_iff shared _ _ wf.represents bound
        (wf.represents.expiry_of_hget stored), short]
      constructor
      · intro stops j other sameKey storedToo
        cases sameKey
        cases stored.symm.trans storedToo
        exact stops
      · intro each
        exact each k val rfl stored

theorem mallocKey_unexpired_iff_sample :
    HandsOutUnexpired (mallocKey false (.int 30) (some "job") (.int 60) (jobChain 0)) ↔
      ∀ k val, (jobChain 0).boundKey ((some "job").getD "") = some k →
        (jobChain 0).hget k = some val → (jobChain 0).isExpiryInvalid val.expiry = true →
          false = false ∧ (Timeout.int 30).toSeconds < 1 :=
  mallocKey_unexpired_iff (jobChain_wellFormed 0) false (.int 30) (.int 60) (some "job")

/-- Five seconds after its expiry the bound key is handed out all the same. -/
theorem bound_expired_handed_out : WellFormed (jobChain 10000) ["a", "b"] ∧
    ¬ HandsOutUnexpired (mallocKey false (.int 30) (some "job") (.int 60) (jobChain 10000)) := by
  refine ⟨jobChain_wellFormed 10000, fun fresh => ?_⟩
  obtain ⟨val, stored, unexpired⟩ := fresh "a" (by decide)
  have entry : (mallocKey false (.int 30) (some "job") (.int 60) (jobChain 10000)).2.hget "a" =
      some (.allocated 5) := by decide
  cases entry.symm.trans stored
  revert unexpired
  decide

end RedisAllocator

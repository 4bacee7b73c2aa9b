import RedisAllocator.Lib.History
import RedisAllocator.Objects.PolicyRuns
import RedisAllocator.Objects.Quarantine

/-!
# The update lock

Before a process refreshes the pool it tries the policy's update lock, and goes on
only if it gets it.  Nobody gives that lock back: it lapses after the update
interval, also when the refresh raised.
-/

set_option autoImplicit false

namespace RedisAllocator

open AbortableScript AbortableScript.Script LabelledRun

structure PolicyEvent where
  before : Redis
  command : PolicyCommand

section UpdateLock

variable {Param : Type} (policy : DefaultPolicy Param) (allocator : Allocator)

namespace PolicyEvent

variable (event : PolicyEvent)

def after : Redis := event.command.after policy allocator event.before

/-- `_try_refresh_pool` gets the lock. -/
def Acquires : Prop :=
  event.command = .lockUpdates ∧ (policy.lockUpdates allocator event.before).1 = .ok true

/-- A script that treats the update lock's key as one of the pool's -/
def Disturbs : Prop :=
  ∃ call, event.command = .script call ∧
    (Event.Frees ⟨event.before, call⟩ allocator.updateLockKey ∨
      Event.Inserts allocator.shared ⟨event.before, call⟩ allocator.updateLockKey ∨
      Event.Returns allocator.shared ⟨event.before, call⟩ allocator.updateLockKey)

end PolicyEvent

def CommandStep (s : Redis) (event : PolicyEvent) (s' : Redis) : Prop :=
  (∃ elapsed, event.before = s.advance elapsed) ∧ event.command.Permitted policy event.before ∧
    s' = event.after policy allocator

abbrev CommandRun : Redis → List PolicyEvent → Redis → Prop := Run (CommandStep policy allocator)

/-! ## One command -/

section Event

variable {policy allocator} {event : PolicyEvent}

/-- The lock lapses one interval later. -/
def DefaultPolicy.updateLock (policy : DefaultPolicy Param) (now : Nat) : StringKey :=
  ⟨"1", some (now + 1000 * policy.updateInterval.toNat)⟩

theorem DefaultPolicy.lockUpdates_run (interval : 0 < policy.updateInterval) (s : Redis) :
    policy.lockUpdates allocator s = (.ok (s.lock? allocator.updateLockKey).isNone,
      if (s.lock? allocator.updateLockKey).isSome then s
      else s.putLock allocator.updateLockKey (some (policy.updateLock s.now))) := by
  rw [DefaultPolicy.lockUpdates, RedisLock.lock_apply 0 interval, RedisLock.get?_zero]
  rfl

theorem PolicyEvent.acquires_iff (interval : 0 < policy.updateInterval)
    (attempt : event.command = .lockUpdates) :
    event.Acquires policy allocator ↔ event.before.lock? allocator.updateLockKey = none := by
  rw [PolicyEvent.Acquires, DefaultPolicy.lockUpdates_run interval]
  simp [attempt]

theorem PolicyEvent.updateLock_after (interval : 0 < policy.updateInterval)
    (permitted : event.command.Permitted policy event.before)
    (undisturbed : ¬ event.Disturbs allocator) :
    (event.Acquires policy allocator ∧ event.before.lock? allocator.updateLockKey = none ∧
      (event.after policy allocator).now = event.before.now ∧
      (event.after policy allocator).locks allocator.updateLockKey =
        some (policy.updateLock event.before.now)) ∨
    (¬ event.Acquires policy allocator ∧
      (event.after policy allocator).lockOf allocator.updateLockKey =
        event.before.lockOf allocator.updateLockKey) := by
  obtain ⟨before, command⟩ := event
  have other (different : command ≠ .lockUpdates) :
      ¬ PolicyEvent.Acquires policy allocator ⟨before, command⟩ := fun acquires =>
    different acquires.1
  have unbound (name : String) : allocator.updateLockKey ≠ allocator.softBindName name :=
    Allocator.updateLockKey_ne_softBindName name
  cases command with
  | script call =>
      refine .inr ⟨other (by simp), ?_⟩
      rcases @Event.lockOf_kept allocator.shared ⟨before, call⟩ permitted
        allocator.updateLockKey with same | ⟨_, disturbs⟩
      · exact same
      · exact absurd ⟨call, rfl, disturbs⟩ undisturbed
  | updateSoftBind name key timeout =>
      exact .inr ⟨other (by simp), lockUpdate_lockOf (unbound name) key timeout before⟩
  | unbindSoftBind name =>
      refine .inr ⟨other (by simp), ?_⟩
      have run : RedisAllocator.unbindSoftBind allocator name before =
          (.ok (), before.putLock (allocator.softBindName name) none) := by
        rw [RedisAllocator.unbindSoftBind, bind_ok (unlock_run _ before)]
        rfl
      simp only [PolicyEvent.after, PolicyCommand.after, run, Redis.lockOf, Redis.putLock,
        Function.update_of_ne (unbound name)]
  | lockUpdates =>
      have acquires : PolicyEvent.Acquires policy allocator ⟨before, .lockUpdates⟩ ↔
          before.lock? allocator.updateLockKey = none := PolicyEvent.acquires_iff interval rfl
      have run := @DefaultPolicy.lockUpdates_run _ policy allocator interval before
      cases free : before.lock? allocator.updateLockKey with
      | none =>
          rw [free] at run
          refine .inl ⟨acquires.mpr free, rfl, ?_, ?_⟩ <;>
          · simp [PolicyEvent.after, PolicyCommand.after, run, Redis.putLock]
      | some lock =>
          rw [free] at run
          refine .inr ⟨fun acquired => ?_, ?_⟩
          · rw [acquires.mp acquired] at free
            cases free
          · simp [PolicyEvent.after, PolicyCommand.after, run]

end Event

/-! ## Runs -/

/-- The update lock is that of the last acquisition, and acquisitions are an interval apart. -/
structure UpdateHistory (start : Nat) (past : List PolicyEvent) (s : Redis) : Prop where
  clock : start ≤ s.now
  origin : ∀ lock, s.locks allocator.updateLockKey = some lock →
    ∃ event ∈ past, event.Acquires policy allocator ∧ lock = policy.updateLock event.before.now
  held : ∀ event ∈ past, event.Acquires policy allocator → ∃ latest,
    s.locks allocator.updateLockKey = some (policy.updateLock latest) ∧
      event.before.now ≤ latest
  spaced : ∀ acquired : List PolicyEvent, acquired.Sublist past → acquired ≠ [] →
    (∀ event ∈ acquired, event.Acquires policy allocator) → ∃ latest,
      s.locks allocator.updateLockKey = some (policy.updateLock latest) ∧ latest ≤ s.now ∧
        start + 1000 * policy.updateInterval.toNat * acquired.length ≤
          latest + 1000 * policy.updateInterval.toNat

variable {policy allocator} {start : Nat} {past : List PolicyEvent} {s s' : Redis}
  {event : PolicyEvent}

theorem UpdateHistory.step (history : UpdateHistory policy allocator start past s)
    (interval : 0 < policy.updateInterval) (undisturbed : ¬ event.Disturbs allocator)
    (step : CommandStep policy allocator s event s') :
    UpdateHistory policy allocator start (past ++ [event]) s' := by
  obtain ⟨⟨elapsed, later⟩, permitted, rfl⟩ := step
  have locks : event.before.locks = s.locks := by rw [later]; rfl
  have passed : event.before.now = s.now + elapsed := by rw [later]; rfl
  rcases event.updateLock_after interval permitted undisturbed with
    ⟨acquires, free, now, taken⟩ | ⟨refused, same⟩
  · -- a lock that was free has lapsed since the last acquisition
    have lapsed (latest : Nat)
        (isLock : s.locks allocator.updateLockKey = some (policy.updateLock latest)) :
        latest + 1000 * policy.updateInterval.toNat ≤ event.before.now := by
      by_contra early
      have live : (policy.updateLock latest).live event.before.now = true :=
        decide_eq_true (not_le.mp early)
      rw [Redis.lock?, locks, isLock, Option.filter, if_pos live] at free
      cases free
    refine ⟨by rw [now, passed]; exact history.clock.trans (Nat.le_add_right ..), ?_, ?_, ?_⟩
    · intro lock isLock
      rw [taken] at isLock
      exact ⟨event, by simp, acquires, (Option.some.inj isLock).symm⟩
    · intro other inPast acquired
      refine ⟨event.before.now, taken, ?_⟩
      rcases List.mem_append.mp inPast with inPast | isLast
      · obtain ⟨latest, isLock, before⟩ := history.held other inPast acquired
        have := lapsed latest isLock
        omega
      · rw [List.mem_singleton.mp isLast]
    · intro acquired sublist nonempty every
      refine ⟨event.before.now, taken, now.ge, ?_⟩
      obtain ⟨earlier, last, rfl, inPast, isLast⟩ := List.sublist_append_iff.mp sublist
      have atMost := Nat.mul_le_mul_left (1000 * policy.updateInterval.toNat)
        (show last.length ≤ 1 from isLast.length_le)
      by_cases none : earlier = []
      · subst none
        have := history.clock
        rw [List.nil_append]
        omega
      · obtain ⟨latest, isLock, _, bound⟩ := history.spaced earlier inPast none
          fun other member => every other (List.mem_append_left _ member)
        have := lapsed latest isLock
        rw [List.length_append, Nat.mul_add]
        omega
  · rw [Redis.lockOf, Redis.lockOf, Prod.mk.injEq, locks] at same
    obtain ⟨now, same⟩ := same
    refine ⟨by rw [now, passed]; exact history.clock.trans (Nat.le_add_right ..), ?_, ?_, ?_⟩
    · intro lock isLock
      obtain ⟨other, inPast, acquired⟩ := history.origin lock (same ▸ isLock)
      exact ⟨other, List.mem_append_left _ inPast, acquired⟩
    · intro other inPast acquired
      rcases List.mem_append.mp inPast with inPast | isLast
      · rw [same]
        exact history.held other inPast acquired
      · exact absurd (List.mem_singleton.mp isLast ▸ acquired) refused
    · intro acquired sublist nonempty every
      obtain ⟨earlier, last, rfl, inPast, isLast⟩ := List.sublist_append_iff.mp sublist
      have nothing : last = [] := by
        refine List.eq_nil_iff_forall_not_mem.mpr fun other member => refused ?_
        have isEvent := List.mem_singleton.mp (isLast.subset member)
        exact isEvent ▸ every other (List.mem_append_right _ member)
      subst nothing
      rw [List.append_nil] at nonempty every ⊢
      obtain ⟨latest, isLock, reached, bound⟩ := history.spaced earlier inPast nonempty every
      exact ⟨latest, same.trans isLock, by omega, bound⟩

theorem UpdateHistory.of_run {start final : Redis} {events : List PolicyEvent}
    (interval : 0 < policy.updateInterval) (free : start.locks allocator.updateLockKey = none)
    (run : CommandRun policy allocator start events final)
    (undisturbed : ∀ event ∈ events, ¬ event.Disturbs allocator) :
    UpdateHistory policy allocator start.now events final := by
  have begun : UpdateHistory policy allocator start.now [] start := by
    refine ⟨le_rfl, fun lock isLock => ?_, by simp, fun acquired sublist nonempty => ?_⟩
    · rw [free] at isLock
      cases isLock
    · exact absurd (List.sublist_nil.mp sublist) nonempty
  have kept := run.history
    (fun (past : List PolicyEvent) s => (∀ event ∈ past, ¬ event.Disturbs allocator) →
      UpdateHistory policy allocator start.now past s)
    (fun past s event s' history step every =>
      (history fun other inPast => every other (List.mem_append_left _ inPast)).step interval
        (every event (by simp)) step)
    (fun _ => begun)
  exact kept undisturbed

/-- An attempt at the update lock succeeds exactly if none has within the interval. -/
theorem UpdateHistory.acquires_iff {start : Nat} {attempt : PolicyEvent}
    (history : UpdateHistory policy allocator start past s) (interval : 0 < policy.updateInterval)
    (later : ∃ elapsed, attempt.before = s.advance elapsed)
    (attempts : attempt.command = .lockUpdates) :
    attempt.Acquires policy allocator ↔ ∀ event ∈ past, event.Acquires policy allocator →
      event.before.now + 1000 * policy.updateInterval.toNat ≤ attempt.before.now := by
  obtain ⟨elapsed, before⟩ := later
  have locks : attempt.before.locks = s.locks := by rw [before]; rfl
  rw [attempt.acquires_iff interval attempts, Redis.lock?, locks]
  constructor
  · intro free event inPast acquired
    obtain ⟨latest, isLock, since⟩ := history.held event inPast acquired
    by_contra early
    have live : (policy.updateLock latest).live attempt.before.now = true :=
      decide_eq_true (show attempt.before.now < latest + _ by omega)
    rw [isLock, Option.filter, if_pos live] at free
    cases free
  · intro lapsed
    cases isLock : s.locks allocator.updateLockKey with
    | none => rfl
    | some lock =>
        obtain ⟨event, inPast, acquired, rfl⟩ := history.origin lock isLock
        have reached := lapsed event inPast acquired
        exact if_neg (by simpa [DefaultPolicy.updateLock, StringKey.live] using reached)

end UpdateLock

/-- Whoever tries the update lock gets it exactly when nobody has for one update interval, and so it
is taken at most once an interval. -/
theorem acquisitions_spaced {Param : Type} (policy : DefaultPolicy Param) (allocator : Allocator)
    (interval : 0 < policy.updateInterval) {start final : Redis} {events : List PolicyEvent}
    (free : start.locks allocator.updateLockKey = none)
    (run : CommandRun policy allocator start events final)
    (undisturbed : ∀ event ∈ events, ¬ event.Disturbs allocator) :
    (∀ earlier attempt later, events = earlier ++ attempt :: later →
      attempt.command = .lockUpdates →
      (attempt.Acquires policy allocator ↔ ∀ event ∈ earlier, event.Acquires policy allocator →
        event.before.now + 1000 * policy.updateInterval.toNat ≤ attempt.before.now)) ∧
    ∀ acquired : List PolicyEvent, acquired.Sublist events →
      (∀ event ∈ acquired, event.Acquires policy allocator) →
      1000 * policy.updateInterval.toNat * (acquired.length - 1) ≤ final.now - start.now := by
  refine ⟨fun earlier attempt later split attempts => ?_, fun acquired sublist every => ?_⟩
  · subst split
    obtain ⟨s, before, run⟩ := run.of_append
    obtain ⟨_, ⟨since, _⟩, _⟩ := Run.cons_iff.mp run
    have history := UpdateHistory.of_run interval free before fun event inEarlier =>
      undisturbed event (List.mem_append_left _ inEarlier)
    exact history.acquires_iff interval since attempts
  · cases acquired with
    | nil => exact Nat.zero_le _
    | cons first rest =>
        have history := UpdateHistory.of_run interval free run undisturbed
        obtain ⟨latest, _, reached, bound⟩ :=
          history.spaced (first :: rest) sublist (List.cons_ne_nil _ _) every
        rw [List.length_cons, Nat.mul_succ] at bound
        rw [List.length_cons, Nat.add_sub_cancel]
        omega

/-- Two clients try the lock within an interval of five minutes, and one of them again after it. -/
def fiveMinutePolicy : DefaultPolicy String where
  expiryDuration := 600
  updater := some ⟨["north"], 0, by decide⟩
  gcCount := 3
  updateInterval := 300
  autoClose := false

def firstAttempt : PolicyEvent := ⟨(Redis.empty 0).advance 1000, .lockUpdates⟩

def secondAttempt : PolicyEvent :=
  ⟨(firstAttempt.after fiveMinutePolicy sharedAllocator).advance 299999, .lockUpdates⟩

def thirdAttempt : PolicyEvent :=
  ⟨(secondAttempt.after fiveMinutePolicy sharedAllocator).advance 1, .lockUpdates⟩

theorem attempts_run : CommandRun fiveMinutePolicy sharedAllocator (Redis.empty 0)
    [firstAttempt, secondAttempt, thirdAttempt]
    (thirdAttempt.after fiveMinutePolicy sharedAllocator) :=
  .fire ⟨⟨1000, rfl⟩, rfl, rfl⟩ (.fire ⟨⟨299999, rfl⟩, rfl, rfl⟩
    (.fire ⟨⟨1, rfl⟩, rfl, rfl⟩ (.done _)))

theorem acquisitions_spaced_attempts :
    (∀ earlier attempt later, [firstAttempt, secondAttempt, thirdAttempt] =
        earlier ++ attempt :: later → attempt.command = .lockUpdates →
      (attempt.Acquires fiveMinutePolicy sharedAllocator ↔
        ∀ event ∈ earlier, event.Acquires fiveMinutePolicy sharedAllocator →
          event.before.now + 1000 * (300 : Int).toNat ≤ attempt.before.now)) ∧
    ∀ acquired : List PolicyEvent,
      acquired.Sublist [firstAttempt, secondAttempt, thirdAttempt] →
      (∀ event ∈ acquired, event.Acquires fiveMinutePolicy sharedAllocator) →
      1000 * (300 : Int).toNat * (acquired.length - 1) ≤
        (thirdAttempt.after fiveMinutePolicy sharedAllocator).now - (Redis.empty 0).now :=
  acquisitions_spaced fiveMinutePolicy sharedAllocator (by decide) rfl attempts_run
    (by
      intro event inEvents
      simp only [List.mem_cons, List.not_mem_nil, or_false] at inEvents
      rcases inEvents with rfl | rfl | rfl <;>
      · rintro ⟨_, other, _⟩
        cases other)

end RedisAllocator

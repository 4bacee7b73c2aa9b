import RedisAllocator.Allocator.Exclusivity
import RedisAllocator.Objects.Session

/-!
# Keys that are marked unhealthy

An unhealthy mark is a lock on the key, and `malloc_key` hands out no locked key,
in either mode.  So a mark keeps the key out of circulation for its duration,
whatever the clients send in between, unless one of them takes the lock away or
sets it to an earlier instant.
-/

set_option autoImplicit false

namespace RedisAllocator

open AbortableScript AbortableScript.Script LabelledRun

/-! ## `malloc_key` and locks, in both modes -/

section Malloc

variable {shared : Bool} {timeout : Int} {name : String} {cacheTimeout : Int} {s s' : Redis}
  {k : String}

theorem mallocBound_unlocked {found : Option String}
    (run : mallocBound shared timeout name cacheTimeout s = (.ok found, s')) :
    (∀ k, found = some k → s.locked k = false) ∧
      (found = none → s'.now = s.now ∧ s'.locks = s.locks) := by
  rw [mallocBound] at run
  split at run
  · cases run
    exact ⟨fun _ same => (by cases same), fun _ => ⟨rfl, rfl⟩⟩
  · simp only [Command.getBind, read_bind_apply] at run
    cases cached : (s.bind? name).map StringKey.value with
    | none =>
        rw [cached] at run
        cases run
        exact ⟨fun _ same => (by cases same), fun _ => ⟨rfl, rfl⟩⟩
    | some cachedKey =>
        simp only [cached, Command.hexists, Command.existsLock, read_bind_apply] at run
        split at run
        · cases run
          exact ⟨fun _ same => (by cases same), fun _ => ⟨rfl, rfl⟩⟩
        · rename_i usable
          simp only [Bool.or_eq_true, Bool.not_eq_true', not_or, Bool.not_eq_true] at usable
          obtain ⟨_, _, _, run⟩ := of_bind_ok run
          obtain ⟨_, _, _, run⟩ := of_bind_ok run
          cases run
          refine ⟨fun k same => ?_, fun none => (by cases none)⟩
          cases same
          exact usable.2

theorem mallocPop_unlocked
    (run : mallocPop shared timeout name cacheTimeout s = (.ok (some k), s')) :
    s.locked k = false := by
  simp only [mallocPop, Command.hlen, read_bind_apply] at run
  obtain ⟨popped, s₁, popping, run⟩ := of_bind_ok run
  obtain ⟨_ | itemName, e⟩ := popped
  · cases run
  · obtain ⟨_, _, _, run⟩ := of_bind_ok run
    obtain ⟨_, _, _, run⟩ := of_bind_ok run
    cases run
    exact (popFromHead_found _ popping).1

/-- What `malloc_key` returns had no live lock when it was called. -/
theorem mallocScript_unlocked
    (run : mallocScript shared timeout name cacheTimeout s = (.ok (some k), s')) :
    s.locked k = false := by
  obtain ⟨found, s₁, bound, run⟩ := of_bind_ok run
  obtain ⟨unlocked, same⟩ := mallocBound_unlocked bound
  cases found with
  | some cachedKey =>
      cases run
      exact unlocked k rfl
  | none =>
      obtain ⟨sameNow, sameLocks⟩ := same rfl
      have popped := mallocPop_unlocked run
      rwa [Redis.locked, Redis.lock?, sameLocks, sameNow] at popped

theorem mallocScript_shared_now (timeout : Int) (name : String) (cacheTimeout : Int) :
    Keeps Redis.now (mallocScript true timeout name cacheTimeout) := by
  have refreshing (cacheKey : String) : Keeps Redis.now (refreshCache name cacheTimeout cacheKey) :=
    fun s => by rw [refreshCache_run, Redis.now_refreshed]
  refine Keeps.bind (Keeps.ite (Keeps.pure _) (Keeps.bind (Keeps.read _) fun found => ?_))
    fun found => ?_
  · cases found with
    | none => exact Keeps.pure _
    | some cachedKey =>
        exact Keeps.bind (Keeps.read _) fun _ => Keeps.bind (Keeps.read _) fun _ => Keeps.ite
          (Keeps.bind (Keeps.write fun _ => rfl) fun _ => Keeps.pure _)
          (Keeps.bind (refreshing _) fun _ => Keeps.bind (Keeps.pure _) fun _ => Keeps.pure _)
  · cases found with
    | some cachedKey => exact Keeps.pure _
    | none =>
        refine Keeps.bind (Keeps.read _) fun size =>
          Keeps.bind (keeps_now (popFromHead_keeps _)) fun popped => ?_
        cases popped.1 with
        | none => exact Keeps.pure _
        | some itemName =>
            exact Keeps.bind (keeps_now (pushToTail_keeps _ _)) fun _ =>
              Keeps.bind (refreshing _) fun _ => Keeps.pure _

end Malloc

section Event

variable {shared : Bool} {event : Event} {k : String}

theorem Event.returns_unlocked (returned : event.Returns shared k) :
    event.before.locked k = false := by
  obtain ⟨s, call⟩ := event
  cases call with
  | mallocKey timeout name cacheTimeout => exact mallocScript_unlocked (Prod.ext returned rfl)
  | _ => exact absurd returned (discard_ne_some _ s k)

theorem Event.lockOf_kept (admissible : event.call.Admissible event.before) (k : String) :
    (event.after shared).lockOf k = event.before.lockOf k ∨
      (event.after shared).now = event.before.now ∧
        (event.Frees k ∨ event.Inserts shared k ∨ event.Returns shared k) := by
  cases shared with
  | false => exact event.lockOf_after admissible k
  | true =>
      obtain ⟨s, call⟩ := event
      cases call with
      | mallocKey timeout name cacheTimeout =>
          have now := mallocScript_shared_now timeout.wholeSeconds (name.getD "")
            cacheTimeout.wholeSeconds s
          have locks := mallocScript_shared_locks timeout.wholeSeconds (name.getD "")
            cacheTimeout.wholeSeconds s
          exact .inl (Prod.ext now (congrFun locks k))
      | _ => exact @Event.lockOf_after ⟨s, _⟩ admissible k

end Event

/-! ## Commands of any clients -/

structure StepEvent where
  before : Redis
  step : Step

def Timeout.ex : Timeout → Option Int
  | .int seconds => some seconds
  | .timedelta seconds => some (truncate seconds)
  | .float _ | .none => Option.none

namespace StepEvent

variable (allocator : Allocator) (event : StepEvent)

def reply : Except Failure (Option String) := (event.step.script allocator event.before).1

def after : Redis := (event.step.script allocator event.before).2

def Admissible : Prop := ∀ call, event.step = .pool call → call.Admissible event.before

/-- The command takes a lock of `k` away, or lets it lapse before `instant`. -/
def Lifts (k : String) (instant : Nat) : Prop :=
  match event.step with
  | .pool call =>
    Event.Frees ⟨event.before, call⟩ k ∨ Event.Inserts allocator.shared ⟨event.before, call⟩ k
  | .lockUpdate key _ timeout =>
    key = k ∧ ∃ seconds, timeout.ex = some seconds ∧ 0 < seconds ∧
      event.before.deadline seconds < instant
  | .unlock key => key = k

end StepEvent

def OneStep (allocator : Allocator) (s : Redis) (event : StepEvent) (s' : Redis) : Prop :=
  (∃ elapsed, event.before = s.advance elapsed) ∧ event.Admissible ∧ s' = event.after allocator

abbrev StepRun (allocator : Allocator) : Redis → List StepEvent → Redis → Prop :=
  Run (OneStep allocator)

/-- Before `instant` there is a lock on `k`, and none of its time is up before `instant`. -/
def LockedUntil (k : String) (instant : Nat) (s : Redis) : Prop :=
  s.now < instant → ∃ lock, s.locks k = some lock ∧ ∀ t < instant, lock.live t = true

section LockedUntil

variable {allocator : Allocator} {k : String} {instant : Nat} {s s' : Redis} {event : StepEvent}

theorem LockedUntil.advance (locked : LockedUntil k instant s) (elapsed : Nat) :
    LockedUntil k instant (s.advance elapsed) :=
  fun early => locked (lt_of_le_of_lt (Nat.le_add_right s.now elapsed) early)

theorem LockedUntil.of_lockOf (locked : LockedUntil k instant s)
    (same : s'.lockOf k = s.lockOf k) : LockedUntil k instant s' := by
  rw [Redis.lockOf, Redis.lockOf, Prod.mk.injEq] at same
  intro early
  rw [same.1] at early
  rw [same.2]
  exact locked early

theorem LockedUntil.locked (locked : LockedUntil k instant s) (early : s.now < instant) :
    s.locked k = true := by
  obtain ⟨lock, isLock, lasts⟩ := locked early
  rw [Redis.locked, Redis.lock?, isLock, Option.filter, if_pos (lasts s.now early)]
  rfl

theorem lockUpdate_cases (key value : String) (timeout : Timeout) (s : Redis) :
    (lockUpdate key value timeout s).2 = s ∨
    ∃ expireAt, (lockUpdate key value timeout s).2 = s.putLock key (some ⟨value, expireAt⟩) ∧
      ∀ instant, expireAt = some instant →
        ∃ seconds, timeout.ex = some seconds ∧ 0 < seconds ∧ instant = s.deadline seconds := by
  have sent (seconds : Int) (ex : timeout.ex = some seconds) :
      (Command.setLock key value (some seconds) s).2 = s ∨
      ∃ expireAt, (Command.setLock key value (some seconds) s).2 =
          s.putLock key (some ⟨value, expireAt⟩) ∧
        ∀ instant, expireAt = some instant →
          ∃ seconds, timeout.ex = some seconds ∧ 0 < seconds ∧ instant = s.deadline seconds := by
    by_cases positive : 0 < seconds
    · refine .inr ⟨some (s.deadline seconds), ?_, fun instant same => ?_⟩
      · rw [setLock_ex s positive]
      · exact ⟨seconds, ex, positive, (Option.some.inj same).symm⟩
    · rw [setLock_ex_refused s (not_lt.mp positive)]
      exact .inl rfl
  cases timeout with
  | int seconds => exact sent seconds rfl
  | timedelta seconds => exact sent (truncate seconds) rfl
  | float seconds => exact .inl rfl
  | none => exact .inr ⟨none, rfl, fun instant same => by cases same⟩

theorem LockedUntil.lockUpdate (locked : LockedUntil k instant s) (key value : String)
    (timeout : Timeout)
    (later : key = k → ∀ seconds, timeout.ex = some seconds → 0 < seconds →
      instant ≤ s.deadline seconds) :
    LockedUntil k instant (RedisAllocator.lockUpdate key value timeout s).2 := by
  rcases lockUpdate_cases key value timeout s with same | ⟨expireAt, set, deadline⟩
  · rwa [same]
  · rw [set]
    by_cases named : k = key
    · subst named
      intro _
      refine ⟨⟨value, expireAt⟩, by simp [Redis.putLock], fun t early => ?_⟩
      cases expireAt with
      | none => rfl
      | some expiry =>
          obtain ⟨seconds, ex, positive, rfl⟩ := deadline expiry rfl
          have lasts := later rfl seconds ex positive
          exact decide_eq_true (early.trans_le lasts)
    · exact locked.of_lockOf (by simp [Redis.lockOf, Redis.putLock, named])

theorem LockedUntil.after (locked : LockedUntil k instant event.before)
    (admissible : event.Admissible) (kept : ¬ event.Lifts allocator k instant) :
    LockedUntil k instant (event.after allocator) := by
  obtain ⟨before, step⟩ := event
  cases step with
  | pool call =>
      rcases @Event.lockOf_kept allocator.shared ⟨before, call⟩
        (admissible call rfl) k with same | ⟨now, frees | inserts | returns⟩
      · exact locked.of_lockOf same
      · exact absurd (.inl frees) kept
      · exact absurd (.inr inserts) kept
      · intro early
        have unlocked := Event.returns_unlocked returns
        rw [locked.locked (now ▸ early)] at unlocked
        cases unlocked
  | lockUpdate key value timeout =>
      have sent : StepEvent.after allocator ⟨before, .lockUpdate key value timeout⟩ =
          (RedisAllocator.lockUpdate key value timeout before).2 :=
        discard_snd (RedisAllocator.lockUpdate key value timeout) before
      rw [sent]
      refine locked.lockUpdate key value timeout fun named seconds ex positive => ?_
      by_contra shorter
      exact kept ⟨named, seconds, ex, positive, not_le.mp shorter⟩
  | unlock key =>
      have different : k ≠ key := fun same => kept same.symm
      have sent : StepEvent.after allocator ⟨before, .unlock key⟩ = before.putLock key none := by
        rw [StepEvent.after, Step.script, bind_ok (unlock_run key before)]
        rfl
      rw [sent]
      exact locked.of_lockOf (by simp [Redis.lockOf, Redis.putLock, different])

theorem LockedUntil.run {events : List StepEvent} (run : StepRun allocator s events s')
    (locked : LockedUntil k instant s)
    (kept : ∀ event ∈ events, ¬ event.Lifts allocator k instant) : LockedUntil k instant s' :=
  run.invariant (LockedUntil k instant) (fun event => ¬ event.Lifts allocator k instant)
    (fun s event s' locked allowed step => by
      obtain ⟨⟨elapsed, later⟩, admissible, rfl⟩ := step
      have started : LockedUntil k instant event.before := later ▸ locked.advance elapsed
      exact started.after admissible allowed)
    locked kept

theorem StepEvent.reply_unlocked (replied : event.reply allocator = .ok (some k)) :
    event.before.locked k = false := by
  obtain ⟨before, step⟩ := event
  cases step with
  | pool call => exact @Event.returns_unlocked allocator.shared ⟨before, call⟩ k replied
  | lockUpdate key value timeout =>
      exact absurd replied (discard_ne_some (RedisAllocator.lockUpdate key value timeout) before k)
  | unlock key =>
      rw [StepEvent.reply, Step.script, bind_ok (unlock_run key before)] at replied
      cases replied

/-- The `SET` with which `set_unhealthy` ends, and which a heartbeat is -/
theorem LockedUntil.of_mark {value : String} {seconds : Int} (positive : 0 < seconds)
    (marks : event.step = .lockUpdate k value (.int seconds)) :
    LockedUntil k (event.before.deadline seconds) (event.after allocator) := by
  obtain ⟨before, step⟩ := event
  subst marks
  have sent : StepEvent.after allocator ⟨before, .lockUpdate k value (.int seconds)⟩ =
      before.putLock k (some ⟨value, some (before.deadline seconds)⟩) := by
    rw [StepEvent.after, Step.script, discard_snd, RedisAllocator.lockUpdate, pyExpire,
      pure_bind_apply, setLock_ex before positive]
  rw [sent]
  exact fun _ => ⟨_, Function.update_self .., fun t early => decide_eq_true early⟩

end LockedUntil

/-- A key that a client marks unhealthy is handed out to nobody before the mark's time is up, in
either mode and whatever any clients send meanwhile, unless a command between frees, unlocks or
newly inserts the key or sets its lock to an earlier instant. -/
theorem mark_withholds (allocator : Allocator) {start final : Redis}
    {before between after : List StepEvent} {mark handout : StepEvent} {k value : String}
    {seconds : Int}
    (run : StepRun allocator start (before ++ mark :: (between ++ handout :: after)) final)
    (marks : mark.step = .lockUpdate k value (.int seconds)) (positive : 0 < seconds)
    (kept : ∀ event ∈ between, ¬ event.Lifts allocator k (mark.before.deadline seconds))
    (handed : handout.reply allocator = .ok (some k)) :
    mark.before.now + 1000 * seconds.toNat ≤ handout.before.now := by
  obtain ⟨s₀, _, run⟩ := run.of_append
  obtain ⟨s₁, ⟨_, _, rfl⟩, run⟩ := Run.cons_iff.mp run
  obtain ⟨s₂, middle, run⟩ := run.of_append
  obtain ⟨_, ⟨⟨elapsed, later⟩, _⟩, _⟩ := Run.cons_iff.mp run
  have marked := LockedUntil.run middle (LockedUntil.of_mark positive marks) kept
  have started : LockedUntil k _ handout.before := later ▸ marked.advance elapsed
  by_contra early
  have unlocked := StepEvent.reply_unlocked handed
  rw [started.locked (not_le.mp early)] at unlocked
  cases unlocked

/-- Shared mode: `malloc_key` passes over the marked key, a later `gc` brings it back. -/
def sharedAllocator : Allocator := ⟨"app", "allocator", true⟩

def markStart : StepEvent := ⟨Redis.empty 0, .pool (.extend ["k"] none)⟩

def markSet : StepEvent :=
  ⟨(markStart.after sharedAllocator).advance 500, .lockUpdate "k" "1" (.int 30)⟩

def markPassed : StepEvent :=
  ⟨(markSet.after sharedAllocator).advance 29000, .pool (.mallocKey (.int 5) none (.int 60))⟩

def markGc : StepEvent :=
  ⟨(markPassed.after sharedAllocator).advance 1000, .pool (.gc 10 fun _ _ => ⟨"0", ["k"]⟩)⟩

def markHandout : StepEvent :=
  ⟨(markGc.after sharedAllocator).advance 0, .pool (.mallocKey (.int 5) none (.int 60))⟩

theorem mark_run : StepRun sharedAllocator (Redis.empty 0)
    ([markStart] ++ markSet :: ([markPassed, markGc] ++ markHandout :: []))
    (markHandout.after sharedAllocator) := by
  refine .fire ⟨⟨0, rfl⟩, ?_, rfl⟩ (.fire ⟨⟨500, rfl⟩, ?_, rfl⟩ (.fire ⟨⟨29000, rfl⟩, ?_, rfl⟩
    (.fire ⟨⟨1000, rfl⟩, ?_, rfl⟩ (.fire ⟨⟨0, rfl⟩, ?_, rfl⟩ (.done _)))))
  · rintro _ ⟨⟩; trivial
  · rintro _ ⟨⟩
  · rintro _ ⟨⟩; trivial
  · rintro _ ⟨⟩
    have member : markGc.before.pool.keys = {"k"} := by decide
    exact fun _ _ => ⟨by simp, by simp [member]⟩
  · rintro _ ⟨⟩; trivial

theorem mark_withholds_shared : (500 : Nat) + 1000 * (30 : Int).toNat ≤ markHandout.before.now :=
  mark_withholds sharedAllocator mark_run rfl (by decide)
    (by
      intro event inBetween
      simp only [List.mem_cons, List.not_mem_nil, or_false] at inBetween
      rcases inBetween with rfl | rfl
      · rintro (⟨_, _, other, _⟩ | ⟨⟨_, _, other, _⟩ | ⟨_, _, _, _, other, _⟩, _⟩) <;> cases other
      · rintro (⟨_, _, other, _⟩ | ⟨⟨_, _, other, _⟩ | ⟨_, _, _, _, other, _⟩, _⟩) <;> cases other)
    rfl

end RedisAllocator

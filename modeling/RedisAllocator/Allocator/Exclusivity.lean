import Mathlib.Tactic.NormNum
import RedisAllocator.Allocator.LockFrames

/-!
# How long an allocation is exclusive

Non-shared mode.  A key that `malloc_key` returned is not returned again before
its lock lapses, unless it is freed or inserted anew in between; the state the
run starts from does not matter.  The lock carries no owner, so a client that
frees a key after its own lock lapsed drops whatever lock is there: the second
half keeps the ledger of who holds what and says when that does no harm.
-/

set_option autoImplicit false

namespace RedisAllocator

open AbortableScript AbortableScript.Script LabelledRun

/-! ## What one event does to a lock -/

def Event.Frees (event : Event) (k : String) : Prop :=
  ∃ keys timeout, event.call = .freeKeys keys timeout ∧ k ∈ keys

/-- An `extend` or `assign` that names `k` when `k` is no member, and makes it one. -/
def Event.Inserts (shared : Bool) (event : Event) (k : String) : Prop :=
  ((∃ keys timeout, event.call = .extend keys timeout ∧ k ∈ keys) ∨
    ∃ keys timeout allItems pairs, event.call = .assign keys timeout allItems pairs ∧ k ∈ keys) ∧
  event.before.hget k = none ∧ (event.after shared).hget k ≠ none

def Event.Returns (shared : Bool) (event : Event) (k : String) : Prop :=
  event.reply shared = .ok (some k)

section Event

theorem Event.gc_undisturbed (shared : Bool) {event : Event} {k : String} {count : Int}
    {hscan : String → Int → ScanReply} (call : event.call = .gc count hscan) :
    ¬ event.Frees k ∧ ¬ event.Inserts shared k := by
  constructor
  · rintro ⟨_, _, other, _⟩
    rw [call] at other
    cases other
  · rintro ⟨⟨_, _, other, _⟩ | ⟨_, _, _, _, other, _⟩, _⟩ <;>
    · rw [call] at other
      cases other

theorem discard_snd (x : LuaScript Unit) (s : Redis) :
    ((x >>= fun _ => pure none : LuaScript (Option String)) s).2 = (x s).2 := by
  rw [bind_apply]
  cases x s with
  | mk outcome s' => cases outcome <;> rfl

theorem discard_run {x : LuaScript Unit} {s s' : Redis} {reply : Except Failure Unit}
    (run : x s = (reply, s')) :
    ((x >>= fun _ => pure none : LuaScript (Option String)) s).2 = s' := by
  rw [discard_snd, run]

theorem discard_ne_some (x : LuaScript Unit) (s : Redis) (k : String) :
    ((x >>= fun _ => pure none : LuaScript (Option String)) s).1 ≠ .ok (some k) := by
  rw [bind_apply]
  cases x s with
  | mk outcome s' => cases outcome <;> simp

/-- Only `malloc_key` returns a key, and then as `mallocScript_handsOut` says. -/
theorem Event.returns_malloc {event : Event} {k : String} (returned : event.Returns false k) :
    ∃ timeout name cacheTimeout, event.call = .mallocKey timeout name cacheTimeout ∧
      event.before.locked k = false ∧
      (event.after false).locks = Function.update event.before.locks k
        (some (event.before.mallocLock timeout.wholeSeconds)) := by
  obtain ⟨s, call⟩ := event
  cases call with
  | mallocKey timeout name cacheTimeout =>
      have handsOut := mallocScript_handsOut timeout.wholeSeconds (name.getD "")
        cacheTimeout.wholeSeconds s
      exact ⟨timeout, name, cacheTimeout, rfl, handsOut.unlocked k returned,
        handsOut.locks k returned⟩
  | _ => exact absurd returned (discard_ne_some _ s k)

theorem Event.lockOf_after {event : Event} (admissible : event.call.Admissible event.before)
    (k : String) :
    (event.after false).lockOf k = event.before.lockOf k ∨
      (event.after false).now = event.before.now ∧
        (event.Frees k ∨ event.Inserts false k ∨ event.Returns false k) := by
  obtain ⟨s, call⟩ := event
  cases call with
  | extend keys timeout =>
      by_cases named : k ∈ keys
      · obtain ⟨same | ⟨now, absent, present⟩, _⟩ := extend_guards keys timeout k s
        · exact Or.inl (by rw [Event.after, Call.perform, discard_snd, same])
        · refine Or.inr ⟨?_, Or.inr (Or.inl ⟨Or.inl ⟨keys, timeout, rfl, named⟩, absent, ?_⟩)⟩ <;>
            rwa [Event.after, Call.perform, discard_snd]
      · exact Or.inl (by rw [Event.after, Call.perform, discard_snd, extend_lockOf named timeout s])
  | shrink keys =>
      apply Or.inl
      rw [Event.after, Call.perform, discard_snd, outside_lockOf (shrink_keeps keys) k s]
  | assign keys timeout allItems pairs =>
      obtain ⟨_, members, _⟩ := admissible
      have member : ∀ j, j ∈ allItems ↔ s.hget j ≠ none := fun j => by
        rw [← List.mem_toFinset, members, Finmap.mem_keys, s.mem_pool_iff,
          Option.ne_none_iff_exists']
      rcases assign_guards keys timeout pairs member k with same | ⟨now, named, absent, present⟩
      · exact Or.inl (by rw [Event.after, Call.perform, discard_snd, same])
      · refine Or.inr ⟨?_, Or.inr (Or.inl
          ⟨Or.inr ⟨keys, timeout, allItems, pairs, rfl, named⟩, absent, ?_⟩)⟩ <;>
          rwa [Event.after, Call.perform, discard_snd]
  | clear =>
      apply Or.inl
      rw [Event.after, Call.perform, discard_snd, outside_lockOf clear_keeps k s]
  | mallocKey timeout name cacheTimeout =>
      have handsOut := mallocScript_handsOut timeout.wholeSeconds (name.getD "")
        cacheTimeout.wholeSeconds s
      by_cases returned : Event.Returns false ⟨s, .mallocKey timeout name cacheTimeout⟩ k
      · exact Or.inr ⟨handsOut.now, Or.inr (Or.inr returned)⟩
      · apply Or.inl
        rw [Event.after, Call.perform, mallocKey, Redis.lockOf, Redis.lockOf, handsOut.now]
        by_cases none : ∀ j, (mallocScript false timeout.wholeSeconds (name.getD "")
            cacheTimeout.wholeSeconds s).1 ≠ .ok (some j)
        · rw [handsOut.others none]
        · simp only [ne_eq, not_forall, not_not] at none
          obtain ⟨j, some⟩ := none
          have different : k ≠ j := fun same => returned (same ▸ some)
          rw [handsOut.locks j some, Function.update_of_ne different]
  | freeKeys keys timeout =>
      by_cases named : k ∈ keys
      · refine Or.inr ⟨?_, Or.inl ⟨keys, timeout, rfl, named⟩⟩
        rw [Event.after, Call.perform, discard_snd]
        exact freeKeys_now keys timeout s
      · exact Or.inl (by rw [Event.after, Call.perform, discard_snd, freeKeys_lockOf named timeout s])
  | gc count hscan =>
      apply Or.inl
      rw [Event.after, Call.perform, discard_snd, keeps_lockOf (gc_keeps count hscan) k s]

end Event

/-! ## A lock until it lapses -/

/-- While `lock` has not lapsed it is what `k` is locked with. -/
def HeldUntil (k : String) (lock : StringKey) (s : Redis) : Prop :=
  lock.live s.now = true → s.locks k = some lock

section HeldUntil

variable {k : String} {lock : StringKey} {s s' : Redis} {event : Event}

theorem HeldUntil.advance (held : HeldUntil k lock s) (elapsed : Nat) :
    HeldUntil k lock (s.advance elapsed) := fun live => held (lock.live_antitone live)

theorem HeldUntil.locked (held : HeldUntil k lock s) (live : lock.live s.now = true) :
    s.locked k = true := by
  rw [Redis.locked, Redis.lock?, held live, Option.filter, if_pos live]
  rfl

theorem HeldUntil.of_lockOf (held : HeldUntil k lock s) (same : s'.lockOf k = s.lockOf k) :
    HeldUntil k lock s' := by
  rw [Redis.lockOf, Redis.lockOf, Prod.mk.injEq] at same
  intro live
  rw [same.1] at live
  rw [same.2, held live]

theorem HeldUntil.lapsed (held : HeldUntil k lock event.before)
    (returned : event.Returns false k) : lock.live event.before.now = false := by
  obtain ⟨_, _, _, _, unlocked, _⟩ := event.returns_malloc returned
  by_contra live
  rw [Bool.not_eq_false] at live
  rw [held.locked live] at unlocked
  cases unlocked

theorem HeldUntil.of_lapsed (lapsed : lock.live s.now = false) (now : s'.now = s.now) :
    HeldUntil k lock s' := by
  intro live
  rw [now, lapsed] at live
  cases live

theorem HeldUntil.after (held : HeldUntil k lock event.before)
    (admissible : event.call.Admissible event.before) (notFreed : ¬ event.Frees k)
    (notInserted : ¬ event.Inserts false k) : HeldUntil k lock (event.after false) := by
  rcases event.lockOf_after admissible k with same | ⟨now, freed | inserted | returned⟩
  · exact held.of_lockOf same
  · exact absurd freed notFreed
  · exact absurd inserted notInserted
  · exact .of_lapsed (held.lapsed returned) now

theorem Event.now_after (admissible : event.call.Admissible event.before) :
    (event.after false).now = event.before.now := by
  rcases event.lockOf_after admissible "" with same | ⟨now, _⟩
  · exact congrArg Prod.fst same
  · exact now

theorem Event.heldUntil_of_returns {timeout cacheTimeout : Timeout} {name : Option String}
    (call : event.call = .mallocKey timeout name cacheTimeout) (returned : event.Returns false k) :
    HeldUntil k (event.before.mallocLock timeout.wholeSeconds) (event.after false) := by
  obtain ⟨_, _, _, called, _, locks⟩ := event.returns_malloc returned
  rw [call, Call.mallocKey.injEq] at called
  obtain ⟨rfl, _, _⟩ := called
  intro _
  rw [locks, Function.update_self]

end HeldUntil

theorem HeldUntil.run {s s' : Redis} {events : List Event} {k : String} {lock : StringKey}
    (run : CallRun false s events s') (held : HeldUntil k lock s)
    (undisturbed : ∀ event ∈ events, ¬ event.Frees k ∧ ¬ event.Inserts false k) :
    HeldUntil k lock s' :=
  run.invariant (HeldUntil k lock) (fun event => ¬ event.Frees k ∧ ¬ event.Inserts false k)
    (fun s event s' held allowed step => by
      obtain ⟨⟨elapsed, later⟩, admissible, rfl⟩ := step
      have started : HeldUntil k lock event.before := later ▸ held.advance elapsed
      exact started.after admissible allowed.1 allowed.2)
    held undisturbed

/-- A key that was returned is not returned again for the whole seconds of its timeout, and never
when these are not positive, unless it is freed or inserted in between. -/
theorem mallocKey_exclusive {start final : Redis} {before between after : List Event}
    {first second : Event} {k : String} {timeout cacheTimeout : Timeout} {name : Option String}
    (run : CallRun false start (before ++ first :: (between ++ second :: after)) final)
    (call : first.call = .mallocKey timeout name cacheTimeout) (got : first.Returns false k)
    (undisturbed : ∀ event ∈ between, ¬ event.Frees k ∧ ¬ event.Inserts false k)
    (again : second.Returns false k) :
    0 < timeout.wholeSeconds ∧
      first.before.now + 1000 * timeout.wholeSeconds.toNat ≤ second.before.now := by
  obtain ⟨s₀, _, run⟩ := run.of_append
  obtain ⟨s₁, ⟨_, _, rfl⟩, run⟩ := Run.cons_iff.mp run
  obtain ⟨s₂, middle, run⟩ := run.of_append
  obtain ⟨_, ⟨⟨elapsed, later⟩, _⟩, _⟩ := Run.cons_iff.mp run
  have kept := HeldUntil.run middle (first.heldUntil_of_returns call got) undisturbed
  have started : HeldUntil k _ second.before := later ▸ kept.advance elapsed
  have lapsed := started.lapsed again
  rw [Redis.mallocLock] at lapsed
  by_cases positive : 0 < timeout.wholeSeconds
  · rw [if_pos positive] at lapsed
    exact ⟨positive, not_lt.mp (of_decide_eq_false lapsed)⟩
  · rw [if_neg positive] at lapsed
    cases lapsed

/-- One key, handed out for `timeout`; `gc` scans it `wait` milliseconds later. -/
def soleStart : Event := ⟨Redis.empty 0, .extend ["k"] none⟩

def soleMalloc (timeout : Timeout) : Event :=
  ⟨(soleStart.after false).advance 1000, .mallocKey timeout none (.int 60)⟩

def soleGc (timeout : Timeout) (wait : Nat) : Event :=
  ⟨((soleMalloc timeout).after false).advance wait, .gc 10 fun _ _ => ⟨"0", ["k"]⟩⟩

def soleAgain (timeout : Timeout) (wait : Nat) : Event :=
  ⟨((soleGc timeout wait).after false).advance 100, .mallocKey timeout none (.int 60)⟩

theorem sole_run (timeout : Timeout) (wait : Nat)
    (member : ((soleGc timeout wait).before.pool.keys) = {"k"}) :
    CallRun false (Redis.empty 0)
      ([soleStart] ++ soleMalloc timeout :: ([soleGc timeout wait] ++ soleAgain timeout wait :: []))
      ((soleAgain timeout wait).after false) :=
  .fire ⟨⟨0, rfl⟩, trivial, rfl⟩ (.fire ⟨⟨1000, rfl⟩, trivial, rfl⟩
    (.fire ⟨⟨wait, rfl⟩, fun _ _ => ⟨by simp, by simp [member]⟩, rfl⟩
      (.fire ⟨⟨100, rfl⟩, trivial, rfl⟩ (.done _))))

theorem mallocKey_exclusive_sole :
    0 < (Timeout.int 30).wholeSeconds ∧
      (soleMalloc (.int 30)).before.now + 1000 * (Timeout.int 30).wholeSeconds.toNat ≤
        (soleAgain (.int 30) 31000).before.now :=
  mallocKey_exclusive (sole_run (.int 30) 31000 (by decide)) rfl rfl
    (by
      intro event inBetween
      rw [List.mem_singleton.mp inBetween]
      exact Event.gc_undisturbed false rfl)
    rfl

def secondAndAHalf : Timeout := .float ⟨3, 2, by decide, by decide⟩

/-- `int(1.5)` is one second: the key is returned again within the second and a half. -/
theorem fractional_timeout_cut :
    CallRun false (Redis.empty 0)
        ([soleStart] ++ soleMalloc secondAndAHalf ::
          ([soleGc secondAndAHalf 1100] ++ soleAgain secondAndAHalf 1100 :: []))
        ((soleAgain secondAndAHalf 1100).after false) ∧
      (soleMalloc secondAndAHalf).Returns false "k" ∧
      (∀ event ∈ [soleGc secondAndAHalf 1100], ¬ event.Frees "k" ∧ ¬ event.Inserts false "k") ∧
      (soleAgain secondAndAHalf 1100).Returns false "k" ∧
      ((soleAgain secondAndAHalf 1100).before.now : Rat) <
        (soleMalloc secondAndAHalf).before.now + 1000 * secondAndAHalf.toSeconds := by
  refine ⟨sole_run _ _ (by decide), rfl, fun event inBetween => ?_, rfl, ?_⟩
  · rw [List.mem_singleton.mp inBetween]
    exact Event.gc_undisturbed false rfl
  · have again : (soleAgain secondAndAHalf 1100).before.now = 2200 := rfl
    have first : (soleMalloc secondAndAHalf).before.now = 1000 := rfl
    have seconds : secondAndAHalf.toSeconds = 3 / 2 :=
      calc secondAndAHalf.toSeconds = ((3 : Int) : Rat) / ((2 : Nat) : Rat) :=
            (Rat.num_div_den _).symm
        _ = 3 / 2 := by norm_num
    rw [again, first, seconds]
    norm_num

end RedisAllocator

import RedisAllocator.Allocator.Exclusivity
import RedisAllocator.Objects.Session
import RedisAllocator.Pool.Sweep

/-!
# The keys of one allocation object

What `malloc` handed to an object and what its `refresh` obtains later.  A
refresh puts a new key in the place of the old one, and nothing gives the old
one back; `release` frees the key of the moment, once.
-/

set_option autoImplicit false

namespace RedisAllocator

open AbortableScript AbortableScript.Script LabelledRun

/-- `k` has no live lock, and waits in the free list if it is a member. -/
def Redis.IsBack (s : Redis) (k : String) : Prop :=
  s.locked k = false ∧ ((s.hget k).isSome → s.queued k = true)

/-! ## Calls that leave a key alone -/

/-- No lookup of `call` leads to `k`, and `call` does not return it. -/
def Call.Spares (call : Call) (k : String) (s : Redis) : Prop :=
  match call with
  | .mallocKey _ name _ =>
    s.boundKey (name.getD "") ≠ some k ∧ (call.perform false s).1 ≠ .ok (some k)
  | _ => True

section Spares

variable {s s' : Redis} {p : FreePool String} {k : String}

theorem Represents.isBack_iff (rep : Represents s p) :
    s.IsBack k ↔ s.locked k = false ∧ p.Waits k := by
  rw [Redis.IsBack, rep.hget_isSome, rep.queued_iff]
  rfl

theorem Redis.locked_unlockAll {keys : List String} (unlocked : s.locked k = false) :
    (s.unlockAll keys).locked k = false := by
  rw [locked, lock?, unlockAll] at *
  by_cases named : k ∈ keys
  · simp [named]
  · simpa [named] using unlocked

theorem Completes.isBack {α : Type} {x : LuaScript α} {a : α} {t : Redis}
    (done : Completes x s a p t) (unlocked : t.locked k = false) (waits : p.Waits k) :
    (x s).2.IsBack k := by
  obtain ⟨s', run, rep, frame⟩ := done
  rw [run, rep.isBack_iff, Redis.locked_of_outside frame]
  exact ⟨unlocked, waits⟩

theorem mallocKey_isBack (rep : Represents s p) (timeout cacheTimeout : Timeout)
    (name : Option String) (back : s.IsBack k) (unbound : s.boundKey (name.getD "") ≠ some k)
    (notReturned : (mallocKey false timeout name cacheTimeout s).1 ≠ .ok (some k)) :
    (mallocKey false timeout name cacheTimeout s).2.IsBack k := by
  obtain ⟨unlocked, waits⟩ := rep.isBack_iff.mp back
  cases bound : s.boundKey (name.getD "") with
  | some j =>
      rw [mallocKey] at notReturned ⊢
      have other : k ≠ j := fun same => unbound (same ▸ bound)
      by_cases positive : 0 < timeout.wholeSeconds
      · apply (mallocScript_binds_locks _ _ rep bound positive).isBack _ (waits.take other)
        rw [Redis.locked_putLock_of_ne _ other, Redis.locked_refreshed]
        exact unlocked
      · obtain ⟨s', run, rep', frame⟩ :=
          mallocScript_binds_refused _ cacheTimeout.wholeSeconds rep bound (not_lt.mp positive)
        rw [run, rep'.isBack_iff, Redis.locked_of_outside frame, Redis.locked_refreshed]
        exact ⟨unlocked, waits.take other⟩
  | none =>
      have started := mallocKey_unusable false timeout cacheTimeout bound
      obtain ⟨pool, head, tail, now, _, locks⟩ := s.dropStale_frame (name.getD "")
      have rep₁ : Represents (s.dropStale (name.getD "")) p :=
        rep.of_outside_pool pool head tail
      have unlocked₁ : (s.dropStale (name.getD "")).locked k = false := by
        rw [Redis.locked, Redis.lock?, locks, now]
        exact unlocked
      obtain ⟨p', done, queue, expiry⟩ := mallocPop_queue false timeout.wholeSeconds
        cacheTimeout.wholeSeconds (name.getD "") rep₁
      obtain ⟨s', run, rep', frame⟩ := done
      rw [started, run] at notReturned
      have other : p.available (s.dropStale (name.getD "")).isExpiryInvalid
          (s.dropStale (name.getD "")).locked ≠ some k := fun first => notReturned (by rw [first])
      rw [started, run, rep'.isBack_iff, Redis.locked_of_outside frame, Redis.locked, Redis.lock?,
        Redis.now_handedOut, Redis.locks_handedOut, if_neg (fun both => other both.2)]
      refine ⟨unlocked₁, fun isMember => ?_⟩
      rw [if_neg Bool.false_ne_true, List.append_nil] at queue
      rw [expiry] at isMember
      rw [queue]
      exact waits.afterPop unlocked₁ other isMember

/-- Whatever is done to the pool, a key that is back stays so until it is handed out. -/
theorem isBack_perform {call : Call} (sound : AllSound s p) (admissible : call.Admissible s)
    (spares : call.Spares k s) (back : s.IsBack k) : (call.perform false s).2.IsBack k := by
  have rep := sound.rep
  obtain ⟨unlocked, waits⟩ := rep.isBack_iff.mp back
  cases call with
  | mallocKey timeout name cacheTimeout =>
      exact mallocKey_isBack rep timeout cacheTimeout name back spares.1 spares.2
  | extend keys timeout =>
      rw [Call.perform, discard_snd]
      by_cases accepted : validateKeys keys = .ok ()
      · exact (extend_completes rep accepted timeout).isBack (Redis.locked_unlockAll unlocked)
          (waits.joinAll _ _)
      · rw [extend_refused accepted]
        exact back
  | shrink keys =>
      rw [Call.perform, discard_snd]
      exact (shrink_completes rep keys).isBack unlocked (waits.removeAll _)
  | assign keys timeout allItems pairs =>
      rw [Call.perform, discard_snd]
      obtain ⟨unique, members, once, listed⟩ := rep.listings admissible
      by_cases accepted : validateKeys keys = .ok ()
      · exact (assign_completes rep accepted unique members once listed timeout).isBack
          (Redis.locked_unlockAll unlocked) (waits.assign _ _ _ _)
      · rw [assign_refused accepted]
        exact back
  | clear =>
      rw [Call.perform, discard_snd]
      exact (clear_completes s).isBack unlocked fun isMember => by cases isMember
  | freeKeys keys timeout =>
      rw [Call.perform, discard_snd]
      exact (freeKeys_completes rep (fun k present => sound.unlocked k present trivial) keys
        timeout).isBack (Redis.locked_unlockAll unlocked) (waits.giveBackAll _ _ _)
  | gc count hscan =>
      rw [Call.perform, discard_snd]
      by_cases positive : 0 < count
      · obtain ⟨_, done⟩ := gc_collects positive hscan rep fun cursor =>
          FreePool.visits_of_nodup (admissible cursor count).1 fun k inItems =>
            (rep.mem_keys_iff k).mp ((admissible cursor count).2 (List.mem_toFinset.mpr inItems))
        exact done.isBack unlocked (waits.collectAll unlocked _)
      · rw [RedisAllocator.gc, if_neg positive]
        exact back

end Spares

/-! ## Refreshing and releasing -/

/-- The pool, one allocation object, and every key it was given so far. -/
structure Lease where
  redis : Redis
  object : AllocatorObject
  obtained : List String

/-- `refresh` starts with a pool update and a `gc`, which are pool calls like those of other
clients; what it does with its object is one `malloc_key`. -/
inductive LeaseAct
  | pool (call : Call)
  | refresh (timeout cacheTimeout : Timeout)
  | release (timeout : Int)

structure LeaseEvent where
  before : Lease
  act : LeaseAct

namespace LeaseEvent

variable (allocator : Allocator) (event : LeaseEvent)

def step? : Option Step :=
  match event.act with
  | .pool call => some (.pool call)
  | .refresh timeout cacheTimeout =>
    some (.pool (.mallocKey timeout event.before.object.name cacheTimeout))
  | .release timeout => (event.before.object.release timeout).head?

def script : LuaScript (Option String) :=
  match event.step? with
  | some step => step.script allocator
  | none => pure none

def reply : Except Failure (Option String) := (event.script allocator event.before.redis).1

/-- A refresh that obtains a key takes it over and forgets the old one; only `release` sets
`_released`. -/
def after : Lease where
  redis := (event.script allocator event.before.redis).2
  object := match event.act, event.reply allocator with
    | .refresh _ _, .ok (some key) => { event.before.object with key := key }
    | .release _, .ok _ => { event.before.object with released := true }
    | _, _ => event.before.object
  obtained := match event.act, event.reply allocator with
    | .refresh _ _, .ok (some key) => key :: event.before.obtained
    | _, _ => event.before.obtained

def Spares : Prop :=
  ∀ call, event.act = .pool call → call.Admissible event.before.redis ∧
    ∀ k ∈ event.before.obtained, call.Spares k event.before.redis

/-- A refresh finds nothing to hand out: no usable binding and no usable key in the free list, or a
binding whose lock would be refused. -/
def ComesAwayEmpty (timeout : Timeout) : Prop :=
  let s := event.before.redis
  match s.boundKey (event.before.object.name.getD "") with
  | none => ∀ k, s.queued k = true → s.skips k = true
  | some _ => timeout.toSeconds < 1

/-- The act drops no key that nobody gives back: a refresh obtains nothing, or comes before the
release and leaves a key that is back already or stays the object's; a release frees a key that is
locked or back, or has been made before. -/
def KeepsTrack : Prop :=
  let s := event.before.redis
  let object := event.before.object
  match event.act with
  | .pool _ => True
  | .refresh timeout _ =>
    (∀ k ∈ event.before.obtained, s.boundKey (object.name.getD "") = some k →
      1 ≤ timeout.toSeconds) ∧
    (event.ComesAwayEmpty timeout ∨ object.released = false ∧
      (s.IsBack object.key ∨ s.boundKey (object.name.getD "") = some object.key))
  | .release _ => object.released = true ∨ s.locked object.key = true ∨ s.IsBack object.key

end LeaseEvent

def LeaseStep (allocator : Allocator) (lease : Lease) (event : LeaseEvent) (lease' : Lease) :
    Prop :=
  (∃ elapsed, event.before = { lease with redis := lease.redis.advance elapsed }) ∧
  event.Spares ∧ lease' = event.after allocator

abbrev LeaseRun (allocator : Allocator) : Lease → List LeaseEvent → Lease → Prop :=
  Run (LeaseStep allocator)

/-- Every key obtained is back, but for the one a later release frees. -/
structure Lease.Tracked (lease : Lease) : Prop where
  sound : ∃ p, AllSound lease.redis p
  back : ∀ k ∈ lease.obtained,
    k = lease.object.key ∧ lease.object.released = false ∨ lease.redis.IsBack k

section Lease

variable {allocator : Allocator} {lease lease' : Lease} {event : LeaseEvent}

theorem Redis.IsBack.advance {s : Redis} {k : String} (back : s.IsBack k) (elapsed : Nat) :
    (s.advance elapsed).IsBack k := ⟨s.locked_advance back.1 elapsed, back.2⟩

theorem Lease.Tracked.advance (tracked : lease.Tracked) (elapsed : Nat) :
    Lease.Tracked { lease with redis := lease.redis.advance elapsed } where
  sound := by
    obtain ⟨p, sound⟩ := tracked.sound
    exact ⟨p, sound.advance elapsed⟩
  back := fun k obtained => (tracked.back k obtained).imp_right (·.advance elapsed)

theorem mallocKey_returns_bound {s : Redis} {p : FreePool String} (rep : Represents s p)
    {timeout cacheTimeout : Timeout} {name : Option String} {k : String}
    (bound : s.boundKey (name.getD "") = some k) (long : 1 ≤ timeout.toSeconds) :
    (mallocKey false timeout name cacheTimeout s).1 = .ok (some k) := by
  have positive : 0 < timeout.wholeSeconds := by
    rw [Timeout.wholeSeconds, truncate_pos_iff]
    exact long
  obtain ⟨s', run, _⟩ :=
    mallocScript_binds_locks _ cacheTimeout.wholeSeconds rep bound positive
  rw [mallocKey, run]

theorem LeaseEvent.not_comesAwayEmpty {p : FreePool String} (rep : Represents event.before.redis p)
    {timeout cacheTimeout : Timeout} {k : String}
    (returned : (mallocKey false timeout event.before.object.name cacheTimeout
      event.before.redis).1 = .ok (some k)) : ¬ event.ComesAwayEmpty timeout := by
  intro empty
  rw [ComesAwayEmpty] at empty
  rw [mallocKey] at returned
  split at empty
  · rename_i unbound
    have first := mallocScript_pops_available _ _ false rep unbound returned
    have present : k ∈ p.free := List.mem_of_find?_eq_some first
    have skipped := empty k ((rep.queued_iff k).mpr present)
    have usable := List.find?_some first
    rw [FreePool.skips, ← rep.expiryOf] at usable
    rw [Redis.skips] at skipped
    simp [skipped] at usable
  · rename_i j bound
    have refused : timeout.wholeSeconds ≤ 0 := by
      rw [Timeout.wholeSeconds, ← not_lt, truncate_pos_iff]
      exact not_le.mpr empty
    obtain ⟨s', run, _⟩ := mallocScript_binds_refused _ cacheTimeout.wholeSeconds rep bound refused
    rw [run] at returned
    cases returned

theorem LeaseEvent.refresh_isBack {p : FreePool String} (rep : Represents event.before.redis p)
    {timeout : Timeout} (cacheTimeout : Timeout) {k : String} (back : event.before.redis.IsBack k)
    (long : event.before.redis.boundKey (event.before.object.name.getD "") = some k →
      1 ≤ timeout.toSeconds)
    (notReturned : (mallocKey false timeout event.before.object.name cacheTimeout
      event.before.redis).1 ≠ .ok (some k)) :
    (mallocKey false timeout event.before.object.name cacheTimeout
      event.before.redis).2.IsBack k := by
  apply mallocKey_isBack rep timeout cacheTimeout _ back _ notReturned
  intro bound
  exact notReturned (mallocKey_returns_bound rep bound (long bound))

theorem LeaseEvent.script_pool (nonShared : allocator.shared = false) {call : Call}
    (step : event.step? = some (.pool call)) : event.script allocator = call.perform false := by
  rw [script, step, ← nonShared]
  rfl

theorem LeaseEvent.after_empty {timeout cacheTimeout : Timeout}
    (act : event.act = .refresh timeout cacheTimeout)
    (notReturned : ∀ new, event.reply allocator ≠ .ok (some new)) :
    (event.after allocator).object = event.before.object ∧
      (event.after allocator).obtained = event.before.obtained := by
  rw [LeaseEvent.after, act]
  cases reply : event.reply allocator with
  | error failure => exact ⟨rfl, rfl⟩
  | ok found =>
      cases found with
      | none => exact ⟨rfl, rfl⟩
      | some new => exact absurd reply (notReturned new)

theorem Lease.Tracked.refresh (nonShared : allocator.shared = false)
    (tracked : event.before.Tracked) {timeout cacheTimeout : Timeout}
    (act : event.act = .refresh timeout cacheTimeout) (keeps : event.KeepsTrack) :
    (event.after allocator).Tracked := by
  obtain ⟨⟨p, sound⟩, back⟩ := tracked
  have rep := sound.rep
  have script : event.script allocator =
      mallocKey false timeout event.before.object.name cacheTimeout :=
    LeaseEvent.script_pool nonShared (by rw [LeaseEvent.step?, act])
  obtain ⟨_, p', sound', _⟩ := call_sound sound false
    (.mallocKey timeout event.before.object.name cacheTimeout) trivial
    (fun _ _ other => by cases other)
  rw [LeaseEvent.KeepsTrack, act] at keeps
  obtain ⟨long, either⟩ := keeps
  refine ⟨⟨p', by rw [LeaseEvent.after, script]; exact sound'⟩, ?_⟩
  have still : ∀ k ∈ event.before.obtained, event.before.redis.IsBack k →
      event.reply allocator ≠ .ok (some k) → (event.after allocator).redis.IsBack k := by
    intro k obtained isBack notReturned
    rw [LeaseEvent.reply, script] at notReturned
    rw [LeaseEvent.after, script]
    exact LeaseEvent.refresh_isBack rep cacheTimeout isBack (long k obtained) notReturned
  by_cases obtains : ∃ new, event.reply allocator = .ok (some new)
  · obtain ⟨new, reply⟩ := obtains
    have taken : (event.after allocator).object = { event.before.object with key := new } ∧
        (event.after allocator).obtained = new :: event.before.obtained := by
      simp [LeaseEvent.after, act, reply]
    rw [taken.1, taken.2]
    have returned := reply
    rw [LeaseEvent.reply, script] at returned
    have notEmpty := LeaseEvent.not_comesAwayEmpty rep returned
    obtain ⟨unreleased, left⟩ := either.resolve_left notEmpty
    intro k obtained
    by_cases isNew : k = new
    · exact Or.inl ⟨isNew, unreleased⟩
    · have before : k ∈ event.before.obtained :=
        (List.mem_cons.mp obtained).resolve_left isNew
      have notReturned : event.reply allocator ≠ .ok (some k) := by
        rw [reply]
        intro same
        cases same
        exact isNew rfl
      apply Or.inr
      apply still k before _ notReturned
      rcases back k before with ⟨isKey, _⟩ | isBack
      · rw [isKey] at before ⊢
        rcases left with isBack | bound
        · exact isBack
        · rw [LeaseEvent.reply, script, isKey] at notReturned
          exact absurd (mallocKey_returns_bound rep bound (long _ before bound)) notReturned
      · exact isBack
  · have notReturned : ∀ new, event.reply allocator ≠ .ok (some new) :=
      fun new reply => obtains ⟨new, reply⟩
    obtain ⟨sameObject, sameObtained⟩ := LeaseEvent.after_empty act notReturned
    rw [sameObject, sameObtained]
    intro k obtained
    exact (back k obtained).imp_right fun isBack => still k obtained isBack (notReturned k)

theorem Lease.Tracked.pool (nonShared : allocator.shared = false) (tracked : event.before.Tracked)
    {call : Call} (act : event.act = .pool call) (spares : event.Spares) :
    (event.after allocator).Tracked := by
  obtain ⟨⟨p, sound⟩, back⟩ := tracked
  obtain ⟨admissible, spared⟩ := spares call act
  have script : event.script allocator = call.perform false :=
    LeaseEvent.script_pool nonShared (by rw [LeaseEvent.step?, act])
  obtain ⟨_, p', sound', _⟩ := call_sound sound false call admissible (fun _ _ _ _ _ => trivial)
  have same : (event.after allocator).object = event.before.object ∧
      (event.after allocator).obtained = event.before.obtained := by
    simp [LeaseEvent.after, act]
  refine ⟨⟨p', by rw [LeaseEvent.after, script]; exact sound'⟩, ?_⟩
  rw [same.1, same.2, LeaseEvent.after, script]
  intro k obtained
  exact (back k obtained).imp_right
    fun isBack => isBack_perform sound admissible (spared k obtained) isBack

theorem Lease.Tracked.release (nonShared : allocator.shared = false)
    (tracked : event.before.Tracked) {timeout : Int} (act : event.act = .release timeout)
    (keeps : event.KeepsTrack) :
    (event.after allocator).Tracked ∧ (event.after allocator).object.released = true := by
  obtain ⟨⟨p, sound⟩, back⟩ := tracked
  rw [LeaseEvent.KeepsTrack, act] at keeps
  have finished (replied : event.reply allocator = .ok none) :
      (event.after allocator).object = { event.before.object with released := true } ∧
        (event.after allocator).obtained = event.before.obtained := by
    simp [LeaseEvent.after, act, replied]
  cases released : event.before.object.released with
  | true =>
      have noStep : event.step? = none := by
        simp [LeaseEvent.step?, act, AllocatorObject.release, released]
      have script : event.script allocator event.before.redis = (.ok none, event.before.redis) := by
        rw [LeaseEvent.script, noStep]
        rfl
      obtain ⟨object, obtained⟩ := finished (by rw [LeaseEvent.reply, script])
      refine ⟨⟨⟨p, by rw [LeaseEvent.after, script]; exact sound⟩, ?_⟩, by rw [object]⟩
      rw [obtained]
      intro k inObtained
      rcases back k inObtained with ⟨_, unreleased⟩ | isBack
      · rw [released] at unreleased
        cases unreleased
      · rw [LeaseEvent.after, script]
        exact Or.inr isBack
  | false =>
      have script : event.script allocator =
          (Call.freeKeys [event.before.object.key] timeout).perform false :=
        LeaseEvent.script_pool nonShared
          (by simp [LeaseEvent.step?, act, AllocatorObject.release, released])
      have freed := freeKeys_completes sound.rep (fun k present => sound.unlocked k present trivial)
        [event.before.object.key] timeout
      have ⟨s', run, _⟩ := freed
      obtain ⟨object, obtained⟩ := finished (by
        rw [LeaseEvent.reply, script, Call.perform, bind_ok run]
        rfl)
      obtain ⟨_, p', sound', _⟩ := call_sound sound false
        (.freeKeys [event.before.object.key] timeout) trivial (fun _ _ _ _ _ => trivial)
      refine ⟨⟨⟨p', by rw [LeaseEvent.after, script]; exact sound'⟩, ?_⟩, by rw [object]⟩
      rw [obtained, LeaseEvent.after, script]
      intro k inObtained
      apply Or.inr
      rcases back k inObtained with ⟨rfl, _⟩ | isBack
      · rw [released] at keeps
        have waits : event.before.redis.locked event.before.object.key = true ∨
            p.Waits event.before.object.key :=
          (keeps.resolve_left Bool.false_ne_true).imp_right
            fun isBack => (sound.rep.isBack_iff.mp isBack).2
        rw [Call.perform, discard_snd]
        apply freed.isBack _ (FreePool.waits_giveBack _ waits)
        rw [Redis.locked, Redis.lock?, Redis.unlockAll]
        simp
      · exact isBack_perform sound trivial trivial isBack

theorem LeaseStep.tracked (nonShared : allocator.shared = false) (tracked : lease.Tracked)
    (keeps : event.KeepsTrack) (step : LeaseStep allocator lease event lease') :
    lease'.Tracked := by
  obtain ⟨⟨elapsed, later⟩, spares, rfl⟩ := step
  have started : event.before.Tracked := later ▸ tracked.advance elapsed
  cases act : event.act with
  | pool call => exact started.pool nonShared act spares
  | refresh timeout cacheTimeout => exact started.refresh nonShared act keeps
  | release timeout => exact (started.release nonShared act keeps).1

/-- Whatever a run makes of the object, if it keeps track and ends with a release, no key the object
ever obtained is locked, and those that are members wait in the free list. -/
theorem lease_leaksNothing (nonShared : allocator.shared = false) {s s₁ : Redis} {L : List String}
    (wf : WellFormed s L) (unlocked : ∀ k ∈ L, s.locked k = false) {timeout cacheTimeout : Timeout}
    {name : Option String} {k : String}
    (got : mallocKey false timeout name cacheTimeout s = (.ok (some k), s₁))
    {events : List LeaseEvent} {last : LeaseEvent} {final : Lease} {duration : Int}
    (isRelease : last.act = .release duration)
    (run : LeaseRun allocator ⟨s₁, ⟨k, name, false⟩, [k]⟩ (events ++ [last]) final)
    (keeps : ∀ event ∈ events ++ [last], event.KeepsTrack) :
    ∀ j ∈ final.obtained, final.redis.IsBack j := by
  have sound : AllSound s wf.pool := ⟨wf.represents, fun j present _ => unlocked j present⟩
  obtain ⟨_, p', sound', _⟩ := call_sound sound false (.mallocKey timeout name cacheTimeout) trivial
    (fun _ _ other => by cases other)
  have given : Lease.Tracked ⟨s₁, ⟨k, name, false⟩, [k]⟩ := by
    refine ⟨⟨p', ?_⟩, fun j obtained => Or.inl ⟨List.mem_singleton.mp obtained, rfl⟩⟩
    rw [Call.perform, got] at sound'
    exact sound'
  rw [List.forall_mem_append] at keeps
  obtain ⟨middle, earlier, later⟩ := run.of_append
  have tracked : middle.Tracked := earlier.invariant Lease.Tracked LeaseEvent.KeepsTrack
    (fun _ _ _ tracked keeps step => step.tracked nonShared tracked keeps) given keeps.1
  obtain ⟨_, ⟨⟨elapsed, started⟩, _, rfl⟩, finished⟩ := Run.cons_iff.mp later
  cases finished
  have before : last.before.Tracked := started ▸ tracked.advance elapsed
  obtain ⟨after, released⟩ :=
    before.release nonShared isRelease (keeps.2 last (List.mem_singleton_self last))
  intro j obtained
  refine (after.back j obtained).resolve_left fun held => ?_
  rw [released] at held
  cases held.2

end Lease

/-! ### One refresh -/

instance (s : Redis) (k : String) : Decidable (s.IsBack k) := inferInstanceAs (Decidable (_ ∧ _))

def leaseAllocator : Allocator := ⟨"app", "allocator", false⟩

def firstLease : Lease :=
  ⟨(mallocKey false (.int 30) none (.int 60) sampleChain).2, ⟨"a", none, false⟩, ["a"]⟩

/-- A minute later `gc` has deleted `a`, whose expiry was five seconds, and the refresh obtains
`b`. -/
def patientGc : LeaseEvent :=
  ⟨{ firstLease with redis := firstLease.redis.advance 60000 },
    .pool (.gc 10 fun _ _ => ⟨"0", ["b", "a"]⟩)⟩

def patientRefresh : LeaseEvent :=
  ⟨patientGc.after leaseAllocator, .refresh (.int 30) (.int 60)⟩

def patientRelease : LeaseEvent := ⟨patientRefresh.after leaseAllocator, .release (-1)⟩

theorem patient_run : LeaseRun leaseAllocator firstLease
    ([patientGc, patientRefresh] ++ [patientRelease]) (patientRelease.after leaseAllocator) := by
  have members : ["b", "a"].toFinset ⊆ patientGc.before.redis.pool.keys := by decide
  refine .fire ⟨⟨60000, rfl⟩, ?_, rfl⟩ (.fire ⟨⟨0, rfl⟩, ?_, rfl⟩
    (.fire ⟨⟨0, rfl⟩, ?_, rfl⟩ (.done _)))
  · rintro _ ⟨⟩
    exact ⟨fun _ _ => ⟨by simp, members⟩, fun _ _ => trivial⟩
  · rintro _ ⟨⟩
  · rintro _ ⟨⟩

theorem lease_leaksNothing_patient :
    (patientRelease.after leaseAllocator).redis.IsBack "a" ∧
      (patientRelease.after leaseAllocator).redis.IsBack "b" := by
  have refreshKeeps : patientRefresh.KeepsTrack :=
    ⟨by decide, Or.inr ⟨rfl, Or.inl (by decide)⟩⟩
  have releaseKeeps : patientRelease.KeepsTrack := Or.inr (Or.inl (by decide))
  have got : mallocKey false (.int 30) none (.int 60) sampleChain =
      (.ok (some "a"), firstLease.redis) := rfl
  have keeps : ∀ event ∈ [patientGc, patientRefresh] ++ [patientRelease], event.KeepsTrack := by
    simp only [List.cons_append, List.nil_append, List.forall_mem_cons, List.not_mem_nil,
      false_implies, implies_true, and_true]
    exact ⟨trivial, refreshKeeps, releaseKeeps⟩
  have back :=
    lease_leaksNothing rfl sampleChain_wellFormed (by decide) got rfl patient_run keeps
  exact ⟨back "a" (by decide), back "b" (by decide)⟩

def earlyRefresh : LeaseEvent := ⟨firstLease, .refresh (.int 30) (.int 60)⟩

def earlyRelease : LeaseEvent := ⟨earlyRefresh.after leaseAllocator, .release (-1)⟩

/-- A refresh while the lock is held obtains `b`; the release frees `b`, and nobody frees `a`. -/
theorem refresh_leaks_old_key :
    mallocKey false (.int 30) none (.int 60) sampleChain = (.ok (some "a"), firstLease.redis) ∧
    LeaseRun leaseAllocator firstLease [earlyRefresh, earlyRelease]
      (earlyRelease.after leaseAllocator) ∧
    (earlyRelease.after leaseAllocator).obtained = ["b", "a"] ∧
    (earlyRelease.after leaseAllocator).redis.locked "a" = true := by
  have alone : earlyRefresh.Spares ∧ earlyRelease.Spares := by
    constructor <;>
    · intro call act
      cases act
  exact ⟨rfl, .fire ⟨⟨0, rfl⟩, alone.1, rfl⟩ (.fire ⟨⟨0, rfl⟩, alone.2, rfl⟩ (.done _)), by decide,
    by decide⟩

end RedisAllocator

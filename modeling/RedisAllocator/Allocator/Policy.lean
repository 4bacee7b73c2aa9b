import RedisAllocator.Allocator.Exclusivity

/-!
# The default policy and its pool refreshes

`RedisAllocatorUpdater` and the two refreshes of `DefaultRedisAllocatorPolicy`,
run by any number of processes between the `malloc_key` and `gc` calls of any
number of clients.  `refresh_pool` ends in one `assign` or `extend`;
`refresh_pool_all` is a `clear` and, later, a refresh over all params.  A key
that is in the pool when a refresh names it keeps its lock.  One that `clear`,
an eviction or its expiry has taken out comes back without.
-/

set_option autoImplicit false

namespace RedisAllocator

open AbortableScript AbortableScript.Script LabelledRun

/-! ## The updater -/

/-- `RedisAllocatorUpdater`: there are params, and the index points at one. -/
structure Updater (Param : Type) where
  params : List Param
  index : Nat
  inRange : index < params.length

section Updater

variable {Param Error : Type}

/-- `__call__`: the index moves on before `fetch` runs, so also when it raises. -/
def Updater.call (updater : Updater Param) (fetch : Param → Except Error (List String)) :
    Except Error (List String) × Updater Param :=
  (fetch (updater.params.get ⟨updater.index, updater.inRange⟩),
    { updater with
      index := (updater.index + 1) % updater.params.length
      inRange := Nat.mod_lt _ (Nat.lt_of_le_of_lt (Nat.zero_le _) updater.inRange) })

/-- `for _ in range(n): keys.extend(self.updater())`; `fetch` also sees the rounds left. -/
def Updater.collect (fetch : Nat → Param → Except Error (List String)) :
    Nat → Updater Param → List String → Except Error (List String) × Updater Param
  | 0, updater, keys => (.ok keys, updater)
  | n + 1, updater, keys =>
    match updater.call (fetch n) with
    | (.error error, updater') => (.error error, updater')
    | (.ok fetched, updater') => updater'.collect fetch n (keys ++ fetched)

end Updater

/-! ## `DefaultRedisAllocatorPolicy` -/

structure Policy (Param : Type) where
  expiryDuration : Int
  updater : Option (Updater Param)

/-- What the outside decides in one refresh: the fetched keys, the shuffle, and the orders of
`HKEYS` and `pairs` in case of an `assign`. -/
structure Refresh (Param Error : Type) where
  fetch : Nat → Param → Except Error (List String)
  shuffle : List String → List String
  allItems : List String
  pairs : List String

section Policy

variable {Param Error : Type}

def Policy.refreshPool (policy : Policy Param) (refresh : Refresh Param Error) (n : Nat) :
    Option Call × Policy Param :=
  match policy.updater with
  | none => (none, policy)
  | some updater =>
    match updater.collect refresh.fetch n [] with
    | (.error _, updater') => (none, { policy with updater := some updater' })
    | (.ok keys, updater') =>
      let policy' := { policy with updater := some updater' }
      if keys = [] then (none, policy')
      else if updater.params.length = 1 then
        (some (.assign (refresh.shuffle keys) policy.expiryDuration refresh.allItems refresh.pairs),
          policy')
      else (some (.extend (refresh.shuffle keys) (some policy.expiryDuration)), policy')

/-- `n=len(self.updater.params)`; without an updater the attribute access raises. -/
def Policy.rounds (policy : Policy Param) : Nat :=
  match policy.updater with
  | none => 0
  | some updater => updater.params.length

theorem Policy.refreshPool_call {policy : Policy Param} {refresh : Refresh Param Error} {n : Nat}
    {call : Call} (made : (policy.refreshPool refresh n).1 = some call) :
    (∃ keys timeout, call = .extend keys timeout) ∨
      ∃ keys timeout allItems pairs, call = .assign keys timeout allItems pairs := by
  rw [refreshPool] at made
  split at made
  · cases made
  · split at made
    · cases made
    · simp only at made
      split at made
      · cases made
      · split at made
        · exact Or.inr ⟨_, _, _, _, (Option.some.inj made).symm⟩
        · exact Or.inl ⟨_, _, (Option.some.inj made).symm⟩

end Policy

/-! ## Processes that refresh while clients allocate -/

/-- The pool, the policy object of each process, and how many `refresh_pool_all` of a process
have cleared the pool and not refreshed it yet. -/
structure Deployment (Process Param : Type) where
  redis : Redis
  policies : Process → Policy Param
  cleared : Process → Nat

inductive Turn (Process Param Error : Type)
  | malloc (timeout : Timeout) (name : Option String) (cacheTimeout : Timeout)
  | gc (count : Int) (hscan : String → Int → ScanReply)
  | refreshPool (process : Process) (refresh : Refresh Param Error)
  /-- the first half of `refresh_pool_all` -/
  | clear (process : Process)
  /-- the second half of `refresh_pool_all` -/
  | refreshRest (process : Process) (refresh : Refresh Param Error)

structure TurnEvent (Process Param Error : Type) where
  before : Deployment Process Param
  turn : Turn Process Param Error

section Deployment

variable {Process Param Error : Type} [DecidableEq Process]

def Turn.act (deployment : Deployment Process Param) :
    Turn Process Param Error → Option Call × (Process → Policy Param)
  | .malloc timeout name cacheTimeout =>
    (some (.mallocKey timeout name cacheTimeout), deployment.policies)
  | .gc count hscan => (some (.gc count hscan), deployment.policies)
  | .clear _ => (some .clear, deployment.policies)
  | .refreshPool process refresh =>
    let outcome := (deployment.policies process).refreshPool refresh 1
    (outcome.1, Function.update deployment.policies process outcome.2)
  | .refreshRest process refresh =>
    let policy := deployment.policies process
    let outcome := policy.refreshPool refresh policy.rounds
    (outcome.1, Function.update deployment.policies process outcome.2)

def Turn.clearedAfter (deployment : Deployment Process Param) :
    Turn Process Param Error → Process → Nat
  | .clear process =>
    Function.update deployment.cleared process (deployment.cleared process + 1)
  | .refreshRest process _ =>
    Function.update deployment.cleared process (deployment.cleared process - 1)
  | _ => deployment.cleared

/-- `random.shuffle` permutes, a second half follows its first, and Redis answers admissibly. -/
def Turn.Permitted (deployment : Deployment Process Param) (turn : Turn Process Param Error) : Prop :=
  (∀ call, (turn.act deployment).1 = some call → call.Admissible deployment.redis) ∧
  match turn with
  | .refreshPool _ refresh => ∀ keys, (refresh.shuffle keys).Perm keys
  | .refreshRest process refresh =>
    0 < deployment.cleared process ∧ ∀ keys, (refresh.shuffle keys).Perm keys
  | _ => True

def TurnEvent.event? (e : TurnEvent Process Param Error) : Option Event :=
  (e.turn.act e.before).1.map fun call => ⟨e.before.redis, call⟩

def TurnEvent.after (e : TurnEvent Process Param Error) : Deployment Process Param where
  redis := match e.event? with
    | some event => event.after false
    | none => e.before.redis
  policies := (e.turn.act e.before).2
  cleared := e.turn.clearedAfter e.before

def TurnStep (deployment : Deployment Process Param) (e : TurnEvent Process Param Error)
    (deployment' : Deployment Process Param) : Prop :=
  (∃ elapsed, e.before = { deployment with redis := deployment.redis.advance elapsed }) ∧
  e.turn.Permitted e.before ∧ deployment' = e.after

abbrev TurnRun : Deployment Process Param → List (TurnEvent Process Param Error) →
    Deployment Process Param → Prop := Run TurnStep

/-- The turn puts `k` into the pool at a moment when `k` is no member. -/
def TurnEvent.Inserts (e : TurnEvent Process Param Error) (k : String) : Prop :=
  ∃ event, e.event? = some event ∧ event.Inserts false k

def TurnEvent.Returns (e : TurnEvent Process Param Error) (k : String) : Prop :=
  ∃ event, e.event? = some event ∧ event.Returns false k

theorem TurnEvent.not_frees {e : TurnEvent Process Param Error} {event : Event}
    (made : e.event? = some event) (k : String) : ¬ event.Frees k := by
  obtain ⟨call, acted, rfl⟩ := Option.map_eq_some_iff.mp made
  obtain ⟨deployment, turn⟩ := e
  rintro ⟨keys, timeout, isFree, _⟩
  simp only at isFree
  subst isFree
  have refreshed : ∀ (policy : Policy Param) (refresh : Refresh Param Error) n,
      (policy.refreshPool refresh n).1 ≠ some (.freeKeys keys timeout) := by
    intro policy refresh n made
    rcases Policy.refreshPool_call made with ⟨_, _, other⟩ | ⟨_, _, _, _, other⟩ <;> cases other
  cases turn with
  | refreshPool process refresh => exact refreshed _ _ _ acted
  | refreshRest process refresh => exact refreshed _ _ _ acted
  | _ => cases acted

theorem TurnStep.heldUntil {deployment deployment' : Deployment Process Param}
    {e : TurnEvent Process Param Error} {k : String} {lock : StringKey}
    (step : TurnStep deployment e deployment') (held : HeldUntil k lock deployment.redis)
    (notInserted : ¬ e.Inserts k) :
    HeldUntil k lock e.before.redis ∧ HeldUntil k lock deployment'.redis := by
  obtain ⟨⟨elapsed, later⟩, ⟨admissible, _⟩, rfl⟩ := step
  have started : HeldUntil k lock e.before.redis := by
    rw [later]
    exact held.advance elapsed
  refine ⟨started, ?_⟩
  rw [TurnEvent.after]
  cases made : e.event? with
  | none => exact started
  | some event =>
      have notFreed := TurnEvent.not_frees made k
      have notNew : ¬ event.Inserts false k := fun inserts => notInserted ⟨event, made, inserts⟩
      obtain ⟨call, acted, rfl⟩ := Option.map_eq_some_iff.mp made
      exact HeldUntil.after started (admissible call acted) notFreed notNew

/-- However refreshes, allocations and garbage collection interleave, a held key is not returned
before its lock lapses, unless some refresh has put it back into a pool it had left. -/
theorem refresh_keeps_held {start final : Deployment Process Param}
    {before after : List (TurnEvent Process Param Error)} {e : TurnEvent Process Param Error}
    {k : String} {lock : StringKey} (run : TurnRun start (before ++ e :: after) final)
    (held : start.redis.locks k = some lock) (notInserted : ∀ turn ∈ before, ¬ turn.Inserts k)
    (returned : e.Returns k) : lock.live e.before.redis.now = false := by
  obtain ⟨middle, earlier, run⟩ := run.of_append
  obtain ⟨_, ⟨⟨elapsed, later⟩, _, _⟩, _⟩ := Run.cons_iff.mp run
  have kept : HeldUntil k lock middle.redis :=
    earlier.invariant (fun deployment => HeldUntil k lock deployment.redis)
      (fun turn => ¬ turn.Inserts k) (fun _ _ _ held allowed step => (step.heldUntil held allowed).2)
      (fun _ => held) notInserted
  obtain ⟨event, made, returned⟩ := returned
  have same : event.before = e.before.redis := by
    obtain ⟨_, _, rfl⟩ := Option.map_eq_some_iff.mp made
    rfl
  have started : HeldUntil k lock event.before := by
    rw [same, later]
    exact kept.advance elapsed
  rw [← same]
  exact started.lapsed returned

end Deployment

/-! ## One held key and one process -/

def hourly : Policy Bool := ⟨3600, some ⟨[true, false], 0, by decide⟩⟩

def heldStart : Deployment Unit Bool :=
  ⟨(soleMalloc (.int 60)).after false, fun _ => hourly, fun _ => 0⟩

def fetchSole : Refresh Bool Empty := ⟨fun _ _ => .ok ["k"], id, ["k"], ["k"]⟩

def keptRefresh : TurnEvent Unit Bool Empty := ⟨heldStart, .refreshPool () fetchSole⟩

def keptGc : TurnEvent Unit Bool Empty :=
  ⟨{ keptRefresh.after with redis := keptRefresh.after.redis.advance 61000 },
    .gc 10 fun _ _ => ⟨"0", ["k"]⟩⟩

def keptMalloc : TurnEvent Unit Bool Empty := ⟨keptGc.after, .malloc (.int 60) none (.int 60)⟩

theorem kept_run : TurnRun heldStart ([keptRefresh, keptGc] ++ keptMalloc :: []) keptMalloc.after := by
  have member : keptGc.before.redis.pool.keys = {"k"} := by decide
  refine .fire ⟨⟨0, rfl⟩, ⟨?_, fun _ => List.Perm.refl _⟩, rfl⟩
    (.fire ⟨⟨61000, rfl⟩, ⟨?_, trivial⟩, rfl⟩ (.fire ⟨⟨0, rfl⟩, ⟨?_, trivial⟩, rfl⟩ (.done _)))
  · rintro _ ⟨⟩
    trivial
  · rintro _ ⟨⟩
    exact fun _ _ => ⟨by simp, by simp [member]⟩
  · rintro _ ⟨⟩
    trivial

theorem refresh_keeps_held_sole :
    StringKey.live keptMalloc.before.redis.now ⟨"1", some 61000⟩ = false :=
  refresh_keeps_held kept_run rfl
    (by
      intro turn inBefore
      simp only [List.mem_cons, List.not_mem_nil, or_false] at inBefore
      rcases inBefore with rfl | rfl
      · rintro ⟨_, ⟨⟩, _, absent, _⟩
        cases absent
      · rintro ⟨_, ⟨⟩, inserts⟩
        exact (Event.gc_undisturbed false rfl).2 inserts)
    ⟨_, rfl, rfl⟩

def clearFirst : TurnEvent Unit Bool Empty := ⟨heldStart, .clear ()⟩

def refreshAfter : TurnEvent Unit Bool Empty := ⟨clearFirst.after, .refreshRest () fetchSole⟩

def mallocAfter : TurnEvent Unit Bool Empty := ⟨refreshAfter.after, .malloc (.int 60) none (.int 60)⟩

/-- `refresh_pool_all` clears the pool and inserts the held key as a new one: it is returned at
once, a minute before its lock would have lapsed. -/
theorem refreshAll_releases_held :
    TurnRun heldStart [clearFirst, refreshAfter, mallocAfter] mallocAfter.after ∧
      heldStart.redis.locks "k" = some ⟨"1", some 61000⟩ ∧ mallocAfter.Returns "k" ∧
      StringKey.live mallocAfter.before.redis.now ⟨"1", some 61000⟩ = true := by
  refine ⟨?_, rfl, ⟨_, rfl, rfl⟩, rfl⟩
  refine .fire ⟨⟨0, rfl⟩, ⟨?_, trivial⟩, rfl⟩
    (.fire ⟨⟨0, rfl⟩, ⟨?_, by decide, fun _ => List.Perm.refl _⟩, rfl⟩
      (.fire ⟨⟨0, rfl⟩, ⟨?_, trivial⟩, rfl⟩ (.done _))) <;>
  · rintro _ ⟨⟩
    trivial

end RedisAllocator

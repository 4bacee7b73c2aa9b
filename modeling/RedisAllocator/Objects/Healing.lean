import RedisAllocator.Objects.DefaultPolicy
import RedisAllocator.Objects.Session
import RedisAllocator.Pool.Handouts

/-!
# `refresh_until_healthy`

A loop of health checks, unhealthy marks and refreshes.  A refresh closes the
wrapped object first and opens it again only if `malloc` found a key.  A refresh
that finds none raises nothing: the loop goes on with the closed object and the
key it has just marked, and the next health check may answer that all is well.
-/

set_option autoImplicit false

namespace RedisAllocator

open AbortableScript AbortableScript.Script

/-! ## What one attempt meets -/

/-- One round of the loop: the answer of the health check, what the methods of the wrapped object
and of the one that `auto_close` finds yield, and the states in which the commands run. -/
structure Attempt (Param Error : Type) where
  health : Except Error Bool
  atMark : Nat → Redis
  closing : Except Error Unit
  policy : DefaultPolicy Param
  turn : MallocTurn Param Error
  configuring : Except Error Unit
  closingOld : Except Error Unit
  opening : Except Error Unit
  queue : List String
  wellFormed : WellFormed turn.atMalloc queue

/-- An allocation object during the call: whether the last of `open` and `close` was `open`, the
last answer of `is_healthy`, and the keys marked unhealthy since the last acquisition. -/
structure Holder (Error : Type) where
  object : AllocatorObject
  isOpen : Bool
  answer : Option (Except Error Bool)
  marked : List String

abbrev HolderScript (Error : Type) : Type → Type := Script (Holder Error) (Raised Error)

section Healing

variable {Param Error : Type}

def sendAll (allocator : Allocator) : (Nat → Redis) → List Step → Except (Raised Error) Unit
  | _, [] => .ok ()
  | states, step :: rest => do
    let _ ← (step.script allocator (states 0)).1.mapError .redis
    sendAll allocator (fun n => states (n + 1)) rest

namespace Holder

/-- A step that may raise, given the object as it is. -/
def yields {α : Type} (outcome : Holder Error → Except (Raised Error) α) : HolderScript Error α :=
  fun h => (outcome h, h)

def callback (outcome : Except Error Unit) : HolderScript Error Unit :=
  yields fun _ => outcome.mapError .outside

variable (allocator : Allocator) (attempt : Attempt Param Error)

def openObj : HolderScript Error Unit := do
  write fun h => { h with isOpen := true }
  callback attempt.opening

def closeObj : HolderScript Error Unit := do
  write fun h => { h with isOpen := false }
  callback attempt.closing

def setUnhealthy (duration : Timeout) : HolderScript Error Unit := do
  yields fun h => sendAll allocator attempt.atMark (h.object.setUnhealthy allocator duration)
  write fun h => { h with marked := h.object.key :: h.marked }

def closeOld : HolderScript Error Unit :=
  if attempt.policy.autoClose then callback attempt.closingOld else pure ()

/-- What `malloc` does with the key and the object, and `self.key = new_obj.key`. -/
def acquire (key : String) : HolderScript Error Unit := do
  callback attempt.configuring
  closeOld attempt
  write fun h => { h with object := { h.object with key := key }, marked := [] }

def refresh (timeout cacheTimeout : Timeout) : HolderScript Error Unit := do
  closeObj attempt
  let found ← yields fun h =>
    attempt.policy.malloc allocator timeout cacheTimeout h.object.name attempt.turn
  match found with
  | some key => do
    acquire attempt key
    openObj attempt
  -- only `logger.error`
  | none => pure ()

def refreshRounds (timeout lockDuration cacheTimeout : Timeout) (maxAttempts : Nat) :
    List (Attempt Param Error) → HolderScript Error Unit
  | [] => abort (.stillUnhealthy maxAttempts)
  | attempt :: rest => do
    write fun h => { h with answer := some attempt.health }
    match attempt.health with
    | .ok true => pure ()
    | _ => do
      setUnhealthy allocator attempt lockDuration
      refresh allocator attempt timeout cacheTimeout
      refreshRounds timeout lockDuration cacheTimeout maxAttempts rest

/-- `refresh_until_healthy`, with as many attempts as `max_attempts`. -/
def refreshUntilHealthy (timeout lockDuration cacheTimeout : Timeout)
    (attempts : List (Attempt Param Error)) : HolderScript Error Unit :=
  refreshRounds allocator timeout lockDuration cacheTimeout attempts.length attempts

end Holder

/-! ## Rounds that raise nothing -/

/-- `SET` takes an `ex` that is positive, and none at all. -/
def Timeout.AcceptedBySet : Timeout → Prop
  | .int seconds => 0 < seconds
  | .float _ => False
  | .timedelta seconds => 0 < truncate seconds
  | .none => True

theorem lockUpdate_ok_iff (key value : String) (timeout : Timeout) (s : Redis) :
    (lockUpdate key value timeout s).1 = .ok () ↔ timeout.AcceptedBySet := by
  have expires (seconds : Int) :
      ((do let instant ← Command.expireAt (some seconds)
           write (·.putLock key (some ⟨value, instant⟩)) : LuaScript Unit) s).1 = .ok () ↔
        0 < seconds := by
    by_cases positive : 0 < seconds
    · rw [bind_ok (expireAt_ex s positive)]
      exact iff_of_true rfl positive
    · rw [bind_error (expireAt_refused s (not_lt.mp positive))]
      exact iff_of_false (fun same => nomatch same) positive
  cases timeout with
  | int seconds => exact expires seconds
  | timedelta seconds => exact expires (truncate seconds)
  | float seconds => exact iff_of_false (fun set => by cases set) id
  | none => exact iff_of_true rfl trivial

theorem sendAll_setUnhealthy_iff (allocator : Allocator) (states : Nat → Redis)
    (object : AllocatorObject) (duration : Timeout) :
    (sendAll allocator states (object.setUnhealthy allocator duration) :
      Except (Raised Error) Unit) = .ok () ↔ duration.AcceptedBySet := by
  have marks (states : Nat → Redis) :
      (sendAll allocator states [.lockUpdate object.key "1" duration] :
        Except (Raised Error) Unit) = .ok () ↔ duration.AcceptedBySet := by
    rw [← lockUpdate_ok_iff object.key "1" duration (states 0), sendAll, Step.script]
    cases run : lockUpdate object.key "1" duration (states 0) with
    | mk result after =>
        cases result with
        | error failure =>
            rw [bind_error run]
            exact iff_of_false (fun sent => by cases sent) fun set => by cases set
        | ok _ =>
            rw [bind_ok run]
            exact iff_of_true rfl rfl
  rw [AllocatorObject.setUnhealthy]
  cases object.name with
  | none => exact marks states
  | some name =>
      rw [List.singleton_append, sendAll, Step.script, bind_ok (unlock_run _ _)]
      exact marks fun n => states (n + 1)

namespace Attempt

variable (attempt : Attempt Param Error) (allocator : Allocator) (name : Option String)

/-- `malloc_key` finds neither a usable binding nor a usable key. -/
def FindsNothing : Prop :=
  attempt.turn.atMalloc.boundKey (name.getD "") = none ∧
    attempt.turn.atMalloc.Exhausted attempt.queue

structure Quiet (timeout lockDuration cacheTimeout : Timeout) : Prop where
  marks : lockDuration.AcceptedBySet
  closes : attempt.closing = .ok ()
  reaches : attempt.policy.ReachesMallocKey allocator attempt.turn
  mallocs : ∃ found, (mallocKey allocator.shared timeout name cacheTimeout
    attempt.turn.atMalloc).1 = .ok found
  acquires : ¬ attempt.FindsNothing name → attempt.configuring = .ok () ∧
    (attempt.policy.autoClose = true → attempt.closingOld = .ok ()) ∧ attempt.opening = .ok ()

end Attempt

namespace Holder

section Rounds

variable {allocator : Allocator} {attempt : Attempt Param Error}
variable {timeout lockDuration cacheTimeout : Timeout} {h h' : Holder Error}

/-- Open, and with a key that the call has not marked since it acquired it. -/
def Usable (h : Holder Error) : Prop := h.isOpen = true ∧ h.object.key ∉ h.marked

theorem yields_ok_iff {α : Type} {outcome : Holder Error → Except (Raised Error) α} {a : α} :
    yields outcome h = (.ok a, h') ↔ outcome h = .ok a ∧ h' = h := by
  rw [yields, Prod.mk.injEq, eq_comm (a := h)]

theorem callback_ok_iff {outcome : Except Error Unit} :
    callback outcome h = (.ok (), h') ↔ outcome = .ok () ∧ h' = h := by
  rw [callback, yields_ok_iff]
  refine and_congr_left fun _ => ⟨except_mapError_ok, ?_⟩
  rintro rfl
  rfl

theorem setUnhealthy_ok_iff : setUnhealthy allocator attempt lockDuration h = (.ok (), h') ↔
    lockDuration.AcceptedBySet ∧ h' = { h with marked := h.object.key :: h.marked } := by
  have sends : (sendAll allocator attempt.atMark (h.object.setUnhealthy allocator lockDuration) :
      Except (Raised Error) Unit) = .ok () ↔ lockDuration.AcceptedBySet :=
    sendAll_setUnhealthy_iff allocator attempt.atMark h.object lockDuration
  constructor
  · intro run
    obtain ⟨_, middle, first, wrote⟩ := of_bind_ok run
    obtain ⟨sent, rfl⟩ := yields_ok_iff.mp first
    cases wrote
    exact ⟨sends.mp sent, rfl⟩
  · rintro ⟨accepted, rfl⟩
    rw [setUnhealthy, bind_ok (yields_ok_iff.mpr ⟨sends.mpr accepted, rfl⟩)]
    rfl

theorem closeObj_ok_iff : closeObj attempt h = (.ok (), h') ↔
    attempt.closing = .ok () ∧ h' = { h with isOpen := false } := callback_ok_iff

theorem openObj_ok_iff : openObj attempt h = (.ok (), h') ↔
    attempt.opening = .ok () ∧ h' = { h with isOpen := true } := callback_ok_iff

theorem closeOld_ok_iff : closeOld attempt h = (.ok (), h') ↔
    (attempt.policy.autoClose = true → attempt.closingOld = .ok ()) ∧ h' = h := by
  rw [closeOld]
  cases attempt.policy.autoClose with
  | true => simp [callback_ok_iff]
  | false => simp [eq_comm]

theorem acquire_ok_iff {key : String} : acquire attempt key h = (.ok (), h') ↔
    attempt.configuring = .ok () ∧
      (attempt.policy.autoClose = true → attempt.closingOld = .ok ()) ∧
      h' = { h with object := { h.object with key := key }, marked := [] } := by
  constructor
  · intro run
    obtain ⟨_, _, first, rest⟩ := of_bind_ok run
    obtain ⟨configured, rfl⟩ := callback_ok_iff.mp first
    obtain ⟨_, _, second, wrote⟩ := of_bind_ok rest
    obtain ⟨closed, rfl⟩ := closeOld_ok_iff.mp second
    cases wrote
    exact ⟨configured, closed, rfl⟩
  · rintro ⟨configured, closed, rfl⟩
    rw [acquire, bind_ok (callback_ok_iff.mpr ⟨configured, rfl⟩),
      bind_ok (closeOld_ok_iff.mpr ⟨closed, rfl⟩)]
    rfl

theorem refresh_ok (run : refresh allocator attempt timeout cacheTimeout h = (.ok (), h'))
    (accepted : lockDuration.AcceptedBySet) :
    attempt.Quiet allocator h.object.name timeout lockDuration cacheTimeout ∧
      h'.object.name = h.object.name ∧ (h'.Usable ↔ ¬ attempt.FindsNothing h.object.name) := by
  obtain ⟨_, _, first, rest⟩ := of_bind_ok run
  obtain ⟨closed, rfl⟩ := closeObj_ok_iff.mp first
  obtain ⟨found, _, second, last⟩ := of_bind_ok rest
  obtain ⟨malloced, rfl⟩ := yields_ok_iff.mp second
  obtain ⟨reaches, found_eq⟩ := (attempt.policy.malloc_eq_ok_iff allocator).mp malloced
  have nothing := mallocKey_none_iff attempt.wellFormed allocator.shared timeout cacheTimeout
    h.object.name
  rw [found_eq, Except.ok.injEq] at nothing
  cases found with
  | none =>
      have findsNothing : attempt.FindsNothing h.object.name := nothing.mp rfl
      cases last
      refine ⟨⟨accepted, closed, reaches, ⟨_, found_eq⟩, fun finds => absurd findsNothing finds⟩,
        rfl, iff_of_false (fun usable => ?_) (not_not_intro findsNothing)⟩
      cases usable.1
  | some key =>
      have finds : ¬ attempt.FindsNothing h.object.name := fun never => by
        cases nothing.mpr never
      obtain ⟨_, _, third, fourth⟩ := of_bind_ok last
      obtain ⟨configured, closedOld, rfl⟩ := acquire_ok_iff.mp third
      obtain ⟨opened, rfl⟩ := openObj_ok_iff.mp fourth
      exact ⟨⟨accepted, closed, reaches, ⟨_, found_eq⟩, fun _ => ⟨configured, closedOld, opened⟩⟩,
        rfl, iff_of_true ⟨rfl, List.not_mem_nil⟩ finds⟩

theorem refresh_of_quiet
    (quiet : attempt.Quiet allocator h.object.name timeout lockDuration cacheTimeout) :
    ∃ h', refresh allocator attempt timeout cacheTimeout h = (.ok (), h') := by
  obtain ⟨found, found_eq⟩ := quiet.mallocs
  have malloced := (attempt.policy.malloc_eq_ok_iff allocator).mpr ⟨quiet.reaches, found_eq⟩
  rw [refresh, bind_ok (closeObj_ok_iff.mpr ⟨quiet.closes, rfl⟩),
    bind_ok (yields_ok_iff.mpr ⟨malloced, rfl⟩)]
  cases found with
  | none => exact ⟨_, rfl⟩
  | some key =>
      have finds : ¬ attempt.FindsNothing h.object.name := fun never => by
        cases found_eq.symm.trans ((mallocKey_none_iff attempt.wellFormed ..).mpr never)
      obtain ⟨configured, closedOld, opened⟩ := quiet.acquires finds
      exact ⟨_, (bind_ok (acquire_ok_iff.mpr ⟨configured, closedOld, rfl⟩)).trans
        (openObj_ok_iff.mpr ⟨opened, rfl⟩)⟩

end Rounds

end Holder

/-! ## The loop -/

section Loop

variable (allocator : Allocator) (name : Option String)
variable (timeout lockDuration cacheTimeout : Timeout)

/-- What the call promises: if it returns, the object is open, its last health check said so, and
its key is not one that the call has marked since it acquired it. -/
def Delivers (outcome : Except (Raised Error) Unit × Holder Error) : Prop :=
  outcome.1 = .ok () → outcome.2.isOpen = true ∧ outcome.2.answer = some (.ok true) ∧
    outcome.2.object.key ∉ outcome.2.marked

/-- No attempt that comes back with nothing is followed by the first healthy answer. -/
def NeverEmptyHanded (attempts : List (Attempt Param Error)) : Prop :=
  ∀ earlier last next rest, attempts = earlier ++ last :: next :: rest →
    (∀ attempt ∈ earlier ++ [last], attempt.health ≠ .ok true ∧
      attempt.Quiet allocator name timeout lockDuration cacheTimeout) →
    next.health = .ok true → ¬ last.FindsNothing name

variable {allocator name timeout lockDuration cacheTimeout}

theorem neverEmptyHanded_cons_iff {attempt : Attempt Param Error}
    {rest : List (Attempt Param Error)} :
    NeverEmptyHanded allocator name timeout lockDuration cacheTimeout (attempt :: rest) ↔
      (attempt.health ≠ .ok true →
        attempt.Quiet allocator name timeout lockDuration cacheTimeout →
        (∀ next others, rest = next :: others → next.health = .ok true →
          ¬ attempt.FindsNothing name) ∧
        NeverEmptyHanded allocator name timeout lockDuration cacheTimeout rest) := by
  constructor
  · intro never unhealthy quiet
    constructor
    · rintro next others rfl healthy
      refine never [] attempt next others rfl (fun other isMember => ?_) healthy
      rw [List.nil_append, List.mem_singleton] at isMember
      subst isMember
      exact ⟨unhealthy, quiet⟩
    · rintro earlier last next others rfl unhealthyBefore
      refine never (attempt :: earlier) last next others rfl fun other isMember => ?_
      rcases List.mem_cons.mp isMember with rfl | isMember
      · exact ⟨unhealthy, quiet⟩
      · exact unhealthyBefore other isMember
  · intro each earlier last next others split unhealthyBefore healthy
    cases earlier with
    | nil =>
        cases split
        obtain ⟨unhealthy, quiet⟩ := unhealthyBefore attempt List.mem_cons_self
        exact (each unhealthy quiet).1 next others rfl healthy
    | cons first earlier =>
        cases split
        obtain ⟨unhealthy, quiet⟩ := unhealthyBefore attempt List.mem_cons_self
        exact (each unhealthy quiet).2 earlier last next others rfl
          (fun other isMember => unhealthyBefore other (List.mem_cons_of_mem _ isMember)) healthy

theorem refreshRounds_of_healthy {attempt : Attempt Param Error} {maxAttempts : Nat}
    {rest : List (Attempt Param Error)} (healthy : attempt.health = .ok true) (h : Holder Error) :
    Holder.refreshRounds allocator timeout lockDuration cacheTimeout maxAttempts
        (attempt :: rest) h = (.ok (), { h with answer := some (.ok true) }) := by
  rw [Holder.refreshRounds, write_bind_apply, healthy]
  rfl

theorem refreshRounds_of_unhealthy {attempt : Attempt Param Error} {maxAttempts : Nat}
    {rest : List (Attempt Param Error)} (unhealthy : attempt.health ≠ .ok true)
    (h : Holder Error) :
    Holder.refreshRounds allocator timeout lockDuration cacheTimeout maxAttempts
        (attempt :: rest) h =
      (do
        Holder.setUnhealthy allocator attempt lockDuration
        Holder.refresh allocator attempt timeout cacheTimeout
        Holder.refreshRounds allocator timeout lockDuration cacheTimeout maxAttempts rest)
        { h with answer := some attempt.health } := by
  rw [Holder.refreshRounds, write_bind_apply]
  rcases answer : attempt.health with error | _ | _
  · rfl
  · rfl
  · exact absurd answer unhealthy

theorem refreshRounds_delivers_iff (maxAttempts : Nat) :
    ∀ (attempts : List (Attempt Param Error)) (h : Holder Error), h.object.name = name →
      (Delivers (Holder.refreshRounds allocator timeout lockDuration cacheTimeout maxAttempts
          attempts h) ↔
        (∀ next others, attempts = next :: others → next.health = .ok true → h.Usable) ∧
          NeverEmptyHanded allocator name timeout lockDuration cacheTimeout attempts) := by
  intro attempts
  induction attempts with
  | nil =>
      intro h _
      refine iff_of_true (fun returned => by cases returned) ⟨fun _ _ impossible => ?_, ?_⟩
      · cases impossible
      · intro earlier last next others split
        cases earlier <;> cases split
  | cons attempt rest ih =>
      rintro h rfl
      rw [neverEmptyHanded_cons_iff]
      by_cases healthy : attempt.health = .ok true
      · rw [refreshRounds_of_healthy healthy]
        constructor
        · intro delivers
          obtain ⟨isOpen, _, unmarked⟩ := delivers rfl
          exact ⟨fun _ _ _ _ => ⟨isOpen, unmarked⟩, fun unhealthy => absurd healthy unhealthy⟩
        · rintro ⟨usable, _⟩ _
          obtain ⟨isOpen, unmarked⟩ := usable attempt rest rfl healthy
          exact ⟨isOpen, rfl, unmarked⟩
      · rw [refreshRounds_of_unhealthy healthy]
        have first : ∀ next others, attempt :: rest = next :: others → next.health = .ok true →
            h.Usable := by
          rintro _ _ ⟨⟩ answered
          exact absurd answered healthy
        rw [and_iff_right first, forall_prop_of_true healthy]
        by_cases quiet : attempt.Quiet allocator h.object.name timeout lockDuration cacheTimeout
        · obtain ⟨h', refreshed⟩ : ∃ h', Holder.refresh allocator attempt timeout cacheTimeout
              { h with answer := some attempt.health, marked := h.object.key :: h.marked } =
                (.ok (), h') := Holder.refresh_of_quiet quiet
          obtain ⟨_, sameName, usable⟩ := Holder.refresh_ok refreshed quiet.marks
          rw [bind_ok (Holder.setUnhealthy_ok_iff.mpr ⟨quiet.marks, rfl⟩), bind_ok refreshed,
            ih h' sameName, forall_prop_of_true quiet, usable]
        · refine iff_of_true (fun returned => absurd ?_ quiet) fun other => absurd other quiet
          obtain ⟨_, _, marked, rest⟩ := of_bind_ok (Prod.ext returned rfl)
          obtain ⟨accepted, rfl⟩ := Holder.setUnhealthy_ok_iff.mp marked
          obtain ⟨_, _, refreshed, _⟩ := of_bind_ok rest
          exact (Holder.refresh_ok refreshed accepted).1

end Loop

end Healing

/-- `refresh_until_healthy` delivers exactly if no attempt that finds nothing, after answers that
were all bad and with nothing raised, is followed by a good one. -/
theorem refreshUntilHealthy_delivers_iff {Param Error : Type} (allocator : Allocator)
    (object : AllocatorObject) (timeout lockDuration cacheTimeout : Timeout)
    (attempts : List (Attempt Param Error)) :
    Delivers (Holder.refreshUntilHealthy allocator timeout lockDuration cacheTimeout attempts
        ⟨object, true, none, []⟩) ↔
      NeverEmptyHanded allocator object.name timeout lockDuration cacheTimeout attempts := by
  rw [Holder.refreshUntilHealthy, refreshRounds_delivers_iff _ attempts _ rfl]
  exact and_iff_right fun _ _ _ _ => ⟨rfl, List.not_mem_nil⟩

def soldOut : Redis :=
  (mallocKey false (.int 120) none (.int 60) (extend ["a"] none (Redis.empty 1000)).2).2.advance 1000

def soldOutMarked : Redis := (lockUpdate "a" "1" (.int 3600) soldOut).2

def soldOutSwept : Redis := (gc 5 (fun _ _ => ⟨"0", ["a"]⟩) soldOutMarked).2

theorem pool_soldOutSwept : soldOutSwept.pool =
    (AList.singleton "a" (.allocated (-1))).toFinmap := by decide

theorem soldOutSwept_wellFormed : WellFormed soldOutSwept [] :=
  wellFormed_marked pool_soldOutSwept (by decide) (by decide) ⟨by decide, by decide⟩

def soldOutAttempt (health : Bool) : Attempt Unit Empty where
  health := .ok health
  atMark := fun _ => soldOut
  closing := .ok ()
  policy := ⟨⟨-1, none⟩, 5, 300, false⟩
  turn := ⟨false, soldOutMarked, ⟨fun _ _ => .ok [], id, [], []⟩, soldOutMarked,
    fun _ _ => ⟨"0", ["a"]⟩, soldOutMarked, soldOutSwept⟩
  configuring := .ok ()
  closingOld := .ok ()
  opening := .ok ()
  queue := []
  wellFormed := soldOutSwept_wellFormed

/-- After one failed health check and one that passes the call returns with the object closed and
the key that it has marked unhealthy. -/
theorem soldOut_returns_closed :
    let outcome := Holder.refreshUntilHealthy ⟨"pool", "allocator", false⟩ (.int 120) (.int 3600)
      (.int 3600) [soldOutAttempt false, soldOutAttempt true] ⟨⟨"a", none, false⟩, true, none, []⟩
    outcome = (.ok (), ⟨⟨"a", none, false⟩, false, some (.ok true), ["a"]⟩) ∧
      ¬ Delivers outcome := by
  have run : Holder.refreshUntilHealthy ⟨"pool", "allocator", false⟩ (.int 120) (.int 3600)
      (.int 3600) [soldOutAttempt false, soldOutAttempt true]
      ⟨⟨"a", none, false⟩, true, none, []⟩ =
        (.ok (), ⟨⟨"a", none, false⟩, false, some (.ok true), ["a"]⟩) := by
    rfl
  refine ⟨run, fun delivers => ?_⟩
  obtain ⟨isOpen, _⟩ := delivers (congrArg Prod.fst run)
  rw [run] at isOpen
  cases isOpen

end RedisAllocator

import Mathlib.Tactic.Linarith
import RedisAllocator.Objects.Session

/-!
# Soft bindings seen from both sides

`malloc_key` and `get_soft_bind` work on one key, `update_soft_bind` and
`unbind_soft_bind` on another.  So the API's writes are seen only where there was
nothing to write: an update if the scripts hold that very binding for long enough
already, an unbinding if they hold none.
-/

set_option autoImplicit false

namespace RedisAllocator

open AbortableScript AbortableScript.Script LabelledRun

/-! ## Operations on other names -/

inductive BindOp
  | update (name key : String) (timeout : Timeout)
  | unbind (name : String)
  | malloc (timeout : Timeout) (name : Option String) (cacheTimeout : Timeout)

def BindOp.name : BindOp → String
  | .update name _ _ => name
  | .unbind name => name
  | .malloc _ name _ => name.getD ""

def BindOp.script (allocator : Allocator) : BindOp → LuaScript (Option String)
  | .update name key timeout => do updateSoftBind allocator name key timeout; pure none
  | .unbind name => do unbindSoftBind allocator name; pure none
  | .malloc timeout name cacheTimeout => mallocKey allocator.shared timeout name cacheTimeout

/-- Time passes, then somebody uses another name than `n`. -/
def OtherStep (allocator : Allocator) (n : String) (s : Redis) (op : BindOp) (s' : Redis) : Prop :=
  op.name ≠ n ∧ ∃ elapsed, s' = (op.script allocator (s.advance elapsed)).2

abbrev OtherRun (allocator : Allocator) (n : String) : Redis → List BindOp → Redis → Prop :=
  Run (OtherStep allocator n)

/-! ## What an update and an unbinding promise -/

def Redis.UsableMember (k : String) (s : Redis) : Prop :=
  ∃ val, s.hget k = some val ∧ s.locked k = false ∧ s.isExpiryInvalid val.expiry = false

/-- From `s'` on, however other names are used, `n` reads as bound to `k` up to `instant`, and
`malloc_key(timeout, n)` returns `k` whenever `k` is an unlocked unexpired member. -/
def SeenUntil (allocator : Allocator) (n k : String) (instant : Rat) (timeout : Timeout)
    (s' : Redis) : Prop :=
  ∀ ops final elapsed, OtherRun allocator n s' ops final →
    ((final.advance elapsed).now : Rat) < instant →
      (getSoftBind n (final.advance elapsed)).1 = .ok (some k) ∧
      ((final.advance elapsed).UsableMember k → ∀ cacheTimeout,
        (mallocKey allocator.shared timeout (some n) cacheTimeout (final.advance elapsed)).1 =
          .ok (some k))

/-- From `s'` on, however other names are used, `n` reads as unbound, and `malloc_key(name=n)`
returns what it returns without a name. -/
def Forgotten (allocator : Allocator) (n : String) (s' : Redis) : Prop :=
  ∀ ops final elapsed, OtherRun allocator n s' ops final →
    (getSoftBind n (final.advance elapsed)).1 = .ok none ∧
    ∀ timeout cacheTimeout,
      (mallocKey allocator.shared timeout (some n) cacheTimeout (final.advance elapsed)).1 =
        (mallocKey allocator.shared timeout none cacheTimeout (final.advance elapsed)).1

/-- The scripts' own binding of `n` is `k` and does not lapse before `instant`. -/
def BoundUntil (n k : String) (instant : Rat) (s : Redis) : Prop :=
  ∃ binding, s.bind? n = some binding ∧ binding.value = k ∧
    ∀ lapse, binding.expireAt = some lapse → instant ≤ lapse

/-- While other names are used, `k` comes to be an unlocked unexpired member before `instant`. -/
def UsableBefore (allocator : Allocator) (n k : String) (instant : Rat) (s' : Redis) : Prop :=
  ∃ ops final elapsed, OtherRun allocator n s' ops final ∧
    ((final.advance elapsed).now : Rat) < instant ∧ (final.advance elapsed).UsableMember k

/-! ## The scripts' bindings under other operations -/

section Frames

variable {allocator : Allocator} {n : String}

def Redis.bindOf (n : String) (s : Redis) : Nat × Option StringKey := (s.now, s.binds n)

theorem outside_bindOf {α : Type} {x : LuaScript α} (kept : Keeps Redis.outside x) :
    Keeps (Redis.bindOf n) x := by
  intro s
  rw [Redis.bindOf, Redis.bindOf, Redis.now_of_outside (kept s), Redis.binds_of_outside (kept s)]

theorem besidesLocks_bindOf {α : Type} {x : LuaScript α} (kept : Keeps Redis.besidesLocks x) :
    Keeps (Redis.bindOf n) x := by
  intro s
  have same := kept s
  simp only [Redis.besidesLocks, Prod.mk.injEq] at same
  rw [Redis.bindOf, Redis.bindOf, same.1.1, same.1.2.2]

theorem setBind_bindOf {m : String} (different : n ≠ m) (value : String) (ex : Option Int) :
    Keeps (Redis.bindOf n) (Command.setBind m value ex) :=
  Keeps.bind (expireAt_keeps _ ex) fun _ =>
    Keeps.write fun s => by simp [Redis.bindOf, Redis.putBind, different]

theorem refreshCache_bindOf {m : String} (different : n ≠ m) (cacheTimeout : Int)
    (cacheKey : String) : Keeps (Redis.bindOf n) (refreshCache m cacheTimeout cacheKey) :=
  Keeps.ite (Keeps.pure _)
    (Keeps.ite (setBind_bindOf different _ _) (setBind_bindOf different _ _))

theorem setLock_bindOf (key value : String) (ex : Option Int) :
    Keeps (Redis.bindOf n) (Command.setLock key value ex) :=
  Keeps.bind (expireAt_keeps _ ex) fun _ => Keeps.write fun _ => rfl

theorem mallocScript_bindOf {m : String} (different : n ≠ m) (shared : Bool) (timeout : Int)
    (cacheTimeout : Int) : Keeps (Redis.bindOf n) (mallocScript shared timeout m cacheTimeout) := by
  have locking : ∀ k, Keeps (Redis.bindOf n) (lockBound shared timeout k) := fun k =>
    Keeps.ite (Keeps.pure _) (Keeps.bind (outside_bindOf (setItemAllocated_keeps k none)) fun _ =>
      setLock_bindOf k "1" _)
  have bound : Keeps (Redis.bindOf n) (mallocBound shared timeout m cacheTimeout) := by
    refine Keeps.ite (Keeps.pure _) (Keeps.bind (Keeps.read _) fun found => ?_)
    cases found with
    | none => exact Keeps.pure _
    | some k =>
        exact Keeps.bind (Keeps.read _) fun _ => Keeps.bind (Keeps.read _) fun _ => Keeps.ite
          (Keeps.bind (Keeps.write fun s => by simp [Redis.bindOf, Redis.putBind, different])
            fun _ => Keeps.pure _)
          (Keeps.bind (refreshCache_bindOf different _ _) fun _ => Keeps.bind (locking k) fun _ =>
            Keeps.pure _)
  refine Keeps.bind bound fun found => ?_
  cases found with
  | some k => exact Keeps.pure _
  | none =>
      refine Keeps.bind (Keeps.read _) fun size =>
        Keeps.bind (outside_bindOf (popFromHead_keeps _)) fun popped => ?_
      cases popped.1 with
      | none => exact Keeps.pure _
      | some k =>
          exact Keeps.bind (Keeps.ite (outside_bindOf (pushToTail_keeps _ _))
            (Keeps.ite (setLock_bindOf _ _ _) (setLock_bindOf _ _ _))) fun _ =>
              Keeps.bind (refreshCache_bindOf different _ _) fun _ => Keeps.pure _

theorem BindOp.script_bindOf (allocator : Allocator) {op : BindOp} (other : op.name ≠ n) :
    Keeps (Redis.bindOf n) (op.script allocator) := by
  cases op with
  | update name key timeout =>
      exact Keeps.bind (besidesLocks_bindOf (lockUpdate_keeps _ _ _)) fun _ => Keeps.pure _
  | unbind name =>
      exact Keeps.bind (Keeps.bind (besidesLocks_bindOf (unlock_keeps _)) fun _ => Keeps.pure _)
        fun _ => Keeps.pure _
  | malloc timeout name cacheTimeout => exact mallocScript_bindOf (Ne.symm other) _ _ _

theorem OtherRun.binds {s final : Redis} {ops : List BindOp}
    (run : OtherRun allocator n s ops final) : s.now ≤ final.now ∧ final.binds n = s.binds n := by
  induction run with
  | done => exact ⟨le_refl _, rfl⟩
  | @fire s middle final op rest first later ih =>
      obtain ⟨other, elapsed, rfl⟩ := first
      have kept := op.script_bindOf allocator other (s.advance elapsed)
      rw [Redis.bindOf, Redis.bindOf, Prod.mk.injEq] at kept
      obtain ⟨now, binds⟩ := kept
      refine ⟨le_trans ?_ ih.1, ih.2.trans binds⟩
      rw [now]
      exact Nat.le_add_right _ _

end Frames

/-! ## Pools under other operations -/

section Represents

variable {allocator : Allocator} {s : Redis} {p : FreePool String}

theorem BindOp.represents (rep : Represents s p) (op : BindOp) :
    ∃ p', Represents (op.script allocator s).2 p' := by
  cases op with
  | update name key timeout =>
      have kept : Keeps Redis.besidesLocks (BindOp.script allocator (.update name key timeout)) :=
        Keeps.bind (lockUpdate_keeps _ _ _) fun _ => Keeps.pure _
      exact ⟨p, rep.of_besidesLocks (kept s)⟩
  | unbind name =>
      have kept : Keeps Redis.besidesLocks (BindOp.script allocator (.unbind name)) :=
        Keeps.bind (Keeps.bind (unlock_keeps _) fun _ => Keeps.pure _) fun _ => Keeps.pure _
      exact ⟨p, rep.of_besidesLocks (kept s)⟩
  | malloc timeout name cacheTimeout =>
      have sound : Sound (fun _ => False) s p := ⟨rep, fun _ _ no => no.elim⟩
      obtain ⟨_, p', sound', _⟩ := call_sound sound allocator.shared
        (.mallocKey timeout name cacheTimeout) trivial (fun _ _ same => by cases same)
      exact ⟨p', sound'.rep⟩

theorem OtherRun.represents {n : String} {final : Redis} {ops : List BindOp}
    (run : OtherRun allocator n s ops final) (rep : Represents s p) :
    ∃ p', Represents final p' :=
  run.invariant (fun s => ∃ p, Represents s p) (fun _ => True)
    (fun s op s' holds _ step => by
      obtain ⟨p, rep⟩ := holds
      obtain ⟨_, elapsed, rfl⟩ := step
      exact op.represents (s := s.advance elapsed) (rep.of_outside_pool rfl rfl rfl))
    ⟨p, rep⟩ (fun _ _ => trivial)

/-- A usable binding is returned, unless it is to be locked for no time. -/
theorem mallocKey_bound_iff (rep : Represents s p) {n : String} (named : n ≠ "")
    {binding : StringKey} (bound : s.bind? n = some binding)
    (isMember : (p.expiry binding.value).isSome) (unlocked : s.locked binding.value = false)
    (shared : Bool) (timeout cacheTimeout : Timeout) :
    (mallocKey shared timeout (some n) cacheTimeout s).1 = .ok (some binding.value) ↔
      shared = true ∨ 0 < timeout.wholeSeconds := by
  have returned : ∀ {s'}, mallocBound shared timeout.wholeSeconds n cacheTimeout.wholeSeconds s =
      (.ok (some binding.value), s') →
      (mallocKey shared timeout (some n) cacheTimeout s).1 = .ok (some binding.value) := by
    intro s' run
    rw [mallocKey, mallocScript, Option.getD_some, bind_ok run]
    rfl
  cases shared with
  | true =>
      obtain ⟨s', run, _⟩ := mallocBound_shared timeout.wholeSeconds cacheTimeout.wholeSeconds rep
        named bound isMember unlocked
      exact iff_of_true (returned run) (Or.inl rfl)
  | false =>
      rcases lt_or_ge 0 timeout.wholeSeconds with positive | refused
      · obtain ⟨s', run, _⟩ := mallocBound_locks timeout.wholeSeconds cacheTimeout.wholeSeconds rep
          named bound isMember unlocked positive
        exact iff_of_true (returned run) (Or.inr positive)
      · obtain ⟨s', run, _⟩ := mallocBound_refused timeout.wholeSeconds
          cacheTimeout.wholeSeconds rep named bound isMember unlocked refused
        have raises : (mallocKey false timeout (some n) cacheTimeout s).1 =
            .error (.command "ERR invalid expire time in 'set' command") := by
          rw [mallocKey, mallocScript, Option.getD_some, bind_error run]
        rw [raises]
        refine iff_of_false (fun same => ?_) (not_or.mpr ⟨Bool.false_ne_true, not_lt.mpr refused⟩)
        cases same

theorem mallocKey_unbound {n : String} (unbound : s.bind? n = none) (shared : Bool)
    (timeout cacheTimeout : Timeout) :
    (mallocKey shared timeout (some n) cacheTimeout s).1 =
      (mallocKey shared timeout none cacheTimeout s).1 := by
  have anonymous : ∀ name, (name = "" ∨ s.bind? name = none) →
      mallocScript shared timeout.wholeSeconds name cacheTimeout.wholeSeconds s =
        mallocPop shared timeout.wholeSeconds name cacheTimeout.wholeSeconds s := by
    intro name noBinding
    have run : mallocBound shared timeout.wholeSeconds name cacheTimeout.wholeSeconds s =
        (.ok none, s) := by
      rw [mallocBound]
      by_cases noName : name = ""
      · rw [if_pos noName]
        rfl
      · simp only [if_neg noName, Command.getBind, read_bind_apply,
          noBinding.resolve_left noName, Option.map_none]
        rfl
    rw [mallocScript, bind_ok run]
  rw [mallocKey, mallocKey, Option.getD_some, Option.getD_none, anonymous n (Or.inr unbound),
    anonymous "" (Or.inl rfl)]
  simp only [mallocPop, Command.hlen, read_bind_apply]
  rw [bind_apply, bind_apply]
  cases popFromHead (s.pool.keys.card + 2) s with
  | mk outcome s₁ =>
      cases outcome with
      | error failure => rfl
      | ok popped =>
          obtain ⟨_ | k, e⟩ := popped
          · rfl
          · simp only
            rw [bind_apply, bind_apply]
            cases lockOrRotate shared timeout.wholeSeconds k e s₁ with
            | mk outcome s₂ =>
                cases outcome with
                | error failure => rfl
                | ok u =>
                    simp only
                    rw [bind_ok (refreshCache_run s₂ n _ k), bind_ok (refreshCache_run s₂ "" _ k)]
                    rfl

end Represents

/-! ## The exact conditions -/

section Conditions

variable {allocator : Allocator} {s s' : Redis} {p : FreePool String} {n : String}

theorem getSoftBind_reply (n : String) (s : Redis) :
    (getSoftBind n s).1 = .ok ((s.bind? n).map StringKey.value) := rfl

theorem boundUntil_iff (allocator : Allocator) (same : s'.bindOf n = s.bindOf n) (k : String)
    {instant : Rat} (ahead : (s.now : Rat) < instant) :
    BoundUntil n k instant s ↔ ∀ ops final elapsed, OtherRun allocator n s' ops final →
      ((final.advance elapsed).now : Rat) < instant →
        ∃ binding, (final.advance elapsed).bind? n = some binding ∧ binding.value = k := by
  rw [Redis.bindOf, Redis.bindOf, Prod.mk.injEq] at same
  obtain ⟨sameNow, sameBinding⟩ := same
  constructor
  · rintro ⟨binding, bound, isKey, lasting⟩ ops final elapsed run before
    obtain ⟨stored, _⟩ := Option.filter_eq_some_iff.mp bound
    refine ⟨binding, ?_, isKey⟩
    rw [Redis.bind?, Option.filter_eq_some_iff]
    refine ⟨(run.binds.2.trans sameBinding).trans stored, ?_⟩
    rw [StringKey.live]
    cases expires : binding.expireAt with
    | none => rfl
    | some lapse =>
        have later := lt_of_lt_of_le before (lasting lapse expires)
        exact decide_eq_true (by exact_mod_cast later)
  · intro seen
    obtain ⟨binding, bound, isKey⟩ :=
      seen [] s' 0 (.done s') (by rw [Redis.advance]; simpa [sameNow] using ahead)
    have sameBind : (s'.advance 0).bind? n = s.bind? n := by
      rw [Redis.bind?, Redis.bind?, Redis.advance, Nat.add_zero, sameNow, sameBinding]
    rw [sameBind] at bound
    refine ⟨binding, bound, isKey, fun lapse expires => ?_⟩
    by_contra early
    rw [not_le] at early
    -- at the instant the binding lapses it is not seen any more
    obtain ⟨stored, live⟩ := Option.filter_eq_some_iff.mp bound
    rw [StringKey.live, expires, decide_eq_true_eq] at live
    have reached : (s'.advance (lapse - s.now)).now = lapse := by
      have advanced : (s'.advance (lapse - s.now)).now = s'.now + (lapse - s.now) := rfl
      omega
    obtain ⟨_, still, _⟩ :=
      seen [] s' (lapse - s.now) (.done s') (by rw [reached]; exact early)
    have lapsed : (s'.advance (lapse - s.now)).bind? n = none := by
      rw [Redis.bind?, Option.filter_eq_none_iff]
      intro other isOther
      obtain rfl := Option.some.inj (isOther.symm.trans (sameBinding.trans stored))
      rw [StringKey.live, expires, decide_eq_true_eq]
      exact not_lt.mpr (le_of_eq reached.symm)
    cases lapsed.symm.trans still

theorem seenUntil_iff (rep : Represents s' p) (same : s'.bindOf n = s.bindOf n) (named : n ≠ "")
    (k : String) {instant : Rat} (ahead : (s.now : Rat) < instant) (timeout : Timeout) :
    SeenUntil allocator n k instant timeout s' ↔ BoundUntil n k instant s ∧
      (allocator.shared = true ∨ 0 < timeout.wholeSeconds ∨
        ¬ UsableBefore allocator n k instant s') := by
  have granted : ∀ {ops final elapsed}, OtherRun allocator n s' ops final →
      ((final.advance elapsed).now : Rat) < instant → BoundUntil n k instant s →
      (final.advance elapsed).UsableMember k → ∀ cacheTimeout,
        ((mallocKey allocator.shared timeout (some n) cacheTimeout (final.advance elapsed)).1 =
          .ok (some k) ↔ allocator.shared = true ∨ 0 < timeout.wholeSeconds) := by
    intro ops final elapsed run before bound usable cacheTimeout
    obtain ⟨val, isMember, unlocked, _⟩ := usable
    obtain ⟨binding, isBound, rfl⟩ :=
      (boundUntil_iff allocator same k ahead).mp bound ops final elapsed run before
    obtain ⟨q, rep'⟩ := run.represents rep
    have repLater : Represents (final.advance elapsed) q := rep'.of_outside_pool rfl rfl rfl
    refine mallocKey_bound_iff repLater named isBound ?_ unlocked allocator.shared timeout
      cacheTimeout
    rw [← repLater.hget_isSome, isMember]
    rfl
  constructor
  · intro seen
    have bound : BoundUntil n k instant s := by
      refine (boundUntil_iff allocator same k ahead).mpr fun ops final elapsed run before => ?_
      have reads := (seen ops final elapsed run before).1
      rw [getSoftBind_reply, Except.ok.injEq, Option.map_eq_some_iff] at reads
      exact reads
    refine ⟨bound, ?_⟩
    rw [← or_assoc, or_iff_not_imp_right, not_not]
    rintro ⟨ops, final, elapsed, run, before, usable⟩
    exact (granted run before bound usable (.int 0)).mp
      ((seen ops final elapsed run before).2 usable (.int 0))
  · rintro ⟨bound, grants⟩ ops final elapsed run before
    obtain ⟨binding, isBound, isKey⟩ :=
      (boundUntil_iff allocator same k ahead).mp bound ops final elapsed run before
    refine ⟨by rw [getSoftBind_reply, isBound, ← isKey]; rfl, fun usable cacheTimeout => ?_⟩
    refine (granted run before bound usable cacheTimeout).mpr ?_
    rcases grants with shared | positive | never
    · exact Or.inl shared
    · exact Or.inr positive
    · exact absurd ⟨ops, final, elapsed, run, before, usable⟩ never

theorem forgotten_iff (same : s'.bindOf n = s.bindOf n) :
    Forgotten allocator n s' ↔ s.bind? n = none := by
  rw [Redis.bindOf, Redis.bindOf, Prod.mk.injEq] at same
  obtain ⟨sameNow, sameBinding⟩ := same
  constructor
  · intro forgotten
    have atOnce := (forgotten [] s' 0 (.done s')).1
    rw [getSoftBind_reply, Except.ok.injEq, Option.map_eq_none_iff, Redis.bind?, Redis.advance,
      Nat.add_zero, sameNow, sameBinding] at atOnce
    exact atOnce
  · intro unbound ops final elapsed run
    obtain ⟨later, binds⟩ := run.binds
    have stillUnbound : (final.advance elapsed).bind? n = none := by
      rw [Redis.bind?, Option.filter_eq_none_iff] at unbound ⊢
      intro binding stored live
      rw [Redis.advance, binds, sameBinding] at stored
      have sum : s.now + (final.now + elapsed - s.now) = (final.advance elapsed).now :=
        Nat.add_sub_cancel' (by omega)
      exact unbound binding stored (binding.live_antitone (sum ▸ live))
    exact ⟨by rw [getSoftBind_reply, stillUnbound]; rfl,
      fun timeout cacheTimeout => mallocKey_unbound stillUnbound _ _ _⟩

end Conditions

def runSteps (allocator : Allocator) (steps : List Step) : LuaScript Unit :=
  steps.forM fun step => do let _ ← step.script allocator; pure ()

/-- An API update is seen exactly if the scripts already hold this binding for as long, and the
`malloc_key` that meets it is shared, locks for a while, or cannot find `k` free; an API unbinding,
also that of `set_unhealthy`, exactly if they hold none. -/
theorem softBinding_agrees_iff (allocator : Allocator) {s : Redis} {L : List String}
    (wellFormed : WellFormed s L) {n : String} (named : n ≠ "") :
    (∀ k timeout mallocTimeout, 0 < timeout.toSeconds →
      (updateSoftBind allocator n k timeout s).1 = .ok () →
      (SeenUntil allocator n k (s.now + 1000 * timeout.toSeconds) mallocTimeout
          (updateSoftBind allocator n k timeout s).2 ↔
        BoundUntil n k (s.now + 1000 * timeout.toSeconds) s ∧
          (allocator.shared = true ∨ 0 < mallocTimeout.wholeSeconds ∨
            ¬ UsableBefore allocator n k (s.now + 1000 * timeout.toSeconds)
              (updateSoftBind allocator n k timeout s).2))) ∧
    (Forgotten allocator n (unbindSoftBind allocator n s).2 ↔ s.bind? n = none) ∧
    ∀ (object : AllocatorObject) (duration : Timeout), object.name = some n →
      (Forgotten allocator n
          (runSteps allocator (object.setUnhealthy allocator duration) s).2 ↔ s.bind? n = none) := by
  refine ⟨fun k timeout mallocTimeout positive _ => ?_, forgotten_iff ?_,
    fun object duration isName => forgotten_iff ?_⟩
  · have kept := lockUpdate_keeps (allocator.softBindName n) k timeout
    refine seenUntil_iff (wellFormed.represents.of_besidesLocks (kept s))
      (besidesLocks_bindOf kept s) named k ?_ mallocTimeout
    linarith
  · exact Keeps.bind (besidesLocks_bindOf (unlock_keeps _)) (fun _ => Keeps.pure _) s
  · have each : ∀ step ∈ object.setUnhealthy allocator duration,
        Keeps (Redis.bindOf n) (step.script allocator) := by
      intro step inSteps
      simp only [AllocatorObject.setUnhealthy, isName, List.cons_append, List.nil_append,
        List.mem_cons, List.not_mem_nil, or_false] at inSteps
      rcases inSteps with rfl | rfl
      · exact Keeps.bind (besidesLocks_bindOf (unlock_keeps _)) fun _ => Keeps.pure _
      · exact Keeps.bind (besidesLocks_bindOf (lockUpdate_keeps _ _ _)) fun _ => Keeps.pure _
    simp only [AllocatorObject.setUnhealthy, isName, List.cons_append, List.nil_append] at each ⊢
    exact Keeps.bind (Keeps.bind (each _ (by simp)) fun _ => Keeps.pure _)
      (fun _ => Keeps.bind (Keeps.bind (each _ (by simp)) fun _ => Keeps.pure _) fun _ =>
        Keeps.pure _) s

/-- Two free keys, and an earlier `malloc_key` has bound `job` to the second for a minute. -/
def boundChain : Redis := sampleChain.putBind "job" (some ⟨"b", some 60000⟩)

theorem boundChain_wellFormed : WellFormed boundChain ["a", "b"] := by
  have rep : Represents boundChain sampleChain_wellFormed.pool :=
    sampleChain_wellFormed.represents.of_outside_pool rfl rfl rfl
  exact rep.wellFormed

theorem softBinding_agrees_iff_sample :
    (∀ k timeout mallocTimeout, 0 < timeout.toSeconds →
      (updateSoftBind ⟨"app", "allocator", false⟩ "job" k timeout boundChain).1 = .ok () →
      (SeenUntil ⟨"app", "allocator", false⟩ "job" k (boundChain.now + 1000 * timeout.toSeconds)
          mallocTimeout (updateSoftBind ⟨"app", "allocator", false⟩ "job" k timeout boundChain).2 ↔
        BoundUntil "job" k (boundChain.now + 1000 * timeout.toSeconds) boundChain ∧
          (false = true ∨ 0 < mallocTimeout.wholeSeconds ∨
            ¬ UsableBefore ⟨"app", "allocator", false⟩ "job" k
              (boundChain.now + 1000 * timeout.toSeconds)
              (updateSoftBind ⟨"app", "allocator", false⟩ "job" k timeout boundChain).2))) ∧
    (Forgotten ⟨"app", "allocator", false⟩ "job"
        (unbindSoftBind ⟨"app", "allocator", false⟩ "job" boundChain).2 ↔
      boundChain.bind? "job" = none) ∧
    ∀ (object : AllocatorObject) (duration : Timeout), object.name = some "job" →
      (Forgotten ⟨"app", "allocator", false⟩ "job"
          (runSteps ⟨"app", "allocator", false⟩
            (object.setUnhealthy ⟨"app", "allocator", false⟩ duration) boundChain).2 ↔
        boundChain.bind? "job" = none) :=
  softBinding_agrees_iff _ boundChain_wellFormed (by decide)

/-- After `update_soft_bind("job", "a")` the name still reads as `b`, and after
`unbind_soft_bind("job")` it does too, and `malloc_key` goes on honouring it. -/
theorem softBinding_sides_apart :
    (updateSoftBind ⟨"app", "allocator", false⟩ "job" "a" (.int 60) boundChain).1 = .ok () ∧
    (getSoftBind "job"
      (updateSoftBind ⟨"app", "allocator", false⟩ "job" "a" (.int 60) boundChain).2).1 =
        .ok (some "b") ∧
    (getSoftBind "job" (unbindSoftBind ⟨"app", "allocator", false⟩ "job" boundChain).2).1 =
      .ok (some "b") ∧
    (mallocKey false (.int 30) (some "job") (.int 60)
      (unbindSoftBind ⟨"app", "allocator", false⟩ "job" boundChain).2).1 = .ok (some "b") ∧
    (mallocKey false (.int 30) none (.int 60)
      (unbindSoftBind ⟨"app", "allocator", false⟩ "job" boundChain).2).1 = .ok (some "a") :=
  ⟨rfl, rfl, rfl, rfl, rfl⟩

end RedisAllocator

import RedisAllocator.Pool.Batches
import RedisAllocator.Pool.Handouts

/-!
# `malloc_key` as one queue operation

Both paths of `_malloc_script` with their whole effect.  The pop path hands out
the first queued key that is neither expired nor locked and clears away what
stands before it.  The soft-binding path takes its key out of the middle of the
queue; a stale binding is dropped, and the call then is an anonymous one with a
binding written at its end.
-/

set_option autoImplicit false

namespace RedisAllocator

open AbortableScript AbortableScript.Script

/-- A queued key that the pop path passes over: expired, or with a live lock. -/
def Redis.skips (s : Redis) (k : String) : Bool :=
  (s.expiryOf k).any s.isExpiryInvalid || s.locked k

theorem Represents.skips_eq {s : Redis} {p : FreePool String} (rep : Represents s p) :
    p.skips s.isExpiryInvalid s.locked = s.skips := by
  funext k
  rw [FreePool.skips, Redis.skips, rep.expiryOf]

def Redis.dropStale (s : Redis) (name : String) : Redis :=
  if name = "" ∨ s.bind? name = none then s else s.putBind name none

/-- The binding that ends a call: `refresh_cache` on what was popped, if anything was. -/
def bindReturned (name : String) (cacheTimeout : Int) : Option String → LuaScript (Option String)
  | none => pure none
  | some itemName => do
    refreshCache name cacheTimeout itemName
    pure (some itemName)

def Redis.handedOut (s : Redis) (shared : Bool) (timeout : Int) (name : String)
    (cacheTimeout : Int) : Option String → Redis
  | none => s
  | some k =>
    (if shared then s else s.putLock k (some (s.mallocLock timeout))).refreshed name cacheTimeout k

section Frames

variable (s : Redis) (name : String)

theorem Redis.dropStale_frame :
    (s.dropStale name).pool = s.pool ∧ (s.dropStale name).head = s.head ∧
      (s.dropStale name).tail = s.tail ∧ (s.dropStale name).now = s.now ∧
      (s.dropStale name).gcCursor = s.gcCursor ∧ (s.dropStale name).locks = s.locks := by
  rw [dropStale]
  split
  · exact ⟨rfl, rfl, rfl, rfl, rfl, rfl⟩
  · exact ⟨rfl, rfl, rfl, rfl, rfl, rfl⟩

theorem Redis.binds_dropStale {n : String} (other : n ≠ name ∨ n = "") :
    (s.dropStale name).binds n = s.binds n := by
  rw [dropStale]
  split
  · rfl
  · rename_i named
    have different : n ≠ name := by
      rcases other with different | isEmpty
      · exact different
      · exact fun same => named (Or.inl (same ▸ isEmpty))
    exact Function.update_of_ne different _ _

theorem Redis.binds_refreshed (cacheTimeout : Int) (cacheKey : String) {n : String}
    (other : n ≠ name ∨ n = "") :
    (s.refreshed name cacheTimeout cacheKey).binds n = s.binds n := by
  rw [refreshed]
  split
  · rfl
  · rename_i named
    have different : n ≠ name := by
      rcases other with different | isEmpty
      · exact different
      · exact fun same => named (same ▸ isEmpty)
    exact Function.update_of_ne different _ _

variable (shared : Bool) (timeout cacheTimeout : Int) (first : Option String)

theorem Redis.now_handedOut : (s.handedOut shared timeout name cacheTimeout first).now = s.now := by
  cases first with
  | none => rfl
  | some k =>
      rw [handedOut, now_refreshed]
      split <;> rfl

theorem Redis.gcCursor_handedOut :
    (s.handedOut shared timeout name cacheTimeout first).gcCursor = s.gcCursor := by
  cases first with
  | none => rfl
  | some k =>
      rw [handedOut, refreshed]
      split <;> split <;> rfl

theorem Redis.locks_handedOut (k : String) :
    (s.handedOut shared timeout name cacheTimeout first).locks k =
      if shared = false ∧ first = some k then some (s.mallocLock timeout) else s.locks k := by
  cases first with
  | none => simp [handedOut]
  | some j =>
      rw [handedOut, locks_refreshed]
      cases shared with
      | true => simp
      | false =>
          by_cases same : k = j
          · simp [same, putLock]
          · simp [putLock, same, Ne.symm same]

theorem Redis.binds_handedOut {n : String} (other : n ≠ name ∨ n = "") :
    (s.handedOut shared timeout name cacheTimeout first).binds n = s.binds n := by
  cases first with
  | none => rfl
  | some k =>
      rw [handedOut, binds_refreshed _ name cacheTimeout k other]
      split <;> rfl

end Frames

section Paths

variable {s : Redis} {p : FreePool String} {name : String} (shared : Bool)
  (timeout cacheTimeout : Int)

theorem mallocBound_unusable (unusable : s.boundKey name = none) :
    mallocBound shared timeout name cacheTimeout s = (.ok none, s.dropStale name) := by
  rw [mallocBound, Redis.dropStale]
  by_cases noName : name = ""
  · rw [if_pos noName, if_pos (Or.inl noName)]
    rfl
  · rw [if_neg noName]
    simp only [Command.getBind, read_bind_apply]
    cases bound : s.bind? name with
    | none =>
        rw [if_pos (Or.inr rfl)]
        rfl
    | some binding =>
        have stale : (!(s.hget binding.value).isSome || s.locked binding.value) = true := by
          rw [Redis.boundKey, if_neg noName, bound, Option.map_some, Option.filter_eq_none_iff]
            at unusable
          have leadsNowhere := unusable binding.value rfl
          revert leadsNowhere
          cases (s.hget binding.value).isSome <;> cases s.locked binding.value <;> simp
        simp only [Option.map_some, Command.hexists, Command.existsLock, read_bind_apply, stale,
          noName, reduceCtorEq, or_self, if_true, if_false]
        rfl

theorem mallocScript_unusable (unusable : s.boundKey name = none) :
    mallocScript shared timeout name cacheTimeout s =
      mallocPop shared timeout name cacheTimeout (s.dropStale name) := by
  rw [mallocScript, bind_ok (mallocBound_unusable shared timeout cacheTimeout unusable)]

theorem Redis.dropStale_noName (s : Redis) : s.dropStale "" = s := if_pos (Or.inl rfl)

theorem mallocKey_unusable (timeout cacheTimeout : Timeout) {name : Option String}
    (unusable : s.boundKey (name.getD "") = none) :
    mallocKey shared timeout name cacheTimeout s =
      mallocPop shared timeout.wholeSeconds (name.getD "") cacheTimeout.wholeSeconds
        (s.dropStale (name.getD "")) := by
  rw [mallocKey, mallocScript_unusable shared _ _ unusable]

theorem mallocKey_anonymous (timeout cacheTimeout : Timeout) (name : Option String)
    (noName : name.getD "" = "") (s : Redis) :
    mallocKey shared timeout name cacheTimeout s =
      mallocPop shared timeout.wholeSeconds "" cacheTimeout.wholeSeconds s := by
  have unbound : s.boundKey (name.getD "") = none := if_pos noName
  rw [mallocKey_unusable shared timeout cacheTimeout unbound, noName, Redis.dropStale_noName]

theorem mallocPop_named (s : Redis) :
    mallocPop shared timeout name cacheTimeout s =
      (mallocPop shared timeout "" cacheTimeout >>= bindReturned name cacheTimeout) s := by
  rw [bind_apply]
  simp only [mallocPop, Command.hlen, read_bind_apply]
  cases popped : popFromHead (s.pool.keys.card + 2) s with
  | mk reply s₁ =>
      cases reply with
      | error failure => rw [bind_error popped, bind_error popped]
      | ok found =>
          rw [bind_ok popped, bind_ok popped]
          obtain ⟨key, expiry⟩ := found
          cases key with
          | none => rfl
          | some k =>
              simp only
              cases locked : lockOrRotate shared timeout k expiry s₁ with
              | mk reply s₂ =>
                  cases reply with
                  | error failure => rw [bind_error locked, bind_error locked]
                  | ok u =>
                      rw [bind_ok locked, bind_ok locked]
                      rfl

/-- The pop path in closed form, in either mode and whether there is a usable key or not. -/
theorem mallocPop_queue (name : String) (rep : Represents s p) :
    ∃ p', Completes (mallocPop shared timeout name cacheTimeout) s
        (p.available s.isExpiryInvalid s.locked) p'
        (s.handedOut shared timeout name cacheTimeout (p.available s.isExpiryInvalid s.locked)) ∧
      p'.free = (p.afterPop s.isExpiryInvalid s.locked).free ++
        (if shared then (p.available s.isExpiryInvalid s.locked).toList else []) ∧
      p'.expiry = (p.afterPop s.isExpiryInvalid s.locked).expiry := by
  cases first : p.available s.isExpiryInvalid s.locked with
  | none =>
      exact ⟨_, mallocPop_none timeout cacheTimeout name shared rep first, by simp, rfl⟩
  | some k =>
      cases shared with
      | false =>
          exact ⟨_, mallocPop_locks timeout cacheTimeout name rep first, by simp, rfl⟩
      | true =>
          obtain ⟨e, found, done⟩ := mallocPop_rotates timeout cacheTimeout name rep first
          refine ⟨_, done, rfl, ?_⟩
          rw [FreePool.expiry_push, ← found, ← FreePool.expiry_afterPop_of_available first,
            Function.update_eq_self_iff]

end Paths

section Entries

variable {s : Redis} {L : List String}

/-- Without a usable binding `malloc_key` returns the first queued key that is neither expired nor
locked.  Before it the expired keys are deleted and the locked ones leave the queue; the key itself
is locked, or goes to the end in shared mode. -/
theorem mallocKey_pops (wf : WellFormed s L) (shared : Bool) (timeout cacheTimeout : Timeout)
    (name : Option String) (unbound : s.boundKey (name.getD "") = none) :
    ∃ s', mallocKey shared timeout name cacheTimeout s =
        (.ok (L.find? fun k => !s.skips k), s') ∧
      WellFormed s' ((L.dropWhile s.skips).tail ++
        if shared then (L.find? fun k => !s.skips k).toList else []) ∧
      (∀ k, s'.expiryOf k =
        if k ∈ L.takeWhile s.skips ∧ (s.expiryOf k).any s.isExpiryInvalid then none
        else s.expiryOf k) ∧
      (∀ k, s'.locks k =
        if shared = false ∧ L.find? (fun j => !s.skips j) = some k
        then some (s.mallocLock timeout.wholeSeconds) else s.locks k) ∧
      (∀ n, n ≠ name.getD "" ∨ n = "" → s'.binds n = s.binds n) ∧
      s'.now = s.now ∧ s'.gcCursor = s.gcCursor := by
  obtain ⟨pool, head, tail, now, cursor, locks⟩ := s.dropStale_frame (name.getD "")
  have rep : Represents (s.dropStale (name.getD "")) wf.pool :=
    wf.represents.of_outside_pool pool head tail
  have sameExpiry : (s.dropStale (name.getD "")).isExpiryInvalid = s.isExpiryInvalid :=
    Redis.isExpiryInvalid_congr now
  have sameLocks : (s.dropStale (name.getD "")).locked = s.locked := by
    funext k
    rw [Redis.locked, Redis.locked, Redis.lock?, Redis.lock?, locks, now]
  obtain ⟨p', done, queue, expiry⟩ := mallocPop_queue shared timeout.wholeSeconds
    cacheTimeout.wholeSeconds (name.getD "") rep
  obtain ⟨s', run, wf', stored, frame⟩ := done.wellFormed
  rw [sameExpiry, sameLocks] at run queue expiry frame
  refine ⟨s', ?_, ?_, fun k => ?_, fun k => ?_, fun n other => ?_, ?_, ?_⟩
  · rw [mallocKey_unusable shared timeout cacheTimeout unbound, run]
    rfl
  · exact queue ▸ wf'
  · rw [stored, expiry]
    rfl
  · have sameLock : (s.dropStale (name.getD "")).mallocLock timeout.wholeSeconds =
        s.mallocLock timeout.wholeSeconds := by
      rw [Redis.mallocLock, Redis.mallocLock, Redis.deadline, Redis.deadline, now]
    rw [Redis.locks_of_outside frame, Redis.locks_handedOut, sameLock, locks]
    rfl
  · rw [Redis.binds_of_outside frame, Redis.binds_handedOut _ _ _ _ _ _ other,
      Redis.binds_dropStale s _ other]
  · rw [Redis.now_of_outside frame, Redis.now_handedOut, now]
  · have sameCursor := congrArg (fun outside => outside.2.1) frame
    exact sameCursor.trans ((Redis.gcCursor_handedOut _ _ _ _ _ _).trans cursor)

theorem mallocKey_pops_sample :
    ∃ s', mallocKey true (.int 30) none (.int 60) (jobChain 10000) =
        (.ok (["a", "b"].find? fun k => !(jobChain 10000).skips k), s') ∧
      WellFormed s' ((["a", "b"].dropWhile (jobChain 10000).skips).tail ++
        if true then (["a", "b"].find? fun k => !(jobChain 10000).skips k).toList else []) ∧
      (∀ k, s'.expiryOf k =
        if k ∈ ["a", "b"].takeWhile (jobChain 10000).skips ∧
          ((jobChain 10000).expiryOf k).any (jobChain 10000).isExpiryInvalid then none
        else (jobChain 10000).expiryOf k) ∧
      (∀ k, s'.locks k =
        if true = false ∧ ["a", "b"].find? (fun j => !(jobChain 10000).skips j) = some k
        then some ((jobChain 10000).mallocLock (Timeout.int 30).wholeSeconds)
        else (jobChain 10000).locks k) ∧
      (∀ n, n ≠ (none : Option String).getD "" ∨ n = "" →
        s'.binds n = (jobChain 10000).binds n) ∧
      s'.now = (jobChain 10000).now ∧ s'.gcCursor = (jobChain 10000).gcCursor :=
  mallocKey_pops (jobChain_wellFormed 10000) true (.int 30) (.int 60) none (if_pos rfl)

/-- A live binding of `name`.  To an unlocked member: that key is returned wherever it stands, and
in non-shared mode leaves the queue with a lock for the whole seconds of the timeout.  To anything
else: the binding is dropped, and an anonymous call follows whose key is bound to `name`. -/
theorem mallocKey_binds (wf : WellFormed s L) (shared : Bool) (timeout cacheTimeout : Timeout)
    {name : String} (named : name ≠ "") {binding : StringKey} (live : s.bind? name = some binding) :
    ((s.hget binding.value).isSome → s.locked binding.value = false →
      shared = true ∨ 1 ≤ timeout.toSeconds →
      ∃ s', mallocKey shared timeout (some name) cacheTimeout s = (.ok (some binding.value), s') ∧
        WellFormed s' (if shared then L else L.erase binding.value) ∧
        s'.expiryOf = s.expiryOf ∧
        s'.outside = ((if shared then s else s.putLock binding.value
          (some ⟨"1", some (s.deadline timeout.wholeSeconds)⟩)).refreshed name
            cacheTimeout.wholeSeconds binding.value).outside) ∧
    (s.hget binding.value = none ∨ s.locked binding.value = true →
      mallocKey shared timeout (some name) cacheTimeout s =
        (mallocKey shared timeout none cacheTimeout >>=
          bindReturned name cacheTimeout.wholeSeconds) (s.putBind name none)) := by
  have isBinding : (s.bind? name).map StringKey.value = some binding.value := by
    rw [live, Option.map_some]
  constructor
  · intro isMember unlocked long
    have bound : s.boundKey name = some binding.value :=
      Redis.boundKey_eq_some.mpr ⟨named, ⟨binding, live, rfl⟩, isMember, unlocked⟩
    cases shared with
    | true =>
        obtain ⟨s', run, wf', expiry, frame⟩ := (mallocScript_binds timeout.wholeSeconds
          cacheTimeout.wholeSeconds wf.represents bound).wellFormed
        exact ⟨s', run, wf', expiry.trans wf.represents.expiryOf.symm, frame⟩
    | false =>
        have positive : 0 < timeout.wholeSeconds := by
          rw [Timeout.wholeSeconds, truncate_pos_iff]
          exact long.resolve_left Bool.false_ne_true
        obtain ⟨s', run, wf', expiry, frame⟩ := (mallocScript_binds_locks timeout.wholeSeconds
          cacheTimeout.wholeSeconds wf.represents bound positive).wellFormed
        refine ⟨s', run, wf', expiry.trans wf.represents.expiryOf.symm, frame.trans ?_⟩
        rw [if_neg Bool.false_ne_true, Redis.refreshed, Redis.refreshed, if_neg named, if_neg named]
        rfl
  · intro stale
    have unusable : s.boundKey name = none := by
      rw [Redis.boundKey, if_neg named, isBinding, Option.filter_eq_none_iff]
      intro k same
      cases same
      rcases stale with absent | locked
      · simp [absent]
      · simp [locked]
    have dropped : s.dropStale name = s.putBind name none := by
      rw [Redis.dropStale, if_neg]
      simp [named, live]
    have anonymous := mallocKey_anonymous shared timeout cacheTimeout none rfl (s.putBind name none)
    have pops := mallocScript_unusable shared timeout.wholeSeconds cacheTimeout.wholeSeconds
      unusable
    rw [dropped, mallocPop_named, bind_apply, ← anonymous, ← bind_apply] at pops
    exact pops

theorem mallocKey_binds_sample :
    (((jobChain 0).hget "a").isSome → (jobChain 0).locked "a" = false →
      false = true ∨ 1 ≤ (Timeout.int 30).toSeconds →
      ∃ s', mallocKey false (.int 30) (some "job") (.int 60) (jobChain 0) = (.ok (some "a"), s') ∧
        WellFormed s' (if false then ["a", "b"] else ["a", "b"].erase "a") ∧
        s'.expiryOf = (jobChain 0).expiryOf ∧
        s'.outside = ((if false then jobChain 0 else (jobChain 0).putLock "a"
          (some ⟨"1", some ((jobChain 0).deadline (Timeout.int 30).wholeSeconds)⟩)).refreshed "job"
            (Timeout.int 60).wholeSeconds "a").outside) ∧
    ((jobChain 0).hget "a" = none ∨ (jobChain 0).locked "a" = true →
      mallocKey false (.int 30) (some "job") (.int 60) (jobChain 0) =
        (mallocKey false (.int 30) none (.int 60) >>=
          bindReturned "job" (Timeout.int 60).wholeSeconds) ((jobChain 0).putBind "job" none)) :=
  mallocKey_binds (jobChain_wellFormed 0) false (.int 30) (.int 60) (by decide)
    (rfl : (jobChain 0).bind? "job" = some ⟨"a", none⟩)

/-- Half a second is a positive timeout, and the bound key is not returned. -/
theorem half_second_refused : WellFormed (jobChain 0) ["a", "b"] ∧
    (jobChain 0).bind? "job" = some ⟨"a", none⟩ ∧ ((jobChain 0).hget "a").isSome ∧
    (jobChain 0).locked "a" = false ∧
    ((jobChain 0).expiryOf "a").any (jobChain 0).isExpiryInvalid = false ∧
    0 < (Timeout.float ⟨1, 2, by decide, by decide⟩).toSeconds ∧
    (mallocKey false (.float ⟨1, 2, by decide, by decide⟩) (some "job") (.int 60)
      (jobChain 0)).1 = .error (.command "ERR invalid expire time in 'set' command") := by
  refine ⟨jobChain_wellFormed 0, rfl, by decide, by decide, by decide, by decide, by decide⟩

end Entries

end RedisAllocator

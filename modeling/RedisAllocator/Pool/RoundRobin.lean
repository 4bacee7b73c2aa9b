import Mathlib.Data.List.Rotate
import RedisAllocator.Pool.Allocation

/-!
# Shared mode as a round robin

In shared mode an anonymous `malloc_key` moves the head of the free list to its
end.  While every queued key is usable, consecutive calls therefore hand out the
keys in turn, and once the turn is complete the pool is what it was.
-/

set_option autoImplicit false

namespace RedisAllocator

open AbortableScript AbortableScript.Script

def Event.isAnonymousMalloc (event : Event) : Bool :=
  match event.call with
  | .mallocKey _ name _ => decide (name.getD "" = "")
  | _ => false

section Rotation

variable {s s' : Redis} {p : FreePool String}

theorem FreePool.pop_head {K : Type} [DecidableEq K] {p : FreePool K} {expired : Int → Bool}
    {locked : K → Bool} (usable : ∀ k ∈ p.free, p.skips expired locked k = false) :
    p.available expired locked = p.free.head? ∧
      (p.afterPop expired locked).free = p.free.tail ∧
      (p.afterPop expired locked).expiry = p.expiry := by
  cases queue : p.free with
  | nil =>
      obtain ⟨none, same⟩ := FreePool.pop_nil expired locked queue
      rw [same, queue]
      exact ⟨none, rfl, rfl⟩
  | cons x rest =>
      obtain ⟨first, same⟩ :=
        FreePool.pop_usable queue (usable x (queue ▸ List.mem_cons_self ..))
      rw [same, FreePool.free_take, queue, List.erase_cons_head]
      exact ⟨first, rfl, rfl⟩

theorem rotate_one {K : Type} (items : List K) :
    items.tail ++ items.head?.toList = items.rotate 1 := by
  cases items with
  | nil => rfl
  | cons x rest => rw [List.rotate_cons_succ, List.rotate_zero]; rfl

/-- An anonymous call in shared mode turns the queue by one place. -/
theorem mallocKey_rotates (rep : Represents s p) (timeout cacheTimeout : Timeout)
    {name : Option String} (noName : name.getD "" = "")
    (usable : ∀ k ∈ p.free, s.skips k = false) :
    ∃ s₁ p', mallocKey true timeout name cacheTimeout s = (.ok p.free.head?, s₁) ∧
      s₁.locks = s.locks ∧ s₁.binds = s.binds ∧ Represents s₁ p' ∧
      p'.free = p.free.rotate 1 ∧ p'.expiry = p.expiry := by
  have unskipped : ∀ k ∈ p.free, p.skips s.isExpiryInvalid s.locked k = false := by
    rw [rep.skips_eq]
    exact usable
  obtain ⟨head, tail, expiry⟩ := FreePool.pop_head unskipped
  obtain ⟨p', ⟨s₁, run, rep₁, frame⟩, queue, expiry'⟩ := mallocPop_queue true
    timeout.wholeSeconds cacheTimeout.wholeSeconds "" rep
  rw [head] at run queue frame
  refine ⟨s₁, p', ?_, ?_, ?_, rep₁, ?_, expiry'.trans expiry⟩
  · rw [mallocKey_anonymous true timeout cacheTimeout name noName, run]
  · rw [Redis.locks_of_outside frame]
    funext k
    rw [Redis.locks_handedOut, if_neg (by simp)]
  · rw [Redis.binds_of_outside frame]
    funext n
    apply Redis.binds_handedOut
    by_cases noName : n = ""
    · exact Or.inr noName
    · exact Or.inl noName
  · rw [queue, tail, if_pos rfl, rotate_one]

theorem CallStep.rotates {event : Event} (step : CallStep true s event s') (rep : Represents s p)
    (anonymous : event.isAnonymousMalloc = true)
    (usable : ∀ k ∈ p.free, event.before.skips k = false) :
    event.reply true = .ok p.free.head? ∧ s'.locks = s.locks ∧ s'.binds = s.binds ∧
      ∃ p', Represents s' p' ∧ p'.free = p.free.rotate 1 ∧ p'.expiry = p.expiry := by
  obtain ⟨before, call⟩ := event
  obtain ⟨⟨elapsed, rfl⟩, _, rfl⟩ := step
  cases call with
  | mallocKey timeout name cacheTimeout =>
      have rep' : Represents (s.advance elapsed) p := rep.of_outside_pool rfl rfl rfl
      obtain ⟨s₁, p', outcome, locks, binds, turned⟩ :=
        mallocKey_rotates rep' timeout cacheTimeout (of_decide_eq_true anonymous) usable
      have after : Event.after true
          ⟨s.advance elapsed, .mallocKey timeout name cacheTimeout⟩ = s₁ :=
        congrArg Prod.snd outcome
      rw [after]
      exact ⟨congrArg Prod.fst outcome, locks, binds, p', turned⟩
  | _ => cases anonymous

theorem CallRun.rotates {final : Redis} {events : List Event}
    (run : CallRun true s events final) (rep : Represents s p)
    (anonymous : ∀ event ∈ events, event.isAnonymousMalloc = true)
    (usable : ∀ event ∈ events, ∀ k ∈ p.free, event.before.skips k = false) :
    (∀ (m : Nat) (event : Event), events[m]? = some event →
      event.reply true = .ok (p.free[m % p.free.length]?)) ∧
      final.locks = s.locks ∧ final.binds = s.binds ∧
      ∃ p', Represents final p' ∧ p'.free = p.free.rotate events.length ∧
        p'.expiry = p.expiry := by
  induction run generalizing p with
  | done s =>
      refine ⟨fun m event found => ?_, rfl, rfl, p, rep, (List.rotate_zero _).symm, rfl⟩
      cases found
  | @fire s middle final event rest first later ih =>
      rw [List.forall_mem_cons] at anonymous usable
      obtain ⟨reply, locks, binds, p₁, rep₁, turned, expiry⟩ :=
        CallStep.rotates first rep anonymous.1 usable.1
      have unskipped : ∀ other ∈ rest, ∀ k ∈ p₁.free, other.before.skips k = false := by
        intro other inRest k present
        rw [turned, List.mem_rotate] at present
        exact usable.2 other inRest k present
      obtain ⟨replies, locks', binds', p', rep', turned', expiry'⟩ :=
        ih rep₁ anonymous.2 unskipped
      refine ⟨fun m other found => ?_, locks'.trans locks, binds'.trans binds, p', rep', ?_,
        expiry'.trans expiry⟩
      · cases m with
        | zero =>
            rw [List.getElem?_cons_zero, Option.some.injEq] at found
            rw [← found, reply, Nat.zero_mod, List.head?_eq_getElem?]
        | succ m =>
            rw [List.getElem?_cons_succ] at found
            rw [replies m other found, turned, List.length_rotate]
            cases queue : p.free with
            | nil => rfl
            | cons x keys =>
                have inQueue : m % (x :: keys).length < (x :: keys).length :=
                  Nat.mod_lt _ (List.length_pos_of_mem (List.mem_cons_self ..))
                rw [List.getElem?_rotate inQueue, Nat.mod_add_mod]
      · rw [turned', turned, List.rotate_rotate, List.length_cons, Nat.add_comm]

end Rotation

/-- Consecutive anonymous calls in shared mode, while the queue holds no expired and no locked key,
return its keys in turn and write no lock.  After every full turn the pool is what it was. -/
theorem sharedRun_roundRobin {s final : Redis} {L : List String} (wf : WellFormed s L)
    (nonempty : L ≠ []) {events : List Event} (run : CallRun true s events final)
    (anonymous : ∀ event ∈ events, event.isAnonymousMalloc = true)
    (usable : ∀ event ∈ events, ∀ k ∈ L, event.before.skips k = false) :
    (∀ (m : Nat) (event : Event), events[m]? = some event → ∃ k, L[m % L.length]? = some k ∧
      event.reply true = .ok (some k)) ∧
    (L.length ∣ events.length → final.pool = s.pool ∧
      final.headPointer = s.headPointer ∧ final.tailPointer = s.tailPointer ∧
      WellFormed final L) ∧
    final.locks = s.locks ∧ final.binds = s.binds := by
  obtain ⟨replies, locks, binds, p', rep', turned, expiry⟩ :=
    CallRun.rotates run wf.represents anonymous usable
  refine ⟨fun m event found => ?_, fun whole => ?_, locks, binds⟩
  · have inQueue : m % L.length < L.length :=
      Nat.mod_lt _ (List.length_pos_iff.mpr nonempty)
    refine ⟨L[m % L.length], List.getElem?_eq_getElem inQueue, ?_⟩
    rw [replies m event found]
    exact congrArg Except.ok (List.getElem?_eq_getElem inQueue)
  · have samePool : p' = wf.pool := by
      apply FreePool.ext
      · obtain ⟨turns, total⟩ := whole
        rw [turned, total]
        exact List.rotate_length_mul wf.pool.free turns
      · exact expiry
    rw [samePool] at rep'
    obtain ⟨pool, head, tail⟩ := rep'.stored_eq wf.represents
    exact ⟨pool, head, tail, rep'.wellFormed⟩

def sampleTurns : List Event :=
  let call : Call := .mallocKey (.int 30) none (.int 60)
  let first : Event := ⟨sampleChain, call⟩
  let second : Event := ⟨first.after true, call⟩
  let third : Event := ⟨second.after true, call⟩
  [first, second, third, ⟨third.after true, call⟩]

def sampleTurned : Redis := (sampleTurns.getLast (by simp [sampleTurns])).after true

theorem sharedRun_roundRobin_sample :
    (∀ (m : Nat) (event : Event), sampleTurns[m]? = some event →
      ∃ k, ["a", "b"][m % ["a", "b"].length]? = some k ∧ event.reply true = .ok (some k)) ∧
    (["a", "b"].length ∣ sampleTurns.length → sampleTurned.pool = sampleChain.pool ∧
      sampleTurned.headPointer = sampleChain.headPointer ∧
      sampleTurned.tailPointer = sampleChain.tailPointer ∧ WellFormed sampleTurned ["a", "b"]) ∧
    sampleTurned.locks = sampleChain.locks ∧ sampleTurned.binds = sampleChain.binds :=
  sharedRun_roundRobin sampleChain_wellFormed (by simp)
    (.fire ⟨⟨0, rfl⟩, trivial, rfl⟩ (.fire ⟨⟨0, rfl⟩, trivial, rfl⟩
      (.fire ⟨⟨0, rfl⟩, trivial, rfl⟩ (.fire ⟨⟨0, rfl⟩, trivial, rfl⟩ (.done _)))))
    (by decide) (by decide)

/-- `a` has been handed out and locked by an allocator of the same pool that is not shared. -/
def partlyLocked : Redis := Event.after false ⟨sampleChain, .mallocKey (.int 30) none (.int 60)⟩

theorem partlyLocked_wellFormed : WellFormed partlyLocked ["b"] := by
  obtain ⟨p', ⟨s', run, rep', _⟩, queue, _⟩ := mallocPop_queue false
    (Timeout.int 30).wholeSeconds (Timeout.int 60).wholeSeconds "" sampleChain_wellFormed.represents
  have remaining : (sampleChain_wellFormed.pool.afterPop sampleChain.isExpiryInvalid
      sampleChain.locked).free = ["b"] := by decide
  have started := mallocKey_anonymous false (.int 30) (.int 60) none rfl sampleChain
  rw [run] at started
  have after : partlyLocked = s' := congrArg Prod.snd started
  rw [if_neg Bool.false_ne_true, List.append_nil, remaining] at queue
  rw [after, ← queue]
  exact rep'.wellFormed

/-- The lock of a key outside the queue outlives every turn. -/
theorem foreign_lock_stays : WellFormed partlyLocked ["b"] ∧ ∃ event : Event,
    CallRun true partlyLocked [event] (event.after true) ∧ event.isAnonymousMalloc = true ∧
    event.before.skips "b" = false ∧ event.reply true = .ok (some "b") ∧
    (event.after true).locked "a" = true := by
  refine ⟨partlyLocked_wellFormed, ⟨partlyLocked, .mallocKey (.int 30) none (.int 60)⟩, ?_⟩
  exact ⟨.fire ⟨⟨0, rfl⟩, trivial, rfl⟩ (.done _), by decide, by decide, by decide, by decide⟩

end RedisAllocator

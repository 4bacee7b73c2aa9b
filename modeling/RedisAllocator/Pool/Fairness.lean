import RedisAllocator.Lib.FifoOrder
import RedisAllocator.Pool.QueueMachine

/-!
# First come, first served

Over any run of calls the free list is a queue: keys leave it from anywhere, and
what joins it, or comes back to it in shared mode, joins at the end.  So two free
keys that wait keep their order, `malloc_key` never prefers the later of them
unless the earlier one has expired, and a waiting key is overtaken at most as
often as it had keys ahead of it.
-/

set_option autoImplicit false

namespace RedisAllocator

open AbortableScript AbortableScript.Script LabelledRun FifoOrder

/-- What `get_free_list` returns. -/
def Redis.freeList (s : Redis) : List String :=
  match (getFreeList s).1 with
  | .ok items => items
  | .error _ => []

theorem Represents.freeList {s : Redis} {p : FreePool String} (rep : Represents s p) :
    s.freeList = p.free := by
  rw [Redis.freeList, getFreeList_represented rep]

/-! ## One call -/

namespace FreePool

variable {K : Type} [DecidableEq K] (p : FreePool K)

theorem free_requeue (k : K) : (p.requeue k).free = p.free ∨ (p.requeue k).free = p.free ++ [k] := by
  rw [requeue]
  cases p.expiry k with
  | none => exact Or.inl rfl
  | some e =>
      simp only [giveBack]
      split
      · exact Or.inr rfl
      · exact Or.inl rfl

theorem ahead_afterPop {p : FreePool K} {expired : Int → Bool} {locked : K → Bool} {j k : K}
    (first : p.available expired locked = some j) (queued : k ∈ (p.afterPop expired locked).free) :
    j ∈ ahead k p.free ∧ ∀ added, j ∉ ahead k ((p.afterPop expired locked).free ++ added) := by
  rw [available, List.find?_not_eq_head?_dropWhile] at first
  obtain ⟨rest, split⟩ := List.head?_eq_some_iff.mp first
  have queue : (p.afterPop expired locked).free = rest := by simp [afterPop, split]
  rw [queue] at queued ⊢
  have whole : p.free = p.free.takeWhile (p.skips expired locked) ++ j :: rest := by
    rw [← split, List.takeWhile_append_dropWhile]
  have unique := p.nodup
  rw [whole, List.nodup_append] at unique
  obtain ⟨_, uniqueRest, apart⟩ := unique
  have fresh := (List.nodup_cons.mp uniqueRest).1
  constructor
  · have passed : ∀ i ∈ p.free.takeWhile (p.skips expired locked), decide (i ≠ k) = true :=
      fun i inFront => by
        simpa using apart i inFront k (List.mem_cons_of_mem j queued)
    have different : j ≠ k := fun same => fresh (same ▸ queued)
    rw [whole, ahead, List.takeWhile_append_of_pos passed,
      List.takeWhile_cons_of_pos (by simpa using different)]
    simp
  · intro added
    rw [ahead_append queued]
    exact fun inAhead => fresh ((List.takeWhile_sublist _).subset inAhead)

theorem skips_of_ahead {p : FreePool K} {expired : Int → Bool} {locked : K → Bool} {j k : K}
    (first : p.available expired locked = some k) (before : j ∈ ahead k p.free) :
    p.skips expired locked j = true := by
  obtain ⟨_, front, back, split, passed⟩ := List.find?_eq_some_iff_append.mp first
  have fresh : ∀ i ∈ front, decide (i ≠ k) = true := fun i inFront => by
    have unique := p.nodup
    rw [split, List.nodup_append] at unique
    simpa using unique.2.2 i inFront k (List.mem_cons_self ..)
  rw [split, ahead, List.takeWhile_append_of_pos fresh,
    List.takeWhile_cons_of_neg (by simp), List.append_nil] at before
  simpa using passed j before

theorem afterPop_nil {p : FreePool K} {expired : Int → Bool} {locked : K → Bool}
    (exhausted : p.available expired locked = none) : (p.afterPop expired locked).free = [] := by
  rw [available, List.find?_not_eq_head?_dropWhile, List.head?_eq_none_iff] at exhausted
  simp [afterPop, exhausted]

end FreePool

section Call

variable (a : QueueAllocator) (shared : Bool)

def returnedKey (reply : Except Failure (Option String)) (k : String) : Prop := reply = .ok (some k)

theorem QueueAllocator.pool_bind (name : String) (cacheTimeout : Int) (k : String) :
    (a.bind name cacheTimeout k).pool = a.pool := by
  rw [bind]
  split
  · rfl
  · rfl

theorem QueueAllocator.pop_pool (timeout : Int) (name : String) (cacheTimeout : Int) :
    (a.pop shared timeout name cacheTimeout).1 = a.pool.available a.expired a.locked ∧
      ∃ added, (a.pop shared timeout name cacheTimeout).2.pool.free =
          (a.pool.afterPop a.expired a.locked).free ++ added ∧
        ∀ k ∈ added, a.pool.available a.expired a.locked = some k := by
  rw [pop, poppedPool]
  cases first : a.pool.available a.expired a.locked with
  | none => exact ⟨rfl, [], (List.append_nil _).symm, by simp⟩
  | some k =>
      refine ⟨rfl, ?_⟩
      simp only
      rw [pool_bind]
      cases shared with
      | false => exact ⟨[], (List.append_nil _).symm, by simp⟩
      | true =>
          rcases FreePool.free_requeue (a.pool.afterPop a.expired a.locked) k with same | longer
          · exact ⟨[], same.trans (List.append_nil _).symm, by simp⟩
          · exact ⟨[k], longer, by simp⟩

theorem QueueAllocator.pop_advances (timeout : Int) (name : String) (cacheTimeout : Int) :
    Advances (fun k => (a.pop shared timeout name cacheTimeout).1 = some k) a.pool.free
      (a.pop shared timeout name cacheTimeout).2.pool.free := by
  obtain ⟨first, added, queue, fresh⟩ := a.pop_pool shared timeout name cacheTimeout
  refine ⟨_, added, queue, (List.tail_sublist _).trans (List.dropWhile_sublist _), fun k isNew => ?_⟩
  exact Or.inr (first.trans (fresh k isNew))

theorem QueueAllocator.pool_forget (name : String) : (a.forget name).pool = a.pool := by
  rw [forget]
  split
  · rfl
  · rfl

theorem QueueAllocator.mallocKey_advances (timeout : Int) (name : String) (cacheTimeout : Int) :
    Advances (returnedKey (a.mallocKey shared timeout name cacheTimeout).1) a.pool.free
      (a.mallocKey shared timeout name cacheTimeout).2.pool.free := by
  rw [mallocKey]
  cases bound : a.boundKey name with
  | none =>
      have popped := (a.forget name).pop_advances shared timeout name cacheTimeout
      rw [a.pool_forget] at popped
      exact popped.mono fun k same => congrArg Except.ok same
  | some k =>
      simp only
      split
      · rw [pool_bind]
        exact .refl _
      · split
        · exact .of_sublist List.erase_sublist
        · exact .of_sublist List.erase_sublist

/-- Whatever the call, it takes keys out of the free list and appends to it. -/
theorem QueueAllocator.perform_advances (call : Call) :
    Advances (returnedKey (a.perform shared call).1) a.pool.free
      (a.perform shared call).2.pool.free := by
  cases call with
  | extend keys timeout =>
      simp only [perform, extend]
      cases validateKeys keys with
      | error e => exact .refl _
      | ok u =>
          simp only
          rw [FreePool.free_joinAll]
          refine .of_append fun k isNew => ?_
          rw [List.mem_eraseDups, FreePool.mem_newIn] at isNew
          exact a.pool.notMem_free_of_expiry_none isNew.2
  | shrink keys =>
      simp only [perform, shrink]
      rw [FreePool.free_removeAll]
      exact .of_sublist List.filter_sublist
  | assign keys timeout allItems pairs =>
      simp only [perform, assign]
      cases validateKeys keys with
      | error e => exact .refl _
      | ok u =>
          simp only
          rw [FreePool.assign, FreePool.free_joinAll, FreePool.free_removeAll]
          refine ⟨_, _, rfl, List.filter_sublist, fun k isNew => Or.inl ?_⟩
          rw [List.mem_eraseDups, FreePool.mem_newIn, FreePool.mem_newIn] at isNew
          exact a.pool.notMem_free_of_expiry_none isNew.1.2
  | clear => exact .of_sublist (List.nil_sublist _)
  | mallocKey timeout name cacheTimeout =>
      exact a.mallocKey_advances shared timeout.wholeSeconds (name.getD "")
        cacheTimeout.wholeSeconds
  | freeKeys keys timeout =>
      simp only [perform, freeKeys]
      rw [FreePool.free_giveBackAll]
      refine .of_append fun k isNew => ?_
      rw [List.mem_eraseDups, List.mem_filter, Bool.and_eq_true, decide_eq_true_eq] at isNew
      exact isNew.2.2
  | gc count hscan =>
      simp only [perform, gc]
      split
      · simp only
        rw [FreePool.free_collectAll]
        refine ⟨_, _, rfl, List.filter_sublist, fun k isNew => Or.inl ?_⟩
        rw [List.mem_eraseDups, List.mem_filter, FreePool.reclaims, Bool.and_eq_true,
          decide_eq_true_eq] at isNew
        exact isNew.2.2
      · exact .refl _

end Call

/-! ## Runs -/

/-- `k` is free after the call, and it is not what the call returned. -/
def Event.KeepsWaiting (shared : Bool) (k : String) (event : Event) : Prop :=
  k ∈ (event.after shared).freeList ∧ event.reply shared ≠ .ok (some k)

/-- A `malloc_key` that finds no usable binding -/
def Event.pops (event : Event) : Bool :=
  match event.call with
  | .mallocKey _ name _ => (event.before.boundKey (name.getD "")).isNone
  | _ => false

section Runs

variable {shared : Bool} {s s' : Redis} {p : FreePool String} {event : Event} {j k : String}

theorem CallStep.advances (sound : AllSound s p) (step : CallStep shared s event s') :
    ∃ p', AllSound s' p' ∧ Advances (returnedKey (event.reply shared)) p.free p'.free := by
  obtain ⟨reply, sound', _⟩ := step.simulates (a := s.queueView p) ⟨sound, rfl⟩
  refine ⟨_, sound', ?_⟩
  rw [← reply]
  exact QueueAllocator.perform_advances { s.queueView p with now := event.before.now } shared
    event.call

theorem CallStep.popped (sound : AllSound s p) (step : CallStep shared s event s')
    (pops : event.pops = true) :
    event.reply shared = .ok (p.available event.before.isExpiryInvalid event.before.locked) ∧
      ∃ added, s'.freeList =
          (p.afterPop event.before.isExpiryInvalid event.before.locked).free ++ added ∧
        ∀ k ∈ added, event.reply shared = .ok (some k) := by
  obtain ⟨started, _⟩ := step.sound sound
  obtain ⟨_, admissible, rfl⟩ := step
  obtain ⟨before, call⟩ := event
  obtain ⟨reply, rep, _⟩ := call_simulates started shared admissible
  cases call with
  | mallocKey timeout name cacheTimeout =>
      have unbound : (before.queueView p).boundKey (name.getD "") = none := by
        rw [started.rep.boundKey_queueView]
        simpa [Event.pops] using pops
      have forgotten : (before.queueView p).forget (name.getD "") =
          (before.dropStale (name.getD "")).queueView p := (before.queueView_dropStale p _).symm
      obtain ⟨first, added, queue, fresh⟩ := ((before.queueView p).forget (name.getD "")).pop_pool
        shared timeout.wholeSeconds (name.getD "") cacheTimeout.wholeSeconds
      obtain ⟨_, _, _, now, _, locks⟩ := before.dropStale_frame (name.getD "")
      have sameExpiry : ((before.queueView p).forget (name.getD "")).expired =
          before.isExpiryInvalid := by
        rw [forgotten, ← Redis.isExpiryInvalid_congr now]
        rfl
      have sameLocks : ((before.queueView p).forget (name.getD "")).locked = before.locked := by
        funext k
        rw [forgotten, Redis.locked, Redis.lock?, ← locks, ← now]
        rfl
      rw [sameExpiry, sameLocks, QueueAllocator.pool_forget] at first queue fresh
      simp only [QueueAllocator.perform, QueueAllocator.mallocKey, unbound] at reply rep
      refine ⟨reply.trans (congrArg Except.ok first), added, rep.freeList.trans queue, ?_⟩
      intro k isNew
      exact reply.trans (congrArg Except.ok (first.trans (fresh k isNew)))
  | _ => cases pops

/-- While `k` waits, a call takes nothing from behind it, and one that pops takes a key from ahead
of it. -/
theorem CallStep.ahead_le (sound : AllSound s p) (queued : k ∈ p.free)
    (step : CallStep shared s event s') (waits : event.KeepsWaiting shared k) :
    (ahead k s'.freeList).length + event.pops.toNat ≤ (ahead k s.freeList).length := by
  obtain ⟨p', sound', advances⟩ := step.advances sound
  obtain ⟨stays, notReturned⟩ := waits
  have after : s'.freeList = p'.free := sound'.rep.freeList
  rw [← step.2.2, after] at stays
  rw [sound.rep.freeList]
  cases pops : event.pops with
  | false =>
      rw [after, Bool.toNat_false]
      exact (advances.ahead_sublist p.nodup queued stays notReturned).length_le
  | true =>
      obtain ⟨reply, added, queue, fresh⟩ := step.popped sound pops
      rw [← after] at stays advances
      have still : k ∈ (p.afterPop event.before.isExpiryInvalid event.before.locked).free := by
        rw [queue] at stays
        exact (List.mem_append.mp stays).resolve_right fun isNew => notReturned (fresh k isNew)
      cases first : p.available event.before.isExpiryInvalid event.before.locked with
      | none =>
          rw [FreePool.afterPop_nil first] at still
          cases still
      | some j =>
          obtain ⟨served, gone⟩ := FreePool.ahead_afterPop first still
          have fewer := advances.ahead_lt p.nodup queued stays notReturned served
            (queue ▸ gone added)
          rw [Bool.toNat_true]
          omega

end Runs

/-- What makes a run fair: it starts from a well-formed pool without locked free keys. -/
theorem WellFormed.allSound {s : Redis} {L : List String} (wf : WellFormed s L)
    (unlocked : ∀ k ∈ L, s.locked k = false) : AllSound s wf.pool :=
  ⟨wf.represents, fun k present _ => unlocked k present⟩

/-- In every run, two keys that stay free keep their order, and a `malloc_key` that pops returns
the later one only when the earlier one has expired. -/
theorem callRun_noOvertaking (shared : Bool) {s final : Redis} {L : List String}
    (wf : WellFormed s L) (unlocked : ∀ k ∈ L, s.locked k = false) {events : List Event}
    (run : CallRun shared s events final) {j k : String} (ahead : [j, k].Sublist L)
    (waits : ∀ event ∈ events, event.KeepsWaiting shared j ∧ event.KeepsWaiting shared k) :
    [j, k].Sublist final.freeList ∧
      ∀ (last : Event) (s' : Redis), CallStep shared final last s' → last.pops = true →
        last.reply shared = .ok (some k) →
          ∃ val, last.before.hget j = some val ∧
            last.before.isExpiryInvalid val.expiry = true := by
  have sound := wf.allSound unlocked
  have start : s.freeList = L := wf.represents.freeList
  have kept : ∀ t event t', (∃ p, AllSound t p) → CallStep shared t event t' →
      (∃ p, AllSound t' p) ∧ (event.KeepsWaiting shared j ∧ event.KeepsWaiting shared k →
        ∃ back : String → Prop, Advances back t.freeList t'.freeList ∧ ¬ back j ∧ ¬ back k ∧
          j ∈ t'.freeList ∧ k ∈ t'.freeList) := by
    rintro t event t' ⟨p, sound⟩ step
    obtain ⟨p', sound', advances⟩ := step.advances sound
    refine ⟨⟨p', sound'⟩, fun ⟨first, second⟩ => ?_⟩
    rw [← sound.rep.freeList, ← sound'.rep.freeList] at advances
    exact ⟨_, advances, first.2, second.2, step.2.2 ▸ first.1, step.2.2 ▸ second.1⟩
  have unique : ∀ t, (∃ p, AllSound t p) → t.freeList.Nodup := by
    rintro t ⟨p, sound⟩
    rw [sound.rep.freeList]
    exact p.nodup
  have order : [j, k].Sublist final.freeList :=
    order_of_run unique _ kept run ⟨_, sound⟩ (start ▸ ahead) waits
  obtain ⟨p, soundFinal⟩ : ∃ p, AllSound final p :=
    run.invariant (fun t => ∃ p, AllSound t p) (fun _ => True)
      (fun t event t' holds _ step => (kept t event t' holds step).1) ⟨_, sound⟩
      fun _ _ => trivial
  refine ⟨order, fun last s' step pops returned => ?_⟩
  obtain ⟨reply, _⟩ := step.popped soundFinal pops
  have first := Except.ok.inj (reply.symm.trans returned)
  rw [soundFinal.rep.freeList] at order
  have skipped := FreePool.skips_of_ahead first (mem_ahead order p.nodup)
  obtain ⟨started, _⟩ := step.sound soundFinal
  have queued : j ∈ p.free := order.subset (by simp)
  rw [started.rep.skips_eq, Redis.skips, started.unlocked j queued trivial, Bool.or_false,
    Redis.expiryOf] at skipped
  obtain ⟨val, stored⟩ := Option.isSome_iff_exists.mp
    ((started.rep.hget_isSome j).trans (p.member j queued))
  rw [stored] at skipped
  exact ⟨val, stored, skipped⟩

def laterKey : Event := ⟨sampleChain.advance 1000, .extend ["c"] none⟩

theorem laterKey_run : CallRun true sampleChain [laterKey] (laterKey.after true) :=
  .fire ⟨⟨1000, rfl⟩, trivial, rfl⟩ (.done _)

theorem callRun_noOvertaking_sample :
    ["a", "b"].Sublist (laterKey.after true).freeList ∧
      ∀ (last : Event) (s' : Redis), CallStep true (laterKey.after true) last s' →
        last.pops = true → last.reply true = .ok (some "b") →
          ∃ val, last.before.hget "a" = some val ∧
            last.before.isExpiryInvalid val.expiry = true :=
  callRun_noOvertaking true sampleChain_wellFormed (by decide) laterKey_run (by decide)
    fun event only => by
      obtain rfl := List.mem_singleton.mp only
      exact ⟨⟨by decide, by decide⟩, by decide, by decide⟩

/-- A free key is overtaken no more often than it had keys ahead of it: while it waits, each
`malloc_key` that pops uses up one of them, and no other call adds any. -/
theorem callRun_boundedBypass (shared : Bool) {s final : Redis} {L : List String}
    (wf : WellFormed s L) (unlocked : ∀ k ∈ L, s.locked k = false) {events : List Event}
    (run : CallRun shared s events final) {k : String} (queued : k ∈ L)
    (waits : ∀ event ∈ events, event.KeepsWaiting shared k) :
    (ahead k final.freeList).length + events.countP Event.pops ≤ (ahead k L).length := by
  have start : s.freeList = L := wf.represents.freeList
  rw [← start] at queued ⊢
  have sound : ∃ p, AllSound s p := ⟨_, wf.allSound unlocked⟩
  refine @ahead_bound_of_run _ _ _ _ _ Redis.freeList (fun s => ∃ p, AllSound s p) _
    Event.pops (Event.KeepsWaiting shared k) ?_ _ _ _ run sound queued waits
  rintro s event s' ⟨p, sound⟩ queued step waiting
  obtain ⟨p', sound', _⟩ := step.advances sound
  rw [sound.rep.freeList] at queued
  exact ⟨⟨p', sound'⟩, step.2.2 ▸ waiting.1, step.ahead_le sound queued waiting⟩

def firstServed : Event := ⟨sampleChain.advance 1000, .mallocKey (.int 30) none (.int 60)⟩

theorem firstServed_run : CallRun false sampleChain [firstServed] (firstServed.after false) :=
  .fire ⟨⟨1000, rfl⟩, trivial, rfl⟩ (.done _)

theorem callRun_boundedBypass_sample :
    (ahead "b" (firstServed.after false).freeList).length + [firstServed].countP Event.pops ≤
      (ahead "b" ["a", "b"]).length :=
  callRun_boundedBypass false sampleChain_wellFormed (by decide) firstServed_run (by decide)
    fun event only => by
      obtain rfl := List.mem_singleton.mp only
      exact ⟨by decide, by decide⟩

end RedisAllocator

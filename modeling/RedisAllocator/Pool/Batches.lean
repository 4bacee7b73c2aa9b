import RedisAllocator.Pool.QueueBatches
import RedisAllocator.Pool.Runs

/-!
# The batch scripts are queue batches

`_shrink_script`, `_extend_script`, `_free_script` and `_assign_script`, each as
one batch on the represented queue, with the locks it lifts.  Whatever keys stand
in a batch, in whatever order and how often, the pool afterwards is given in
closed form; and `assign` is a `shrink` followed by an `extend`.
-/

set_option autoImplicit false

namespace RedisAllocator

open AbortableScript AbortableScript.Script

/-! ## States that represent the same pool -/

/-- The expiry stored for `k`; `none` if `k` is no member. -/
def Redis.expiryOf (s : Redis) (k : String) : Option Int := (s.hget k).map PoolEntry.expiry

/-- The scripts cannot tell the states apart: a missing pointer reads as an empty one. -/
structure Redis.Alike (s s' : Redis) : Prop where
  pool : s.pool = s'.pool
  head : s.headPointer = s'.headPointer
  tail : s.tailPointer = s'.tailPointer
  outside : s.outside = s'.outside

section Represents

variable {s s' : Redis} {p : FreePool String}

theorem Represents.expiryOf (rep : Represents s p) : s.expiryOf = p.expiry := by
  funext k
  rw [Redis.expiryOf, rep.entry k, Option.map_map]
  cases p.expiry k with
  | none => rfl
  | some e => simp

theorem Represents.stored_eq (rep : Represents s p) (rep' : Represents s' p) :
    s.pool = s'.pool ∧ s.headPointer = s'.headPointer ∧ s.tailPointer = s'.tailPointer := by
  refine ⟨?_, rep.head.trans rep'.head.symm, rep.tail.trans rep'.tail.symm⟩
  apply Finmap.ext_lookup
  intro k
  exact (rep.entry k).trans (rep'.entry k).symm

theorem Represents.alike (rep : Represents s p) (rep' : Represents s' p)
    (outside : s.outside = s'.outside) : s.Alike s' := by
  obtain ⟨pool, head, tail⟩ := rep.stored_eq rep'
  exact ⟨pool, head, tail, outside⟩

theorem Redis.isSome_expiryOf (s : Redis) (k : String) :
    (s.expiryOf k).isSome = (s.hget k).isSome := Option.isSome_map

theorem Completes.wellFormed {α : Type} {x : LuaScript α} {a : α} {t : Redis}
    (done : Completes x s a p t) :
    ∃ s', x s = (.ok a, s') ∧ WellFormed s' p.free ∧ s'.expiryOf = p.expiry ∧
      s'.outside = t.outside := by
  obtain ⟨s', run, rep, frame⟩ := done
  exact ⟨s', run, rep.wellFormed, rep.expiryOf, frame⟩

end Represents

/-! ## Locks lifted by a batch -/

def Redis.unlockAll (s : Redis) (keys : List String) : Redis :=
  { s with locks := fun k => if k ∈ keys then none else s.locks k }

section UnlockAll

variable {s s' : Redis}

theorem Redis.unlockAll_nil (s : Redis) : s.unlockAll [] = s := by simp [unlockAll]

theorem Redis.unlockAll_cons (s : Redis) (k : String) (rest : List String) :
    (s.putLock k none).unlockAll rest = s.unlockAll (k :: rest) := by
  rw [unlockAll, unlockAll, putLock]
  congr 1
  funext j
  by_cases same : j = k
  · simp [same]
  · simp [same]

theorem Redis.unlockAll_congr (s : Redis) {keys keys' : List String}
    (same : ∀ k, k ∈ keys ↔ k ∈ keys') : s.unlockAll keys = s.unlockAll keys' := by
  rw [unlockAll, unlockAll]
  congr 1
  funext j
  rw [if_congr (same j) rfl rfl]

theorem Redis.unlockAll_outside_congr (same : s'.outside = s.outside) (keys : List String) :
    (s'.unlockAll keys).outside = (s.unlockAll keys).outside := by
  simp only [outside, unlockAll, Prod.mk.injEq] at same ⊢
  obtain ⟨now, cursor, locks, binds⟩ := same
  exact ⟨now, cursor, by rw [locks], binds⟩

end UnlockAll

/-! ## The loops -/

section Loops

variable {s : Redis} {p : FreePool String}

theorem shrinkItems_complete (keys : List String) (rep : Represents s p) :
    Completes (keys.forM shrinkItem) s () (keys.foldl FreePool.remove p) s := by
  induction keys generalizing s p with
  | nil => exact ⟨s, rfl, rep, rfl⟩
  | cons k rest ih =>
      apply (shrinkItem_completes rep k).bind
      intro s' rep' frame
      obtain ⟨final, run, represents, frame'⟩ := ih rep'
      exact ⟨final, run, represents, frame'.trans frame⟩

theorem extendItems_complete (e : Int) {keys : List String} (named : ∀ k ∈ keys, Nameable k)
    (rep : Represents s p) :
    Completes (keys.forM (extendItem e)) s () (keys.foldl (·.join e ·) p)
      (s.unlockAll (p.newIn keys)) := by
  induction keys generalizing s p with
  | nil => exact ⟨s, rfl, rep, by rw [FreePool.newIn, List.filter_nil, Redis.unlockAll_nil]⟩
  | cons k rest ih =>
      have later : ∀ j ∈ rest, Nameable j := fun j inRest => named j (List.mem_cons_of_mem k inRest)
      rw [List.foldl_cons]
      cases isMember : p.expiry k with
      | some old =>
          have present : (p.expiry k).isSome := by rw [isMember]; rfl
          rw [FreePool.join_member present]
          apply (extendItem_member rep present e).bind
          intro s' rep' frame
          obtain ⟨final, run, represents, frame'⟩ := ih later rep'
          refine ⟨final, run, represents, frame'.trans ?_⟩
          rw [Redis.unlockAll_outside_congr frame]
          apply congrArg Redis.outside
          apply Redis.unlockAll_congr
          intro j
          by_cases same : j = k
          · simp [FreePool.mem_newIn, same, isMember]
          · simp [FreePool.mem_newIn, same]
      | none =>
          rw [FreePool.join_new isMember]
          apply (extendItem_new rep isMember (named k (List.mem_cons_self ..)) e).bind
          intro s' rep' frame
          obtain ⟨final, run, represents, frame'⟩ := ih later rep'
          refine ⟨final, run, represents, frame'.trans ?_⟩
          rw [Redis.unlockAll_outside_congr frame, Redis.unlockAll_cons]
          apply congrArg Redis.outside
          apply Redis.unlockAll_congr
          intro j
          by_cases same : j = k
          · simp [FreePool.mem_newIn, same, isMember]
          · simp [FreePool.mem_newIn, same]

/-- `held` is what was locked when the batch began.  A member that is not queued is still so, and
a queued one has no live lock. -/
theorem freeItems_complete (held : String → Bool) (e : Int) (keys : List String)
    (rep : Represents s p) (unlocked : ∀ k ∈ p.free, s.locked k = false)
    (same : ∀ k, (p.expiry k).isSome → k ∉ p.free → s.locked k = held k) :
    Completes (keys.forM (freeItem e)) s () (keys.foldl (·.giveBack held e ·) p)
      (s.unlockAll keys) := by
  induction keys generalizing s p with
  | nil => exact ⟨s, rfl, rep, by rw [Redis.unlockAll_nil]⟩
  | cons k rest ih =>
      rw [List.foldl_cons, ← Redis.unlockAll_cons]
      by_cases isHeld : s.locked k = true ∧ (p.expiry k).isSome
      · obtain ⟨locked, isMember⟩ := isHeld
        have fresh : k ∉ p.free := by
          intro present
          rw [unlocked k present] at locked
          cases locked
        rw [FreePool.giveBack_held isMember (same k isMember fresh ▸ locked) fresh]
        apply (freeItem_held rep isMember locked fresh e).bind
        intro s' rep' frame
        have locks := Redis.locked_of_outside frame
        obtain ⟨final, run, represents, frame'⟩ := ih rep'
          (by
            intro j present
            rw [locks, Redis.locked_putLock_none]
            rcases List.mem_append.mp present with old | new
            · rw [unlocked j old, Bool.and_false]
            · simp [List.mem_singleton.mp new])
          (by
            intro j isMember notQueued
            rw [FreePool.free_push, List.mem_append, List.mem_singleton, not_or] at notQueued
            rw [FreePool.expiry_push, Function.update_of_ne notQueued.2] at isMember
            rw [locks, Redis.locked_putLock_none]
            simp [notQueued.2, same j isMember notQueued.1])
        exact ⟨final, run, represents, frame'.trans (Redis.unlockAll_outside_congr frame rest)⟩
      · have stays : p.giveBack held e k = p := by
          apply dif_neg
          rintro ⟨⟨isMember, isHeld'⟩, fresh⟩
          exact isHeld ⟨(same k isMember fresh).trans isHeld', isMember⟩
        rw [stays]
        apply (freeItem_idle rep isHeld e).bind
        intro s' rep' frame
        have locks := Redis.locked_of_outside frame
        obtain ⟨final, run, represents, frame'⟩ := ih rep'
          (by
            intro j present
            rw [locks, Redis.locked_putLock_none, unlocked j present, Bool.and_false])
          (by
            intro j isMember notQueued
            rw [locks, Redis.locked_putLock_none, ← same j isMember notQueued]
            by_cases isKey : j = k
            · subst isKey
              have idle : s.locked j = false := by simpa [isMember] using isHeld
              simp [idle]
            · simp [isKey])
        exact ⟨final, run, represents, frame'.trans (Redis.unlockAll_outside_congr frame rest)⟩

/-- The first loop of `assign` evicts the members outside `keys`, and leaves the new keys. -/
theorem keepOrEvict_completes (keys : List String) {allItems : List String}
    (unique : allItems.Nodup) (members : ∀ k ∈ allItems, (p.expiry k).isSome)
    (rep : Represents s p) :
    Completes (allItems.foldlM keepOrEvict keys) s (keys.filter (· ∉ allItems))
      ((allItems.filter (· ∉ keys)).foldl FreePool.remove p) s := by
  induction allItems generalizing keys s p with
  | nil => exact ⟨s, by simp, rep, rfl⟩
  | cons k rest ih =>
      obtain ⟨fresh, unique'⟩ := List.nodup_cons.mp unique
      have different : ∀ j ∈ rest, j ≠ k := fun j inRest same => fresh (same ▸ inRest)
      by_cases kept : k ∈ keys
      · have step : keepOrEvict keys k s = (.ok (keys.filter (· ≠ k)), s) := by
          rw [keepOrEvict, if_pos kept]
          rfl
        obtain ⟨final, run, represents, frame⟩ := ih (keys.filter (· ≠ k)) unique'
          (fun j inRest => members j (List.mem_cons_of_mem k inRest)) rep
        have left : (keys.filter (· ≠ k)).filter (· ∉ rest) = keys.filter (· ∉ k :: rest) := by
          rw [List.filter_filter]
          apply List.filter_congr
          intro j _
          simp [Bool.and_comm]
        have evicted : rest.filter (· ∉ keys.filter (· ≠ k)) = (k :: rest).filter (· ∉ keys) := by
          rw [List.filter_cons_of_neg (by simp [kept])]
          apply List.filter_congr
          intro j inRest
          simp [different j inRest]
        rw [left] at run
        rw [evicted] at represents
        refine ⟨final, ?_, represents, frame⟩
        rw [foldlM_cons_apply, bind_ok step, run]
      · obtain ⟨s', run, rep', frame⟩ :=
          evict_completes rep (members k (List.mem_cons_self ..))
        have step : keepOrEvict keys k s = (.ok keys, s') := by
          rw [keepOrEvict, if_neg kept, bind_ok run]
          rfl
        obtain ⟨final, later, represents, frame'⟩ := ih keys unique'
          (fun j inRest => by
            rw [FreePool.expiry_remove, Function.update_of_ne (different j inRest)]
            exact members j (List.mem_cons_of_mem k inRest)) rep'
        have left : keys.filter (· ∉ rest) = keys.filter (· ∉ k :: rest) := by
          apply List.filter_congr
          intro j inKeys
          have notFirst : j ≠ k := fun same => kept (same ▸ inKeys)
          simp [notFirst]
        rw [left] at later
        rw [List.filter_cons_of_pos (by simp [kept]), List.foldl_cons]
        refine ⟨final, ?_, represents, frame'.trans frame⟩
        rw [foldlM_cons_apply, bind_ok step, later]

theorem addIfLeft_completes {left pairs : List String} (e : Int) (once : pairs.Nodup)
    (absent : ∀ k ∈ left, k ∈ pairs → p.expiry k = none) (named : ∀ k ∈ left, Nameable k)
    (rep : Represents s p) :
    Completes (pairs.forM (addIfLeft left e)) s ()
      ((pairs.filter (· ∈ left)).foldl (·.join e ·) p) (s.unlockAll (pairs.filter (· ∈ left))) := by
  induction pairs generalizing s p with
  | nil => exact ⟨s, rfl, rep, by rw [List.filter_nil, Redis.unlockAll_nil]⟩
  | cons k rest ih =>
      obtain ⟨fresh, once'⟩ := List.nodup_cons.mp once
      by_cases inLeft : k ∈ left
      · have new := absent k inLeft (List.mem_cons_self ..)
        have joined := p.notMem_free_of_expiry_none new
        rw [List.filter_cons_of_pos (by simp [inLeft]), List.foldl_cons, FreePool.join_new new,
          ← Redis.unlockAll_cons]
        obtain ⟨s', run, rep', frame⟩ :=
          insertUnlocked_completes rep joined (named k inLeft) e
        obtain ⟨final, later, represents, frame'⟩ := ih once'
          (fun j stillLeft inRest => by
            have different : j ≠ k := fun same => fresh (same ▸ inRest)
            rw [FreePool.expiry_push, Function.update_of_ne different]
            exact absent j stillLeft (List.mem_cons_of_mem k inRest)) rep'
        refine ⟨final, ?_, represents, frame'.trans (Redis.unlockAll_outside_congr frame _)⟩
        rw [forM_cons_apply, addIfLeft, if_pos inLeft, bind_ok run, later]
      · rw [List.filter_cons_of_neg (by simp [inLeft])]
        obtain ⟨final, later, represents, frame⟩ := ih once'
          (fun j stillLeft inRest => absent j stillLeft (List.mem_cons_of_mem k inRest)) rep
        refine ⟨final, ?_, represents, frame⟩
        rw [forM_cons_apply, addIfLeft, if_neg inLeft]
        exact later

end Loops

/-! ## The methods -/

section Methods

variable {s : Redis} {p : FreePool String}

theorem shrink_completes (rep : Represents s p) (keys : List String) :
    Completes (shrink keys) s () (keys.foldl FreePool.remove p) s := by
  rw [shrink]
  split
  · rename_i noKeys
    rw [noKeys]
    exact ⟨s, rfl, rep, rfl⟩
  · exact shrinkItems_complete keys rep

theorem extend_completes (rep : Represents s p) {keys : List String}
    (accepted : validateKeys keys = .ok ()) (timeout : Option Int) :
    Completes (extend keys timeout) s ()
      (keys.foldl (·.join (s.timeoutToExpiry (timeout.getD (-1))) ·) p)
      (s.unlockAll (p.newIn keys)) := by
  rw [extend]
  split
  · rename_i noKeys
    rw [noKeys]
    exact ⟨s, rfl, rep, by rw [FreePool.newIn, List.filter_nil, Redis.unlockAll_nil]⟩
  · have passed : raiseInvalid keys s = (.ok (), s) := by
      rw [raiseInvalid, accepted]
      rfl
    obtain ⟨s', run, done⟩ := extendItems_complete (s.timeoutToExpiry (timeout.getD (-1)))
      (nameable_of_validateKeys accepted) rep
    refine ⟨s', ?_, done⟩
    rw [bind_ok passed]
    simp only [extendScript, timeoutToExpiry, read_bind_apply]
    exact run

theorem raiseInvalid_refused {keys : List String} (refused : validateKeys keys ≠ .ok ())
    (s : Redis) : keys ≠ [] ∧ ∃ e, raiseInvalid keys s = (.error e, s) := by
  constructor
  · rintro rfl
    exact refused rfl
  · rcases raiseInvalid_run keys s with ⟨_, accepted⟩ | ⟨⟨e, raised⟩, _⟩
    · exact absurd accepted refused
    · exact ⟨_, raised⟩

theorem extend_refused {keys : List String} (refused : validateKeys keys ≠ .ok ())
    (timeout : Option Int) (s : Redis) : (extend keys timeout s).2 = s := by
  obtain ⟨someKey, e, raised⟩ := raiseInvalid_refused refused s
  rw [extend, if_neg someKey, bind_error raised]

theorem assign_refused {keys : List String} (refused : validateKeys keys ≠ .ok ()) (timeout : Int)
    (allItems pairs : List String) (s : Redis) : (assign keys timeout allItems pairs s).2 = s := by
  obtain ⟨someKey, e, raised⟩ := raiseInvalid_refused refused s
  rw [assign, if_neg someKey, bind_error raised]

theorem shrink_extend_completes (rep : Represents s p) (evicted : List String)
    {fresh : List String} (accepted : validateKeys fresh = .ok ()) (timeout : Int) :
    Completes (shrink evicted >>= fun _ => extend fresh (some timeout)) s ()
      (fresh.foldl (·.join (s.timeoutToExpiry timeout) ·) (evicted.foldl FreePool.remove p))
      (s.unlockAll ((evicted.foldl FreePool.remove p).newIn fresh)) := by
  apply (shrink_completes rep evicted).bind
  intro s₁ rep₁ frame₁
  obtain ⟨s', run, rep', frame⟩ := extend_completes rep₁ accepted (some timeout)
  have sameExpiry : s₁.timeoutToExpiry timeout = s.timeoutToExpiry timeout := by
    rw [Redis.timeoutToExpiry, Redis.timeoutToExpiry, Redis.time, Redis.time,
      Redis.now_of_outside frame₁]
  rw [Option.getD_some, sameExpiry] at rep'
  exact ⟨s', run, rep', frame.trans (Redis.unlockAll_outside_congr frame₁ _)⟩

theorem freeKeys_completes (rep : Represents s p) (unlocked : ∀ k ∈ p.free, s.locked k = false)
    (keys : List String) (timeout : Int) :
    Completes (freeKeys keys timeout) s ()
      (keys.foldl (·.giveBack s.locked (s.timeoutToExpiry timeout) ·) p) (s.unlockAll keys) := by
  rw [freeKeys]
  split
  · rename_i noKeys
    rw [noKeys]
    exact ⟨s, rfl, rep, by rw [Redis.unlockAll_nil]⟩
  · obtain ⟨s', run, done⟩ := freeItems_complete s.locked (s.timeoutToExpiry timeout) keys
      rep unlocked fun _ _ _ => rfl
    refine ⟨s', ?_, done⟩
    simp only [freeScript, timeoutToExpiry, read_bind_apply]
    exact run

theorem Represents.listings (rep : Represents s p) {keys allItems pairs : List String}
    {timeout : Int} (admissible : (Call.assign keys timeout allItems pairs).Admissible s) :
    allItems.Nodup ∧ (∀ k, k ∈ allItems ↔ (p.expiry k).isSome) ∧
      pairs.Nodup ∧ ∀ k, k ∈ pairs ↔ k ∈ keys := by
  obtain ⟨unique, isHkeys, once, isPairs⟩ := admissible
  refine ⟨unique, fun k => ?_, once, fun k => ?_⟩
  · rw [← rep.mem_keys_iff, ← isHkeys, List.mem_toFinset]
  · rw [← List.mem_toFinset, isPairs, List.mem_toFinset]

theorem assignScript_completes (rep : Represents s p) {keys allItems pairs : List String}
    (accepted : validateKeys keys = .ok ()) (unique : allItems.Nodup)
    (members : ∀ k, k ∈ allItems ↔ (p.expiry k).isSome) (once : pairs.Nodup)
    (listed : ∀ k, k ∈ pairs ↔ k ∈ keys) (timeout : Int) :
    Completes (assignScript timeout keys allItems pairs) s ()
      (p.assign (s.timeoutToExpiry timeout) keys allItems pairs)
      (s.unlockAll (p.newIn pairs)) := by
  obtain ⟨s₁, evicted, rep₁, frame₁⟩ :=
    keepOrEvict_completes keys unique (fun k => (members k).mp) rep
  have absent : ∀ k ∈ keys.filter (· ∉ allItems), k ∈ pairs →
      ((allItems.filter (· ∉ keys)).foldl FreePool.remove p).expiry k = none := by
    intro k left _
    have notMember : k ∉ allItems := by simpa using (List.mem_filter.mp left).2
    rw [FreePool.expiry_removeAll, if_neg (by simp [notMember])]
    simpa [members] using notMember
  have named : ∀ k ∈ keys.filter (· ∉ allItems), Nameable k :=
    fun k left => nameable_of_validateKeys accepted k (List.mem_filter.mp left).1
  obtain ⟨s₂, added, rep₂, frame₂⟩ :=
    addIfLeft_completes (s.timeoutToExpiry timeout) once absent named rep₁
  have sameNew : pairs.filter (· ∈ keys.filter (· ∉ allItems)) = p.newIn pairs := by
    apply List.filter_congr
    intro k inPairs
    simp only [List.mem_filter, (listed k).mp inPairs, members, true_and, decide_eq_true_eq]
    cases p.expiry k <;> rfl
  rw [sameNew] at rep₂ frame₂
  refine ⟨s₂, ?_, rep₂, frame₂.trans (Redis.unlockAll_outside_congr frame₁ _)⟩
  simp only [assignScript, timeoutToExpiry, read_bind_apply]
  rw [bind_ok evicted, added]

/-- An empty list of keys clears the pool, which is to remove every member. -/
theorem assign_completes (rep : Represents s p) {keys allItems pairs : List String}
    (accepted : validateKeys keys = .ok ()) (unique : allItems.Nodup)
    (members : ∀ k, k ∈ allItems ↔ (p.expiry k).isSome) (once : pairs.Nodup)
    (listed : ∀ k, k ∈ pairs ↔ k ∈ keys) (timeout : Int) :
    Completes (assign keys timeout allItems pairs) s ()
      (p.assign (s.timeoutToExpiry timeout) keys allItems pairs)
      (s.unlockAll (p.newIn pairs)) := by
  rw [assign]
  split
  · rename_i noKeys
    have noPairs : pairs = [] := by
      rw [List.eq_nil_iff_forall_not_mem]
      intro k inPairs
      rw [listed, noKeys] at inPairs
      cases inPairs
    have emptied : p.assign (s.timeoutToExpiry timeout) keys allItems pairs = FreePool.empty := by
      ext1
      · rw [FreePool.free_assign members once, noKeys, noPairs, FreePool.newIn]
        simp [FreePool.empty]
      · funext k
        rw [FreePool.expiry_assign members listed, noKeys, if_neg List.not_mem_nil]
        rfl
    rw [emptied]
    obtain ⟨s', run, rep', frame⟩ := clear_completes s
    exact ⟨s', run, rep', 
      by rw [frame, noPairs, FreePool.newIn, List.filter_nil, Redis.unlockAll_nil]⟩
  · have passed : raiseInvalid keys s = (.ok (), s) := by
      rw [raiseInvalid, accepted]
      rfl
    obtain ⟨s', run, done⟩ :=
      assignScript_completes rep accepted unique members once listed timeout
    exact ⟨s', by rw [bind_ok passed, run], done⟩

end Methods

/-! ## In terms of the stored entries -/

section Entries

variable {s : Redis} {L : List String}

/-- `shrink` removes the given keys and nothing else, and leaves every lock and binding. -/
theorem shrink_removes (wf : WellFormed s L) (keys : List String) :
    ∃ s', shrink keys s = (.ok (), s') ∧ WellFormed s' (L.filter (· ∉ keys)) ∧
      (∀ k, s'.expiryOf k = if k ∈ keys then none else s.expiryOf k) ∧
      s'.outside = s.outside := by
  obtain ⟨s', run, wf', expiry, frame⟩ := (shrink_completes wf.represents keys).wellFormed
  rw [FreePool.free_removeAll] at wf'
  refine ⟨s', run, wf', fun k => ?_, frame⟩
  rw [expiry, FreePool.expiry_removeAll, wf.represents.expiryOf]

theorem shrink_removes_sample :
    ∃ s', shrink ["b", "x", "b"] sampleChain = (.ok (), s') ∧
      WellFormed s' (["a", "b"].filter (· ∉ ["b", "x", "b"])) ∧
      (∀ k, s'.expiryOf k = if k ∈ ["b", "x", "b"] then none else sampleChain.expiryOf k) ∧
      s'.outside = sampleChain.outside :=
  shrink_removes sampleChain_wellFormed ["b", "x", "b"]

/-- `extend` queues the new keys behind the others and dates every listed key.  `free_keys` queues
the members it finds locked, and lifts the listed locks. -/
theorem extend_freeKeys_append (wf : WellFormed s L) (unlocked : ∀ k ∈ L, s.locked k = false)
    (keys : List String) :
    (∀ timeout : Option Int, validateKeys keys = .ok () →
      ∃ s', extend keys timeout s = (.ok (), s') ∧
        WellFormed s' (L ++ (keys.filter fun k => (s.hget k).isNone).eraseDups) ∧
        (∀ k, s'.expiryOf k =
          if k ∈ keys then some (s.timeoutToExpiry (timeout.getD (-1))) else s.expiryOf k) ∧
        s'.outside = (s.unlockAll (keys.filter fun k => (s.hget k).isNone)).outside) ∧
    ∀ timeout : Int, ∃ s', freeKeys keys timeout s = (.ok (), s') ∧
      WellFormed s' (L ++ (keys.filter fun k => (s.hget k).isSome && s.locked k).eraseDups) ∧
      (∀ k, s'.expiryOf k =
        if k ∈ keys ∧ (s.hget k).isSome ∧ s.locked k = true then some (s.timeoutToExpiry timeout)
        else s.expiryOf k) ∧
      s'.outside = (s.unlockAll keys).outside := by
  have rep := wf.represents
  constructor
  · intro timeout accepted
    have new : wf.pool.newIn keys = keys.filter fun k => (s.hget k).isNone := by
      apply List.filter_congr
      intro k _
      exact Option.isNone_map
    obtain ⟨s', run, wf', expiry, frame⟩ := (extend_completes rep accepted timeout).wellFormed
    rw [FreePool.free_joinAll, new] at wf'
    rw [new] at frame
    refine ⟨s', run, wf', fun k => ?_, frame⟩
    rw [expiry, FreePool.expiry_joinAll, rep.expiryOf]
  · intro timeout
    have apart : ∀ k, ((wf.pool.expiry k).isSome = true ∧ s.locked k = true) ∧ k ∉ wf.pool.free ↔
        (s.hget k).isSome = true ∧ s.locked k = true := by
      intro k
      rw [rep.hget_isSome]
      constructor
      · exact fun both => both.1
      · intro held
        refine ⟨held, fun present => ?_⟩
        rw [unlocked k present] at held
        cases held.2
    have held : (keys.filter fun k =>
        ((wf.pool.expiry k).isSome && s.locked k) && decide (k ∉ wf.pool.free)) =
          keys.filter fun k => (s.hget k).isSome && s.locked k := by
      apply List.filter_congr
      intro k _
      rw [Bool.eq_iff_iff]
      simpa using apart k
    obtain ⟨s', run, wf', expiry, frame⟩ :=
      (freeKeys_completes rep unlocked keys timeout).wellFormed
    rw [FreePool.free_giveBackAll, held] at wf'
    refine ⟨s', run, wf', fun k => ?_, frame⟩
    rw [expiry, FreePool.expiry_giveBackAll, rep.expiryOf]
    exact if_congr (and_congr_right fun _ => apart k) rfl rfl

theorem extend_freeKeys_append_sample :
    (∀ timeout : Option Int, validateKeys ["c", "a", "c"] = .ok () →
      ∃ s', extend ["c", "a", "c"] timeout sampleChain = (.ok (), s') ∧
        WellFormed s' (["a", "b"] ++
          (["c", "a", "c"].filter fun k => (sampleChain.hget k).isNone).eraseDups) ∧
        (∀ k, s'.expiryOf k = if k ∈ ["c", "a", "c"]
          then some (sampleChain.timeoutToExpiry (timeout.getD (-1))) else sampleChain.expiryOf k) ∧
        s'.outside = (sampleChain.unlockAll
          (["c", "a", "c"].filter fun k => (sampleChain.hget k).isNone)).outside) ∧
    ∀ timeout : Int, ∃ s', freeKeys ["c", "a", "c"] timeout sampleChain = (.ok (), s') ∧
      WellFormed s' (["a", "b"] ++ (["c", "a", "c"].filter fun k =>
        (sampleChain.hget k).isSome && sampleChain.locked k).eraseDups) ∧
      (∀ k, s'.expiryOf k =
        if k ∈ ["c", "a", "c"] ∧ (sampleChain.hget k).isSome ∧ sampleChain.locked k = true
        then some (sampleChain.timeoutToExpiry timeout) else sampleChain.expiryOf k) ∧
      s'.outside = (sampleChain.unlockAll ["c", "a", "c"]).outside :=
  extend_freeKeys_append sampleChain_wellFormed (by decide) ["c", "a", "c"]

/-- `assign` is `shrink` of the members outside `keys`, in any listing, followed by `extend` with
the new keys in some order. -/
theorem assign_alike (wf : WellFormed s L) {keys : List String}
    (accepted : validateKeys keys = .ok ()) (timeout : Int) {allItems pairs : List String}
    (admissible : (Call.assign keys timeout allItems pairs).Admissible s) :
    ∃ fresh : List String, fresh.Nodup ∧ (∀ k, k ∈ fresh ↔ k ∈ keys ∧ s.hget k = none) ∧
      ∃ s', assign keys timeout allItems pairs s = (.ok (), s') ∧
        (∀ evicted : List String,
          (∀ k, k ∈ evicted ↔ (s.hget k).isSome ∧ k ∉ keys) →
          ∃ s'', (shrink evicted >>= fun _ => extend fresh (some timeout)) s = (.ok (), s'') ∧
            s'.Alike s'') ∧
        WellFormed s' (L.filter (· ∈ keys) ++ fresh) ∧
        (∀ k, (s'.hget k).isSome ↔ k ∈ keys) ∧
        (∀ k ∈ keys, (s.hget k).isSome →
          s'.expiryOf k = s.expiryOf k ∧ s'.locks k = s.locks k) := by
  have rep := wf.represents
  obtain ⟨unique, members, once, listed⟩ := rep.listings admissible
  have inFresh : ∀ k, k ∈ wf.pool.newIn pairs ↔ k ∈ keys ∧ s.hget k = none := by
    intro k
    rw [FreePool.mem_newIn, listed, rep.hget_none_iff]
  obtain ⟨s', run, rep', frame⟩ :=
    assign_completes rep accepted unique members once listed timeout
  have expiry := FreePool.expiry_assign members listed (s.timeoutToExpiry timeout)
  refine ⟨wf.pool.newIn pairs, once.filter _, inFresh, s', run, fun evicted isEvicted => ?_,
    ?_, fun k => ?_, fun k inKeys isMember => ?_⟩
  · have acceptedFresh : validateKeys (wf.pool.newIn pairs) = .ok () :=
      (validateKeys_ok_iff _).mpr fun k isFresh =>
        (validateKeys_ok_iff keys).mp accepted k ((inFresh k).mp isFresh).1
    obtain ⟨s'', both, rep'', frame''⟩ := shrink_extend_completes rep evicted acceptedFresh timeout
    have sameEvicted : ∀ k, k ∈ evicted ↔ k ∈ allItems.filter (· ∉ keys) := by
      intro k
      rw [isEvicted, List.mem_filter, members, rep.hget_isSome, decide_eq_true_eq]
    rw [FreePool.removeAll_congr sameEvicted] at rep''
    rw [FreePool.newIn_removeAll] at frame''
    exact ⟨s'', both, rep'.alike rep'' (frame.trans frame''.symm)⟩
  · have wf' := rep'.wellFormed
    rw [FreePool.free_assign members once] at wf'
    exact wf'
  · rw [rep'.hget_isSome, expiry]
    split <;> simp [*]
  · have notFresh : k ∉ wf.pool.newIn pairs := by
      rw [inFresh]
      rintro ⟨_, absent⟩
      rw [absent] at isMember
      cases isMember
    constructor
    · rw [rep.hget_isSome] at isMember
      obtain ⟨old, found⟩ := Option.isSome_iff_exists.mp isMember
      rw [rep'.expiryOf, rep.expiryOf, expiry, if_pos inKeys, found, Option.getD_some]
    · rw [Redis.locks_of_outside frame]
      exact if_neg notFresh

theorem assign_alike_sample :
    ∃ fresh : List String, fresh.Nodup ∧
      (∀ k, k ∈ fresh ↔ k ∈ ["c", "b", "c"] ∧ sampleChain.hget k = none) ∧
      ∃ s', assign ["c", "b", "c"] 60 ["b", "a"] ["b", "c"] sampleChain = (.ok (), s') ∧
        (∀ evicted : List String,
          (∀ k, k ∈ evicted ↔ (sampleChain.hget k).isSome ∧ k ∉ ["c", "b", "c"]) →
          ∃ s'', (shrink evicted >>= fun _ => extend fresh (some 60)) sampleChain = (.ok (), s'') ∧
            s'.Alike s'') ∧
        WellFormed s' (["a", "b"].filter (· ∈ ["c", "b", "c"]) ++ fresh) ∧
        (∀ k, (s'.hget k).isSome ↔ k ∈ ["c", "b", "c"]) ∧
        (∀ k ∈ ["c", "b", "c"], (sampleChain.hget k).isSome →
          s'.expiryOf k = sampleChain.expiryOf k ∧ s'.locks k = sampleChain.locks k) :=
  assign_alike sampleChain_wellFormed (by decide) 60
    ⟨by decide, by decide, by decide, by decide⟩

end Entries

end RedisAllocator

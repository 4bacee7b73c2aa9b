import RedisAllocator.Pool.ScriptSpecs

/-!
# Every call keeps the pool sound

A pool is sound when the pointers represent it and no queued key has a live
lock.  The second half may be asked of some keys only: `S` says which.  Freeing
keys is safe exactly on these, every other call on any sound pool.
-/

set_option autoImplicit false

namespace RedisAllocator

open AbortableScript AbortableScript.Script

structure Sound (S : String → Prop) (s : Redis) (p : FreePool String) : Prop where
  rep : Represents s p
  unlocked : ∀ k ∈ p.free, S k → s.locked k = false

/-- Members are only dropped, and only once their expiry has passed. -/
def Drops (expired : Int → Bool) (p p' : FreePool String) : Prop :=
  ∀ k, p'.expiry k = p.expiry k ∨ p'.expiry k = none ∧ (p.expiry k).any expired = true

/-- Members stay; those in `keys` may get another expiry. -/
def Renews (keys : List String) (p p' : FreePool String) : Prop :=
  ∀ k, p'.expiry k = p.expiry k ∨
    k ∈ keys ∧ (p.expiry k).isSome = true ∧ (p'.expiry k).isSome = true

section Relations

variable {expired : Int → Bool} {keys : List String} {p q r : FreePool String}

theorem Drops.refl (p : FreePool String) : Drops expired p p := fun _ => Or.inl rfl

theorem Drops.trans (first : Drops expired p q) (later : Drops expired q r) : Drops expired p r := by
  intro k
  rcases later k with same | ⟨gone, old⟩
  · rw [same]
    exact first k
  · rcases first k with same | ⟨none, _⟩
    · exact Or.inr ⟨gone, same ▸ old⟩
    · rw [none] at old
      cases old

theorem Renews.refl (p : FreePool String) : Renews keys p p := fun _ => Or.inl rfl

theorem Renews.trans (first : Renews keys p q) (later : Renews keys q r) : Renews keys p r := by
  intro k
  rcases later k with same | ⟨named, before, after⟩
  · rw [same]
    exact first k
  · rcases first k with same | ⟨_, before', _⟩
    · exact Or.inr ⟨named, same ▸ before, after⟩
    · exact Or.inr ⟨named, before', after⟩

theorem FreePool.drops_afterPop (p : FreePool String) (expired : Int → Bool)
    (locked : String → Bool) : Drops expired p (p.afterPop expired locked) := by
  intro k
  simp only [FreePool.afterPop]
  split
  · exact Or.inr ⟨rfl, by simp_all⟩
  · exact Or.inl rfl

theorem FreePool.drops_visit (p : FreePool String) (locked : Bool) {k : String} {e : Int}
    (found : p.expiry k = some e) : Drops expired p (p.visit (expired e) locked k e) := by
  intro j
  rw [FreePool.visit]
  split
  · by_cases same : j = k
    · subst same
      exact Or.inr ⟨by simp, by rw [found]; assumption⟩
    · exact Or.inl (by simp [same])
  · split
    · split
      · exact Or.inl rfl
      · by_cases same : j = k
        · exact Or.inl (by simp [same, found])
        · exact Or.inl (by simp [same])
    · split <;> exact Or.inl rfl

theorem FreePool.renews_push (p : FreePool String) {k : String} {e : Int} (fresh : k ∉ p.free)
    (named : k ∈ keys) (isMember : (p.expiry k).isSome) : Renews keys p (p.push k e fresh) := by
  intro j
  by_cases same : j = k
  · subst same
    exact Or.inr ⟨named, isMember, by simp⟩
  · exact Or.inl (by simp [same])

theorem FreePool.free_visit_subset (p : FreePool String) (expired locked : Bool) (k : String)
    (e : Int) {j : String} (present : j ∈ (p.visit expired locked k e).free) :
    j ∈ p.free ∨ j = k ∧ locked = false := by
  rw [FreePool.visit] at present
  split at present
  · exact Or.inl (List.mem_of_mem_erase present)
  · split at present
    · split at present
      · exact Or.inl present
      · rename_i unlocked
        rcases List.mem_append.mp present with old | new
        · exact Or.inl old
        · exact Or.inr ⟨List.mem_singleton.mp new, by simpa using unlocked⟩
    · split at present
      · exact Or.inl (List.mem_of_mem_erase present)
      · exact Or.inl present

end Relations

/-! ## Soundness and the outside of the pool -/

section Sound

variable {S : String → Prop} {s t : Redis} {p p' : FreePool String}

theorem Redis.locked_advance (s : Redis) {k : String} (unlocked : s.locked k = false)
    (elapsed : Nat) : (s.advance elapsed).locked k = false := by
  rw [Redis.locked, Redis.lock?, Redis.advance] at *
  cases lock : s.locks k with
  | none => simp
  | some stored =>
      obtain ⟨value, instant⟩ := stored
      rw [lock] at unlocked
      cases instant with
      | none => simp [StringKey.live] at unlocked
      | some instant =>
          have lapsed : ¬ s.now < instant := by
            intro live
            simp [StringKey.live, Option.filter, live] at unlocked
          have later : ¬ s.now + elapsed < instant := by omega
          simp [StringKey.live, Option.filter, later]

theorem Sound.advance (sound : Sound S s p) (elapsed : Nat) : Sound S (s.advance elapsed) p :=
  ⟨sound.rep.of_outside_pool rfl rfl rfl, fun k inFree inS =>
    s.locked_advance (sound.unlocked k inFree inS) elapsed⟩

theorem Sound.of_completes {α : Type} {x : LuaScript α} {a : α} (done : Completes x s a p' t)
    (unlocked : ∀ k ∈ p'.free, S k → t.locked k = false) :
    ∃ s', x s = (.ok a, s') ∧ Sound S s' p' ∧ s'.outside = t.outside := by
  obtain ⟨s', run, rep, frame⟩ := done
  refine ⟨s', run, ⟨rep, fun k inFree inS => ?_⟩, frame⟩
  rw [Redis.locked_of_outside frame]
  exact unlocked k inFree inS

theorem Sound.unlocked_push (sound : Sound S s p) {k : String} {e : Int} {fresh : k ∉ p.free} :
    ∀ j ∈ (p.push k e fresh).free, S j → (s.putLock k none).locked j = false := by
  intro j present inS
  rw [Redis.locked_putLock_none]
  rcases List.mem_append.mp present with old | new
  · rw [sound.unlocked j old inS, Bool.and_false]
  · simp [List.mem_singleton.mp new]

theorem Sound.unlocked_putLock_none (sound : Sound S s p) (k : String) :
    ∀ j ∈ p.free, S j → (s.putLock k none).locked j = false := by
  intro j present inS
  rw [Redis.locked_putLock_none, sound.unlocked j present inS, Bool.and_false]

theorem Sound.unlocked_remove (sound : Sound S s p) (k : String) :
    ∀ j ∈ (p.remove k).free, S j → s.locked j = false :=
  fun j present => sound.unlocked j (List.mem_of_mem_erase present)

end Sound

/-! ## Scripts -/

/-- No assert failed and the recursion bound was not reached. -/
def Orderly {α : Type} (reply : Except Failure α) : Prop :=
  ∀ failure, reply = .error failure → (∀ m, failure ≠ .assertion m) ∧ failure ≠ .recursionLimit

section Orderly

variable {α : Type}

theorem Orderly.ok (a : α) : Orderly (.ok a : Except Failure α) := fun _ same => by cases same

theorem Orderly.error {failure : Failure} (noAssertion : ∀ m, failure ≠ .assertion m)
    (noLimit : failure ≠ .recursionLimit) : Orderly (.error failure : Except Failure α) := by
  intro other same
  cases same
  exact ⟨noAssertion, noLimit⟩

end Orderly

section Scripts

variable {S : String → Prop} {s : Redis} {p : FreePool String}

theorem extendItem_sound (sound : Sound S s p) {k : String} (named : Nameable k) (e : Int) :
    ∃ s', extendItem e k s = (.ok (), s') ∧
      ∃ p', Sound S s' p' ∧ p'.expiry = Function.update p.expiry k (some e) := by
  cases isMember : p.expiry k with
  | some old =>
      obtain ⟨s', run, sound', _⟩ := Sound.of_completes (S := S)
        (extendItem_member sound.rep (by rw [isMember]; rfl) e) sound.unlocked
      exact ⟨s', run, _, sound', p.expiry_setExpiry k e⟩
  | none =>
      obtain ⟨s', run, sound', _⟩ := Sound.of_completes (S := S)
        (extendItem_new sound.rep isMember named e) sound.unlocked_push
      exact ⟨s', run, _, sound', p.expiry_push k e _⟩

theorem extendScript_sound (sound : Sound S s p) {keys : List String}
    (named : ∀ k ∈ keys, Nameable k) (timeout : Int) :
    ∃ s', extendScript timeout keys s = (.ok (), s') ∧ ∃ p', Sound S s' p' ∧
      ∀ k, p'.expiry k = if k ∈ keys then some (s.timeoutToExpiry timeout) else p.expiry k := by
  obtain ⟨s', run, _, q, sound', set⟩ := forM_completes
    (fun rest t => (∀ k ∈ rest, k ∈ keys) ∧ ∃ q, Sound S t q ∧ ∀ k, k ∉ rest →
      q.expiry k = if k ∈ keys then some (s.timeoutToExpiry timeout) else p.expiry k)
    (extendItem (s.timeoutToExpiry timeout))
    (fun k rest t both => by
      obtain ⟨inKeys, q, sound, set⟩ := both
      have listed := inKeys k (List.mem_cons_self ..)
      obtain ⟨t', run, q', sound', expiry⟩ := extendItem_sound sound (named k listed) _
      refine ⟨t', run, fun j inRest => inKeys j (List.mem_cons_of_mem k inRest), q', sound',
        fun j notRest => ?_⟩
      rw [expiry]
      by_cases same : j = k
      · rw [same, Function.update_self, if_pos listed]
      · rw [Function.update_of_ne same]
        exact set j (by simp [same, notRest]))
    keys s ⟨fun _ inKeys => inKeys, p, sound, fun k notKey => by rw [if_neg notKey]⟩
  exact ⟨s', run, q, sound', fun k => set k (List.not_mem_nil)⟩

theorem shrinkScript_sound (sound : Sound S s p) (keys : List String) :
    ∃ s', shrinkScript keys s = (.ok (), s') ∧ ∃ p', Sound S s' p' :=
  forM_completes (fun _ s => ∃ p, Sound S s p) shrinkItem
    (fun k rest s holds => by
      obtain ⟨p, sound⟩ := holds
      obtain ⟨s', run, sound', _⟩ := Sound.of_completes (S := S)
        (shrinkItem_completes sound.rep k) (sound.unlocked_remove k)
      exact ⟨s', run, _, sound'⟩)
    keys s ⟨p, sound⟩

/-- The first loop of `assign` evicts the members it meets outside the new set; what it leaves in
`assignSet` and has met is no member. -/
theorem keepOrEvict_sound (sound : Sound S s p) {keys allItems : List String}
    (unique : allItems.Nodup) (members : ∀ k, k ∈ allItems ↔ (p.expiry k).isSome) :
    ∃ left s', allItems.foldlM keepOrEvict keys s = (.ok left, s') ∧
      ∃ p', Sound S s' p' ∧ (∀ k ∈ left, k ∈ keys) ∧ ∀ k ∈ left, p'.expiry k = none := by
  obtain ⟨left, s', run, _, p', sound', _, sub, met⟩ := foldlM_completes
    (fun left rest s => rest.Nodup ∧ ∃ p, Sound S s p ∧ (∀ k ∈ rest, (p.expiry k).isSome) ∧
      (∀ k ∈ left, k ∈ keys) ∧ ∀ k ∈ left, k ∉ rest → p.expiry k = none)
    keepOrEvict
    (fun left k rest s holds => by
      obtain ⟨unique, p, sound, isMember, sub, met⟩ := holds
      obtain ⟨fresh, unique'⟩ := List.nodup_cons.mp unique
      rw [keepOrEvict]
      by_cases inLeft : k ∈ left
      · rw [if_pos inLeft]
        refine ⟨left.filter (· ≠ k), s, rfl, unique', p, sound,
          fun j inRest => isMember j (List.mem_cons_of_mem k inRest),
          fun j kept => sub j (List.mem_of_mem_filter kept), fun j kept notRest => ?_⟩
        obtain ⟨old, different⟩ := List.mem_filter.mp kept
        exact met j old (by simpa [List.mem_cons, notRest] using different)
      · rw [if_neg inLeft]
        obtain ⟨s', run, sound', _⟩ := Sound.of_completes (S := S)
          (evict_completes sound.rep (isMember k (List.mem_cons_self ..)))
          (sound.unlocked_remove k)
        refine ⟨left, s', by rw [bind_ok run]; rfl, unique', p.remove k, sound',
          fun j inRest => ?_, sub, fun j kept notRest => ?_⟩
        · have different : j ≠ k := fun same => fresh (same ▸ inRest)
          simpa [different] using isMember j (List.mem_cons_of_mem k inRest)
        · have different : j ≠ k := fun same => inLeft (same ▸ kept)
          simpa [different] using met j kept (by simp [different, notRest]))
    allItems keys s
    ⟨unique, p, sound, fun k inItems => (members k).mp inItems, fun k inKeys => inKeys,
      fun k _ notItem => Option.not_isSome_iff_eq_none.mp fun isMember =>
        notItem ((members k).mpr isMember)⟩
  exact ⟨left, s', run, p', sound', sub, fun k kept => met k kept (List.not_mem_nil)⟩

theorem assignScript_sound (sound : Sound S s p) {keys allItems pairs : List String}
    (named : ∀ k ∈ keys, Nameable k) (unique : allItems.Nodup)
    (members : ∀ k, k ∈ allItems ↔ (p.expiry k).isSome) (once : pairs.Nodup) (timeout : Int) :
    ∃ s', assignScript timeout keys allItems pairs s = (.ok (), s') ∧ ∃ p', Sound S s' p' := by
  obtain ⟨left, s₁, evicted, p₁, sound₁, sub, absent⟩ := keepOrEvict_sound sound unique members
  obtain ⟨s₂, added, _, p₂, sound₂, _⟩ := forM_completes
    (fun rest s => rest.Nodup ∧ ∃ p, Sound S s p ∧ ∀ k ∈ rest, k ∈ left → p.expiry k = none)
    (addIfLeft left (s.timeoutToExpiry timeout))
    (fun k rest s holds => by
      obtain ⟨once, p, sound, absent⟩ := holds
      obtain ⟨fresh, once'⟩ := List.nodup_cons.mp once
      rw [addIfLeft]
      by_cases inLeft : k ∈ left
      · rw [if_pos inLeft]
        have noMember := absent k (List.mem_cons_self ..) inLeft
        obtain ⟨s', run, sound', _⟩ := Sound.of_completes (S := S)
          (insertUnlocked_completes sound.rep (p.notMem_free_of_expiry_none noMember)
            (named k (sub k inLeft)) _) sound.unlocked_push
        refine ⟨s', run, once', _, sound', fun j inRest kept => ?_⟩
        have different : j ≠ k := fun same => fresh (same ▸ inRest)
        rw [FreePool.expiry_push, Function.update_of_ne different]
        exact absent j (List.mem_cons_of_mem k inRest) kept
      · rw [if_neg inLeft]
        exact ⟨s, rfl, once', p, sound, fun j inRest => absent j (List.mem_cons_of_mem k inRest)⟩)
    pairs s₁ ⟨once, p₁, sound₁, fun k _ => absent k⟩
  refine ⟨s₂, ?_, p₂, sound₂⟩
  simp only [assignScript, timeoutToExpiry, read_bind_apply]
  rw [bind_ok evicted, added]

/-- Freeing takes a lock as proof that the key is not queued, which `keys` must bear out.  The
expiry of a key changes only if there was a lock to take. -/
theorem freeScript_sound (sound : Sound S s p) {keys : List String} (covered : ∀ k ∈ keys, S k)
    (timeout : Int) :
    ∃ s', freeScript timeout keys s = (.ok (), s') ∧ ∃ p', Sound S s' p' ∧ Renews keys p p' ∧
      ∀ k, s.locked k = false → p'.expiry k = p.expiry k := by
  obtain ⟨s', run, _, _, sound'⟩ := forM_completes
    (fun rest t => (∀ k ∈ rest, k ∈ keys) ∧ (∀ k, s.locked k = false → t.locked k = false) ∧
      ∃ p', Sound S t p' ∧ Renews keys p p' ∧ ∀ k, s.locked k = false → p'.expiry k = p.expiry k)
    (freeItem (s.timeoutToExpiry timeout))
    (fun k rest t holds => by
      obtain ⟨inKeys, fewer, q, sound, renewed, spared⟩ := holds
      have named := inKeys k (List.mem_cons_self ..)
      have later : ∀ j ∈ rest, j ∈ keys := fun j inRest => inKeys j (List.mem_cons_of_mem k inRest)
      have fewer' : ∀ j, s.locked j = false → (t.putLock k none).locked j = false := by
        intro j unlocked
        rw [Redis.locked_putLock_none, fewer j unlocked, Bool.and_false]
      by_cases held : t.locked k = true ∧ (q.expiry k).isSome
      · have fresh : k ∉ q.free := by
          intro present
          rw [sound.unlocked k present (covered k named)] at held
          cases held.1
        obtain ⟨t', run, sound', frame⟩ := Sound.of_completes (S := S)
          (freeItem_held sound.rep held.2 held.1 fresh _) sound.unlocked_push
        refine ⟨t', run, later, fun j unlocked => ?_, _, sound',
          renewed.trans (q.renews_push fresh named held.2), fun j unlocked => ?_⟩
        · rw [Redis.locked_of_outside frame, fewer' j unlocked]
        · have different : j ≠ k := by
            rintro rfl
            rw [fewer j unlocked] at held
            cases held.1
          rw [FreePool.expiry_push, Function.update_of_ne different, spared j unlocked]
      · obtain ⟨t', run, sound', frame⟩ := Sound.of_completes (S := S)
          (freeItem_idle sound.rep held _) (sound.unlocked_putLock_none k)
        refine ⟨t', run, later, fun j unlocked => ?_, q, sound', renewed, spared⟩
        rw [Redis.locked_of_outside frame, fewer' j unlocked])
    keys s ⟨fun _ inKeys => inKeys, fun _ unlocked => unlocked, p, sound, .refl p, fun _ _ => rfl⟩
  exact ⟨s', run, sound'⟩

theorem gcItems_sound (sound : Sound S s p) {items : List String} (unique : items.Nodup)
    (members : ∀ k ∈ items, (p.expiry k).isSome) :
    ∃ s', items.forM checkItemHealth s = (.ok (), s') ∧
      ∃ p', Sound S s' p' ∧ Drops s.isExpiryInvalid p p' := by
  obtain ⟨s', run, _, p', sound', drops, _⟩ := forM_completes
    (fun rest t => rest.Nodup ∧ ∃ q, Sound S t q ∧ Drops s.isExpiryInvalid p q ∧
      t.outside = s.outside ∧ ∀ k ∈ rest, (q.expiry k).isSome)
    checkItemHealth
    (fun k rest t holds => by
      obtain ⟨unique, q, sound, drops, frame, isMember⟩ := holds
      obtain ⟨fresh, unique'⟩ := List.nodup_cons.mp unique
      obtain ⟨e, found⟩ := Option.isSome_iff_exists.mp (isMember k (List.mem_cons_self ..))
      obtain ⟨t', run, sound', frame'⟩ := Sound.of_completes (S := S)
        (checkItemHealth_completes sound.rep found) (fun j present inS => by
          rcases q.free_visit_subset _ _ k e present with old | ⟨rfl, unlocked⟩
          · exact sound.unlocked j old inS
          · exact unlocked)
      have sameExpiry : t.isExpiryInvalid e = s.isExpiryInvalid e :=
        Redis.isExpiryInvalid_of_outside frame e
      have dropped : Drops s.isExpiryInvalid q (q.visit (t.isExpiryInvalid e) (t.locked k) k e) := by
        rw [sameExpiry]
        exact q.drops_visit _ found
      refine ⟨t', run, unique', _, sound', drops.trans dropped, frame'.trans frame,
        fun j inRest => ?_⟩
      have different : j ≠ k := fun same => fresh (same ▸ inRest)
      rw [q.expiry_visit_of_ne _ _ e different]
      exact isMember j (List.mem_cons_of_mem k inRest))
    items s ⟨unique, p, sound, .refl p, rfl, members⟩
  exact ⟨s', run, p', sound', drops⟩

theorem mallocPop_sound (sound : Sound S s p) (shared : Bool) (timeout : Int) (name : String)
    (cacheTimeout : Int) :
    ∃ k s', mallocPop shared timeout name cacheTimeout s = (.ok k, s') ∧
      ∃ p', Sound S s' p' ∧ Drops s.isExpiryInvalid p p' := by
  have subset : ∀ j ∈ (p.afterPop s.isExpiryInvalid s.locked).free, j ∈ p.free := fun j present =>
    (List.dropWhile_sublist _).subset (List.mem_of_mem_tail present)
  have drops := p.drops_afterPop s.isExpiryInvalid s.locked
  cases first : p.available s.isExpiryInvalid s.locked with
  | none =>
      obtain ⟨s', run, sound', _⟩ := Sound.of_completes (S := S)
        (mallocPop_none timeout cacheTimeout name shared sound.rep first)
        (fun j present => sound.unlocked j (subset j present))
      exact ⟨none, s', run, _, sound', drops⟩
  | some k =>
      cases shared with
      | false =>
          obtain ⟨s', run, sound', _⟩ := Sound.of_completes (S := S)
            (mallocPop_locks timeout cacheTimeout name sound.rep first) (fun j present inS => by
              have different : j ≠ k :=
                fun same => FreePool.notMem_free_afterPop first (same ▸ present)
              rw [Redis.locked_refreshed, Redis.locked_putLock_of_ne s different]
              exact sound.unlocked j (subset j present) inS)
          exact ⟨some k, s', run, _, sound', drops⟩
      | true =>
          obtain ⟨e, found, done⟩ := mallocPop_rotates timeout cacheTimeout name sound.rep first
          obtain ⟨s', run, sound', _⟩ := Sound.of_completes (S := S) done (fun j present inS => by
            rw [Redis.locked_refreshed]
            rcases List.mem_append.mp present with old | new
            · exact sound.unlocked j (subset j old) inS
            · rw [List.mem_singleton.mp new]
              exact FreePool.unlocked_of_available first)
          refine ⟨some k, s', run, _, sound', drops.trans fun j => ?_⟩
          by_cases same : j = k
          · subst same
            exact Or.inl (by simp [FreePool.expiry_afterPop_of_available first, found])
          · exact Or.inl (by simp [same])

theorem mallocScript_sound (sound : Sound S s p) (shared : Bool) (timeout : Int) (name : String)
    (cacheTimeout : Int) :
    ∃ reply s', mallocScript shared timeout name cacheTimeout s = (reply, s') ∧
      Orderly reply ∧ ∃ p', Sound S s' p' ∧ Drops s.isExpiryInvalid p p' := by
  cases bound : s.boundKey name with
  | none =>
      obtain ⟨s₁, run, rep₁, sameNow, sameLocks⟩ :=
        mallocScript_pops shared timeout cacheTimeout sound.rep bound
      have sound₁ : Sound S s₁ p := ⟨rep₁, sameLocks ▸ sound.unlocked⟩
      obtain ⟨k, s', popped, p', sound', drops⟩ :=
        mallocPop_sound sound₁ shared timeout name cacheTimeout
      rw [Redis.isExpiryInvalid_congr sameNow] at drops
      exact ⟨.ok k, s', run.trans popped, .ok k, p', sound', drops⟩
  | some k =>
      have taken : ∀ j ∈ (p.take k).free, j ≠ k ∧ j ∈ p.free :=
        fun j present => p.nodup.mem_erase_iff.mp present
      cases shared with
      | true =>
          obtain ⟨s', run, sound', _⟩ := Sound.of_completes (S := S)
            (mallocScript_binds timeout cacheTimeout sound.rep bound) (fun j present inS => by
              rw [Redis.locked_refreshed]
              exact sound.unlocked j present inS)
          exact ⟨.ok (some k), s', run, .ok _, p, sound', .refl p⟩
      | false =>
          by_cases positive : 0 < timeout
          · obtain ⟨s', run, sound', _⟩ := Sound.of_completes (S := S)
              (mallocScript_binds_locks timeout cacheTimeout sound.rep bound positive)
              (fun j present inS => by
                obtain ⟨different, inFree⟩ := taken j present
                rw [Redis.locked_putLock_of_ne _ different, Redis.locked_refreshed]
                exact sound.unlocked j inFree inS)
            exact ⟨.ok (some k), s', run, .ok _, _, sound', fun _ => Or.inl rfl⟩
          · obtain ⟨s', run, rep', frame⟩ := mallocScript_binds_refused timeout cacheTimeout
              sound.rep bound (not_lt.mp positive)
            refine ⟨_, s', run, .error (by simp) (by simp), p.take k,
              ⟨rep', fun j present inS => ?_⟩, fun _ => Or.inl rfl⟩
            rw [Redis.locked_of_outside frame, Redis.locked_refreshed]
            exact sound.unlocked j (taken j present).2 inS

end Scripts

end RedisAllocator

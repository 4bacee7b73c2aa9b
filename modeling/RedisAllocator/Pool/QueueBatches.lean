import RedisAllocator.Pool.FreePool

/-!
# Batches of queue operations

What a whole batch does to the queue, in closed form.  Each batch is a fold of
one operation over a list of keys, in which a key may stand several times: only
its first place counts.
-/

set_option autoImplicit false

namespace RedisAllocator

namespace FreePool

variable {K : Type} [DecidableEq K] (p : FreePool K)

/-- `k` is a member from now on, with this expiry.  A new one waits at the end of the queue. -/
def join (e : Int) (k : K) : FreePool K :=
  if new : p.expiry k = none then p.push k e (p.notMem_free_of_expiry_none new)
  else p.setExpiry k e

/-- A member that is held goes to the end of the queue. -/
def giveBack (held : K → Bool) (e : Int) (k : K) : FreePool K :=
  if back : ((p.expiry k).isSome = true ∧ held k = true) ∧ k ∉ p.free then p.push k e back.2
  else p

omit [DecidableEq K] in
def newIn (keys : List K) : List K := keys.filter fun k => (p.expiry k).isNone

/-- One visit of the garbage collector; a key that is no member is passed over. -/
def collect (expired : Int → Bool) (locked : K → Bool) (k : K) : FreePool K :=
  match p.expiry k with
  | none => p
  | some e => p.visit (expired e) (locked k) k e

variable {p}

theorem join_new {e : Int} {k : K} (new : p.expiry k = none) :
    p.join e k = p.push k e (p.notMem_free_of_expiry_none new) := dif_pos new

theorem join_member {e : Int} {k : K} (isMember : (p.expiry k).isSome) :
    p.join e k = p.setExpiry k e := dif_neg (Option.isSome_iff_ne_none.mp isMember)

theorem giveBack_held {held : K → Bool} {e : Int} {k : K} (isMember : (p.expiry k).isSome = true)
    (isHeld : held k = true) (fresh : k ∉ p.free) : p.giveBack held e k = p.push k e fresh :=
  dif_pos ⟨⟨isMember, isHeld⟩, fresh⟩

omit [DecidableEq K] in
theorem mem_newIn {keys : List K} {k : K} : k ∈ p.newIn keys ↔ k ∈ keys ∧ p.expiry k = none := by
  rw [newIn, List.mem_filter, Option.isNone_iff_eq_none]

/-! ## Removing keys -/

theorem free_removeAll (keys : List K) (p : FreePool K) :
    (keys.foldl remove p).free = p.free.filter (· ∉ keys) := by
  induction keys generalizing p with
  | nil => simp
  | cons k rest ih =>
      rw [List.foldl_cons, ih, free_remove, p.nodup.erase_eq_filter, List.filter_filter]
      apply List.filter_congr
      intro j _
      by_cases same : j = k <;> simp [same]

theorem expiry_removeAll (keys : List K) (p : FreePool K) (j : K) :
    (keys.foldl remove p).expiry j = if j ∈ keys then none else p.expiry j := by
  induction keys generalizing p with
  | nil => simp
  | cons k rest ih =>
      rw [List.foldl_cons, ih, expiry_remove]
      by_cases same : j = k
      · simp [same]
      · simp [same]

theorem removeAll_congr {keys keys' : List K} (same : ∀ k, k ∈ keys ↔ k ∈ keys')
    (p : FreePool K) : keys.foldl remove p = keys'.foldl remove p := by
  ext1
  · rw [free_removeAll, free_removeAll]
    apply List.filter_congr
    intro k _
    rw [decide_eq_decide, same]
  · funext k
    rw [expiry_removeAll, expiry_removeAll, if_congr (same k) rfl rfl]

/-! ## Joining keys -/

omit [DecidableEq K] in
theorem eraseDups_of_nodup [BEq K] [LawfulBEq K] {keys : List K} (unique : keys.Nodup) :
    keys.eraseDups = keys := by
  induction keys with
  | nil => rfl
  | cons k rest ih =>
      obtain ⟨fresh, unique'⟩ := List.nodup_cons.mp unique
      have others : rest.filter (fun j => !j == k) = rest := by
        apply List.filter_eq_self.mpr
        intro j inRest
        have different : j ≠ k := fun same => fresh (same ▸ inRest)
        simp [different]
      rw [List.eraseDups_cons, others, ih unique']

theorem free_joinAll (e : Int) (keys : List K) (p : FreePool K) :
    (keys.foldl (·.join e ·) p).free =
      p.free ++ (p.newIn keys).eraseDups := by
  induction keys generalizing p with
  | nil => simp [newIn]
  | cons k rest ih =>
      rw [List.foldl_cons, ih, newIn, newIn]
      cases isMember : p.expiry k with
      | some old =>
          rw [join_member (by simp [isMember]), free_setExpiry, expiry_setExpiry,
            List.filter_cons_of_neg (by simp [isMember])]
          congr 2
          apply List.filter_congr
          intro j _
          by_cases same : j = k <;> simp [same, isMember]
      | none =>
          rw [join_new isMember, free_push, expiry_push,
            List.filter_cons_of_pos (by simp [isMember]), List.eraseDups_cons,
            List.append_assoc, List.singleton_append, List.filter_filter]
          congr 3
          apply List.filter_congr
          intro j _
          by_cases same : j = k <;> simp [same]

theorem expiry_joinAll (e : Int) (keys : List K) (p : FreePool K) (j : K) :
    (keys.foldl (·.join e ·) p).expiry j = if j ∈ keys then some e else p.expiry j := by
  induction keys generalizing p with
  | nil => simp
  | cons k rest ih =>
      have joined : (p.join e k).expiry = Function.update p.expiry k (some e) := by
        rw [join]
        split <;> rfl
      rw [List.foldl_cons, ih, joined]
      by_cases same : j = k
      · simp [same]
      · simp [same]

/-! ## Replacing the members -/

variable (p) in
/-- The members `allItems` outside `keys` leave, and the new keys of `pairs` join. -/
def assign (e : Int) (keys allItems pairs : List K) : FreePool K :=
  (p.newIn pairs).foldl (·.join e ·) ((allItems.filter (· ∉ keys)).foldl remove p)

theorem newIn_removeAll (pairs keys : List K) (p : FreePool K) :
    (keys.foldl remove p).newIn (p.newIn pairs) = p.newIn pairs := by
  apply List.filter_eq_self.mpr
  intro k isNew
  rw [expiry_removeAll, (mem_newIn.mp isNew).2, ite_self]
  rfl

section Assign

variable {keys allItems pairs : List K} (members : ∀ k, k ∈ allItems ↔ (p.expiry k).isSome)
include members

theorem free_assign (once : pairs.Nodup) (e : Int) :
    (p.assign e keys allItems pairs).free = p.free.filter (· ∈ keys) ++ p.newIn pairs := by
  have queue : p.free.filter (· ∉ allItems.filter (· ∉ keys)) = p.free.filter (· ∈ keys) := by
    apply List.filter_congr
    intro k present
    simp [members, p.member k present]
  have unique : (p.newIn pairs).Nodup := once.filter _
  rw [assign, free_joinAll, free_removeAll, queue, newIn_removeAll, eraseDups_of_nodup unique]

theorem expiry_assign (listed : ∀ k, k ∈ pairs ↔ k ∈ keys) (e : Int) (k : K) :
    (p.assign e keys allItems pairs).expiry k =
      if k ∈ keys then some ((p.expiry k).getD e) else none := by
  rw [assign, expiry_joinAll, expiry_removeAll]
  simp only [mem_newIn, listed, List.mem_filter, members, decide_eq_true_eq]
  cases p.expiry k <;> by_cases named : k ∈ keys <;> simp [named]

end Assign

/-! ## Giving keys back -/

section GiveBack

variable (held : K → Bool) (e : Int)

theorem free_giveBackAll (keys : List K) (p : FreePool K) :
    (keys.foldl (·.giveBack held e ·) p).free = p.free ++
      (keys.filter fun k => ((p.expiry k).isSome && held k) && decide (k ∉ p.free)).eraseDups := by
  induction keys generalizing p with
  | nil => simp
  | cons k rest ih =>
      rw [List.foldl_cons, ih, giveBack]
      split
      · rename_i back
        obtain ⟨⟨isMember, isHeld⟩, fresh⟩ := back
        rw [free_push, expiry_push, List.filter_cons_of_pos (by simp [isMember, isHeld, fresh]),
          List.eraseDups_cons, List.append_assoc, List.singleton_append, List.filter_filter]
        congr 3
        apply List.filter_congr
        intro j _
        by_cases same : j = k <;> simp [same]
      · rename_i stays
        rw [List.filter_cons_of_neg (by simpa [and_assoc] using stays)]

theorem expiry_giveBackAll (keys : List K) (p : FreePool K) (j : K) :
    (keys.foldl (·.giveBack held e ·) p).expiry j =
      if j ∈ keys ∧ ((p.expiry j).isSome = true ∧ held j = true) ∧ j ∉ p.free then some e
      else p.expiry j := by
  induction keys generalizing p with
  | nil => simp
  | cons k rest ih =>
      rw [List.foldl_cons, ih, giveBack]
      split
      · rename_i back
        by_cases same : j = k
        · subst same
          simp [back]
        · simp [same]
      · rename_i stays
        by_cases same : j = k
        · subst same
          rw [if_neg (fun both => stays both.2), if_neg (fun both => stays both.2)]
        · simp [same]

end GiveBack

/-! ## Collecting -/

section Collect

variable (expired : Int → Bool) (locked : K → Bool)

/-- A key that the sweep puts back into the queue. -/
def reclaims (p : FreePool K) (k : K) : Bool :=
  (p.expiry k).isSome && !p.skips expired locked k && decide (k ∉ p.free)

theorem expiry_collect (p : FreePool K) (k j : K) :
    (p.collect expired locked k).expiry j =
      if j = k ∧ (p.expiry j).any expired then none else p.expiry j := by
  rw [collect]
  cases found : p.expiry k with
  | none =>
      rw [if_neg]
      rintro ⟨rfl, dead⟩
      rw [found] at dead
      cases dead
  | some e =>
      by_cases same : j = k
      · subst same
        cases dead : expired e <;> cases held : locked j <;> by_cases present : j ∈ p.free <;>
          simp [visit, dead, found, present]
      · rw [if_neg (fun both => same both.1)]
        exact p.expiry_visit_of_ne _ _ e same

theorem free_collect (p : FreePool K) (k : K) :
    (p.collect expired locked k).free =
      (if p.skips expired locked k then p.free.erase k else p.free) ++
        if p.reclaims expired locked k then [k] else [] := by
  rw [collect, reclaims]
  cases found : p.expiry k with
  | none =>
      have absent := p.notMem_free_of_expiry_none found
      simp [List.erase_of_not_mem absent]
  | some e =>
      cases dead : expired e with
      | true =>
          have skipped : p.skips expired locked k = true := by simp [skips, found, dead]
          simp [visit, dead, skipped]
      | false =>
          have skipped : p.skips expired locked k = locked k := by simp [skips, found, dead]
          by_cases present : k ∈ p.free
          · cases held : locked k <;> simp [visit, dead, skipped, held, present]
          · cases held : locked k <;>
              simp [visit, dead, skipped, held, present, List.erase_of_not_mem present]

theorem mem_free_collect (p : FreePool K) {k j : K} (different : j ≠ k) :
    j ∈ (p.collect expired locked k).free ↔ j ∈ p.free := by
  rw [free_collect, List.mem_append]
  split <;> split <;> simp [different]

theorem skips_collect (p : FreePool K) {k j : K}
    (stays : j = k → p.skips expired locked j = false) :
    (p.collect expired locked k).skips expired locked j = p.skips expired locked j := by
  rw [skips, skips, expiry_collect, if_neg]
  rintro ⟨same, dead⟩
  have kept := stays same
  simp [skips, dead] at kept

theorem reclaims_collect (p : FreePool K) (k j : K) :
    (p.collect expired locked k).reclaims expired locked j =
      (!(j == k) && p.reclaims expired locked j) := by
  by_cases same : j = k
  · subst same
    rw [beq_self_eq_true, Bool.not_true, Bool.false_and]
    cases skipped : p.skips expired locked j with
    | false =>
        have sameSkips := p.skips_collect expired locked (k := j) fun _ => skipped
        rw [reclaims, sameSkips, free_collect, reclaims, expiry_collect]
        by_cases present : j ∈ p.free <;> cases p.expiry j <;> simp [skipped, present]
    | true =>
        rw [reclaims, skips, expiry_collect]
        rw [skips, Bool.or_eq_true] at skipped
        rcases skipped with dead | held
        · simp [dead]
        · simp [held]
  · have sameSkips := p.skips_collect expired locked (k := k) (j := j) fun both => absurd both same
    have notDead : ¬ (j = k ∧ (p.expiry j).any expired) := fun both => same both.1
    rw [reclaims, reclaims, sameSkips, expiry_collect, if_neg notDead]
    simp [mem_free_collect expired locked p same, same]

theorem expiry_collectAll (keys : List K) (p : FreePool K) (j : K) :
    (keys.foldl (collect · expired locked ·) p).expiry j =
      if j ∈ keys ∧ (p.expiry j).any expired then none else p.expiry j := by
  induction keys generalizing p with
  | nil => simp
  | cons k rest ih =>
      rw [List.foldl_cons, ih, expiry_collect]
      by_cases dies : j = k ∧ (p.expiry j).any expired
      · rw [if_pos dies, ite_self, if_pos ⟨dies.1 ▸ List.mem_cons_self .., dies.2⟩]
      · rw [if_neg dies]
        apply if_congr _ rfl rfl
        rw [List.mem_cons]
        tauto

/-- Of the queue, a visit takes out what a later visit would. -/
theorem filter_collect (p : FreePool K) (k : K) (rest : List K) :
    ((if p.skips expired locked k then p.free.erase k else p.free).filter
      fun j => decide (j ∉ rest) || !(p.collect expired locked k).skips expired locked j) =
    p.free.filter fun j => decide (j ∉ k :: rest) || !p.skips expired locked j := by
  cases skipped : p.skips expired locked k with
  | true =>
      rw [if_pos rfl, p.nodup.erase_eq_filter, List.filter_filter]
      apply List.filter_congr
      intro j _
      by_cases same : j = k
      · simp [same, skipped]
      · simp [same, p.skips_collect expired locked (k := k) fun both => absurd both same]
  | false =>
      rw [if_neg Bool.false_ne_true]
      apply List.filter_congr
      intro j _
      rw [p.skips_collect expired locked fun same => same ▸ skipped]
      by_cases same : j = k
      · simp [same, skipped]
      · simp [same]

/-- The first visit to a key decides whether it is reclaimed. -/
theorem eraseDups_reclaims (p : FreePool K) (k : K) (rest : List K) :
    (if p.reclaims expired locked k then [k] else []) ++
      (rest.filter ((p.collect expired locked k).reclaims expired locked)).eraseDups =
    ((k :: rest).filter (p.reclaims expired locked)).eraseDups := by
  have others : rest.filter ((p.collect expired locked k).reclaims expired locked) =
      (rest.filter (p.reclaims expired locked)).filter fun j => !(j == k) := by
    rw [List.filter_filter]
    apply List.filter_congr
    intro j _
    exact p.reclaims_collect expired locked k j
  rw [others]
  cases back : p.reclaims expired locked k with
  | true =>
      rw [if_pos rfl, List.filter_cons_of_pos back, List.eraseDups_cons]
      rfl
  | false =>
      have none : (rest.filter (p.reclaims expired locked)).filter (fun j => !(j == k)) =
          rest.filter (p.reclaims expired locked) := by
        apply List.filter_eq_self.mpr
        intro j inRest
        have reclaimed := (List.mem_filter.mp inRest).2
        by_cases same : j = k
        · rw [same, back] at reclaimed
          cases reclaimed
        · simp [same]
      rw [if_neg Bool.false_ne_true, List.filter_cons_of_neg (by simp [back]), none]
      rfl

/-- What stays keeps its order, and what is reclaimed follows in the order of the visits. -/
theorem free_collectAll (keys : List K) (p : FreePool K) :
    (keys.foldl (collect · expired locked ·) p).free =
      (p.free.filter fun j => decide (j ∉ keys) || !p.skips expired locked j) ++
        (keys.filter (p.reclaims expired locked)).eraseDups := by
  induction keys generalizing p with
  | nil => simp
  | cons k rest ih =>
      have reclaimed : (if p.reclaims expired locked k then [k] else []).filter
          (fun j => decide (j ∉ rest) || !(p.collect expired locked k).skips expired locked j) =
          if p.reclaims expired locked k then [k] else [] := by
        cases back : p.reclaims expired locked k with
        | true =>
            rw [reclaims] at back
            simp only [Bool.and_eq_true, Bool.not_eq_true'] at back
            have usable := back.1.2
            simp [p.skips_collect expired locked fun _ : k = k => usable, usable]
        | false => rfl
      rw [List.foldl_cons, ih, free_collect, List.filter_append, filter_collect, reclaimed,
        List.append_assoc, eraseDups_reclaims]

end Collect

/-! ## Keys that wait -/

omit [DecidableEq K] in
def Waits (p : FreePool K) (k : K) : Prop := (p.expiry k).isSome → k ∈ p.free

section Waits

variable {p : FreePool K} {k : K} {expired : Int → Bool} {locked : K → Bool}

theorem Waits.removeAll (waits : p.Waits k) (keys : List K) : (keys.foldl remove p).Waits k := by
  intro isMember
  rw [expiry_removeAll] at isMember
  split at isMember
  · cases isMember
  · rename_i stays
    rw [free_removeAll, List.mem_filter]
    exact ⟨waits isMember, by simpa using stays⟩

theorem Waits.joinAll (waits : p.Waits k) (e : Int) (keys : List K) :
    (keys.foldl (·.join e ·) p).Waits k := by
  intro isMember
  rw [free_joinAll, List.mem_append, List.mem_eraseDups, mem_newIn]
  cases known : p.expiry k with
  | some old => exact Or.inl (waits (by rw [known]; rfl))
  | none =>
      rw [expiry_joinAll, known] at isMember
      split at isMember
      · rename_i joins
        exact Or.inr ⟨joins, rfl⟩
      · cases isMember

theorem Waits.assign (waits : p.Waits k) (e : Int) (keys allItems pairs : List K) :
    (p.assign e keys allItems pairs).Waits k := (waits.removeAll _).joinAll e _

theorem Waits.giveBackAll (waits : p.Waits k) (held : K → Bool) (e : Int) (keys : List K) :
    (keys.foldl (·.giveBack held e ·) p).Waits k := by
  intro isMember
  rw [expiry_giveBackAll] at isMember
  rw [free_giveBackAll, List.mem_append]
  apply Or.inl
  apply waits
  split at isMember
  · rename_i given
    exact given.2.1.1
  · exact isMember

theorem Waits.collectAll (waits : p.Waits k) (unlocked : locked k = false) (keys : List K) :
    (keys.foldl (·.collect expired locked ·) p).Waits k := by
  intro isMember
  rw [expiry_collectAll] at isMember
  split at isMember
  · cases isMember
  · rename_i spared
    rw [free_collectAll, List.mem_append, List.mem_filter]
    refine Or.inl ⟨waits isMember, ?_⟩
    by_cases visited : k ∈ keys
    · have unexpired : (p.expiry k).any expired = false := by simpa [visited] using spared
      simp [skips, unexpired, unlocked]
    · simp [visited]

theorem Waits.afterPop (waits : p.Waits k) (unlocked : locked k = false)
    (other : p.available expired locked ≠ some k) : (p.afterPop expired locked).Waits k := by
  intro isMember
  rw [FreePool.afterPop] at isMember ⊢
  simp only at isMember ⊢
  split at isMember
  · cases isMember
  · rename_i spared
    have present := waits isMember
    rw [← List.takeWhile_append_dropWhile (p := p.skips expired locked) (l := p.free),
      List.mem_append] at present
    have notBefore : k ∉ p.free.takeWhile (p.skips expired locked) := by
      intro before
      have skipped := List.mem_takeWhile_imp before
      rw [skips, unlocked, Bool.or_false] at skipped
      exact spared ⟨before, skipped⟩
    have later := present.resolve_left notBefore
    rw [available, List.find?_not_eq_head?_dropWhile] at other
    cases rest : p.free.dropWhile (p.skips expired locked) with
    | nil =>
        rw [rest] at later
        cases later
    | cons x others =>
        rw [rest] at later other
        rcases List.mem_cons.mp later with rfl | behind
        · exact absurd rfl other
        · exact behind

theorem Waits.take (waits : p.Waits k) {j : K} (other : k ≠ j) : (p.take j).Waits k := by
  intro isMember
  rw [free_take, List.mem_erase_of_ne other]
  exact waits isMember

theorem waits_giveBack {held : K → Bool} (e : Int) (either : held k = true ∨ p.Waits k) :
    (p.giveBack held e k).Waits k := by
  by_cases back : ((p.expiry k).isSome = true ∧ held k = true) ∧ k ∉ p.free
  · rw [giveBack_held back.1.1 back.1.2 back.2]
    intro _
    simp
  · rw [giveBack, dif_neg back]
    intro isMember
    rcases either with isHeld | waits
    · by_contra absent
      exact back ⟨⟨isMember, isHeld⟩, absent⟩
    · exact waits isMember

end Waits

end FreePool

end RedisAllocator

import RedisAllocator.Pool.Allocation

/-!
# Garbage collection over the whole pool

A sweep is a sequence of `gc` calls at one instant.  HSCAN chooses the batches
and their order and may report a member more than once; the sweep visits every
member.  It leaves a pool in which a second sweep finds nothing to do.
-/

set_option autoImplicit false

namespace RedisAllocator

open AbortableScript AbortableScript.Script

/-- Every key is a member when its turn comes. -/
def Redis.VisitsMembers (s : Redis) : List String → Prop
  | [] => True
  | k :: rest => (s.hget k).isSome ∧ Redis.VisitsMembers (checkItemHealth k s).2 rest

/-- Successive `gc` calls, each with its count and what HSCAN replied to it. -/
def gcSweep (calls : List (Int × ScanReply)) : LuaScript Unit :=
  calls.forM fun call => gc call.1 fun _ _ => call.2

def sweepVisits (calls : List (Int × ScanReply)) : List String :=
  calls.flatMap fun call => call.2.items

/-- The same over a queue: the visits delete what has expired. -/
def FreePool.Visits {K : Type} [DecidableEq K] (expired : Int → Bool) (locked : K → Bool)
    (p : FreePool K) : List K → Prop
  | [] => True
  | k :: rest => (p.expiry k).isSome ∧ (p.collect expired locked k).Visits expired locked rest

theorem FreePool.visits_append {K : Type} [DecidableEq K] {expired : Int → Bool}
    {locked : K → Bool} {visited later : List K} {p : FreePool K} :
    p.Visits expired locked (visited ++ later) ↔ p.Visits expired locked visited ∧
      (visited.foldl (·.collect expired locked ·) p).Visits expired locked later := by
  induction visited generalizing p with
  | nil => simp [Visits]
  | cons k rest ih => simp only [List.cons_append, Visits, List.foldl_cons, ih, and_assoc]

theorem FreePool.Visits.member {K : Type} [DecidableEq K] {expired : Int → Bool}
    {locked : K → Bool} {visited : List K} {p : FreePool K}
    (visits : p.Visits expired locked visited) : ∀ k ∈ visited, (p.expiry k).isSome := by
  induction visited generalizing p with
  | nil => intro k inNone; cases inNone
  | cons j rest ih =>
      intro k inVisited
      rcases List.mem_cons.mp inVisited with rfl | inRest
      · exact visits.1
      · have later := ih visits.2 k inRest
        rw [expiry_collect] at later
        split at later
        · cases later
        · exact later

theorem FreePool.visits_of_nodup {K : Type} [DecidableEq K] {expired : Int → Bool}
    {locked : K → Bool} {keys : List K} {p : FreePool K} (unique : keys.Nodup)
    (members : ∀ k ∈ keys, (p.expiry k).isSome) : p.Visits expired locked keys := by
  induction keys generalizing p with
  | nil => trivial
  | cons k rest ih =>
      obtain ⟨fresh, unique'⟩ := List.nodup_cons.mp unique
      rw [List.forall_mem_cons] at members
      refine ⟨members.1, ih unique' fun j inRest => ?_⟩
      have different : ¬ (j = k ∧ (p.expiry j).any expired) := by
        rintro ⟨rfl, _⟩
        exact fresh inRest
      rw [expiry_collect, if_neg different]
      exact members.2 j inRest

section Visits

variable {s s' : Redis} {p : FreePool String}

theorem checkItemHealth_collects (rep : Represents s p) {k : String}
    (isMember : (p.expiry k).isSome) :
    Completes (checkItemHealth k) s () (p.collect s.isExpiryInvalid s.locked k) s := by
  obtain ⟨e, found⟩ := Option.isSome_iff_exists.mp isMember
  rw [FreePool.collect, found]
  exact checkItemHealth_completes rep found

theorem Redis.locked_funext_of_outside (frame : s'.outside = s.outside) : s'.locked = s.locked :=
  funext fun k => Redis.locked_of_outside frame k

theorem Redis.isExpiryInvalid_funext_of_outside (frame : s'.outside = s.outside) :
    s'.isExpiryInvalid = s.isExpiryInvalid :=
  funext fun e => Redis.isExpiryInvalid_of_outside frame e

theorem Represents.visitsMembers_iff {keys : List String} (rep : Represents s p) :
    s.VisitsMembers keys ↔ p.Visits s.isExpiryInvalid s.locked keys := by
  induction keys generalizing s p with
  | nil => exact Iff.rfl
  | cons k rest ih =>
      rw [Redis.VisitsMembers, FreePool.Visits, rep.hget_isSome]
      apply and_congr_right
      intro isMember
      obtain ⟨s', run, rep', frame⟩ := checkItemHealth_collects rep isMember
      rw [run, ih rep', Redis.isExpiryInvalid_funext_of_outside frame,
        Redis.locked_funext_of_outside frame]

theorem checkItems_complete {keys : List String} (rep : Represents s p)
    (visits : p.Visits s.isExpiryInvalid s.locked keys) :
    Completes (keys.forM checkItemHealth) s ()
      (keys.foldl (·.collect s.isExpiryInvalid s.locked ·) p) s := by
  induction keys generalizing s p with
  | nil => exact ⟨s, rfl, rep, rfl⟩
  | cons k rest ih =>
      apply (checkItemHealth_collects rep visits.1).bind
      intro s' rep' frame
      have sameExpiry := Redis.isExpiryInvalid_funext_of_outside frame
      have sameLocks := Redis.locked_funext_of_outside frame
      have later := ih rep' (by rw [sameExpiry, sameLocks]; exact visits.2)
      rw [sameExpiry, sameLocks] at later
      obtain ⟨final, run, represents, frame'⟩ := later
      exact ⟨final, run, represents, frame'.trans frame⟩

theorem gc_run {count : Int} (positive : 0 < count) (hscan : String → Int → ScanReply) (s : Redis) :
    ∃ cursor, gc count hscan s = ((hscan cursor count).items.forM checkItemHealth >>= fun _ =>
      setCursor (hscan cursor count).cursor) s := by
  simp only [gc, if_pos positive, gcScript, getCursor, read_bind_apply]
  exact ⟨_, rfl⟩

theorem gc_collects {count : Int} (positive : 0 < count) (hscan : String → Int → ScanReply)
    (rep : Represents s p)
    (visits : ∀ cursor, p.Visits s.isExpiryInvalid s.locked (hscan cursor count).items) :
    ∃ cursor, Completes (gc count hscan) s ()
      ((hscan cursor count).items.foldl (·.collect s.isExpiryInvalid s.locked ·) p)
      { s with gcCursor := some (hscan cursor count).cursor } := by
  obtain ⟨cursor, start⟩ := gc_run positive hscan s
  obtain ⟨s', run, rep', frame⟩ := checkItems_complete rep (visits cursor)
  refine ⟨cursor, { s' with gcCursor := some (hscan cursor count).cursor }, ?_,
    rep'.of_outside_pool rfl rfl rfl, ?_⟩
  · rw [start, bind_ok run]
    rfl
  · simp only [Redis.outside, Prod.mk.injEq] at frame ⊢
    exact ⟨frame.1, trivial, frame.2.2⟩

/-- The batches do not matter: a sweep does what its visits do one by one. -/
theorem gcSweep_collects {calls : List (Int × ScanReply)} (positive : ∀ call ∈ calls, 0 < call.1)
    (rep : Represents s p) (visits : p.Visits s.isExpiryInvalid s.locked (sweepVisits calls)) :
    ∃ cursor, Completes (gcSweep calls) s ()
      ((sweepVisits calls).foldl (·.collect s.isExpiryInvalid s.locked ·) p)
      { s with gcCursor := cursor } := by
  induction calls generalizing s p with
  | nil => exact ⟨s.gcCursor, s, rfl, rep, rfl⟩
  | cons call rest ih =>
      rw [List.forall_mem_cons] at positive
      rw [sweepVisits, List.flatMap_cons, FreePool.visits_append] at visits
      obtain ⟨_, s₁, first, rep₁, frame₁⟩ :=
        gc_collects positive.1 (fun _ _ => call.2) rep fun _ => visits.1
      have sameExpiry : s₁.isExpiryInvalid = s.isExpiryInvalid :=
        (Redis.isExpiryInvalid_funext_of_outside frame₁).trans rfl
      have sameLocks : s₁.locked = s.locked := (Redis.locked_funext_of_outside frame₁).trans rfl
      have later := ih positive.2 rep₁ (by rw [sameExpiry, sameLocks]; exact visits.2)
      rw [sameExpiry, sameLocks] at later
      obtain ⟨cursor, s₂, run, rep₂, frame₂⟩ := later
      refine ⟨cursor, s₂, ?_, ?_, ?_⟩
      · rw [gcSweep, forM_cons_apply, bind_ok first]
        exact run
      · rw [sweepVisits, List.flatMap_cons, List.foldl_append]
        exact rep₂
      · simp only [Redis.outside, Prod.mk.injEq] at frame₁ frame₂ ⊢
        exact ⟨frame₂.1.trans frame₁.1, frame₂.2.1, frame₂.2.2.1.trans frame₁.2.2.1,
          frame₂.2.2.2.trans frame₁.2.2.2⟩

end Visits

section Settled

variable {s : Redis} {p : FreePool String}

/-- The pool has nothing to collect: no member has expired, and the queue holds those without a
lock. -/
def Redis.Settled (s : Redis) (p : FreePool String) : Prop :=
  ∀ k e, p.expiry k = some e → s.isExpiryInvalid e = false ∧ (k ∈ p.free ↔ s.locked k = false)

theorem checkItemHealth_settled (rep : Represents s p) (settled : s.Settled p) {k : String}
    (isMember : (s.hget k).isSome) : checkItemHealth k s = (.ok (), s) := by
  obtain ⟨val, stored⟩ := Option.isSome_iff_exists.mp isMember
  have found : p.expiry k = some val.expiry := by
    rw [← rep.expiryOf, Redis.expiryOf, stored, Option.map_some]
  obtain ⟨unexpired, queued⟩ := settled k val.expiry found
  rw [checkItemHealth_run stored, if_neg (by simp [unexpired])]
  by_cases present : k ∈ p.free
  · have linked : val.prev ≠ allocatedSentinel := fun marked =>
      (rep.prev_eq_sentinel_iff stored).mp marked present
    rw [if_neg linked, queued.mp present]
    rfl
  · have marked : val.prev = allocatedSentinel := (rep.prev_eq_sentinel_iff stored).mpr present
    have locked : s.locked k = true := by simpa [present] using queued
    rw [if_pos marked, locked]
    rfl

theorem Redis.Settled.visitsMembers_iff (rep : Represents s p) (settled : s.Settled p)
    {keys : List String} : s.VisitsMembers keys ↔ ∀ k ∈ keys, (s.hget k).isSome := by
  induction keys with
  | nil => simp [VisitsMembers]
  | cons k rest ih =>
      rw [VisitsMembers, List.forall_mem_cons]
      apply and_congr_right
      intro isMember
      rw [checkItemHealth_settled rep settled isMember, ih]

theorem checkItems_settled {keys : List String} (rep : Represents s p) (settled : s.Settled p)
    (members : ∀ k ∈ keys, (s.hget k).isSome) : keys.forM checkItemHealth s = (.ok (), s) := by
  induction keys with
  | nil => rfl
  | cons k rest ih =>
      rw [List.forall_mem_cons] at members
      rw [forM_cons_apply, bind_ok (checkItemHealth_settled rep settled members.1), ih members.2]

theorem gcSweep_settled {calls : List (Int × ScanReply)} (positive : ∀ call ∈ calls, 0 < call.1)
    (rep : Represents s p) (settled : s.Settled p)
    (members : ∀ k ∈ sweepVisits calls, (s.hget k).isSome) :
    ∃ cursor, gcSweep calls s = (.ok (), { s with gcCursor := cursor }) := by
  induction calls generalizing s with
  | nil => exact ⟨s.gcCursor, rfl⟩
  | cons call rest ih =>
      rw [List.forall_mem_cons] at positive
      rw [sweepVisits, List.flatMap_cons, List.forall_mem_append] at members
      have first : gc call.1 (fun _ _ => call.2) s =
          (.ok (), { s with gcCursor := some call.2.cursor }) := by
        obtain ⟨_, start⟩ := gc_run positive.1 (fun _ _ => call.2) s
        rw [start, bind_ok (checkItems_settled rep settled members.1)]
        rfl
      obtain ⟨cursor, run⟩ := ih positive.2
        (s := { s with gcCursor := some call.2.cursor })
        (rep.of_outside_pool rfl rfl rfl) settled members.2
      exact ⟨cursor, by rw [gcSweep, forM_cons_apply, bind_ok first]; exact run⟩

end Settled

section Entries

variable {s : Redis} {L : List String}

def Redis.sweptQueue (s : Redis) (L visited : List String) : List String :=
  (L.filter fun k => !s.skips k) ++
    (visited.filter fun k => !s.skips k && decide (k ∉ L)).eraseDups

theorem Redis.mem_sweptQueue {visited : List String} {k : String} {e : Int}
    (found : s.expiryOf k = some e) (unexpired : s.isExpiryInvalid e = false)
    (inVisited : k ∈ visited) : k ∈ s.sweptQueue L visited ↔ s.locked k = false := by
  have skipped : s.skips k = s.locked k := by
    rw [skips, found, Option.any_some, unexpired, Bool.false_or]
  rw [sweptQueue, List.mem_append, List.mem_eraseDups, List.mem_filter, List.mem_filter, skipped]
  by_cases present : k ∈ L <;> simp [present, inVisited]

theorem gcSweep_sweeps (wf : WellFormed s L) {calls : List (Int × ScanReply)}
    (positive : ∀ call ∈ calls, 0 < call.1) (visits : s.VisitsMembers (sweepVisits calls))
    (complete : ∀ k, (s.hget k).isSome → k ∈ sweepVisits calls) :
    ∃ cursor s', gcSweep calls s = (.ok (), s') ∧
      WellFormed s' (s.sweptQueue L (sweepVisits calls)) ∧
      (∀ k, s'.expiryOf k = (s.expiryOf k).filter fun e => !s.isExpiryInvalid e) ∧
      s'.outside = { s with gcCursor := cursor }.outside := by
  have rep := wf.represents
  have visits' := rep.visitsMembers_iff.mp visits
  obtain ⟨cursor, s', run, rep', frame⟩ := gcSweep_collects positive rep visits'
  have queue : ((sweepVisits calls).foldl (·.collect s.isExpiryInvalid s.locked ·) wf.pool).free =
      s.sweptQueue L (sweepVisits calls) := by
    rw [FreePool.free_collectAll, Redis.sweptQueue, rep.skips_eq]
    congr 1
    · apply List.filter_congr
      intro k present
      have visited := complete k (rep.hget_isSome k ▸ wf.pool.member k present)
      simp [visited]
    · apply congrArg List.eraseDups
      apply List.filter_congr
      intro k visited
      rw [FreePool.reclaims, rep.skips_eq, visits'.member k visited]
      rfl
  refine ⟨cursor, s', run, queue ▸ rep'.wellFormed, ?_, frame⟩
  intro k
  rw [rep'.expiryOf, FreePool.expiry_collectAll, ← rep.expiryOf]
  cases found : s.expiryOf k with
  | none => simp
  | some e =>
      have visited := complete k (by rw [← Redis.isSome_expiryOf, found]; rfl)
      rw [Option.filter_some]
      cases dead : s.isExpiryInvalid e <;> simp [visited, dead]

/-- A sweep that visits every member, in any order and any batches, completes.  What has expired is
gone, what remains is queued exactly when it has no lock, and a second sweep changes nothing. -/
theorem gcSweep_converges (wf : WellFormed s L) {calls : List (Int × ScanReply)}
    (positive : ∀ call ∈ calls, 0 < call.1) (visits : s.VisitsMembers (sweepVisits calls))
    (complete : ∀ k, (s.hget k).isSome → k ∈ sweepVisits calls) :
    ∃ s', gcSweep calls s = (.ok (), s') ∧ WellFormed s' (s.sweptQueue L (sweepVisits calls)) ∧
      (∀ k, s'.expiryOf k = (s.expiryOf k).filter fun e => !s.isExpiryInvalid e) ∧
      (∀ k, (s'.hget k).isSome →
        (k ∈ s.sweptQueue L (sweepVisits calls) ↔ s'.locked k = false)) ∧
      s'.locks = s.locks ∧ s'.binds = s.binds ∧ s'.now = s.now ∧
      ∀ again : List (Int × ScanReply), (∀ call ∈ again, 0 < call.1) →
        s'.VisitsMembers (sweepVisits again) →
        ∃ cursor, gcSweep again s' = (.ok (), { s' with gcCursor := cursor }) := by
  obtain ⟨cursor, s', run, wf', expiry, frame⟩ := gcSweep_sweeps wf positive visits complete
  have members : ∀ k e, s'.expiryOf k = some e → s.isExpiryInvalid e = false ∧
      (k ∈ s.sweptQueue L (sweepVisits calls) ↔ s.locked k = false) := by
    intro k e found
    rw [expiry k, Option.filter_eq_some_iff, Bool.not_eq_true'] at found
    obtain ⟨before, unexpired⟩ := found
    have visited := complete k (by rw [← Redis.isSome_expiryOf, before]; rfl)
    exact ⟨unexpired, Redis.mem_sweptQueue before unexpired visited⟩
  have locks : s'.locked = s.locked := (Redis.locked_funext_of_outside frame).trans rfl
  have now : s'.isExpiryInvalid = s.isExpiryInvalid :=
    (Redis.isExpiryInvalid_funext_of_outside frame).trans rfl
  refine ⟨s', run, wf', expiry, fun k isMember => ?_,
    (Redis.locks_of_outside frame).trans rfl, (Redis.binds_of_outside frame).trans rfl,
    (Redis.now_of_outside frame).trans rfl, fun again positive' visits'' => ?_⟩
  · rw [← Redis.isSome_expiryOf] at isMember
    obtain ⟨e, found⟩ := Option.isSome_iff_exists.mp isMember
    rw [locks]
    exact (members k e found).2
  · have settled : s'.Settled wf'.pool := by
      intro k e found
      rw [now, locks]
      exact members k e found
    exact gcSweep_settled positive' wf'.represents settled
      ((settled.visitsMembers_iff wf'.represents).mp visits'')

def sampleSweep : List (Int × ScanReply) := [(10, ⟨"4", ["b"]⟩), (10, ⟨"0", ["a", "b"]⟩)]

theorem sampleSweep_complete (k : String) (isMember : ((jobChain 10000).hget k).isSome) :
    k ∈ sweepVisits sampleSweep := by
  have stored : (jobChain 10000).hget k = sampleChain.hget k := rfl
  rw [stored, hget_sampleChain] at isMember
  by_cases isB : k = "b"
  · simp [sweepVisits, sampleSweep, isB]
  · by_cases isA : k = "a"
    · simp [sweepVisits, sampleSweep, isA]
    · simp [isB, isA] at isMember

theorem gcSweep_converges_sample :
    ∃ s', gcSweep sampleSweep (jobChain 10000) = (.ok (), s') ∧
      WellFormed s' ((jobChain 10000).sweptQueue ["a", "b"] (sweepVisits sampleSweep)) ∧
      (∀ k, s'.expiryOf k =
        ((jobChain 10000).expiryOf k).filter fun e => !(jobChain 10000).isExpiryInvalid e) ∧
      (∀ k, (s'.hget k).isSome →
        (k ∈ (jobChain 10000).sweptQueue ["a", "b"] (sweepVisits sampleSweep) ↔
          s'.locked k = false)) ∧
      s'.locks = (jobChain 10000).locks ∧ s'.binds = (jobChain 10000).binds ∧
      s'.now = (jobChain 10000).now ∧
      ∀ again : List (Int × ScanReply), (∀ call ∈ again, 0 < call.1) →
        s'.VisitsMembers (sweepVisits again) →
        ∃ cursor, gcSweep again s' = (.ok (), { s' with gcCursor := cursor }) :=
  gcSweep_converges (jobChain_wellFormed 10000) (by decide)
    ⟨by decide, by decide, by decide, trivial⟩ sampleSweep_complete

end Entries

end RedisAllocator

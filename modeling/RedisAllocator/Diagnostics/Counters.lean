import RedisAllocator.Diagnostics.Completeness
import RedisAllocator.Pool.Sweep

/-!
# The pool counters and the next sweep

`summarize_pool` counts entry by entry.  A sweep looks at the expiry of a member
first, at its marker second and at its lock last; the counter of the reclaimable
looks at the last two only.
-/

set_option autoImplicit false

namespace RedisAllocator

open NeighbourList

structure PoolDiagnostics where
  total : Nat
  free : Nat
  allocatedMarkers : Nat
  locked : Nat
  expiredEntries : Nat
  permanentLocks : Nat
  reclaimable : Nat
deriving DecidableEq

namespace RawAllocatorSnapshot

variable (snapshot : RawAllocatorSnapshot)

/-- `lock_ttls.get(key, -2)` -/
def lockTtl (key : String) : Int := (snapshot.lockTtls.lookup key).getD (-2)

def count (counters : PoolDiagnostics) (item : Sigma fun _ : String => PoolEntry) :
    PoolDiagnostics :=
  let isLocked := snapshot.lockKey item.1
  let ttl := snapshot.lockTtl item.1
  { counters with
    free := counters.free + item.2.isFreeNode.toNat
    allocatedMarkers := counters.allocatedMarkers + (!item.2.isFreeNode).toNat
    locked := counters.locked + isLocked.toNat
    expiredEntries := counters.expiredEntries +
      (0 < item.2.expiry && item.2.expiry ≤ snapshot.now : Bool).toNat
    permanentLocks := counters.permanentLocks + (isLocked && ttl = -1).toNat
    reclaimable := counters.reclaimable + (item.2.isAllocatedMarker && !isLocked).toNat }

def summarizePool : PoolDiagnostics :=
  { snapshot.entries.entries.foldl snapshot.count ⟨0, 0, 0, 0, 0, 0, 0⟩ with
    total := snapshot.entries.entries.length }

/-! ## What the loop counts -/

theorem add_countP_cons {α : Type} (p : α → Bool) (n : Nat) (a : α) (l : List α) :
    n + (p a).toNat + l.countP p = n + (a :: l).countP p := by
  rw [List.countP_cons]
  cases p a <;> simp; omega

theorem foldl_count (items : List (Sigma fun _ : String => PoolEntry))
    (counters : PoolDiagnostics) :
    items.foldl snapshot.count counters =
      { counters with
        free := counters.free + items.countP fun item => item.2.isFreeNode
        allocatedMarkers := counters.allocatedMarkers +
          items.countP fun item => !item.2.isFreeNode
        locked := counters.locked + items.countP fun item => snapshot.lockKey item.1
        expiredEntries := counters.expiredEntries +
          items.countP fun item => 0 < item.2.expiry && item.2.expiry ≤ snapshot.now
        permanentLocks := counters.permanentLocks +
          items.countP fun item => snapshot.lockKey item.1 && snapshot.lockTtl item.1 = -1
        reclaimable := counters.reclaimable +
          items.countP fun item => item.2.isAllocatedMarker && !snapshot.lockKey item.1 } := by
  induction items generalizing counters with
  | nil => rfl
  | cons item rest ih =>
      rw [List.foldl_cons, ih]
      simp only [count, ← add_countP_cons]

theorem summarizePool_total : snapshot.summarizePool.free + snapshot.summarizePool.allocatedMarkers =
    snapshot.summarizePool.total := by
  simp only [summarizePool, foldl_count, Nat.zero_add]
  rw [List.length_eq_countP_add_countP fun item => item.2.isFreeNode]
  simp only [Bool.not_eq_true, Bool.decide_eq_false]

end RawAllocatorSnapshot

/-! ## The members behind the counters -/

section Collected

variable {shared : Bool} {localTime : Int} {s : Redis} {kvs : AList fun _ : String => PoolEntry}
  (reply : kvs.toFinmap = s.pool)
include reply

theorem countP_kvs (p : String → PoolEntry → Bool) :
    kvs.entries.countP (fun item => p item.1 item.2) =
      (s.pool.keys.filter fun k => (s.hget k).any (p k)).card := by
  have byKey : kvs.entries.countP (fun item => p item.1 item.2) =
      kvs.entries.countP fun item => (s.hget item.1).any (p item.1) := by
    apply List.countP_congr
    intro item present
    have stored : s.hget item.1 = some item.2 := by
      rw [← lookup_kvs reply]
      exact List.mem_dlookup kvs.nodupKeys present
    rw [stored, Option.any_some]
  have onKeys := List.countP_map (l := kvs.entries) (f := Sigma.fst)
    (p := fun k => (s.hget k).any (p k))
  rw [byKey, Finset.card_def, Finset.filter_val, ← Multiset.countP_eq_card_filter, ← reply]
  rw [Function.comp_def] at onKeys
  rw [← onKeys]
  simp [AList.toFinmap, Finmap.keys, Multiset.keys]

theorem summarizePool_expiredEntries (atNow : (collectRawPool shared localTime s kvs).now = s.time) :
    (collectRawPool shared localTime s kvs).summarizePool.expiredEntries =
      (s.pool.keys.filter fun k => (s.hget k).any fun entry =>
        s.isExpiryInvalid entry.expiry && entry.expiry.natAbs < 10 ^ 14).card := by
  rw [← countP_kvs reply fun _ entry =>
    s.isExpiryInvalid entry.expiry && entry.expiry.natAbs < 10 ^ 14]
  simp only [RawAllocatorSnapshot.summarizePool, RawAllocatorSnapshot.foldl_count, Nat.zero_add,
    atNow]
  simp only [collectRawPool, mapDict, List.countP_map]
  apply List.countP_congr
  intro item _
  simp only [Function.comp_apply, parsePoolEntry_expiry, Redis.isExpiryInvalid]
  split
  · rename_i small
    rw [decide_eq_true small, Bool.and_true]
  · rename_i large
    rw [decide_eq_false large, Bool.and_false]
    simp

theorem summarizePool_reclaimable :
    (collectRawPool shared localTime s kvs).summarizePool.reclaimable =
      (s.pool.keys.filter fun k => (s.hget k).any fun entry =>
        entry.isAllocatedMarker && !s.locked k).card := by
  rw [← countP_kvs reply fun k entry => entry.isAllocatedMarker && !s.locked k]
  simp only [RawAllocatorSnapshot.summarizePool, RawAllocatorSnapshot.foldl_count, Nat.zero_add]
  have locks : ∀ item ∈ kvs.entries,
      (collectRawPool shared localTime s kvs).lockKey item.1 = s.locked item.1 := by
    intro item present
    apply lockKey_collected reply
    rw [← lookup_kvs reply, AList.lookup_isSome]
    exact List.mem_keys_of_mem present
  simp only [collectRawPool, mapDict, List.countP_map] at locks ⊢
  apply List.countP_congr
  intro item present
  simp only [Function.comp_apply, parsePoolEntry_isAllocatedMarker, locks item present]

end Collected

/-! ## The sweep -/

/-- The members that are gone afterwards. -/
def Redis.deleted (s s' : Redis) : Finset String :=
  s.pool.keys.filter fun k => (s'.hget k).isNone

/-- The members that were marked as allocated and are linked into the free list afterwards. -/
def Redis.reclaimed (s s' : Redis) : Finset String :=
  s.pool.keys.filter fun k =>
    (s.hget k).any PoolEntry.isAllocatedMarker && (s'.hget k).any PoolEntry.isFreeNode

/-- The counters of a snapshot of `s` say what the step to `s'` does to the members. -/
def PoolDiagnostics.Predicts (counters : PoolDiagnostics) (s s' : Redis) : Prop :=
  counters.free + counters.allocatedMarkers = counters.total ∧
    counters.expiredEntries = (s.deleted s').card ∧ counters.reclaimable = (s.reclaimed s').card

theorem card_filter_eq_iff {α : Type} {members : Finset α} {p q : α → Bool}
    (narrower : ∀ a ∈ members, p a → q a) :
    (members.filter (p ·)).card = (members.filter (q ·)).card ↔ ∀ a ∈ members, q a → p a := by
  have included : members.filter (p ·) ⊆ members.filter (q ·) := by
    intro a present
    rw [Finset.mem_filter] at present ⊢
    exact ⟨present.1, narrower a present.1 present.2⟩
  constructor
  · intro same a present holds
    have equal := Finset.eq_of_subset_of_card_le included same.ge
    have inBoth : a ∈ members.filter (p ·) := equal ▸ Finset.mem_filter.mpr ⟨present, holds⟩
    exact (Finset.mem_filter.mp inBoth).2
  · intro wider
    congr 1
    apply Finset.filter_congr
    exact fun a present => ⟨narrower a present, wider a present⟩

section Sweep

variable {shared : Bool} {localTime : Int} {s s' : Redis} {L L' : List String}
  {kvs : AList fun _ : String => PoolEntry}

theorem WellFormed.isAllocatedMarker_iff (wf : WellFormed s L) {k : String} {entry : PoolEntry}
    (stored : s.hget k = some entry) : entry.isAllocatedMarker = true ↔ k ∉ L := by
  rw [PoolEntry.isAllocatedMarker, Bool.and_eq_true, decide_eq_true_iff, decide_eq_true_iff]
  constructor
  · intro marked present
    have linked := (wf.linked k present entry stored).1
    have nameable := wf.named _ (wf.member _ (predIn_mem present wf.nodup
      (by rw [← linked, marked.1]; decide)))
    exact nameable.2 (linked.symm.trans marked.1)
  · exact fun absent => wf.marked k absent entry stored

variable (expiry : ∀ k, s'.expiryOf k = (s.expiryOf k).filter fun e => !s.isExpiryInvalid e)
include expiry

theorem isNone_swept {k : String} {entry : PoolEntry} (stored : s.hget k = some entry) :
    (s'.hget k).isNone = s.isExpiryInvalid entry.expiry := by
  have after := expiry k
  rw [Redis.expiryOf, Redis.expiryOf, stored, Option.map_some, Option.filter_some] at after
  cases dead : s.isExpiryInvalid entry.expiry <;> cases found : s'.hget k <;>
    simp [dead, found] at after ⊢

theorem WellFormed.isFreeNode_swept {visited : List String}
    (wf' : WellFormed s' (s.sweptQueue L visited)) {k : String} {entry : PoolEntry}
    (stored : s.hget k = some entry) (inVisited : k ∈ visited) :
    (s'.hget k).any PoolEntry.isFreeNode = (!s.isExpiryInvalid entry.expiry && !s.locked k) := by
  have gone := isNone_swept expiry stored
  cases dead : s.isExpiryInvalid entry.expiry with
  | true =>
      rw [dead, Option.isNone_iff_eq_none] at gone
      rw [gone]
      rfl
  | false =>
      have found : s.expiryOf k = some entry.expiry := by
        rw [Redis.expiryOf, stored, Option.map_some]
      have queued := Redis.mem_sweptQueue (L := L) found dead inVisited
      rw [dead] at gone
      cases left : s'.hget k with
      | none =>
          rw [left] at gone
          cases gone
      | some entry' =>
          rw [Option.any_some, PoolEntry.isFreeNode, Bool.not_false, Bool.true_and]
          congr 1
          rw [Bool.eq_iff_iff, wf'.isAllocatedMarker_iff left, queued, Bool.not_eq_false]

omit expiry in
theorem Redis.forall_members_iff {P : String → Prop} :
    (∀ k ∈ s.pool.keys, P k) ↔ ∀ k entry, s.hget k = some entry → P k := by
  refine forall_congr' fun k => ?_
  rw [Finmap.mem_keys, Redis.mem_pool_iff, forall_exists_index]

section Counters

variable (reply : kvs.toFinmap = s.pool)
include reply

theorem expiredEntries_eq_deleted_iff
    (atNow : (collectRawPool shared localTime s kvs).now = s.time) :
    (collectRawPool shared localTime s kvs).summarizePool.expiredEntries = (s.deleted s').card ↔
      ∀ k entry, s.hget k = some entry → s.isExpiryInvalid entry.expiry = true →
        entry.expiry < 10 ^ 14 := by
  rw [summarizePool_expiredEntries reply atNow, Redis.deleted, card_filter_eq_iff,
    Redis.forall_members_iff]
  · refine forall₃_congr fun k entry stored => ?_
    rw [isNone_swept expiry stored, stored, Option.any_some, Bool.and_eq_true, decide_eq_true_iff]
    refine forall_congr' fun dead => ?_
    have pending : 0 < entry.expiry := by
      rw [Redis.isExpiryInvalid, Bool.and_eq_true, decide_eq_true_iff] at dead
      exact dead.1
    rw [and_iff_right dead]
    omega
  · rw [Redis.forall_members_iff]
    intro k entry stored read
    rw [stored, Option.any_some, Bool.and_eq_true] at read
    rw [isNone_swept expiry stored]
    exact read.1

theorem reclaimable_eq_reclaimed_iff {visited : List String}
    (wf' : WellFormed s' (s.sweptQueue L visited))
    (complete : ∀ k, (s.hget k).isSome → k ∈ visited) :
    (collectRawPool shared localTime s kvs).summarizePool.reclaimable = (s.reclaimed s').card ↔
      ∀ k entry, s.hget k = some entry → s.isExpiryInvalid entry.expiry = true →
        ¬ (entry.isAllocatedMarker = true ∧ s.locked k = false) := by
  have swept {k : String} {entry : PoolEntry} (stored : s.hget k = some entry) :=
    wf'.isFreeNode_swept expiry stored (complete k (by rw [stored]; rfl))
  rw [summarizePool_reclaimable reply, Redis.reclaimed, eq_comm, card_filter_eq_iff,
    Redis.forall_members_iff]
  · refine forall₃_congr fun k entry stored => ?_
    rw [swept stored, stored, Option.any_some, Option.any_some]
    cases s.isExpiryInvalid entry.expiry <;> cases entry.isAllocatedMarker <;>
      cases s.locked k <;> simp
  · rw [Redis.forall_members_iff]
    intro k entry stored moved
    rw [swept stored] at moved
    rw [stored] at moved ⊢
    simp only [Option.any_some, Bool.and_eq_true] at moved ⊢
    exact ⟨moved.1, moved.2.2⟩

end Counters

end Sweep

/-- The counters say what a sweep at the instant of the snapshot does, in whatever order and batches
it goes, exactly if no member has expired of which the parser could not read the expiry, or which is
marked and without a lock. -/
theorem summarizePool_predicts_iff {shared : Bool} {localTime : Int} {s : Redis} {L : List String}
    {kvs : AList fun _ : String => PoolEntry} (wf : WellFormed s L) (reply : kvs.toFinmap = s.pool)
    (atNow : (collectRawPool shared localTime s kvs).now = s.time)
    {calls : List (Int × ScanReply)} (positive : ∀ call ∈ calls, 0 < call.1)
    (visits : s.VisitsMembers (sweepVisits calls))
    (complete : ∀ k, (s.hget k).isSome → k ∈ sweepVisits calls) :
    ∃ s', gcSweep calls s = (.ok (), s') ∧
      ((collectRawPool shared localTime s kvs).summarizePool.Predicts s s' ↔
        ∀ k entry, s.hget k = some entry → s.isExpiryInvalid entry.expiry = true →
          entry.expiry < 10 ^ 14 ∧ ¬ (entry.isAllocatedMarker = true ∧ s.locked k = false)) := by
  obtain ⟨_, s', run, wf', expiry, _⟩ := gcSweep_sweeps wf positive visits complete
  refine ⟨s', run, ?_⟩
  rw [PoolDiagnostics.Predicts, and_iff_right (RawAllocatorSnapshot.summarizePool_total _),
    expiredEntries_eq_deleted_iff expiry reply atNow,
    reclaimable_eq_reclaimed_iff expiry reply wf' complete]
  simp only [← forall_and]

theorem summarizePool_predicts_iff_sample :
    ∃ s', gcSweep sampleSweep (jobChain 10000) = (.ok (), s') ∧
      (collectRawPool true 0 (jobChain 10000) sampleChainReply).summarizePool.Predicts
        (jobChain 10000) s' := by
  obtain ⟨s', run, predicts_iff⟩ := @summarizePool_predicts_iff true 0 _ _ sampleChainReply
    (jobChain_wellFormed 10000) rfl rfl sampleSweep (by decide)
    ⟨by decide, by decide, by decide, trivial⟩ sampleSweep_complete
  refine ⟨s', run, predicts_iff.mpr fun k entry stored _ => ?_⟩
  rw [show (jobChain 10000).hget k = sampleChain.hget k from rfl, hget_sampleChain] at stored
  split at stored
  · cases stored
    exact ⟨by decide, fun marked => absurd marked.1 (by decide)⟩
  · split at stored
    · cases stored
      exact ⟨by decide, fun marked => absurd marked.1 (by decide)⟩
    · cases stored

/-- `a` expires after five seconds and is handed out for three; that was ten seconds ago. -/
def expiredHolder : Redis :=
  (mallocKey false (.int 3) none (.int 60)
    (extend ["a"] (some 5) (Redis.empty 1000)).2).2.advance 10000

theorem pool_expiredHolder : expiredHolder.pool =
    (AList.singleton "a" ⟨allocatedSentinel, allocatedSentinel, 6⟩).toFinmap := by decide

theorem expiredHolder_wellFormed : WellFormed expiredHolder [] :=
  wellFormed_marked pool_expiredHolder (by decide) (by decide) ⟨by decide, by decide⟩

/-- The sweep deletes `a` and moves nothing; `a` is counted as reclaimable. -/
theorem expiredHolder_miscounted : WellFormed expiredHolder [] ∧
    (AList.singleton "a" ⟨allocatedSentinel, allocatedSentinel, 6⟩).toFinmap = expiredHolder.pool ∧
    (collectRawPool false 0 expiredHolder
      (AList.singleton "a" ⟨allocatedSentinel, allocatedSentinel, 6⟩)).now = expiredHolder.time ∧
    (∀ k, (expiredHolder.hget k).isSome → k ∈ sweepVisits [(10, ⟨"0", ["a"]⟩)]) ∧
    expiredHolder.VisitsMembers (sweepVisits [(10, ⟨"0", ["a"]⟩)]) ∧
    (gcSweep [(10, ⟨"0", ["a"]⟩)] expiredHolder).1 = .ok () ∧
    (expiredHolder.reclaimed (gcSweep [(10, ⟨"0", ["a"]⟩)] expiredHolder).2).card = 0 ∧
    (collectRawPool false 0 expiredHolder
      (AList.singleton "a" ⟨allocatedSentinel, allocatedSentinel, 6⟩)).summarizePool.reclaimable =
        1 := by
  refine ⟨expiredHolder_wellFormed, pool_expiredHolder.symm, by decide, fun k isMember => ?_,
    ⟨by decide, trivial⟩, by decide, by decide, by decide⟩
  rw [Redis.hget, pool_expiredHolder, Finmap.lookup_toFinmap, AList.lookup_isSome] at isMember
  simpa [sweepVisits, AList.singleton, ← AList.mem_keys, AList.keys] using isMember

end RedisAllocator

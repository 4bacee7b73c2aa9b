import RedisAllocator.Diagnostics.Bindings
import RedisAllocator.Objects.PolicyRuns

/-!
# The report on orphaned locks

`_collect_orphans` counts the keys of the shape of a lock that belong to no member,
but for those of the bindings that `update_soft_bind` writes.  The lock that the
policy takes for an update has that shape too, and a key that SCAN returns twice
counts twice.  Which locks there can be is an invariant of the runs.
-/

set_option autoImplicit false

namespace RedisAllocator

open LabelledRun

structure OrphanDiagnostics where
  count : Nat
  scanned : Nat
  truncated : Bool
  samples : List String

/-- The local variables of `_collect_orphans`. -/
structure OrphanTally where
  count : Nat
  samples : List String

namespace Collector

variable (collector : Collector) (allocator : Allocator) (raw : RawAllocatorSnapshot)

def tallyOrphan (tally : OrphanTally) (lockKey : String) : OrphanTally :=
  let poolKey := pythonSlice lockKey (allocator.keyStr "").toList.length
  if startsWith poolKey allocator.softBindPrefix then tally
  else if (raw.entries.lookup poolKey).isSome then tally
  else
    { count := tally.count + 1
      samples :=
        if tally.samples.length < collector.sampleLimit then tally.samples ++ [lockKey]
        else tally.samples }

/-- `_collect_orphans`, with the replies to its scan. -/
def collectOrphans (locks : List (List String)) : OrphanDiagnostics :=
  let scan := boundedScan collector.scanLimit locks
  let tally := scan.keys.foldl (collector.tallyOrphan allocator raw) ⟨0, []⟩
  ⟨tally.count, scan.scanned, scan.truncated, tally.samples⟩

end Collector

/-! ## What is counted -/

/-- Neither skipped as a binding nor as the lock of a member. -/
def RawAllocatorSnapshot.orphaned (raw : RawAllocatorSnapshot) (allocator : Allocator)
    (lockKey : String) : Bool :=
  let poolKey := pythonSlice lockKey (allocator.keyStr "").toList.length
  !startsWith poolKey allocator.softBindPrefix && !(raw.entries.lookup poolKey).isSome

section Counting

variable {collector : Collector} {allocator : Allocator} {raw : RawAllocatorSnapshot}

theorem Collector.count_tallyOrphan (keys : List String) : ∀ tally : OrphanTally,
    (keys.foldl (collector.tallyOrphan allocator raw) tally).count =
      tally.count + keys.countP (raw.orphaned allocator) := by
  induction keys with
  | nil => exact fun _ => rfl
  | cons first rest ih =>
      intro tally
      have one : (collector.tallyOrphan allocator raw tally first).count =
          tally.count + (raw.orphaned allocator first).toNat := by
        rw [tallyOrphan, RawAllocatorSnapshot.orphaned]
        split
        · rename_i binding
          simp [binding]
        · rename_i noBinding
          split
          · rename_i isMember
            simp [isMember]
          · rename_i noMember
            simp [noBinding, noMember]
      rw [List.foldl_cons, ih, one, List.countP_cons]
      cases raw.orphaned allocator first <;> simp [Nat.add_assoc, Nat.add_comm]

theorem Collector.count_collectOrphans {locks : List (List String)}
    (untruncated : (collector.collectOrphans allocator raw locks).truncated = false) :
    (collector.collectOrphans allocator raw locks).count =
      (locks.flatten.filter (raw.orphaned allocator)).length := by
  have whole := boundedScan_untruncated untruncated
  rw [collectOrphans, count_tallyOrphan, whole, Nat.zero_add, List.countP_eq_length_filter]

end Counting

theorem orphaned_collected {s : Redis} {kvs : AList fun _ : String => PoolEntry}
    (reply : kvs.toFinmap = s.pool) (shared : Bool) (localTime : Int) (allocator : Allocator)
    (k : String) :
    (collectRawPool shared localTime s kvs).orphaned allocator (allocator.keyStr k) = true ↔
      startsWith k allocator.softBindPrefix = false ∧ s.hget k = none := by
  have entry : (collectRawPool shared localTime s kvs).entries.lookup k =
      (s.hget k).map fun entry => parsePoolEntry entry.value := lookup_collected reply k
  rw [RawAllocatorSnapshot.orphaned, allocator.keyStr_eq_append, pythonSlice_append, entry,
    Option.isSome_map]
  simp

/-! ## The locks of evicted keys -/

section Evicted

variable {Param : Type} {policy : DefaultPolicy Param} {allocator : Allocator}
  {history : PoolHistory} {database : Database allocator history.redis}

/-- Among the live keys the pattern matches those that begin like a lock. -/
def Database.FindsLocks (database : Database allocator history.redis) : Prop :=
  ∀ key, database.Matches (allocator.keyStr "" ++ "*") key ↔
    database.Has key ∧ ∃ k, key = allocator.keyStr k

/-- The update lock is not live, unless its key has been a member; no evicted key begins like a
binding; and SCAN does not repeat the lock of one. -/
structure Database.Scan.Unmistakable (scan : database.Scan (allocator.keyStr "" ++ "*")) :
    Prop where
  update : history.redis.locked allocator.updateLockKey = true →
    allocator.updateLockKey ∈ history.ever
  named : ∀ k ∈ history.evicted, startsWith k allocator.softBindPrefix = false
  once : ∀ k ∈ history.evicted, scan.batches.flatten.count (allocator.keyStr k) ≤ 1

/-- The locks of the evicted keys are counted, each once, and nothing else. -/
structure PoolHistory.CountedBy (history : PoolHistory) (allocator : Allocator)
    (counted : List String) : Prop where
  distinct : counted.Nodup
  exact : ∀ key, key ∈ counted ↔ ∃ k ∈ history.evicted, key = allocator.keyStr k

theorem PoolHistory.CountedBy.length {counted : List String}
    (counts : history.CountedBy allocator counted) : counted.length = history.evicted.card := by
  have image : counted.toFinset = history.evicted.image allocator.keyStr := by
    ext key
    rw [List.mem_toFinset, counts.exact, Finset.mem_image]
    exact exists_congr fun k => and_congr_right fun _ => eq_comm
  rw [← List.toFinset_card_of_nodup counts.distinct, image]
  exact Finset.card_image_of_injective _ fun _ _ => Allocator.keyStr_injective

theorem Allocator.Plain.findsLocks (plain : allocator.Plain) : database.FindsLocks := by
  intro key
  rw [Database.Matches, plain.keyStr_empty.matches_iff]
  refine and_congr_right fun _ => exists_congr fun k => ?_
  rw [allocator.keyStr_eq_append k]

theorem Allocator.startsWith_updateLockKey :
    startsWith allocator.updateLockKey allocator.softBindPrefix = false := by
  rw [Bool.eq_false_iff, ne_eq, startsWith_iff]
  rintro ⟨name, same⟩
  exact updateLockKey_ne_softBindName name same

theorem PoolHistory.mem_evicted {k : String} : k ∈ history.evicted ↔
    k ∈ history.ever ∧ history.redis.hget k = none ∧ history.redis.locked k = true :=
  Finset.mem_filter

theorem locks_of_locked {s : Redis} {k : String} (locked : s.locked k = true) :
    s.locks k ≠ none := by
  intro absent
  rw [Redis.locked, Redis.lock?, absent] at locked
  cases locked

variable {scan : database.Scan (allocator.keyStr "" ++ "*")} {raw : RawAllocatorSnapshot}
  (orphaned : ∀ k, raw.orphaned allocator (allocator.keyStr k) = true ↔
    startsWith k allocator.softBindPrefix = false ∧ history.redis.hget k = none)
include orphaned

theorem Database.FindsLocks.mem_counted (finds : database.FindsLocks)
    (scan : database.Scan (allocator.keyStr "" ++ "*")) (key : String) :
    key ∈ scan.batches.flatten.filter (raw.orphaned allocator) ↔
      ∃ k, key = allocator.keyStr k ∧ history.redis.locked k = true ∧
        startsWith k allocator.softBindPrefix = false ∧ history.redis.hget k = none := by
  rw [List.mem_filter, scan.complete, finds key]
  constructor
  · rintro ⟨⟨has, k, rfl⟩, isOrphan⟩
    exact ⟨k, rfl, database.has_keyStr.mp has, (orphaned k).mp isOrphan⟩
  · rintro ⟨k, rfl, locked, isOrphan⟩
    exact ⟨⟨database.has_keyStr.mpr locked, k, rfl⟩, (orphaned k).mpr isOrphan⟩

/-- Under the invariant of the runs the count is right key by key exactly if nothing is there
that the loop mistakes. -/
theorem Database.FindsLocks.countedBy_iff (finds : database.FindsLocks)
    (accounted : history.Accounted policy allocator) :
    history.CountedBy allocator (scan.batches.flatten.filter (raw.orphaned allocator)) ↔
      scan.Unmistakable := by
  have counted := finds.mem_counted orphaned scan
  constructor
  · intro counts
    have isCounted : ∀ k ∈ history.evicted, allocator.keyStr k ∈
        scan.batches.flatten.filter (raw.orphaned allocator) :=
      fun k evicted => (counts.exact _).mpr ⟨k, evicted, rfl⟩
    refine ⟨fun locked => ?_, fun k evicted => ?_, fun k evicted => ?_⟩
    · by_contra unknown
      have noMember : history.redis.hget allocator.updateLockKey = none := by
        by_contra stored
        exact unknown (accounted.members _ stored)
      obtain ⟨k, evicted, same⟩ := (counts.exact _).mp ((counted _).mpr
        ⟨_, rfl, locked, Allocator.startsWith_updateLockKey, noMember⟩)
      rw [Allocator.keyStr_injective same] at unknown
      exact unknown (PoolHistory.mem_evicted.mp evicted).1
    · obtain ⟨j, same, _, notBinding, _⟩ := (counted _).mp (isCounted k evicted)
      rwa [Allocator.keyStr_injective same]
    · have isOrphan := (List.mem_filter.mp (isCounted k evicted)).2
      rw [← List.count_filter isOrphan]
      exact List.nodup_iff_count_le_one.mp counts.distinct _
  · intro unmistakable
    have exact : ∀ key, key ∈ scan.batches.flatten.filter (raw.orphaned allocator) ↔
        ∃ k ∈ history.evicted, key = allocator.keyStr k := by
      intro key
      rw [counted]
      constructor
      · rintro ⟨k, rfl, locked, notBinding, noMember⟩
        refine ⟨k, PoolHistory.mem_evicted.mpr ⟨?_, noMember, locked⟩, rfl⟩
        rcases accounted.locks k (locks_of_locked locked) with known | ⟨name, rfl⟩ | ⟨_, rfl⟩
        · exact known
        · have binding : startsWith (allocator.softBindName name) allocator.softBindPrefix = true :=
            startsWith_iff.mpr ⟨name, rfl⟩
          rw [binding] at notBinding
          cases notBinding
        · exact unmistakable.update locked
      · rintro ⟨k, evicted, rfl⟩
        obtain ⟨_, noMember, locked⟩ := PoolHistory.mem_evicted.mp evicted
        exact ⟨k, rfl, locked, unmistakable.named k evicted, noMember⟩
    refine ⟨List.nodup_iff_count_le_one.mpr fun key => ?_, exact⟩
    by_cases isCounted : key ∈ scan.batches.flatten.filter (raw.orphaned allocator)
    · obtain ⟨k, evicted, rfl⟩ := (exact key).mp isCounted
      exact (List.filter_sublist.count_le _).trans (unmistakable.once k evicted)
    · rw [List.count_eq_zero_of_not_mem isCounted]
      exact Nat.zero_le 1

end Evicted

/-- In every state a run reaches, the report counts the evicted keys that still have a live lock,
if the pattern finds the locks and there is none the loop mistakes. -/
theorem collectOrphans_counts_evicted {Param : Type} {policy : DefaultPolicy Param}
    {allocator : Allocator} {now : Nat} {commands : List PolicyCommand} {final : PoolHistory}
    (run : PolicyRun policy allocator (.start now) commands final) (collector : Collector)
    (database : Database allocator final.redis) {kvs : AList fun _ : String => PoolEntry}
    (reply : kvs.toFinmap = final.redis.pool) (localTime : Int)
    (scan : database.Scan (allocator.keyStr "" ++ "*"))
    (untruncated : (collector.collectOrphans allocator
      (collectRawPool allocator.shared localTime final.redis kvs) scan.batches).truncated = false)
    (finds : database.FindsLocks) (unmistakable : scan.Unmistakable) :
    (collector.collectOrphans allocator
        (collectRawPool allocator.shared localTime final.redis kvs) scan.batches).count =
      final.evicted.card := by
  have orphaned := orphaned_collected reply allocator.shared localTime allocator
  have counts := (finds.countedBy_iff orphaned (PolicyRun.accounted run)).mpr unmistakable
  rw [Collector.count_collectOrphans untruncated, counts.length]

def refreshingPolicy : DefaultPolicy String where
  expiryDuration := 600
  updater := some ⟨["north", "south"], 0, by decide⟩
  gcCount := 3
  updateInterval := 300
  autoClose := false

def PoolHistory.after (history : PoolHistory) (commands : List PolicyCommand) : PoolHistory :=
  commands.foldl (fun history command => history.next refreshingPolicy plainAllocator 0 command)
    history

def leaseCommands : List PolicyCommand :=
  [.script (.extend ["a"] none), .script (.mallocKey (.int 120) none (.int 3600)),
    .script (.shrink ["a"])]

def leased : PoolHistory := (PoolHistory.start 1000).after leaseCommands

theorem leased_run : PolicyRun refreshingPolicy plainAllocator (.start 1000) leaseCommands leased :=
  .fire ⟨0, trivial, rfl⟩ (.fire ⟨0, trivial, rfl⟩ (.fire ⟨0, trivial, rfl⟩ (.done _)))

theorem locked_leased (k : String) : leased.redis.locked k = true ↔ k = "a" :=
  @locked_iff_of_single leased.redis "a" _ ⟨"1", some 121000⟩ rfl rfl k

/-- `a` is added, and a policy takes the update lock for its refresh. -/
def refreshCommands : List PolicyCommand := [.script (.extend ["a"] none), .lockUpdates]

def refreshing : PoolHistory := (PoolHistory.start 1000).after refreshCommands

theorem refreshing_run :
    PolicyRun refreshingPolicy plainAllocator (.start 1000) refreshCommands refreshing :=
  .fire ⟨0, trivial, rfl⟩ (.fire ⟨0, rfl, rfl⟩ (.done _))

theorem locked_refreshing (k : String) :
    refreshing.redis.locked k = true ↔ k = plainAllocator.updateLockKey :=
  @locked_iff_of_single refreshing.redis "a" _ ⟨"1", some 301000⟩ rfl rfl k

def scanSingle {history : PoolHistory} {key : String}
    (single : ∀ k, history.redis.locked k = true ↔ k = key) :
    (plainAllocator.database history.redis).Scan (plainAllocator.keyStr "" ++ "*") :=
  (plainAllocator.database history.redis).scanOf
    plainAllocator_plain.keyStr_empty.matches_iff [key] fun k => by
      rw [← plainAllocator.keyStr_eq_append, Database.has_keyStr, single, List.mem_singleton]

def orphansOf (history : PoolHistory) (kvs : AList fun _ : String => PoolEntry) {key : String}
    (single : ∀ k, history.redis.locked k = true ↔ k = key) : OrphanDiagnostics :=
  (⟨20, 1000⟩ : Collector).collectOrphans plainAllocator
    (collectRawPool false 0 history.redis kvs) (scanSingle single).batches

theorem scanSingle_unmistakable_leased : (scanSingle locked_leased).Unmistakable where
  update := fun locked => by
    have same := (locked_leased _).mp locked
    exact absurd same (by decide +kernel)
  named := fun k evicted => by
    rw [(locked_leased k).mp (PoolHistory.mem_evicted.mp evicted).2.2]
    decide +kernel
  once := fun k evicted => by
    rw [(locked_leased k).mp (PoolHistory.mem_evicted.mp evicted).2.2]
    exact List.count_le_length

theorem collectOrphans_counts_evicted_leased :
    (orphansOf leased ∅ locked_leased).count = leased.evicted.card :=
  collectOrphans_counts_evicted leased_run ⟨20, 1000⟩ (plainAllocator.database leased.redis)
    (by decide +kernel) 0 (scanSingle locked_leased) (by decide +kernel)
    plainAllocator_plain.findsLocks scanSingle_unmistakable_leased

/-- During a refresh the report counts the update lock, and nothing has been evicted. -/
theorem updateLock_counted :
    PolicyRun refreshingPolicy plainAllocator (.start 1000) refreshCommands refreshing ∧
    apiBoundReply.toFinmap = refreshing.redis.pool ∧
    (orphansOf refreshing apiBoundReply locked_refreshing).truncated = false ∧
    (orphansOf refreshing apiBoundReply locked_refreshing).count = 1 ∧
    refreshing.evicted.card = 0 :=
  ⟨refreshing_run, by decide +kernel, by decide +kernel, by decide +kernel, by decide +kernel⟩

end RedisAllocator

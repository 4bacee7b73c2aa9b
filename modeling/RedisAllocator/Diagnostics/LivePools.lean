import RedisAllocator.Codec.StoredRuns
import RedisAllocator.Diagnostics.Counters

/-!
# The report on a pool in use

The collector reads the strings that the scripts have written.  Where the names have
no bar at either end, its parser, the scripts and the walks of the report all see the
same list.
-/

set_option autoImplicit false

namespace RedisAllocator

open LabelledRun NeighbourList

def StoredRedis.collectRawPool (shared : Bool) (localTime : Int) (t : StoredRedis)
    (kvs : AList fun _ : String => String) : RawAllocatorSnapshot where
  head := t.keys.headPointer
  tail := t.keys.tailPointer
  entries := mapDict (fun _ value => parsePoolEntry value) kvs
  lockKeys := mapDict (fun key _ => t.keys.locked key) kvs
  lockTtls := mapDict (fun key _ => RedisLock.ttl 0 t.keys key) kvs
  shared := shared
  now := if t.keys.time = 0 then localTime else t.keys.time

/-- The names that both readers read back and that do not look like the marks of a walk. -/
def legibleNames : PoolNames where
  Allowed k := validateKey k = .ok () ∧ k.toList.head? ≠ some '|' ∧ k.toList.getLast? ≠ some '|' ∧
    k.toList.head? ≠ some '<'
  plain := fun allowed => ⟨.inr (.inr allowed.1), allowed.2.1⟩

section Collected

variable {now : Nat} {t : StoredRedis} {s : Redis} {L : List String}
  (holds : t.Holds legibleNames now s) (wf : WellFormed s L)
include holds

theorem StoredRedis.Holds.legible {k : String} (isMember : (s.hget k).isSome) :
    legibleNames.Allowed k := by
  obtain ⟨entry, stored⟩ := Option.isSome_iff_exists.mp isMember
  exact (holds.readable k entry stored).1

include wf

theorem StoredRedis.Holds.parse_value {k : String} {entry : PoolEntry}
    (stored : s.hget k = some entry) : parsePoolEntry entry.value = entry := by
  have accepted : ∀ k ∈ L, validateKey k = .ok () := fun k present =>
    (holds.legible (wf.member k present)).1
  have short := (holds.readable k entry stored).2.expiry
  have plain : ¬ ['|', '|'] <:+: entry.prev.toList ∧ entry.prev.toList.getLast? ≠ some '|' := by
    by_cases queued : k ∈ L
    · refine ⟨wf.unseparated_prev accepted queued stored, ?_⟩
      rw [(wf.linked k queued entry stored).1]
      refine wf.plain_predIn (fun k early => ?_) k queued
      exact (holds.legible (wf.member k (List.dropLast_subset L early))).2.2.1
    · rw [(wf.marked k queued entry stored).1]
      decide
  rw [parsePoolEntry_value plain.1 plain.2, (getD_int_tostring_eq_iff entry.expiry).mpr short]

variable {kvs : AList fun _ : String => String} (reply : kvs.toFinmap = t.pool)
include reply

theorem StoredRedis.Holds.parsed_reply {item : Sigma fun _ : String => String}
    (present : item ∈ kvs.entries) :
    s.hget item.1 = some (parsePoolEntry item.2) ∧ item.2 = (parsePoolEntry item.2).value := by
  have found : kvs.lookup item.1 = some item.2 := List.mem_dlookup kvs.nodupKeys present
  have read : t.hget item.1 = some item.2 := by
    rw [StoredRedis.hget, ← reply, Finmap.lookup_toFinmap, found]
  rw [holds.values, Option.map_eq_some_iff] at read
  obtain ⟨entry, stored, written⟩ := read
  rw [← written, holds.parse_value wf stored]
  exact ⟨stored, rfl⟩

theorem StoredRedis.Holds.parsed_pool :
    (mapDict (fun _ value => parsePoolEntry value) kvs).toFinmap = s.pool := by
  apply Finmap.ext_lookup
  intro k
  have read : kvs.lookup k = (s.hget k).map PoolEntry.value := by
    rw [← holds.values, StoredRedis.hget, ← reply, Finmap.lookup_toFinmap]
  rw [Finmap.lookup_toFinmap, lookup_mapDict, read, Option.map_map]
  cases stored : s.hget k with
  | none => exact stored.symm
  | some entry =>
      rw [Option.map_some, Function.comp_apply, holds.parse_value wf stored]
      exact stored.symm

theorem StoredRedis.Holds.collected_eq (shared : Bool) (localTime : Int) :
    t.collectRawPool shared localTime kvs =
      RedisAllocator.collectRawPool shared localTime s
        (mapDict (fun _ value => parsePoolEntry value) kvs) := by
  have entries : kvs.entries.map (fun item => (⟨item.1, parsePoolEntry item.2⟩ :
      Sigma fun _ : String => PoolEntry)) =
        kvs.entries.map fun item => ⟨item.1, parsePoolEntry (parsePoolEntry item.2).value⟩ := by
    apply List.map_congr_left
    intro item present
    rw [← (holds.parsed_reply wf reply present).2]
  have sameTime : t.keys.time = s.time := by rw [holds.keys]; rfl
  have sameLocks : t.keys.locked = s.locked := by rw [holds.keys]; rfl
  have sameTtls (k : String) : RedisLock.ttl 0 t.keys k = RedisLock.ttl 0 s k := by
    rw [holds.keys]; rfl
  simp only [StoredRedis.collectRawPool, RedisAllocator.collectRawPool, holds.head, holds.tail,
    sameTime, sameLocks, sameTtls]
  congr 1
  · apply AList.ext
    simpa [mapDict, Function.comp_def] using entries
  · apply AList.ext
    simp [mapDict, Function.comp_def]
  · apply AList.ext
    simp [mapDict, Function.comp_def]

end Collected

theorem summarizePool_free {shared : Bool} {localTime : Int} {s : Redis}
    {kvs : AList fun _ : String => PoolEntry} (reply : kvs.toFinmap = s.pool) {L : List String}
    (wf : WellFormed s L) :
    (collectRawPool shared localTime s kvs).summarizePool.free = L.length := by
  have free (entry : PoolEntry) :
      (parsePoolEntry entry.value).isFreeNode = entry.isFreeNode := by
    rw [PoolEntry.isFreeNode, parsePoolEntry_isAllocatedMarker, PoolEntry.isFreeNode]
  have waiting : (s.pool.keys.filter fun k => (s.hget k).any PoolEntry.isFreeNode) =
      L.toFinset := by
    ext k
    rw [Finset.mem_filter, List.mem_toFinset, Finmap.mem_keys, Redis.mem_pool_iff]
    constructor
    · rintro ⟨⟨entry, stored⟩, isFree⟩
      by_contra absent
      rw [stored, Option.any_some, PoolEntry.isFreeNode,
        (wf.isAllocatedMarker_iff stored).mpr absent] at isFree
      cases isFree
    · intro queued
      obtain ⟨entry, stored⟩ := Option.isSome_iff_exists.mp (wf.member k queued)
      have unmarked : entry.isAllocatedMarker = false :=
        Bool.eq_false_iff.mpr fun marked => (wf.isAllocatedMarker_iff stored).mp marked queued
      refine ⟨⟨entry, stored⟩, ?_⟩
      rw [stored, Option.any_some, PoolEntry.isFreeNode, unmarked]
      rfl
  simp only [RawAllocatorSnapshot.summarizePool, RawAllocatorSnapshot.foldl_count, Nat.zero_add]
  simp only [collectRawPool, mapDict, List.countP_map, Function.comp_def, free]
  rw [countP_kvs reply fun _ entry => entry.isFreeNode, waiting,
    List.toFinset_card_of_nodup wf.nodup]

section Reported

variable {t : StoredRedis} {s : Redis} {p : FreePool String} {kvs : AList fun _ : String => String}

theorem StoredRedis.Holds.reported (holds : t.Holds legibleNames s.now s) (sound : AllSound s p)
    (reply : kvs.toFinmap = t.pool) (shared : Bool) (localTime : Int) :
    (t.collectRawPool shared localTime kvs).checkInvariants = [] ∧
      (Stored.getFreeList t).1 = .ok p.free ∧
      (t.collectRawPool shared localTime kvs).walkForward = (p.free, none) := by
  have wf := sound.rep.wellFormed
  have legible : ∀ k ∈ p.free, legibleNames.Allowed k := fun k present =>
    holds.legible (wf.member k present)
  have collected : (t.collectRawPool shared localTime kvs).WellFormed p.free := by
    rw [holds.collected_eq wf reply]
    exact wf.collected (holds.parsed_pool wf reply) (fun k present => (legible k present).1)
      (fun k present => sound.unlocked k present trivial)
      fun k early => (legible k (List.dropLast_subset _ early)).2.2.1
  have solid : allocatedSentinel ∉ p.free := fun present =>
    (wf.named _ (wf.member _ present)).2 rfl
  refine ⟨collected.clean solid fun k present => (legible k present).2.2.2, ?_,
    collected.walkForward_eq solid⟩
  rw [(Stored.getFreeList_pairs _ _ holds).1.eq, getFreeList_represented sound.rep]

end Reported

/-- In every run from an empty pool whose names are legible, the report on the stored strings finds
no violation, its walk and its counter of free keys are the list that `get_free_list` returns, and
it reads each string as the scripts do. -/
theorem storedRun_reported (fraction : Stored.Fractions) (shared : Bool) (localTime : Int)
    {start final : Redis} {events : List Event} (noEntry : start.pool = ∅)
    (head : start.headPointer = "") (tail : start.tailPointer = "")
    (run : CallRun shared start events final) {t : StoredRedis}
    (holds : t.Holds legibleNames start.now start)
    (writable : ∀ event ∈ events, event.call.Writable legibleNames event.before)
    {kvs : AList fun _ : String => String}
    (reply : kvs.toFinmap = (replay (StoredRedis.respond fraction shared)
      (events.map Event.request) t).2.pool) :
    let last := (replay (StoredRedis.respond fraction shared) (events.map Event.request) t).2
    let snapshot := last.collectRawPool shared localTime kvs
    snapshot.checkInvariants = [] ∧ (∀ k value, kvs.lookup k = some value → ReadsAlike value) ∧
      ∃ L, (Stored.getFreeList last).1 = .ok L ∧ snapshot.walkForward = (L, none) ∧
        snapshot.summarizePool.free = L.length := by
  intro last snapshot
  have held : last.Holds legibleNames final.now final := (run.mirrored holds writable).2
  obtain ⟨p, sound⟩ : ∃ p, AllSound final p :=
    ⟨_, (CallRun.simulates run (empty_sound noEntry head tail)).2.1⟩
  have wf := sound.rep.wellFormed
  obtain ⟨clean, listed, walked⟩ := held.reported sound reply shared localTime
  refine ⟨clean, fun k value found => ?_, p.free, listed, walked, ?_⟩
  · have present : (⟨k, value⟩ : Sigma fun _ : String => String) ∈ kvs.entries :=
      List.of_mem_dlookup found
    obtain ⟨stored, written⟩ := held.parsed_reply wf reply present
    have split := (held.readable _ _ stored).2.split
    rw [← written] at split
    exact split
  · have same : snapshot = _ := held.collected_eq wf reply shared localTime
    rw [same]
    exact summarizePool_free (held.parsed_pool wf reply) wf

def sampleStrings : AList fun _ : String => String :=
  ((∅ : AList fun _ : String => String).insert "b" "||||-1").insert "a" "#ALLOCATED||#ALLOCATED||-1"

theorem sampleStrings_reply : sampleStrings.toFinmap =
    (replay (StoredRedis.respond (fun _ => "") false) ([sampleStart, sampleMalloc].map Event.request)
      (StoredRedis.empty 0)).2.pool := by decide +kernel

theorem sample_writable :
    ∀ event ∈ [sampleStart, sampleMalloc], event.call.Writable legibleNames event.before := by
  intro event inRun
  rcases List.mem_cons.mp inRun with rfl | inRun
  · have legible : ∀ k ∈ ["a", "b"], k.toList.head? ≠ some '|' ∧ k.toList.getLast? ≠ some '|' ∧
        k.toList.head? ≠ some '<' := by decide
    have short : (-1 : Int).natAbs < 10 ^ 14 := by decide
    exact ⟨fun k given accepted => ⟨accepted, legible k given⟩, short⟩
  · obtain rfl := List.mem_singleton.mp inRun
    exact trivial

theorem storedRun_reported_sample :
    let last := (replay (StoredRedis.respond (fun _ => "") false)
      ([sampleStart, sampleMalloc].map Event.request) (StoredRedis.empty 0)).2
    let snapshot := last.collectRawPool false 0 sampleStrings
    snapshot.checkInvariants = [] ∧
      (∀ k value, sampleStrings.lookup k = some value → ReadsAlike value) ∧
      ∃ L, (Stored.getFreeList last).1 = .ok L ∧ snapshot.walkForward = (L, none) ∧
        snapshot.summarizePool.free = L.length :=
  storedRun_reported (fun _ => "") false 0 rfl rfl rfl sample_run (StoredRedis.holds_empty _ 0)
    sample_writable sampleStrings_reply

end RedisAllocator

import Mathlib.Algebra.Order.Field.Rat
import RedisAllocator.Diagnostics.LivePools
import RedisAllocator.Diagnostics.Orphans
import RedisAllocator.Pool.Recovery

/-!
# The snapshot and its advice

`RedisAllocatorDiagnostics.snapshot` over what it reads, one reply after the other.
Times are fractions of seconds where Python rounds them; the quotient of two counters
below 10^15 compares with 0.1 as the fractions do.  On a pool in use the advice says
what the runs so far have left behind.
-/

set_option autoImplicit false

namespace RedisAllocator

open LabelledRun

/-! ## Command statistics -/

namespace Python

/-- `text.replace(pattern, "")`; the number counts what is left to skip of a match. -/
def removeFrom (pattern : List Char) : Nat → List Char → List Char
  | _, [] => []
  | skip + 1, _ :: text => removeFrom pattern skip text
  | 0, c :: text =>
    if pattern.isPrefixOf (c :: text) then removeFrom pattern (pattern.length - 1) text
    else c :: removeFrom pattern 0 text

end Python

/-- One value of `INFO commandstats`: parsed, with its field `calls`, or still a text. -/
inductive CommandStat
  | fields (calls : Option Int)
  | text (text : String)
  | other

abbrev CommandStats := AList fun _ : String => CommandStat

abbrev CommandCalls := AList fun _ : String => Int

namespace CommandStat

def commandName (name : String) : String :=
  String.ofList (Python.removeFrom "cmdstat_".toList 0 name.toList)

/-- `int(parts.get("calls", 0) or 0)`, where a later part wins -/
def textCalls (text : String) : Option Int :=
  let parts := (text.toList.splitOn ',').filter ('=' ∈ ·)
  let named := parts.filter fun part => part.takeWhile (· ≠ '=') = "calls".toList
  match named.getLast?.map fun part => (part.dropWhile (· ≠ '=')).drop 1 with
  | none => some 0
  | some [] => some 0
  | some value => Python.int value

/-- One turn of the loop; `none` is the `ValueError` of `int`. -/
def tallyCalls (calls : CommandCalls) (item : Sigma fun _ : String => CommandStat) :
    Option CommandCalls :=
  match item.2 with
  | .fields count => some (calls.insert (commandName item.1) (count.getD 0))
  | .text reply => (textCalls reply).map fun count => calls.insert (commandName item.1) count
  | .other => some calls

def commandCalls (stats : CommandStats) : Option CommandCalls := stats.entries.foldlM tallyCalls ∅

end CommandStat

/-! ## The report -/

inductive Severity
  | critical
  | warning
  | info
deriving DecidableEq

structure Recommendation where
  severity : Severity
  message : String
  code : String
deriving DecidableEq

inductive Health
  | corrupt
  | degraded
  | healthy
deriving DecidableEq

structure IntegrityDiagnostics where
  ok : Bool
  violations : List Violation

structure PressureDiagnostics where
  intervalSeconds : Rat
  redisOpsPerSec : Rat
  allocatorKeyspaceDelta : Int
  commandDeltas : List (String × Int)

structure AllocatorDiagnosticsSnapshot where
  timestamp : Rat
  identity : Allocator
  health : Health
  integrity : IntegrityDiagnostics
  pool : PoolDiagnostics
  bindings : BindingDiagnostics
  orphans : OrphanDiagnostics
  commandstats : CommandStats
  pressure : PressureDiagnostics
  recommendations : List Recommendation

def PressureDiagnostics.none : PressureDiagnostics := ⟨0, 0, 0, []⟩

/-- `command_deltas.get(command, 0)` -/
def PressureDiagnostics.delta (pressure : PressureDiagnostics) (command : String) : Int :=
  (pressure.commandDeltas.lookup command).getD 0

def deltas (previousCalls currentCalls : CommandCalls) : List (String × Int) :=
  (previousCalls.keys ++ currentCalls.keys).dedup.mergeSort.map fun command =>
    (command, (currentCalls.lookup command).getD 0 - (previousCalls.lookup command).getD 0)

/-- `_pressure`; `clock` is what it reads off the local clock. -/
def pressure (previous : Option AllocatorDiagnosticsSnapshot) (clock : Rat)
    (commandstats : CommandStats) (totalKeys : Nat) : Option PressureDiagnostics :=
  match previous with
  | none => some .none
  | some previous =>
    let interval := max (clock - previous.timestamp) 0
    if interval ≤ 0 then some .none
    else do
      let previousCalls ← CommandStat.commandCalls previous.commandstats
      let currentCalls ← CommandStat.commandCalls commandstats
      let positiveDeltas := (deltas previousCalls currentCalls).filter (0 < ·.2)
      some
        { intervalSeconds := interval
          redisOpsPerSec := (positiveDeltas.map Prod.snd).sum / interval
          allocatorKeyspaceDelta := totalKeys - previous.pool.total
          commandDeltas := positiveDeltas }

def recommend (applies : Prop) [Decidable applies] (severity : Severity) (message code : String) :
    List Recommendation :=
  if applies then [⟨severity, message, code⟩] else []

def recommendations (integrity : IntegrityDiagnostics) (pool : PoolDiagnostics)
    (bindings : BindingDiagnostics) (orphans : OrphanDiagnostics) (pressure : PressureDiagnostics) :
    List Recommendation :=
  recommend (integrity.ok = false) .critical
    "Stop writers and capture diagnostics JSON before any repair attempt." "integrity-corrupt" ++
  recommend (0 < orphans.count) .warning
    "Orphan locks exist; audit assign/shrink churn and evicted resources." "orphan-locks" ++
  recommend (orphans.truncated ∨ bindings.truncated) .info
    "Advisory scan was truncated; raise scan_limit for a wider sample." "scan-truncated" ++
  recommend (0 < pool.permanentLocks) .info
    "Permanent locks exist; audit timeout <= 0 usage." "permanent-locks" ++
  recommend (0 < pool.total ∧ (pool.free : Rat) / pool.total < 1 / 10) .warning
    "Free pool is below 10%; increase capacity or reduce allocation timeout." "low-free-capacity" ++
  recommend (0 < bindings.stale) .info
    "Stale soft bindings exist; consider unbinding inactive names." "stale-bindings" ++
  recommend (100 < pressure.delta "eval") .info
    "High EVAL volume observed; inspect allocation rate and dashboard interval." "high-eval-pressure"

def Health.of (integrity : IntegrityDiagnostics) (recommendations : List Recommendation) : Health :=
  if integrity.ok = false then .corrupt
  else if recommendations ≠ [] then .degraded
  else .healthy

/-- What one snapshot reads: the pool, the replies to its scans and to its `GET`s, the statistics,
and the local clock twice. -/
structure Readings where
  raw : RawAllocatorSnapshot
  get : String → Option String
  bound : List (List String)
  apiBound : List (List String)
  locks : List (List String)
  commandstats : CommandStats
  pressureClock : Rat
  clock : Rat

/-- `snapshot`; `none` is the `ValueError` that leaves it. -/
def Collector.snapshot (collector : Collector) (allocator : Allocator)
    (previous : Option AllocatorDiagnosticsSnapshot) (readings : Readings) :
    Option AllocatorDiagnosticsSnapshot := do
  let violations := readings.raw.checkInvariants
  let integrity : IntegrityDiagnostics := ⟨violations.isEmpty, violations⟩
  let pool := readings.raw.summarizePool
  let bindings := collector.collectBindings allocator readings.raw readings.get readings.bound
    readings.apiBound
  let orphans := collector.collectOrphans allocator readings.raw readings.locks
  let pressure ← pressure previous readings.pressureClock readings.commandstats pool.total
  let recommendations := recommendations integrity pool bindings orphans pressure
  some ⟨readings.clock, allocator, .of integrity recommendations, integrity, pool, bindings, orphans,
    readings.commandstats, pressure, recommendations⟩

/-! ## When nothing is recommended -/

theorem recommend_eq_nil {applies : Prop} [Decidable applies] {severity : Severity}
    {message code : String} : recommend applies severity message code = [] ↔ ¬ applies := by
  rw [recommend]
  split <;> simp_all

theorem recommendations_eq_nil {integrity : IntegrityDiagnostics} {pool : PoolDiagnostics}
    {bindings : BindingDiagnostics} {orphans : OrphanDiagnostics} {pressure : PressureDiagnostics} :
    recommendations integrity pool bindings orphans pressure = [] ↔
      integrity.ok = true ∧ orphans.count = 0 ∧
      (orphans.truncated = false ∧ bindings.truncated = false) ∧ pool.permanentLocks = 0 ∧
      pool.total ≤ 10 * pool.free ∧ bindings.stale = 0 ∧ pressure.delta "eval" ≤ 100 := by
  have scarce : (0 < pool.total ∧ (pool.free : Rat) / pool.total < 1 / 10) ↔
      ¬ pool.total ≤ 10 * pool.free := by
    rw [not_le]
    constructor
    · rintro ⟨nonempty, below⟩
      rw [div_lt_iff₀ (by exact_mod_cast nonempty)] at below
      have fraction : (10 * pool.free : Rat) < pool.total := by linarith
      exact_mod_cast fraction
    · intro few
      have nonempty : 0 < pool.total := Nat.zero_lt_of_lt few
      have fraction : (10 * pool.free : Rat) < pool.total := by exact_mod_cast few
      refine ⟨nonempty, ?_⟩
      rw [div_lt_iff₀ (by exact_mod_cast nonempty)]
      linarith
  simp only [recommendations, List.append_eq_nil_iff, recommend_eq_nil, scarce, not_or, not_lt,
    Bool.not_eq_true, Bool.not_eq_false, Nat.le_zero, not_not, and_assoc]

theorem Health.of_eq_corrupt {integrity : IntegrityDiagnostics} {advice : List Recommendation} :
    Health.of integrity advice = .corrupt ↔ integrity.ok = false := by
  rw [Health.of]
  split
  · rename_i broken
    exact iff_of_true rfl broken
  · rename_i whole
    refine iff_of_false ?_ whole
    split <;> exact nofun

theorem Health.of_eq_healthy {integrity : IntegrityDiagnostics} {advice : List Recommendation} :
    Health.of integrity advice = .healthy ↔ integrity.ok = true ∧ advice = [] := by
  rw [Health.of]
  cases integrity.ok <;> by_cases silent : advice = [] <;> simp [silent]

section Taken

variable {collector : Collector} {allocator : Allocator}
  {previous : Option AllocatorDiagnosticsSnapshot} {readings : Readings}
  {report : AllocatorDiagnosticsSnapshot}
  (taken : collector.snapshot allocator previous readings = some report)
include taken

theorem Collector.snapshot_corrupt_iff :
    report.health = .corrupt ↔ readings.raw.checkInvariants ≠ [] := by
  obtain ⟨pressure, _, made⟩ := Option.bind_eq_some_iff.mp taken
  cases Option.some.inj made
  rw [Health.of_eq_corrupt, List.isEmpty_eq_false_iff]

theorem Collector.snapshot_healthy_iff :
    report.health = .healthy ↔ readings.raw.checkInvariants = [] ∧ report.orphans.count = 0 ∧
      (report.orphans.truncated = false ∧ report.bindings.truncated = false) ∧
      readings.raw.summarizePool.permanentLocks = 0 ∧
      readings.raw.summarizePool.total ≤ 10 * readings.raw.summarizePool.free ∧
      report.bindings.stale = 0 ∧ report.pressure.delta "eval" ≤ 100 := by
  obtain ⟨pressure, _, made⟩ := Option.bind_eq_some_iff.mp taken
  cases Option.some.inj made
  rw [Health.of_eq_healthy, recommendations_eq_nil, ← and_assoc, and_self_iff, List.isEmpty_iff]

end Taken

/-! ## Permanent locks -/

/-- `malloc_key` returns `k` with a timeout of no whole second: its lock has no deadline. -/
def Event.HandsOutForGood (event : Event) (k : String) : Prop :=
  ∃ timeout name cacheTimeout, event.call = .mallocKey timeout name cacheTimeout ∧
    event.Returns false k ∧ timeout.wholeSeconds ≤ 0

def Redis.permanentlyLocked (s : Redis) (k : String) : Prop :=
  ∃ lock, s.locks k = some lock ∧ lock.expireAt = none

section Permanent

variable {s : Redis} {k : String}

theorem Redis.permanentlyLocked_iff_ttl :
    (s.locked k && RedisLock.ttl 0 s k = -1) = true ↔ s.permanentlyLocked k := by
  rw [Bool.and_eq_true, decide_eq_true_eq, RedisLock.ttl, RedisLock.get?_zero, Redis.locked,
    Redis.permanentlyLocked]
  constructor
  · rintro ⟨_, forGood⟩
    split at forGood
    · cases forGood
    · rename_i value found
      exact ⟨_, (Option.filter_eq_some_iff.mp found).1, rfl⟩
    · omega
  · rintro ⟨⟨value, _⟩, stored, rfl⟩
    have found : s.lock? k = some ⟨value, none⟩ := Option.filter_eq_some_iff.mpr ⟨stored, rfl⟩
    rw [found]
    exact ⟨rfl, rfl⟩

theorem LockHistory.permanentlyLocked_iff {past : List Event} (history : LockHistory k past s) :
    s.permanentlyLocked k ↔ Standing (·.HandsOutForGood k) (·.GivesUp k) past := by
  constructor
  · rintro ⟨lock, stored, forGood⟩
    refine (history.origin lock stored).imp fun event _ locks => ?_
    obtain ⟨timeout, name, cacheTimeout, call, returned, rfl⟩ := locks
    refine ⟨timeout, name, cacheTimeout, call, returned, not_lt.mp fun positive => ?_⟩
    rw [Redis.mallocLock, if_pos positive] at forGood
    cases forGood
  · intro standing
    have live (now : Nat) (reached : s.now ≤ now) :
        ∃ lock, s.locks k = some lock ∧ lock.live now = true := by
      refine history.held now reached (standing.imp fun event _ handsOut => ?_)
      obtain ⟨timeout, name, cacheTimeout, call, returned, forGood⟩ := handsOut
      exact ⟨timeout, name, cacheTimeout, call, returned, fun positive =>
        absurd positive (not_lt.mpr forGood)⟩
    obtain ⟨lock, stored, _⟩ := live s.now le_rfl
    refine ⟨lock, stored, ?_⟩
    -- a lock with a deadline is over by then
    cases deadline : lock.expireAt with
    | none => rfl
    | some instant =>
        obtain ⟨lock', stored', stillLive⟩ := live (s.now + instant) (Nat.le_add_right ..)
        obtain rfl : lock = lock' := Option.some.inj (stored.symm.trans stored')
        rw [StringKey.live, deadline, decide_eq_true_eq] at stillLive
        omega

end Permanent

section Counted

variable {shared : Bool} {localTime : Int} {s : Redis} {kvs : AList fun _ : String => PoolEntry}
  (reply : kvs.toFinmap = s.pool)
include reply

theorem lockTtl_collected {k : String} (isMember : (s.hget k).isSome) :
    (collectRawPool shared localTime s kvs).lockTtl k = RedisLock.ttl 0 s k := by
  obtain ⟨entry, stored⟩ := Option.isSome_iff_exists.mp isMember
  have found : (collectRawPool shared localTime s kvs).lockTtls.lookup k =
      some (RedisLock.ttl 0 s k) := by
    rw [collectRawPool, lookup_mapDict, lookup_kvs reply, stored, Option.map_some]
  rw [RawAllocatorSnapshot.lockTtl, found, Option.getD_some]

theorem summarizePool_permanentLocks :
    (collectRawPool shared localTime s kvs).summarizePool.permanentLocks = 0 ↔
      ∀ k, (s.hget k).isSome → ¬ s.permanentlyLocked k := by
  simp only [RawAllocatorSnapshot.summarizePool, RawAllocatorSnapshot.foldl_count, Nat.zero_add,
    List.countP_eq_zero]
  have entries : (collectRawPool shared localTime s kvs).entries.entries.map Sigma.fst =
      kvs.entries.map Sigma.fst := by
    simp [collectRawPool, mapDict, Function.comp_def]
  have member (k : String) : k ∈ kvs.entries.map Sigma.fst ↔ (s.hget k).isSome := by
    rw [← lookup_kvs reply, AList.lookup_isSome]
    exact Iff.rfl
  constructor
  · intro none k isMember permanent
    obtain ⟨item, present, rfl⟩ := List.mem_map.mp (entries ▸ (member k).mpr isMember)
    apply none item present
    rw [lockKey_collected reply isMember, lockTtl_collected reply isMember]
    exact Redis.permanentlyLocked_iff_ttl.mpr permanent
  · intro none item present counted
    have isMember : (s.hget item.1).isSome :=
      (member item.1).mp (entries ▸ List.mem_map_of_mem present)
    rw [lockKey_collected reply isMember, lockTtl_collected reply isMember] at counted
    exact none item.1 isMember (Redis.permanentlyLocked_iff_ttl.mp counted)

theorem summarizePool_members :
    (collectRawPool shared localTime s kvs).summarizePool.total = s.pool.keys.card := by
  have all := countP_kvs reply fun _ _ => true
  have entire : (s.pool.keys.filter fun k => (s.hget k).any fun _ => true) = s.pool.keys := by
    apply Finset.filter_true_of_mem
    intro k inPool
    rw [Finmap.mem_keys, Redis.mem_pool_iff] at inPool
    obtain ⟨entry, stored⟩ := inPool
    rw [stored]
    rfl
  rw [entire, List.countP_true] at all
  simp [RawAllocatorSnapshot.summarizePool, collectRawPool, mapDict, all]

end Counted

/-! ## The advice on a pool in use -/

def sampleStored : StoredRedis :=
  (replay (StoredRedis.respond (fun _ => "") false) ([sampleStart, sampleMalloc].map Event.request)
    (StoredRedis.empty 0)).2

def sampleReadings : Readings where
  raw := sampleStored.collectRawPool false 0 sampleStrings
  get := fun _ => none
  bound := [[]]
  apiBound := [[]]
  locks := [["pool|allocator:a"]]
  commandstats := ∅
  pressureClock := 2
  clock := 2

def sampleReport : AllocatorDiagnosticsSnapshot :=
  (Collector.snapshot ⟨20, 1000⟩ plainAllocator none sampleReadings).get rfl

end RedisAllocator

import Mathlib.Data.Set.Card
import RedisAllocator.Diagnostics.Completeness
import RedisAllocator.Diagnostics.Scanning
import RedisAllocator.Pool.Allocation

/-!
# The report on soft bindings

`_collect_bindings` goes through the keys of two shapes, the one the scripts bind
names under and the one `update_soft_bind` writes, and calls stale what leads to no
member, or to a locked one unless the mode is shared.  `malloc_key` reads the first
shape only, and minds the lock in either mode.
-/

set_option autoImplicit false

namespace RedisAllocator

structure BindingDiagnostics where
  total : Nat
  stale : Nat
  scanned : Nat
  truncated : Bool
  samples : List (String × Option String)

/-- The local variables of `_collect_bindings`. -/
structure BindingTally where
  seen : List String
  total : Nat
  stale : Nat
  samples : List (String × Option String)

namespace RawAllocatorSnapshot

variable (raw : RawAllocatorSnapshot)

/-- `is_stale`, for what `GET` answers -/
def isStale : Option String → Bool
  | none => true
  | some key => !(raw.entries.lookup key).isSome || (!raw.shared && raw.lockKey key)

/-- One turn of the inner loop; `front` is the prefix it scans for. -/
def tallyBinding (get : String → Option String) (sampleLimit : Nat) (front : String)
    (tally : BindingTally) (bindingKey : String) : BindingTally :=
  if bindingKey ∈ tally.seen then tally
  else
    let name := pythonSlice bindingKey front.toList.length
    let value := get bindingKey
    { seen := bindingKey :: tally.seen
      total := tally.total + 1
      stale := tally.stale + (raw.isStale value).toNat
      samples :=
        if raw.isStale value ∧ tally.samples.length < sampleLimit then
          tally.samples ++ [(name, value)]
        else tally.samples }

end RawAllocatorSnapshot

structure Collector where
  sampleLimit : Nat
  scanLimit : Nat

namespace Collector

variable (collector : Collector) (allocator : Allocator) (raw : RawAllocatorSnapshot)
  (get : String → Option String) (bound apiBound : List (List String))

def tallyBindings : BindingTally :=
  let bindingKeys := (boundedScan collector.scanLimit bound).keys
  let apiKeys := (boundedScan collector.scanLimit apiBound).keys
  let turn := raw.tallyBinding get collector.sampleLimit
  apiKeys.foldl (turn allocator.softBindLockPrefix)
    (bindingKeys.foldl (turn allocator.softBindPrefix) ⟨[], 0, 0, []⟩)

/-- `_collect_bindings`, with the replies to its two scans. -/
def collectBindings : BindingDiagnostics :=
  let scan := boundedScan collector.scanLimit bound
  let apiScan := boundedScan collector.scanLimit apiBound
  let tally := collector.tallyBindings allocator raw get bound apiBound
  ⟨tally.total, tally.stale, scan.scanned + apiScan.scanned, scan.truncated || apiScan.truncated,
    tally.samples⟩

end Collector

/-! ## What is counted -/

structure BindingTally.Counts (tally : BindingTally) (stale : String → Bool) : Prop where
  distinct : tally.seen.Nodup
  total : tally.total = tally.seen.length
  stale : tally.stale = tally.seen.countP stale

namespace RawAllocatorSnapshot

variable {raw : RawAllocatorSnapshot} {get : String → Option String}

theorem foldl_tallyBinding (sampleLimit : Nat) (front : String) (keys : List String) :
    ∀ {tally : BindingTally}, tally.Counts (fun key => raw.isStale (get key)) →
      (keys.foldl (raw.tallyBinding get sampleLimit front) tally).Counts
          (fun key => raw.isStale (get key)) ∧
        ∀ key, key ∈ (keys.foldl (raw.tallyBinding get sampleLimit front) tally).seen ↔
          key ∈ tally.seen ∨ key ∈ keys := by
  induction keys with
  | nil => exact fun counts => ⟨counts, fun key => by simp⟩
  | cons first rest ih =>
      intro tally counts
      have one : (raw.tallyBinding get sampleLimit front tally first).Counts
            (fun key => raw.isStale (get key)) ∧
          ∀ key, key ∈ (raw.tallyBinding get sampleLimit front tally first).seen ↔
            key ∈ tally.seen ∨ key = first := by
        rw [tallyBinding]
        split
        · rename_i again
          refine ⟨counts, fun key => ⟨Or.inl, ?_⟩⟩
          rintro (seen | rfl)
          · exact seen
          · exact again
        · rename_i new
          refine ⟨⟨List.nodup_cons.mpr ⟨new, counts.distinct⟩, ?_, ?_⟩, fun key => ?_⟩
          · rw [List.length_cons, counts.total]
          · dsimp only
            rw [List.countP_cons, counts.stale]
            cases raw.isStale (get first) <;> rfl
          · rw [List.mem_cons, or_comm]
      obtain ⟨later, seen⟩ := ih one.1
      refine ⟨later, fun key => ?_⟩
      rw [List.foldl_cons, seen, one.2, List.mem_cons, or_assoc]

end RawAllocatorSnapshot

/-! ## The two shapes of keys -/

/-- The name is bound under this key, by the scripts or by `update_soft_bind`. -/
def Allocator.BindsName (allocator : Allocator) (key name : String) : Prop :=
  key = allocator.softBindName name ∨ key = allocator.keyStr (allocator.softBindName name)

namespace Allocator

variable {allocator : Allocator} {key name other : String}

theorem BindsName.name_unique (binds : allocator.BindsName key name)
    (others : allocator.BindsName key other) : name = other := by
  rcases binds with rfl | rfl <;> rcases others with same | same
  · exact softBindName_injective same
  · exact absurd same (softBindName_ne_keyStr _ _)
  · exact absurd same.symm (softBindName_ne_keyStr _ _)
  · exact softBindName_injective (keyStr_injective same)

theorem Plain.patterns {s : Redis} (plain : allocator.Plain) (database : Database allocator s)
    (key : String) : database.Matches (allocator.softBindPrefix ++ "*") key ∨
      database.Matches (allocator.softBindLockPrefix ++ "*") key ↔
        database.Has key ∧ ∃ name, allocator.BindsName key name := by
  have own := plain.softBindPrefix.matches_iff key
  have api := (plain.keyStr plain.softBindPrefix).matches_iff key
  simp only [Database.Matches, ← and_or_left]
  refine and_congr_right fun _ => ?_
  rw [own, softBindLockPrefix, api, ← exists_or]
  refine exists_congr fun name => ?_
  have apiShape : allocator.keyStr (allocator.softBindName name) =
      allocator.keyStr allocator.softBindPrefix ++ name := (String.append_assoc ..).symm
  rw [BindsName, apiShape]
  rfl

end Allocator

/-! ## What `malloc_key` makes of a binding -/

/-- `malloc_key(name)` goes by the binding under this key and returns the one it leads to. -/
def Redis.Honours (s : Redis) (allocator : Allocator) (key name value : String) : Prop :=
  key = allocator.softBindName name ∧ s.boundKey name = some value

theorem mallocBound_boundKey {s : Redis} {p : FreePool String} (rep : Represents s p)
    {shared : Bool} {timeout : Int} (long : shared = true ∨ 0 < timeout) (name : String)
    (cacheTimeout : Int) :
    (mallocBound shared timeout name cacheTimeout s).1 = .ok (s.boundKey name) := by
  cases bound : s.boundKey name with
  | none => rw [mallocBound_unusable shared timeout cacheTimeout bound]
  | some k =>
      obtain ⟨named, ⟨binding, live, rfl⟩, isMember, unlocked⟩ := Redis.boundKey_eq_some.mp bound
      rw [rep.hget_isSome] at isMember
      cases shared with
      | true =>
          obtain ⟨s', run, _⟩ :=
            mallocBound_shared timeout cacheTimeout rep named live isMember unlocked
          rw [run]
      | false =>
          obtain ⟨s', run, _⟩ := mallocBound_locks timeout cacheTimeout rep named live isMember
            unlocked (long.resolve_left Bool.false_ne_true)
          rw [run]

section Agreement

variable {allocator : Allocator} {s : Redis}

/-- The name has a live binding, by the scripts or by the API. -/
def Database.Bound (database : Database allocator s) (name : String) : Prop :=
  ∃ key, database.Has key ∧ allocator.BindsName key name

/-- Every live binding is counted and nothing else is, no name twice, and as stale exactly what
`malloc_key` would not go by. -/
structure BindingTally.Agrees (tally : BindingTally) (raw : RawAllocatorSnapshot)
    (database : Database allocator s) : Prop where
  counted : ∀ key, key ∈ tally.seen ↔ database.Has key ∧ ∃ name, allocator.BindsName key name
  once : ∀ name key key', key ∈ tally.seen → key' ∈ tally.seen → allocator.BindsName key name →
    allocator.BindsName key' name → key = key'
  verdict : ∀ key name value, key ∈ tally.seen → allocator.BindsName key name →
    database.get key = some value →
      (raw.isStale (some value) = true ↔ ¬ s.Honours allocator key name value)

/-- The report counts each bound name once, and as stale the names that `malloc_key` finds no key
for; its tally comes to that binding by binding. -/
structure BindingDiagnostics.Agrees (report : BindingDiagnostics) (tally : BindingTally)
    (raw : RawAllocatorSnapshot) (database : Database allocator s) : Prop where
  total : (report.total : ℕ∞) = {name | database.Bound name}.encard
  stale : (report.stale : ℕ∞) = {name | database.Bound name ∧ s.boundKey name = none}.encard
  bindings : tally.Agrees raw database

/-- The patterns match the live bindings and no other key; no name is bound twice over; what the
API has bound leads to no member, or in exclusive mode to a locked one; and what the scripts have
bound, if it leads to a member, leads to an unlocked one or in exclusive mode to a locked one. -/
structure Database.Unambiguous (database : Database allocator s) : Prop where
  patterns : ∀ key, database.Matches (allocator.softBindPrefix ++ "*") key ∨
    database.Matches (allocator.softBindLockPrefix ++ "*") key ↔
      database.Has key ∧ ∃ name, allocator.BindsName key name
  single : ∀ name, ¬ ((s.bind? name).isSome ∧ s.locked (allocator.softBindName name) = true)
  unusedApi : ∀ name binding, s.lock? (allocator.softBindName name) = some binding →
    (s.hget binding.value).isSome → allocator.shared = false ∧ s.locked binding.value = true
  usable : ∀ name binding, s.bind? name = some binding → (s.hget binding.value).isSome →
    (name ≠ "" ∧ s.locked binding.value = false) ∨
      (allocator.shared = false ∧ s.locked binding.value = true)

/-! ### The comparison -/

theorem Collector.counts_tallyBindings (collector : Collector) (allocator : Allocator)
    (raw : RawAllocatorSnapshot) (get : String → Option String)
    (bound apiBound : List (List String)) :
    (collector.tallyBindings allocator raw get bound apiBound).Counts
        (fun key => raw.isStale (get key)) ∧
      ∀ key, key ∈ (collector.tallyBindings allocator raw get bound apiBound).seen ↔
        key ∈ (boundedScan collector.scanLimit bound).keys ∨
          key ∈ (boundedScan collector.scanLimit apiBound).keys := by
  have start : (⟨[], 0, 0, []⟩ : BindingTally).Counts fun key => raw.isStale (get key) :=
    ⟨List.nodup_nil, rfl, rfl⟩
  obtain ⟨counts, seen⟩ := RawAllocatorSnapshot.foldl_tallyBinding collector.sampleLimit
    allocator.softBindPrefix (boundedScan collector.scanLimit bound).keys start
  obtain ⟨apiCounts, apiSeen⟩ := RawAllocatorSnapshot.foldl_tallyBinding collector.sampleLimit
    allocator.softBindLockPrefix (boundedScan collector.scanLimit apiBound).keys counts
  refine ⟨apiCounts, fun key => ?_⟩
  rw [tallyBindings, apiSeen, seen]
  simp only [List.not_mem_nil, false_or]

theorem Collector.mem_tallyBindings (collector : Collector) (raw : RawAllocatorSnapshot)
    {database : Database allocator s}
    (bound : database.Scan (allocator.softBindPrefix ++ "*"))
    (apiBound : database.Scan (allocator.softBindLockPrefix ++ "*"))
    (untruncated : (collector.collectBindings allocator raw database.get bound.batches
      apiBound.batches).truncated = false) (key : String) :
    key ∈ (collector.tallyBindings allocator raw database.get bound.batches
        apiBound.batches).seen ↔
      database.Matches (allocator.softBindPrefix ++ "*") key ∨
        database.Matches (allocator.softBindLockPrefix ++ "*") key := by
  obtain ⟨whole, apiWhole⟩ := Bool.or_eq_false_iff.mp untruncated
  rw [(collector.counts_tallyBindings allocator raw database.get bound.batches
    apiBound.batches).2, boundedScan_untruncated whole, boundedScan_untruncated apiWhole,
    bound.complete, apiBound.complete]

theorem isStale_collected {kvs : AList fun _ : String => PoolEntry}
    (reply : kvs.toFinmap = s.pool) (shared : Bool) (localTime : Int) (key : String) :
    (collectRawPool shared localTime s kvs).isStale (some key) = true ↔
      ((s.hget key).isSome → shared = false ∧ s.locked key = true) := by
  have entry : (collectRawPool shared localTime s kvs).entries.lookup key =
      (s.hget key).map fun entry => parsePoolEntry entry.value := lookup_collected reply key
  rw [RawAllocatorSnapshot.isStale, entry, Option.isSome_map]
  cases isMember : (s.hget key).isSome with
  | false => simp
  | true =>
      rw [lockKey_collected reply isMember]
      have sameMode : (collectRawPool shared localTime s kvs).shared = shared := rfl
      rw [sameMode]
      cases shared <;> simp

theorem honours_iff {name : String} {binding : StringKey} (bound : s.bind? name = some binding) :
    s.Honours allocator (allocator.softBindName name) name binding.value ↔
      name ≠ "" ∧ (s.hget binding.value).isSome ∧ s.locked binding.value = false := by
  rw [Redis.Honours, and_iff_right rfl, Redis.boundKey_eq_some]
  refine and_congr_right fun _ => and_iff_right ⟨binding, bound, rfl⟩

variable {tally : BindingTally} {raw : RawAllocatorSnapshot} {database : Database allocator s}

section Directions

variable (stale : ∀ key, raw.isStale (some key) = true ↔
  ((s.hget key).isSome → allocator.shared = false ∧ s.locked key = true))
include stale

theorem BindingTally.Agrees.unambiguous (agrees : tally.Agrees raw database)
    (seen : ∀ key, key ∈ tally.seen ↔ database.Matches (allocator.softBindPrefix ++ "*") key ∨
      database.Matches (allocator.softBindLockPrefix ++ "*") key) : database.Unambiguous := by
  have counted {key name value : String} (binds : allocator.BindsName key name)
      (found : database.get key = some value) : key ∈ tally.seen :=
    (agrees.counted key).mpr ⟨by rw [Database.Has, found, Option.isSome_some], name, binds⟩
  refine ⟨fun key => (seen key).symm.trans (agrees.counted key), ?_, ?_, ?_⟩
  · rintro name ⟨own, api⟩
    obtain ⟨_, ownFound⟩ := Option.isSome_iff_exists.mp (database.has_softBindName.mpr own)
    obtain ⟨_, apiFound⟩ := Option.isSome_iff_exists.mp (database.has_keyStr.mpr api)
    exact Allocator.softBindName_ne_keyStr _ _ (agrees.once name _ _
      (counted (Or.inl rfl) ownFound) (counted (Or.inr rfl) apiFound) (Or.inl rfl) (Or.inr rfl))
  · intro name binding live
    have found : database.get (allocator.keyStr (allocator.softBindName name)) =
        some binding.value := by
      rw [database.get_keyStr, live, Option.map_some]
    rw [← stale, agrees.verdict _ name _ (counted (Or.inr rfl) found) (Or.inr rfl) found]
    exact fun honours => Allocator.softBindName_ne_keyStr _ _ honours.1.symm
  · intro name binding live isMember
    have found : database.get (allocator.softBindName name) = some binding.value := by
      rw [database.get_softBindName, live, Option.map_some]
    have verdict := agrees.verdict _ name _ (counted (Or.inl rfl) found) (Or.inl rfl) found
    rw [stale, forall_prop_of_true isMember, honours_iff live] at verdict
    by_cases skipped : allocator.shared = false ∧ s.locked binding.value = true
    · exact Or.inr skipped
    · obtain ⟨named, _, unlocked⟩ := not_not.mp fun never => skipped (verdict.mpr never)
      exact Or.inl ⟨named, unlocked⟩

theorem Database.Unambiguous.agrees (unambiguous : database.Unambiguous)
    (seen : ∀ key, key ∈ tally.seen ↔ database.Matches (allocator.softBindPrefix ++ "*") key ∨
      database.Matches (allocator.softBindLockPrefix ++ "*") key) : tally.Agrees raw database := by
  have counted : ∀ key, key ∈ tally.seen ↔
      database.Has key ∧ ∃ name, allocator.BindsName key name :=
    fun key => (seen key).trans (unambiguous.patterns key)
  have apart : ∀ name, allocator.softBindName name ∈ tally.seen →
      allocator.keyStr (allocator.softBindName name) ∉ tally.seen := by
    intro name own api
    exact unambiguous.single name ⟨database.has_softBindName.mp ((counted _).mp own).1,
      database.has_keyStr.mp ((counted _).mp api).1⟩
  refine ⟨counted, ?_, ?_⟩
  · intro name key key' keySeen keySeen' binds binds'
    rcases binds with rfl | rfl <;> rcases binds' with rfl | rfl
    · rfl
    · exact absurd keySeen' (apart name keySeen)
    · exact absurd keySeen (apart name keySeen')
    · rfl
  · intro key name value _ binds found
    rw [stale]
    rcases binds with rfl | rfl
    · rw [database.get_softBindName, Option.map_eq_some_iff] at found
      obtain ⟨binding, live, rfl⟩ := found
      have usable := unambiguous.usable name binding live
      rw [honours_iff live]
      constructor
      · rintro locked ⟨_, isMember, unlocked⟩
        cases unlocked.symm.trans (locked isMember).2
      · intro unusable isMember
        rcases usable isMember with ⟨named, unlocked⟩ | locked
        · exact absurd ⟨named, isMember, unlocked⟩ unusable
        · exact locked
    · rw [database.get_keyStr, Option.map_eq_some_iff] at found
      obtain ⟨binding, live, rfl⟩ := found
      refine iff_of_true (unambiguous.unusedApi name binding live) fun honours => ?_
      exact Allocator.softBindName_ne_keyStr _ _ honours.1.symm

end Directions

theorem BindingTally.Agrees.countP_seen (agrees : tally.Agrees raw database)
    (distinct : tally.seen.Nodup) (p : String → Bool) (q : String → Prop)
    (same : ∀ key name, key ∈ tally.seen → allocator.BindsName key name → (p key = true ↔ q name)) :
    (tally.seen.countP p : ℕ∞) = {name | database.Bound name ∧ q name}.encard := by
  choose! nameOf binds using fun key seen => ((agrees.counted key).mp seen).2
  have injective : Set.InjOn nameOf ((tally.seen.filter p).toFinset : Set String) := by
    intro key isKey key' isKey' sameName
    have seen := (List.mem_filter.mp (List.mem_toFinset.mp isKey)).1
    have seen' := (List.mem_filter.mp (List.mem_toFinset.mp isKey')).1
    exact agrees.once _ key key' seen seen' (binds key seen) (sameName ▸ binds key' seen')
  have names : nameOf '' ((tally.seen.filter p).toFinset : Set String) =
      {name | database.Bound name ∧ q name} := by
    ext name
    constructor
    · rintro ⟨key, isKey, rfl⟩
      obtain ⟨seen, holds⟩ := List.mem_filter.mp (List.mem_toFinset.mp isKey)
      exact ⟨⟨key, ((agrees.counted key).mp seen).1, binds key seen⟩,
        (same key _ seen (binds key seen)).mp holds⟩
    · rintro ⟨⟨key, has, bindsName⟩, holds⟩
      have seen := (agrees.counted key).mpr ⟨has, name, bindsName⟩
      refine ⟨key, List.mem_toFinset.mpr (List.mem_filter.mpr ⟨seen, ?_⟩),
        (binds key seen).name_unique bindsName⟩
      exact (same key name seen bindsName).mpr holds
  rw [← names, injective.encard_image, Set.encard_coe_eq_coe_finsetCard,
    List.toFinset_card_of_nodup (distinct.filter p), List.countP_eq_length_filter]

theorem BindingTally.Agrees.numbers (agrees : tally.Agrees raw database)
    (counts : tally.Counts fun key => raw.isStale (database.get key)) :
    (tally.total : ℕ∞) = {name | database.Bound name}.encard ∧
      (tally.stale : ℕ∞) = {name | database.Bound name ∧ s.boundKey name = none}.encard := by
  constructor
  · have all := agrees.countP_seen counts.distinct (fun _ => true) (fun _ => True)
      fun _ _ _ _ => iff_of_true rfl trivial
    rw [List.countP_true] at all
    simpa only [counts.total, and_true] using all
  · rw [counts.stale]
    refine agrees.countP_seen counts.distinct _ _ fun key name seen binds => ?_
    obtain ⟨value, found⟩ := Option.isSome_iff_exists.mp ((agrees.counted key).mp seen).1
    rw [found, agrees.verdict key name value seen binds found, Redis.Honours,
      Option.eq_none_iff_forall_ne_some]
    constructor
    · intro unused k usable
      obtain ⟨_, ⟨binding, live, rfl⟩, _⟩ := Redis.boundKey_eq_some.mp usable
      have own : allocator.softBindName name ∈ tally.seen := (agrees.counted _).mpr
        ⟨database.has_softBindName.mpr (by rw [live, Option.isSome_some]), name, Or.inl rfl⟩
      obtain rfl := agrees.once name _ _ seen own binds (Or.inl rfl)
      rw [database.get_softBindName, live, Option.map_some, Option.some.injEq] at found
      exact unused ⟨rfl, found ▸ usable⟩
    · exact fun unbound honours => unbound value honours.2

end Agreement

/-- The report agrees with `malloc_key` exactly if the bindings leave no room for another answer;
`boundKey` is what the malloc script goes by, and names without special characters have the patterns
match. -/
theorem collectBindings_agrees_iff {allocator : Allocator} {s : Redis} (collector : Collector)
    (database : Database allocator s) {kvs : AList fun _ : String => PoolEntry}
    (reply : kvs.toFinmap = s.pool) (localTime : Int)
    (bound : database.Scan (allocator.softBindPrefix ++ "*"))
    (apiBound : database.Scan (allocator.softBindLockPrefix ++ "*"))
    (untruncated : (collector.collectBindings allocator
      (collectRawPool allocator.shared localTime s kvs) database.get bound.batches
      apiBound.batches).truncated = false) :
    ((collector.collectBindings allocator (collectRawPool allocator.shared localTime s kvs)
        database.get bound.batches apiBound.batches).Agrees
      (collector.tallyBindings allocator (collectRawPool allocator.shared localTime s kvs)
        database.get bound.batches apiBound.batches)
      (collectRawPool allocator.shared localTime s kvs) database ↔ database.Unambiguous) ∧
    (∀ L, WellFormed s L → ∀ name (timeout cacheTimeout : Int),
      (allocator.shared = true ∨ 0 < timeout) →
        (mallocBound allocator.shared timeout name cacheTimeout s).1 = .ok (s.boundKey name)) ∧
    (allocator.Plain → ∀ key, database.Matches (allocator.softBindPrefix ++ "*") key ∨
      database.Matches (allocator.softBindLockPrefix ++ "*") key ↔
        database.Has key ∧ ∃ name, allocator.BindsName key name) := by
  have seen := collector.mem_tallyBindings (collectRawPool allocator.shared localTime s kvs)
    bound apiBound untruncated
  have stale := isStale_collected reply allocator.shared localTime
  refine ⟨⟨fun agrees => agrees.bindings.unambiguous stale seen, fun unambiguous => ?_⟩,
    fun L wellFormed name timeout cacheTimeout long =>
      mallocBound_boundKey wellFormed.represents long name cacheTimeout,
    fun plain => plain.patterns database⟩
  have agrees := unambiguous.agrees stale seen
  obtain ⟨total, ignored⟩ := agrees.numbers (collector.counts_tallyBindings allocator
    (collectRawPool allocator.shared localTime s kvs) database.get bound.batches
    apiBound.batches).1
  exact ⟨total, ignored, agrees⟩

def plainAllocator : Allocator := ⟨"pool", "allocator", false⟩

theorem plainAllocator_plain : plainAllocator.Plain :=
  (by decide +kernel : OrdinaryText plainAllocator.base)

/-- `a` is free, and `update_soft_bind` has bound `job` to it for an hour. -/
def apiBound : Redis :=
  (updateSoftBind plainAllocator "job" "a" (.int 3600) (extend ["a"] none (Redis.empty 1000)).2).2

def apiBoundReply : AList fun _ : String => PoolEntry := AList.singleton "a" ⟨"", "", -1⟩

theorem pool_apiBound : apiBoundReply.toFinmap = apiBound.pool := by decide

theorem locked_iff_of_single {s : Redis} {a k : String} {lock : StringKey}
    (locks : s.locks = Function.update (Function.update (fun _ => none) a none) k (some lock))
    (live : lock.live s.now = true) (j : String) : s.locked j = true ↔ j = k := by
  have inserted : Function.update (fun _ : String => (none : Option StringKey)) a none =
      fun _ => none := Function.update_eq_self a _
  rw [Redis.locked, Redis.lock?, locks, inserted]
  by_cases same : j = k
  · rw [same, Function.update_self, Option.filter_some_pos live]
    simp
  · rw [Function.update_of_ne same]
    simp [same]

theorem locked_apiBound (k : String) :
    apiBound.locked k = true ↔ k = plainAllocator.softBindName "job" :=
  @locked_iff_of_single apiBound "a" _ ⟨"a", some 3601000⟩ rfl rfl k

abbrev apiBoundDatabase : Database plainAllocator apiBound := plainAllocator.database apiBound

def scanBound : apiBoundDatabase.Scan (plainAllocator.softBindPrefix ++ "*") :=
  apiBoundDatabase.scanOf plainAllocator_plain.softBindPrefix.matches_iff [] fun name =>
    iff_of_false List.not_mem_nil fun has => by
      have live : (apiBound.bind? name).isSome := apiBoundDatabase.has_softBindName.mp has
      cases live

def scanApiBound : apiBoundDatabase.Scan (plainAllocator.softBindLockPrefix ++ "*") :=
  apiBoundDatabase.scanOf
    (plainAllocator_plain.keyStr plainAllocator_plain.softBindPrefix).matches_iff
    ["job"] fun name => by
      have shape : plainAllocator.softBindLockPrefix ++ name =
          plainAllocator.keyStr (plainAllocator.softBindName name) := String.append_assoc ..
      rw [shape, apiBoundDatabase.has_keyStr, locked_apiBound, List.mem_singleton]
      exact ⟨congrArg plainAllocator.softBindName, Allocator.softBindName_injective⟩

abbrev apiBoundRaw : RawAllocatorSnapshot := collectRawPool false 0 apiBound apiBoundReply

def apiBoundReport : BindingDiagnostics :=
  (⟨20, 1000⟩ : Collector).collectBindings plainAllocator apiBoundRaw
    apiBoundDatabase.get scanBound.batches scanApiBound.batches

def apiBoundTally : BindingTally :=
  (⟨20, 1000⟩ : Collector).tallyBindings plainAllocator apiBoundRaw
    apiBoundDatabase.get scanBound.batches scanApiBound.batches

theorem collectBindings_agrees_iff_apiBound :
    apiBoundReport.Agrees apiBoundTally apiBoundRaw apiBoundDatabase ↔
      apiBoundDatabase.Unambiguous :=
  (collectBindings_agrees_iff ⟨20, 1000⟩ apiBoundDatabase pool_apiBound 0 scanBound scanApiBound
    rfl).1

/-- The one binding is reported as fresh, and `malloc_key` will take no notice of it. -/
theorem apiBinding_reported_fresh :
    apiBoundReport.total = 1 ∧ apiBoundReport.stale = 0 ∧ apiBoundReport.truncated = false ∧
    apiBound.boundKey "job" = none ∧
    ¬ apiBoundReport.Agrees apiBoundTally apiBoundRaw apiBoundDatabase := by
  refine ⟨rfl, rfl, rfl, rfl, fun agrees => ?_⟩
  have isBound : apiBoundDatabase.Bound "job" := by
    refine ⟨plainAllocator.keyStr (plainAllocator.softBindName "job"), ?_, Or.inr rfl⟩
    rw [apiBoundDatabase.has_keyStr, locked_apiBound]
  have none : {name | apiBoundDatabase.Bound name ∧ apiBound.boundKey name = none}.encard = 0 :=
    agrees.stale.symm
  rw [Set.encard_eq_zero] at none
  exact none.subset (show "job" ∈ _ from ⟨isBound, rfl⟩)

end RedisAllocator

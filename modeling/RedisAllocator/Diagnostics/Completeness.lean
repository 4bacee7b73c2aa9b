import RedisAllocator.Diagnostics.Decoding
import RedisAllocator.Diagnostics.Soundness

/-!
# The report of a well-formed pool

The collector decodes the stored strings with its own parser, which cuts at the
first separator where the scripts cut at the last ones.  Where the two readings
differ, the report names violations that the pool does not have.
-/

set_option autoImplicit false

namespace RedisAllocator

open NeighbourList

/-! ## The collected snapshot -/

theorem lookup_mapDict {β γ : Type} (value : String → β → γ) (dict : AList fun _ : String => β)
    (k : String) : (mapDict value dict).lookup k = (dict.lookup k).map (value k) :=
  List.dlookup_map₂ k

section Collected

variable {shared : Bool} {localTime : Int} {s : Redis} {kvs : AList fun _ : String => PoolEntry}
  (reply : kvs.toFinmap = s.pool)
include reply

theorem lookup_kvs (k : String) : kvs.lookup k = s.hget k := by
  rw [Redis.hget, ← reply, Finmap.lookup_toFinmap]

theorem lookup_collected (k : String) : (collectRawPool shared localTime s kvs).entries.lookup k =
    (s.hget k).map fun entry => parsePoolEntry entry.value := by
  rw [collectRawPool, lookup_mapDict, lookup_kvs reply]

theorem lockKey_collected {k : String} (isMember : (s.hget k).isSome) :
    (collectRawPool shared localTime s kvs).lockKey k = s.locked k := by
  obtain ⟨entry, stored⟩ := Option.isSome_iff_exists.mp isMember
  have found : (collectRawPool shared localTime s kvs).lockKeys.lookup k = some (s.locked k) := by
    rw [collectRawPool, lookup_mapDict, lookup_kvs reply, stored, Option.map_some]
  rw [RawAllocatorSnapshot.lockKey, found, Option.getD_some]

variable {L : List String} (wf : WellFormed s L) (accepted : ∀ k ∈ L, validateKey k = .ok ())
include wf accepted

omit reply in
theorem WellFormed.unseparated_prev {k : String} (present : k ∈ L) {entry : PoolEntry}
    (stored : s.hget k = some entry) : ¬ ['|', '|'] <:+: entry.prev.toList := by
  rw [(wf.linked k present entry stored).1]
  by_cases first : predIn "" L k = ""
  · rw [first]
    decide
  · exact separator_notInfix_of_validateKey (accepted _ (predIn_mem present wf.nodup first))

omit reply in
theorem WellFormed.parse_linked {k : String} (present : k ∈ L) {entry : PoolEntry}
    (stored : s.hget k = some entry) (plain : (predIn "" L k).toList.getLast? ≠ some '|') :
    (parsePoolEntry entry.value).prev = predIn "" L k ∧
      (parsePoolEntry entry.value).next = succIn "" L k := by
  have linked := wf.linked k present entry stored
  rw [parsePoolEntry_value (wf.unseparated_prev accepted present stored) (linked.1 ▸ plain)]
  exact linked

omit reply accepted in
theorem WellFormed.plain_predIn (plain : ∀ k ∈ L.dropLast, k.toList.getLast? ≠ some '|') :
    ∀ k ∈ L, (predIn "" L k).toList.getLast? ≠ some '|' := by
  intro k present
  by_cases first : predIn "" L k = ""
  · rw [first]
    decide
  · exact plain _ (predIn_mem_dropLast present wf.nodup first)

theorem WellFormed.free_collected {k : String} (present : k ∈ L)
    (plain : (predIn "" L k).toList.getLast? ≠ some '|') :
    ∃ entry, (collectRawPool shared localTime s kvs).entries.lookup k = some entry ∧
      entry.isFreeNode = true := by
  obtain ⟨entry, stored⟩ := Option.isSome_iff_exists.mp (wf.member k present)
  obtain ⟨prev, _⟩ := wf.parse_linked accepted present stored plain
  refine ⟨_, by rw [lookup_collected reply, stored, Option.map_some], ?_⟩
  apply PoolEntry.isFreeNode_of_prev
  rw [prev]
  intro isSentinel
  have first : predIn "" L k ≠ "" := by
    rw [isSentinel]
    decide
  exact (wf.named _ (wf.member _ (predIn_mem present wf.nodup first))).2 isSentinel

theorem WellFormed.collected (unlocked : ∀ k ∈ L, s.locked k = false)
    (plain : ∀ k ∈ L.dropLast, k.toList.getLast? ≠ some '|') :
    (collectRawPool shared localTime s kvs).WellFormed L where
  nodup := wf.nodup
  named := fun present => (wf.named "" (wf.member "" present)).1 rfl
  head := wf.head
  tail := wf.tail
  linked := by
    intro k present
    obtain ⟨entry, stored⟩ := Option.isSome_iff_exists.mp (wf.member k present)
    rw [lookup_collected reply, stored, Option.map_some]
    exact ⟨_, rfl, wf.parse_linked accepted present stored (wf.plain_predIn plain k present)⟩
  marked := by
    intro k absent entry found
    rw [lookup_collected reply, Option.map_eq_some_iff] at found
    obtain ⟨raw, stored, rfl⟩ := found
    obtain ⟨prev, next⟩ := wf.marked k absent raw stored
    rw [parsePoolEntry_value (by rw [prev]; decide) (by rw [prev]; decide)]
    exact ⟨prev, next⟩
  unlocked := by
    intro k present
    rw [lockKey_collected reply (wf.member k present)]
    exact unlocked k present

/-- The parser and the list the checks accept agree on an entry up to the first key that ends in
a bar; behind such a key the entry's `prev` is not the key before it. -/
theorem WellFormed.unbarred_of_collected {L' : List String}
    (read : (collectRawPool shared localTime s kvs).WellFormed L') {p : String} (present : p ∈ L)
    (more : succIn "" L p ≠ "") (plain : (predIn "" L p).toList.getLast? ≠ some '|') :
    p.toList.getLast? ≠ some '|' := by
  intro ends
  obtain ⟨front, isBarred⟩ := List.getLast?_eq_some_iff.mp ends
  have inQueue {k : String} {entry : PoolEntry} (stored : s.hget k = some entry)
      (free : ¬ ((parsePoolEntry entry.value).prev = allocatedSentinel ∧
        (parsePoolEntry entry.value).next = allocatedSentinel)) : k ∈ L' := by
    by_contra absent
    exact free (read.marked k absent _ (by rw [lookup_collected reply, stored]; rfl))
  have linkedIn {k : String} {entry : PoolEntry} (stored : s.hget k = some entry)
      (queued : k ∈ L') : (parsePoolEntry entry.value).prev = predIn "" L' k ∧
        (parsePoolEntry entry.value).next = succIn "" L' k := by
    obtain ⟨entry', found, linked⟩ := read.linked k queued
    rw [lookup_collected reply, stored, Option.map_some, Option.some.injEq] at found
    exact found ▸ linked
  obtain ⟨entry, stored⟩ := Option.isSome_iff_exists.mp (wf.member p present)
  obtain ⟨prev, next⟩ := wf.parse_linked accepted present stored plain
  have queued : p ∈ L' := inQueue stored fun marked => by
    have nameable := wf.named _ (wf.member _ (succIn_mem present wf.nodup more))
    exact nameable.2 (next.symm.trans marked.2)
  have agreeNext : succIn "" L p = succIn "" L' p := next.symm.trans (linkedIn stored queued).2
  -- the entry behind `p`, where the bar of `p` is cut off
  have presentBehind := succIn_mem present wf.nodup more
  obtain ⟨behind, storedBehind⟩ := Option.isSome_iff_exists.mp (wf.member _ presentBehind)
  have before : behind.prev = p :=
    (wf.linked _ presentBehind _ storedBehind).1.trans (predIn_succIn present wf.nodup more)
  have readBehind := parsePoolEntry_value_bar
    (wf.unseparated_prev accepted presentBehind storedBehind) (before ▸ isBarred)
  have prevBehind := congrArg PoolEntry.prev readBehind
  have nextBehind := congrArg PoolEntry.next readBehind
  have queuedBehind : succIn "" L p ∈ L' := inQueue storedBehind fun marked => by
    have barred := congrArg String.toList (nextBehind.symm.trans marked.2)
    rw [String.toList_ofList] at barred
    exact absurd (congrArg List.head? barred) (by simp [allocatedSentinel])
  have agreePrev := (linkedIn storedBehind queuedBehind).1
  rw [prevBehind, agreeNext, predIn_succIn queued read.nodup (agreeNext ▸ more)] at agreePrev
  have cutOff := congrArg String.toList agreePrev
  rw [String.toList_ofList, isBarred] at cutOff
  simp at cutOff

theorem WellFormed.unbarred {L' : List String}
    (read : (collectRawPool shared localTime s kvs).WellFormed L') :
    ∀ p ∈ L.dropLast, p.toList.getLast? ≠ some '|' := by
  have more : ∀ front p back, L = front ++ p :: back → back ≠ [] → succIn "" L p ≠ "" := by
    intro front p back whole later
    rw [whole, succIn_split _ _ _ (notMem_of_split (whole ▸ wf.nodup)).1]
    cases back with
    | nil => exact absurd rfl later
    | cons k back => exact (wf.named k (wf.member k (by simp [whole]))).1
  have along : ∀ front p back, L = front ++ p :: back → back ≠ [] →
      p.toList.getLast? ≠ some '|' := by
    intro front
    induction front using List.reverseRecOn with
    | nil =>
        intro p back whole later
        apply wf.unbarred_of_collected reply accepted read (by simp [whole])
          (more [] p back whole later)
        rw [whole, predIn_split _ _ _ (whole ▸ wf.nodup)]
        decide
    | append_singleton front q ih =>
        intro p back whole later
        apply wf.unbarred_of_collected reply accepted read (by simp [whole])
          (more _ p back whole later)
        rw [whole, predIn_split _ _ _ (whole ▸ wf.nodup), List.getLastD_concat]
        exact ih q (p :: back) (by simp [whole]) (List.cons_ne_nil p back)
  intro p early
  obtain ⟨front, back, cut⟩ := List.append_of_mem early
  have notEmpty : L ≠ [] := by
    rintro rfl
    cases early
  refine along front p (back ++ [L.getLast notEmpty]) ?_ (by simp)
  conv_lhs => rw [← List.dropLast_append_getLast notEmpty, cut]
  simp

end Collected

/-- The report of a well-formed pool is clean exactly if no free key is locked, none begins as
the markers do, and none but the last ends in a bar.  The mode plays no part. -/
theorem checkInvariants_collected_iff (shared : Bool) (localTime : Int) {s : Redis}
    {kvs : AList fun _ : String => PoolEntry} (reply : kvs.toFinmap = s.pool) {L : List String}
    (wf : WellFormed s L) (accepted : ∀ k ∈ L, validateKey k = .ok ()) :
    (collectRawPool shared localTime s kvs).checkInvariants = [] ↔
    (∀ k ∈ L, s.locked k = false) ∧ (∀ k ∈ L, k.toList.head? ≠ some '<') ∧
      ∀ k ∈ L.dropLast, k.toList.getLast? ≠ some '|' := by
  have solid : allocatedSentinel ∉ L := fun present => (wf.named _ (wf.member _ present)).2 rfl
  have unnamed : "" ∉ L := fun present => (wf.named _ (wf.member _ present)).1 rfl
  constructor
  · intro clean
    have apart : ¬ (collectRawPool shared localTime s kvs).AllocatedEnds := by
      intro ends
      have pointed : s.headPointer ≠ "" := ends.pointed
      rw [wf.head] at pointed
      have present := headD_mem pointed
      have first := (predIn_eq_nil_iff present wf.nodup unnamed).mpr rfl
      obtain ⟨entry, stored, free⟩ : ∃ entry, (collectRawPool shared localTime s kvs).entries.lookup
          (L.headD "") = some entry ∧ entry.isFreeNode = true :=
        wf.free_collected reply accepted present (by rw [first]; decide)
      rw [ends.marked _ entry stored] at free
      cases free
    obtain ⟨L', read⟩ :=
      (RawAllocatorSnapshot.wellFormed_or_allocatedEnds clean).resolve_right apart
    have unbarred := wf.unbarred reply accepted read
    have unbarredBefore := wf.plain_predIn unbarred
    obtain ⟨walks, _, _, _, entries⟩ := RawAllocatorSnapshot.checkInvariants_eq_nil_iff.mp clean
    obtain ⟨_, _, _, sets⟩ := RawAllocatorSnapshot.walkViolations_eq_nil_iff.mp walks
    refine ⟨fun k present => ?_, fun k present => ?_, unbarred⟩
    · obtain ⟨entry, stored, free⟩ :=
        wf.free_collected reply accepted present (unbarredBefore k present)
      rw [← lockKey_collected reply (wf.member k present)]
      exact (entries k entry stored).1 free
    · obtain ⟨entry, stored, free⟩ :=
        wf.free_collected reply accepted present (unbarredBefore k present)
      have walked := sets ▸ RawAllocatorSnapshot.mem_freeViaEntries.mpr ⟨entry, stored, free⟩
      exact (RawAllocatorSnapshot.mem_freeViaWalk.mp walked).2
  · rintro ⟨unlocked, plain, unbarred⟩
    exact (wf.collected reply accepted unlocked unbarred).clean solid plain

def sampleChainReply : AList fun _ : String => PoolEntry :=
  ((∅ : AList fun _ : String => PoolEntry).insert "a" ⟨"", "b", 5⟩).insert "b" ⟨"a", "", -1⟩

theorem checkInvariants_collected_iff_sample :
    (collectRawPool true 0 sampleChain sampleChainReply).checkInvariants = [] ↔
    (∀ k ∈ ["a", "b"], sampleChain.locked k = false) ∧
      (∀ k ∈ ["a", "b"], k.toList.head? ≠ some '<') ∧
      ∀ k ∈ ["a", "b"].dropLast, k.toList.getLast? ≠ some '|' :=
  checkInvariants_collected_iff true 0 rfl sampleChain_wellFormed (by decide)

theorem wellFormed_singleton {s : Redis} {k : String} {expiry : Int}
    (pool : s.pool = (AList.singleton k ⟨"", "", expiry⟩).toFinmap) (head : s.headPointer = k)
    (tail : s.tailPointer = k) (named : Nameable k) : WellFormed s [k] := by
  have stored {other : String} {entry : PoolEntry} (found : s.hget other = some entry) :
      other = k ∧ entry = ⟨"", "", expiry⟩ := by
    rw [Redis.hget, pool, Finmap.lookup_toFinmap] at found
    simpa using AList.mem_lookup_iff.mp found
  refine ⟨List.nodup_singleton k, ?_, head, tail, ?_, ?_, ?_⟩
  · intro other present
    rw [List.mem_singleton.mp present, Redis.hget, pool, Finmap.lookup_toFinmap]
    simp [AList.lookup, AList.singleton]
  · intro other present entry found
    rw [(stored found).2]
    exact ⟨rfl, rfl⟩
  · intro other absent entry found
    exact absurd (List.mem_singleton.mpr (stored found).1) absent
  · intro other isMember
    obtain ⟨entry, found⟩ := Option.isSome_iff_exists.mp isMember
    rw [(stored found).1]
    exact named

def markedKey : Redis := (extend ["<a"] none (Redis.empty 1000)).2

/-- `extend(["a"])`, and an object of `a` is reported unhealthy. -/
def unhealthyKey : Redis :=
  (lockUpdate "a" "1" (.int 3600) (extend ["a"] none (Redis.empty 1000)).2).2

/-- Neither pool is corrupt: `<a` is dropped from the walk as if it were a marker, and the lock on
`a` is the one that `set_unhealthy` puts on a free key of a shared pool. -/
theorem legalPools_alarmed :
    (WellFormed markedKey ["<a"] ∧ validateKey "<a" = .ok () ∧ markedKey.locked "<a" = false ∧
      (AList.singleton "<a" ⟨"", "", -1⟩).toFinmap = markedKey.pool ∧
      (collectRawPool false 0 markedKey (AList.singleton "<a" ⟨"", "", -1⟩)).checkInvariants ≠ []) ∧
    (WellFormed unhealthyKey ["a"] ∧ validateKey "a" = .ok () ∧
      (AList.singleton "a" ⟨"", "", -1⟩).toFinmap = unhealthyKey.pool ∧
      (collectRawPool true 0 unhealthyKey (AList.singleton "a" ⟨"", "", -1⟩)).checkInvariants ≠
        []) := by
  refine ⟨⟨wellFormed_singleton rfl rfl rfl ⟨by decide, by decide⟩, by decide, by decide, rfl, ?_⟩,
    wellFormed_singleton rfl rfl rfl ⟨by decide, by decide⟩, by decide, rfl, ?_⟩
  · have report : (collectRawPool false 0 markedKey
        (AList.singleton "<a" ⟨"", "", -1⟩)).checkInvariants = [.freeSets ∅ {"<a"}] := by
      decide +kernel
    simp [report]
  · have report : (collectRawPool true 0 unhealthyKey
        (AList.singleton "a" ⟨"", "", -1⟩)).checkInvariants = [.lockedFree "a"] := by
      decide +kernel
    simp [report]

end RedisAllocator

import RedisAllocator.Diagnostics.Invariants

/-!
# What a clean report says

A snapshot without violations is a doubly linked free list beside allocated
entries, or both its pointers are on one allocated entry.  The report of a
well-formed pool is clean as long as no free key is locked, begins as the markers
do, or ends in a bar before another key.
-/

set_option autoImplicit false

namespace RedisAllocator

open NeighbourList PointerWalk

@[simp] theorem report_eq_nil {broken : Prop} [Decidable broken] (violation : Violation) :
    report broken violation = [] ↔ ¬ broken := by
  rw [report]
  split <;> simp_all

theorem PoolEntry.isFreeNode_eq_false (entry : PoolEntry) :
    entry.isFreeNode = false ↔ entry.prev = allocatedSentinel ∧ entry.next = allocatedSentinel := by
  simp [isFreeNode, isAllocatedMarker]

theorem PoolEntry.isFreeNode_of_prev {entry : PoolEntry} (plain : entry.prev ≠ allocatedSentinel) :
    entry.isFreeNode = true := by
  rw [← Bool.not_eq_false, entry.isFreeNode_eq_false]
  exact fun marked => plain marked.1

namespace RawAllocatorSnapshot

/-- `L` is the free list of the snapshot: distinct unlocked entries, linked from head to tail;
every other entry is an allocated marker. -/
structure WellFormed (snapshot : RawAllocatorSnapshot) (L : List String) : Prop where
  nodup : L.Nodup
  named : "" ∉ L
  head : snapshot.head = L.headD ""
  tail : snapshot.tail = L.getLastD ""
  linked : ∀ k ∈ L, ∃ entry, snapshot.entries.lookup k = some entry ∧
    entry.prev = predIn "" L k ∧ entry.next = succIn "" L k
  marked : ∀ k, k ∉ L → ∀ entry, snapshot.entries.lookup k = some entry →
    entry.prev = allocatedSentinel ∧ entry.next = allocatedSentinel
  unlocked : ∀ k ∈ L, snapshot.lockKey k = false

/-- Both pointers are on one entry, and nothing is free. -/
structure AllocatedEnds (snapshot : RawAllocatorSnapshot) : Prop where
  pointed : snapshot.head ≠ ""
  agree : snapshot.head = snapshot.tail
  present : snapshot.head ∈ snapshot.entries
  marked : ∀ k entry, snapshot.entries.lookup k = some entry → entry.isFreeNode = false

variable {snapshot : RawAllocatorSnapshot}

/-! ## The walks follow pointers -/

def pointer (snapshot : RawAllocatorSnapshot) (follow : PoolEntry → String) (k : String) :
    Option String :=
  ((snapshot.entries.lookup k).filter PoolEntry.isFreeNode).map follow

theorem pointer_eq_some_iff {follow : PoolEntry → String} {k next : String} :
    snapshot.pointer follow k = some next ↔
      ∃ entry, snapshot.entries.lookup k = some entry ∧ entry.isFreeNode = true ∧
        follow entry = next := by
  simp [pointer, Option.filter_eq_some_iff, and_assoc]

theorem pointer_of_lookup {follow : PoolEntry → String} {k : String} {entry : PoolEntry}
    (stored : snapshot.entries.lookup k = some entry) :
    snapshot.pointer follow k = if entry.isAllocatedMarker then none else some (follow entry) := by
  rw [pointer, stored, Option.filter_some, PoolEntry.isFreeNode]
  cases entry.isAllocatedMarker <;> rfl

def marker (snapshot : RawAllocatorSnapshot) (k : String) : String :=
  match snapshot.entries.lookup k with
  | none => "<missing:" ++ k ++ ">"
  | some _ => "<allocated:" ++ k ++ ">"

theorem marker_head (k : String) : (snapshot.marker k).toList.head? = some '<' := by
  unfold marker
  split <;> simp

/-- The source's report of a walk: the cycle is a value, a dead end a marker behind the keys. -/
def shown (snapshot : RawAllocatorSnapshot) :
    List String × Ending String → List String × Option String
  | (visited, .finished) => (visited, none)
  | (visited, .cycle k) => (visited, some k)
  | (visited, .stopped k) => (visited ++ [snapshot.marker k], none)
  | (visited, .outOfSteps k) => (visited, some k)

theorem walkFrom_eq (follow : PoolEntry → String) (steps : Nat) (current : String)
    (visited : List String) :
    snapshot.walkFrom follow steps current visited =
      snapshot.shown (walk "" (snapshot.pointer follow) steps current visited) := by
  induction steps generalizing current visited with
  | zero => rfl
  | succ steps ih =>
      unfold walkFrom walk
      split
      · rfl
      · split
        · rfl
        · cases stored : snapshot.entries.lookup current with
          | none => simp [pointer, stored, shown, marker]
          | some entry =>
              cases marked : entry.isAllocatedMarker with
              | true => simp [pointer_of_lookup stored, marked, shown, marker, stored]
              | false => simp [pointer_of_lookup stored, marked, ih]

/-- A walk that reports no cycle: the keys passed, and the marker of the key it stopped at. -/
theorem walkFrom_cases {follow : PoolEntry → String} {steps : Nat} {start : String}
    (noCycle : (snapshot.walkFrom follow steps start []).2 = none) :
    ∃ path, path.Nodup ∧ "" ∉ path ∧ ((snapshot.walkFrom follow steps start []).1 = path ∧
        Leads (snapshot.pointer follow) start path "" ∨
      ∃ stop, (snapshot.walkFrom follow steps start []).1 = path ++ [snapshot.marker stop] ∧
        Leads (snapshot.pointer follow) start path stop) := by
  obtain ⟨path, stop, passed, unique, solid, leads, ending⟩ :=
    walk_sound "" (snapshot.pointer follow) steps start List.nodup_nil
  rw [List.nil_append] at passed unique
  refine ⟨path, unique, solid, ?_⟩
  rw [walkFrom_eq] at noCycle ⊢
  cases walked : walk "" (snapshot.pointer follow) steps start [] with
  | mk visited how =>
      rw [walked] at noCycle ending passed
      cases how with
      | finished => exact Or.inl ⟨passed, ending ▸ leads⟩
      | cycle k => cases noCycle
      | stopped k =>
          obtain ⟨rfl, _, _⟩ := ending
          exact Or.inr ⟨stop, congrArg (· ++ [snapshot.marker stop]) passed, leads⟩
      | outOfSteps k => cases noCycle

/-! ## A clean report -/

theorem mem_freeViaEntries {k : String} : k ∈ snapshot.freeViaEntries ↔
    ∃ entry, snapshot.entries.lookup k = some entry ∧ entry.isFreeNode = true := by
  simp only [freeViaEntries, List.mem_toFinset, List.mem_map, List.mem_filter, Sigma.exists,
    exists_and_right, exists_eq_right]
  constructor
  · rintro ⟨entry, inEntries, free⟩
    exact ⟨entry, AList.mem_lookup_iff.mpr inEntries, free⟩
  · rintro ⟨entry, stored, free⟩
    exact ⟨entry, AList.mem_lookup_iff.mp stored, free⟩

theorem mem_freeViaWalk {k : String} : k ∈ snapshot.freeViaWalk ↔
    k ∈ snapshot.walkForward.1 ∧ k.toList.head? ≠ some '<' := by
  simp [freeViaWalk]

theorem walkViolations_eq_nil_iff : snapshot.walkViolations = [] ↔
    snapshot.walkForward.2 = none ∧ snapshot.walkBackward.2 = none ∧
      snapshot.walkForward.1 = snapshot.walkBackward.1 ∧
      snapshot.freeViaWalk = snapshot.freeViaEntries := by
  simp [walkViolations]

theorem entryViolations_eq_nil_iff {k : String} {entry : PoolEntry} :
    snapshot.entryViolations k entry = [] ↔
      (entry.isFreeNode = true → snapshot.lockKey k = false) ∧
        (entry.prev = allocatedSentinel ↔ entry.next = allocatedSentinel) := by
  simp only [entryViolations, List.append_eq_nil_iff, report_eq_nil, not_and, Bool.not_eq_true,
    Decidable.not_not, and_assoc]
  tauto

theorem endViolations_eq_nil_iff {pointer : String} {beyond : PoolEntry → String}
    {missing : Violation} {linked : String → Violation} :
    snapshot.endViolations pointer beyond missing linked = [] ↔
      (pointer ≠ "" → ∃ entry, snapshot.entries.lookup pointer = some entry ∧
        (entry.isFreeNode = true → beyond entry = "")) := by
  rw [endViolations]
  split
  · simp_all
  · rename_i pointed
    cases snapshot.entries.lookup pointer with
    | none => simp [pointed]
    | some entry => simp [pointed]

theorem checkInvariants_eq_nil_iff : snapshot.checkInvariants = [] ↔
    snapshot.walkViolations = [] ∧ (snapshot.head = "" ↔ snapshot.tail = "") ∧
    (snapshot.head ≠ "" → ∃ entry, snapshot.entries.lookup snapshot.head = some entry ∧
      (entry.isFreeNode = true → entry.prev = "")) ∧
    (snapshot.tail ≠ "" → ∃ entry, snapshot.entries.lookup snapshot.tail = some entry ∧
      (entry.isFreeNode = true → entry.next = "")) ∧
    ∀ k entry, snapshot.entries.lookup k = some entry →
      (entry.isFreeNode = true → snapshot.lockKey k = false) ∧
        (entry.prev = allocatedSentinel ↔ entry.next = allocatedSentinel) := by
  rw [checkInvariants]
  split
  · rename_i noEntries
    have nothing : ∀ k, snapshot.entries.lookup k = none := fun k => by
      rw [AList.lookup_eq_none, AList.mem_keys, AList.keys, noEntries]
      exact List.not_mem_nil
    simp only [List.append_eq_nil_iff, report_eq_nil, nothing, reduceCtorEq, false_and,
      exists_false, imp_false, not_or, Decidable.not_not, false_implies, implies_true, and_true]
    tauto
  · simp only [List.append_eq_nil_iff, report_eq_nil, endViolations_eq_nil_iff,
      List.flatMap_eq_nil_iff, entryViolations_eq_nil_iff, and_assoc]
    refine and_congr_right fun _ => and_congr ?_ (and_congr_right fun _ => and_congr_right
      fun _ => ⟨fun clean k entry stored => ?_, fun clean item inEntries => ?_⟩)
    · by_cases head : snapshot.head = "" <;> by_cases tail : snapshot.tail = "" <;>
        simp [bne, head, tail]
    · exact clean ⟨k, entry⟩ (AList.mem_lookup_iff.mp stored)
    · exact clean item.1 item.2 (AList.mem_lookup_iff.mpr inEntries)

/-! ## No violation, no corruption -/

section Clean

variable (sets : snapshot.freeViaWalk = snapshot.freeViaEntries)
include sets

theorem passed_of_isFreeNode {k : String} {entry : PoolEntry}
    (stored : snapshot.entries.lookup k = some entry) (free : entry.isFreeNode = true) :
    k ∈ snapshot.walkForward.1 ∧ k.toList.head? ≠ some '<' := by
  have inWalk : k ∈ snapshot.freeViaWalk := sets ▸ mem_freeViaEntries.mpr ⟨entry, stored, free⟩
  exact mem_freeViaWalk.mp inWalk

theorem head_ne_of_pointer {follow : PoolEntry → String} {k : String}
    (followed : (snapshot.pointer follow k).isSome) : k.toList.head? ≠ some '<' := by
  obtain ⟨next, found⟩ := Option.isSome_iff_exists.mp followed
  obtain ⟨entry, stored, free, _⟩ := pointer_eq_some_iff.mp found
  exact (passed_of_isFreeNode sets stored free).2

theorem marker_notMem {follow : PoolEntry → String} {start stop : String} {path : List String}
    (leads : Leads (snapshot.pointer follow) start path stop) (k : String) :
    snapshot.marker k ∉ path := fun passed =>
  head_ne_of_pointer sets (leads.followed _ passed) (marker_head k)

theorem wellFormed_of_walked {L : List String} (nodup : L.Nodup) (named : "" ∉ L)
    (walked : snapshot.walkForward.1 = L)
    (forward : Leads (snapshot.pointer PoolEntry.next) snapshot.head L "")
    (backward : Leads (snapshot.pointer PoolEntry.prev) snapshot.tail L.reverse "")
    (unlocked : ∀ k entry, snapshot.entries.lookup k = some entry → entry.isFreeNode = true →
      snapshot.lockKey k = false) : snapshot.WellFormed L where
  nodup := nodup
  named := named
  head := forward.start_eq
  tail := by simpa using backward.start_eq
  linked := by
    intro k present
    obtain ⟨entry, stored, _, next⟩ := pointer_eq_some_iff.mp (forward.follow_eq nodup k present)
    obtain ⟨entry', stored', _, prev⟩ := pointer_eq_some_iff.mp
      (backward.follow_eq (List.nodup_reverse.mpr nodup) k (List.mem_reverse.mpr present))
    obtain rfl := Option.some.inj (stored.symm.trans stored')
    rw [succIn_reverse nodup present] at prev
    exact ⟨entry, stored, prev, next⟩
  marked := by
    intro k absent entry stored
    rw [← entry.isFreeNode_eq_false, ← Bool.not_eq_true]
    intro free
    exact absent (walked ▸ (passed_of_isFreeNode sets stored free).1)
  unlocked := by
    intro k present
    obtain ⟨entry, stored, free, _⟩ := pointer_eq_some_iff.mp (forward.follow_eq nodup k present)
    exact unlocked k entry stored free

end Clean

theorem wellFormed_nil (head : snapshot.head = "") (tail : snapshot.tail = "")
    (sets : snapshot.freeViaWalk = snapshot.freeViaEntries) : snapshot.WellFormed [] := by
  have walked : snapshot.walkForward.1 = [] := by rw [walkForward, if_pos head]
  refine ⟨List.nodup_nil, List.not_mem_nil, head, tail, ?_, fun k _ entry stored => ?_, ?_⟩
  · simp
  · rw [← entry.isFreeNode_eq_false, ← Bool.not_eq_true]
    intro free
    have passed := (passed_of_isFreeNode sets stored free).1
    rw [walked] at passed
    cases passed
  · simp

theorem allocatedEnds_of_marker (headPointed : snapshot.head ≠ "")
    (headEntry : (snapshot.entries.lookup snapshot.head).isSome)
    (tailEntry : (snapshot.entries.lookup snapshot.tail).isSome)
    (sets : snapshot.freeViaWalk = snapshot.freeViaEntries)
    (walked : snapshot.walkForward.1 = [snapshot.marker snapshot.head])
    (agree : snapshot.marker snapshot.head = snapshot.marker snapshot.tail) :
    snapshot.AllocatedEnds := by
  refine ⟨headPointed, ?_, AList.lookup_isSome.mp headEntry, ?_⟩
  · obtain ⟨e, storedHead⟩ := Option.isSome_iff_exists.mp headEntry
    obtain ⟨e', storedTail⟩ := Option.isSome_iff_exists.mp tailEntry
    simpa [marker, storedHead, storedTail, ← String.toList_inj] using agree
  · intro k entry stored
    rw [← Bool.not_eq_true]
    intro free
    obtain ⟨passed, plain⟩ := passed_of_isFreeNode sets stored free
    rw [walked, List.mem_singleton] at passed
    exact plain (passed ▸ marker_head _)

theorem wellFormed_or_allocatedEnds (clean : snapshot.checkInvariants = []) :
    (∃ L, snapshot.WellFormed L) ∨ snapshot.AllocatedEnds := by
  obtain ⟨walks, balance, headEntry, tailEntry, entries⟩ := checkInvariants_eq_nil_iff.mp clean
  obtain ⟨noForward, noBackward, same, sets⟩ := walkViolations_eq_nil_iff.mp walks
  have unlocked := fun k entry stored => (entries k entry stored).1
  by_cases headEmpty : snapshot.head = ""
  · exact Or.inl ⟨[], wellFormed_nil headEmpty (balance.mp headEmpty) sets⟩
  · have tailPointed : snapshot.tail ≠ "" := fun empty => headEmpty (balance.mpr empty)
    have forwardIs : snapshot.walkForward = snapshot.walkFrom PoolEntry.next
        (snapshot.entries.entries.length + 1) snapshot.head [] := by
      rw [walkForward, if_neg headEmpty]
    have backwardIs : snapshot.walkBackward.1 = (snapshot.walkFrom PoolEntry.prev
        (snapshot.entries.entries.length + 1) snapshot.tail []).1.reverse ∧
        snapshot.walkBackward.2 = (snapshot.walkFrom PoolEntry.prev
        (snapshot.entries.entries.length + 1) snapshot.tail []).2 := by
      rw [walkBackward, if_neg tailPointed]
      exact ⟨rfl, rfl⟩
    obtain ⟨L, unique, named, there⟩ := walkFrom_cases (forwardIs ▸ noForward)
    obtain ⟨B, _, _, back⟩ := walkFrom_cases (backwardIs.2 ▸ noBackward)
    rw [← forwardIs] at there
    rw [backwardIs.1] at same
    rcases there with ⟨walked, forward⟩ | ⟨stop, walked, forward⟩
    · rcases back with ⟨walkedBack, backward⟩ | ⟨stop, walkedBack, backward⟩
      · -- both walks reach their end: they pass the same list
        have turned : B = L.reverse := by
          rw [← walked, same, walkedBack, List.reverse_reverse]
        exact Or.inl ⟨L, wellFormed_of_walked sets unique named walked forward (turned ▸ backward)
          unlocked⟩
      · rw [walked, walkedBack, List.reverse_append, List.reverse_singleton] at same
        exact absurd (same ▸ List.mem_cons_self ..) (marker_notMem sets forward stop)
    · rcases back with ⟨walkedBack, backward⟩ | ⟨stop', walkedBack, backward⟩
      · have passed : snapshot.marker stop ∈ B := by
          rw [← List.mem_reverse, ← walkedBack, ← same, walked]
          simp
        exact absurd passed (marker_notMem sets backward stop)
      · -- both stop: a key before the marker would itself be a marker of the other walk
        rw [walked, walkedBack, List.reverse_append, List.reverse_singleton,
          List.singleton_append] at same
        cases L with
        | cons a rest =>
            obtain ⟨isMarker, _⟩ := List.cons.inj same
            exact absurd (isMarker ▸ List.mem_cons_self ..) (marker_notMem sets forward stop')
        | nil =>
            obtain ⟨agree, nothing⟩ := List.cons.inj same
            have atHead : snapshot.head = stop := forward
            have atTail : snapshot.tail = stop' := by
              rw [List.reverse_eq_nil_iff.mp nothing.symm] at backward
              exact backward
            obtain ⟨_, storedHead, _⟩ := headEntry headEmpty
            obtain ⟨_, storedTail, _⟩ := tailEntry tailPointed
            exact Or.inr (allocatedEnds_of_marker headEmpty
              (by rw [storedHead, Option.isSome_some]) (by rw [storedTail, Option.isSome_some]) sets
              (by rw [walked, atHead]; rfl) (by rw [atHead, atTail, agree]))

theorem AllocatedEnds.clean (ends : snapshot.AllocatedEnds) : snapshot.checkInvariants = [] := by
  obtain ⟨entry, stored⟩ := Option.isSome_iff_exists.mp (AList.lookup_isSome.mpr ends.present)
  have notFree := ends.marked _ _ stored
  have isMarker : entry.isAllocatedMarker = true := by simpa [PoolEntry.isFreeNode] using notFree
  have tailPointed : snapshot.tail ≠ "" := ends.agree ▸ ends.pointed
  have forward : snapshot.walkForward = (["<allocated:" ++ snapshot.head ++ ">"], none) := by
    rw [walkForward, if_neg ends.pointed, walkFrom, if_neg ends.pointed,
      if_neg List.not_mem_nil, stored]
    simp [isMarker]
  have backward : snapshot.walkBackward = (["<allocated:" ++ snapshot.head ++ ">"], none) := by
    rw [walkBackward, if_neg tailPointed, walkFrom, if_neg tailPointed,
      if_neg List.not_mem_nil, ← ends.agree, stored]
    simp [isMarker]
  have noneFree : snapshot.freeViaEntries = ∅ := by
    rw [Finset.eq_empty_iff_forall_notMem]
    intro k free
    obtain ⟨entry, stored, free⟩ := mem_freeViaEntries.mp free
    rw [ends.marked k entry stored] at free
    cases free
  have noneWalked : snapshot.freeViaWalk = ∅ := by
    simp [freeViaWalk, forward]
  rw [checkInvariants_eq_nil_iff, walkViolations_eq_nil_iff, forward, backward]
  refine ⟨⟨rfl, rfl, rfl, noneWalked.trans noneFree.symm⟩, by rw [ends.agree],
    fun _ => ⟨entry, stored, fun free => ?_⟩, fun _ => ⟨entry, ends.agree ▸ stored, fun free => ?_⟩,
    fun k entry stored => ?_⟩
  · rw [notFree] at free
    cases free
  · rw [notFree] at free
    cases free
  · have marked := ends.marked k entry stored
    obtain ⟨prev, next⟩ := entry.isFreeNode_eq_false.mp marked
    refine ⟨fun free => ?_, by simp [prev, next]⟩
    rw [marked] at free
    cases free

theorem AllocatedEnds.not_wellFormed (ends : snapshot.AllocatedEnds) (L : List String) :
    ¬ snapshot.WellFormed L := by
  intro wf
  cases L with
  | nil => exact ends.pointed wf.head
  | cons k rest =>
      obtain ⟨entry, stored, prev, _⟩ := wf.linked k (List.mem_cons_self ..)
      rw [predIn_cons_of_notMem k rest k (List.nodup_cons.mp wf.nodup).1] at prev
      obtain ⟨marked, _⟩ := entry.isFreeNode_eq_false.mp (ends.marked k entry stored)
      exact absurd (prev.symm.trans marked) (by decide)

/-- A report without violations vouches for the free list, unless both pointers are on one
allocated entry: the walks then agree on a marker, which the comparison of the free sets drops. -/
theorem checkInvariants_sound_iff (snapshot : RawAllocatorSnapshot) :
    (snapshot.checkInvariants = [] → ∃ L, snapshot.WellFormed L) ↔ ¬ snapshot.AllocatedEnds := by
  constructor
  · intro sound ends
    obtain ⟨L, wf⟩ := sound ends.clean
    exact ends.not_wellFormed L wf
  · intro apart clean
    exact (wellFormed_or_allocatedEnds clean).resolve_right apart

/-- `gone` was handed out, and both pointers still name it. -/
def staleEnds : RawAllocatorSnapshot where
  head := "gone"
  tail := "gone"
  entries := AList.singleton "gone" (.allocated (-1))
  lockKeys := AList.singleton "gone" true
  lockTtls := AList.singleton "gone" (-1)
  shared := false
  now := 100

theorem staleEnds_allocatedEnds : staleEnds.AllocatedEnds where
  pointed := by decide
  agree := rfl
  present := by decide
  marked := by
    intro k entry stored
    obtain ⟨rfl, rfl⟩ : k = "gone" ∧ entry = .allocated (-1) := by
      have inEntries := AList.mem_lookup_iff.mp stored
      simpa [staleEnds] using inEntries
    decide

theorem staleEnds_unnoticed :
    ¬ (staleEnds.checkInvariants = [] → ∃ L, staleEnds.WellFormed L) := by
  intro sound
  obtain ⟨L, wf⟩ := sound staleEnds_allocatedEnds.clean
  exact staleEnds_allocatedEnds.not_wellFormed L wf

/-! ## The report of a well-formed snapshot -/

section Complete

variable {L : List String} (wf : snapshot.WellFormed L)
include wf

theorem WellFormed.length_lt : L.length < snapshot.entries.entries.length + 1 := by
  have inKeys : L ⊆ snapshot.entries.keys := fun k present => by
    obtain ⟨entry, stored, _⟩ := wf.linked k present
    rw [← AList.mem_keys, ← AList.lookup_isSome, stored, Option.isSome_some]
  have bound := (wf.nodup.subperm inKeys).length_le
  rw [AList.keys, List.keys, List.length_map] at bound
  omega

variable (solid : allocatedSentinel ∉ L)
include solid

theorem WellFormed.isFreeNode_iff {k : String} {entry : PoolEntry}
    (stored : snapshot.entries.lookup k = some entry) : entry.isFreeNode = true ↔ k ∈ L := by
  constructor
  · intro free
    by_contra absent
    rw [entry.isFreeNode_eq_false.mpr (wf.marked k absent entry stored)] at free
    cases free
  · intro present
    obtain ⟨_, stored', prev, _⟩ := wf.linked k present
    obtain rfl := Option.some.inj (stored.symm.trans stored')
    apply PoolEntry.isFreeNode_of_prev
    rw [prev]
    intro isSentinel
    exact solid (isSentinel ▸ predIn_mem present wf.nodup (by rw [isSentinel]; decide))

theorem WellFormed.walkForward_eq : snapshot.walkForward = (L, none) := by
  have leads : Leads (snapshot.pointer PoolEntry.next) (L.headD "") L "" :=
    leads_of_follow_eq wf.nodup fun k present => by
      obtain ⟨entry, stored, _, next⟩ := wf.linked k present
      rw [pointer_eq_some_iff]
      exact ⟨entry, stored, (wf.isFreeNode_iff solid stored).mpr present, next⟩
  rw [walkForward]
  split
  · rename_i empty
    rw [wf.head] at empty
    rw [(headD_eq_nil_iff wf.named).mp empty]
  · rw [walkFrom_eq, wf.head, walk_of_leads leads (by simpa using wf.nodup) wf.named wf.length_lt]
    rfl

theorem WellFormed.walkBackward_eq : snapshot.walkBackward = (L, none) := by
  have unique := List.nodup_reverse.mpr wf.nodup
  have named : "" ∉ L.reverse := by simpa using wf.named
  have tail : snapshot.tail = L.reverse.headD "" := by simpa using wf.tail
  have leads : Leads (snapshot.pointer PoolEntry.prev) (L.reverse.headD "") L.reverse "" :=
    leads_of_follow_eq unique fun k turned => by
      have present := List.mem_reverse.mp turned
      obtain ⟨entry, stored, prev, _⟩ := wf.linked k present
      rw [pointer_eq_some_iff, succIn_reverse wf.nodup present]
      exact ⟨entry, stored, (wf.isFreeNode_iff solid stored).mpr present, prev⟩
  rw [walkBackward]
  split
  · rename_i empty
    rw [tail] at empty
    rw [List.reverse_eq_nil_iff.mp ((headD_eq_nil_iff named).mp empty)]
  · rw [walkFrom_eq, tail, walk_of_leads leads (by simpa using unique) named
      (by simpa using wf.length_lt)]
    simp [shown]

theorem WellFormed.clean (plain : ∀ k ∈ L, k.toList.head? ≠ some '<') :
    snapshot.checkInvariants = [] := by
  have sets : snapshot.freeViaWalk = snapshot.freeViaEntries := by
    ext k
    rw [mem_freeViaWalk, mem_freeViaEntries, wf.walkForward_eq solid]
    constructor
    · rintro ⟨present, _⟩
      obtain ⟨entry, stored, _⟩ := wf.linked k present
      exact ⟨entry, stored, (wf.isFreeNode_iff solid stored).mpr present⟩
    · rintro ⟨entry, stored, free⟩
      have present := (wf.isFreeNode_iff solid stored).mp free
      exact ⟨present, plain k present⟩
  rw [checkInvariants_eq_nil_iff, walkViolations_eq_nil_iff, wf.walkForward_eq solid,
    wf.walkBackward_eq solid]
  refine ⟨⟨rfl, rfl, rfl, sets⟩, ?_, fun pointed => ?_, fun pointed => ?_, fun k entry stored => ?_⟩
  · rw [wf.head, wf.tail, headD_eq_nil_iff wf.named, getLastD_eq_nil_iff wf.named]
  · have present := headD_mem (wf.head ▸ pointed)
    obtain ⟨entry, stored, prev, _⟩ := wf.linked _ present
    rw [wf.head]
    have first := (predIn_eq_nil_iff present wf.nodup wf.named).mpr rfl
    exact ⟨entry, stored, fun _ => prev.trans first⟩
  · have present := getLastD_mem (wf.tail ▸ pointed)
    obtain ⟨entry, stored, _, next⟩ := wf.linked _ present
    rw [wf.tail]
    have last := (succIn_eq_nil_iff present wf.nodup wf.named).mpr rfl
    exact ⟨entry, stored, fun _ => next.trans last⟩
  · refine ⟨fun free => wf.unlocked k ((wf.isFreeNode_iff solid stored).mp free), ?_⟩
    by_cases present : k ∈ L
    · obtain ⟨entry', stored', prev, next⟩ := wf.linked k present
      obtain rfl := Option.some.inj (stored.symm.trans stored')
      refine iff_of_false (fun isSentinel => ?_) fun isSentinel => ?_
      · rw [prev] at isSentinel
        exact solid (isSentinel ▸ predIn_mem present wf.nodup (by rw [isSentinel]; decide))
      · rw [next] at isSentinel
        exact solid (isSentinel ▸ succIn_mem present wf.nodup (by rw [isSentinel]; decide))
    · obtain ⟨prev, next⟩ := wf.marked k present entry stored
      rw [prev, next]

end Complete

end RawAllocatorSnapshot
end RedisAllocator

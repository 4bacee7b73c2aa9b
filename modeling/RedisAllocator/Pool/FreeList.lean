import Mathlib.Data.List.Chain
import RedisAllocator.Pool.Runs

/-!
# Reading the free list

`get_free_list` follows the pointers for at most as many rounds as the hash has
entries.  On a pool that the pointers represent it reads off the whole queue.  On
any other state it ends as well, and what it returns are the pointers as they
are stored.
-/

set_option autoImplicit false

namespace RedisAllocator

open AbortableScript AbortableScript.Script NeighbourList LabelledRun

/-- The `for` loop with the rounds that are left: `items` is what was inserted before. -/
def freeListRounds : Nat → String → List String → LuaScript (List String)
  | 0, _, items => pure items
  | rounds + 1, current, items =>
    if current = "" then pure items
    else do
      match ← Command.hget current with
      | none => pure (items ++ [current])
      | some val =>
        if val.next = "" ∨ val.next = allocatedSentinel then pure (items ++ [current])
        else freeListRounds rounds val.next (items ++ [current])

def getFreeList : LuaScript (List String) := do
  let current ← currentHead
  if current = "" then pure []
  else do
    let maxIters ← Command.hlen
    freeListRounds maxIters current []

theorem getFreeList_run (s : Redis) : getFreeList s =
    if s.headPointer = "" then (.ok [], s)
    else freeListRounds s.pool.keys.card s.headPointer [] s := by
  simp only [getFreeList, currentHead, read_bind_apply]
  split
  · rfl
  · rfl

/-! ## On any state -/

/-- From `first` on, each item but the last is stored with the one behind it as its `next`. -/
def Redis.Linked (s : Redis) (first : String) (items : List String) : Prop :=
  items.head? = some first ∧
    items.IsChain fun k next => next ≠ "" ∧ next ≠ allocatedSentinel ∧
      ∃ val, s.hget k = some val ∧ val.next = next

def Redis.EndsAt (s : Redis) (k : String) : Prop :=
  ∀ val, s.hget k = some val → val.next = "" ∨ val.next = allocatedSentinel

theorem Redis.Linked.cons {s : Redis} {k : String} {val : PoolEntry} {path : List String}
    (stored : s.hget k = some val) (further : ¬ (val.next = "" ∨ val.next = allocatedSentinel))
    (linked : s.Linked val.next path) : s.Linked k (k :: path) := by
  rw [not_or] at further
  refine ⟨rfl, List.isChain_cons.mpr ⟨?_, linked.2⟩⟩
  intro next isNext
  rw [linked.1, Option.mem_def, Option.some.injEq] at isNext
  subst isNext
  exact ⟨further.1, further.2, val, stored, rfl⟩

/-- Whatever the pointers are, the loop passes a chain of them, and it stops early only where the
chain ends. -/
theorem freeListRounds_run (s : Redis) (rounds : Nat) {current : String} (named : current ≠ "")
    (items : List String) :
    ∃ path, freeListRounds rounds current items s = (.ok (items ++ path), s) ∧
      path.length ≤ rounds ∧ (path ≠ [] → s.Linked current path) ∧
      (path.length < rounds → ∃ k, path.getLast? = some k ∧ s.EndsAt k) := by
  induction rounds generalizing current items with
  | zero => exact ⟨[], by simp [freeListRounds], by simp, by simp, by simp⟩
  | succ rounds ih =>
      rw [freeListRounds, if_neg named]
      simp only [Command.hget, read_bind_apply]
      cases stored : s.hget current with
      | none =>
          refine ⟨[current], rfl, by simp, fun _ => ⟨rfl, .singleton _⟩, fun _ => ?_⟩
          exact ⟨current, rfl, fun val same => by rw [stored] at same; cases same⟩
      | some val =>
          by_cases last : val.next = "" ∨ val.next = allocatedSentinel
          · simp only [if_pos last]
            refine ⟨[current], rfl, by simp, fun _ => ⟨rfl, .singleton _⟩, fun _ => ?_⟩
            exact ⟨current, rfl, fun other same => by rw [stored] at same; cases same; exact last⟩
          · simp only [if_neg last]
            obtain ⟨path, run, short, linked, ends⟩ :=
              ih (fun empty => last (Or.inl empty)) (items ++ [current])
            refine ⟨current :: path, ?_, ?_, fun _ => ?_, fun early => ?_⟩
            · rw [run, List.append_assoc, List.singleton_append]
            · rw [List.length_cons]
              omega
            · cases path with
              | nil => exact ⟨rfl, .singleton _⟩
              | cons next rest => exact (linked (by simp)).cons stored last
            · rw [List.length_cons] at early
              obtain ⟨k, isLast, ended⟩ := ends (by omega)
              exact ⟨k, by rw [List.getLast?_cons, isLast]; rfl, ended⟩

/-! ## On a represented pool -/

section Represented

variable {s : Redis} {p : FreePool String}

theorem freeListRounds_queue (rep : Represents s p) {passed ahead : List String} {k : String}
    (queue : p.free = passed ++ k :: ahead) {rounds : Nat} (enough : ahead.length < rounds) :
    freeListRounds rounds k passed s = (.ok p.free, s) := by
  induction ahead generalizing passed k rounds with
  | nil =>
      obtain ⟨rounds, rfl⟩ := Nat.exists_eq_succ_of_ne_zero (Nat.ne_of_gt enough)
      have present : k ∈ p.free := by rw [queue]; simp
      obtain ⟨named, _⟩ := rep.named k (p.member k present)
      obtain ⟨e, _, stored⟩ := rep.hget_free present
      have unique : (passed ++ [k]).Nodup := queue ▸ p.nodup
      have last : succIn "" p.free k = "" := by
        rw [queue, succIn_concat_self (notMem_of_split unique).1]
      rw [freeListRounds, if_neg named]
      simp only [Command.hget, read_bind_apply, stored, last, true_or, if_true, pure_apply]
      rw [queue]
  | cons next ahead ih =>
      obtain ⟨rounds, rfl⟩ := Nat.exists_eq_succ_of_ne_zero (Nat.ne_of_gt (Nat.zero_lt_of_lt enough))
      have present : k ∈ p.free := by rw [queue]; simp
      have nextPresent : next ∈ p.free := by rw [queue]; simp
      obtain ⟨named, _⟩ := rep.named k (p.member k present)
      obtain ⟨nextNamed, nextFree⟩ := rep.named next (p.member next nextPresent)
      obtain ⟨e, _, stored⟩ := rep.hget_free present
      have follows : succIn "" p.free k = next := by
        rw [queue, succIn_split passed (next :: ahead) k (notMem_of_split (queue ▸ p.nodup)).1]
        rfl
      rw [freeListRounds, if_neg named]
      simp only [Command.hget, read_bind_apply, stored, follows, nextNamed, nextFree, or_self,
        if_false]
      have shifted : p.free = (passed ++ [k]) ++ next :: ahead := by rw [queue]; simp
      exact ih shifted (by simpa using enough)

theorem getFreeList_represented (rep : Represents s p) : getFreeList s = (.ok p.free, s) := by
  have head := rep.head
  rw [getFreeList_run]
  cases queue : p.free with
  | nil =>
      rw [queue, List.headD_nil] at head
      rw [if_pos head]
  | cons k ahead =>
      rw [queue, List.headD_cons] at head
      have present : k ∈ p.free := by rw [queue]; exact List.mem_cons_self ..
      have fits := rep.length_le
      rw [queue, List.length_cons] at fits
      rw [head, if_neg (rep.named k (p.member k present)).1]
      rw [freeListRounds_queue rep (show p.free = [] ++ k :: ahead from queue) (by omega), queue]

theorem Represents.unique {q : FreePool String} (rep : Represents s p) (rep' : Represents s q) :
    p = q := by
  have same := (getFreeList_represented rep).symm.trans (getFreeList_represented rep')
  ext1
  · exact Except.ok.inj (congrArg Prod.fst same)
  · funext k
    have entry := (rep.entry k).symm.trans (rep'.entry k)
    have expiries := congrArg (Option.map PoolEntry.expiry) entry
    simpa [Option.map_map, Function.comp_def] using expiries

end Represented

/-- On any state at all `get_free_list` returns without an error and writes nothing.  Its items, no
more than there are entries, are the stored pointers from the head on; it stops short of that number
only where they end.  On a well-formed pool the items are the free list. -/
theorem getFreeList_anyState (s : Redis) :
    ∃ items, getFreeList s = (.ok items, s) ∧ items.length ≤ s.pool.keys.card ∧
      (items = [] ↔ s.headPointer = "" ∨ s.pool.keys = ∅) ∧
      (items ≠ [] → s.Linked s.headPointer items) ∧
      (items ≠ [] → items.length < s.pool.keys.card →
        ∃ k, items.getLast? = some k ∧ s.EndsAt k) ∧
      ∀ L, WellFormed s L → items = L := by
  have exact (items : List String) (run : getFreeList s = (.ok items, s)) (L : List String)
      (wf : WellFormed s L) : items = L :=
    Except.ok.inj (congrArg Prod.fst (run.symm.trans (getFreeList_represented wf.represents)))
  by_cases named : s.headPointer = ""
  · have run : getFreeList s = (.ok [], s) := by rw [getFreeList_run, if_pos named]
    exact ⟨[], run, Nat.zero_le _, by simp [named], by simp, by simp, exact [] run⟩
  · obtain ⟨path, rounds, short, linked, ends⟩ :=
      freeListRounds_run s s.pool.keys.card named []
    have run : getFreeList s = (.ok path, s) := by
      rw [getFreeList_run, if_neg named, rounds, List.nil_append]
    refine ⟨path, run, short, ?_, linked, fun _ => ends, exact path run⟩
    rw [or_iff_right named, ← Finset.card_eq_zero]
    constructor
    · rintro rfl
      by_contra some
      obtain ⟨k, isLast, _⟩ := ends (Nat.pos_of_ne_zero some)
      cases isLast
    · intro none
      rw [none, Nat.le_zero, List.length_eq_zero_iff] at short
      exact short

end RedisAllocator

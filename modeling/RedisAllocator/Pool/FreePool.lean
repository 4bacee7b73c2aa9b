import Mathlib.Data.List.Basic
import Mathlib.Data.List.Nodup
import Mathlib.Data.List.TakeWhile
import Mathlib.Logic.Function.Basic

/-!
# The pool as a queue of free keys

What the pool is for, without pointers: some keys are members, each with an
expiry, and the free ones wait in a queue.  A free key is a member and stands in
the queue once; both facts are fields, so the operations keep them.
-/

set_option autoImplicit false

namespace RedisAllocator

@[ext]
structure FreePool (K : Type) where
  free : List K
  /-- The expiry of a member; `none` for a key that is no member. -/
  expiry : K → Option Int
  nodup : free.Nodup
  member : ∀ k ∈ free, (expiry k).isSome

namespace FreePool

variable {K : Type}

def empty : FreePool K := ⟨[], fun _ => none, List.nodup_nil, fun _ h => by cases h⟩

variable [DecidableEq K] (p : FreePool K)

/-- `k` joins the queue at its end, as a member with this expiry. -/
def push (k : K) (expiry : Int) (fresh : k ∉ p.free) : FreePool K where
  free := p.free ++ [k]
  expiry := Function.update p.expiry k (some expiry)
  nodup := by
    rw [List.nodup_append]
    refine ⟨p.nodup, List.nodup_singleton k, ?_⟩
    intro a inFree b isNew same
    exact fresh (by simpa [same, List.mem_singleton.mp isNew] using inFree)
  member := by
    intro j present
    by_cases same : j = k
    · simp [same]
    · rw [Function.update_of_ne same]
      exact p.member j (by simpa [same] using present)

/-- `k` leaves the queue and stays a member. -/
def take (k : K) : FreePool K where
  free := p.free.erase k
  expiry := p.expiry
  nodup := p.nodup.erase k
  member := fun j present => p.member j (List.mem_of_mem_erase present)

def remove (k : K) : FreePool K where
  free := p.free.erase k
  expiry := Function.update p.expiry k none
  nodup := p.nodup.erase k
  member := by
    intro j present
    obtain ⟨different, inFree⟩ := p.nodup.mem_erase_iff.mp present
    rw [Function.update_of_ne different]
    exact p.member j inFree

def setExpiry (k : K) (expiry : Int) : FreePool K where
  free := p.free
  expiry := Function.update p.expiry k (some expiry)
  nodup := p.nodup
  member := by
    intro j present
    by_cases same : j = k
    · simp [same]
    · rw [Function.update_of_ne same]
      exact p.member j present

/-- One visit of the garbage collector to member `k` with expiry `e`. -/
def visit (expired locked : Bool) (k : K) (e : Int) : FreePool K :=
  if expired then p.remove k
  else if fresh : k ∉ p.free then
    if locked then p else p.push k e fresh
  else if locked then p.take k
  else p

@[simp] theorem free_push (k : K) (e : Int) (fresh : k ∉ p.free) :
    (p.push k e fresh).free = p.free ++ [k] := rfl
@[simp] theorem expiry_push (k : K) (e : Int) (fresh : k ∉ p.free) :
    (p.push k e fresh).expiry = Function.update p.expiry k (some e) := rfl
@[simp] theorem free_take (k : K) : (p.take k).free = p.free.erase k := rfl
@[simp] theorem expiry_take (k : K) : (p.take k).expiry = p.expiry := rfl
@[simp] theorem free_remove (k : K) : (p.remove k).free = p.free.erase k := rfl
@[simp] theorem expiry_remove (k : K) :
    (p.remove k).expiry = Function.update p.expiry k none := rfl
@[simp] theorem free_setExpiry (k : K) (e : Int) : (p.setExpiry k e).free = p.free := rfl
@[simp] theorem expiry_setExpiry (k : K) (e : Int) :
    (p.setExpiry k e).expiry = Function.update p.expiry k (some e) := rfl

theorem take_of_notMem (k : K) (absent : k ∉ p.free) : p.take k = p := by
  ext1
  · exact List.erase_of_not_mem absent
  · rfl

omit [DecidableEq K] in
theorem notMem_free_of_expiry_none {k : K} (noMember : p.expiry k = none) : k ∉ p.free := by
  intro present
  have some := p.member k present
  rw [noMember] at some
  cases some

theorem take_remove (k : K) : (p.take k).remove k = p.remove k := by
  ext1
  · exact List.erase_of_not_mem p.nodup.not_mem_erase
  · rfl

theorem remove_of_expiry_none {k : K} (noMember : p.expiry k = none) : p.remove k = p := by
  ext1
  · exact List.erase_of_not_mem (p.notMem_free_of_expiry_none noMember)
  · rw [expiry_remove, ← noMember, Function.update_eq_self]

theorem notMem_free_take (k : K) : k ∉ (p.take k).free := p.nodup.not_mem_erase

theorem expiry_visit_of_ne (expired locked : Bool) {k j : K} (e : Int) (different : j ≠ k) :
    (p.visit expired locked k e).expiry j = p.expiry j := by
  rw [visit]
  split
  · exact Function.update_of_ne different _ _
  · split
    · split
      · rfl
      · exact Function.update_of_ne different _ _
    · split <;> rfl

/-! ## Popping the first usable key -/

omit [DecidableEq K] in
theorem walk_congr {f g : K → Bool} : ∀ items : List K, (∀ k ∈ items, f k = g k) →
    items.takeWhile f = items.takeWhile g ∧ items.dropWhile f = items.dropWhile g ∧
      (items.find? fun k => !f k) = items.find? fun k => !g k := by
  intro items
  induction items with
  | nil => intro _; exact ⟨rfl, rfl, rfl⟩
  | cons x rest ih =>
      intro same
      obtain ⟨takes, drops, finds⟩ := ih fun k inRest => same k (List.mem_cons_of_mem _ inRest)
      have head := same x (List.mem_cons_self ..)
      simp only [List.takeWhile_cons, List.dropWhile_cons, List.find?_cons, head, takes, drops,
        finds, and_self]

section Pop

variable (expired : Int → Bool) (locked : K → Bool)

/-- A queued key that `pop` passes over. -/
def skips (k : K) : Bool := (p.expiry k).any expired || locked k

def available : Option K := p.free.find? fun k => !p.skips expired locked k

/-- The pool after `pop`: what was passed over is dropped when it has expired and merely leaves
the queue when it is locked; the key handed out leaves the queue. -/
def afterPop : FreePool K where
  free := (p.free.dropWhile (p.skips expired locked)).tail
  expiry := fun k =>
    if k ∈ p.free.takeWhile (p.skips expired locked) ∧ (p.expiry k).any expired then none
    else p.expiry k
  nodup := (p.nodup.sublist (List.dropWhile_sublist _)).sublist (List.tail_sublist _)
  member := by
    intro k present
    have inRest := List.mem_of_mem_tail present
    have split := p.nodup
    rw [← List.takeWhile_append_dropWhile (p := p.skips expired locked) (l := p.free),
      List.nodup_append] at split
    have notFront : k ∉ p.free.takeWhile (p.skips expired locked) :=
      fun inFront => split.2.2 k inFront k inRest rfl
    rw [if_neg (fun both => notFront both.1)]
    exact p.member k ((List.dropWhile_sublist _).subset inRest)

variable {p}

theorem pop_nil (none : p.free = []) :
    p.available expired locked = .none ∧ p.afterPop expired locked = p := by
  refine ⟨by simp [available, none], ?_⟩
  ext1
  · simp [afterPop, none]
  · funext k
    simp [afterPop, none]

variable {expired locked}

theorem pop_usable {x : K} {rest : List K} (head : p.free = x :: rest)
    (usable : p.skips expired locked x = false) :
    p.available expired locked = some x ∧ p.afterPop expired locked = p.take x := by
  refine ⟨by simp [available, head, usable], ?_⟩
  ext1
  · simp [afterPop, head, usable]
  · funext k
    simp [afterPop, head, usable]

theorem notMem_free_afterPop {k : K} (first : p.available expired locked = some k) :
    k ∉ (p.afterPop expired locked).free := by
  rw [available, List.find?_not_eq_head?_dropWhile] at first
  obtain ⟨rest, split⟩ := List.head?_eq_some_iff.mp first
  have unique := p.nodup.sublist (List.dropWhile_sublist (p.skips expired locked))
  rw [split, List.nodup_cons] at unique
  simpa [afterPop, split] using unique.1

omit [DecidableEq K] in
theorem unlocked_of_available {k : K} (first : p.available expired locked = some k) :
    locked k = false := by
  have usable := List.find?_some first
  simp only [skips, Bool.not_or, Bool.and_eq_true, Bool.not_eq_true'] at usable
  exact usable.2

omit [DecidableEq K] in
theorem unexpired_of_available {k : K} (first : p.available expired locked = some k) :
    ∃ e, p.expiry k = some e ∧ expired e = false := by
  obtain ⟨e, found⟩ := Option.isSome_iff_exists.mp
    (p.member k (List.mem_of_find?_eq_some first))
  have usable := List.find?_some first
  simp only [skips, Bool.not_or, Bool.and_eq_true, Bool.not_eq_true', found,
    Option.any_some] at usable
  exact ⟨e, found, usable.1⟩

theorem expiry_afterPop_of_available {k : K} (first : p.available expired locked = some k) :
    (p.afterPop expired locked).expiry k = p.expiry k := by
  obtain ⟨e, found, unexpired⟩ := unexpired_of_available first
  simp [afterPop, found, unexpired]

theorem pop_skip {x : K} {rest : List K} {q : FreePool K} (head : p.free = x :: rest)
    (skipped : p.skips expired locked x = true) (queue : q.free = rest)
    (others : ∀ k, k ≠ x → q.expiry k = p.expiry k)
    (self : q.expiry x = if (p.expiry x).any expired then none else p.expiry x) :
    p.available expired locked = q.available expired locked ∧
      p.afterPop expired locked = q.afterPop expired locked := by
  have fresh : x ∉ rest := (List.nodup_cons.mp (head ▸ p.nodup)).1
  have same : ∀ k ∈ rest, p.skips expired locked k = q.skips expired locked k := by
    intro k inRest
    have different : k ≠ x := fun equal => fresh (equal ▸ inRest)
    simp [skips, others k different]
  obtain ⟨front, back, first⟩ := walk_congr rest same
  constructor
  · rw [available, available, head, queue, List.find?_cons, skipped]
    exact first
  · ext1
    · simp [afterPop, head, skipped, queue, back]
    · funext k
      by_cases isHead : k = x
      · subst isHead
        have notFront : k ∉ rest.takeWhile (q.skips expired locked) :=
          fun inFront => fresh ((List.takeWhile_sublist _).subset inFront)
        simp [afterPop, head, skipped, queue, notFront, self]
      · simp [afterPop, head, skipped, queue, front, isHead, others k isHead]

end Pop

end FreePool

end RedisAllocator

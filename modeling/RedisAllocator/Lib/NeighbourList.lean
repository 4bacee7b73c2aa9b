import Mathlib.Data.List.Basic
import Mathlib.Data.List.Nodup

/-!
# Neighbours in a duplicate-free list

A doubly linked list stores, beside each element, the element before it and the
element after it, with one value `nil` for "none".  `predIn` and `succIn` read
these neighbours off the list itself.  The lemmas say how the neighbours change
when an element is appended or erased: exactly the pointer updates of a doubly
linked list, at most one neighbour on each side.
-/

set_option autoImplicit false

namespace NeighbourList

variable {K : Type} [DecidableEq K]

/-- The element after `k`, or `nil`. -/
def succIn (nil : K) : List K → K → K
  | [], _ => nil
  | [_], _ => nil
  | a :: b :: rest, k => if a = k then b else succIn nil (b :: rest) k

/-- The element before `k`, or `nil`. -/
def predIn (nil : K) : List K → K → K
  | [], _ => nil
  | [_], _ => nil
  | a :: b :: rest, k => if b = k then a else predIn nil (b :: rest) k

variable {nil : K}

/-! ## Reading the neighbours off a split -/

theorem succIn_split (front back : List K) (k : K) (fresh : k ∉ front) :
    succIn nil (front ++ k :: back) k = back.headD nil := by
  induction front with
  | nil => cases back <;> simp [succIn]
  | cons a rest ih =>
      rw [List.mem_cons, not_or] at fresh
      have later := ih fresh.2
      cases rest with
      | nil => simpa [succIn, Ne.symm fresh.1] using later
      | cons b rest => simpa [succIn, Ne.symm fresh.1] using later

theorem succIn_cons_of_ne {a k : K} (different : a ≠ k) (rest : List K) :
    succIn nil (a :: rest) k = succIn nil rest k := by
  cases rest with
  | nil => rfl
  | cons b rest => rw [succIn, if_neg different]

theorem succIn_cons_self (a : K) (rest : List K) : succIn nil (a :: rest) a = rest.headD nil :=
  succIn_split [] rest a List.not_mem_nil

theorem predIn_cons_of_notMem (a : K) (rest : List K) (k : K) (fresh : k ∉ rest) :
    predIn nil (a :: rest) k = nil := by
  induction rest generalizing a with
  | nil => rfl
  | cons b rest ih =>
      rw [List.mem_cons, not_or] at fresh
      rw [predIn, if_neg (Ne.symm fresh.1), ih b fresh.2]

theorem predIn_split (front back : List K) (k : K) (unique : (front ++ k :: back).Nodup) :
    predIn nil (front ++ k :: back) k = front.getLastD nil := by
  induction front with
  | nil =>
      have fresh : k ∉ back := (List.nodup_cons.mp unique).1
      simpa using predIn_cons_of_notMem k back k fresh
  | cons a rest ih =>
      rw [List.cons_append, List.nodup_cons] at unique
      have later := ih unique.2
      cases rest with
      | nil => simp [predIn]
      | cons b rest =>
          have different : b ≠ k := by
            intro same
            subst same
            exact (List.nodup_cons.mp unique.2).1 (by simp)
          simpa [predIn, different, List.getLastD_cons] using later

omit [DecidableEq K] in
theorem getLastD_split (front back : List K) (k fallback : K) :
    (front ++ k :: back).getLastD fallback = back.getLastD k := by
  induction front generalizing fallback with
  | nil => exact List.getLastD_cons
  | cons a rest ih => rw [List.cons_append, List.getLastD_cons, ih]

omit [DecidableEq K] in
theorem notMem_of_split {front back : List K} {k : K} (unique : (front ++ k :: back).Nodup) :
    k ∉ front ∧ k ∉ back := by
  rw [List.nodup_append, List.nodup_cons] at unique
  obtain ⟨_, ⟨later, _⟩, apart⟩ := unique
  exact ⟨fun earlier => apart k earlier k (by simp) rfl, later⟩

theorem succIn_mem {items : List K} {k : K} (member : k ∈ items) (unique : items.Nodup)
    (some : succIn nil items k ≠ nil) : succIn nil items k ∈ items := by
  obtain ⟨front, back, rfl⟩ := List.append_of_mem member
  rw [succIn_split front back k (notMem_of_split unique).1] at some ⊢
  cases back with
  | nil => exact absurd rfl some
  | cons b back => simp

theorem predIn_mem {items : List K} {k : K} (member : k ∈ items) (unique : items.Nodup)
    (some : predIn nil items k ≠ nil) : predIn nil items k ∈ items := by
  obtain ⟨front, back, rfl⟩ := List.append_of_mem member
  rw [predIn_split front back k unique] at some ⊢
  rcases List.eq_nil_or_concat front with rfl | ⟨front, b, rfl⟩
  · exact absurd rfl some
  · simp

theorem predIn_mem_dropLast {items : List K} {k : K} (member : k ∈ items) (unique : items.Nodup)
    (some : predIn nil items k ≠ nil) : predIn nil items k ∈ items.dropLast := by
  obtain ⟨front, back, rfl⟩ := List.append_of_mem member
  rw [predIn_split front back k unique] at some ⊢
  rw [List.dropLast_append_of_ne_nil (List.cons_ne_nil k back)]
  rcases List.eq_nil_or_concat front with rfl | ⟨front, b, rfl⟩
  · exact absurd rfl some
  · simp

theorem predIn_ne_succIn {items : List K} {k : K} (member : k ∈ items) (unique : items.Nodup)
    (some : predIn nil items k ≠ nil) : predIn nil items k ≠ succIn nil items k := by
  obtain ⟨front, back, rfl⟩ := List.append_of_mem member
  rw [predIn_split front back k unique] at some ⊢
  rw [succIn_split front back k (notMem_of_split unique).1]
  rcases List.eq_nil_or_concat front with rfl | ⟨front, a, rfl⟩
  · exact absurd rfl some
  · cases back with
    | nil => simpa using some
    | cons b back =>
        have apart := (List.nodup_append.mp unique).2.2 a (by simp) b (by simp)
        simpa using apart

theorem predIn_ne_self {items : List K} {k : K} (member : k ∈ items) (unique : items.Nodup)
    (noNil : nil ∉ items) : predIn nil items k ≠ k := by
  obtain ⟨front, back, rfl⟩ := List.append_of_mem member
  rw [predIn_split front back k unique]
  rcases List.eq_nil_or_concat front with rfl | ⟨front, a, rfl⟩
  · rintro same
    exact noNil (by simp [show nil = k from same])
  · have apart := (List.nodup_append.mp unique).2.2 a (by simp) k (by simp)
    simpa using apart

theorem succIn_ne_self {items : List K} {k : K} (member : k ∈ items) (unique : items.Nodup)
    (noNil : nil ∉ items) : succIn nil items k ≠ k := by
  obtain ⟨front, back, rfl⟩ := List.append_of_mem member
  rw [succIn_split front back k (notMem_of_split unique).1]
  cases back with
  | nil =>
      rintro same
      exact noNil (by simp [show nil = k from same])
  | cons b back =>
      rintro same
      exact (notMem_of_split unique).2 (by simp [show b = k from same])

theorem predIn_eq_nil_iff {items : List K} {k : K} (member : k ∈ items) (unique : items.Nodup)
    (noNil : nil ∉ items) : predIn nil items k = nil ↔ items.headD nil = k := by
  obtain ⟨front, back, rfl⟩ := List.append_of_mem member
  rw [predIn_split front back k unique]
  rcases List.eq_nil_or_concat front with rfl | ⟨front, a, rfl⟩
  · simp
  · have aSome : a ≠ nil := fun same => noNil (by simp [same])
    have fresh := (notMem_of_split unique).1
    constructor
    · intro isNil
      exact absurd (by simpa using isNil) aSome
    · intro isHead
      refine absurd ?_ fresh
      cases front with
      | nil => simp_all
      | cons b front => simp_all

theorem succIn_eq_nil_iff {items : List K} {k : K} (member : k ∈ items) (unique : items.Nodup)
    (noNil : nil ∉ items) : succIn nil items k = nil ↔ items.getLastD nil = k := by
  obtain ⟨front, back, rfl⟩ := List.append_of_mem member
  have fresh := notMem_of_split unique
  rw [succIn_split front back k fresh.1, getLastD_split]
  cases back with
  | nil => exact iff_of_true rfl rfl
  | cons b back =>
      have bSome : b ≠ nil := fun same => noNil (by simp [same])
      refine iff_of_false bSome ?_
      intro isLast
      rw [List.getLastD_cons] at isLast
      exact fresh.2 (isLast ▸ List.getLastD_mem_cons)

/-! ## The ends -/

section Ends

omit [DecidableEq K]

variable {items : List K}

theorem headD_reverse (items : List K) (fallback : K) :
    items.reverse.headD fallback = items.getLastD fallback := by simp

theorem headD_eq_nil_iff (noNil : nil ∉ items) : items.headD nil = nil ↔ items = [] := by
  cases items with
  | nil => simp
  | cons a rest =>
      have aSome : a ≠ nil := fun same => noNil (by simp [same])
      exact iff_of_false aSome (List.cons_ne_nil a rest)

theorem getLastD_eq_nil_iff (noNil : nil ∉ items) : items.getLastD nil = nil ↔ items = [] := by
  rw [← List.reverse_eq_nil_iff, ← headD_eq_nil_iff (by simpa using noNil), headD_reverse]

theorem headD_mem (some : items.headD nil ≠ nil) : items.headD nil ∈ items := by
  cases items with
  | nil => exact absurd rfl some
  | cons a rest => simp

theorem getLastD_mem (some : items.getLastD nil ≠ nil) : items.getLastD nil ∈ items := by
  rw [← headD_reverse] at some ⊢
  exact List.mem_reverse.mp (headD_mem some)

end Ends

/-! ## The list reversed -/

section Reversed

variable {items : List K}

theorem predIn_reverse (unique : items.Nodup) {k : K} (member : k ∈ items) :
    predIn nil items.reverse k = succIn nil items k := by
  obtain ⟨front, back, rfl⟩ := List.append_of_mem member
  rw [succIn_split front back k (notMem_of_split unique).1]
  have turned : (front ++ k :: back).reverse = back.reverse ++ k :: front.reverse := by simp
  have uniqueTurned : (back.reverse ++ k :: front.reverse).Nodup :=
    turned ▸ List.nodup_reverse.mpr unique
  rw [turned, predIn_split _ _ k uniqueTurned]
  cases back <;> simp

theorem succIn_reverse (unique : items.Nodup) {k : K} (member : k ∈ items) :
    succIn nil items.reverse k = predIn nil items k := by
  have again : predIn nil items.reverse.reverse k = succIn nil items.reverse k :=
    predIn_reverse (List.nodup_reverse.mpr unique) (List.mem_reverse.mpr member)
  rw [List.reverse_reverse] at again
  exact again.symm

end Reversed

theorem predIn_succIn {items : List K} {k : K} (member : k ∈ items) (unique : items.Nodup)
    (some : succIn nil items k ≠ nil) : predIn nil items (succIn nil items k) = k := by
  obtain ⟨front, back, rfl⟩ := List.append_of_mem member
  have next : succIn nil (front ++ k :: back) k = back.headD nil :=
    succIn_split front back k (notMem_of_split unique).1
  rw [next] at some ⊢
  cases back with
  | nil => exact absurd rfl some
  | cons b back =>
      have cut : front ++ k :: b :: back = (front ++ [k]) ++ b :: back := by simp
      rw [List.headD_cons, cut, predIn_split _ back b (cut ▸ unique)]
      simp

/-! ## Appending an element -/

theorem succIn_concat {items : List K} {x k : K} (member : k ∈ items) (unique : items.Nodup) :
    succIn nil (items ++ [x]) k =
      if k = items.getLastD nil then x else succIn nil items k := by
  obtain ⟨front, back, rfl⟩ := List.append_of_mem member
  have fresh := notMem_of_split unique
  rw [List.append_assoc, List.cons_append, succIn_split _ _ _ fresh.1, succIn_split _ _ _ fresh.1,
    getLastD_split]
  cases back with
  | nil => simp
  | cons b back =>
      have different : k ≠ (b :: back).getLastD k := by
        intro same
        rw [List.getLastD_cons] at same
        exact fresh.2 (same ▸ List.getLastD_mem_cons)
      rw [if_neg different]
      rfl

theorem predIn_concat {items : List K} {x k : K} (member : k ∈ items)
    (unique : (items ++ [x]).Nodup) : predIn nil (items ++ [x]) k = predIn nil items k := by
  have smaller : items.Nodup := (List.nodup_append.mp unique).1
  obtain ⟨front, back, rfl⟩ := List.append_of_mem member
  rw [List.append_assoc, List.cons_append] at unique ⊢
  rw [predIn_split _ _ _ unique, predIn_split _ _ _ smaller]

theorem succIn_concat_self {items : List K} {x : K} (fresh : x ∉ items) :
    succIn nil (items ++ [x]) x = nil := succIn_split items [] x fresh

theorem predIn_concat_self {items : List K} {x : K} (unique : (items ++ [x]).Nodup) :
    predIn nil (items ++ [x]) x = items.getLastD nil := predIn_split items [] x unique

/-! ## Erasing an element -/

theorem erase_split {front back : List K} {x : K} (unique : (front ++ x :: back).Nodup) :
    (front ++ x :: back).erase x = front ++ back := by
  rw [List.erase_append_right _ (notMem_of_split unique).1, List.erase_cons_head]

theorem succIn_erase {items : List K} {x k : K} (member : x ∈ items) (unique : items.Nodup)
    (noNil : nil ∉ items) (other : k ∈ items) (different : k ≠ x) :
    succIn nil (items.erase x) k =
      if k = predIn nil items x then succIn nil items x else succIn nil items k := by
  obtain ⟨front, back, rfl⟩ := List.append_of_mem member
  have fresh := notMem_of_split unique
  rw [erase_split unique, predIn_split _ _ _ unique, succIn_split _ _ x fresh.1]
  have apart := (List.nodup_append.mp unique).2.2
  rw [List.mem_append, List.mem_cons] at other
  rcases other with inFront | same | inBack
  · -- `k` stands before `x`: only the last of `front` sees a new successor
    obtain ⟨first, middle, rfl⟩ := List.append_of_mem inFront
    have unique' := (List.nodup_append.mp unique).1
    have fresh' := notMem_of_split unique'
    simp only [List.append_assoc, List.cons_append]
    rw [succIn_split _ _ k fresh'.1, succIn_split _ _ k fresh'.1]
    rw [getLastD_split]
    cases middle with
    | nil => simp
    | cons m middle =>
        have kLast : k ≠ (m :: middle).getLastD k := by
          intro same
          rw [List.getLastD_cons] at same
          exact fresh'.2 (same ▸ List.getLastD_mem_cons)
        rw [if_neg kLast]
        rfl
  · exact absurd same different
  · obtain ⟨middle, last, rfl⟩ := List.append_of_mem inBack
    have kFront : k ∉ front := fun h => apart k h k (by simp) rfl
    have uniqueBack := (List.nodup_cons.mp (List.nodup_append.mp unique).2.1).2
    have kMiddle : k ∉ middle := (notMem_of_split uniqueBack).1
    have notPred : k ≠ front.getLastD nil := by
      rcases List.eq_nil_or_concat front with rfl | ⟨front, f, rfl⟩
      · rintro same
        exact noNil (by simp [show nil = k from same.symm])
      · simpa using fun same : k = f => kFront (by simp [same])
    have before : succIn nil (front ++ x :: (middle ++ k :: last)) k = last.headD nil := by
      have regroup : front ++ x :: (middle ++ k :: last) = (front ++ x :: middle) ++ k :: last := by
        simp
      rw [regroup, succIn_split _ _ _ (by simp [kFront, kMiddle, different])]
    have after : succIn nil (front ++ (middle ++ k :: last)) k = last.headD nil := by
      rw [← List.append_assoc, succIn_split _ _ _ (by simp [kFront, kMiddle])]
    rw [if_neg notPred, before, after]

theorem predIn_erase {items : List K} {x k : K} (member : x ∈ items) (unique : items.Nodup)
    (noNil : nil ∉ items) (other : k ∈ items) (different : k ≠ x) :
    predIn nil (items.erase x) k =
      if k = succIn nil items x then predIn nil items x else predIn nil items k := by
  obtain ⟨front, back, rfl⟩ := List.append_of_mem member
  have fresh := notMem_of_split unique
  have uniqueAfter : (front ++ back).Nodup := by
    rw [← erase_split unique]
    exact unique.erase x
  rw [erase_split unique, predIn_split _ _ x unique, succIn_split _ _ x fresh.1]
  have apart := (List.nodup_append.mp unique).2.2
  rw [List.mem_append, List.mem_cons] at other
  rcases other with inFront | same | inBack
  · obtain ⟨first, middle, rfl⟩ := List.append_of_mem inFront
    have notSucc : k ≠ back.headD nil := by
      cases back with
      | nil =>
          rintro same
          exact noNil (by simp [show nil = k from same.symm])
      | cons b back => simpa using apart k (by simp) b (by simp)
    simp only [List.append_assoc, List.cons_append] at unique uniqueAfter ⊢
    rw [if_neg notSucc, predIn_split _ _ k unique, predIn_split _ _ k uniqueAfter]
  · exact absurd same different
  · -- `k` stands after `x`: only the head of `back` sees a new predecessor
    obtain ⟨middle, last, rfl⟩ := List.append_of_mem inBack
    have regroup : front ++ x :: (middle ++ k :: last) = (front ++ x :: middle) ++ k :: last := by
      simp
    have uniqueBack := (List.nodup_cons.mp (List.nodup_append.mp unique).2.1).2
    have kMiddle := (notMem_of_split uniqueBack).1
    rw [regroup] at unique ⊢
    rw [← List.append_assoc] at uniqueAfter ⊢
    rw [predIn_split _ _ k unique, predIn_split _ _ k uniqueAfter]
    cases middle with
    | nil => simp
    | cons m middle =>
        have kHead : k ≠ m := fun same => kMiddle (by simp [same])
        rw [List.cons_append, List.headD_cons, if_neg kHead, getLastD_split, getLastD_split,
          List.getLastD_cons]

theorem headD_erase {items : List K} {x : K} (member : x ∈ items) (unique : items.Nodup)
    (noNil : nil ∉ items) :
    (items.erase x).headD nil =
      if predIn nil items x = nil then succIn nil items x else items.headD nil := by
  have atHead := predIn_eq_nil_iff member unique noNil
  obtain ⟨front, back, rfl⟩ := List.append_of_mem member
  have fresh := notMem_of_split unique
  rw [erase_split unique, succIn_split _ _ x fresh.1]
  cases front with
  | nil => exact (if_pos (atHead.mpr rfl)).symm
  | cons f front =>
      have different : f ≠ x := fun same => fresh.1 (by simp [same])
      rw [if_neg (fun isNil => different (atHead.mp isNil))]
      rfl

theorem getLastD_erase {items : List K} {x : K} (member : x ∈ items) (unique : items.Nodup)
    (noNil : nil ∉ items) :
    (items.erase x).getLastD nil =
      if succIn nil items x = nil then predIn nil items x else items.getLastD nil := by
  obtain ⟨front, back, rfl⟩ := List.append_of_mem member
  rw [erase_split unique, predIn_split _ _ _ unique,
    succIn_split _ _ x (notMem_of_split unique).1]
  cases back with
  | nil => simp
  | cons b back =>
      have bSome : b ≠ nil := fun same => noNil (by simp [same])
      rw [List.headD_cons, if_neg bSome, getLastD_split, getLastD_split, List.getLastD_cons]

end NeighbourList

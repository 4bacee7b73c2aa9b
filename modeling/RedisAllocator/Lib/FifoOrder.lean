import Mathlib.Data.List.Infix
import Mathlib.Data.List.Nodup
import RedisAllocator.Lib.LabelledRun

/-!
# Queues that lose items and grow at their end

A step of such a queue drops items from anywhere and appends new ones; items it
takes back from the front count as new.  Two items that stay keep their order,
and an item that stays never has more items ahead of it than before.  Over a run
of the system around the queue, the steps that serve an item from ahead of it are
therefore no more than it had ahead of it at the start.
-/

set_option autoImplicit false

namespace FifoOrder

open LabelledRun

variable {K : Type}

/-- What stays keeps its order; what is behind it is new to the queue, or is in `back`. -/
def Advances (back : K → Prop) (old new : List K) : Prop :=
  ∃ kept added, new = kept ++ added ∧ kept.Sublist old ∧ ∀ k ∈ added, k ∉ old ∨ back k

section Advances

variable {back : K → Prop} {old new : List K}

theorem Advances.refl (items : List K) : Advances back items items :=
  ⟨items, [], (List.append_nil items).symm, List.Sublist.refl items, by simp⟩

theorem Advances.of_sublist (fewer : new.Sublist old) : Advances back old new :=
  ⟨new, [], (List.append_nil new).symm, fewer, by simp⟩

theorem Advances.of_append {added : List K} (fresh : ∀ k ∈ added, k ∉ old) :
    Advances back old (old ++ added) :=
  ⟨old, added, rfl, List.Sublist.refl old, fun k isNew => Or.inl (fresh k isNew)⟩

theorem Advances.mono {back' : K → Prop} (weaker : ∀ k, back k → back' k)
    (advances : Advances back old new) : Advances back' old new := by
  obtain ⟨kept, added, split, fewer, fresh⟩ := advances
  exact ⟨kept, added, split, fewer, fun k isNew => (fresh k isNew).imp_right (weaker k)⟩

end Advances

theorem filter_sublist [DecidableEq K] {kept items : List K} (fewer : kept.Sublist items)
    (unique : items.Nodup) : items.filter (· ∈ kept) = kept := by
  induction fewer with
  | slnil => rfl
  | @cons kept items k fewer ih =>
      obtain ⟨fresh, unique'⟩ := List.nodup_cons.mp unique
      have notKept : k ∉ kept := fun isKept => fresh (fewer.subset isKept)
      rw [List.filter_cons_of_neg (by simpa using notKept), ih unique']
  | @cons_cons kept items k fewer ih =>
      obtain ⟨fresh, unique'⟩ := List.nodup_cons.mp unique
      rw [List.filter_cons_of_pos (by simp)]
      congr 1
      rw [← ih unique']
      apply List.filter_congr
      intro j inItems
      have different : j ≠ k := fun same => fresh (same ▸ inItems)
      simp [different, ih unique']

section Order

variable [DecidableEq K] {back : K → Prop} {old new : List K} {j k : K}

omit [DecidableEq K] in
theorem mem_kept {kept added : List K} (fresh : ∀ i ∈ added, i ∉ old ∨ back i) (before : k ∈ old)
    (after : k ∈ kept ++ added) (stays : ¬ back k) : k ∈ kept := by
  rcases List.mem_append.mp after with isKept | isNew
  · exact isKept
  · rcases fresh k isNew with absent | isBack
    · exact absurd before absent
    · exact absurd isBack stays

theorem Advances.order (advances : Advances back old new) (unique : old.Nodup)
    (ahead : [j, k].Sublist old) (first : j ∈ new) (second : k ∈ new) (stays : ¬ back j)
    (staysToo : ¬ back k) : [j, k].Sublist new := by
  obtain ⟨kept, added, rfl, fewer, fresh⟩ := advances
  have jKept := mem_kept fresh (ahead.subset (by simp)) first stays
  have kKept := mem_kept fresh (ahead.subset (by simp)) second staysToo
  have still : [j, k].Sublist kept := by
    rw [← filter_sublist fewer unique]
    have filtered := ahead.filter (· ∈ kept)
    rwa [List.filter_cons_of_pos (by simpa using jKept),
      List.filter_cons_of_pos (by simpa using kKept), List.filter_nil] at filtered
  exact still.trans (List.sublist_append_left kept added)

def ahead (k : K) (items : List K) : List K := items.takeWhile (· ≠ k)

theorem mem_ahead {j k : K} {items : List K} (both : [j, k].Sublist items) (unique : items.Nodup) :
    j ∈ ahead k items := by
  induction items with
  | nil => cases both
  | cons i rest ih =>
      obtain ⟨fresh, unique'⟩ := List.nodup_cons.mp unique
      cases both with
      | cons i later =>
          have different : i ≠ k := fun same => fresh (same ▸ later.subset (by simp))
          rw [ahead, List.takeWhile_cons_of_pos (by simpa using different)]
          exact List.mem_cons_of_mem i (ih later unique')
      | cons_cons i later =>
          have different : j ≠ k := fun same => fresh (same ▸ later.subset (by simp))
          rw [ahead, List.takeWhile_cons_of_pos (by simpa using different)]
          exact List.mem_cons_self ..

theorem ahead_sublist {kept items : List K} (fewer : kept.Sublist items) (unique : items.Nodup)
    (isKept : k ∈ kept) : (ahead k kept).Sublist (ahead k items) := by
  induction fewer with
  | slnil => cases isKept
  | @cons kept items i fewer ih =>
      obtain ⟨fresh, unique'⟩ := List.nodup_cons.mp unique
      have different : i ≠ k := fun same => fresh (same ▸ fewer.subset isKept)
      rw [ahead, ahead, List.takeWhile_cons_of_pos (by simpa using different)]
      exact (ih unique' isKept).cons i
  | @cons_cons kept items i fewer ih =>
      obtain ⟨fresh, unique'⟩ := List.nodup_cons.mp unique
      by_cases same : i = k
      · rw [ahead, List.takeWhile_cons_of_neg (by simpa using same)]
        exact List.nil_sublist _
      · have inRest : k ∈ kept := (List.mem_cons.mp isKept).resolve_left (Ne.symm same)
        rw [ahead, ahead, List.takeWhile_cons_of_pos (by simpa using same),
          List.takeWhile_cons_of_pos (by simpa using same)]
        exact (ih unique' inRest).cons_cons i

theorem ahead_append {kept : List K} (isKept : k ∈ kept) (added : List K) :
    ahead k (kept ++ added) = ahead k kept := by
  induction kept with
  | nil => cases isKept
  | cons i rest ih =>
      by_cases same : i = k
      · rw [ahead, ahead, List.cons_append, List.takeWhile_cons_of_neg (by simpa using same),
          List.takeWhile_cons_of_neg (by simpa using same)]
      · have inRest : k ∈ rest := (List.mem_cons.mp isKept).resolve_left (Ne.symm same)
        rw [ahead, ahead, List.cons_append, List.takeWhile_cons_of_pos (by simpa using same),
          List.takeWhile_cons_of_pos (by simpa using same)]
        exact congrArg (i :: ·) (ih inRest)

theorem Advances.ahead_sublist (advances : Advances back old new) (unique : old.Nodup)
    (before : k ∈ old) (after : k ∈ new) (stays : ¬ back k) :
    (ahead k new).Sublist (ahead k old) := by
  obtain ⟨kept, added, rfl, fewer, fresh⟩ := advances
  have isKept := mem_kept fresh before after stays
  rw [ahead_append isKept]
  exact FifoOrder.ahead_sublist fewer unique isKept

theorem Advances.ahead_lt (advances : Advances back old new) (unique : old.Nodup)
    (before : k ∈ old) (after : k ∈ new) (stays : ¬ back k) (served : j ∈ ahead k old)
    (gone : j ∉ ahead k new) : (ahead k new).length < (ahead k old).length := by
  have fewer := advances.ahead_sublist unique before after stays
  refine Nat.lt_of_le_of_ne fewer.length_le fun same => gone ?_
  rw [fewer.eq_of_length same]
  exact served

end Order

/-! ## Over runs -/

section Runs

variable [DecidableEq K] {State Label : Type} {step : State → Label → State → Prop}
  {queue : State → List K} {good : State → Prop}

/-- Two items that wait through a run keep their order. -/
theorem order_of_run {j k : K} (unique : ∀ s, good s → (queue s).Nodup)
    (waits : Label → Prop)
    (keep : ∀ s label s', good s → step s label s' → good s' ∧
      (waits label → ∃ back : K → Prop, Advances back (queue s) (queue s') ∧
        ¬ back j ∧ ¬ back k ∧ j ∈ queue s' ∧ k ∈ queue s'))
    {s final : State} {labels : List Label} (run : Run step s labels final) (start : good s)
    (ahead : [j, k].Sublist (queue s)) (every : ∀ label ∈ labels, waits label) :
    [j, k].Sublist (queue final) := by
  have both := run.invariant (fun s => good s ∧ [j, k].Sublist (queue s)) waits
    (fun s label s' holds waiting fired => by
      obtain ⟨good', advance⟩ := keep s label s' holds.1 fired
      obtain ⟨back, advances, stays, staysToo, first, second⟩ := advance waiting
      exact ⟨good', advances.order (unique s holds.1) holds.2 first second stays staysToo⟩)
    ⟨start, ahead⟩ every
  exact both.2

/-- The steps that serve from ahead of a waiting item use up what is ahead of it. -/
theorem ahead_bound_of_run {k : K} (serves : Label → Bool) (waits : Label → Prop)
    (keep : ∀ s label s', good s → k ∈ queue s → step s label s' → waits label →
      good s' ∧ k ∈ queue s' ∧
        (ahead k (queue s')).length + (serves label).toNat ≤ (ahead k (queue s)).length)
    {s final : State} {labels : List Label} (run : Run step s labels final) (start : good s)
    (present : k ∈ queue s) (every : ∀ label ∈ labels, waits label) :
    (ahead k (queue final)).length + labels.countP serves ≤ (ahead k (queue s)).length := by
  induction run with
  | done => simp
  | @fire s middle final label rest first later ih =>
      rw [List.forall_mem_cons] at every
      obtain ⟨good', present', fewer⟩ := keep s label middle start present first every.1
      have bound := ih good' present' every.2
      cases served : serves label with
      | true =>
          rw [served, Bool.toNat_true] at fewer
          rw [List.countP_cons_of_pos served]
          omega
      | false =>
          rw [served, Bool.toNat_false] at fewer
          rw [List.countP_cons_of_neg (by simp [served])]
          omega

end Runs

end FifoOrder

import Mathlib.Order.MinMax
import Mathlib.Order.OrderDual

/-!
# Registers that take what passes a comparison

A register holds at most one value and takes an offer that passes a comparison with
it; an empty one takes every offer.  Under a strict order it ends with the greatest
offer.  Under a comparison that tolerates some loss, the losses of a run add up.
-/

set_option autoImplicit false

namespace ComparingRegister

variable {α : Type}

def offer (passes : α → α → Bool) (held : Option α) (v : α) : Bool × Option α :=
  if held.all (passes v) then (true, some v) else (false, held)

def offers (passes : α → α → Bool) : Option α → List α → List Bool × Option α
  | held, [] => ([], held)
  | held, v :: rest =>
    let (taken, held') := offer passes held v
    let (answers, final) := offers passes held' rest
    (taken :: answers, final)

/-- Which values of a sequence pass against all before them. -/
def records (passes : α → α → Bool) : List α → List α → List Bool
  | _, [] => []
  | before, v :: rest => before.all (passes v) :: records passes (before ++ [v]) rest

theorem offers_cons (passes : α → α → Bool) (held : Option α) (v : α) (rest : List α) :
    offers passes held (v :: rest) =
      ((offer passes held v).1 :: (offers passes (offer passes held v).2 rest).1,
        (offers passes (offer passes held v).2 rest).2) := rfl

theorem offers_append (passes : α → α → Bool) (held : Option α) (values later : List α) :
    (offers passes held (values ++ later)).2 =
      (offers passes (offers passes held values).2 later).2 := by
  induction values generalizing held with
  | nil => rfl
  | cons v rest ih => rw [List.cons_append, offers_cons, ih, offers_cons]

/-! ## A strict order -/

section Strict

variable [LinearOrder α]

theorem max?_concat (before : List α) (v : α) :
    (before ++ [v]).max? = some (before.max?.elim v (max · v)) := by
  cases before with
  | nil => rfl
  | cons first rest => rw [List.cons_append, List.max?_cons', List.foldl_append]; rfl

theorem all_lt_eq (before : List α) (v : α) :
    (before.all fun w => w < v) = before.max?.all fun w => w < v := by
  cases greatest : before.max? with
  | none => rw [List.max?_eq_none_iff.mp greatest]; rfl
  | some m =>
      obtain ⟨present, bound⟩ := List.max?_eq_some_iff.mp greatest
      rw [Bool.eq_iff_iff, List.all_eq_true, Option.all_some, decide_eq_true_iff]
      constructor
      · exact fun exceeds => of_decide_eq_true (exceeds m present)
      · exact fun exceeds w inBefore => decide_eq_true ((bound w inBefore).trans_lt exceeds)

theorem offers_lt_of_max (before values : List α) :
    offers (fun v held => held < v) before.max? values =
      (records (fun v held => held < v) before values, (before ++ values).max?) := by
  induction values generalizing before with
  | nil => rw [List.append_nil]; rfl
  | cons v rest ih =>
      have step : offer (fun v held => held < v) before.max? v =
          (before.all fun w => w < v, (before ++ [v]).max?) := by
        rw [offer, max?_concat, all_lt_eq]
        cases before.max? with
        | none => rfl
        | some m =>
            rw [Option.all_some, Option.elim_some]
            by_cases exceeds : m < v
            · rw [if_pos (decide_eq_true exceeds), decide_eq_true exceeds, max_eq_right exceeds.le]
            · rw [if_neg (by simpa using exceeds), decide_eq_false exceeds,
                max_eq_left (not_lt.mp exceeds)]
      rw [offers_cons, step, ih, records, List.append_assoc]
      rfl

/-- A maximum register: an offer is taken exactly if it exceeds everything before it. -/
theorem offers_lt (held : Option α) (values : List α) :
    offers (fun v held => held < v) held values =
      (records (fun v held => held < v) held.toList values, (held.toList ++ values).max?) := by
  rw [← offers_lt_of_max]
  cases held <;> rfl

/-- A minimum register is a maximum register of the dual order. -/
theorem offers_gt (held : Option α) (values : List α) :
    offers (fun v held => v < held) held values =
      (records (fun v held => v < held) held.toList values, (held.toList ++ values).min?) := by
  have dual := offers_lt (α := αᵒᵈ) held values
  have least : (held.toList ++ values).min? = List.max? (α := αᵒᵈ) (held.toList ++ values) := by
    cases held.toList ++ values <;> rfl
  rw [least]
  exact dual

end Strict

/-! ## A comparison that tolerates losses -/

section Tolerant

-- `within n v held`: the register holds `v` or better, but for `n` losses
variable {passes : α → α → Bool} (within : Nat → α → α → Prop)
  (refl : ∀ v, within 0 v v)
  (trans : ∀ {n m u v w}, within n u v → within m v w → within (n + m) u w)
  (weaken : ∀ {n m v w}, n ≤ m → within n v w → within m v w)
  (taken : ∀ {v held}, passes v held = true → within 1 held v)
  (refused : ∀ {v held}, passes v held = false → within 0 v held)
include refl trans weaken taken

theorem offers_within_held (values : List α) (held : α) :
    ∃ final, (offers passes (some held) values).2 = some final ∧
      within values.length held final := by
  induction values generalizing held with
  | nil => exact ⟨held, rfl, refl held⟩
  | cons v rest ih =>
      rw [offers_cons, offer, Option.all_some]
      by_cases isTaken : passes v held = true
      · rw [if_pos isTaken]
        obtain ⟨final, ends, close⟩ := ih v
        exact ⟨final, ends, weaken (Nat.add_comm 1 _).le (trans (taken isTaken) close)⟩
      · rw [if_neg isTaken]
        obtain ⟨final, ends, close⟩ := ih held
        exact ⟨final, ends, weaken (Nat.le_succ _) close⟩

include refused

theorem offers_within_offer (held : Option α) (before : List α) (v : α) (after : List α) :
    ∃ final, (offers passes held (before ++ v :: after)).2 = some final ∧
      within after.length v final := by
  have kept : ∃ current, (offer passes (offers passes held before).2 v).2 = some current ∧
      within 0 v current := by
    rw [offer]
    split
    · exact ⟨v, rfl, refl v⟩
    · rename_i notTaken
      cases current : (offers passes held before).2 with
      | none =>
          rw [current] at notTaken
          exact absurd rfl notTaken
      | some held' =>
          rw [current, Option.all_some, Bool.not_eq_true] at notTaken
          exact ⟨held', rfl, refused notTaken⟩
  obtain ⟨current, holds, close⟩ := kept
  obtain ⟨final, ends, later⟩ := offers_within_held within refl trans weaken taken after current
  refine ⟨final, ?_, weaken (Nat.zero_add _).le (trans close later)⟩
  rw [offers_append, offers_cons, holds]
  exact ends

theorem offers_within {held : Option α} {values before after : List α} {v : α}
    (cut : held.toList ++ values = before ++ v :: after) :
    ∃ final, (offers passes held values).2 = some final ∧ within after.length v final := by
  cases held with
  | none =>
      rw [Option.toList_none, List.nil_append] at cut
      rw [cut]
      exact offers_within_offer within refl trans weaken taken refused none before v after
  | some start =>
      rcases List.cons_eq_append_iff.mp cut with ⟨_, same⟩ | ⟨before', _, inValues⟩
      · obtain ⟨rfl, rfl⟩ := List.cons.inj same
        exact offers_within_held within refl trans weaken taken _ v
      · change values = before' ++ v :: after at inValues
        rw [inValues]
        exact offers_within_offer within refl trans weaken taken refused (some start) before' v after

end Tolerant

end ComparingRegister

import RedisAllocator.Codec.LuaNumber
import RedisAllocator.Lib.GreedyMatch
import RedisAllocator.Pool.Runs

/-!
# The string form of a pool entry

`join_pool_value` and `split_pool_value` of the scripts.  The other modules keep
pool entries decoded; here is when the strings in the hash say the same.
-/

set_option autoImplicit false

namespace RedisAllocator

/-- `join_pool_value`; `none` is Lua's `nil`. -/
def joinPoolValue (prev next : String) (expiry : Option Int) : String :=
  prev ++ poolValueSep ++ next ++ poolValueSep ++ Lua.tostring (expiry.getD (-1))

/-- `split_pool_value`: the greedy match of `(.*)||(.*)||(.*)`, which yields `nil` three times
where it fails, and `tonumber` of its last capture. -/
def splitPoolValue (value : Option String) : Option String × Option String × Option Rat :=
  match value with
  | none => (some "", some "", some (-1))
  | some value =>
    if value = "" then (some "", some "", some (-1))
    else
      match GreedyMatch.threeFields '|' value.toList with
      | some (prev, next, expiry) =>
        (some (String.ofList prev), some (String.ofList next),
          Lua.tonumber (String.ofList expiry))
      | none => (none, none, none)

/-- What a script stores in the pointer fields of an entry. -/
def Storable (name : String) : Prop :=
  name = "" ∨ name = allocatedSentinel ∨ validateKey name = .ok ()

theorem separator_notInfix_of_validateKey {key : String} (accepted : validateKey key = .ok ()) :
    ¬ poolValueSep.toList <:+: key.toList := by
  rw [validateKey] at accepted
  split at accepted
  · cases accepted
  · split at accepted
    · cases accepted
    · assumption

theorem Storable.unseparated {name : String} (storable : Storable name) :
    ¬ ['|', '|'] <:+: name.toList := by
  rcases storable with rfl | rfl | accepted
  · decide
  · decide
  · exact separator_notInfix_of_validateKey accepted

theorem toList_joinPoolValue (prev next : String) (expiry : Int) :
    (joinPoolValue prev next (some expiry)).toList =
      prev.toList ++ ['|', '|'] ++ next.toList ++ ['|', '|'] ++ (Lua.tostring expiry).toList := by
  simp [joinPoolValue, poolValueSep]

theorem splitPoolValue_join_iff (prev next : String) {expiry : Int}
    (small : expiry.natAbs < 10 ^ 14) :
    splitPoolValue (some (joinPoolValue prev next (some expiry))) =
      (some prev, some next, some (expiry : Rat)) ↔
    GreedyMatch.threeFields '|' (joinPoolValue prev next (some expiry)).toList =
      some (prev.toList, next.toList, (Lua.tostring expiry).toList) := by
  have notEmpty : joinPoolValue prev next (some expiry) ≠ "" := by
    intro empty
    have noSymbols := toList_joinPoolValue prev next expiry
    rw [empty] at noSymbols
    simp at noSymbols
  rw [splitPoolValue, if_neg notEmpty]
  cases found : GreedyMatch.threeFields '|' (joinPoolValue prev next (some expiry)).toList with
  | none => simp
  | some fields =>
      obtain ⟨prev', next', expiry'⟩ := fields
      simp only [Prod.mk.injEq, Option.some.injEq]
      constructor
      · rintro ⟨rfl, rfl, _⟩
        have whole := GreedyMatch.eq_of_threeFields found
        rw [toList_joinPoolValue, String.toList_ofList, String.toList_ofList] at whole
        rw [String.toList_ofList, String.toList_ofList, List.append_cancel_left whole]
        exact ⟨rfl, rfl, rfl⟩
      · rintro ⟨rfl, rfl, rfl⟩
        simp [Lua.tonumber_tostring small]

/-- A pool entry comes back as it was stored exactly if its `next` does not begin with a bar:
`_validate_keys` rejects the separator, and a key that begins with half of one completes the
separator before it. -/
theorem poolValue_roundTrip_iff (prev next : String) (storable : Storable next) {expiry : Int}
    (small : expiry.natAbs < 10 ^ 14) :
    splitPoolValue (some (joinPoolValue prev next (some expiry))) =
      (some prev, some next, some (expiry : Rat)) ↔
    next.toList.head? ≠ some '|' := by
  rw [splitPoolValue_join_iff prev next small, toList_joinPoolValue]
  exact GreedyMatch.threeFields_join_iff prev.toList storable.unseparated
    (Lua.bar_notMem_tostring _)

theorem poolValue_roundTrip_iff_bar :
    splitPoolValue (some (joinPoolValue "a|" "b|" (some 5))) =
      (some "a|", some "b|", some ((5 : Int) : Rat)) ↔ ("b|").toList.head? ≠ some '|' :=
  poolValue_roundTrip_iff "a|" "b|" (Or.inr (Or.inr (by decide))) (by decide)

/-- `a` before `|b`: the entry of `a` is read as `b` behind a predecessor `a|`. -/
theorem barredKey_misread :
    Storable "a" ∧ Storable "|b" ∧
    splitPoolValue (some (joinPoolValue "a" "|b" (some 5))) ≠
      (some "a", some "|b", some ((5 : Int) : Rat)) ∧
    GreedyMatch.threeFields '|' (joinPoolValue "a" "|b" (some 5)).toList =
      some ("a|".toList, "b".toList, "5".toList) := by
  refine ⟨Or.inr (Or.inr (by decide)), Or.inr (Or.inr (by decide)), ?_, by decide⟩
  rw [ne_eq, splitPoolValue_join_iff "a" "|b" (by decide)]
  decide

/-! ## The string of an entry -/

def PoolEntry.value (entry : PoolEntry) : String :=
  joinPoolValue entry.prev entry.next (some entry.expiry)

end RedisAllocator

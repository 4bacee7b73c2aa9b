import Mathlib.Tactic.NormNum
import RedisAllocator.Diagnostics.Invariants

/-!
# How the diagnostics read a stored entry

`parse_pool_entry` cuts the last field from the right and the other two from the
left.  The scripts cut both from the right, so the two readers part where a field
has a bar at its edge.  An expiry that Lua writes with an exponent is no `int`.
-/

set_option autoImplicit false

namespace RedisAllocator

/-! ## Reading an expiry -/

namespace Python

theorem readDigits_of_isDigit {text : List Char} (allDigits : ∀ c ∈ text, c.isDigit = true)
    (value : Nat) : readDigits value text = some (Nat.ofDigitChars 10 text value) := by
  induction text generalizing value with
  | nil => rw [readDigits, Nat.ofDigitChars_nil]
  | cons c text ih =>
      have isDigit : c.isDigit = true := allDigits c (List.mem_cons_self ..)
      unfold readDigits
      split
      · rename_i empty
        cases empty
      · rename_i same
        cases same
        cases isDigit
      · rename_i same
        cases same
        rw [if_pos isDigit, ih fun d present => allDigits d (List.mem_cons_of_mem _ present),
          Nat.ofDigitChars_cons]

theorem digits_toDigits (n : Nat) : digits (Nat.toDigits 10 n) = some (n : Int) := by
  have allDigits : ∀ c ∈ Nat.toDigits 10 n, c.isDigit = true :=
    fun _ => Lua.isDigit_of_mem_toDigits
  have value : Nat.ofDigitChars 10 (Nat.toDigits 10 n) 0 = n := Nat.ofDigitChars_ten_toDigits
  cases written : Nat.toDigits 10 n with
  | nil => exact absurd written Nat.toDigits_ne_nil
  | cons c text =>
      rw [written] at allDigits value
      rw [digits, if_pos (allDigits c (List.mem_cons_self ..)),
        readDigits_of_isDigit fun d present => allDigits d (List.mem_cons_of_mem _ present)]
      rw [Nat.ofDigitChars_cons, Nat.mul_zero, Nat.zero_add] at value
      rw [value]
      rfl

theorem int_tostring {n : Int} (small : n.natAbs < 10 ^ 14) :
    int (Lua.tostring n).toList = some n := by
  rw [int, Lua.trim_of_forall (Lua.isSpace_of_mem_tostring small), Lua.toList_tostring small]
  split
  · rw [Lua.signed, digits_toDigits, Option.map_some, Option.some.injEq]
    omega
  · rw [Lua.signed_of_isDigit _ fun _ => Lua.isDigit_of_mem_toDigits, digits_toDigits,
      Option.some.injEq]
    omega

theorem readDigits_eq_none {text : List Char} {c : Char} (present : c ∈ text)
    (foreign : c.isDigit = false ∧ c ≠ '_') (value : Nat) : readDigits value text = none := by
  induction value, text using readDigits.induct with
  | case1 value => cases present
  | case2 value d text isDigit ih =>
      have behind : c ∈ text := by
        rcases List.mem_cons.mp present with rfl | later
        · exact absurd rfl foreign.2
        · rcases List.mem_cons.mp later with rfl | last
          · rw [isDigit] at foreign
            cases foreign.1
          · exact last
      rw [readDigits, if_pos isDigit, ih behind]
  | case3 value d text notDigit => rw [readDigits, if_neg notDigit]
  | case4 value d text single isDigit ih =>
      have behind : c ∈ text := by
        rcases List.mem_cons.mp present with rfl | later
        · rw [isDigit] at foreign
          cases foreign.1
        · exact later
      rw [readDigits.eq_3 _ _ _ single, if_pos isDigit, ih behind]
  | case5 value d text single notDigit => rw [readDigits.eq_3 _ _ _ single, if_neg notDigit]

theorem digits_eq_none {text : List Char} {c : Char} (present : c ∈ text)
    (foreign : c.isDigit = false ∧ c ≠ '_') : digits text = none := by
  cases text with
  | nil => cases present
  | cons d text =>
      rw [digits]
      split
      · rename_i isDigit
        have behind : c ∈ text := by
          rcases List.mem_cons.mp present with rfl | later
          · rw [isDigit] at foreign
            cases foreign.1
          · exact later
        rw [readDigits_eq_none behind foreign, Option.map_none]
      · rfl

theorem int_eq_none {text : List Char} (present : 'e' ∈ text) : int text = none := by
  have kept : 'e' ∈ Lua.trim text := Lua.mem_trim present (by decide)
  rw [int, Lua.signed.eq_def]
  split
  · rename_i same
    rw [same] at kept
    rw [digits_eq_none ((List.mem_cons.mp kept).resolve_left (by decide)) (by decide),
      Option.map_none]
  · rename_i same
    rw [same] at kept
    exact digits_eq_none ((List.mem_cons.mp kept).resolve_left (by decide)) (by decide)
  · exact digits_eq_none kept (by decide)

theorem int_tostring_large {n : Int} (large : ¬ n.natAbs < 10 ^ 14) :
    int (Lua.tostring n).toList = none := by
  have exponent : 'e' ∈ Lua.scientific n.natAbs := by simp [Lua.scientific]
  apply int_eq_none
  rw [Lua.tostring, if_neg large, String.toList_ofList]
  split
  · exact List.mem_cons_of_mem _ exponent
  · exact exponent

end Python

/-! ## Reading a stored entry -/

theorem rpartition_fields (prev next : String) {numeral : String} (plain : '|' ∉ numeral.toList) :
    Python.rpartition (prev ++ poolValueSep ++ next ++ poolValueSep ++ numeral).toList =
      (prev.toList ++ ['|', '|'] ++ next.toList, numeral.toList) := by
  have fields : (prev ++ poolValueSep ++ next ++ poolValueSep ++ numeral).toList =
      prev.toList ++ ['|', '|'] ++ next.toList ++ ['|', '|'] ++ numeral.toList := by
    simp [poolValueSep]
  rw [fields, Python.rpartition, GreedyMatch.cutLast_append _ plain]
  rfl

theorem parsePoolEntry_of_cut {prev next numeral : String} (plain : '|' ∉ numeral.toList)
    {prev' next' : List Char}
    (cut : GreedyMatch.cutFirst '|' (prev.toList ++ ['|', '|'] ++ next.toList) =
      some (prev', next')) :
    parsePoolEntry (prev ++ poolValueSep ++ next ++ poolValueSep ++ numeral) =
      ⟨String.ofList prev', String.ofList next', (Python.int numeral.toList).getD (-1)⟩ := by
  have read : Python.partition (prev.toList ++ ['|', '|'] ++ next.toList) = (prev', next') := by
    rw [Python.partition, cut, Option.getD_some]
  rw [parsePoolEntry, rpartition_fields prev next plain]
  simp only [read]

/-- A bar at the end of `prev` moves over to `next`. -/
theorem parsePoolEntry_bar {prev : String} (next : String) {front : List Char}
    (unseparated : ¬ ['|', '|'] <:+: prev.toList) (ends : prev.toList = front ++ ['|'])
    {numeral : String} (plain : '|' ∉ numeral.toList) :
    parsePoolEntry (prev ++ poolValueSep ++ next ++ poolValueSep ++ numeral) =
      ⟨String.ofList front, String.ofList ('|' :: next.toList),
        (Python.int numeral.toList).getD (-1)⟩ := by
  apply parsePoolEntry_of_cut plain
  rw [ends] at unseparated ⊢
  exact GreedyMatch.cutFirst_append_bar unseparated _

theorem parsePoolEntry_iff {prev : String} (next : String)
    (unseparated : ¬ ['|', '|'] <:+: prev.toList) {numeral : String}
    (plain : '|' ∉ numeral.toList) (expiry : Int) :
    parsePoolEntry (prev ++ poolValueSep ++ next ++ poolValueSep ++ numeral) =
        ⟨prev, next, expiry⟩ ↔
      prev.toList.getLast? ≠ some '|' ∧ (Python.int numeral.toList).getD (-1) = expiry := by
  by_cases barred : prev.toList.getLast? = some '|'
  · obtain ⟨front, ends⟩ := List.getLast?_eq_some_iff.mp barred
    rw [parsePoolEntry_bar next unseparated ends plain]
    refine iff_of_false (fun same => ?_) fun good => good.1 barred
    have shorter : String.ofList front = prev := congrArg PoolEntry.prev same
    rw [← shorter, String.toList_ofList] at ends
    simpa using congrArg List.length ends
  · rw [parsePoolEntry_of_cut plain (GreedyMatch.cutFirst_append unseparated barred _)]
    simp [barred]

theorem parsePoolEntry_value {entry : PoolEntry} (unseparated : ¬ ['|', '|'] <:+: entry.prev.toList)
    (plain : entry.prev.toList.getLast? ≠ some '|') :
    parsePoolEntry entry.value =
      ⟨entry.prev, entry.next, (Python.int (Lua.tostring entry.expiry).toList).getD (-1)⟩ :=
  (parsePoolEntry_iff entry.next unseparated (Lua.bar_notMem_tostring _) _).mpr ⟨plain, rfl⟩

theorem parsePoolEntry_value_bar {entry : PoolEntry} {front : List Char}
    (unseparated : ¬ ['|', '|'] <:+: entry.prev.toList)
    (ends : entry.prev.toList = front ++ ['|']) :
    parsePoolEntry entry.value =
      ⟨String.ofList front, String.ofList ('|' :: entry.next.toList),
        (Python.int (Lua.tostring entry.expiry).toList).getD (-1)⟩ :=
  parsePoolEntry_bar entry.next unseparated ends (Lua.bar_notMem_tostring _)

theorem getD_int_tostring (expiry : Int) :
    (Python.int (Lua.tostring expiry).toList).getD (-1) =
      if expiry.natAbs < 10 ^ 14 then expiry else -1 := by
  split
  · rename_i small
    rw [Python.int_tostring small, Option.getD_some]
  · rename_i large
    rw [Python.int_tostring_large large, Option.getD_none]

theorem getD_int_tostring_eq_iff (expiry : Int) :
    (Python.int (Lua.tostring expiry).toList).getD (-1) = expiry ↔ expiry.natAbs < 10 ^ 14 := by
  rw [getD_int_tostring]
  split
  · rename_i small
    exact iff_of_true rfl small
  · rename_i large
    refine iff_of_false (fun same => ?_) large
    rw [← same] at large
    exact large (by decide)

/-! ### Whatever the bars are -/

theorem parsePoolEntry_expiry (entry : PoolEntry) : (parsePoolEntry entry.value).expiry =
    if entry.expiry.natAbs < 10 ^ 14 then entry.expiry else -1 := by
  rw [← getD_int_tostring, parsePoolEntry, PoolEntry.value, joinPoolValue, Option.getD_some,
    rpartition_fields entry.prev entry.next (Lua.bar_notMem_tostring _)]

theorem parsePoolEntry_isAllocatedMarker (entry : PoolEntry) :
    (parsePoolEntry entry.value).isAllocatedMarker = entry.isAllocatedMarker := by
  have marks (raw : PoolEntry) : raw.isAllocatedMarker = true ↔
      raw.prev.toList = allocatedSentinel.toList ∧ raw.next.toList = allocatedSentinel.toList := by
    rw [PoolEntry.isAllocatedMarker, Bool.and_eq_true, decide_eq_true_iff, decide_eq_true_iff,
      String.toList_inj, String.toList_inj]
  have cut_iff := @GreedyMatch.cutFirst_append_iff Char _ '|' entry.prev.toList entry.next.toList
    allocatedSentinel.toList allocatedSentinel.toList (by decide) (by decide)
  rw [Bool.eq_iff_iff, marks, marks, ← cut_iff, PoolEntry.value, joinPoolValue,
    Option.getD_some, parsePoolEntry,
    rpartition_fields entry.prev entry.next (Lua.bar_notMem_tostring _)]
  simp only [Python.partition, String.toList_ofList]
  cases cut : GreedyMatch.cutFirst '|' (entry.prev.toList ++ ['|', '|'] ++ entry.next.toList) with
  | none => simp [allocatedSentinel]
  | some fields => rw [Option.getD_some, Option.some.injEq, Prod.ext_iff]

/-! ### The round trip -/

/-- What `split_pool_value` makes of a value is what `parse_pool_entry` makes of it. -/
def ReadsAlike (raw : String) : Prop :=
  splitPoolValue (some raw) =
    (some (parsePoolEntry raw).prev, some (parsePoolEntry raw).next,
      some ((parsePoolEntry raw).expiry : Rat))

/-- The parser gives back what was joined exactly if `prev` does not end in half a separator and
Lua writes the expiry in full.  Where it does, it agrees with a `split_pool_value` that reads
correctly; of a numeral it asks no more than that `int` reads it. -/
theorem parsePoolEntry_join_iff (prev next : String) (storable : Storable prev) (expiry : Int) :
    (parsePoolEntry (joinPoolValue prev next (some expiry)) = ⟨prev, next, expiry⟩ ∧
        (splitPoolValue (some (joinPoolValue prev next (some expiry))) =
            (some prev, some next, some (expiry : Rat)) →
          ReadsAlike (joinPoolValue prev next (some expiry))) ↔
      prev.toList.getLast? ≠ some '|' ∧ expiry.natAbs < 10 ^ 14) ∧
    ∀ numeral : String, '|' ∉ numeral.toList → Python.int numeral.toList = some expiry →
      (parsePoolEntry (prev ++ poolValueSep ++ next ++ poolValueSep ++ numeral) =
          ⟨prev, next, expiry⟩ ↔ prev.toList.getLast? ≠ some '|') := by
  have exact_iff : parsePoolEntry (joinPoolValue prev next (some expiry)) = ⟨prev, next, expiry⟩ ↔
      prev.toList.getLast? ≠ some '|' ∧ expiry.natAbs < 10 ^ 14 := by
    rw [← getD_int_tostring_eq_iff]
    exact parsePoolEntry_iff next storable.unseparated (Lua.bar_notMem_tostring _) expiry
  constructor
  · rw [← exact_iff, and_iff_left_iff_imp]
    intro read split
    rw [ReadsAlike, read, split]
  · intro numeral plain read
    rw [parsePoolEntry_iff next storable.unseparated plain, read, Option.getD_some]
    exact and_iff_left rfl

theorem parsePoolEntry_join_iff_free :
    Storable "a" ∧ parsePoolEntry (joinPoolValue "a" "|b" (some 5)) = ⟨"a", "|b", 5⟩ := by
  have storable : Storable "a" := Or.inr (Or.inr (by decide))
  have read := ((parsePoolEntry_join_iff "a" "|b" storable 5).1.mpr
    ⟨by decide, by decide⟩).1
  exact ⟨storable, read⟩

/-- `a|` before `b`: the scripts read the entry as it was stored, and the parser reads `a` before
`|b`. -/
theorem barredEntry_misread :
    Storable "a|" ∧ Storable "b" ∧
    splitPoolValue (some (joinPoolValue "a|" "b" (some 5))) =
      (some "a|", some "b", some ((5 : Int) : Rat)) ∧
    parsePoolEntry (joinPoolValue "a|" "b" (some 5)) = ⟨"a", "|b", 5⟩ := by
  refine ⟨Or.inr (Or.inr (by decide)), Or.inr (Or.inr (by decide)), ?_, by decide⟩
  rw [splitPoolValue_join_iff "a|" "b" (by decide)]
  decide

end RedisAllocator

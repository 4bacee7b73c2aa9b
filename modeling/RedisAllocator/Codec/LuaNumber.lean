import Mathlib.Algebra.Field.Rat
import Mathlib.Data.List.DropRight
import Mathlib.Data.List.TakeWhile
import Mathlib.Data.Rat.Cast.Defs

/-!
# Lua's numerals

`tostring` writes a number as `%.14g` does: an integer below `10^14` in full, a
larger one as fourteen rounded digits and an exponent.  `tonumber` reads what
`strtod` reads, the hexadecimal numerals left out.
-/

set_option autoImplicit false

namespace RedisAllocator

namespace Lua

/-! ## `tostring` -/

/-- The `%.14g` of an integer with more than fourteen digits, ties to even. -/
def scientific (n : Nat) : List Char :=
  let exponent := (Nat.toDigits 10 n).length - 1
  let unit := 10 ^ (exponent - 13)
  let kept := n / unit
  let up := unit < 2 * (n % unit) ∨ unit = 2 * (n % unit) ∧ kept % 2 = 1
  let rounded := if up then kept + 1 else kept
  let carry := (Nat.toDigits 10 rounded).length - 14
  let digits := (Nat.toDigits 10 rounded).rdropWhile (· = '0')
  let mantissa := if digits.length = 1 then digits else digits.take 1 ++ '.' :: digits.drop 1
  mantissa ++ 'e' :: '+' :: Nat.toDigits 10 (exponent + carry)

def tostring (n : Int) : String :=
  let digits := if n.natAbs < 10 ^ 14 then Nat.toDigits 10 n.natAbs else scientific n.natAbs
  String.ofList (if n < 0 then '-' :: digits else digits)

/-! ## `tonumber` -/

def isSpace (c : Char) : Bool := c = ' ' ∨ 9 ≤ c.toNat ∧ c.toNat ≤ 13

def trim (text : List Char) : List Char := (text.dropWhile isSpace).rdropWhile isSpace

def signed {α : Type} [Neg α] (numeral : List Char → Option α) : List Char → Option α
  | '-' :: text => (numeral text).map Neg.neg
  | '+' :: text => numeral text
  | text => numeral text

def digits (text : List Char) : Option Int :=
  if text ≠ [] ∧ text.all Char.isDigit then some (Nat.ofDigitChars 10 text 0) else none

/-- What may follow the mantissa: nothing, or an exponent. -/
def exponent : List Char → Option Int
  | [] => some 0
  | 'e' :: text => signed digits text
  | 'E' :: text => signed digits text
  | _ => none

/-- Digits, with a point among them or not, and an exponent. -/
def decimal (text : List Char) : Option Rat :=
  let whole := text.takeWhile Char.isDigit
  let behind := text.dropWhile Char.isDigit
  let (fraction, rest) := match behind with
    | '.' :: point => (point.takeWhile Char.isDigit, point.dropWhile Char.isDigit)
    | _ => ([], behind)
  if whole ++ fraction = [] then none
  else (exponent rest).map fun (power : Int) =>
    (Nat.ofDigitChars 10 (whole ++ fraction) 0 : Rat) * 10 ^ (power - (fraction.length : Int))

def tonumber (text : String) : Option Rat := signed decimal (trim text.toList)

/-! ## `tonumber` reads what `tostring` writes -/

theorem isDigit_of_mem_toDigits {n : Nat} {c : Char} (present : c ∈ Nat.toDigits 10 n) :
    c.isDigit = true :=
  Nat.isDigit_of_mem_toDigits (by decide) (by decide) present

theorem decimal_toDigits (n : Nat) : decimal (Nat.toDigits 10 n) = some (n : Rat) := by
  have allDigits : ∀ c ∈ Nat.toDigits 10 n, c.isDigit = true :=
    fun _ => isDigit_of_mem_toDigits
  have taken : (Nat.toDigits 10 n).takeWhile Char.isDigit = Nat.toDigits 10 n :=
    List.takeWhile_eq_self_iff.mpr allDigits
  have nothingLeft : (Nat.toDigits 10 n).dropWhile Char.isDigit = [] :=
    List.dropWhile_eq_nil_iff.mpr allDigits
  unfold decimal
  simp [taken, nothingLeft, exponent, Nat.toDigits_ne_nil, Nat.ofDigitChars_ten_toDigits]

theorem trim_of_forall {text : List Char} (solid : ∀ c ∈ text, isSpace c = false) :
    trim text = text := by
  have front : text.dropWhile isSpace = text := by
    cases text with
    | nil => rfl
    | cons c rest => rw [List.dropWhile_cons_of_neg (by simp [solid c])]
  rw [trim, front, List.rdropWhile_eq_self_iff]
  intro notEmpty
  simp [solid _ (List.getLast_mem notEmpty)]

theorem mem_trim {text : List Char} {c : Char} (present : c ∈ text) (solid : isSpace c = false) :
    c ∈ trim text := by
  have front : c ∈ text.dropWhile isSpace := by
    rw [← List.takeWhile_append_dropWhile (p := isSpace) (l := text), List.mem_append] at present
    refine present.resolve_left fun blank => ?_
    rw [List.mem_takeWhile_imp blank] at solid
    cases solid
  rw [← List.rdropWhile_append_rtakeWhile (p := isSpace) (l := text.dropWhile isSpace),
    List.mem_append] at front
  refine front.resolve_right fun blank => ?_
  rw [List.mem_rtakeWhile_imp blank] at solid
  cases solid

theorem isSpace_of_isDigit {c : Char} (isDigit : c.isDigit = true) : isSpace c = false := by
  have bounds : 48 ≤ c.toNat ∧ c.toNat ≤ 57 := by
    simpa [Char.isDigit, UInt32.le_iff_toNat_le] using isDigit
  have notBlank : c ≠ ' ' := by
    rintro rfl
    exact absurd bounds.1 (by decide)
  have tooLarge : ¬ c.toNat ≤ 13 := by omega
  simp [isSpace, notBlank, tooLarge]

theorem signed_of_isDigit {α : Type} [Neg α] (numeral : List Char → Option α) {text : List Char}
    (notSign : ∀ c ∈ text, c.isDigit = true) : signed numeral text = numeral text := by
  match text with
  | [] => rfl
  | c :: rest =>
      have isDigit := notSign c (List.mem_cons_self ..)
      unfold signed
      split
      · rename_i same
        cases same
        cases isDigit
      · rename_i same
        cases same
        cases isDigit
      · rfl

theorem toList_tostring {n : Int} (small : n.natAbs < 10 ^ 14) :
    (tostring n).toList =
      if n < 0 then '-' :: Nat.toDigits 10 n.natAbs else Nat.toDigits 10 n.natAbs := by
  unfold tostring
  rw [String.toList_ofList, if_pos small]

theorem isSpace_of_mem_tostring {n : Int} (small : n.natAbs < 10 ^ 14) :
    ∀ c ∈ (tostring n).toList, isSpace c = false := by
  rw [toList_tostring small]
  intro c present
  split at present
  · rcases List.mem_cons.mp present with rfl | inDigits
    · decide
    · exact isSpace_of_isDigit (isDigit_of_mem_toDigits inDigits)
  · exact isSpace_of_isDigit (isDigit_of_mem_toDigits present)

theorem tonumber_tostring {n : Int} (small : n.natAbs < 10 ^ 14) :
    tonumber (tostring n) = some (n : Rat) := by
  rw [tonumber, trim_of_forall (isSpace_of_mem_tostring small), toList_tostring small]
  split
  · rename_i negative
    rw [signed, decimal_toDigits, Option.map_some, Option.some.injEq]
    have back : n = -(n.natAbs : Int) := by omega
    conv_rhs => rw [back]
    simp
  · rename_i notNegative
    rw [signed_of_isDigit _ fun _ => isDigit_of_mem_toDigits, decimal_toDigits, Option.some.injEq]
    have back : n = (n.natAbs : Int) := by omega
    conv_rhs => rw [back]
    simp

theorem bar_notMem_toDigits (n : Nat) : '|' ∉ Nat.toDigits 10 n := by
  intro present
  cases isDigit_of_mem_toDigits present

theorem bar_notMem_mantissa {digits : List Char} (plain : '|' ∉ digits) :
    '|' ∉ if digits.length = 1 then digits else digits.take 1 ++ '.' :: digits.drop 1 := by
  split
  · exact plain
  · rw [List.mem_append, List.mem_cons]
    rintro (first | point | later)
    · exact plain (List.mem_of_mem_take first)
    · cases point
    · exact plain (List.mem_of_mem_drop later)

theorem bar_notMem_scientific (n : Nat) : '|' ∉ scientific n := by
  have plain (m : Nat) : '|' ∉ (Nat.toDigits 10 m).rdropWhile (· = '0') := fun present =>
    bar_notMem_toDigits m ((List.rdropWhile_prefix _ _).subset present)
  intro present
  simp only [scientific, List.mem_append, List.mem_cons] at present
  rcases present with inMantissa | letter | sign | inExponent
  · exact bar_notMem_mantissa (plain _) inMantissa
  · cases letter
  · cases sign
  · exact bar_notMem_toDigits _ inExponent

theorem bar_notMem_tostring (n : Int) : '|' ∉ (tostring n).toList := by
  have plain : '|' ∉
      if n.natAbs < 10 ^ 14 then Nat.toDigits 10 n.natAbs else scientific n.natAbs := by
    split
    · exact bar_notMem_toDigits n.natAbs
    · exact bar_notMem_scientific n.natAbs
  unfold tostring
  rw [String.toList_ofList]
  split
  · rw [List.mem_cons, not_or]
    exact ⟨by decide, plain⟩
  · exact plain

end Lua

end RedisAllocator

import Mathlib.Data.List.Basic

/-!
# Glob patterns over bytes

`*` stands for any bytes, `?` for one, `[...]` for one of a set and `\` takes the
next byte literally.  A set may be negated by `^` and may hold ranges; one without
its closing bracket extends to the end of the pattern.  A pattern of ordinary bytes
and a star behind them matches by the prefix.
-/

set_option autoImplicit false

namespace Glob

def star : UInt8 := 42
def question : UInt8 := 63
def bracket : UInt8 := 91
def backslash : UInt8 := 92
def closing : UInt8 := 93
def caret : UInt8 := 94
def hyphen : UInt8 := 45

/-- The byte stands for itself wherever it stands outside a set. -/
def Ordinary (b : UInt8) : Prop := b ≠ star ∧ b ≠ question ∧ b ≠ bracket ∧ b ≠ backslash

instance (b : UInt8) : Decidable (Ordinary b) := inferInstanceAs (Decidable (_ ∧ _))

/-- Whether the set that begins here holds `b`, and the pattern behind it. -/
def readSet (b : UInt8) : Bool → List UInt8 → Bool × List UInt8
  | found, [] => (found, [])
  | found, [c] => if c = closing then (found, []) else (found || c = b, [])
  | found, [c, d] =>
    if c = closing then (found, [d])
    else if c = backslash then (found || d = b, [])
    else readSet b (found || c = b) [d]
  | found, c :: d :: e :: rest =>
    if c = closing then (found, d :: e :: rest)
    else if c = backslash then readSet b (found || d = b) (e :: rest)
    else if d = hyphen then readSet b (found || (min c e ≤ b && b ≤ max c e)) rest
    else readSet b (found || c = b) (d :: e :: rest)

def acceptSet (b : UInt8) : List UInt8 → Bool × List UInt8
  | c :: rest =>
    if c = caret then
      let read := readSet b false rest
      (!read.1, read.2)
    else readSet b false (c :: rest)
  | [] => (false, [])

def matchStar (rest : List UInt8 → Bool) : List UInt8 → Bool
  | [] => rest []
  | b :: text => rest (b :: text) || matchStar rest text

/-- The pattern read item by item; each takes at least one byte of it. -/
def matchFrom : Nat → List UInt8 → List UInt8 → Bool
  | _, [], text => text = []
  | 0, _ :: _, _ => false
  | fuel + 1, c :: rest, text =>
    if c = star then matchStar (matchFrom fuel rest) text
    else
      match text with
      | [] => false
      | b :: text =>
        if c = question then matchFrom fuel rest text
        else if c = bracket then
          let read := acceptSet b rest
          read.1 && matchFrom fuel read.2 text
        else if c = backslash then
          match rest with
          | d :: rest => d = b && matchFrom fuel rest text
          | [] => c = b && matchFrom fuel [] text
        else c = b && matchFrom fuel rest text

def globMatch (pattern text : List UInt8) : Bool := matchFrom pattern.length pattern text

theorem matchStar_nil (fuel : Nat) (text : List UInt8) :
    matchStar (matchFrom fuel []) text = true := by
  induction text with
  | nil => simp [matchStar, matchFrom]
  | cons b text ih => simp [matchStar, ih]

theorem matchFrom_ordinary {c : UInt8} (ordinary : Ordinary c) (fuel : Nat)
    (rest text : List UInt8) : matchFrom (fuel + 1) (c :: rest) text =
      match text with
      | [] => false
      | b :: text => c = b && matchFrom fuel rest text := by
  obtain ⟨notStar, notQuestion, notBracket, notBackslash⟩ := ordinary
  simp only [matchFrom, if_neg notStar, if_neg notQuestion, if_neg notBracket,
    if_neg notBackslash]

/-- Ordinary bytes with a star behind them match what begins with them. -/
theorem globMatch_prefix_iff {front : List UInt8} (ordinary : ∀ b ∈ front, Ordinary b)
    (text : List UInt8) : globMatch (front ++ [star]) text = true ↔ front <+: text := by
  rw [globMatch, List.length_append, List.length_singleton]
  induction front generalizing text with
  | nil =>
      have last : matchFrom 1 [star] text = matchStar (matchFrom 0 []) text := rfl
      rw [List.nil_append, List.length_nil, Nat.zero_add, last, matchStar_nil]
      simp
  | cons c front ih =>
      have first := ordinary c List.mem_cons_self
      have later := ih fun b isMember => ordinary b (List.mem_cons_of_mem c isMember)
      rw [List.cons_append, List.length_cons, matchFrom_ordinary first]
      cases text with
      | nil => simp
      | cons b text =>
          rw [Bool.and_eq_true, decide_eq_true_eq, later, List.cons_prefix_cons]

end Glob

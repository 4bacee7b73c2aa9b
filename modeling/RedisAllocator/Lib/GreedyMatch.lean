import Mathlib.Data.List.Infix

/-!
# Greedy captures around a doubled separator

`(.*)` takes as much of the text as lets the rest of the pattern match.  The
separator is one symbol written twice, so two of its occurrences can overlap; what
decides where a text of three fields is cut is the first symbol of the middle one.
A cut at the first separator goes by the last symbol of the field before it.
-/

set_option autoImplicit false

namespace GreedyMatch

section Capture

variable {α β : Type}

/-- `(.*)` followed by the pattern `rest`: the longest capture is tried first. -/
def greedy (rest : List α → Option β) : List α → Option (List α × β)
  | [] => (rest []).map fun found => ([], found)
  | x :: text =>
    match greedy rest text with
    | some (captured, found) => some (x :: captured, found)
    | none => (rest (x :: text)).map fun found => ([], found)

theorem greedy_eq_none_iff (rest : List α → Option β) (text : List α) :
    greedy rest text = none ↔ ∀ captured left, text = captured ++ left → rest left = none := by
  induction text with
  | nil => simp [greedy]
  | cons x text ih =>
      have split : greedy rest (x :: text) = none ↔
          greedy rest text = none ∧ rest (x :: text) = none := by
        rw [greedy]
        cases greedy rest text <;> simp
      rw [split, ih]
      constructor
      · rintro ⟨inTail, atOnce⟩ captured left cut
        rcases List.cons_eq_append_iff.mp cut with ⟨_, same⟩ | ⟨captured', _, inText⟩
        · exact same ▸ atOnce
        · exact inTail captured' left inText
      · intro all
        exact ⟨fun captured left cut => all (x :: captured) left (by rw [cut]; rfl),
          all [] _ rfl⟩

theorem greedy_cons_iff (rest : List α → Option β) (x : α) (text captured : List α) (found : β) :
    greedy rest (x :: text) = some (captured, found) ↔
      (∃ shorter, captured = x :: shorter ∧ greedy rest text = some (shorter, found)) ∨
      greedy rest text = none ∧ captured = [] ∧ rest (x :: text) = some found := by
  rw [greedy]
  cases greedy rest text with
  | some result =>
      obtain ⟨shorter, found'⟩ := result
      simp only [Option.some.injEq, Prod.mk.injEq, reduceCtorEq, false_and, or_false]
      constructor
      · rintro ⟨rfl, rfl⟩
        exact ⟨shorter, rfl, rfl, rfl⟩
      · rintro ⟨_, rfl, rfl, rfl⟩
        exact ⟨rfl, rfl⟩
  | none => simp [Option.map_eq_some_iff, and_comm, eq_comm]

theorem greedy_sound {rest : List α → Option β} {text captured : List α} {found : β}
    (matched : greedy rest text = some (captured, found)) :
    ∃ left, text = captured ++ left ∧ rest left = some found := by
  induction text generalizing captured with
  | nil =>
      obtain ⟨found', atEnd, same⟩ := Option.map_eq_some_iff.mp matched
      cases same
      exact ⟨[], rfl, atEnd⟩
  | cons x text ih =>
      rcases (greedy_cons_iff rest x text captured found).mp matched with
        ⟨shorter, rfl, inTail⟩ | ⟨_, rfl, atOnce⟩
      · obtain ⟨left, whole, atLeft⟩ := ih inTail
        exact ⟨left, by rw [whole]; rfl, atLeft⟩
      · exact ⟨x :: text, rfl, atOnce⟩

/-- A longer capture leaves nothing that the rest of the pattern matches. -/
theorem greedy_longest {rest : List α → Option β} {text captured : List α} {found : β}
    (matched : greedy rest text = some (captured, found)) {captured' left' : List α}
    (cut : text = captured' ++ left') (longer : captured.length < captured'.length) :
    rest left' = none := by
  induction text generalizing captured captured' with
  | nil =>
      obtain ⟨rfl, _⟩ := List.append_eq_nil_iff.mp cut.symm
      simp at longer
  | cons x text ih =>
      rcases List.cons_eq_append_iff.mp cut with ⟨rfl, _⟩ | ⟨shorter', rfl, inText⟩
      · simp at longer
      · rcases (greedy_cons_iff rest x text captured found).mp matched with
          ⟨shorter, rfl, inTail⟩ | ⟨never, _, _⟩
        · exact ih inTail inText (by simpa using longer)
        · exact (greedy_eq_none_iff rest text).mp never shorter' left' inText

theorem greedy_eq_some_iff (rest : List α → Option β) (text captured : List α) (found : β) :
    greedy rest text = some (captured, found) ↔
      (∃ left, text = captured ++ left ∧ rest left = some found) ∧
      ∀ captured' left', text = captured' ++ left' → captured.length < captured'.length →
        rest left' = none := by
  constructor
  · exact fun matched => ⟨greedy_sound matched, fun _ _ => greedy_longest matched⟩
  · rintro ⟨⟨left, cut, atLeft⟩, longest⟩
    cases result : greedy rest text with
    | none =>
        rw [(greedy_eq_none_iff rest text).mp result captured left cut] at atLeft
        cases atLeft
    | some pair =>
        obtain ⟨captured', found'⟩ := pair
        obtain ⟨left', cut', atLeft'⟩ := greedy_sound result
        -- neither capture is longer than the other
        have notShorter : ¬ captured'.length < captured.length := by
          intro longer
          rw [greedy_longest result cut longer] at atLeft
          cases atLeft
        have notLonger : ¬ captured.length < captured'.length := by
          intro longer
          rw [longest captured' left' cut' longer] at atLeft'
          cases atLeft'
        have sameLength : captured'.length = captured.length := by omega
        obtain ⟨rfl, rfl⟩ := List.append_inj (cut'.symm.trans cut) sameLength
        rw [atLeft] at atLeft'
        cases atLeft'
        rfl

end Capture

section Separator

variable {α : Type}

theorem occurrence_le {bar : α} (before after field : List α) {right : List α} (barless : bar ∉ right)
    (same : before ++ [bar, bar] ++ after = field ++ right) : before.length + 2 ≤ field.length := by
  by_contra short
  have longer : field.length < (before ++ [bar, bar]).length := by simp; omega
  have ends : (before ++ [bar, bar])[before.length + 1]? = some bar := by simp
  apply barless
  have inRight : right[before.length + 1 - field.length]? = some bar := by
    have whole : (before ++ [bar, bar] ++ after)[before.length + 1]? =
        (field ++ right)[before.length + 1]? := by rw [same]
    rw [List.getElem?_append_left (by simp), ends,
      List.getElem?_append_right (by simp at longer; omega)] at whole
    exact whole.symm
  exact List.mem_of_getElem? inRight

/-- Behind the first separator no capture can end at one and leave another, unless the middle
field begins with a bar and completes the second bar of the first separator. -/
theorem not_infix_of_cut_behind {bar : α} {left middle right captured after : List α}
    (plain : middle.head? ≠ some bar) (unseparated : ¬ [bar, bar] <:+: middle)
    (barless : bar ∉ right)
    (cut : left ++ [bar, bar] ++ middle ++ [bar, bar] ++ right = captured ++ (bar :: bar :: after))
    (longer : left.length < captured.length) : ¬ [bar, bar] <:+: after := by
  rintro ⟨before, last, whole⟩
  have bound := occurrence_le (captured ++ [bar, bar] ++ before) last
    (left ++ [bar, bar] ++ middle ++ [bar, bar]) barless (by rw [cut, ← whole]; simp)
  simp only [List.length_append, List.length_cons, List.length_nil] at bound
  have front : left <+: captured ++ (bar :: bar :: after) := by
    rw [← cut]
    simp
  have later : left <+: captured :=
    List.prefix_of_prefix_length_le front (List.prefix_append captured _) (by omega)
  obtain ⟨extra, rfl⟩ := later
  have behind : [bar, bar] ++ (middle ++ ([bar, bar] ++ right)) =
      extra ++ (bar :: bar :: after) := by
    have fromLeft : left ++ ([bar, bar] ++ (middle ++ ([bar, bar] ++ right))) =
        left ++ (extra ++ (bar :: bar :: after)) := by simpa using cut
    exact List.append_cancel_left fromLeft
  rw [List.length_append] at longer bound
  match extra with
  | [] => simp at longer
  | [_] =>
      cases middle with
      | nil =>
          simp only [List.length_cons, List.length_nil] at bound
          omega
      | cons x inner =>
          apply plain
          simp only [List.cons_append, List.nil_append, List.cons.injEq] at behind
          rw [List.head?_cons, behind.2.2.1]
  | _ :: _ :: inner =>
      simp only [List.cons_append, List.nil_append, List.cons.injEq] at behind
      apply unseparated
      have front : inner ++ [bar, bar] <+: middle ++ ([bar, bar] ++ right) :=
        ⟨after, by simpa using behind.2.2.symm⟩
      have inside : inner ++ [bar, bar] <+: middle := by
        apply List.prefix_of_prefix_length_le front
        · exact List.prefix_append ..
        · simp only [List.length_append, List.length_cons, List.length_nil] at bound ⊢
          omega
      exact (List.suffix_append inner [bar, bar]).isInfix.trans inside.isInfix

variable [DecidableEq α]

def dropBars (bar : α) : List α → Option (List α)
  | x :: y :: text => if x = bar ∧ y = bar then some text else none
  | _ => none

theorem dropBars_eq_some_iff (bar : α) (text left : List α) :
    dropBars bar text = some left ↔ text = bar :: bar :: left := by
  match text with
  | [] => simp [dropBars]
  | [x] => simp [dropBars]
  | x :: y :: text =>
      simp only [dropBars, Option.ite_none_right_eq_some, Option.some.injEq, List.cons.injEq]
      tauto

@[simp]
theorem dropBars_bars (bar : α) (text : List α) : dropBars bar ([bar, bar] ++ text) = some text :=
  (dropBars_eq_some_iff bar _ _).mpr rfl

/-- `(.*)` `bar bar` `(.*)`: the text is cut at the last separator. -/
def cutLast (bar : α) : List α → Option (List α × List α) := greedy (dropBars bar)

/-- `(.*)` `bar bar` `(.*)` `bar bar` `(.*)` -/
def threeFields (bar : α) : List α → Option (List α × List α × List α) :=
  greedy fun text => (dropBars bar text).bind (cutLast bar)

theorem cutLast_eq_none_iff (bar : α) (text : List α) :
    cutLast bar text = none ↔ ¬ [bar, bar] <:+: text := by
  rw [cutLast, greedy_eq_none_iff]
  constructor
  · rintro never ⟨before, after, whole⟩
    have missed := never before ([bar, bar] ++ after) (by rw [← whole, List.append_assoc])
    rw [dropBars_bars] at missed
    cases missed
  · intro absent captured left cut
    rw [Option.eq_none_iff_forall_ne_some]
    intro after found
    rw [dropBars_eq_some_iff] at found
    apply absent
    exact ⟨captured, after, by rw [cut, found]; simp⟩

theorem cutLast_append {bar : α} (left : List α) {right : List α} (barless : bar ∉ right) :
    cutLast bar (left ++ [bar, bar] ++ right) = some (left, right) := by
  rw [cutLast, greedy_eq_some_iff]
  refine ⟨⟨[bar, bar] ++ right, List.append_assoc .., dropBars_bars ..⟩, ?_⟩
  intro captured rest cut longer
  rw [Option.eq_none_iff_forall_ne_some]
  intro after found
  rw [dropBars_eq_some_iff] at found
  have bound := occurrence_le captured after (left ++ [bar, bar]) barless
    (by rw [cut, found]; simp)
  simp only [List.length_append, List.length_cons, List.length_nil] at bound
  omega

theorem eq_of_cutLast {bar : α} {text left right : List α}
    (cut : cutLast bar text = some (left, right)) : text = left ++ [bar, bar] ++ right := by
  rw [cutLast, greedy_eq_some_iff] at cut
  obtain ⟨⟨rest, whole, matched⟩, _⟩ := cut
  rw [dropBars_eq_some_iff] at matched
  rw [whole, matched]
  simp

theorem eq_of_threeFields {bar : α} {text left middle right : List α}
    (cut : threeFields bar text = some (left, middle, right)) :
    text = left ++ [bar, bar] ++ middle ++ [bar, bar] ++ right := by
  rw [threeFields, greedy_eq_some_iff] at cut
  obtain ⟨⟨rest, whole, matched⟩, _⟩ := cut
  obtain ⟨after, found, twoFields⟩ := Option.bind_eq_some_iff.mp matched
  rw [dropBars_eq_some_iff] at found
  rw [whole, found, eq_of_cutLast twoFields]
  simp

/-- Three fields are read back exactly if the middle one does not begin with a bar; the first
may hold any bars, the middle one no separator and the last one no bar. -/
theorem threeFields_join_iff {bar : α} (left : List α) {middle right : List α}
    (unseparated : ¬ [bar, bar] <:+: middle) (barless : bar ∉ right) :
    threeFields bar (left ++ [bar, bar] ++ middle ++ [bar, bar] ++ right) =
      some (left, middle, right) ↔ middle.head? ≠ some bar := by
  constructor
  · intro read begins
    -- the second bar of the first separator and the bar of the middle field cut later
    cases middle with
    | nil => cases begins
    | cons x inner =>
        obtain rfl : x = bar := by simpa using begins
        have cut : left ++ [x, x] ++ x :: inner ++ [x, x] ++ right =
            (left ++ [x]) ++ ([x, x] ++ (inner ++ [x, x] ++ right)) := by simp
        have missed := greedy_longest read cut (by simp)
        rw [dropBars_bars, Option.bind_some, cutLast_append inner barless] at missed
        cases missed
  · intro plain
    rw [threeFields, greedy_eq_some_iff]
    refine ⟨⟨[bar, bar] ++ (middle ++ [bar, bar] ++ right), by simp, ?_⟩, ?_⟩
    · rw [dropBars_bars]
      exact cutLast_append middle barless
    · intro captured rest cut longer
      rw [Option.bind_eq_none_iff]
      intro after found
      rw [dropBars_eq_some_iff] at found
      rw [cutLast_eq_none_iff]
      exact not_infix_of_cut_behind plain unseparated barless (found ▸ cut) longer

/-- The text is cut at the first separator, as Python's `partition` cuts it. -/
def cutFirst (bar : α) : List α → Option (List α × List α)
  | [] => none
  | x :: text =>
    match dropBars bar (x :: text) with
    | some after => some ([], after)
    | none => (cutFirst bar text).map fun (before, after) => (x :: before, after)

theorem cutFirst_append {bar : α} {left : List α} (unseparated : ¬ [bar, bar] <:+: left)
    (plain : left.getLast? ≠ some bar) (right : List α) :
    cutFirst bar (left ++ [bar, bar] ++ right) = some (left, right) := by
  induction left with
  | nil => simp [cutFirst, dropBars]
  | cons x left ih =>
      have missed : dropBars bar (x :: left ++ [bar, bar] ++ right) = none := by
        rw [Option.eq_none_iff_forall_ne_some]
        intro after found
        rw [dropBars_eq_some_iff] at found
        cases left with
        | nil =>
            obtain ⟨rfl, _⟩ := List.cons.inj found
            exact plain rfl
        | cons y left =>
            obtain ⟨rfl, found⟩ := List.cons.inj found
            obtain ⟨rfl, _⟩ := List.cons.inj found
            exact unseparated ⟨[], left, rfl⟩
      have later := ih (fun inside => unseparated (inside.trans (List.suffix_cons x left).isInfix))
        (by cases left with
          | nil => simp
          | cons y left => simpa using plain)
      rw [List.cons_append, List.cons_append] at missed ⊢
      rw [cutFirst, missed, later]
      rfl

theorem cutFirst_append_bar {bar : α} {left : List α}
    (unseparated : ¬ [bar, bar] <:+: left ++ [bar]) (right : List α) :
    cutFirst bar (left ++ [bar] ++ [bar, bar] ++ right) = some (left, bar :: right) := by
  have cut : left ++ [bar] ++ [bar, bar] ++ right = left ++ [bar, bar] ++ bar :: right := by simp
  rw [cut]
  apply cutFirst_append
  · exact fun inside => unseparated (inside.trans (List.prefix_append left [bar]).isInfix)
  · intro ends
    obtain ⟨front, rfl⟩ := List.getLast?_eq_some_iff.mp ends
    exact unseparated ⟨front, [], by simp⟩

theorem eq_of_cutFirst {bar : α} {text left right : List α}
    (cut : cutFirst bar text = some (left, right)) : text = left ++ [bar, bar] ++ right := by
  induction text generalizing left with
  | nil => cases cut
  | cons x text ih =>
      rw [cutFirst] at cut
      split at cut
      · rename_i after found
        cases cut
        rw [dropBars_eq_some_iff] at found
        rw [found]
        rfl
      · obtain ⟨⟨left', right'⟩, later, same⟩ := Option.map_eq_some_iff.mp cut
        cases same
        rw [ih later]
        rfl

/-- Fields without a bar come out only if they went in: there is one separator to cut at. -/
theorem cutFirst_append_iff {bar : α} {left right left' right' : List α} (barless : bar ∉ left')
    (barless' : bar ∉ right') : cutFirst bar (left ++ [bar, bar] ++ right) = some (left', right') ↔
      left = left' ∧ right = right' := by
  have read {before after : List α} (plain : bar ∉ before) :
      cutFirst bar (before ++ [bar, bar] ++ after) = some (before, after) :=
    cutFirst_append (fun inside => plain (inside.subset (by simp)))
      (fun ends => plain (List.mem_of_getLast? ends)) after
  constructor
  · intro cut
    have whole := eq_of_cutFirst cut
    have bars := congrArg (List.count bar) whole
    simp only [List.count_append, List.count_eq_zero.mpr barless,
      List.count_eq_zero.mpr barless'] at bars
    have plain : bar ∉ left := List.count_eq_zero.mp (by omega)
    rw [read plain, Option.some.injEq, Prod.mk.injEq] at cut
    exact cut
  · rintro ⟨rfl, rfl⟩
    exact read barless

end Separator

end GreedyMatch

import Mathlib.Data.List.Basic

/-!
# The Redis keys of a task queue

Three families of keys stand behind `<prefix>|<suffix>`.  They never meet, and two
queues share a key exactly if the one goes on where the other ends with the
beginning of such a key.
-/

set_option autoImplicit false

namespace RedisAllocator

inductive Family
  | queue
  | listen
  | result
deriving DecidableEq

namespace Family

def piece : Family → List Char
  | queue => "|task-queue|".toList
  | listen => "|task-listen|".toList
  | result => "|task-result:".toList

theorem piece_inj {family family' : Family} {tail tail' : List Char}
    (same : family.piece ++ tail = family'.piece ++ tail') : family = family' ∧ tail = tail' := by
  have letter : ∀ family : Family, (family.piece ++ tail)[6]? = family.piece[6]? ∧
      (family.piece ++ tail')[6]? = family.piece[6]? := by
    intro family
    cases family <;> exact ⟨rfl, rfl⟩
  have different : ∀ family family' : Family, family.piece[6]? = family'.piece[6]? →
      family = family' := by
    intro family family'
    cases family <;> cases family' <;> decide
  have one : family = family' := by
    apply different
    rw [← (letter family).1, same, (letter family').2]
  subst one
  exact ⟨rfl, List.append_cancel_left same⟩

/-- The texts by which one base may go on behind another so that both share a key. -/
def Bridges (text : List Char) : Prop :=
  text = [] ∨ text = "|task-queue".toList ∨ text = "|task-listen".toList ∨
    ∃ family : Family, family.piece <+: text

theorem head_piece (family : Family) (tail : List Char) :
    (family.piece ++ tail).head? = some '|' := by
  cases family <;> rfl

/-- Inside a piece another one can only begin at its last bar. -/
theorem bridges_of_take (family : Family) {n : Nat} (inside : n < family.piece.length)
    (bar : (family.piece.drop n).head? = some '|') : Bridges (family.piece.take n) := by
  have bars : ∀ family : Family, ∀ n < family.piece.length,
      (family.piece.drop n).head? = some '|' → family.piece.take n = [] ∨
        family.piece.take n = "|task-queue".toList ∨
        family.piece.take n = "|task-listen".toList := by
    intro family
    cases family <;> decide
  rcases bars family n inside bar with none | queue | listen
  · exact .inl none
  · exact .inr (.inl queue)
  · exact .inr (.inr (.inl listen))

theorem bridges_of_cut {family family' : Family} {text tail tail' : List Char}
    (cut : family.piece ++ tail = text ++ (family'.piece ++ tail')) : Bridges text := by
  rcases List.append_eq_append_iff.mp cut with ⟨rest, whole, _⟩ | ⟨rest, whole, begun⟩
  · exact .inr (.inr (.inr ⟨family, rest, whole.symm⟩))
  · by_cases last : rest = []
    · rw [last, List.append_nil] at whole
      exact .inr (.inr (.inr ⟨family, whole ▸ List.prefix_rfl⟩))
    · have front : family.piece.take text.length = text := by rw [whole, List.take_left]
      have back : family.piece.drop text.length = rest := by rw [whole, List.drop_left]
      have inside : text.length < family.piece.length := by
        rw [whole, List.length_append]
        have := List.length_pos_iff.mpr last
        omega
      rw [← front]
      apply bridges_of_take family inside
      have bar := head_piece family' tail'
      rwa [begun, List.head?_append_of_ne_nil _ last, ← back] at bar

theorem Bridges.shared {text : List Char} (bridges : Bridges text) :
    ∃ family family' : Family, ∃ tail tail',
      family.piece ++ tail = text ++ (family'.piece ++ tail') := by
  rcases bridges with rfl | rfl | rfl | ⟨family, rest, rfl⟩
  · exact ⟨.queue, .queue, [], [], rfl⟩
  · exact ⟨.queue, .queue, "task-queue|".toList, [], by decide⟩
  · exact ⟨.listen, .queue, "task-queue|".toList, [], by decide⟩
  · exact ⟨family, .queue, rest ++ queue.piece, [], by simp⟩

end Family

structure QueueNames where
  keyPrefix : String
  suffix : String

namespace QueueNames

variable (names : QueueNames)

def queuePrefix : String := names.keyPrefix ++ "|" ++ names.suffix ++ "|task-queue"

def queueKey (name : String) : String := names.queuePrefix ++ "|" ++ name

def queueListenName (name : String) : String :=
  names.keyPrefix ++ "|" ++ names.suffix ++ "|task-listen|" ++ name

def resultKey (taskId : String) : String :=
  names.keyPrefix ++ "|" ++ names.suffix ++ "|task-result:" ++ taskId

def base : String := names.keyPrefix ++ "|" ++ names.suffix

def key : Family → String → String
  | .queue, name => names.queueKey name
  | .listen, name => names.queueListenName name
  | .result, taskId => names.resultKey taskId

theorem toList_key (family : Family) (name : String) :
    (names.key family name).toList = names.base.toList ++ (family.piece ++ name.toList) := by
  cases family with
  | queue =>
      have text : Family.queue.piece = "|task-queue".toList ++ "|".toList := by decide
      simp only [text, key, queueKey, queuePrefix, base, String.toList_append, List.append_assoc]
  | listen =>
      have text : Family.listen.piece = "|task-listen|".toList := rfl
      simp only [text, key, queueListenName, base, String.toList_append, List.append_assoc]
  | result =>
      have text : Family.result.piece = "|task-result:".toList := rfl
      simp only [text, key, resultKey, base, String.toList_append, List.append_assoc]

/-- The families of one queue do not meet, and each name has a key of its own. -/
theorem key_inj {family family' : Family} {name name' : String} :
    names.key family name = names.key family' name' ↔ family = family' ∧ name = name' := by
  constructor
  · intro same
    have spelled := congrArg String.toList same
    rw [toList_key, toList_key] at spelled
    obtain ⟨rfl, tails⟩ := Family.piece_inj (List.append_cancel_left spelled)
    exact ⟨rfl, String.toList_inj.mp tails⟩
  · rintro ⟨rfl, rfl⟩
    rfl

/-- Neither base goes on behind the other with a text that bridges them. -/
def Apart (a b : QueueNames) : Prop :=
  ∀ text, Family.Bridges text →
    b.base.toList ≠ a.base.toList ++ text ∧ a.base.toList ≠ b.base.toList ++ text

theorem shared_of_bridge {a b : QueueNames} {text : List Char} (bridges : Family.Bridges text)
    (longer : b.base.toList = a.base.toList ++ text) :
    ∃ family name family' name', a.key family name = b.key family' name' := by
  obtain ⟨family, family', tail, tail', same⟩ := bridges.shared
  refine ⟨family, String.ofList tail, family', String.ofList tail', ?_⟩
  rw [← String.toList_inj, toList_key, toList_key, longer, String.toList_ofList,
    String.toList_ofList, same, List.append_assoc]

/-- Two queues have a key in common exactly if one goes on where the other ends. -/
theorem apart_iff (a b : QueueNames) :
    a.Apart b ↔ ∀ family name family' name', a.key family name ≠ b.key family' name' := by
  constructor
  · intro apart family name family' name' same
    have spelled := congrArg String.toList same
    rw [toList_key, toList_key] at spelled
    rcases List.append_eq_append_iff.mp spelled with ⟨text, longer, cut⟩ | ⟨text, longer, cut⟩
    · exact (apart text (Family.bridges_of_cut cut)).1 longer
    · exact (apart text (Family.bridges_of_cut cut)).2 longer
  · intro different text bridges
    refine ⟨fun longer => ?_, fun longer => ?_⟩
    · obtain ⟨family, name, family', name', same⟩ := shared_of_bridge bridges longer
      exact different _ _ _ _ same
    · obtain ⟨family, name, family', name', same⟩ := shared_of_bridge bridges longer
      exact different _ _ _ _ same.symm

end QueueNames

end RedisAllocator

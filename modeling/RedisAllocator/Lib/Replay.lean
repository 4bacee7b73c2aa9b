import Mathlib.Data.List.Basic
import RedisAllocator.Lib.LabelledRun

/-!
# Replaying a run on a deterministic machine

A machine answers each request and moves on.  When every step of a transition
system is one request of the machine, with the same answer and related states
after it, the machine answers a whole run.  When it answers some of its requests
as a component does, and the others leave that component alone, the component
answers these requests by itself.
-/

set_option autoImplicit false

namespace LabelledRun

variable {State Label Machine Request Reply : Type}

def replay (respond : Request → Machine → Reply × Machine) :
    List Request → Machine → List Reply × Machine
  | [], m => ([], m)
  | request :: rest, m =>
    let (reply, next) := respond request m
    let (replies, last) := replay respond rest next
    (reply :: replies, last)

section Replay

variable {respond : Request → Machine → Reply × Machine}

theorem replay_cons (request : Request) (rest : List Request) (m : Machine) :
    replay respond (request :: rest) m =
      ((respond request m).1 :: (replay respond rest (respond request m).2).1,
        (replay respond rest (respond request m).2).2) := rfl

variable {step : State → Label → State → Prop} {request : Label → Request} {reply : Label → Reply}

/-- Step by step simulation carries over to runs, with all the replies. -/
theorem Run.replays (related : State → Machine → Prop) (allowed : Label → Prop)
    (simulates : ∀ s label s' m, related s m → allowed label → step s label s' →
      (respond (request label) m).1 = reply label ∧ related s' (respond (request label) m).2)
    {s final : State} {labels : List Label} (run : Run step s labels final) {m : Machine}
    (start : related s m) (every : ∀ label ∈ labels, allowed label) :
    (replay respond (labels.map request) m).1 = labels.map reply ∧
      related final (replay respond (labels.map request) m).2 := by
  induction run generalizing m with
  | done => exact ⟨rfl, start⟩
  | @fire s middle final label rest first later ih =>
      rw [List.forall_mem_cons] at every
      obtain ⟨same, middleRelated⟩ := simulates s label middle m start every.1 first
      obtain ⟨replies, finalRelated⟩ := ih middleRelated every.2
      rw [List.map_cons, List.map_cons, replay_cons, same, replies]
      exact ⟨rfl, finalRelated⟩

end Replay

section Component

variable {Component : Type}

def repliesTo (mine : Request → Bool) (respond : Request → Machine → Reply × Machine)
    (requests : List Request) (m : Machine) : List Reply :=
  (requests.zip (replay respond requests m).1).filterMap fun answered =>
    if mine answered.1 then some answered.2 else none

variable {respond : Request → Machine → Reply × Machine}
  {component : Request → Component → Reply × Component} {mine : Request → Bool}

theorem repliesTo_cons (request : Request) (rest : List Request) (m : Machine) :
    repliesTo mine respond (request :: rest) m =
      if mine request then (respond request m).1 :: repliesTo mine respond rest (respond request m).2
      else repliesTo mine respond rest (respond request m).2 := by
  rw [repliesTo, replay_cons, List.zip_cons_cons, List.filterMap_cons]
  cases mine request <;> rfl

theorem replay_component (related : Machine → Component → Prop)
    (own : ∀ request m c, mine request = true → related m c →
      (respond request m).1 = (component request c).1 ∧
        related (respond request m).2 (component request c).2)
    (others : ∀ request m c, mine request = false → related m c → related (respond request m).2 c)
    (requests : List Request) {m : Machine} {c : Component} (start : related m c) :
    repliesTo mine respond requests m = (replay component (requests.filter mine) c).1 ∧
      related (replay respond requests m).2 (replay component (requests.filter mine) c).2 := by
  induction requests generalizing m c with
  | nil => exact ⟨rfl, start⟩
  | cons request rest ih =>
      rw [repliesTo_cons, replay_cons]
      cases marked : mine request with
      | true =>
          obtain ⟨reply, next⟩ := own request m c marked start
          obtain ⟨replies, last⟩ := ih next
          rw [List.filter_cons_of_pos marked, replay_cons, if_pos rfl, reply, replies]
          exact ⟨rfl, last⟩
      | false =>
          obtain ⟨replies, last⟩ := ih (others request m c marked start)
          rw [List.filter_cons_of_neg (by simp [marked]), if_neg Bool.false_ne_true]
          exact ⟨replies, last⟩

end Component

end LabelledRun

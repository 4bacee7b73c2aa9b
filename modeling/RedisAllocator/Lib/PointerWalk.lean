import RedisAllocator.Lib.NeighbourList

/-!
# Following pointers with a bound

A walk goes from key to key as a partial `follow` leads it, remembers where it has
been and gives up after a number of steps.  What it passes is a duplicate-free
trail; a trail that reaches `nil` is the list whose successors `follow` gives.
-/

set_option autoImplicit false

namespace PointerWalk

open NeighbourList

variable {K : Type}

/-! ## Trails -/

/-- From `start` the pointers lead through exactly these keys to `stop`. -/
def Leads (follow : K → Option K) : K → List K → K → Prop
  | start, [], stop => start = stop
  | start, k :: rest, stop => k = start ∧ ∃ next, follow k = some next ∧ Leads follow next rest stop

section Trail

variable {follow : K → Option K} {start stop nil : K} {items : List K}

theorem Leads.start_eq (leads : Leads follow start items nil) : start = items.headD nil := by
  cases items with
  | nil => exact leads
  | cons k rest => exact leads.1.symm

theorem Leads.followed (leads : Leads follow start items stop) :
    ∀ k ∈ items, (follow k).isSome := by
  induction items generalizing start with
  | nil => simp
  | cons a rest ih =>
      obtain ⟨_, next, followed, later⟩ := leads
      intro k present
      rcases List.mem_cons.mp present with rfl | inRest
      · rw [followed, Option.isSome_some]
      · exact ih later k inRest

variable [DecidableEq K]

theorem Leads.follow_eq (leads : Leads follow start items nil) (unique : items.Nodup) :
    ∀ k ∈ items, follow k = some (succIn nil items k) := by
  induction items generalizing start with
  | nil => simp
  | cons a rest ih =>
      obtain ⟨_, next, followed, later⟩ := leads
      obtain ⟨fresh, uniqueRest⟩ := List.nodup_cons.mp unique
      intro k present
      rcases List.mem_cons.mp present with rfl | inRest
      · rw [succIn_cons_self, followed, later.start_eq]
      · have different : a ≠ k := fun same => fresh (same ▸ inRest)
        rw [succIn_cons_of_ne different]
        exact ih later uniqueRest k inRest

theorem leads_of_follow_eq (unique : items.Nodup)
    (succ : ∀ k ∈ items, follow k = some (succIn nil items k)) :
    Leads follow (items.headD nil) items nil := by
  induction items with
  | nil => exact rfl
  | cons a rest ih =>
      obtain ⟨fresh, uniqueRest⟩ := List.nodup_cons.mp unique
      have later := ih uniqueRest fun k inRest => by
        have different : a ≠ k := fun same => fresh (same ▸ inRest)
        rw [succ k (List.mem_cons_of_mem a inRest), succIn_cons_of_ne different]
      refine ⟨rfl, rest.headD nil, ?_, later⟩
      rw [succ a (List.mem_cons_self ..), succIn_cons_self]

end Trail

/-! ## The walk -/

inductive Ending (K : Type)
  | finished
  | cycle (k : K)
  | stopped (k : K)
  | outOfSteps (k : K)

variable [DecidableEq K]

def walk (nil : K) (follow : K → Option K) : Nat → K → List K → List K × Ending K
  | 0, current, visited => (visited, .outOfSteps current)
  | bound + 1, current, visited =>
      if current = nil then (visited, .finished)
      else if current ∈ visited then (visited, .cycle current)
      else
        match follow current with
        | none => (visited, .stopped current)
        | some next => walk nil follow bound next (visited ++ [current])

variable {nil : K} {follow : K → Option K}

def Ending.At (nil : K) (follow : K → Option K) (stop : K) : Ending K → Prop
  | .finished => stop = nil
  | .stopped k => stop = k ∧ k ≠ nil ∧ follow k = none
  | .cycle k => stop = k
  | .outOfSteps k => stop = k

theorem walk_sound (nil : K) (follow : K → Option K) (bound : Nat) (start : K)
    {visited : List K} (unique : visited.Nodup) :
    ∃ path stop, (walk nil follow bound start visited).1 = visited ++ path ∧
      (visited ++ path).Nodup ∧ nil ∉ path ∧ Leads follow start path stop ∧
      (walk nil follow bound start visited).2.At nil follow stop := by
  induction bound generalizing start visited with
  | zero => exact ⟨[], start, by simp [walk], by simpa using unique, by simp, rfl, rfl⟩
  | succ bound ih =>
      unfold walk
      split
      · rename_i ended
        exact ⟨[], start, by simp, by simpa using unique, by simp, rfl, ended⟩
      · rename_i notNil
        split
        · exact ⟨[], start, by simp, by simpa using unique, by simp, rfl, rfl⟩
        · rename_i fresh
          split
          · rename_i dead
            exact ⟨[], start, by simp, by simpa using unique, by simp, rfl, rfl, notNil, dead⟩
          · rename_i next followed
            have uniqueLonger : (visited ++ [start]).Nodup := by
              rw [List.nodup_append_comm]
              simpa using ⟨fresh, unique⟩
            obtain ⟨path, stop, passed, uniquePath, solid, leads, ending⟩ := ih next uniqueLonger
            rw [List.append_assoc, List.singleton_append] at passed uniquePath
            refine ⟨start :: path, stop, passed, uniquePath, ?_, ⟨rfl, next, followed, leads⟩,
              ending⟩
            rw [List.mem_cons, not_or]
            exact ⟨Ne.symm notNil, solid⟩

/-- A trail to `nil` is walked to its end. -/
theorem walk_of_leads {bound : Nat} {start : K} {visited path : List K}
    (leads : Leads follow start path nil) (unique : (visited ++ path).Nodup) (solid : nil ∉ path)
    (enough : path.length < bound) :
    walk nil follow bound start visited = (visited ++ path, .finished) := by
  induction path generalizing bound start visited with
  | nil =>
      obtain ⟨bound, rfl⟩ := Nat.exists_eq_succ_of_ne_zero (Nat.ne_of_gt enough)
      have ended : start = nil := leads
      rw [walk, if_pos ended, List.append_nil]
  | cons a path ih =>
      obtain ⟨rfl, next, followed, later⟩ := leads
      obtain ⟨bound, rfl⟩ := Nat.exists_eq_succ_of_ne_zero (Nat.ne_of_gt (Nat.zero_lt_of_lt enough))
      rw [List.mem_cons, not_or] at solid
      have fresh : a ∉ visited := fun old =>
        List.disjoint_of_nodup_append unique old (List.mem_cons_self ..)
      have shifted : visited ++ a :: path = (visited ++ [a]) ++ path := by simp
      rw [shifted] at unique
      rw [walk, if_neg (Ne.symm solid.1), if_neg fresh, followed, shifted]
      exact ih later unique solid.2 (by simpa using enough)

end PointerWalk

import Mathlib.Data.List.Rotate
import RedisAllocator.Allocator.Policy
import RedisAllocator.Pool.Batches

/-!
# `refresh_pool_all`

A refresh over all params of the updater, behind a `clear` of the pool.  When
every fetch returns and every key is accepted, the members are replaced by what
was fetched.  A fetch that raises, or a key that is rejected, comes too late: the
pool is empty by then.
-/

set_option autoImplicit false

namespace RedisAllocator

open AbortableScript AbortableScript.Script

/-! ## A turn of the updater -/

section Updater

variable {Param Error : Type}

/-- What the next `n` fetches answer, each asked whether or not an earlier one raised. -/
def Updater.answers (fetch : Nat → Param → Except Error (List String)) :
    Nat → Updater Param → List (Except Error (List String))
  | 0, _ => []
  | n + 1, updater =>
    (updater.call (fetch n)).1 :: Updater.answers fetch n (updater.call (fetch n)).2

/-- The params fetched in `n` rounds; a fetch that raises is the last. -/
def Updater.fetched (fetch : Nat → Param → Except Error (List String)) :
    Nat → Updater Param → List Param
  | 0, _ => []
  | n + 1, updater =>
    updater.params.get ⟨updater.index, updater.inRange⟩ ::
      match updater.call (fetch n) with
      | (.error _, _) => []
      | (.ok _, updater') => Updater.fetched fetch n updater'

def Updater.turned (updater : Updater Param) (n : Nat) : Updater Param :=
  { updater with
    index := (updater.index + n) % updater.params.length
    inRange := Nat.mod_lt _ (Nat.lt_of_le_of_lt (Nat.zero_le _) updater.inRange) }

variable {fetch : Nat → Param → Except Error (List String)}

theorem Updater.turned_zero (updater : Updater Param) : updater.turned 0 = updater := by
  obtain ⟨params, index, inRange⟩ := updater
  simp [turned, Nat.mod_eq_of_lt inRange]

theorem Updater.turned_length (updater : Updater Param) :
    updater.turned updater.params.length = updater := by
  obtain ⟨params, index, inRange⟩ := updater
  simp [turned, Nat.mod_eq_of_lt inRange]

theorem Updater.turned_turned (updater : Updater Param) (m n : Nat) :
    (updater.turned m).turned n = updater.turned (m + n) := by
  simp [turned, Nat.add_assoc]

theorem Updater.call_eq (updater : Updater Param) (f : Param → Except Error (List String)) :
    updater.call f =
      (f (updater.params.get ⟨updater.index, updater.inRange⟩), updater.turned 1) := rfl

theorem Updater.answers_succ (n : Nat) (updater : Updater Param) :
    updater.answers fetch (n + 1) = fetch n (updater.params.get ⟨updater.index, updater.inRange⟩) ::
      (updater.turned 1).answers fetch n := rfl

theorem Updater.collect_returns {n : Nat} {updater : Updater Param} (keys : List String)
    (returned : ∀ answer ∈ updater.answers fetch n, ∃ fetched, answer = .ok fetched) :
    ∃ all, updater.collect fetch n keys = (.ok all, updater.turned n) ∧
      ∀ k, k ∈ all ↔ k ∈ keys ∨ ∃ fetched, .ok fetched ∈ updater.answers fetch n ∧ k ∈ fetched := by
  induction n generalizing updater keys with
  | zero => exact ⟨keys, by rw [collect, turned_zero], by simp [answers]⟩
  | succ n ih =>
      rw [answers_succ, List.forall_mem_cons] at returned
      obtain ⟨⟨first, answer⟩, later⟩ := returned
      obtain ⟨all, run, members⟩ := ih (keys ++ first) later
      refine ⟨all, ?_, fun k => ?_⟩
      · rw [collect, call_eq, answer]
        simp only
        rw [run, turned_turned, Nat.add_comm 1 n]
      · rw [members, answers_succ, answer]
        simp [or_assoc]

theorem Updater.collect_raises {n : Nat} {updater : Updater Param} (keys : List String)
    {error : Error} (raised : .error error ∈ updater.answers fetch n) :
    ∃ e, (updater.collect fetch n keys).1 = .error e := by
  induction n generalizing updater keys with
  | zero => cases raised
  | succ n ih =>
      rw [answers_succ, List.mem_cons] at raised
      rw [collect, call_eq]
      cases answer : fetch n (updater.params.get ⟨updater.index, updater.inRange⟩) with
      | error e => exact ⟨e, rfl⟩
      | ok first =>
          rcases raised with now | later
          · rw [answer] at now
            cases now
          · exact ih (keys ++ first) later

theorem Updater.fetched_eq {n : Nat} {updater : Updater Param} (within : n ≤ updater.params.length)
    (returned : ∀ answer ∈ updater.answers fetch n, ∃ fetched, answer = .ok fetched) :
    updater.fetched fetch n = (updater.params.rotate updater.index).take n := by
  induction n generalizing updater with
  | zero => rfl
  | succ n ih =>
      rw [answers_succ, List.forall_mem_cons] at returned
      obtain ⟨⟨_, answer⟩, later⟩ := returned
      have short : n ≤ (updater.turned 1).params.length := Nat.le_of_succ_le within
      have rest := ih short later
      rw [fetched, call_eq, answer]
      simp only
      have next : (updater.turned 1).params.rotate (updater.turned 1).index =
          (updater.params.rotate updater.index).rotate 1 := by
        rw [turned, List.rotate_mod, List.rotate_rotate]
      rw [rest, next]
      have first : (updater.params.rotate updater.index)[0]? =
          some (updater.params.get ⟨updater.index, updater.inRange⟩) := by
        rw [List.getElem?_rotate (Nat.lt_of_le_of_lt (Nat.zero_le _) updater.inRange), Nat.zero_add,
          Nat.mod_eq_of_lt updater.inRange, List.getElem?_eq_getElem updater.inRange]
        rfl
      have size := List.length_rotate updater.params updater.index
      cases turn : updater.params.rotate updater.index with
      | nil =>
          rw [turn] at first
          cases first
      | cons param others =>
          rw [turn, List.length_cons] at size
          rw [turn, List.getElem?_cons_zero, Option.some.injEq] at first
          rw [List.rotate_cons_succ, List.rotate_zero, List.take_append_of_le_length (by omega),
            List.take_succ_cons, first]

end Updater

/-! ## `refresh_pool_all` -/

section Policy

variable {Param Error : Type}

/-- `refresh_pool_all` on an allocator of either mode.  The fetches take some time. -/
def Policy.refreshPoolAll (shared : Bool) (policy : Policy Param) (refresh : Refresh Param Error)
    (elapsed : Nat) (s : Redis) : Redis × Policy Param :=
  let cleared := (clear s).2.advance elapsed
  let outcome := policy.refreshPool refresh policy.rounds
  (match outcome.1 with
    | none => cleared
    | some call => (call.perform shared cleared).2,
  outcome.2)

/-- Every fetch returns, and `_validate_keys` accepts every key. -/
def AllAccepted (answers : List (Except Error (List String))) : Prop :=
  ∀ answer ∈ answers, ∃ fetched, answer = .ok fetched ∧ validateKeys fetched = .ok ()

theorem AllAccepted.returned {answers : List (Except Error (List String))}
    (accepted : AllAccepted answers) : ∀ answer ∈ answers, ∃ fetched, answer = .ok fetched := by
  intro answer inAnswers
  obtain ⟨fetched, same, _⟩ := accepted answer inAnswers
  exact ⟨fetched, same⟩

/-- The pool is replaced by what was fetched, each param once, or it is left alone. -/
def ReplacesOrSpares (updater : Updater Param) (refresh : Refresh Param Error) (s : Redis)
    (outcome : Redis × Policy Param) : Prop :=
  let answers := updater.answers refresh.fetch updater.params.length
  (AllAccepted answers →
    (updater.fetched refresh.fetch updater.params.length).Perm updater.params ∧
    outcome.2.updater = some updater ∧
    ∀ k, (outcome.1.hget k).isSome ↔ ∃ fetched, .ok fetched ∈ answers ∧ k ∈ fetched) ∧
  (¬ AllAccepted answers →
    outcome.1.pool = s.pool ∧ outcome.1.headPointer = s.headPointer ∧
    outcome.1.tailPointer = s.tailPointer ∧ outcome.1.locks = s.locks)

variable {policy : Policy Param} {updater : Updater Param} {refresh : Refresh Param Error}

theorem Policy.refreshPool_returns (n : Nat) (isUpdater : policy.updater = some updater)
    (returned : ∀ answer ∈ updater.answers refresh.fetch n, ∃ fetched, answer = .ok fetched) :
    ∃ all, (∀ k, k ∈ all ↔ ∃ fetched, .ok fetched ∈ updater.answers refresh.fetch n ∧ k ∈ fetched) ∧
      policy.refreshPool refresh n =
        ((if all = [] then none
          else if updater.params.length = 1 then
            some (.assign (refresh.shuffle all) policy.expiryDuration refresh.allItems refresh.pairs)
          else some (.extend (refresh.shuffle all) (some policy.expiryDuration))),
        { policy with updater := some (updater.turned n) }) := by
  obtain ⟨all, run, members⟩ := Updater.collect_returns [] returned
  refine ⟨all, by simpa using members, ?_⟩
  rw [refreshPool, isUpdater]
  simp only [run]
  split
  · rfl
  · split <;> rfl

theorem Policy.refreshPool_raises {n : Nat} (isUpdater : policy.updater = some updater)
    {error : Error} (raised : .error error ∈ updater.answers refresh.fetch n) :
    (policy.refreshPool refresh n).1 = none := by
  obtain ⟨e, run⟩ := Updater.collect_raises [] raised
  rw [refreshPool, isUpdater]
  simp only
  split
  · rfl
  · rename_i returned
    rw [returned] at run
    cases run

theorem cleared_represents (s : Redis) : Represents (clear s).2 FreePool.empty := by
  obtain ⟨s', run, rep, _⟩ := clear_completes s
  rw [run]
  exact rep

theorem replaced_members (shared : Bool) {c : Redis} {call : Call} {keys : List String}
    {timeout : Int} (rep : Represents c FreePool.empty)
    (accepted : validateKeys keys = .ok ())
    (isCall : call = .extend keys (some timeout) ∨
      ∃ allItems pairs, call = .assign keys timeout allItems pairs)
    (admissible : call.Admissible c) (k : String) :
    ((call.perform shared c).2.hget k).isSome ↔ k ∈ keys := by
  rcases isCall with rfl | ⟨allItems, pairs, rfl⟩
  · obtain ⟨s', run, rep', _⟩ := extend_completes rep accepted (some timeout)
    have after : ((Call.extend keys (some timeout)).perform shared c).2 = s' :=
      discard_run run
    rw [after, rep'.hget_isSome, FreePool.expiry_joinAll]
    split <;> simp [*, FreePool.empty]
  · obtain ⟨unique, members, once, listed⟩ := rep.listings admissible
    obtain ⟨s', run, rep', _⟩ := assign_completes rep accepted unique members once listed timeout
    have after : ((Call.assign keys timeout allItems pairs).perform shared c).2 = s' :=
      discard_run run
    rw [after, rep'.hget_isSome, FreePool.expiry_assign members listed]
    split <;> simp [*]

theorem refused_unchanged (shared : Bool) (c : Redis) {call : Call} {keys : List String}
    {timeout : Int} (refused : validateKeys keys ≠ .ok ())
    (isCall : call = .extend keys (some timeout) ∨
      ∃ allItems pairs, call = .assign keys timeout allItems pairs) :
    (call.perform shared c).2 = c := by
  rcases isCall with rfl | ⟨allItems, pairs, rfl⟩
  · exact (discard_snd _ c).trans (extend_refused refused (some timeout) c)
  · exact (discard_snd _ c).trans (assign_refused refused timeout allItems pairs c)

theorem Policy.refreshPoolAll_replaces (shared : Bool) {elapsed : Nat} {s : Redis}
    (isUpdater : policy.updater = some updater)
    (shuffles : ∀ keys, (refresh.shuffle keys).Perm keys)
    (admissible : ∀ call, (policy.refreshPool refresh policy.rounds).1 = some call →
      call.Admissible ((clear s).2.advance elapsed))
    (accepted : AllAccepted (updater.answers refresh.fetch updater.params.length)) :
    (policy.refreshPoolAll shared refresh elapsed s).2.updater = some updater ∧
    ∀ k, ((policy.refreshPoolAll shared refresh elapsed s).1.hget k).isSome ↔
      ∃ fetched, .ok fetched ∈ updater.answers refresh.fetch updater.params.length ∧
        k ∈ fetched := by
  have rounds : policy.rounds = updater.params.length := by rw [rounds, isUpdater]
  obtain ⟨all, members, outcome⟩ :=
    Policy.refreshPool_returns updater.params.length isUpdater accepted.returned
  rw [rounds, outcome] at admissible
  rw [refreshPoolAll, rounds, outcome, Updater.turned_length]
  have valid : validateKeys (refresh.shuffle all) = .ok () := by
    rw [validateKeys_ok_iff]
    intro k inAll
    rw [(shuffles all).mem_iff, members] at inAll
    obtain ⟨fetched, inAnswers, inFetched⟩ := inAll
    obtain ⟨_, same, valid⟩ := accepted _ inAnswers
    cases same
    exact (validateKeys_ok_iff fetched).mp valid k inFetched
  have rep : Represents ((clear s).2.advance elapsed) FreePool.empty :=
    (cleared_represents s).of_outside_pool rfl rfl rfl
  refine ⟨rfl, fun k => ?_⟩
  rw [← members, ← (shuffles all).mem_iff]
  by_cases noKeys : all = []
  · have none : refresh.shuffle all = [] := by
      rw [noKeys]
      exact List.perm_nil.mp (shuffles [])
    rw [if_pos noKeys, none]
    simp only
    rw [rep.hget_isSome]
    simp [FreePool.empty]
  · rw [if_neg noKeys] at admissible ⊢
    by_cases single : updater.params.length = 1
    · rw [if_pos single] at admissible ⊢
      exact replaced_members shared rep valid (Or.inr ⟨_, _, rfl⟩) (admissible _ rfl) k
    · rw [if_neg single] at admissible ⊢
      exact replaced_members shared rep valid (Or.inl rfl) (admissible _ rfl) k

/-- Otherwise the refresh comes to nothing, behind the `clear`. -/
theorem Policy.refreshPoolAll_fails (shared : Bool) {elapsed : Nat} {s : Redis}
    (isUpdater : policy.updater = some updater)
    (shuffles : ∀ keys, (refresh.shuffle keys).Perm keys)
    (failed : ¬ AllAccepted (updater.answers refresh.fetch updater.params.length)) :
    (policy.refreshPoolAll shared refresh elapsed s).1 = (clear s).2.advance elapsed := by
  have rounds : policy.rounds = updater.params.length := by rw [rounds, isUpdater]
  rw [refreshPoolAll, rounds]
  by_cases returned : ∀ answer ∈ updater.answers refresh.fetch updater.params.length,
      ∃ fetched, answer = .ok fetched
  · obtain ⟨all, members, outcome⟩ :=
      Policy.refreshPool_returns updater.params.length isUpdater returned
    have refused : validateKeys (refresh.shuffle all) ≠ .ok () := by
      intro valid
      apply failed
      intro answer inAnswers
      obtain ⟨fetched, rfl⟩ := returned answer inAnswers
      refine ⟨fetched, rfl, (validateKeys_ok_iff fetched).mpr fun k inFetched => ?_⟩
      apply (validateKeys_ok_iff _).mp valid
      rw [(shuffles all).mem_iff, members]
      exact ⟨fetched, inAnswers, inFetched⟩
    have noKeys : all ≠ [] := by
      intro none
      rw [none, List.perm_nil.mp (shuffles [])] at refused
      exact refused rfl
    rw [outcome, if_neg noKeys]
    by_cases single : updater.params.length = 1
    · rw [if_pos single]
      exact refused_unchanged shared _ refused (Or.inr ⟨_, _, rfl⟩)
    · rw [if_neg single]
      exact refused_unchanged shared _ refused (Or.inl rfl)
  · simp only [not_forall] at returned
    obtain ⟨answer, inAnswers, notReturned⟩ := returned
    cases answer with
    | ok fetched => exact absurd ⟨fetched, rfl⟩ notReturned
    | error e =>
        rw [Policy.refreshPool_raises isUpdater inAnswers]

/-- `refresh_pool_all` keeps what it promises when every fetch returns and every key is accepted,
and otherwise only when there was no member to lose. -/
theorem refreshPoolAll_iff (shared : Bool) {s : Redis} {L : List String} (wf : WellFormed s L)
    (policy : Policy Param) (updater : Updater Param) (isUpdater : policy.updater = some updater)
    (refresh : Refresh Param Error) (shuffles : ∀ keys, (refresh.shuffle keys).Perm keys)
    (elapsed : Nat) (admissible : ∀ call, (policy.refreshPool refresh policy.rounds).1 = some call →
      call.Admissible ((clear s).2.advance elapsed)) :
    ReplacesOrSpares updater refresh s (policy.refreshPoolAll shared refresh elapsed s) ↔
      AllAccepted (updater.answers refresh.fetch updater.params.length) ∨ s.pool = ∅ := by
  constructor
  · rintro ⟨_, spares⟩
    by_cases accepted : AllAccepted (updater.answers refresh.fetch updater.params.length)
    · exact Or.inl accepted
    · obtain ⟨samePool, _⟩ := spares accepted
      rw [Policy.refreshPoolAll_fails shared isUpdater shuffles accepted] at samePool
      exact Or.inr samePool.symm
  · intro condition
    refine ⟨fun accepted => ?_, fun failed => ?_⟩
    · obtain ⟨sameUpdater, members⟩ :=
        Policy.refreshPoolAll_replaces shared isUpdater shuffles admissible accepted
      have once := Updater.fetched_eq le_rfl accepted.returned
      rw [List.take_of_length_le (List.length_rotate _ _).le] at once
      exact ⟨once ▸ List.rotate_perm _ _, sameUpdater, members⟩
    · have noEntry := condition.resolve_left failed
      have noneFree : L = [] := by
        rw [List.eq_nil_iff_forall_not_mem]
        intro k present
        have isMember := wf.member k present
        rw [Redis.hget, noEntry] at isMember
        cases isMember
      rw [Policy.refreshPoolAll_fails shared isUpdater shuffles failed, wf.head, wf.tail, noneFree,
        noEntry]
      exact ⟨rfl, rfl, rfl, rfl⟩

end Policy

/-! ### Two sources -/

/-- Each of the two params yields one key, unless it is told to raise. -/
def twoSources (raises : Bool → Bool) : Refresh Bool Unit :=
  ⟨fun _ param => if raises param then .error () else .ok [if param then "c" else "d"],
    List.reverse, [], []⟩

def hourlyUpdater : Updater Bool := ⟨[true, false], 0, Nat.zero_lt_two⟩

theorem refreshPoolAll_iff_sample :
    ReplacesOrSpares hourlyUpdater (twoSources fun _ => false) sampleChain
        (hourly.refreshPoolAll false (twoSources fun _ => false) 50 sampleChain) ↔
      AllAccepted (hourlyUpdater.answers (twoSources fun _ => false).fetch
        hourlyUpdater.params.length) ∨ sampleChain.pool = ∅ :=
  refreshPoolAll_iff false sampleChain_wellFormed hourly hourlyUpdater rfl _ List.reverse_perm 50
    (by
      intro call made
      cases made
      trivial)

/-- The second fetch raises, and the members are gone. -/
theorem failed_fetch_empties : WellFormed sampleChain ["a", "b"] ∧
    ¬ ReplacesOrSpares hourlyUpdater (twoSources (!·)) sampleChain
      (hourly.refreshPoolAll false (twoSources (!·)) 50 sampleChain) := by
  refine ⟨sampleChain_wellFormed, ?_⟩
  rintro ⟨_, spares⟩
  obtain ⟨samePool, _⟩ := spares (by
    intro accepted
    obtain ⟨fetched, same, _⟩ := accepted (.error ()) (by decide)
    cases same)
  have lost : (hourly.refreshPoolAll false (twoSources (!·)) 50 sampleChain).1.hget "a" = none := by
    decide
  rw [Redis.hget, samePool] at lost
  revert lost
  decide

end RedisAllocator

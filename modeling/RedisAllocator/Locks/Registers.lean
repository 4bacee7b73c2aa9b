import RedisAllocator.Lib.ComparingRegister
import RedisAllocator.Locks.Conditional

/-!
# The monotone setters

A key that is only written by `setgt` without a time to live is a maximum register,
and by `setlt` a minimum register, in both classes.  `setge` and `setle` tolerate
`eps` in every call, and what the calls of a sequence lose adds up.
-/

set_option autoImplicit false

namespace RedisAllocator

open ComparingRegister

/-! ## Runs of calls -/

abbrev TimedValues := List (Nat × Rat)

def TimedValues.length (schedule : TimedValues) : Nat := (schedule.map Prod.fst).sum

def TimedValues.values (schedule : TimedValues) : List Rat := schedule.map Prod.snd

namespace RedisLock

def setAll (tonumber : String → Option Rat) (eps : Rat) (setter : Rat → Setdel) :
    TimedValues → ValueStore → List (Except SetdelError Bool) × ValueStore
  | [], s => ([], s)
  | (elapsed, value) :: rest, s =>
    let (answer, s') := conditionalSetdel tonumber eps (setter value) (s.advance elapsed)
    let (answers, final) := setAll tonumber eps setter rest s'
    (answer :: answers, final)

end RedisLock

namespace ThreadLock

def setAll (float : String → Option Rat) (eps : Rat) (setter : Rat → Setdel) :
    TimedValues → ValueDict → List (Except SetdelError Bool) × ValueDict
  | [], t => ([], t)
  | (elapsed, value) :: rest, t =>
    let (answer, t') := conditionalSetdel float eps (setter value) (t.advance elapsed)
    let (answers, final) := setAll float eps setter rest t'
    (answer :: answers, final)

end ThreadLock

/-- At each of the instants the key is locked under this number, or is not locked. -/
def ReadsAs (reader : String → Option Rat) (valueAt : Nat → Option LockValue)
    (instants : Set Nat) (held : Option Rat) : Prop :=
  ∀ instant ∈ instants, (valueAt instant).map (LockValue.number? reader) = held.map some

theorem ReadsAs.bind {reader : String → Option Rat} {valueAt : Nat → Option LockValue}
    {instants : Set Nat} {held : Option Rat} (reads : ReadsAs reader valueAt instants held)
    {instant : Nat} (watched : instant ∈ instants) :
    (valueAt instant).bind (LockValue.number? reader) = held := by
  have now := reads instant watched
  cases found : valueAt instant <;> cases held <;> rw [found] at now <;>
    simp at now ⊢
  exact now

/-! ## `RedisLock` is a register -/

def plainSet (op : Operator) (key : String) (value : Rat) : Setdel :=
  ⟨op, key, value, none, none, false⟩

section Redis

variable (tonumber : String → Option Rat) (eps : Rat) (op : Operator) (key : String)

theorem RedisLock.conditionalSetdel_offers {s : ValueStore} {held : Option Rat}
    (reads : ReadsAs tonumber (s.valueAt key) (Set.Ici s.now) held) (value : Rat) :
    ∃ s', RedisLock.conditionalSetdel tonumber eps (plainSet op key value) s =
        (.ok (offer (condition eps op) held value).1, s') ∧ s'.now = s.now ∧
      ReadsAs tonumber (s'.valueAt key) (Set.Ici s'.now)
        (offer (condition eps op) held value).2 := by
  have passed : passes tonumber eps (plainSet op key value) (s.valueAt key s.now) =
      held.all (condition eps op value) := by
    rw [passes, reads.bind (Set.mem_Ici.mpr le_rfl)]
    rfl
  rw [conditionalSetdel, offer]
  simp only [show (plainSet op key value).key = key from rfl, passed]
  split
  · refine ⟨s.put key (some ⟨.number value, none⟩), rfl, rfl, fun instant _ => ?_⟩
    rw [ValueStore.valueAt_put]
    rfl
  · exact ⟨s, rfl, rfl, reads⟩

theorem RedisLock.setAll_offers (schedule : TimedValues) {s : ValueStore} {held : Option Rat}
    (reads : ReadsAs tonumber (s.valueAt key) (Set.Ici s.now) held) :
    ∃ s', RedisLock.setAll tonumber eps (plainSet op key) schedule s =
        ((offers (condition eps op) held schedule.values).1.map .ok, s') ∧
      ReadsAs tonumber (s'.valueAt key) (Set.Ici s'.now)
        (offers (condition eps op) held schedule.values).2 := by
  induction schedule generalizing s held with
  | nil => exact ⟨s, rfl, reads⟩
  | cons first rest ih =>
      obtain ⟨elapsed, value⟩ := first
      have later : ReadsAs tonumber ((s.advance elapsed).valueAt key)
          (Set.Ici (s.advance elapsed).now) held := fun instant after =>
        reads instant (Set.mem_Ici.mpr ((Nat.le_add_right _ _).trans (Set.mem_Ici.mp after)))
      obtain ⟨s₁, call, _, reads₁⟩ :=
        RedisLock.conditionalSetdel_offers tonumber eps op key later value
      obtain ⟨s', run, final⟩ := ih reads₁
      refine ⟨s', ?_, final⟩
      rw [setAll, call]
      simp only [run]
      rfl

end Redis

/-! ## `ThreadLock` is one until a value expires -/

section Thread

variable (float : String → Option Rat) (eps : Rat) (op : Operator) (key : String) (last : Nat)

theorem ThreadLock.conditionalSetdel_offers {t : ValueDict} {now : Nat}
    (clock : t.now = (now : Rat) / 1000) (running : now ≤ last)
    (soon : last < now + 1000 * 4070908800) {held : Option Rat}
    (reads : ReadsAs float (t.valueAt key) (Set.Icc now last) held) (value : Rat) :
    ∃ t', ThreadLock.conditionalSetdel float eps (plainSet op key value) t =
        (.ok (offer (RedisLock.condition eps op) held value).1, t') ∧ t'.now = t.now ∧
      ReadsAs float (t'.valueAt key) (Set.Icc now last)
        (offer (RedisLock.condition eps op) held value).2 := by
  have written : ReadsAs float ((ThreadLock.setdel (plainSet op key value) t).valueAt key)
      (Set.Icc now last) (some value) := by
    intro instant watched
    have before : (instant : Int) < now + 1000 * 4070908800 := by
      have := watched.2
      omega
    have unexpired := (ms_lt_iff instant now 4070908800).mpr before
    simp only [setdel, plainSet, Option.elim_none, Timeout.toSeconds, endOf2098, clock]
    rw [if_neg Bool.false_ne_true, ValueDict.valueAt_put_some,
      if_neg (not_le.mpr (by exact_mod_cast unexpired))]
    rfl
  rw [conditionalSetdel_run float eps (plainSet op key value) clock, offer,
    show (plainSet op key value).key = key from rfl]
  have current := reads now (Set.left_mem_Icc.mpr running)
  cases held with
  | none =>
      rw [Option.map_none, Option.map_eq_none_iff] at current
      rw [current]
      exact ⟨_, rfl, rfl, written⟩
  | some number =>
      obtain ⟨stored, found, read⟩ := Option.map_eq_some_iff.mp current
      rw [found]
      simp only [read, Option.all_some, show (plainSet op key value).op = op from rfl,
        show (plainSet op key value).value = value from rfl]
      split
      · exact ⟨_, rfl, rfl, written⟩
      · refine ⟨t.lookedUp key, rfl, rfl, fun instant watched => ?_⟩
        rw [ValueDict.valueAt_lookedUp]
        exact reads instant watched

theorem ThreadLock.setAll_offers (schedule : TimedValues) {t : ValueDict} {now : Nat}
    (clock : t.now = (now : Rat) / 1000) (ends : now + schedule.length = last)
    (soon : last < now + 1000 * 4070908800) {held : Option Rat}
    (reads : ReadsAs float (t.valueAt key) (Set.Icc now last) held) :
    ∃ t', ThreadLock.setAll float eps (plainSet op key) schedule t =
        ((offers (RedisLock.condition eps op) held schedule.values).1.map .ok, t') ∧
      ReadsAs float (t'.valueAt key) {last}
        (offers (RedisLock.condition eps op) held schedule.values).2 := by
  induction schedule generalizing t now held with
  | nil =>
      have atEnd : now = last := ends
      refine ⟨t, rfl, fun instant isLast => reads instant ?_⟩
      rw [Set.mem_singleton_iff] at isLast
      exact ⟨by omega, by omega⟩
  | cons first rest ih =>
      obtain ⟨elapsed, value⟩ := first
      have clock' : (t.advance elapsed).now = ((now + elapsed : Nat) : Rat) / 1000 := by
        rw [ValueDict.advance, clock, Nat.cast_add, add_div]
      have whole : now + (elapsed + TimedValues.length rest) = last := ends
      have later : ReadsAs float ((t.advance elapsed).valueAt key)
          (Set.Icc (now + elapsed) last) held := fun instant watched =>
        reads instant ⟨(Nat.le_add_right _ _).trans watched.1, watched.2⟩
      obtain ⟨t₁, call, sameClock, reads₁⟩ := ThreadLock.conditionalSetdel_offers float eps op key
        last clock' (by omega) (by omega) later value
      obtain ⟨t', run, final⟩ := ih (sameClock.trans clock') (by omega) (by omega) reads₁
      refine ⟨t', ?_, final⟩
      rw [setAll, call]
      simp only [run]
      rfl

end Thread

/-! ## The laws -/

/-- What a key comes to that held `held` and is given the values by one setter: `outcome` are the
answers of the calls and the number read after the last one. -/
structure RegisterLaws (eps : Rat) (key : String) (held : Option Rat) (values : List Rat)
    (outcome : (Rat → Setdel) → List (Except SetdelError Bool) × Option Rat) : Prop where
  setgt : outcome (fun value => RedisAllocator.setgt key value none none) =
    ((records (fun value earlier => earlier < value) held.toList values).map .ok,
      (held.toList ++ values).max?)
  setlt : outcome (fun value => RedisAllocator.setlt key value none none) =
    ((records (fun value earlier => value < earlier) held.toList values).map .ok,
      (held.toList ++ values).min?)
  setge : ∀ before value after, held.toList ++ values = before ++ value :: after →
    ∃ final, (outcome fun value => RedisAllocator.setge key value none none).2 = some final ∧
      value - after.length * eps ≤ final
  setle : ∀ before value after, held.toList ++ values = before ++ value :: after →
    ∃ final, (outcome fun value => RedisAllocator.setle key value none none).2 = some final ∧
      final ≤ value + after.length * eps

theorem losses_le {eps : Rat} (tolerance : 0 ≤ eps) {n m : Nat} (fewer : n ≤ m) :
    (n : Rat) * eps ≤ m * eps :=
  mul_le_mul_of_nonneg_right (by exact_mod_cast fewer) tolerance

theorem registerLaws_of_offers {eps : Rat} (tolerance : 0 ≤ eps) {key : String} {held : Option Rat}
    {values : List Rat} {outcome : (Rat → Setdel) → List (Except SetdelError Bool) × Option Rat}
    (offered : ∀ op, outcome (plainSet op key) =
      ((offers (RedisLock.condition eps op) held values).1.map .ok,
        (offers (RedisLock.condition eps op) held values).2)) :
    RegisterLaws eps key held values outcome where
  setgt := by
    have greatest : offers (RedisLock.condition eps .gt) held values = _ := offers_lt held values
    exact (offered .gt).trans (by rw [greatest])
  setlt := by
    have least : offers (RedisLock.condition eps .lt) held values = _ := offers_gt held values
    exact (offered .lt).trans (by rw [least])
  setge := by
    intro before value after cut
    rw [show (outcome fun value => RedisAllocator.setge key value none none) = _ from offered .ge]
    apply offers_within (fun n value final => value - n * eps ≤ final) _ _ _ _ _ cut
    · intro v
      simp
    · intro n m u v w first second
      push_cast
      linarith
    · intro n m v w fewer close
      have more := losses_le tolerance fewer
      linarith
    · intro v current passed
      simpa [RedisLock.condition] using passed
    · intro v current failed
      have below : v + eps < current := by simpa [RedisLock.condition] using failed
      push_cast
      linarith
  setle := by
    intro before value after cut
    rw [show (outcome fun value => RedisAllocator.setle key value none none) = _ from offered .le]
    apply offers_within (fun n value final => final ≤ value + n * eps) _ _ _ _ _ cut
    · intro v
      simp
    · intro n m u v w first second
      push_cast
      linarith
    · intro n m v w fewer close
      have more := losses_le tolerance fewer
      linarith
    · intro v current passed
      simpa [RedisLock.condition] using passed
    · intro v current failed
      have above : current + eps < v := by simpa [RedisLock.condition] using failed
      push_cast
      linarith

def RedisLock.outcome (tonumber : String → Option Rat) (eps : Rat) (key : String)
    (schedule : TimedValues) (s : ValueStore) (setter : Rat → Setdel) :
    List (Except SetdelError Bool) × Option Rat :=
  let (answers, s') := RedisLock.setAll tonumber eps setter schedule s
  (answers, (s'.valueAt key s'.now).bind (LockValue.number? tonumber))

def ThreadLock.outcome (float : String → Option Rat) (eps : Rat) (key : String)
    (schedule : TimedValues) (t : ValueDict) (last : Nat) (setter : Rat → Setdel) :
    List (Except SetdelError Bool) × Option Rat :=
  let (answers, t') := ThreadLock.setAll float eps setter schedule t
  (answers, (t'.valueAt key last).bind (LockValue.number? float))

/-- The setters are maximum and minimum registers but for what `eps` lets each call lose.  To
`ThreadLock` a value without a time to live lasts until the end of 2098, counted from 1970 instead
of from now; the run has to end before that. -/
theorem monotoneSetters_registerLaws (tonumber float : String → Option Rat) {eps : Rat}
    (tolerance : 0 ≤ eps) (key : String) (held : Option Rat) (schedule : TimedValues) :
    (∀ s : ValueStore, ReadsAs tonumber (s.valueAt key) (Set.Ici s.now) held →
      RegisterLaws eps key held schedule.values
        (RedisLock.outcome tonumber eps key schedule s)) ∧
    ∀ (t : ValueDict) (now : Nat), t.now = (now : Rat) / 1000 →
      schedule.length < 1000 * 4070908800 →
      ReadsAs float (t.valueAt key) (Set.Icc now (now + schedule.length)) held →
      RegisterLaws eps key held schedule.values
        (ThreadLock.outcome float eps key schedule t (now + schedule.length)) := by
  constructor
  · intro s reads
    apply registerLaws_of_offers tolerance
    intro op
    obtain ⟨s', run, final⟩ := RedisLock.setAll_offers tonumber eps op key schedule reads
    rw [RedisLock.outcome, run]
    simp only [final.bind (Set.mem_Ici.mpr le_rfl)]
  · intro t now clock soon reads
    apply registerLaws_of_offers tolerance
    intro op
    obtain ⟨t', run, final⟩ := ThreadLock.setAll_offers float eps op key (now + schedule.length)
      schedule clock rfl (by omega) reads
    rw [ThreadLock.outcome, run]
    simp only [final.bind (Set.mem_singleton _)]

def tenStored : ValueStore := ValueStore.put ⟨0, fun _ => none⟩ "k" (some ⟨.number 10, none⟩)

def tenKept : ValueDict := ValueDict.put ⟨0, fun _ => none⟩ "k" (some ⟨.number 10, endOf2098⟩)

theorem monotoneSetters_registerLaws_ten :
    RegisterLaws 1 "k" (some 10) (TimedValues.values [(0, 12), (5, 11)])
        (RedisLock.outcome Lua.tonumber 1 "k" [(0, 12), (5, 11)] tenStored) ∧
      RegisterLaws 1 "k" (some 10) (TimedValues.values [(0, 12), (5, 11)])
        (ThreadLock.outcome Python.float 1 "k" [(0, 12), (5, 11)] tenKept 5) := by
  have laws := monotoneSetters_registerLaws Lua.tonumber Python.float
    (by norm_num : (0 : Rat) ≤ 1) "k" (some 10) [(0, 12), (5, 11)]
  refine ⟨laws.1 tenStored fun instant _ => ?_,
    laws.2 tenKept 0 (by norm_num [tenKept, ValueDict.put]) (by decide) fun instant watched => ?_⟩
  · rw [tenStored, ValueStore.valueAt_put]
    rfl
  · have early : (instant : Rat) ≤ 5 := by exact_mod_cast watched.2
    rw [tenKept, ValueDict.valueAt_put_some, if_neg]
    · rfl
    · rw [endOf2098, not_le]
      linarith

/-- With a tolerance of 1, `setge` takes 9 over 10 and then 8 over 9.  And after 129 years, when
`ThreadLock` has dropped a 5, `setgt` takes a 3. -/
theorem setge_loses_twice :
    ((some 10).toList ++ [9, 8] : List Rat).max? = some 10 ∧
    (RedisLock.outcome Lua.tonumber 1 "k" [(0, 9), (0, 8)] tenStored
      fun value => setge "k" value none none).2 = some 8 ∧
    (ThreadLock.outcome Python.float 1 "k" [(0, 9), (0, 8)] tenKept 0
      fun value => setge "k" value none none).2 = some 8 ∧
    ¬ (10 - 1 : Rat) ≤ 8 ∧
    (ThreadLock.outcome Python.float 1 "k" [(0, 5), (4070908800000, 3)] ⟨0, fun _ => none⟩
      4070908800000 fun value => setgt "k" value none none).2 = some 3 := by
  refine ⟨by decide +kernel, by decide +kernel, by decide +kernel, by norm_num,
    by decide +kernel⟩

end RedisAllocator

import Mathlib.Tactic.Linarith
import RedisAllocator.Codec.LuaNumber
import RedisAllocator.Locks.LockClasses

/-!
# Conditional set and delete

`_conditional_setdel` of `RedisLock`, which is a Lua script, and of `ThreadLock`.
Numbers are exact: what a call stores is read back as the number it was given.
How the two languages read a text is a parameter, one reader for each.
-/

set_option autoImplicit false

namespace RedisAllocator

/-- A stored value: a text, or a number that a conditional set has written. -/
inductive LockValue
  | text (characters : String)
  | number (value : Rat)
deriving DecidableEq

/-- The value as the language sees it that reads texts with `reader`. -/
def LockValue.number? (reader : String → Option Rat) : LockValue → Option Rat
  | .text characters => reader characters
  | .number value => some value

inductive Operator
  | gt
  | lt
  | ge
  | le
  | eq
  | ne
deriving DecidableEq

inductive SetdelError
  | response (message : String)
  /-- `float` of a text that is no number -/
  | valueError (value : LockValue)
deriving DecidableEq

/-! ## The calls of `BaseLock` -/

structure Setdel where
  op : Operator
  key : String
  value : Rat
  setValue : Option Rat
  ex : Option Int
  isdel : Bool

section Calls

variable (key : String) (value : Rat) (setValue : Option Rat) (ex : Option Int)

def setgt : Setdel := ⟨.gt, key, value, setValue, ex, false⟩

def setlt : Setdel := ⟨.lt, key, value, setValue, ex, false⟩

def setge : Setdel := ⟨.ge, key, value, setValue, ex, false⟩

def setle : Setdel := ⟨.le, key, value, setValue, ex, false⟩

def seteq : Setdel := ⟨.eq, key, value, setValue, ex, false⟩

def setne : Setdel := ⟨.ne, key, value, setValue, ex, false⟩

def delgt : Setdel := ⟨.gt, key, value, none, none, true⟩

def dellt : Setdel := ⟨.lt, key, value, none, none, true⟩

def delge : Setdel := ⟨.ge, key, value, none, none, true⟩

def delle : Setdel := ⟨.le, key, value, none, none, true⟩

def deleq : Setdel := ⟨.eq, key, value, none, none, true⟩

def delne : Setdel := ⟨.ne, key, value, none, none, true⟩

end Calls

/-! ## `RedisLock` -/

structure ValueKey where
  value : LockValue
  expireAt : Option Nat
deriving DecidableEq

structure ValueStore where
  now : Nat
  keys : String → Option ValueKey

namespace ValueStore

variable (s : ValueStore) (key : String)

/-- `GET` at an instant, if nothing is written until then. -/
def valueAt (instant : Nat) : Option LockValue :=
  ((s.keys key).filter fun stored => stored.expireAt.all (instant < ·)).map ValueKey.value

def advance (elapsed : Nat) : ValueStore := { s with now := s.now + elapsed }

def put (stored : Option ValueKey) : ValueStore :=
  { s with keys := Function.update s.keys key stored }

/-- The instant of a `SET ... EX seconds` has to fit in 64 bits. -/
def refuses (seconds : Int) : Bool := (expiresAt? (some (2 ^ 63)) s.now seconds).isNone

/-- Lua writes a number from `10^17` on with an exponent, which is no integer to Redis. -/
def refusal (seconds : Int) : SetdelError :=
  .response (if 10 ^ 17 ≤ seconds then "ERR value is not an integer or out of range"
    else "ERR invalid expire time in 'set' command")

end ValueStore

namespace RedisLock

/-- The `condition` the script is generated with. -/
def condition (eps : Rat) (op : Operator) (compareValue currentValue : Rat) : Bool :=
  match op with
  | .gt => compareValue > currentValue
  | .lt => compareValue < currentValue
  | .ge => compareValue ≥ currentValue - eps
  | .le => compareValue ≤ currentValue + eps
  | .eq => |compareValue - currentValue| < eps
  | .ne => |compareValue - currentValue| > eps

/-- The body of the script's `if`; an `ex` of `None` is passed as -1. -/
def setdel (call : Setdel) (s : ValueStore) : Except SetdelError Bool × ValueStore :=
  let newValue := call.setValue.getD call.value
  let ex := call.ex.getD (-1)
  if call.isdel then (.ok true, s.put call.key none)
  else if 0 < ex then
    if s.refuses ex then (.error (ValueStore.refusal ex), s)
    else (.ok true, s.put call.key (some ⟨.number newValue, some (s.now + 1000 * ex.toNat)⟩))
  else (.ok true, s.put call.key (some ⟨.number newValue, none⟩))

/-- `current_value == nil or condition`: a missing key and a text that is no number are `nil`. -/
def passes (tonumber : String → Option Rat) (eps : Rat) (call : Setdel)
    (current : Option LockValue) : Bool :=
  (current.bind (LockValue.number? tonumber)).all (condition eps call.op call.value)

def conditionalSetdel (tonumber : String → Option Rat) (eps : Rat) (call : Setdel)
    (s : ValueStore) : Except SetdelError Bool × ValueStore :=
  if passes tonumber eps call (s.valueAt call.key s.now) then setdel call s else (.ok false, s)

end RedisLock

/-! ## `ThreadLock` -/

structure ValueData where
  value : LockValue
  expiry : Rat
deriving DecidableEq

structure ValueDict where
  now : Rat
  locks : String → Option ValueData

namespace ValueDict

variable (t : ValueDict) (key : String)

/-- `self._locks[key]` of a `defaultdict` -/
def data : ValueData := (t.locks key).getD ⟨.text "1", 0⟩

/-- `elapsed` in milliseconds -/
def advance (elapsed : Nat) : ValueDict := { t with now := t.now + (elapsed : Rat) / 1000 }

def put (data : Option ValueData) : ValueDict :=
  { t with locks := Function.update t.locks key data }

def lookedUp : ValueDict := t.put key (some (t.data key))

def valueAt (instant : Nat) : Option LockValue :=
  if (t.data key).expiry ≤ (instant : Rat) / 1000 then none else some (t.data key).value

end ValueDict

namespace ThreadLock

def compareValues (eps : Rat) (op : Operator) (compareValue currentValue : Rat) : Bool :=
  match op with
  | .gt => compareValue > currentValue
  | .lt => compareValue < currentValue
  | .ge => compareValue ≥ currentValue - eps
  | .le => compareValue ≤ currentValue + eps
  | .eq => |compareValue - currentValue| < eps
  | .ne => |compareValue - currentValue| > eps

/-- `float(current_data.value)`, or `None` of what has expired -/
def currentValue (float : String → Option Rat) (now : Rat) (data : ValueData) :
    Except SetdelError (Option Rat) :=
  if data.expiry ≤ now then .ok none
  else
    match data.value.number? float with
    | some value => .ok (some value)
    | none => .error (.valueError data.value)

def setdel (call : Setdel) (t : ValueDict) : ValueDict :=
  let setValue := call.setValue.getD call.value
  if call.isdel then t.put call.key none
  else
    let expiry := t.now + (call.ex.elim Timeout.none Timeout.int).toSeconds
    t.put call.key (some ⟨.number setValue, expiry⟩)

def conditionalSetdel (float : String → Option Rat) (eps : Rat) (call : Setdel) (t : ValueDict) :
    Except SetdelError Bool × ValueDict :=
  let currentData := t.data call.key
  let t := t.lookedUp call.key
  match currentValue float t.now currentData with
  | .error error => (.error error, t)
  | .ok currentValue =>
    if currentValue.all (compareValues eps call.op call.value) then (.ok true, setdel call t)
    else (.ok false, t)

end ThreadLock

/-! ## What the key holds afterwards -/

theorem ThreadLock.compareValues_eq : ThreadLock.compareValues = RedisLock.condition := by
  funext eps op compareValue currentValue
  cases op <;> rfl

@[simp]
theorem ValueStore.valueAt_put (s : ValueStore) (key : String) (stored : Option ValueKey)
    (instant : Nat) : (s.put key stored).valueAt key instant =
      (stored.filter fun stored => stored.expireAt.all (instant < ·)).map ValueKey.value := by
  rw [valueAt, put]
  simp only [Function.update_self]

namespace ValueDict

variable (t : ValueDict) (key : String)

@[simp]
theorem data_put (data : Option ValueData) :
    (t.put key data).data key = data.getD ⟨.text "1", 0⟩ := by
  rw [ValueDict.data, put]
  simp only [Function.update_self]

@[simp]
theorem now_lookedUp : (t.lookedUp key).now = t.now := rfl

@[simp]
theorem data_lookedUp : (t.lookedUp key).data key = t.data key := by
  rw [lookedUp, data_put, Option.getD_some]

@[simp]
theorem valueAt_lookedUp (instant : Nat) :
    (t.lookedUp key).valueAt key instant = t.valueAt key instant := by
  rw [valueAt, valueAt, data_lookedUp]

@[simp]
theorem put_lookedUp (data : Option ValueData) : (t.lookedUp key).put key data = t.put key data := by
  rw [lookedUp, put, put, put]
  simp only [Function.update_idem]

@[simp]
theorem valueAt_put_none (instant : Nat) : (t.put key none).valueAt key instant = none := by
  rw [valueAt, data_put, Option.getD_none]
  exact if_pos (div_nonneg (Nat.cast_nonneg _) (by norm_num))

@[simp]
theorem valueAt_put_some (data : ValueData) (instant : Nat) :
    (t.put key (some data)).valueAt key instant =
      if data.expiry ≤ (instant : Rat) / 1000 then none else some data.value := by
  rw [valueAt, data_put, Option.getD_some]

end ValueDict

theorem ThreadLock.currentValue_eq (float : String → Option Rat) {t : ValueDict} {now : Nat}
    (clock : t.now = (now : Rat) / 1000) (key : String) :
    ThreadLock.currentValue float t.now (t.data key) =
      match t.valueAt key now with
      | none => .ok none
      | some held =>
        match held.number? float with
        | some value => .ok (some value)
        | none => .error (.valueError held) := by
  rw [currentValue, ValueDict.valueAt, clock]
  split <;> rfl

theorem ThreadLock.setdel_lookedUp (call : Setdel) (t : ValueDict) :
    ThreadLock.setdel call (t.lookedUp call.key) = ThreadLock.setdel call t := by
  rw [setdel, setdel, ValueDict.put_lookedUp, ValueDict.put_lookedUp]
  rfl

theorem ThreadLock.conditionalSetdel_run (float : String → Option Rat) (eps : Rat) (call : Setdel)
    {t : ValueDict} {now : Nat} (clock : t.now = (now : Rat) / 1000) :
    ThreadLock.conditionalSetdel float eps call t =
      match t.valueAt call.key now with
      | none => (.ok true, ThreadLock.setdel call t)
      | some held =>
        match held.number? float with
        | none => (.error (.valueError held), t.lookedUp call.key)
        | some current =>
          if RedisLock.condition eps call.op call.value current
            then (.ok true, ThreadLock.setdel call t) else (.ok false, t.lookedUp call.key) := by
  rw [conditionalSetdel]
  simp only [ValueDict.now_lookedUp, currentValue_eq float clock, setdel_lookedUp,
    compareValues_eq]
  cases t.valueAt call.key now with
  | none => rfl
  | some held =>
      simp only
      cases held.number? float <;> rfl

/-! ## Agreement -/

/-- Both calls answer alike or both raise, and at each of the instants the key is locked in both
classes or in none, with the same number. -/
structure Setdel.Agrees (call : Setdel) (tonumber float : String → Option Rat)
    (instants : Set Nat) (inRedis : Except SetdelError Bool × ValueStore)
    (inThread : Except SetdelError Bool × ValueDict) : Prop where
  answer : inRedis.1.toOption = inThread.1.toOption
  after : ∀ instant ∈ instants,
    (inRedis.2.valueAt call.key instant).map (LockValue.number? tonumber) =
      (inThread.2.valueAt call.key instant).map (LockValue.number? float)

/-- What a set writes is there for the same time: a positive one that Redis takes, or, without a
time, for as long as anyone looks before `ThreadLock` forgets it. -/
def Setdel.Expires (call : Setdel) (s : ValueStore) (instants : Set Nat) : Prop :=
  match call.ex with
  | some ex => 0 < ex ∧ s.refuses ex = false
  | none => ∀ instant ∈ instants, instant < s.now + 1000 * 4070908800

section Agreement

variable {s : ValueStore} {t : ValueDict} {instants : Set Nat}

theorem Setdel.agrees_of_put_iff (call : Setdel) (tonumber float : String → Option Rat)
    (value : Rat) (deadline : Option Nat) (expiry : Rat) :
    call.Agrees tonumber float instants
        (.ok true, s.put call.key (some ⟨.number value, deadline⟩))
        (.ok true, t.put call.key (some ⟨.number value, expiry⟩)) ↔
      ∀ instant ∈ instants, deadline.all (instant < ·) = true ↔ (instant : Rat) / 1000 < expiry := by
  have at_iff (instant : Nat) :
      ((s.put call.key (some ⟨.number value, deadline⟩)).valueAt call.key instant).map
          (LockValue.number? tonumber) =
        ((t.put call.key (some ⟨.number value, expiry⟩)).valueAt call.key instant).map
          (LockValue.number? float) ↔
      (deadline.all (instant < ·) = true ↔ (instant : Rat) / 1000 < expiry) := by
    rw [ValueStore.valueAt_put, ValueDict.valueAt_put_some, Option.filter_some, ← not_le]
    cases deadline.all (instant < ·) <;> by_cases lapsed : expiry ≤ (instant : Rat) / 1000 <;>
      simp [lapsed, LockValue.number?]
  exact ⟨fun agrees instant watched => (at_iff instant).mp (agrees.after instant watched),
    fun both => ⟨rfl, fun instant watched => (at_iff instant).mpr (both instant watched)⟩⟩

theorem ms_lt_iff (instant now : Nat) (seconds : Int) :
    (instant : Rat) / 1000 < (now : Rat) / 1000 + seconds ↔
      (instant : Int) < now + 1000 * seconds := by
  rw [← Int.cast_lt (R := Rat)]
  push_cast
  constructor <;> intro before <;> linarith

theorem Setdel.setdel_agrees_iff (call : Setdel) (tonumber float : String → Option Rat)
    (clocks : t.now = (s.now : Rat) / 1000) (present : s.now ∈ instants) :
    call.Agrees tonumber float instants (RedisLock.setdel call s)
        (.ok true, ThreadLock.setdel call t) ↔ call.isdel = true ∨ call.Expires s instants := by
  by_cases isdel : call.isdel = true
  · refine iff_of_true ?_ (Or.inl isdel)
    rw [RedisLock.setdel, ThreadLock.setdel, if_pos isdel, if_pos isdel]
    exact ⟨rfl, fun instant _ => by simp⟩
  · rw [or_iff_right isdel, RedisLock.setdel, ThreadLock.setdel, if_neg isdel, if_neg isdel,
      Setdel.Expires, clocks]
    cases call.ex with
    | none =>
        rw [Option.getD_none, if_neg (by decide), Setdel.agrees_of_put_iff]
        simp only [Option.all_none, true_iff, Option.elim_none, Timeout.toSeconds, endOf2098]
        apply forall₂_congr
        intro instant _
        have within := ms_lt_iff instant s.now 4070908800
        push_cast at within
        rw [within]
        omega
    | some ex =>
        simp only [Option.getD_some, Option.elim_some, Timeout.toSeconds]
        by_cases positive : 0 < ex
        · rw [if_pos positive, and_iff_right positive]
          by_cases refused : s.refuses ex = true
          · rw [if_pos refused]
            refine iff_of_false (fun agrees => ?_) (by simp [refused])
            cases agrees.answer
          · rw [if_neg refused, Setdel.agrees_of_put_iff]
            refine iff_of_true (fun instant _ => ?_) (by simpa using refused)
            rw [ms_lt_iff, Option.all_some, decide_eq_true_iff]
            omega
        · rw [if_neg positive, Setdel.agrees_of_put_iff]
          refine iff_of_false (fun both => ?_) fun good => positive good.1
          have forever := (both s.now present).mp rfl
          rw [ms_lt_iff] at forever
          omega

/-- The state before the call lets the classes agree.  They come to the same comparison, and if it
is negative both read the same number; if it is positive, a set has a time both understand.  Where
`float` raises, Redis has to raise as well, over a time to live it refuses. -/
def Setdel.Compatible (call : Setdel) (tonumber float : String → Option Rat) (eps : Rat)
    (s : ValueStore) (instants : Set Nat) : Prop :=
  match s.valueAt call.key s.now with
  | none => call.isdel = true ∨ call.Expires s instants
  | some held =>
    match held.number? float with
    | some number =>
      RedisLock.passes tonumber eps call (some held) =
          RedisLock.condition eps call.op call.value number ∧
        if RedisLock.condition eps call.op call.value number = true
          then call.isdel = true ∨ call.Expires s instants
          else held.number? tonumber = some number
    | none => held.number? tonumber = none ∧ call.isdel = false ∧
        ∃ ex, call.ex = some ex ∧ 0 < ex ∧ s.refuses ex = true

theorem RedisLock.setdel_refused_iff (call : Setdel) (s : ValueStore) :
    (RedisLock.setdel call s).1.toOption = none ↔
      call.isdel = false ∧ ∃ ex, call.ex = some ex ∧ 0 < ex ∧ s.refuses ex = true := by
  rw [setdel]
  cases call.isdel with
  | true => simp [Except.toOption]
  | false =>
      cases call.ex with
      | none => simp [Except.toOption]
      | some ex =>
          by_cases positive : 0 < ex <;> by_cases refused : s.refuses ex = true <;>
            simp [positive, refused, Except.toOption]

theorem RedisLock.setdel_answer (call : Setdel) (s : ValueStore) :
    (RedisLock.setdel call s).1.toOption ≠ some false := by
  rw [setdel]
  split
  · simp [Except.toOption]
  · split
    · split <;> simp [Except.toOption]
    · simp [Except.toOption]

theorem RedisLock.setdel_of_refused {call : Setdel} {s : ValueStore}
    (refused : (RedisLock.setdel call s).1.toOption = none) : (RedisLock.setdel call s).2 = s := by
  obtain ⟨isSet, ex, isEx, positive, refuses⟩ := (setdel_refused_iff call s).mp refused
  rw [setdel, isSet, isEx, Option.getD_some, if_neg Bool.false_ne_true, if_pos positive,
    if_pos refuses]

theorem ValueStore.eq_of_valueAt {key : String} {instant instant' : Nat} {held held' : LockValue}
    (found : s.valueAt key instant = some held) (found' : s.valueAt key instant' = some held') :
    held = held' := by
  obtain ⟨stored, live, rfl⟩ := Option.map_eq_some_iff.mp found
  obtain ⟨stored', live', rfl⟩ := Option.map_eq_some_iff.mp found'
  have kept := (Option.filter_eq_some_iff.mp live).1
  have kept' := (Option.filter_eq_some_iff.mp live').1
  rw [kept, Option.some.injEq] at kept'
  rw [kept']

theorem Setdel.agrees_of_kept_iff (call : Setdel) (tonumber float : String → Option Rat)
    {held : LockValue} (inRedis : s.valueAt call.key s.now = some held)
    (same : ∀ instant ∈ instants, s.valueAt call.key instant = t.valueAt call.key instant)
    (present : s.now ∈ instants) (answer answer' : Except SetdelError Bool) :
    call.Agrees tonumber float instants (answer, s) (answer', t.lookedUp call.key) ↔
      answer.toOption = answer'.toOption ∧ held.number? tonumber = held.number? float := by
  constructor
  · intro agrees
    have now := agrees.after s.now present
    rw [ValueDict.valueAt_lookedUp, ← same s.now present, inRedis] at now
    exact ⟨agrees.answer, by simpa using now⟩
  · rintro ⟨answers, alike⟩
    refine ⟨answers, fun instant watched => ?_⟩
    rw [ValueDict.valueAt_lookedUp, ← same instant watched]
    cases later : s.valueAt call.key instant with
    | none => rfl
    | some held' =>
        rw [← ValueStore.eq_of_valueAt inRedis later, Option.map_some, Option.map_some, alike]

theorem Setdel.raises_agrees_iff (call : Setdel) (tonumber float : String → Option Rat) (eps : Rat)
    {held : LockValue} (inRedis : s.valueAt call.key s.now = some held)
    (same : ∀ instant ∈ instants, s.valueAt call.key instant = t.valueAt call.key instant)
    (present : s.now ∈ instants) (unread : held.number? float = none) :
    call.Agrees tonumber float instants (RedisLock.conditionalSetdel tonumber eps call s)
        (.error (.valueError held), t.lookedUp call.key) ↔
      held.number? tonumber = none ∧ call.isdel = false ∧
        ∃ ex, call.ex = some ex ∧ 0 < ex ∧ s.refuses ex = true := by
  rw [RedisLock.conditionalSetdel, inRedis, ← RedisLock.setdel_refused_iff]
  cases readLua : held.number? tonumber with
  | none =>
      have passed : RedisLock.passes tonumber eps call (some held) = true := by
        rw [RedisLock.passes, Option.bind_some, readLua, Option.all_none]
      rw [if_pos passed, and_iff_right rfl]
      constructor
      · exact fun agrees => agrees.answer
      · intro refused
        have unchanged : RedisLock.setdel call s = ((RedisLock.setdel call s).1, s) :=
          Prod.ext rfl (RedisLock.setdel_of_refused refused)
        rw [unchanged, call.agrees_of_kept_iff tonumber float inRedis same present, readLua,
          unread]
        exact ⟨refused, rfl⟩
  | some number =>
      refine iff_of_false (fun agrees => ?_) fun never => by cases never.1
      by_cases passed : RedisLock.passes tonumber eps call (some held) = true
      · rw [if_pos passed] at agrees
        have unchanged : RedisLock.setdel call s = ((RedisLock.setdel call s).1, s) :=
          Prod.ext rfl (RedisLock.setdel_of_refused agrees.answer)
        rw [unchanged, call.agrees_of_kept_iff tonumber float inRedis same present, readLua,
          unread] at agrees
        cases agrees.2
      · rw [if_neg passed] at agrees
        cases agrees.answer

/-- Started alike, the classes agree on a call exactly if the state and the arguments are
compatible.  The instants are those at which the keys are looked at, from now on. -/
theorem conditionalSetdel_agrees_iff (tonumber float : String → Option Rat) (eps : Rat)
    (clocks : t.now = (s.now : Rat) / 1000) (call : Setdel) (present : s.now ∈ instants)
    (same : ∀ instant ∈ instants, s.valueAt call.key instant = t.valueAt call.key instant) :
    call.Agrees tonumber float instants (RedisLock.conditionalSetdel tonumber eps call s)
        (ThreadLock.conditionalSetdel float eps call t) ↔
      call.Compatible tonumber float eps s instants := by
  rw [ThreadLock.conditionalSetdel_run float eps call clocks, ← same s.now present,
    Setdel.Compatible]
  cases inRedis : s.valueAt call.key s.now with
  | none =>
      have passed : RedisLock.conditionalSetdel tonumber eps call s = RedisLock.setdel call s := by
        rw [RedisLock.conditionalSetdel, inRedis]
        rfl
      rw [passed]
      exact call.setdel_agrees_iff tonumber float clocks present
  | some held =>
      cases read : held.number? float with
      | none =>
          simp only [read]
          exact call.raises_agrees_iff tonumber float eps inRedis same present read
      | some number =>
          simp only [read]
          rw [RedisLock.conditionalSetdel, inRedis]
          by_cases compared : RedisLock.condition eps call.op call.value number = true <;>
            by_cases passed : RedisLock.passes tonumber eps call (some held) = true
          · rw [if_pos compared, if_pos passed, if_pos compared, compared, and_iff_right passed]
            exact call.setdel_agrees_iff tonumber float clocks present
          · rw [if_pos compared, if_neg passed, compared]
            refine iff_of_false (fun agrees => ?_) fun alike => passed alike.1
            cases agrees.answer
          · rw [if_neg compared, if_pos passed]
            refine iff_of_false (fun agrees => ?_) fun alike => compared (alike.1 ▸ passed)
            exact RedisLock.setdel_answer call s agrees.answer
          · rw [if_neg compared, if_neg passed, if_neg compared,
              call.agrees_of_kept_iff tonumber float inRedis same present, read]
            rw [Bool.not_eq_true] at compared passed
            exact and_congr_left fun _ => iff_of_true rfl (passed.trans compared.symm)

end Agreement

/-! ## The readers, and where the classes part -/

namespace Python

/-- Single underscores between digits are left out, others make the text no number. -/
def dropUnderscores (previous : Char) : List Char → Option (List Char)
  | [] => if previous = '_' then none else some []
  | c :: text =>
    if c = '_' then if previous.isDigit then dropUnderscores '_' text else none
    else if previous = '_' && !c.isDigit then none
    else (dropUnderscores c text).map (c :: ·)

/-- `float(text)` of an ASCII text that names no infinity and no NaN; `none` is its `ValueError`. -/
def float (text : String) : Option Rat :=
  (dropUnderscores ' ' (Lua.trim text.toList)).bind (Lua.signed Lua.decimal)

end Python

def sampleStore (value : LockValue) : ValueStore :=
  ValueStore.put ⟨1000, fun _ => none⟩ "k" (some ⟨value, some 121000⟩)

def sampleDict (value : LockValue) : ValueDict :=
  ValueDict.put ⟨1, fun _ => none⟩ "k" (some ⟨value, 121⟩)

theorem valueAt_sample (value : LockValue) (instant : Nat) :
    (sampleStore value).valueAt "k" instant = (sampleDict value).valueAt "k" instant := by
  rw [sampleStore, sampleDict, ValueStore.valueAt_put, ValueDict.valueAt_put_some]
  have within : (121 : Rat) ≤ (instant : Rat) / 1000 ↔ 121000 ≤ instant := by
    rw [le_div_iff₀ (by norm_num), ← Nat.cast_le (α := Rat)]
    norm_num
  by_cases lapsed : 121000 ≤ instant
  · simp [within, lapsed]
  · simp [within, lapsed, not_le.mp lapsed]

theorem conditionalSetdel_agrees_iff_sample :
    (setgt "k" 15 none (some 30)).Agrees Lua.tonumber Python.float (Set.Ici 1000)
        (RedisLock.conditionalSetdel Lua.tonumber 0 (setgt "k" 15 none (some 30))
          (sampleStore (.number 10)))
        (ThreadLock.conditionalSetdel Python.float 0 (setgt "k" 15 none (some 30))
          (sampleDict (.number 10))) := by
  refine (conditionalSetdel_agrees_iff Lua.tonumber Python.float 0 (by norm_num [sampleStore,
    sampleDict, ValueStore.put, ValueDict.put]) (setgt "k" 15 none (some 30)) le_rfl
    fun instant _ => valueAt_sample _ instant).mpr ?_
  have held : (sampleStore (.number 10)).valueAt "k" 1000 = some (.number 10) := by decide
  have now : (sampleStore (.number 10)).now = 1000 := rfl
  simp only [Setdel.Compatible, setgt, now, held, LockValue.number?]
  exact ⟨by decide, Or.inr ⟨by decide, by decide⟩⟩

/-- `setgt` meets a text that is no number, or is given a time to live of zero: Redis replaces the
text, which stops `ThreadLock`, and keeps for good what `ThreadLock` forgets at once. -/
theorem setgt_parts :
    ¬ (setgt "k" 15 none (some 30)).Agrees Lua.tonumber Python.float (Set.Ici 1000)
        (RedisLock.conditionalSetdel Lua.tonumber 0 (setgt "k" 15 none (some 30))
          (sampleStore (.text "abc")))
        (ThreadLock.conditionalSetdel Python.float 0 (setgt "k" 15 none (some 30))
          (sampleDict (.text "abc"))) ∧
    ¬ (setgt "k" 15 none (some 0)).Agrees Lua.tonumber Python.float (Set.Ici 1000)
        (RedisLock.conditionalSetdel Lua.tonumber 0 (setgt "k" 15 none (some 0))
          (sampleStore (.number 10)))
        (ThreadLock.conditionalSetdel Python.float 0 (setgt "k" 15 none (some 0))
          (sampleDict (.number 10))) := by
  constructor
  · intro agrees
    have answers := agrees.answer
    revert answers
    decide
  · intro agrees
    have now := agrees.after 1000 (Set.mem_Ici.mpr le_rfl)
    revert now
    decide +kernel

end RedisAllocator

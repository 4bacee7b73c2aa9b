import Mathlib.Logic.Function.Basic
import RedisAllocator.Lib.Noninterference
import RedisAllocator.Objects.KeyNames

/-!
# Several allocators on one Redis

The keyspace of the server by names, and what an instance makes of it: its methods
are scripts over the state of the other modules, read from the instance's own keys
and written back to them.  A name carries a hash and a string here; the type error
Redis answers when a name of one type is used as the other does not arise between
instances that share no key.
-/

set_option autoImplicit false

namespace RedisAllocator

open AbortableScript AbortableScript.Script Noninterference

structure Keyspace where
  now : Nat
  hashes : Name → Finmap fun _ : String => PoolEntry
  strings : Name → Option StringKey

namespace Keyspace

def advance (keyspace : Keyspace) (elapsed : Nat) : Keyspace :=
  { keyspace with now := keyspace.now + elapsed }

def read (names : Names) (keyspace : Keyspace) : Redis where
  now := keyspace.now
  pool := keyspace.hashes names.pool
  head := (keyspace.strings names.head).map StringKey.value
  tail := (keyspace.strings names.tail).map StringKey.value
  gcCursor := (keyspace.strings names.gcCursor).map StringKey.value
  locks := fun key => keyspace.strings (names.lock key)
  binds := fun name => keyspace.strings (names.bind name)

/-- The pointers and the cursor are written without a deadline. -/
def plainKey (value : Option String) : Option StringKey := value.map fun text => ⟨text, none⟩

/-- The names of an instance hold `s`, the others what they held. -/
noncomputable def write (names : Names) (s : Redis) (keyspace : Keyspace) : Keyspace where
  now := keyspace.now
  hashes := Function.update keyspace.hashes names.pool s.pool
  strings :=
    Function.extend names.lock s.locks <|
    Function.extend names.bind s.binds <|
    Function.update (Function.update (Function.update keyspace.strings
      names.gcCursor (plainKey s.gcCursor))
      names.tail (plainKey s.tail))
      names.head (plainKey s.head)

/-- What `owned` says about the server: the clock and the values under these names. -/
def part (owned : Set Name) (keyspace : Keyspace) :
    Nat × (owned → Finmap fun _ : String => PoolEntry) × (owned → Option StringKey) :=
  (keyspace.now, fun name => keyspace.hashes name, fun name => keyspace.strings name)

theorem part_eq_iff {owned : Set Name} {k k' : Keyspace} : part owned k = part owned k' ↔
    k.now = k'.now ∧ ∀ name ∈ owned, k.hashes name = k'.hashes name ∧
      k.strings name = k'.strings name := by
  simp only [part, Prod.mk.injEq, funext_iff, Subtype.forall]
  constructor
  · rintro ⟨now, hashes, strings⟩
    exact ⟨now, fun name mine => ⟨hashes name mine, strings name mine⟩⟩
  · rintro ⟨now, same⟩
    exact ⟨now, fun name mine => (same name mine).1, fun name mine => (same name mine).2⟩

variable {names : Names}

theorem read_congr {owned : Set Name} (mine : names.all ⊆ owned) {k k' : Keyspace}
    (same : part owned k = part owned k') : k.read names = k'.read names := by
  obtain ⟨now, values⟩ := part_eq_iff.mp same
  have hashes (name : Name) (inAll : name ∈ names.all) := (values name (mine inAll)).1
  have strings (name : Name) (inAll : name ∈ names.all) := (values name (mine inAll)).2
  have locks : (fun key => k.strings (names.lock key)) = fun key => k'.strings (names.lock key) :=
    funext fun key => strings _ (by simp [Names.all])
  have binds : (fun name => k.strings (names.bind name)) = fun name => k'.strings (names.bind name) :=
    funext fun name => strings _ (by simp [Names.all])
  simp only [read, now, locks, binds]
  rw [hashes names.pool (by simp [Names.all]), strings names.head (by simp [Names.all]),
    strings names.tail (by simp [Names.all]), strings names.gcCursor (by simp [Names.all])]

theorem write_congr {owned : Set Name} {k k' : Keyspace} (same : part owned k = part owned k')
    (s : Redis) : part owned (k.write names s) = part owned (k'.write names s) := by
  obtain ⟨now, values⟩ := part_eq_iff.mp same
  rw [part_eq_iff]
  refine ⟨now, fun name mine => ⟨?_, ?_⟩⟩
  · simp only [write, Function.update_apply]
    rw [(values name mine).1]
  · simp only [write, Function.extend, Function.update_apply]
    rw [(values name mine).2]

theorem write_outside {owned : Set Name} (apart : Disjoint names.all owned) (s : Redis)
    (k : Keyspace) : part owned (k.write names s) = part owned k := by
  rw [part_eq_iff]
  refine ⟨rfl, fun name mine => ?_⟩
  have foreign : name ∉ names.all := fun inAll => Set.disjoint_left.mp apart inAll mine
  simp only [Names.all, Set.mem_ofPred_eq, not_or, not_exists] at foreign
  obtain ⟨pool, head, tail, cursor, lock, bind⟩ := foreign
  have noLock : ¬ ∃ key, names.lock key = name :=
    not_exists.mpr fun key same => lock key same.symm
  have noBind : ¬ ∃ bound, names.bind bound = name :=
    not_exists.mpr fun bound same => bind bound same.symm
  simp only [write]
  rw [Function.extend_apply' _ _ _ noLock, Function.extend_apply' _ _ _ noBind]
  refine ⟨Function.update_of_ne pool .., ?_⟩
  rw [Function.update_of_ne head, Function.update_of_ne tail, Function.update_of_ne cursor]

theorem behind_lock_injective (base : Name) : Function.Injective (Names.behind base).lock := by
  intro k j same
  have tails := utf8_inj (List.append_cancel_left same)
  exact String.append_right_inj _ |>.mp tails

theorem behind_bind_injective (base : Name) : Function.Injective (Names.behind base).bind := by
  intro n m same
  have tails := utf8_inj (List.append_cancel_left same)
  exact String.append_right_inj _ |>.mp tails

theorem behind_ne {t t' : Name} (different : t.head? ≠ t'.head?) (base : Name) :
    base ++ t ≠ base ++ t' := by
  intro same
  exact different (congrArg List.head? (List.append_cancel_left same))

theorem head_lock (key : String) : (utf8 (":" ++ key)).head? = some 58 := by
  rw [utf8_append, utf8_colon]
  rfl

theorem head_bind (name : String) : (utf8 ("-cache:bind:" ++ name)).head? = some 45 := by
  rw [utf8_append, utf8_cacheBind]
  rfl

section Own

variable (base : Name) (s : Redis) (k : Keyspace)

theorem write_lock (key : String) :
    (k.write (.behind base) s).strings ((Names.behind base).lock key) = s.locks key :=
  (behind_lock_injective base).extend_apply _ _ key

theorem write_bind (name : String) :
    (k.write (.behind base) s).strings ((Names.behind base).bind name) = s.binds name := by
  have noLock : ¬ ∃ key, (Names.behind base).lock key = (Names.behind base).bind name := by
    rintro ⟨key, same⟩
    exact behind_ne (by rw [head_lock, head_bind]; decide) base same
  simp only [write]
  rw [Function.extend_apply' _ _ _ noLock]
  exact (behind_bind_injective base).extend_apply _ _ name

theorem write_pointer {t : Name} (bar : t.head? = some 124) :
    (k.write (.behind base) s).strings (base ++ t) =
      if t = utf8 "|pool|head" then plainKey s.head
      else if t = utf8 "|pool|tail" then plainKey s.tail
      else if t = utf8 "|pool|gc_cursor" then plainKey s.gcCursor
      else k.strings (base ++ t) := by
  have noLock : ¬ ∃ key, (Names.behind base).lock key = base ++ t := by
    rintro ⟨key, same⟩
    exact behind_ne (by rw [head_lock, bar]; decide) base same
  have noBind : ¬ ∃ name, (Names.behind base).bind name = base ++ t := by
    rintro ⟨name, same⟩
    exact behind_ne (by rw [head_bind, bar]; decide) base same
  simp only [write]
  rw [Function.extend_apply' _ _ _ noLock, Function.extend_apply' _ _ _ noBind]
  simp only [Names.behind, Function.update_apply, List.append_cancel_left_eq]

/-- The families of one instance do not overlap: it reads back what it has written. -/
theorem read_write :
    (k.write (.behind base) s).read (.behind base) = { s with now := k.now } := by
  have pool : (k.write (.behind base) s).hashes (Names.behind base).pool = s.pool :=
    Function.update_self ..
  have plain (value : Option String) : (plainKey value).map StringKey.value = value := by
    cases value <;> rfl
  have head : (k.write (.behind base) s).strings (Names.behind base).head = plainKey s.head :=
    write_pointer base s k (t := utf8 "|pool|head") (by decide)
  have tail : (k.write (.behind base) s).strings (Names.behind base).tail = plainKey s.tail :=
    (write_pointer base s k (t := utf8 "|pool|tail") (by decide)).trans (if_neg (by decide))
  have cursor : (k.write (.behind base) s).strings (Names.behind base).gcCursor =
      plainKey s.gcCursor := by
    apply (write_pointer base s k (t := utf8 "|pool|gc_cursor") (by decide)).trans
    rw [if_neg (by decide), if_neg (by decide), if_pos rfl]
  simp only [read, pool, head, tail, cursor, plain, write_lock, write_bind]
  rfl

end Own

end Keyspace

/-! ## Operations -/

/-- A method: whether its keys are named by a script or by Python, and what it does with them. -/
structure Operation (α : Type) where
  scripted : Bool
  body : LuaScript α

def Call.operation (shared : Bool) (call : Call) : Operation (Option String) :=
  ⟨true, call.perform shared⟩

namespace Allocator

variable {α : Type}

def names (allocator : Allocator) (scripted : Bool) : Option Names :=
  if scripted then allocator.luaNames else some allocator.pythonNames

noncomputable def perform (allocator : Allocator) (operation : Operation α) (keyspace : Keyspace) :
    Except Failure α × Keyspace :=
  match allocator.names operation.scripted with
  | none => (.error (.command "Error compiling script"), keyspace)
  | some names =>
    let (reply, s) := operation.body (keyspace.read names)
    (reply, keyspace.write names s)

theorem names_eq_behind {allocator : Allocator} {scripted : Bool} {names : Names}
    (named : allocator.names scripted = some names) : ∃ base, names = .behind base := by
  cases scripted with
  | false =>
      cases named
      exact ⟨_, allocator.pythonNames_eq⟩
  | true =>
      rw [Allocator.names, if_pos rfl, luaNames_eq, Option.map_eq_some_iff] at named
      obtain ⟨base, _, rfl⟩ := named
      exact ⟨base, rfl⟩

/-- On its own keys an instance is the one the other modules describe: an operation does to the
state under its names what its body does. -/
theorem perform_read (allocator : Allocator) (operation : Operation α) (k : Keyspace)
    {names : Names} (named : allocator.names operation.scripted = some names) :
    (allocator.perform operation k).1 = (operation.body (k.read names)).1 ∧
      (allocator.perform operation k).2.read names =
        { (operation.body (k.read names)).2 with now := k.now } := by
  obtain ⟨base, rfl⟩ := names_eq_behind named
  simp only [perform, named]
  exact ⟨trivial, Keyspace.read_write base _ k⟩

theorem names_subset_keys {allocator : Allocator} {scripted : Bool} {names : Names}
    (named : allocator.names scripted = some names) : names.all ⊆ allocator.keys := by
  intro name inAll
  cases scripted with
  | false =>
      cases named
      exact Or.inl inAll
  | true => exact Or.inr ⟨names, named, inAll⟩

theorem perform_congr (allocator : Allocator) (operation : Operation α) {k k' : Keyspace}
    (same : Keyspace.part allocator.keys k = Keyspace.part allocator.keys k') :
    (allocator.perform operation k).1 = (allocator.perform operation k').1 ∧
      Keyspace.part allocator.keys (allocator.perform operation k).2 =
        Keyspace.part allocator.keys (allocator.perform operation k').2 := by
  unfold perform
  cases named : allocator.names operation.scripted with
  | none => exact ⟨rfl, same⟩
  | some names =>
      have found := Keyspace.read_congr (names_subset_keys named) same
      simp only [found]
      exact ⟨trivial, Keyspace.write_congr same _⟩

theorem perform_outside {allocator : Allocator} {owned : Set Name}
    (apart : Disjoint allocator.keys owned) (operation : Operation α) (k : Keyspace) :
    Keyspace.part owned (allocator.perform operation k).2 = Keyspace.part owned k := by
  unfold perform
  cases named : allocator.names operation.scripted with
  | none => rfl
  | some names =>
      exact Keyspace.write_outside (apart.mono_left (names_subset_keys named)) _ k

end Allocator

/-! ## Two instances in one run -/

inductive ServerAction (α : Type)
  | wait (elapsed : Nat)
  | other (operation : Operation α)
  | own (operation : Operation α)

def ServerAction.isOther {α : Type} : ServerAction α → Bool
  | .other _ => true
  | _ => false

/-- The run as the second instance sees it: its own replies, and the first instance's operations
behind its back. -/
noncomputable def ServerAction.turn {α : Type} (first second : Allocator) :
    ServerAction α → Noninterference.Turn Keyspace (Option (Except Failure α))
  | .wait elapsed => .seen fun k => (none, k.advance elapsed)
  | .other operation => .unseen fun k => (first.perform operation k).2
  | .own operation => .seen fun k =>
    let (reply, next) := second.perform operation k
    (some reply, next)

/-- Whatever the first instance does in between, the second one gets the replies it would have
got alone. -/
def Undisturbed (first second : Allocator) : Prop :=
  ∀ (α : Type) (actions : List (ServerAction α)) (k : Keyspace),
    answers (actions.map (ServerAction.turn first second)) k =
      answers ((actions.filter (!·.isOther)).map (ServerAction.turn first second)) k

theorem undisturbed_of_disjoint {first second : Allocator}
    (apart : Disjoint first.keys second.keys) : Undisturbed first second := by
  intro α actions k
  have seen : Noninterference.Turn.isSeen ∘ ServerAction.turn first second =
      fun action : ServerAction α => !action.isOther := by
    funext action
    cases action <;> rfl
  rw [answers_purge (Keyspace.part second.keys) _ ?_ rfl, List.filter_map, seen]
  intro turn inTurns
  obtain ⟨action, _, rfl⟩ := List.mem_map.mp inTurns
  cases action with
  | wait elapsed =>
      intro s t same
      refine ⟨rfl, ?_⟩
      obtain ⟨now, values⟩ := Keyspace.part_eq_iff.mp same
      exact Keyspace.part_eq_iff.mpr ⟨congrArg (· + elapsed) now, values⟩
  | other operation => exact first.perform_outside apart operation
  | own operation =>
      intro s t same
      obtain ⟨reply, next⟩ := second.perform_congr operation same
      exact ⟨congrArg some reply, next⟩

def Allocator.Apart (a b : Allocator) : Prop :=
  ∀ x y, a.HasBase x → b.HasBase y → ¬ Extends x y ∧ ¬ Extends y x

/-- Two instances share no key, and neither changes a reply of the other, exactly if no base of
one goes on with a joint behind a base of the other. -/
theorem instances_undisturbed_iff (a b : Allocator) :
    Disjoint a.keys b.keys ∧ Undisturbed a b ∧ Undisturbed b a ↔ a.Apart b := by
  rw [Allocator.Apart, ← keys_disjoint_iff]
  constructor
  · rintro ⟨apart, _, _⟩
    exact apart
  · intro apart
    exact ⟨apart, undisturbed_of_disjoint apart, undisturbed_of_disjoint apart.symm⟩

def barInPrefix : Allocator := ⟨"a|b", "c", false⟩

def barInSuffix : Allocator := ⟨"a", "b|c", false⟩

theorem names_of_spelled {allocator : Allocator} {base : Name}
    (spelled : Lua.spelled (utf8 allocator.base) = some base) :
    allocator.names true = some (.behind base) := by
  rw [Allocator.names, if_pos rfl, Allocator.luaNames_eq, spelled, Option.map_some]

def emptyKeyspace : Keyspace := ⟨0, fun _ => ∅, fun _ => none⟩

/-- The key one of them adds is handed out by the other. -/
theorem sameBase_disturbed :
    (barInPrefix.keyPrefix, barInPrefix.suffix) ≠ (barInSuffix.keyPrefix, barInSuffix.suffix) ∧
    (∀ text ∈ ["a|b", "c", "a", "b|c"], Char.ofNat 39 ∉ text.toList) ∧
    ¬ Disjoint barInPrefix.keys barInSuffix.keys ∧ ¬ Undisturbed barInPrefix barInSuffix := by
  refine ⟨by decide, by decide, fun apart => ?_, fun undisturbed => ?_⟩
  · refine (keys_disjoint_iff barInPrefix barInSuffix).mp apart (utf8 "a|b|c") (utf8 "a|b|c")
      (Or.inl (by decide)) (Or.inl (by decide)) |>.1 ⟨[], rfl, Or.inl rfl⟩
  · let extendX := (Call.extend ["x"] none).operation false
    let malloc := (Call.mallocKey (.int 60) none (.int 60)).operation false
    have names₁ : barInPrefix.names true = some (.behind (utf8 "a|b|c")) :=
      names_of_spelled (by decide)
    have names₂ : barInSuffix.names true = some (.behind (utf8 "a|b|c")) :=
      names_of_spelled (by decide)
    have extended := (barInPrefix.perform_read extendX emptyKeyspace names₁).2
    have handedOut :=
      (barInSuffix.perform_read malloc (barInPrefix.perform extendX emptyKeyspace).2 names₂).1
    have alone := (barInSuffix.perform_read malloc emptyKeyspace names₂).1
    have replies := undisturbed _ [.other extendX, .own malloc] emptyKeyspace
    have same : (barInSuffix.perform malloc (barInPrefix.perform extendX emptyKeyspace).2).1 =
        (barInSuffix.perform malloc emptyKeyspace).1 := by
      simpa [answers, ServerAction.turn, ServerAction.isOther] using replies
    rw [handedOut, extended, alone] at same
    have given : (malloc.body { (extendX.body (emptyKeyspace.read (.behind (utf8 "a|b|c")))).2 with
        now := emptyKeyspace.now }).1 = .ok (some "x") := rfl
    have nothing : (malloc.body (emptyKeyspace.read (.behind (utf8 "a|b|c")))).1 = .ok none := rfl
    rw [given, nothing] at same
    cases same

end RedisAllocator

import Mathlib.Data.Set.Disjoint
import Mathlib.Order.CompletePartialOrder
import RedisAllocator.Codec.LuaString
import RedisAllocator.Objects.Locks

/-!
# The Redis keys of an allocator

Every key is the prefix, a bar and the suffix with a piece behind it.  Python
writes that base down; the scripts write it into quoted literals, and what Lua
reads there can be another one.  Two bases share a key exactly if one goes on
where the other ends with one of a few pieces.
-/

set_option autoImplicit false

namespace RedisAllocator

structure Names where
  pool : Name
  head : Name
  tail : Name
  gcCursor : Name
  lock : String → Name
  bind : String → Name

namespace Names

def all (names : Names) : Set Name :=
  { name | name = names.pool ∨ name = names.head ∨ name = names.tail ∨ name = names.gcCursor ∨
    (∃ key, name = names.lock key) ∨ ∃ bound, name = names.bind bound }

def behind (base : Name) : Names where
  pool := base ++ utf8 "|pool"
  head := base ++ utf8 "|pool|head"
  tail := base ++ utf8 "|pool|tail"
  gcCursor := base ++ utf8 "|pool|gc_cursor"
  lock := fun key => base ++ utf8 (":" ++ key)
  bind := fun bound => base ++ utf8 ("-cache:bind:" ++ bound)

end Names

namespace Allocator

variable (allocator : Allocator)

def poolStr : String := allocator.keyPrefix ++ "|" ++ allocator.suffix ++ "|pool"

def poolPointerStr (head : Bool) : String :=
  allocator.poolStr ++ "|" ++ if head then "head" else "tail"

def gcCursorStr : String := allocator.poolStr ++ "|gc_cursor"

/-- The names as the Python methods send them. -/
def pythonNames : Names where
  pool := utf8 allocator.poolStr
  head := utf8 (allocator.poolPointerStr true)
  tail := utf8 (allocator.poolPointerStr false)
  gcCursor := utf8 allocator.gcCursorStr
  lock := fun key => utf8 (allocator.keyStr key)
  bind := fun name => utf8 (allocator.softBindName name)

/-- The names as the scripts build them from the literals of `_lua_required_string` and the
`cursorKey` of `gc`; no script compiles with a literal that Lua cannot read. -/
def luaNames : Option Names := do
  let keyStr ← Lua.readQuoted (utf8 (allocator.keyStr ""))
  let poolStr ← Lua.readQuoted (utf8 allocator.poolStr)
  let poolPointerStr ← Lua.readQuoted (utf8 (allocator.poolStr ++ "|"))
  let cacheStr ← Lua.readQuoted (utf8 allocator.cacheStr)
  let cursorKey ← Lua.readQuoted (utf8 allocator.gcCursorStr)
  some {
    pool := poolStr
    head := poolPointerStr ++ utf8 "head"
    tail := poolPointerStr ++ utf8 "tail"
    gcCursor := cursorKey
    lock := fun key => keyStr ++ utf8 key
    bind := fun name => cacheStr ++ utf8 (":bind:" ++ name) }

def keys : Set Name :=
  allocator.pythonNames.all ∪ { name | ∃ names ∈ allocator.luaNames, name ∈ names.all }

/-! ## Bases -/

def base : String := allocator.keyPrefix ++ "|" ++ allocator.suffix

/-- The base as Python writes it, or as Lua reads it. -/
def HasBase (b : Name) : Prop :=
  b = utf8 allocator.base ∨ Lua.spelled (utf8 allocator.base) = some b

theorem pointer_pieces (type : String) :
    utf8 "|pool" ++ (utf8 "|" ++ utf8 type) = utf8 ("|pool|" ++ type) := by
  rw [utf8_append "|pool|", ← List.append_assoc]
  exact congrArg (· ++ utf8 type) (by decide)

theorem bind_pieces (name : String) :
    utf8 "-cache" ++ (utf8 ":bind:" ++ utf8 name) = utf8 ("-cache:bind:" ++ name) := by
  rw [utf8_append "-cache:bind:", ← List.append_assoc]
  exact congrArg (· ++ utf8 name) (by decide)

theorem utf8_keyStr (key : String) :
    utf8 (allocator.keyStr key) = utf8 allocator.base ++ utf8 (":" ++ key) := by
  simp [keyStr, base]

theorem utf8_poolStr : utf8 allocator.poolStr = utf8 allocator.base ++ utf8 "|pool" := by
  simp [poolStr, base]

theorem utf8_cacheStr : utf8 allocator.cacheStr = utf8 allocator.base ++ utf8 "-cache" := by
  simp [cacheStr, base]

theorem utf8_pointer (type : String) : utf8 (allocator.poolStr ++ "|" ++ type) =
    utf8 allocator.base ++ utf8 ("|pool|" ++ type) := by
  rw [utf8_append, utf8_append, utf8_poolStr, List.append_assoc, List.append_assoc, pointer_pieces]

theorem utf8_gcCursorStr :
    utf8 allocator.gcCursorStr = utf8 allocator.base ++ utf8 "|pool|gc_cursor" := by
  rw [gcCursorStr, utf8_append, utf8_poolStr, List.append_assoc]
  exact congrArg _ (by decide)

theorem pythonNames_eq : allocator.pythonNames = .behind (utf8 allocator.base) := by
  have bind : (fun name => utf8 (allocator.softBindName name)) =
      fun name => utf8 allocator.base ++ utf8 ("-cache:bind:" ++ name) := by
    funext name
    rw [softBindName, utf8_append, utf8_append, utf8_cacheStr, List.append_assoc, List.append_assoc,
      bind_pieces]
  rw [pythonNames, Names.behind, bind, utf8_gcCursorStr, utf8_poolStr, poolPointerStr, poolPointerStr,
    utf8_pointer, utf8_pointer]
  simp only [utf8_keyStr]
  rfl

theorem readQuoted_behind {tail : String} (plain : Lua.isTail (utf8 tail) = true) :
    Lua.readQuoted (utf8 allocator.base ++ utf8 tail) =
      (Lua.spelled (utf8 allocator.base)).map (· ++ utf8 tail) :=
  Lua.readQuoted_append _ plain

theorem luaNames_eq :
    allocator.luaNames = (Lua.spelled (utf8 allocator.base)).map .behind := by
  have pointer : utf8 (allocator.poolStr ++ "|") = utf8 allocator.base ++ utf8 "|pool|" := by
    rw [utf8_append, utf8_poolStr, List.append_assoc]
    exact congrArg _ (by decide)
  rw [luaNames, utf8_keyStr, utf8_poolStr, pointer, utf8_cacheStr,
    utf8_gcCursorStr]
  rw [readQuoted_behind _ (by decide), readQuoted_behind _ (by decide),
    readQuoted_behind _ (by decide), readQuoted_behind _ (by decide),
    readQuoted_behind _ (by decide)]
  cases Lua.spelled (utf8 allocator.base) with
  | none => rfl
  | some b =>
      have lock : (fun key => b ++ utf8 (":" ++ "") ++ utf8 key) =
          fun key => b ++ utf8 (":" ++ key) := by simp
      have bind : (fun name => b ++ utf8 "-cache" ++ utf8 (":bind:" ++ name)) =
          fun name => b ++ utf8 ("-cache:bind:" ++ name) := by
        funext name
        rw [List.append_assoc, utf8_append ":bind:", bind_pieces]
      have pointer (type : String) : b ++ utf8 "|pool|" ++ utf8 type =
          b ++ utf8 ("|pool|" ++ type) := by simp
      simp only [Option.map_some, Option.bind_eq_bind, Option.bind_some, Names.behind, lock, bind,
        pointer]
      rfl

/-! ### One name on both sides -/

def luaKeyStr (key : String) : Option Name := do
  let literal ← Lua.readQuoted (utf8 (allocator.keyStr ""))
  some (literal ++ utf8 key)

def luaPoolStr : Option Name := Lua.readQuoted (utf8 allocator.poolStr)

def luaPoolPointerStr (head : Bool) : Option Name := do
  let literal ← Lua.readQuoted (utf8 (allocator.poolStr ++ "|"))
  some (literal ++ utf8 (if head then "head" else "tail"))

/-- `soft_bind_name` of the scripts, where the empty string is no name. -/
def luaSoftBindName (name : String) : Option Name := do
  let cacheStr ← Lua.readQuoted (utf8 allocator.cacheStr)
  if name = "" then some [] else some (cacheStr ++ utf8 (":bind:" ++ name))

theorem luaNames_functions {names : Names} (named : allocator.luaNames = some names) :
    (∀ key, allocator.luaKeyStr key = some (names.lock key)) ∧
      allocator.luaPoolStr = some names.pool ∧
      (∀ head, allocator.luaPoolPointerStr head = some (if head then names.head else names.tail)) ∧
      ∀ name, allocator.luaSoftBindName name = some (if name = "" then [] else names.bind name) := by
  rw [luaNames] at named
  obtain ⟨keyStr, key, named⟩ := Option.bind_eq_some_iff.mp named
  obtain ⟨poolStr, pool, named⟩ := Option.bind_eq_some_iff.mp named
  obtain ⟨pointerStr, pointer, named⟩ := Option.bind_eq_some_iff.mp named
  obtain ⟨cacheStr, cache, named⟩ := Option.bind_eq_some_iff.mp named
  obtain ⟨cursorKey, _, named⟩ := Option.bind_eq_some_iff.mp named
  cases named
  refine ⟨fun k => ?_, pool, fun head => ?_, fun name => ?_⟩
  · rw [luaKeyStr, key]
    rfl
  · rw [luaPoolPointerStr, pointer]
    cases head <;> rfl
  · rw [luaSoftBindName, cache, Option.bind_eq_bind, Option.bind_some]
    split <;> rfl

theorem spelled_base_iff : Lua.spelled (utf8 allocator.base) = some (utf8 allocator.base) ↔
    ∀ c ∈ (allocator.keyPrefix ++ allocator.suffix).toList, Lua.isPlain c = true := by
  rw [Lua.spelled_utf8_iff, base]
  have bar : Lua.isPlain '|' = true := by decide
  simp [or_imp, forall_and, bar]

theorem luaNames_eq_pythonNames_iff : allocator.luaNames = some allocator.pythonNames ↔
    ∀ c ∈ (allocator.keyPrefix ++ allocator.suffix).toList, Lua.isPlain c = true := by
  rw [← spelled_base_iff, luaNames_eq, pythonNames_eq, Option.map_eq_some_iff]
  constructor
  · rintro ⟨b, spelled, same⟩
    have pool : b ++ utf8 "|pool" = utf8 allocator.base ++ utf8 "|pool" := congrArg Names.pool same
    rw [spelled, List.append_cancel_right pool]
  · exact fun spelled => ⟨_, spelled, rfl⟩

/-- The scripts and the Python methods name the same keys exactly if prefix and suffix hold no
character that means something else between Lua's quotes; the empty name has no key in Lua. -/
theorem luaNames_agree_iff (key name : String) :
    (allocator.luaKeyStr key = some (utf8 (allocator.keyStr key)) ∧
      allocator.luaPoolStr = some (utf8 allocator.poolStr) ∧
      (∀ head, allocator.luaPoolPointerStr head = some (utf8 (allocator.poolPointerStr head))) ∧
      allocator.luaSoftBindName name = some (utf8 (allocator.softBindName name))) ↔
    (∀ c ∈ (allocator.keyPrefix ++ allocator.suffix).toList, Lua.isPlain c = true) ∧ name ≠ "" := by
  constructor
  · rintro ⟨_, pool, _, bind⟩
    rw [← spelled_base_iff]
    constructor
    · rw [luaPoolStr, utf8_poolStr, readQuoted_behind _ (by decide),
        Option.map_eq_some_iff] at pool
      obtain ⟨b, spelled, same⟩ := pool
      rw [spelled, List.append_cancel_right same]
    · rintro rfl
      obtain ⟨cacheStr, _, noName⟩ := Option.bind_eq_some_iff.mp bind
      have empty : [] = utf8 (allocator.softBindName "") := Option.some.inj noName
      rw [softBindName, utf8_append, utf8_append] at empty
      have noPiece := (List.append_eq_nil_iff.mp (List.append_eq_nil_iff.mp empty.symm).1).2
      exact absurd noPiece (by decide)
  · rintro ⟨plain, named⟩
    obtain ⟨lock, pool, pointer, bind⟩ :=
      allocator.luaNames_functions (allocator.luaNames_eq_pythonNames_iff.mpr plain)
    refine ⟨lock key, pool, fun head => ?_, ?_⟩
    · rw [pointer]
      cases head <;> rfl
    · rw [bind, if_neg named]
      rfl

/-- `prefix="a\\b"`: between the quotes the backslash and the `b` are one backspace. -/
def escapedPrefix : Allocator := ⟨"a\\b", "allocator", false⟩

/-- The constructor accepts the prefix, and the scripts look for the lock of `k` under another key
than the one that `update` writes. -/
theorem escapedPrefix_apart :
    (∀ c ∈ (escapedPrefix.keyPrefix ++ escapedPrefix.suffix).toList, c.toNat ≠ 39) ∧
    escapedPrefix.luaKeyStr "k" = some (97 :: 8 :: utf8 "|allocator:k") ∧
    escapedPrefix.luaKeyStr "k" ≠ some (utf8 (escapedPrefix.keyStr "k")) := by
  refine ⟨?_, by decide, by decide⟩
  simp [escapedPrefix]

theorem mem_keys_iff (name : Name) :
    name ∈ allocator.keys ↔ ∃ b, allocator.HasBase b ∧ name ∈ (Names.behind b).all := by
  simp [keys, HasBase, pythonNames_eq, luaNames_eq]

end Allocator

/-! ## Where two bases share a key -/

def Piece (t : Name) : Prop :=
  t = utf8 "|pool" ∨ t = utf8 "|pool|head" ∨ t = utf8 "|pool|tail" ∨ t = utf8 "|pool|gc_cursor" ∨
    (∃ key, t = utf8 (":" ++ key)) ∨ ∃ bound, t = utf8 ("-cache:bind:" ++ bound)

/-- The pieces by which one base may go on behind another so that both share a key. -/
def Joint (d : Name) : Prop :=
  d = [] ∨ (∃ text, d = utf8 (":" ++ text)) ∨ d = utf8 "-cache" ∨ d = utf8 "-cache:bind" ∨
    ∃ text, d = utf8 ("-cache:bind:" ++ text)

def Extends (b c : Name) : Prop := ∃ d, c = b ++ d ∧ Joint d

theorem mem_behind_iff (b name : Name) :
    name ∈ (Names.behind b).all ↔ ∃ t, Piece t ∧ name = b ++ t := by
  constructor
  · rintro (rfl | rfl | rfl | rfl | ⟨key, rfl⟩ | ⟨bound, rfl⟩)
    all_goals exact ⟨_, by simp [Piece], rfl⟩
  · rintro ⟨t, piece, rfl⟩
    rcases piece with rfl | rfl | rfl | rfl | ⟨key, rfl⟩ | ⟨bound, rfl⟩
    all_goals simp [Names.all, Names.behind]

/-- How a piece begins: the bar is followed by `p`. -/
def begins (t : Name) : Bool := t.head? = some 58 ∨ t.head? = some 45 ∨ t.take 2 = [124, 112]

theorem begins_append (t rest : Name) (notEmpty : t ≠ []) (noBar : 124 ∉ t) :
    begins (t ++ rest) = begins t := by
  cases t with
  | nil => exact absurd rfl notEmpty
  | cons c t =>
      have notBar : c ≠ 124 := fun same => noBar (same ▸ List.mem_cons_self ..)
      simp [begins, notBar]

theorem utf8_colon : utf8 ":" = [58] := by decide

theorem utf8_cacheBind :
    utf8 "-cache:bind:" = [45, 99, 97, 99, 104, 101, 58, 98, 105, 110, 100, 58] := by decide

theorem Piece.begins {t : Name} (piece : Piece t) : begins t = true := by
  rcases piece with rfl | rfl | rfl | rfl | ⟨key, rfl⟩ | ⟨bound, rfl⟩
  · decide
  · decide
  · decide
  · decide
  · rw [utf8_append, utf8_colon]
    rfl
  · rw [utf8_append, utf8_cacheBind]
    rfl

theorem Piece.isText {t : Name} (piece : Piece t) : ∃ text, t = utf8 text := by
  rcases piece with rfl | rfl | rfl | rfl | ⟨key, rfl⟩ | ⟨bound, rfl⟩
  all_goals exact ⟨_, rfl⟩

theorem joint_of_pool {t d rest : Name} (one : t = utf8 "|pool" ∨ t = utf8 "|pool|head" ∨
    t = utf8 "|pool|tail" ∨ t = utf8 "|pool|gc_cursor") (cut : t = d ++ rest)
    (piece : begins rest = true) : d = [] := by
  have inside : ∀ n < t.length + 1, RedisAllocator.begins (t.drop n) = true → n = 0 := by
    rcases one with rfl | rfl | rfl | rfl <;> decide
  have short : d.length < t.length + 1 := by
    rw [cut, List.length_append]
    omega
  apply List.eq_nil_of_length_eq_zero
  apply inside d.length short
  rw [cut, List.drop_left]
  exact piece

theorem joint_of_lock {key : String} {d rest : Name} (cut : utf8 (":" ++ key) = d ++ rest)
    (piece : Piece rest) : Joint d := by
  rw [utf8_append, utf8_colon, List.singleton_append] at cut
  cases d with
  | nil => exact Or.inl rfl
  | cons c d =>
      obtain ⟨rfl, behind⟩ := List.cons.inj cut
      obtain ⟨text, rfl⟩ := piece.isText
      obtain ⟨front, rfl⟩ := exists_utf8_of_append behind
      exact Or.inr (Or.inl ⟨front, by rw [utf8_append, utf8_colon, List.singleton_append]⟩)

/-- A piece begins in `-cache:bind:` where it begins itself and at its two colons. -/
theorem joint_of_bind {bound : String} {d rest : Name}
    (cut : utf8 ("-cache:bind:" ++ bound) = d ++ rest) (piece : Piece rest) : Joint d := by
  rw [utf8_append] at cut
  rcases List.append_eq_append_iff.mp cut with ⟨front, rfl, behind⟩ | ⟨back, whole, begun⟩
  · obtain ⟨text, rfl⟩ := piece.isText
    obtain ⟨front, rfl⟩ := exists_utf8_of_append behind
    exact Or.inr (Or.inr (Or.inr (Or.inr ⟨front, (utf8_append ..).symm⟩)))
  · have at_colon : ∀ n < 12, begins ((utf8 "-cache:bind:").drop n) = true →
        (utf8 "-cache:bind:").take n = [] ∨ (utf8 "-cache:bind:").take n = utf8 "-cache" ∨
          (utf8 "-cache:bind:").take n = utf8 "-cache:bind" := by decide
    have short : d.length ≤ 12 := by
      have sizes := congrArg List.length whole
      rw [utf8_cacheBind, List.length_append] at sizes
      simp only [List.length_cons, List.length_nil] at sizes
      omega
    have front : d = (utf8 "-cache:bind:").take d.length := by rw [whole, List.take_left]
    rcases Nat.lt_or_eq_of_le short with inside | all
    · have back_eq : back = (utf8 "-cache:bind:").drop d.length := by rw [whole, List.drop_left]
      have begunBack : begins back = true := by
        rw [← begins_append back (utf8 bound), ← begun]
        · exact piece.begins
        · rw [back_eq, ne_eq, List.drop_eq_nil_iff]
          exact Nat.not_le.mpr inside
        · rw [back_eq]
          exact fun inBack => absurd (List.mem_of_mem_drop inBack) (by decide)
      rcases at_colon d.length inside (back_eq ▸ begunBack) with none | cache | bind
      · exact Or.inl (front.trans none)
      · exact Or.inr (Or.inr (Or.inl (front.trans cache)))
      · exact Or.inr (Or.inr (Or.inr (Or.inl (front.trans bind))))
    · refine Or.inr (Or.inr (Or.inr (Or.inr ⟨"", ?_⟩)))
      rw [front, all]
      decide

theorem joint_of_cut {t d rest : Name} (whole : Piece t) (piece : Piece rest)
    (cut : t = d ++ rest) : Joint d := by
  rcases whole with one | one | one | one | ⟨key, rfl⟩ | ⟨bound, rfl⟩
  · exact Or.inl (joint_of_pool (by simp [one]) cut piece.begins)
  · exact Or.inl (joint_of_pool (by simp [one]) cut piece.begins)
  · exact Or.inl (joint_of_pool (by simp [one]) cut piece.begins)
  · exact Or.inl (joint_of_pool (by simp [one]) cut piece.begins)
  · exact joint_of_lock cut piece
  · exact joint_of_bind cut piece

theorem Joint.shared {d : Name} (joint : Joint d) : ∃ t t', Piece t ∧ Piece t' ∧ t = d ++ t' := by
  rcases joint with rfl | ⟨text, rfl⟩ | rfl | rfl | ⟨text, rfl⟩
  · exact ⟨utf8 "|pool", utf8 "|pool", by simp [Piece], by simp [Piece], rfl⟩
  · refine ⟨utf8 (":" ++ (text ++ "|pool")), utf8 "|pool", ?_, by simp [Piece], by simp⟩
    exact Or.inr (Or.inr (Or.inr (Or.inr (Or.inl ⟨_, rfl⟩))))
  · refine ⟨utf8 ("-cache:bind:" ++ ""), utf8 (":" ++ "bind:"), ?_, ?_, by decide⟩
    · exact Or.inr (Or.inr (Or.inr (Or.inr (Or.inr ⟨_, rfl⟩))))
    · exact Or.inr (Or.inr (Or.inr (Or.inr (Or.inl ⟨_, rfl⟩))))
  · refine ⟨utf8 ("-cache:bind:" ++ ""), utf8 (":" ++ ""), ?_, ?_, by decide⟩
    · exact Or.inr (Or.inr (Or.inr (Or.inr (Or.inr ⟨_, rfl⟩))))
    · exact Or.inr (Or.inr (Or.inr (Or.inr (Or.inl ⟨_, rfl⟩))))
  · refine ⟨utf8 ("-cache:bind:" ++ (text ++ "|pool")), utf8 "|pool", ?_, by simp [Piece], by simp⟩
    exact Or.inr (Or.inr (Or.inr (Or.inr (Or.inr ⟨_, rfl⟩))))

theorem Extends.shared {b c : Name} (longer : Extends b c) :
    ∃ name ∈ (Names.behind b).all, name ∈ (Names.behind c).all := by
  obtain ⟨d, rfl, joint⟩ := longer
  obtain ⟨t, t', piece, piece', rfl⟩ := joint.shared
  refine ⟨b ++ (d ++ t'), (mem_behind_iff b _).mpr ⟨_, piece, rfl⟩, ?_⟩
  exact (mem_behind_iff (b ++ d) _).mpr ⟨t', piece', (List.append_assoc ..).symm⟩

theorem behind_disjoint_iff (b c : Name) :
    Disjoint (Names.behind b).all (Names.behind c).all ↔ ¬ Extends b c ∧ ¬ Extends c b := by
  rw [Set.disjoint_left]
  constructor
  · intro apart
    refine ⟨fun longer => ?_, fun longer => ?_⟩
    · obtain ⟨name, inFirst, inSecond⟩ := longer.shared
      exact apart inFirst inSecond
    · obtain ⟨name, inSecond, inFirst⟩ := longer.shared
      exact apart inFirst inSecond
  · rintro ⟨notForward, notBackward⟩ name inFirst inSecond
    obtain ⟨t, piece, rfl⟩ := (mem_behind_iff b name).mp inFirst
    obtain ⟨t', piece', same⟩ := (mem_behind_iff c _).mp inSecond
    rcases List.append_eq_append_iff.mp same with ⟨d, rfl, cut⟩ | ⟨d, rfl, cut⟩
    · exact notForward ⟨d, rfl, joint_of_cut piece piece' cut⟩
    · exact notBackward ⟨d, rfl, joint_of_cut piece' piece cut⟩

/-- Two instances share no key exactly if no base of one goes on with a joint behind a base of
the other. -/
theorem keys_disjoint_iff (a b : Allocator) : Disjoint a.keys b.keys ↔
    ∀ x y, a.HasBase x → b.HasBase y → ¬ Extends x y ∧ ¬ Extends y x := by
  constructor
  · intro apart x y inFirst inSecond
    rw [← behind_disjoint_iff, Set.disjoint_left]
    intro name found found'
    exact Set.disjoint_left.mp apart ((a.mem_keys_iff name).mpr ⟨x, inFirst, found⟩)
      ((b.mem_keys_iff name).mpr ⟨y, inSecond, found'⟩)
  · intro apart
    rw [Set.disjoint_left]
    intro name inFirst inSecond
    obtain ⟨x, isBase, found⟩ := (a.mem_keys_iff name).mp inFirst
    obtain ⟨y, isBase', found'⟩ := (b.mem_keys_iff name).mp inSecond
    exact Set.disjoint_left.mp ((behind_disjoint_iff x y).mpr (apart x y isBase isBase')) found found'

end RedisAllocator

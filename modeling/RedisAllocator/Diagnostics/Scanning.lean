import RedisAllocator.Diagnostics.Invariants
import RedisAllocator.Lib.Glob
import RedisAllocator.Objects.KeyNames

/-!
# The scans of the collector

`_bounded_scan` and the keys it goes through.  The database holds the locks and the
bindings of the allocator and any other keys; `SCAN` returns the ones its pattern
matches, some of them more than once.
-/

set_option autoImplicit false

namespace RedisAllocator

open Glob

/-- `text[start:]` -/
def pythonSlice (text : String) (start : Nat) : String := String.ofList (text.toList.drop start)

def startsWith (text front : String) : Bool := front.toList.isPrefixOf text.toList

theorem pythonSlice_append (front rest : String) :
    pythonSlice (front ++ rest) front.toList.length = rest := by
  rw [pythonSlice, String.toList_append, List.drop_left, String.ofList_toList]

theorem startsWith_iff {text front : String} :
    startsWith text front = true ↔ ∃ rest, text = front ++ rest := by
  rw [startsWith, List.isPrefixOf_iff_prefix]
  constructor
  · rintro ⟨rest, cut⟩
    refine ⟨String.ofList rest, String.toList_inj.mp ?_⟩
    rw [String.toList_append, String.toList_ofList, cut]
  · rintro ⟨rest, rfl⟩
    rw [String.toList_append]
    exact List.prefix_append ..

/-! ## The database -/

/-- What `GET` answers, key by key; a key of another type counts as one with a text. -/
structure Database (allocator : Allocator) (s : Redis) where
  get : String → Option String
  get_keyStr : ∀ key, get (allocator.keyStr key) = (s.lock? key).map StringKey.value
  get_softBindName : ∀ name,
    get (allocator.softBindName name) = (s.bind? name).map StringKey.value

def Allocator.softBindPrefix (allocator : Allocator) : String := allocator.cacheStr ++ ":bind:"

def Allocator.softBindLockPrefix (allocator : Allocator) : String :=
  allocator.keyStr allocator.softBindPrefix

namespace Allocator

variable {allocator : Allocator} {key name other : String}

theorem softBindName_injective (same : allocator.softBindName name = allocator.softBindName other) :
    name = other :=
  (String.append_right_inj _).mp same

theorem keyStr_eq_append (allocator : Allocator) (key : String) :
    allocator.keyStr key = allocator.keyStr "" ++ key := by
  simp [keyStr]

theorem keyStr_injective (same : allocator.keyStr key = allocator.keyStr other) : key = other :=
  (String.append_right_inj _).mp same

theorem softBindName_ne_keyStr (name key : String) :
    allocator.softBindName name ≠ allocator.keyStr key := by
  intro same
  simp only [softBindName, cacheStr, keyStr, String.append_assoc, String.append_right_inj] at same
  have characters := congrArg String.toList same
  simp at characters

/-- The database that holds the locks and the bindings of the allocator and nothing else. -/
def database (allocator : Allocator) (s : Redis) : Database allocator s where
  get key :=
    if startsWith key (allocator.keyStr "") then
      (s.lock? (pythonSlice key (allocator.keyStr "").toList.length)).map StringKey.value
    else if startsWith key allocator.softBindPrefix then
      (s.bind? (pythonSlice key allocator.softBindPrefix.toList.length)).map StringKey.value
    else none
  get_keyStr := fun key => by
    rw [allocator.keyStr_eq_append, if_pos (startsWith_iff.mpr ⟨key, rfl⟩), pythonSlice_append]
  get_softBindName := fun name => by
    have cut : allocator.softBindName name = allocator.softBindPrefix ++ name := rfl
    have noLock : ¬ startsWith (allocator.softBindName name) (allocator.keyStr "") = true := by
      rw [startsWith_iff]
      rintro ⟨key, same⟩
      exact softBindName_ne_keyStr name key (by simpa [keyStr] using same)
    rw [if_neg noLock, cut, if_pos (startsWith_iff.mpr ⟨name, rfl⟩), pythonSlice_append]

end Allocator

namespace Database

variable {allocator : Allocator} {s : Redis} (database : Database allocator s)

def Has (key : String) : Prop := (database.get key).isSome

def Matches (pattern key : String) : Prop :=
  database.Has key ∧ globMatch (utf8 pattern) (utf8 key) = true

/-- The replies of `SCAN` with this pattern until its cursor is 0 again: every live key that matches
is in one of them at least, and no other key is. -/
structure Scan (pattern : String) where
  batches : List (List String)
  complete : ∀ key, key ∈ batches.flatten ↔ database.Matches pattern key

def scanOf {front : String} (matched : ∀ key,
    globMatch (utf8 (front ++ "*")) (utf8 key) = true ↔ ∃ rest, key = front ++ rest)
    (rests : List String) (all : ∀ rest, rest ∈ rests ↔ database.Has (front ++ rest)) :
    database.Scan (front ++ "*") where
  batches := [rests.map (front ++ ·)]
  complete := fun key => by
    rw [List.flatten_singleton, List.mem_map, Matches, matched]
    constructor
    · rintro ⟨rest, isRest, rfl⟩
      exact ⟨(all rest).mp isRest, rest, rfl⟩
    · rintro ⟨has, rest, rfl⟩
      exact ⟨rest, (all rest).mpr has, rfl⟩

theorem has_keyStr {key : String} : database.Has (allocator.keyStr key) ↔ s.locked key = true := by
  rw [Has, database.get_keyStr, Option.isSome_map, Redis.locked]

theorem has_softBindName {name : String} :
    database.Has (allocator.softBindName name) ↔ (s.bind? name).isSome := by
  rw [Has, database.get_softBindName, Option.isSome_map]

end Database

/-! ## `_bounded_scan` -/

structure BoundedScan where
  keys : List String
  scanned : Nat
  truncated : Bool

def scanFrom (scanLimit : Nat) (keys : List String) : List (List String) → BoundedScan
  | [] => ⟨keys, keys.length, false⟩
  | batch :: rest =>
    let room := scanLimit - keys.length
    let keys := keys ++ batch.take room
    if room < batch.length then ⟨keys, keys.length, true⟩
    else if rest = [] then ⟨keys, keys.length, false⟩
    else if scanLimit ≤ keys.length then ⟨keys, keys.length, true⟩
    else scanFrom scanLimit keys rest

def boundedScan (scanLimit : Nat) (batches : List (List String)) : BoundedScan :=
  if scanLimit = 0 then ⟨[], 0, true⟩ else scanFrom scanLimit [] batches

theorem scanFrom_untruncated {scanLimit : Nat} {batches : List (List String)} :
    ∀ {keys : List String}, (scanFrom scanLimit keys batches).truncated = false →
      (scanFrom scanLimit keys batches).keys = keys ++ batches.flatten := by
  induction batches with
  | nil =>
      intro keys _
      rw [scanFrom, List.flatten_nil, List.append_nil]
  | cons batch rest ih =>
      intro keys untruncated
      rw [scanFrom] at untruncated ⊢
      split at untruncated
      · cases untruncated
      · rename_i fits
        have whole : batch.take (scanLimit - keys.length) = batch :=
          List.take_of_length_le (not_lt.mp fits)
        rw [whole] at untruncated
        rw [if_neg fits, whole]
        split at untruncated
        · rename_i last
          rw [if_pos last, last, List.flatten_cons, List.flatten_nil, List.append_nil]
        · rename_i more
          rw [if_neg more]
          split at untruncated
          · cases untruncated
          · rename_i goesOn
            rw [if_neg goesOn, ih untruncated, List.append_assoc, List.flatten_cons]

theorem boundedScan_untruncated {scanLimit : Nat} {batches : List (List String)}
    (untruncated : (boundedScan scanLimit batches).truncated = false) :
    (boundedScan scanLimit batches).keys = batches.flatten := by
  rw [boundedScan] at untruncated ⊢
  split at untruncated
  · cases untruncated
  · rename_i limited
    rw [if_neg limited]
    exact scanFrom_untruncated untruncated

/-! ## Names without special characters -/

def OrdinaryText (text : String) : Prop := ∀ b ∈ utf8 text, Ordinary b

instance (text : String) : Decidable (OrdinaryText text) :=
  List.decidableBAll _ _

theorem OrdinaryText.append {text text' : String} (first : OrdinaryText text)
    (later : OrdinaryText text') : OrdinaryText (text ++ text') := by
  intro b inText
  rw [utf8_append, List.mem_append] at inText
  exact inText.elim (first b) (later b)

theorem OrdinaryText.matches_iff {front : String} (ordinary : OrdinaryText front) (key : String) :
    globMatch (utf8 (front ++ "*")) (utf8 key) = true ↔ ∃ rest, key = front ++ rest := by
  have pattern : utf8 (front ++ "*") = utf8 front ++ [star] := by
    rw [utf8_append]
    exact congrArg (utf8 front ++ ·) (by decide)
  rw [pattern, globMatch_prefix_iff ordinary]
  constructor
  · rintro ⟨rest, cut⟩
    exact exists_of_utf8_append cut.symm
  · rintro ⟨rest, rfl⟩
    rw [utf8_append]
    exact List.prefix_append ..

namespace Allocator

def Plain (allocator : Allocator) : Prop := OrdinaryText allocator.base

variable {allocator : Allocator} (plain : allocator.Plain)
include plain

theorem Plain.keyStr {key : String} (ordinary : OrdinaryText key) :
    OrdinaryText (allocator.keyStr key) :=
  (OrdinaryText.append plain (by decide +kernel : OrdinaryText ":")).append ordinary

theorem Plain.keyStr_empty : OrdinaryText (allocator.keyStr "") :=
  plain.keyStr (by decide +kernel : OrdinaryText "")

theorem Plain.softBindPrefix : OrdinaryText allocator.softBindPrefix :=
  (OrdinaryText.append plain (by decide +kernel : OrdinaryText "-cache")).append
    (by decide +kernel : OrdinaryText ":bind:")

end Allocator

end RedisAllocator

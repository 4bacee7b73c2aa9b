import Mathlib.Data.Option.Basic
import Mathlib.Data.List.Basic

/-!
# Lua's quoted literals

The scripts hold the prefix and the suffix of their allocator between single
quotes, and Lua 5.1 reads what stands there: a backslash begins an escape.  A
name is a string of bytes, since `\ddd` can spell bytes that are no UTF-8.
-/

set_option autoImplicit false

namespace RedisAllocator

abbrev Name := List UInt8

/-- The bytes Python sends for a `str`. -/
def utf8 (text : String) : Name := text.toByteArray.data.toList

@[simp] theorem utf8_append (a b : String) : utf8 (a ++ b) = utf8 a ++ utf8 b := by
  simp [utf8, String.toByteArray_append]

theorem utf8_inj {a b : String} (same : utf8 a = utf8 b) : a = b := by
  apply String.toByteArray_inj.mp
  apply ByteArray.ext
  exact Array.toList_inj.mp same

theorem exists_utf8_of_append {whole rest : String} {front : Name}
    (cut : utf8 whole = front ++ utf8 rest) : ∃ text, front = utf8 text := by
  obtain ⟨bytes, rfl⟩ : ∃ bytes : ByteArray, front = bytes.data.toList := ⟨⟨front.toArray⟩, rfl⟩
  have whole_eq : whole.toByteArray = bytes ++ rest.toByteArray := by
    apply ByteArray.ext
    apply Array.toList_inj.mp
    simpa [utf8, ByteArray.data_append] using cut
  have size : whole.utf8ByteSize = bytes.size + rest.toByteArray.size := by
    rw [← String.size_toByteArray, whole_eq, ByteArray.size_append]
  have boundary : (String.Pos.Raw.mk bytes.size).IsValid whole := by
    rw [String.Pos.Raw.isValid_iff_isValidUTF8_extract_utf8ByteSize, String.Pos.Raw.le_iff,
      String.byteIdx_rawEndPos, size, whole_eq, ByteArray.extract_append_eq_right rfl rfl]
    exact ⟨Nat.le_add_right .., rest.isValidUTF8⟩
  obtain ⟨text, _, encoded, _⟩ := boundary.exists
  rw [whole_eq, ByteArray.extract_append_eq_left rfl] at encoded
  exact ⟨String.ofList text, by rw [utf8, String.toByteArray_ofList, encoded]⟩

theorem isValidUTF8_of_utf8Encode_append (text : List Char) {bytes : ByteArray}
    (valid : (text.utf8Encode ++ bytes).IsValidUTF8) : bytes.IsValidUTF8 := by
  induction text with
  | nil => simpa using valid
  | cons c text ih =>
      rw [List.utf8Encode_cons, ByteArray.append_assoc] at valid
      exact ih (ByteArray.isValidUTF8_utf8Encode_singleton_append_iff.mp valid)

theorem exists_of_utf8_append {whole front : String} {rest : Name}
    (cut : utf8 whole = utf8 front ++ rest) : ∃ text, whole = front ++ text := by
  obtain ⟨bytes, rfl⟩ : ∃ bytes : ByteArray, rest = bytes.data.toList := ⟨⟨rest.toArray⟩, rfl⟩
  have whole_eq : whole.toByteArray = front.toByteArray ++ bytes := by
    apply ByteArray.ext
    apply Array.toList_inj.mp
    simpa [utf8, ByteArray.data_append] using cut
  have valid : bytes.IsValidUTF8 := by
    apply isValidUTF8_of_utf8Encode_append front.toList
    rw [← String.toByteArray_ofList, String.ofList_toList, ← whole_eq]
    exact whole.isValidUTF8
  refine ⟨⟨bytes, valid⟩, String.toByteArray_inj.mp ?_⟩
  rw [String.toByteArray_append, whole_eq]

theorem mem_utf8EncodeChar_iff {b : UInt8} (ascii : b < 128) (c : Char) :
    b ∈ String.utf8EncodeChar c ↔ c.toNat = b.toNat := by
  have below : b.toNat < 128 := ascii
  have value : c.toNat = c.val.toNat := rfl
  have byte : ∀ n : Nat, b = UInt8.ofNat n ↔ n % 256 = b.toNat := by
    intro n
    rw [← UInt8.toNat_inj, UInt8.toNat_ofNat']
    exact eq_comm
  unfold String.utf8EncodeChar
  dsimp only
  -- the bytes of a longer encoding all have their top bit set
  split
  · rw [List.mem_singleton, byte]
    omega
  · split
    · simp only [List.mem_cons, List.not_mem_nil, or_false, byte]
      omega
    · split
      · simp only [List.mem_cons, List.not_mem_nil, or_false, byte]
        omega
      · simp only [List.mem_cons, List.not_mem_nil, or_false, byte]
        omega

theorem mem_utf8_iff {b : UInt8} (ascii : b < 128) (text : String) :
    b ∈ utf8 text ↔ ∃ c ∈ text.toList, c.toNat = b.toNat := by
  have encoded : b ∈ utf8 text ↔ ∃ c ∈ text.toList, b ∈ String.utf8EncodeChar c := by
    rw [utf8, ← String.utf8Encode_toList, List.utf8Encode]
    simp
  rw [encoded]
  exact exists_congr fun c => and_congr_right fun _ => mem_utf8EncodeChar_iff ascii c

namespace Lua

/-! ## Reading -/

inductive Reading
  | plain
  | escape
  | decimal (digits value : Nat)
  | newline (first : UInt8)
deriving DecidableEq

def isNewline (c : UInt8) : Bool := c = 10 ∨ c = 13

def isDigit (c : UInt8) : Bool := 48 ≤ c ∧ c ≤ 57

/-- A byte outside an escape.  A newline or the quote leaves the literal unfinished. -/
def readPlain (c : UInt8) : Option (Name × Reading) :=
  if c = 92 then some ([], .escape)
  else if isNewline c ∨ c = 39 then none
  else some ([c], .plain)

/-- The byte of an escape that is still open when another byte follows; above 255 it is too
large. -/
def pending : Reading → Option Name
  | .decimal _ value => if value ≤ 255 then some [UInt8.ofNat value] else none
  | _ => some []

def control (c : UInt8) : Option UInt8 :=
  if c = 97 then some 7 else if c = 98 then some 8 else if c = 102 then some 12
  else if c = 110 then some 10 else if c = 114 then some 13 else if c = 116 then some 9
  else if c = 118 then some 11 else none

def readByte : Reading → UInt8 → Option (Name × Reading)
  | .plain, c => readPlain c
  | .escape, c =>
    if isNewline c then some ([10], .newline c)
    else if isDigit c then some ([], .decimal 1 (c.toNat - 48))
    else some ([(control c).getD c], .plain)
  | .decimal digits value, c =>
    if digits < 3 ∧ isDigit c then some ([], .decimal (digits + 1) (10 * value + (c.toNat - 48)))
    else do
      let saved ← pending (.decimal digits value)
      let (bytes, next) ← readPlain c
      some (saved ++ bytes, next)
  | .newline first, c => if isNewline c ∧ c ≠ first then some ([], .plain) else readPlain c

/-- The bytes a text stands for, where `ending` says what the end of the text means. -/
def readFrom (ending : Reading → Option Name) : Reading → Name → Option Name
  | reading, [] => ending reading
  | reading, c :: text => do
    let (bytes, next) ← readByte reading c
    let more ← readFrom ending next text
    some (bytes ++ more)

def closed : Reading → Option Name
  | .escape => none
  | reading => pending reading

def readQuoted (text : Name) : Option Name := readFrom closed .plain text

/-! ## What stands before a separator -/

/-- The bytes a text spells when it is followed by an ordinary byte. -/
def spelled (text : Name) : Option Name := readFrom pending .plain text

theorem readFrom_append (ending : Reading → Option Name) (reading : Reading) (front back : Name) :
    readFrom ending reading (front ++ back) =
      readFrom (fun next => readFrom ending next back) reading front := by
  induction front generalizing reading with
  | nil => rfl
  | cons c front ih => simp only [List.cons_append, readFrom, ih]

theorem readFrom_map (ending : Reading → Option Name) (tail : Name) (reading : Reading)
    (text : Name) : readFrom (fun next => (ending next).map (· ++ tail)) reading text =
      (readFrom ending reading text).map (· ++ tail) := by
  induction text generalizing reading with
  | nil => rfl
  | cons c text ih =>
      simp only [readFrom, ih]
      cases readByte reading c with
      | none => rfl
      | some read =>
          obtain ⟨bytes, next⟩ := read
          cases found : readFrom ending next text <;> simp [found]

def isOrdinary (c : UInt8) : Bool := c ≠ 92 && !isNewline c && c ≠ 39

/-- The bytes that follow the prefix or the suffix in the literals: `-`, `:` and the bar. -/
def isSeparator (c : UInt8) : Bool := c = 45 ∨ c = 58 ∨ c = 124

theorem readPlain_of_isOrdinary {c : UInt8} (ordinary : isOrdinary c = true) :
    readPlain c = some ([c], .plain) := by
  simp only [isOrdinary, Bool.and_eq_true, decide_eq_true_eq, Bool.not_eq_true'] at ordinary
  obtain ⟨⟨notBackslash, notNewline⟩, notQuote⟩ := ordinary
  simp [readPlain, notBackslash, notNewline, notQuote]

theorem readFrom_ordinary {text : Name} (ordinary : ∀ c ∈ text, isOrdinary c = true) :
    readFrom closed .plain text = some text := by
  induction text with
  | nil => rfl
  | cons c text ih =>
      have head := readPlain_of_isOrdinary (ordinary c (List.mem_cons_self ..))
      have tail := ih fun other inText => ordinary other (List.mem_cons_of_mem c inText)
      simp [readFrom, readByte, head, tail]

theorem readByte_separator {c : UInt8} (separator : isSeparator c = true) (reading : Reading) :
    readByte reading c = (pending reading).map fun saved => (saved ++ [c], .plain) := by
  simp only [isSeparator, decide_eq_true_eq] at separator
  cases reading with
  | decimal digits value =>
      have notDigit : isDigit c = false := by rcases separator with rfl | rfl | rfl <;> rfl
      have plain : readPlain c = some ([c], .plain) := by
        rcases separator with rfl | rfl | rfl <;> rfl
      rw [readByte, notDigit, plain, if_neg (by simp)]
      cases pending (.decimal digits value) <;> rfl
  | newline first => rcases separator with rfl | rfl | rfl <;> rfl
  | _ => rcases separator with rfl | rfl | rfl <;> rfl

/-! ## Texts that spell themselves -/

/-- How many bytes more than the rest of the text has can still come: an escape in digits has not
produced its byte yet. -/
def owed : Reading → Nat
  | .decimal _ _ => 1
  | _ => 0

theorem length_le_of_pending {reading : Reading} {saved : Name}
    (ends : pending reading = some saved) : saved.length ≤ owed reading := by
  cases reading with
  | decimal digits value =>
      simp only [pending, Option.ite_none_right_eq_some, Option.some.injEq] at ends
      rw [← ends.2]
      exact Nat.le_refl _
  | _ =>
      cases ends
      exact Nat.le_refl _

theorem length_le_of_readPlain {c : UInt8} {bytes : Name} {next : Reading}
    (read : readPlain c = some (bytes, next)) : bytes.length + owed next ≤ 1 := by
  unfold readPlain at read
  split at read
  · cases read
    exact Nat.zero_le 1
  · split at read
    · cases read
    · cases read
      exact Nat.le_refl _

theorem length_le_of_readByte {reading next : Reading} {c : UInt8} {bytes : Name}
    (read : readByte reading c = some (bytes, next)) :
    bytes.length + owed next ≤ owed reading + 1 := by
  cases reading with
  | plain => exact Nat.le_trans (length_le_of_readPlain read) (Nat.le_add_left ..)
  | escape =>
      rw [readByte] at read
      split at read
      · cases read
        exact Nat.le_refl _
      · split at read
        · cases read
          exact Nat.le_refl _
        · cases read
          exact Nat.le_refl _
  | decimal digits value =>
      rw [readByte] at read
      split at read
      · cases read
        exact Nat.le_succ 1
      · obtain ⟨saved, ends, read⟩ := Option.bind_eq_some_iff.mp read
        obtain ⟨⟨plain, state⟩, behind, read⟩ := Option.bind_eq_some_iff.mp read
        cases read
        have first := length_le_of_pending ends
        have second := length_le_of_readPlain behind
        rw [List.length_append]
        omega
  | newline first =>
      rw [readByte] at read
      split at read
      · cases read
        exact Nat.zero_le _
      · exact Nat.le_trans (length_le_of_readPlain read) (Nat.le_add_left ..)

theorem length_le_of_readFrom {reading : Reading} {text bytes : Name}
    (read : readFrom pending reading text = some bytes) :
    bytes.length ≤ owed reading + text.length := by
  induction text generalizing reading bytes with
  | nil => exact Nat.le_trans (length_le_of_pending read) (Nat.le_add_right ..)
  | cons c text ih =>
      obtain ⟨⟨front, next⟩, first, read⟩ := Option.bind_eq_some_iff.mp read
      obtain ⟨more, later, read⟩ := Option.bind_eq_some_iff.mp read
      cases read
      have here := length_le_of_readByte first
      have rest := ih later
      rw [List.length_append, List.length_cons]
      omega

/-- An escape costs a byte, and a newline or a quote the whole literal. -/
theorem spelled_eq_self_iff (text : Name) :
    spelled text = some text ↔ ∀ c ∈ text, isOrdinary c = true := by
  induction text with
  | nil => exact iff_of_true rfl (by simp)
  | cons c text ih =>
      rw [List.forall_mem_cons, ← ih]
      constructor
      · intro same
        obtain ⟨⟨front, next⟩, first, behind⟩ := Option.bind_eq_some_iff.mp same
        obtain ⟨more, later, whole⟩ := Option.bind_eq_some_iff.mp behind
        rw [Option.some.injEq] at whole
        rw [readByte, readPlain] at first
        split at first
        · cases first
          have short := length_le_of_readFrom later
          rw [List.nil_append] at whole
          have settled : owed .escape = 0 := rfl
          rw [whole, List.length_cons, settled] at short
          omega
        · rename_i notBackslash
          split at first
          · cases first
          · rename_i inside
            cases first
            obtain rfl : more = text := List.append_cancel_left whole
            rw [not_or] at inside
            exact ⟨by simp [isOrdinary, notBackslash, inside], later⟩
      · rintro ⟨ordinary, rest⟩
        have read : readByte .plain c = some ([c], .plain) := readPlain_of_isOrdinary ordinary
        rw [spelled] at rest ⊢
        rw [readFrom, read]
        simp [rest]

def isPlain (c : Char) : Bool := c.toNat ≠ 92 && c.toNat ≠ 10 && c.toNat ≠ 13 && c.toNat ≠ 39

theorem spelled_utf8_iff (text : String) :
    spelled (utf8 text) = some (utf8 text) ↔ ∀ c ∈ text.toList, isPlain c = true := by
  have absent : ∀ b : UInt8, b < 128 →
      (b ∉ utf8 text ↔ ∀ c ∈ text.toList, c.toNat ≠ b.toNat) := by
    intro b ascii
    rw [mem_utf8_iff ascii]
    push Not
    rfl
  have ordinary : (∀ b ∈ utf8 text, isOrdinary b = true) ↔
      92 ∉ utf8 text ∧ 10 ∉ utf8 text ∧ 13 ∉ utf8 text ∧ 39 ∉ utf8 text := by
    simp only [isOrdinary, isNewline, Bool.and_eq_true, decide_eq_true_eq, Bool.not_eq_true',
      decide_eq_false_iff_not, not_or]
    constructor
    · intro all
      exact ⟨fun inText => (all _ inText).1.1 rfl, fun inText => (all _ inText).1.2.1 rfl,
        fun inText => (all _ inText).1.2.2 rfl, fun inText => (all _ inText).2 rfl⟩
    · rintro ⟨backslash, newline, carriage, quote⟩ b inText
      refine ⟨⟨?_, ?_, ?_⟩, ?_⟩
      all_goals
        rintro rfl
        contradiction
  rw [spelled_eq_self_iff, ordinary, absent 92 (by decide), absent 10 (by decide),
    absent 13 (by decide), absent 39 (by decide)]
  simp only [isPlain, Bool.and_eq_true, decide_eq_true_eq]
  constructor
  · rintro ⟨backslash, newline, carriage, quote⟩ c inText
    exact ⟨⟨⟨backslash c inText, newline c inText⟩, carriage c inText⟩, quote c inText⟩
  · intro all
    exact ⟨fun c inText => (all c inText).1.1.1, fun c inText => (all c inText).1.1.2,
      fun c inText => (all c inText).1.2, fun c inText => (all c inText).2⟩

/-- What the sources put behind the suffix: a separator, then ordinary bytes. -/
def isTail : Name → Bool
  | [] => false
  | c :: rest => isSeparator c && rest.all isOrdinary

theorem readQuoted_append (text : Name) {tail : Name} (plain : isTail tail = true) :
    readQuoted (text ++ tail) = (spelled text).map (· ++ tail) := by
  cases tail with
  | nil => cases plain
  | cons c rest =>
      simp only [isTail, Bool.and_eq_true, List.all_eq_true] at plain
      obtain ⟨separator, ordinary⟩ := plain
      have behind : (fun next => readFrom closed next (c :: rest)) =
          fun next => (pending next).map (· ++ c :: rest) := by
        funext next
        rw [readFrom, readByte_separator separator]
        cases pending next with
        | none => rfl
        | some saved => simp [readFrom_ordinary ordinary]
      rw [readQuoted, readFrom_append, behind, readFrom_map, spelled]

end Lua

end RedisAllocator

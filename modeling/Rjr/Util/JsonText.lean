import Rjr.Messages
import Rjr.Site.Value

/-!
# A printer and reader

`JsonLib` asks of the `json` library that a plain tree is written and read back. The printer and
reader below satisfy the law, so that results that rest on it are about something, and runs of the
model can be evaluated. A value is written without blanks; a float is written by its word. The
reader consumes exactly what was written in front of every suffix that can follow a value. As the
library does, the printer raises on a number that is not finite; it raises on objects as well.
-/

namespace Rjr.JsonText

/-! ## Printer -/

/-- A character of a string; the quote and the backslash are escaped. -/
def escape (char : Char) : List Char :=
  if char = '"' ∨ char = '\\' then ['\\', char] else [char]

/-- A string literal. -/
def writeString (text : String) : List Char :=
  '"' :: text.toList.flatMap escape ++ ['"']

/-- Decimal digits. -/
def writeNat (number : Nat) : List Char := Nat.toDigits 10 number

/-- An integer; the sign stands before the digits. -/
def writeInt : Int → List Char
  | .ofNat number => writeNat number
  | .negSucc number => '-' :: writeNat (number + 1)

mutual

/-- The text of a value. -/
def write : Json → List Char
  | .null => ['n', 'u', 'l', 'l']
  | .bool true => ['t', 'r', 'u', 'e']
  | .bool false => ['f', 'a', 'l', 's', 'e']
  | .int number => writeInt number
  | .float word => writeNat word.toNat ++ ['.', '0']
  | .str text => writeString text
  | .object cls _ => writeString cls
  | .arr [] => ['[', ']']
  | .arr (value :: rest) => '[' :: write value ++ writeElements rest
  | .obj [] => ['\x7b', '\x7d']
  | .obj ((key, value) :: rest) =>
    '\x7b' :: writeString key ++ ':' :: write value ++ writeMembers rest

/-- The elements after the first, and the end of the array. -/
def writeElements : List Json → List Char
  | [] => [']']
  | value :: rest => ',' :: write value ++ writeElements rest

/-- The members after the first, and the end of the hash. -/
def writeMembers : List (String × Json) → List Char
  | [] => ['\x7d']
  | (key, value) :: rest => ',' :: writeString key ++ ':' :: write value ++ writeMembers rest

end

/-- `to_json`. -/
def generate (tree : Json) : Except Exn String :=
  if Site.wellFormed tree then .ok (String.ofList (write tree))
  else .error ⟨"JSON::GeneratorError", "not allowed in JSON"⟩

/-! ## Reader -/

/-- What follows a given word. -/
def expect (word chars : List Char) : Option (List Char) :=
  if word.isPrefixOf chars then some (chars.drop word.length) else none

/-- The characters up to the closing quote. -/
def readString : List Char → Option (List Char × List Char)
  | [] => none
  | '"' :: rest => some ([], rest)
  | '\\' :: char :: rest => (readString rest).map fun read => (char :: read.1, read.2)
  | char :: rest => (readString rest).map fun read => (char :: read.1, read.2)

/-- The longest run of digits, which may not be empty. -/
def readNat (chars : List Char) : Option (Nat × List Char) :=
  if chars.takeWhile Char.isDigit = [] then none
  else some (Nat.ofDigitChars 10 (chars.takeWhile Char.isDigit) 0, chars.dropWhile Char.isDigit)

/-- A number: one with a fraction is a float. -/
def readNumber (chars : List Char) : Option (Json × List Char) :=
  (readNat chars).map fun read =>
    match read.2 with
    | '.' :: '0' :: rest => (.float (UInt64.ofNat read.1), rest)
    | rest => (.int read.1, rest)

/-- The key of a member, with its colon. -/
def readKey (chars : List Char) : Option (String × List Char) := do
  let rest ← expect ['"'] chars
  let (key, rest) ← readString rest
  let rest ← expect [':'] rest
  some (String.ofList key, rest)

mutual

/-- One value; the first character tells which. -/
def readValue : Nat → List Char → Option (Json × List Char)
  | 0, _ => none
  | _ + 1, [] => none
  | fuel + 1, first :: rest =>
    if first = 'n' then (expect ['u', 'l', 'l'] rest).map fun rest => (.null, rest)
    else if first = 't' then (expect ['r', 'u', 'e'] rest).map fun rest => (.bool true, rest)
    else if first = 'f' then
      (expect ['a', 'l', 's', 'e'] rest).map fun rest => (.bool false, rest)
    else if first = '"' then
      (readString rest).map fun read => (.str (String.ofList read.1), read.2)
    else if first = '-' then
      (readNat rest).map fun read => (.int (-(read.1 : Int)), read.2)
    else if first = '[' then
      match expect [']'] rest with
      | some rest => some (.arr [], rest)
      | none => (readElements fuel rest).map fun read => (.arr read.1, read.2)
    else if first = '\x7b' then
      match expect ['\x7d'] rest with
      | some rest => some (.obj [], rest)
      | none => (readMembers fuel rest).map fun read => (.obj read.1, read.2)
    else readNumber (first :: rest)

/-- The elements of an array that is not empty. -/
def readElements : Nat → List Char → Option (List Json × List Char)
  | 0, _ => none
  | fuel + 1, chars => do
    let (value, rest) ← readValue fuel chars
    match rest with
    | ',' :: rest =>
      let (values, rest) ← readElements fuel rest
      some (value :: values, rest)
    | ']' :: rest => some ([value], rest)
    | _ => none

/-- The members of a hash that is not empty. -/
def readMembers : Nat → List Char → Option (List (String × Json) × List Char)
  | 0, _ => none
  | fuel + 1, chars => do
    let (key, rest) ← readKey chars
    let (value, rest) ← readValue fuel rest
    match rest with
    | ',' :: rest =>
      let (members, rest) ← readMembers fuel rest
      some ((key, value) :: members, rest)
    | '\x7d' :: rest => some ([(key, value)], rest)
    | _ => none

end

/-- A whole document. -/
def read (text : String) : Except Exn Json :=
  match readValue (text.toList.length) text.toList with
  | some (tree, []) => .ok tree
  | _ => .error ⟨"JSON::ParserError", "unexpected token"⟩

/-! ## Reading back -/

/-- What can follow a value: the end, or the character that continues or closes a container. -/
def Closed (rest : List Char) : Prop :=
  rest = [] ∨ ∃ first tail, rest = first :: tail ∧ (first = ',' ∨ first = ']' ∨ first = '\x7d')

/-- The rest of an array follows its first element. -/
theorem closed_elements (values : List Json) (rest : List Char) :
    Closed (writeElements values ++ rest) := by
  cases values with
  | nil => exact .inr ⟨']', rest, rfl, by simp⟩
  | cons value values => exact .inr ⟨',', _, rfl, by simp⟩

/-- The rest of a hash follows its first member. -/
theorem closed_members (members : List (String × Json)) (rest : List Char) :
    Closed (writeMembers members ++ rest) := by
  cases members with
  | nil => exact .inr ⟨'\x7d', rest, rfl, by simp⟩
  | cons member members => exact .inr ⟨',', _, rfl, by simp⟩

/-- A word that is there is consumed. -/
theorem expect_append (word rest : List Char) : expect word (word ++ rest) = some rest := by
  simp [expect]

/-- A string literal is read back up to its closing quote. -/
theorem readString_write (chars rest : List Char) :
    readString (chars.flatMap escape ++ '"' :: rest) = some (chars, rest) := by
  induction chars with
  | nil => simp [readString]
  | cons char chars ih =>
    rw [List.flatMap_cons, List.append_assoc]
    by_cases special : char = '"' ∨ char = '\\'
    · simp [escape, special, readString, ih]
    · have neither := not_or.mp special
      simp [escape, readString, neither.1, neither.2, ih]

/-- A number is written with digits. -/
theorem writeNat_digits (number : Nat) : ∀ char ∈ writeNat number, char.isDigit = true := by
  intro char inside
  exact Nat.isDigit_of_mem_toDigits (by decide) (by decide) inside

/-- Digits are read back in front of anything that does not start with a digit. -/
theorem readNat_write (number : Nat) (rest : List Char)
    (ends : rest.takeWhile Char.isDigit = []) :
    readNat (writeNat number ++ rest) = some (number, rest) := by
  have digits := writeNat_digits number
  have taken : (writeNat number ++ rest).takeWhile Char.isDigit = Nat.toDigits 10 number := by
    rw [List.takeWhile_append_of_pos digits, ends, List.append_nil, writeNat]
  have dropped : (writeNat number ++ rest).dropWhile Char.isDigit = rest := by
    rw [List.dropWhile_append_of_pos digits]
    have split := List.takeWhile_append_dropWhile (p := Char.isDigit) (l := rest)
    rw [ends] at split
    exact split
  rw [readNat, taken, dropped, if_neg Nat.toDigits_ne_nil, Nat.ofDigitChars_ten_toDigits]

/-- No digit follows a value. -/
theorem closed_takeWhile (rest : List Char) (closed : Closed rest) :
    rest.takeWhile Char.isDigit = [] := by
  rcases closed with rfl | ⟨first, tail, rfl, rfl | rfl | rfl⟩ <;> rfl

/-- A text that starts with a digit is a number. -/
theorem readValue_digit (fuel number : Nat) (rest : List Char) :
    readValue (fuel + 1) (writeNat number ++ rest) = readNumber (writeNat number ++ rest) := by
  have digits := writeNat_digits number
  cases shape : writeNat number with
  | nil => exact absurd shape Nat.toDigits_ne_nil
  | cons first tail =>
    have digit : first.isDigit = true := digits first (by rw [shape]; simp)
    have differs : ∀ char : Char, char.isDigit = false → first ≠ char := by
      rintro char other rfl
      rw [digit] at other
      cases other
    simp only [List.cons_append, readValue, differs 'n' (by decide), differs 't' (by decide),
      differs 'f' (by decide), differs '"' (by decide), differs '-' (by decide),
      differs '[' (by decide), differs '\x7b' (by decide), ↓reduceIte]

/-- An integer is read back. -/
theorem readValue_int (fuel : Nat) (number : Int) (rest : List Char) (closed : Closed rest) :
    readValue (fuel + 1) (writeInt number ++ rest) = some (.int number, rest) := by
  have ends := closed_takeWhile rest closed
  cases number with
  | ofNat number =>
    rw [writeInt, readValue_digit, readNumber, readNat_write number rest ends]
    rcases closed with rfl | ⟨first, tail, rfl, rfl | rfl | rfl⟩ <;> rfl
  | negSucc number =>
    have digits := readNat_write (number + 1) rest ends
    simp [writeInt, readValue, digits, Int.negSucc_eq]

/-- A float is read back. -/
theorem readValue_float (fuel : Nat) (word : UInt64) (rest : List Char) :
    readValue (fuel + 1) (write (.float word) ++ rest) = some (.float word, rest) := by
  have digits := readNat_write word.toNat ('.' :: '0' :: rest) rfl
  rw [write, List.append_assoc, readValue_digit, readNumber]
  simp [digits]

/-- The text of a value is not empty. -/
theorem write_length (tree : Json) : 0 < (write tree).length := by
  have digits : ∀ number, 0 < (writeNat number).length := fun number => Nat.length_toDigits_pos
  cases tree with
  | null => simp [write]
  | bool flag => cases flag <;> simp [write]
  | int number => cases number <;> simp [write, writeInt, digits]
  | float word => simp [write]
  | str text => simp [write, writeString]
  | object cls identity => simp [write, writeString]
  | arr elements => cases elements <;> simp [write]
  | obj members => cases members <;> simp [write]

/-- A value is read back by a reader with at least the length of its text as allowance. -/
def ReadsBack (tree : Json) : Prop :=
  ∀ (fuel : Nat) (rest : List Char), (write tree).length ≤ fuel → Closed rest →
    readValue fuel (write tree ++ rest) = some (tree, rest)

/-- Elements that are read back one by one are read back together. -/
theorem readElements_write (values : List Json) : ∀ (value : Json) (fuel : Nat)
    (rest : List Char), (∀ inner ∈ value :: values, ReadsBack inner) →
      (write value ++ writeElements values).length ≤ fuel →
        readElements fuel (write value ++ writeElements values ++ rest) =
          some (value :: values, rest) := by
  induction values with
  | nil =>
    intro value fuel rest each enough
    rw [List.length_append] at enough
    have nonempty := write_length value
    obtain ⟨fuel, rfl⟩ : ∃ less, fuel = less + 1 := ⟨fuel - 1, by omega⟩
    simp only [writeElements, List.length_cons, List.length_nil] at enough
    have head := each value (by simp) fuel (']' :: rest) (by omega) (closed_elements [] rest)
    simp [readElements, writeElements, head]
  | cons next values ih =>
    intro value fuel rest each enough
    rw [List.length_append] at enough
    have nonempty := write_length value
    obtain ⟨fuel, rfl⟩ : ∃ less, fuel = less + 1 := ⟨fuel - 1, by omega⟩
    simp only [writeElements, List.cons_append, List.length_cons] at enough
    have head := each value (by simp) fuel (writeElements (next :: values) ++ rest) (by omega)
      (closed_elements _ _)
    have tail := ih next fuel rest (fun inner inside => each inner (by simp_all)) (by omega)
    rw [List.append_assoc, readElements, head]
    simp only [writeElements, List.cons_append, Option.bind_eq_bind, Option.bind_some, tail]

/-- A key is read back with its colon. -/
theorem readKey_write (key : String) (rest : List Char) :
    readKey (writeString key ++ ':' :: rest) = some (key, rest) := by
  have opened : expect ['"'] (writeString key ++ ':' :: rest) =
      some (key.toList.flatMap escape ++ '"' :: ':' :: rest) := by
    have shape : writeString key ++ ':' :: rest =
        ['"'] ++ (key.toList.flatMap escape ++ '"' :: ':' :: rest) := by
      simp [writeString]
    rw [shape, expect_append]
  have colon : expect [':'] (':' :: rest) = some rest := expect_append [':'] rest
  rw [readKey, opened]
  simp only [Option.bind_eq_bind, Option.bind_some, readString_write, colon, String.ofList_toList]

/-- Members whose values are read back one by one are read back together. -/
theorem readMembers_write (members : List (String × Json)) : ∀ (key : String) (value : Json)
    (fuel : Nat) (rest : List Char), (∀ entry ∈ (key, value) :: members, ReadsBack entry.2) →
      (writeString key ++ ':' :: write value ++ writeMembers members).length ≤ fuel →
        readMembers fuel (writeString key ++ ':' :: write value ++ writeMembers members ++ rest) =
          some ((key, value) :: members, rest) := by
  induction members with
  | nil =>
    intro key value fuel rest each enough
    simp only [writeMembers, List.length_append, List.length_cons, List.length_nil] at enough
    obtain ⟨fuel, rfl⟩ : ∃ less, fuel = less + 1 := ⟨fuel - 1, by omega⟩
    have head := each (key, value) (by simp) fuel ('\x7d' :: rest) (by dsimp only; omega)
      (closed_members [] rest)
    have opened := readKey_write key (write value ++ '\x7d' :: rest)
    have shape : writeString key ++ ':' :: write value ++ writeMembers [] ++ rest =
        writeString key ++ ':' :: (write value ++ '\x7d' :: rest) := by
      simp [writeMembers]
    rw [shape, readMembers, opened]
    simp only [Option.bind_eq_bind, Option.bind_some, head]
  | cons next members ih =>
    obtain ⟨nextKey, nextValue⟩ := next
    intro key value fuel rest each enough
    simp only [writeMembers, List.cons_append, List.length_append, List.length_cons] at enough
    obtain ⟨fuel, rfl⟩ : ∃ less, fuel = less + 1 := ⟨fuel - 1, by omega⟩
    have head := each (key, value) (by simp) fuel
      (writeMembers ((nextKey, nextValue) :: members) ++ rest) (by dsimp only; omega)
      (closed_members _ _)
    have opened := readKey_write key
      (write value ++ (writeMembers ((nextKey, nextValue) :: members) ++ rest))
    have tail := ih nextKey nextValue fuel rest (fun entry inside => each entry (by simp_all))
      (by simp only [List.length_append, List.length_cons]; omega)
    have shape : writeString key ++ ':' :: write value ++
        writeMembers ((nextKey, nextValue) :: members) ++ rest = writeString key ++ ':' ::
          (write value ++ (writeMembers ((nextKey, nextValue) :: members) ++ rest)) := by
      simp
    rw [shape, readMembers, opened]
    simp only [Option.bind_eq_bind, Option.bind_some, head]
    simp only [writeMembers, List.cons_append, Option.bind_some, tail]

/-- No value starts like the end of an array. -/
theorem expect_value (value : Json) (rest : List Char) :
    expect [']'] (write value ++ rest) = none := by
  have digits : ∀ (number : Nat) (rest : List Char),
      expect [']'] (writeNat number ++ rest) = none := by
    intro number rest
    cases shape : writeNat number with
    | nil => exact absurd shape Nat.toDigits_ne_nil
    | cons first tail =>
      have inside : first ∈ Nat.toDigits 10 number := by
        rw [← writeNat, shape]
        exact List.mem_cons_self
      have digit : first.isDigit = true :=
        Nat.isDigit_of_mem_toDigits (by decide) (by decide) inside
      have differs : ']' ≠ first := by
        rintro rfl
        exact absurd digit (by decide)
      simp [expect, differs]
  cases value with
  | null => simp [write, expect]
  | bool flag => cases flag <;> simp [write, expect]
  | int number =>
    cases number with
    | ofNat number => exact digits number rest
    | negSucc number => simp [write, writeInt, expect]
  | float word =>
    rw [write, List.append_assoc]
    exact digits _ _
  | str text => simp [write, writeString, expect]
  | object cls identity => simp [write, writeString, expect]
  | arr elements => cases elements <;> simp [write, expect]
  | obj members => cases members <;> simp [write, expect]

/-- Some allowance is left for a value, since its text is not empty. -/
theorem readsBack_of_succ (tree : Json)
    (reads : ∀ (fuel : Nat) (rest : List Char), (write tree).length ≤ fuel + 1 → Closed rest →
      readValue (fuel + 1) (write tree ++ rest) = some (tree, rest)) : ReadsBack tree := by
  intro fuel rest enough closed
  have nonempty := write_length tree
  obtain ⟨fuel, rfl⟩ : ∃ less, fuel = less + 1 := ⟨fuel - 1, by omega⟩
  exact reads fuel rest enough closed

/-- Plain trees are well formed. -/
theorem wellFormed_of_plain {createId : String} (tree : Json)
    (plain : tree.plain createId = true) : Site.wellFormed tree = true := by
  induction tree using Json.induct with
  | null => rfl
  | bool flag => rfl
  | int number => rfl
  | float word => exact plain
  | str text => rfl
  | object cls identity => cases plain
  | arr elements each =>
    rw [Json.plain, Json.plainElements_iff] at plain
    rw [Site.wellFormed_arr_iff]
    intro value inside
    exact each value inside (plain value inside)
  | obj members each =>
    rw [Json.plain, Bool.and_eq_true, Json.plainMembers_iff, decide_eq_true_eq] at plain
    rw [Site.wellFormed_obj_iff]
    refine ⟨plain.1, ?_⟩
    intro member inside
    exact each member inside (plain.2 member inside).2

/-- Every well formed value is read back in front of whatever can follow it. -/
theorem readsBack (tree : Json) (formed : Site.wellFormed tree = true) : ReadsBack tree := by
  induction tree using Json.induct with
  | object cls identity => cases formed
  | null =>
    apply readsBack_of_succ
    intro fuel rest enough closed
    have word := expect_append ['u', 'l', 'l'] rest
    simp only [List.cons_append, List.nil_append] at word
    simp [write, readValue, word]
  | bool flag =>
    apply readsBack_of_succ
    intro fuel rest enough closed
    have yes := expect_append ['r', 'u', 'e'] rest
    have no := expect_append ['a', 'l', 's', 'e'] rest
    simp only [List.cons_append, List.nil_append] at yes no
    cases flag with
    | true => simp [write, readValue, yes]
    | false => simp [write, readValue, no]
  | int number =>
    apply readsBack_of_succ
    intro fuel rest enough closed
    exact readValue_int fuel number rest closed
  | float word =>
    apply readsBack_of_succ
    intro fuel rest enough closed
    exact readValue_float fuel word rest
  | str text =>
    apply readsBack_of_succ
    intro fuel rest enough closed
    have literal := readString_write text.toList rest
    simp [write, writeString, readValue, literal]
  | arr elements each =>
    rw [Site.wellFormed_arr_iff] at formed
    apply readsBack_of_succ
    intro fuel rest enough closed
    cases elements with
    | nil =>
      have word := expect_append [']'] rest
      simp only [List.cons_append, List.nil_append] at word
      simp [write, readValue, word]
    | cons value values =>
      simp only [write, List.cons_append, List.length_cons] at enough
      have inner := fun item inside => each item inside (formed item inside)
      have all := readElements_write values value fuel rest inner (by omega)
      have starts := expect_value value (writeElements values ++ rest)
      rw [List.append_assoc] at all
      simp [write, readValue, starts, all]
  | obj members each =>
    rw [Site.wellFormed_obj_iff] at formed
    apply readsBack_of_succ
    intro fuel rest enough closed
    cases members with
    | nil =>
      have word := expect_append ['\x7d'] rest
      simp only [List.cons_append, List.nil_append] at word
      simp [write, readValue, word]
    | cons member members =>
      obtain ⟨key, value⟩ := member
      simp only [write, List.cons_append, List.length_cons] at enough
      have inner := fun entry inside => each entry inside (formed.2 entry inside)
      have all := readMembers_write members key value fuel rest inner (by omega)
      have starts : expect ['\x7d']
          (writeString key ++ ':' :: write value ++ writeMembers members ++ rest) = none := by
        simp [writeString, expect]
      simp only [List.append_assoc, List.cons_append] at starts all
      simp [write, readValue, starts, all]

/-- A well formed tree is written. -/
theorem generate_wellFormed {tree : Json} (formed : Site.wellFormed tree = true) :
    generate tree = .ok (String.ofList (write tree)) := by
  rw [generate, if_pos formed]

/-- What was written is read back. -/
theorem read_write {tree : Json} (formed : Site.wellFormed tree = true) :
    read (String.ofList (write tree)) = .ok tree := by
  have whole := readsBack tree formed (write tree).length [] (Nat.le_refl _) (.inl rfl)
  rw [List.append_nil] at whole
  rw [read, String.toList_ofList, whole]

/-- The `json` library with this printer and reader, and its default `create_id`; no class has a
`json_create`. -/
def lib : JsonLib where
  createId := "json_class"
  generate := generate
  parse := read
  create members := .ok (.obj members)
  roundTrip tree plain :=
    have formed := wellFormed_of_plain tree plain
    ⟨_, generate_wellFormed formed, read_write formed⟩

/-- A runtime with short texts, in which a pattern matches itself only. -/
def terse : Runtime where
  inspect _ := "value"
  noMethod method _ := method
  noConversion _ := "no conversion"
  regexpMatch source text := source == text

/-- A platform on which runs can be evaluated; no class may be instantiated. -/
def platform : Platform := ⟨terse, .space "Object" [], lib, .unset⟩

end Rjr.JsonText

import Mathlib.Data.List.TakeWhile
import Rjr.Lib.Framing

/-!
# Extracting one message from a data string

`JSONParser.extract_json_from` of `lib/rjr/util/json_parser.rb`: a scan from the first opening
brace that counts brackets outside quotes and stops where the count returns to zero. The scan
keeps its own flags; it does not parse JSON. The position found is kept in `mark`, whose initial
value zero stands for "not found".

`extractJsonFrom` follows the source index by index. `closeSplit` states the same scan on the
list itself, and `extractJsonFrom_eq` proves the two equal for every data string, so that the
laws of the framer are inductions over the list.
-/

namespace Rjr.JsonParser

/-- A data string, as its bytes. -/
abbrev Bytes := List UInt8

/-- The opening brace. -/
def openBrace : UInt8 := 0x7b
/-- The closing brace. -/
def closeBrace : UInt8 := 0x7d
/-- The double quote. -/
def doubleQuote : UInt8 := 0x22
/-- The apostrophe. -/
def singleQuote : UInt8 := 0x27
/-- The backslash. -/
def backslash : UInt8 := 0x5c

/-- The local variables of the scan. -/
structure Scan where
  /-- The previous byte was an unpaired backslash inside quotes. -/
  escaped : Bool
  /-- The scan is inside a quoted text. -/
  inQuotes : Bool
  /-- The byte that opened the last quoted text. -/
  quoteChar : Option UInt8
  /-- Opening minus closing brackets outside quotes. -/
  openBrackets : Int
  deriving DecidableEq, Repr

/-- Initial values of the scan's variables. -/
def Scan.initial : Scan := ⟨false, false, none, 0⟩

/-- Count a bracket, which only happens outside quotes. -/
def Scan.bracket (scan : Scan) (byte : UInt8) : Scan :=
  if scan.inQuotes then scan
  else if byte = openBrace then { scan with openBrackets := scan.openBrackets + 1 }
  else if byte = closeBrace then { scan with openBrackets := scan.openBrackets - 1 }
  else scan

/-- Enter or leave a quoted text. -/
def Scan.quote (scan : Scan) (byte : UInt8) : Scan :=
  if byte = singleQuote ∨ byte = doubleQuote then
    if scan.inQuotes = false then { scan with inQuotes := true, quoteChar := some byte }
    else if scan.quoteChar = some byte then { scan with inQuotes := false }
    else scan
  else scan

/-- The loop body up to the test of the bracket count. -/
def Scan.step (scan : Scan) (byte : UInt8) : Scan :=
  if scan.inQuotes ∧ byte = backslash then { scan with escaped := !scan.escaped }
  else
    let scanned := if scan.escaped then scan else (scan.bracket byte).quote byte
    { scanned with escaped := false }

/-- The loop over the bytes from `index` on; the result is `mark`. -/
def scanFrom (scan : Scan) (index : Nat) : Bytes → Nat
  | [] => 0
  | byte :: rest =>
    let next := scan.step byte
    if next.openBrackets = 0 then index else scanFrom next (index + 1) rest

/-- The position of the first opening brace, or the length of the data. -/
def startOf : Bytes → Nat
  | [] => 0
  | byte :: rest => if byte = openBrace then 0 else startOf rest + 1

/-- `JSONParser.extract_json_from`. A `nil` data string is the empty one. -/
def extractJsonFrom (data : Bytes) : Option (Bytes × Bytes) :=
  if data = [] then none
  else
    let start := startOf data
    let mark := scanFrom Scan.initial start (data.drop start)
    if mark = 0 then none
    else some ((data.drop start).take (mark + 1 - start), data.drop (mark + 1))

/-! ## The scan as a split of the list -/

/-- Split a list after the byte at which the bracket count returns to zero. -/
def closeSplit (scan : Scan) : Bytes → Option (Bytes × Bytes)
  | [] => none
  | byte :: rest =>
    let next := scan.step byte
    if next.openBrackets = 0 then some ([byte], rest)
    else (closeSplit next rest).map fun cut => (byte :: cut.1, cut.2)

/-- The data from its first opening brace on. -/
def fromBrace (data : Bytes) : Bytes := data.dropWhile (· != openBrace)

/-- Skipping to `startOf` is skipping to the first opening brace. -/
theorem drop_startOf (data : Bytes) : data.drop (startOf data) = fromBrace data := by
  induction data with
  | nil => rfl
  | cons byte rest ih =>
    by_cases brace : byte = openBrace
    · simp [startOf, fromBrace, brace]
    · simpa [startOf, fromBrace, brace] using ih

/-- What is scanned is empty or starts with an opening brace. -/
theorem fromBrace_cases (data : Bytes) :
    fromBrace data = [] ∨ ∃ tail, fromBrace data = openBrace :: tail := by
  cases found : fromBrace data with
  | nil => exact .inl rfl
  | cons byte tail =>
    have head := List.head?_dropWhile_not (· != openBrace) data
    have first : (data.dropWhile (· != openBrace)).head? = some byte := by
      rw [← fromBrace, found]
      rfl
    rw [first] at head
    have isBrace : byte = openBrace := by simpa using head
    exact .inr ⟨tail, by rw [isBrace]⟩

/-- The index loop is the list split: a mark found at `index` or later cuts the list there. -/
theorem scanFrom_eq (scan : Scan) (index : Nat) (data : Bytes) :
    (closeSplit scan data = none ∧ scanFrom scan index data = 0) ∨
      ∃ message rest, closeSplit scan data = some (message, rest) ∧ message ≠ [] ∧
        message ++ rest = data ∧ scanFrom scan index data + 1 = index + message.length := by
  induction data generalizing scan index with
  | nil => exact .inl ⟨rfl, rfl⟩
  | cons byte rest ih =>
    by_cases closed : (scan.step byte).openBrackets = 0
    · exact .inr ⟨[byte], rest, by simp [closeSplit, closed], by simp, rfl,
        by simp [scanFrom, closed]⟩
    · rcases ih (scan.step byte) (index + 1) with
        ⟨split, mark⟩ | ⟨message, tail, split, _, whole, mark⟩
      · exact .inl ⟨by simp [closeSplit, closed, split], by simp [scanFrom, closed, mark]⟩
      · refine .inr ⟨byte :: message, tail, by simp [closeSplit, closed, split], by simp,
          by simp [whole], ?_⟩
        simp only [scanFrom, closed, ↓reduceIte, List.length_cons]
        omega

/-- From an opening brace outside quotes the count is one. -/
theorem initial_step_brace : (Scan.initial.step openBrace) = ⟨false, false, none, 1⟩ := by decide

/-- A cut from the first opening brace has at least the two braces. -/
theorem closeSplit_fromBrace_length {data message rest : Bytes}
    (cut : closeSplit Scan.initial (fromBrace data) = some (message, rest)) :
    2 ≤ message.length := by
  rcases fromBrace_cases data with none | ⟨tail, found⟩
  · rw [none] at cut
    cases cut
  · rw [found] at cut
    simp only [closeSplit, initial_step_brace, show (1 : Int) ≠ 0 by decide, ↓reduceIte] at cut
    obtain ⟨inner, split, same⟩ := Option.map_eq_some_iff.mp cut
    cases same
    rcases scanFrom_eq ⟨false, false, none, 1⟩ 0 tail with ⟨absent, _⟩ | ⟨m, r, found, more, _, _⟩
    · rw [absent] at split
      cases split
    · rw [found] at split
      obtain rfl := Option.some.inj split
      have : 0 < m.length := List.length_pos_iff.mpr more
      simp only [List.length_cons]
      omega

/-- **The index arithmetic is the list split.** The sentinel zero is never a real position, and
the two slices are the message and what follows it, for every data string. -/
theorem extractJsonFrom_eq (data : Bytes) :
    extractJsonFrom data = closeSplit Scan.initial (fromBrace data) := by
  by_cases empty : data = []
  · subst empty
    rfl
  · simp only [extractJsonFrom, if_neg empty, drop_startOf]
    rcases scanFrom_eq Scan.initial (startOf data) (fromBrace data) with
      ⟨split, mark⟩ | ⟨message, rest, split, _, whole, mark⟩
    · simp [split, mark]
    · have long := closeSplit_fromBrace_length split
      have found : scanFrom Scan.initial (startOf data) (fromBrace data) ≠ 0 := by omega
      rw [if_neg found, split, Option.some.injEq, Prod.mk.injEq]
      constructor
      · rw [show scanFrom Scan.initial (startOf data) (fromBrace data) + 1 - startOf data =
          message.length by omega, ← whole, List.take_left]
      · rw [mark, ← List.drop_drop, drop_startOf, ← whole, List.drop_left]

/-! ## The laws of the framer -/

/-- Bytes after the cut do not change it. -/
theorem closeSplit_append {scan : Scan} {data message rest : Bytes} (later : Bytes)
    (cut : closeSplit scan data = some (message, rest)) :
    closeSplit scan (data ++ later) = some (message, rest ++ later) := by
  induction data generalizing scan message with
  | nil => simp [closeSplit] at cut
  | cons byte tail ih =>
    simp only [closeSplit, List.cons_append] at cut ⊢
    split at cut
    · rename_i closed
      cases cut
      rw [if_pos closed]
    · rename_i open'
      obtain ⟨inner, split, same⟩ := Option.map_eq_some_iff.mp cut
      cases same
      rw [if_neg open', ih split]
      rfl

/-- The two parts of a cut are the data. -/
theorem closeSplit_whole {scan : Scan} {data message rest : Bytes}
    (cut : closeSplit scan data = some (message, rest)) : message ++ rest = data := by
  rcases scanFrom_eq scan 0 data with ⟨absent, _⟩ | ⟨_, _, found, _, whole, _⟩
  · rw [absent] at cut
    cases cut
  · rw [found] at cut
    cases cut
    exact whole

/-- Bytes without an opening brace are skipped. -/
theorem fromBrace_append {filler : Bytes} (clean : openBrace ∉ filler) (data : Bytes) :
    fromBrace (filler ++ data) = fromBrace data := by
  apply List.dropWhile_append_of_pos
  intro byte member
  have differs : byte ≠ openBrace := fun same => clean (same ▸ member)
  simpa using differs

/-- Data that starts with an opening brace is not shortened. -/
theorem fromBrace_brace (data : Bytes) : fromBrace (openBrace :: data) = openBrace :: data := by
  simp [fromBrace]

/-- Every data string is brace-free filler followed by what is scanned. -/
theorem fromBrace_split (data : Bytes) :
    ∃ filler, openBrace ∉ filler ∧ filler ++ fromBrace data = data := by
  refine ⟨data.takeWhile (· != openBrace), ?_, List.takeWhile_append_dropWhile⟩
  intro member
  have passed := List.mem_takeWhile_imp member
  simp at passed

/-- `extract_json_from` cuts complete messages off a buffer: it always consumes something, and
bytes that arrive later do not change what it cut. -/
def jsonFramer : Framer UInt8 where
  extract := extractJsonFrom
  shrinks := by
    intro data message rest cut
    rw [extractJsonFrom_eq] at cut
    have long := closeSplit_fromBrace_length cut
    have whole := congrArg List.length (closeSplit_whole cut)
    obtain ⟨filler, _, split⟩ := fromBrace_split data
    have size := congrArg List.length split
    simp only [List.length_append] at whole size
    omega
  stable := by
    intro data message rest later cut
    rw [extractJsonFrom_eq] at cut ⊢
    cases found : fromBrace data with
    | nil => simp [found, closeSplit] at cut
    | cons byte tail =>
      have kept : fromBrace (data ++ later) = fromBrace data ++ later := by
        unfold fromBrace at found ⊢
        rw [List.dropWhile_append, found]
        rfl
      rw [kept]
      exact closeSplit_append later cut

end Rjr.JsonParser

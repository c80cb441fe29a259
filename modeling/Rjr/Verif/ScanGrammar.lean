import Rjr.Lib.JsonGrammar
import Rjr.Util.Extract

/-!
# The scanner on JSON texts

The bracket scan of `extract_json_from` keeps four variables and no stack. On a text derived by
the JSON grammar this is enough: every nonterminal but the inside of a string leaves the scan
outside quotes at the bracket depth it started from, and never brings a positive depth to zero.
The induction is over the derivation. An object text read from depth zero therefore closes
exactly at its last byte.
-/

namespace Rjr.Verif.ScanGrammar

open JsonParser JsonGrammar

/-- The scan outside quotes at a bracket depth; the last quote byte is left over. -/
def outside (depth : Int) (quoted : Option UInt8) : Scan := ⟨false, false, quoted, depth⟩

/-- The scan inside a double-quoted text at a bracket depth. -/
def inside (depth : Int) : Scan := ⟨false, true, some doubleQuote, depth⟩

/-- A byte that no branch of the scan tests outside quotes. -/
def Neutral (byte : UInt8) : Prop :=
  byte ≠ openBrace ∧ byte ≠ closeBrace ∧ byte ≠ singleQuote ∧ byte ≠ doubleQuote

instance (byte : UInt8) : Decidable (Neutral byte) :=
  inferInstanceAs (Decidable (byte ≠ openBrace ∧ byte ≠ closeBrace ∧ byte ≠ singleQuote ∧
    byte ≠ doubleQuote))

/-! ## Single bytes -/

/-- A neutral byte outside quotes changes nothing. -/
theorem step_neutral (depth : Int) (quoted : Option UInt8) (byte : UInt8)
    (neutral : Neutral byte) : (outside depth quoted).step byte = outside depth quoted := by
  obtain ⟨opening, closing, single, double⟩ := neutral
  simp [Scan.step, Scan.bracket, Scan.quote, outside, opening, closing, single, double]

/-- An opening brace outside quotes goes one level down. -/
theorem step_open (depth : Int) (quoted : Option UInt8) :
    (outside depth quoted).step openBrace = outside (depth + 1) quoted := by
  simp [Scan.step, Scan.bracket, Scan.quote, outside, openBrace, singleQuote, doubleQuote]

/-- A closing brace outside quotes comes one level up. -/
theorem step_close (depth : Int) (quoted : Option UInt8) :
    (outside depth quoted).step closeBrace = outside (depth - 1) quoted := by
  simp [Scan.step, Scan.bracket, Scan.quote, outside, openBrace, closeBrace, singleQuote,
    doubleQuote]

/-- A double quote outside quotes enters a quoted text. -/
theorem step_quote (depth : Int) (quoted : Option UInt8) :
    (outside depth quoted).step doubleQuote = inside depth := by
  simp [Scan.step, Scan.bracket, Scan.quote, outside, inside, openBrace, closeBrace, singleQuote,
    doubleQuote]

/-- A double quote inside double quotes leaves the quoted text. -/
theorem step_unquote (depth : Int) :
    (inside depth).step doubleQuote = outside depth (some doubleQuote) := by
  simp [Scan.step, Scan.bracket, Scan.quote, outside, inside, singleQuote, doubleQuote, backslash]

/-- Any byte but the quote and the backslash is skipped inside double quotes, braces and
apostrophes included. -/
theorem step_plain (depth : Int) (byte : UInt8) (quote : byte ≠ doubleQuote)
    (slash : byte ≠ backslash) : (inside depth).step byte = inside depth := by
  by_cases single : byte = singleQuote
  · subst single
    simp [Scan.step, Scan.bracket, Scan.quote, inside, singleQuote, doubleQuote, backslash]
  · simp [Scan.step, Scan.bracket, Scan.quote, inside, single, quote, slash]

/-- A backslash and the byte after it are skipped together, whatever that byte is. -/
theorem step_escape (depth : Int) (byte : UInt8) :
    ((inside depth).step backslash).step byte = inside depth := by
  by_cases slash : byte = backslash
  · subst slash
    simp [Scan.step, inside]
  · simp [Scan.step, inside, slash]

/-- The scan after a backslash inside quotes has the depth it had. -/
theorem step_escape_depth (depth : Int) :
    ((inside depth).step backslash).openBrackets = depth := by
  simp [Scan.step, inside]

/-! ## Runs that do not close -/

/-- Scan a text that never brings the bracket count to zero. -/
def passes (scan : Scan) : Bytes → Option Scan
  | [] => some scan
  | byte :: rest =>
    let next := scan.step byte
    if next.openBrackets = 0 then none else passes next rest

/-- Passing two texts one after the other. -/
theorem passes_append (scan : Scan) (first second : Bytes) :
    passes scan (first ++ second) = (passes scan first).bind fun next => passes next second := by
  induction first generalizing scan with
  | nil => rfl
  | cons byte rest ih =>
    simp only [List.cons_append, passes]
    split
    · rfl
    · exact ih _

/-- One byte that leaves a positive depth. -/
theorem passes_cons {scan next : Scan} {byte : UInt8} (rest : Bytes)
    (stepped : scan.step byte = next) (positive : 1 ≤ next.openBrackets) :
    passes scan (byte :: rest) = passes next rest := by
  have open' : next.openBrackets ≠ 0 := by omega
  simp [passes, stepped, open']

/-- A passed text is the front of whatever the scan cuts later. -/
theorem closeSplit_passes {scan next : Scan} {text : Bytes} (passed : passes scan text = some next)
    (rest : Bytes) : closeSplit scan (text ++ rest) =
      (closeSplit next rest).map fun cut => (text ++ cut.1, cut.2) := by
  induction text generalizing scan with
  | nil =>
    obtain rfl := Option.some.inj passed
    simp
  | cons byte tail ih =>
    simp only [passes] at passed
    split at passed
    · cases passed
    · rename_i open'
      rw [List.cons_append, closeSplit]
      simp only [if_neg open', ih passed, Option.map_map]
      rfl

/-- A text that is crossed at every positive depth, from outside quotes to outside quotes. -/
def Crossed (text : Bytes) : Prop :=
  ∀ depth quoted, 1 ≤ depth → ∃ quoted', passes (outside depth quoted) text =
    some (outside depth quoted')

/-- A text that is skipped inside double quotes at every positive depth. -/
def Skipped (text : Bytes) : Prop :=
  ∀ depth, 1 ≤ depth → passes (inside depth) text = some (inside depth)

/-- Nothing is crossed trivially. -/
theorem crossed_nil : Crossed [] := fun _ quoted _ => ⟨quoted, rfl⟩

/-- Crossed texts compose. -/
theorem Crossed.append {first second : Bytes} (left : Crossed first) (right : Crossed second) :
    Crossed (first ++ second) := by
  intro depth quoted positive
  obtain ⟨middle, crossed⟩ := left depth quoted positive
  obtain ⟨last, crossed'⟩ := right depth middle positive
  exact ⟨last, by rw [passes_append, crossed, Option.bind_some, crossed']⟩

/-- A neutral byte in front of a crossed text. -/
theorem Crossed.cons {byte : UInt8} {rest : Bytes} (neutral : Neutral byte)
    (crossed : Crossed rest) : Crossed (byte :: rest) := by
  intro depth quoted positive
  obtain ⟨last, passed⟩ := crossed depth quoted positive
  refine ⟨last, ?_⟩
  rw [passes_cons rest (step_neutral depth quoted byte neutral) positive, passed]

/-- A text of neutral bytes is crossed. -/
theorem crossed_of_neutral {text : Bytes} (neutral : ∀ byte ∈ text, Neutral byte) :
    Crossed text := by
  induction text with
  | nil => exact crossed_nil
  | cons byte rest ih =>
    exact .cons (neutral byte List.mem_cons_self)
      (ih fun other member => neutral other (List.mem_cons_of_mem _ member))

/-- A fixed text is crossed when each of its bytes is tested to be neutral. -/
theorem crossed_fixed {text : Bytes}
    (tested : text.all (fun byte => decide (Neutral byte)) = true) : Crossed text := by
  apply crossed_of_neutral
  intro byte inside
  exact of_decide_eq_true (List.all_eq_true.mp tested byte inside)

/-- A quoted text is crossed when its inside is skipped. -/
theorem crossed_string {body : Bytes} (skipped : Skipped body) :
    Crossed (doubleQuote :: (body ++ [doubleQuote])) := by
  intro depth quoted positive
  have entered := passes_cons (body ++ [doubleQuote]) (step_quote depth quoted) positive
  have left := passes_cons [] (step_unquote depth) positive
  refine ⟨some doubleQuote, ?_⟩
  rw [entered, passes_append, skipped depth positive, Option.bind_some, left]
  rfl

/-- A braced text is crossed when its inside is, one level down. -/
theorem crossed_object {body : Bytes} (crossed : Crossed body) :
    Crossed (openBrace :: (body ++ [closeBrace])) := by
  intro depth quoted positive
  have deeper : 1 ≤ depth + 1 := by omega
  obtain ⟨last, passed⟩ := crossed (depth + 1) quoted deeper
  have entered := passes_cons (body ++ [closeBrace]) (step_open depth quoted) deeper
  have back : (outside (depth + 1) last).step closeBrace = outside depth last := by
    rw [step_close, Int.add_sub_cancel]
  refine ⟨last, ?_⟩
  rw [entered, passes_append, passed, Option.bind_some, passes_cons [] back positive]
  rfl

/-! ## The grammar -/

/-- What the scan does on the texts of a nonterminal. -/
def Behaves : Nonterminal → Bytes → Prop
  | .characters, text => Skipped text
  | _, text => Crossed text

/-- White space is neutral. -/
theorem neutral_space {byte : UInt8} (space : IsSpace byte) : Neutral byte := by
  rcases space with rfl | rfl | rfl | rfl <;> decide

/-- Every byte of a number is neutral. -/
theorem neutral_number {text : Bytes} (derived : Derives .number text) :
    ∀ byte ∈ text, Neutral byte := by
  intro byte member
  rcases number_bytes derived byte member with ⟨lower, upper⟩ | listed
  · refine ⟨?_, ?_, ?_, ?_⟩ <;> rintro rfl <;> revert lower upper <;> decide
  · simp only [List.mem_cons, List.not_mem_nil, or_false] at listed
    rcases listed with rfl | rfl | rfl | rfl | rfl <;> decide

/-- A byte that stands for itself in a string is skipped. -/
theorem skipped_plain {byte : UInt8} {rest : Bytes} (plain : IsPlain byte)
    (skipped : Skipped rest) : Skipped (byte :: rest) := by
  intro depth positive
  rw [passes_cons rest (step_plain depth byte plain.2.1 plain.2.2) positive]
  exact skipped depth positive

/-- A backslash and the byte after it are skipped. -/
theorem skipped_escape {byte : UInt8} {rest : Bytes} (skipped : Skipped rest) :
    Skipped (backslash :: byte :: rest) := by
  intro depth positive
  have first : 1 ≤ ((inside depth).step backslash).openBrackets := by
    rw [step_escape_depth]
    exact positive
  rw [passes_cons _ rfl first, passes_cons rest (step_escape depth byte) positive]
  exact skipped depth positive

/-- A hexadecimal digit stands for itself. -/
theorem plain_hex {byte : UInt8} (hex : IsHex byte) : IsPlain byte := by
  rcases hex with ⟨lower, upper⟩ | ⟨lower, upper⟩ | ⟨lower, upper⟩ <;>
    refine ⟨Nat.le_trans (by decide) lower, ?_, ?_⟩ <;> rintro rfl <;> revert lower upper <;>
      decide

/-- **The scan follows the grammar.** Every text of every nonterminal is crossed at every
positive depth; the inside of a string is skipped. -/
theorem behaves {nonterminal : Nonterminal} {text : Bytes} (derived : Derives nonterminal text) :
    Behaves nonterminal text := by
  induction derived with
  | spaceEmpty => exact crossed_nil
  | spaceCons space _ ih => exact .cons (neutral_space space) ih
  | charactersEmpty => exact fun _ _ => rfl
  | charactersPlain plain _ ih => exact skipped_plain plain ih
  | charactersEscape _ _ ih => exact skipped_escape ih
  | charactersUnicode first second third fourth _ ih =>
    exact skipped_escape (skipped_plain (plain_hex first) (skipped_plain (plain_hex second)
      (skipped_plain (plain_hex third) (skipped_plain (plain_hex fourth) ih))))
  | string _ ih => exact crossed_string ih
  | number signed integer fractional exponential =>
    exact crossed_of_neutral (neutral_number (.number signed integer fractional exponential))
  | nullLiteral => exact crossed_fixed (by decide)
  | trueLiteral => exact crossed_fixed (by decide)
  | falseLiteral => exact crossed_fixed (by decide)
  | valueNumber _ ih => exact ih
  | valueString _ ih => exact ih
  | valueArray _ ih => exact ih
  | valueObject _ ih => exact ih
  | elementsOne _ _ _ before value after => exact before.append (value.append after)
  | elementsMore _ _ _ _ before value after rest =>
    exact before.append (value.append (after.append (.cons (by decide) rest)))
  | member _ _ _ _ _ _ before name colon gap value after =>
    refine before.append (name.append (colon.append ?_))
    exact .cons (by decide) (gap.append (value.append after))
  | membersOne _ ih => exact ih
  | membersMore _ _ first rest => exact first.append (.cons (by decide) rest)
  | arrayEmpty _ gap =>
    exact .cons (by decide) (gap.append (crossed_fixed (by decide)))
  | array _ body =>
    exact .cons (by decide) (body.append (crossed_fixed (by decide)))
  | objectEmpty _ gap => exact crossed_object gap
  | object _ body => exact crossed_object body

/-- The inside of an object text, between its braces, is crossed. -/
theorem object_body {text : Bytes} (derived : Derives .object text) :
    ∃ body, text = openBrace :: (body ++ [closeBrace]) ∧ Crossed body := by
  cases derived with
  | objectEmpty gap => exact ⟨_, rfl, behaves gap⟩
  | object members => exact ⟨_, rfl, behaves members⟩

/-- A braced text read from the start closes exactly at its last byte, whatever follows it. -/
theorem closeSplit_braced {body : Bytes} (crossed : Crossed body) (rest : Bytes) :
    closeSplit Scan.initial (openBrace :: (body ++ [closeBrace]) ++ rest) =
      some (openBrace :: (body ++ [closeBrace]), rest) := by
  obtain ⟨last, passed⟩ := crossed 1 none (by decide)
  have opened : Scan.initial.step openBrace = outside 1 none := initial_step_brace
  have closing : closeSplit (outside 1 last) (closeBrace :: rest) = some ([closeBrace], rest) := by
    rw [closeSplit, step_close]
    rfl
  have inner : closeSplit (outside 1 none) (body ++ closeBrace :: rest) =
      some (body ++ [closeBrace], rest) := by
    rw [closeSplit_passes passed, closing]
    rfl
  rw [List.cons_append, List.append_assoc, List.singleton_append, closeSplit, opened]
  simp only [outside] at inner ⊢
  rw [inner]
  rfl

/-- So does an object text. -/
theorem closeSplit_object {text : Bytes} (derived : Derives .object text) (rest : Bytes) :
    closeSplit Scan.initial (text ++ rest) = some (text, rest) := by
  obtain ⟨body, rfl, crossed⟩ := object_body derived
  exact closeSplit_braced crossed rest

/-- Extraction skips filler without an opening brace and cuts exactly the object text. -/
theorem extractJsonFrom_object {filler text : Bytes} (clean : openBrace ∉ filler)
    (derived : Derives .object text) (rest : Bytes) :
    extractJsonFrom (filler ++ (text ++ rest)) = some (text, rest) := by
  obtain ⟨body, shape, _⟩ := object_body derived
  have start : fromBrace (filler ++ (text ++ rest)) = text ++ rest := by
    rw [fromBrace_append clean, shape]
    exact fromBrace_brace _
  rw [extractJsonFrom_eq, start]
  exact closeSplit_object derived rest

/-- Nothing is extracted from filler alone. -/
theorem extractJsonFrom_filler {filler : Bytes} (clean : openBrace ∉ filler) :
    extractJsonFrom filler = none := by
  have nothing : fromBrace filler = [] := by
    have skipped := fromBrace_append clean []
    rwa [List.append_nil] at skipped
  rw [extractJsonFrom_eq, nothing]
  rfl

end Rjr.Verif.ScanGrammar

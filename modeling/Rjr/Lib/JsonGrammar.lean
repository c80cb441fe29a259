import Mathlib.Data.List.Basic

/-!
# The JSON grammar

The concrete grammar of JSON texts over bytes, as one relation between a nonterminal and the
byte strings it derives. Being a single relation, it has one induction principle for all
nonterminals. Bytes above the ASCII range are admitted inside strings without decoding them,
so every UTF-8 encoded JSON text is derived.
-/

namespace JsonGrammar

/-- The nonterminals of the grammar. -/
inductive Nonterminal where
  /-- Insignificant white space. -/
  | space
  /-- The inside of a string. -/
  | characters
  /-- A string with its quotes. -/
  | string
  /-- A number. -/
  | number
  /-- Any value. -/
  | value
  /-- One or more values with commas between them. -/
  | elements
  /-- One member of an object. -/
  | member
  /-- One or more members with commas between them. -/
  | members
  /-- An array with its brackets. -/
  | array
  /-- An object with its braces. -/
  | object
  deriving DecidableEq, Repr

/-- Space, tab, line feed and carriage return. -/
def IsSpace (byte : UInt8) : Prop := byte = 0x20 ∨ byte = 0x09 ∨ byte = 0x0a ∨ byte = 0x0d

/-- A byte that stands for itself inside a string: no control byte, quote or backslash. -/
def IsPlain (byte : UInt8) : Prop := 0x20 ≤ byte ∧ byte ≠ 0x22 ∧ byte ≠ 0x5c

/-- A byte that may follow a backslash alone. -/
def IsEscape (byte : UInt8) : Prop :=
  byte ∈ [0x22, 0x5c, 0x2f, 0x62, 0x66, 0x6e, 0x72, 0x74]

/-- A hexadecimal digit. -/
def IsHex (byte : UInt8) : Prop :=
  (0x30 ≤ byte ∧ byte ≤ 0x39) ∨ (0x41 ≤ byte ∧ byte ≤ 0x46) ∨ (0x61 ≤ byte ∧ byte ≤ 0x66)

/-- A decimal digit. -/
def IsDigit (byte : UInt8) : Prop := 0x30 ≤ byte ∧ byte ≤ 0x39

/-- One or more decimal digits. -/
def IsDigits (digits : List UInt8) : Prop := digits ≠ [] ∧ ∀ byte ∈ digits, IsDigit byte

/-- The integer part of a number: a zero alone, or digits that do not start with one. -/
def IsInteger (digits : List UInt8) : Prop :=
  digits = [0x30] ∨ (IsDigits digits ∧ digits.head? ≠ some 0x30)

/-- The fraction of a number, possibly missing. -/
def IsFraction (text : List UInt8) : Prop :=
  text = [] ∨ ∃ digits, IsDigits digits ∧ text = 0x2e :: digits

/-- The exponent of a number, possibly missing. -/
def IsExponent (text : List UInt8) : Prop :=
  text = [] ∨ ∃ letter sign digits, (letter = 0x65 ∨ letter = 0x45) ∧
    (sign = [] ∨ sign = [0x2b] ∨ sign = [0x2d]) ∧ IsDigits digits ∧
      text = letter :: (sign ++ digits)

/-- The derivations of the grammar. -/
inductive Derives : Nonterminal → List UInt8 → Prop where
  | spaceEmpty : Derives .space []
  | spaceCons {byte : UInt8} {rest : List UInt8} : IsSpace byte → Derives .space rest →
      Derives .space (byte :: rest)
  | charactersEmpty : Derives .characters []
  | charactersPlain {byte : UInt8} {rest : List UInt8} : IsPlain byte →
      Derives .characters rest → Derives .characters (byte :: rest)
  | charactersEscape {byte : UInt8} {rest : List UInt8} : IsEscape byte →
      Derives .characters rest → Derives .characters (0x5c :: byte :: rest)
  | charactersUnicode {first second third fourth : UInt8} {rest : List UInt8} :
      IsHex first → IsHex second → IsHex third → IsHex fourth → Derives .characters rest →
      Derives .characters (0x5c :: 0x75 :: first :: second :: third :: fourth :: rest)
  | string {body : List UInt8} : Derives .characters body →
      Derives .string (0x22 :: (body ++ [0x22]))
  | number {sign whole fraction exponent : List UInt8} : (sign = [] ∨ sign = [0x2d]) →
      IsInteger whole → IsFraction fraction → IsExponent exponent →
      Derives .number (sign ++ (whole ++ (fraction ++ exponent)))
  | nullLiteral : Derives .value [0x6e, 0x75, 0x6c, 0x6c]
  | trueLiteral : Derives .value [0x74, 0x72, 0x75, 0x65]
  | falseLiteral : Derives .value [0x66, 0x61, 0x6c, 0x73, 0x65]
  | valueNumber {text : List UInt8} : Derives .number text → Derives .value text
  | valueString {text : List UInt8} : Derives .string text → Derives .value text
  | valueArray {text : List UInt8} : Derives .array text → Derives .value text
  | valueObject {text : List UInt8} : Derives .object text → Derives .value text
  | elementsOne {before value after : List UInt8} : Derives .space before →
      Derives .value value → Derives .space after →
      Derives .elements (before ++ (value ++ after))
  | elementsMore {before value after rest : List UInt8} : Derives .space before →
      Derives .value value → Derives .space after → Derives .elements rest →
      Derives .elements (before ++ (value ++ (after ++ 0x2c :: rest)))
  | member {before name colon gap value after : List UInt8} : Derives .space before →
      Derives .string name → Derives .space colon → Derives .space gap →
      Derives .value value → Derives .space after →
      Derives .member (before ++ (name ++ (colon ++ 0x3a :: (gap ++ (value ++ after)))))
  | membersOne {text : List UInt8} : Derives .member text → Derives .members text
  | membersMore {text rest : List UInt8} : Derives .member text → Derives .members rest →
      Derives .members (text ++ 0x2c :: rest)
  | arrayEmpty {gap : List UInt8} : Derives .space gap → Derives .array (0x5b :: (gap ++ [0x5d]))
  | array {body : List UInt8} : Derives .elements body →
      Derives .array (0x5b :: (body ++ [0x5d]))
  | objectEmpty {gap : List UInt8} : Derives .space gap →
      Derives .object (0x7b :: (gap ++ [0x7d]))
  | object {body : List UInt8} : Derives .members body →
      Derives .object (0x7b :: (body ++ [0x7d]))

/-- Every byte of a number is a digit, a sign, a point or an exponent letter. -/
theorem number_bytes {text : List UInt8} (derived : Derives .number text) :
    ∀ byte ∈ text, IsDigit byte ∨ byte ∈ [0x2d, 0x2b, 0x2e, 0x65, 0x45] := by
  cases derived with
  | number signed integer fractional exponential =>
    rename_i sign whole fraction exponent
    have digits : ∀ {text : List UInt8}, IsDigits text → ∀ byte ∈ text,
        IsDigit byte ∨ byte ∈ [0x2d, 0x2b, 0x2e, 0x65, 0x45] :=
      fun all byte member => .inl (all.2 byte member)
    intro byte member
    simp only [List.mem_append] at member
    rcases member with member | member | member | member
    · rcases signed with rfl | rfl <;> simp_all
    · rcases integer with rfl | ⟨all, _⟩
      · rw [List.mem_singleton] at member
        subst member
        exact .inl ⟨by decide, by decide⟩
      · exact digits all byte member
    · rcases fractional with rfl | ⟨tail, all, rfl⟩
      · cases member
      · rcases List.mem_cons.mp member with rfl | member
        · exact .inr (by decide)
        · exact digits all byte member
    · rcases exponential with rfl | ⟨letter, sign', tail, lettered, signed', all, rfl⟩
      · cases member
      · rcases List.mem_cons.mp member with rfl | member
        · rcases lettered with rfl | rfl <;> exact .inr (by decide)
        · rcases List.mem_append.mp member with member | member
          · rcases signed' with rfl | rfl | rfl <;> simp_all
          · exact digits all byte member

end JsonGrammar

import Mathlib.Data.List.Infix

/-!
# Searching for a pattern

A fragment of regular expressions: characters, `.*` and `$`. A pattern is searched for anywhere in
a text, as regular expressions without an anchor are. The matcher tries every way to match; the
lemmas say what it finds in terms of the text alone.
-/

/-- One item of a pattern. -/
inductive Pattern.Item where
  /-- A character. -/
  | char (expected : Char)
  /-- `.*`, any number of characters of a line. -/
  | anything
  /-- `$`, the end of a line. -/
  | lineEnd
  deriving DecidableEq, Repr

/-- A pattern, item by item. -/
abbrev Pattern := List Pattern.Item

namespace Pattern

/-- The pattern of a word. -/
def literal (word : List Char) : Pattern := word.map .char

/-- A line ends here. -/
def atLineEnd : List Char → Bool
  | [] => true
  | next :: _ => next == '\n'

/-- What is left after some characters of the first line is accepted. -/
def withinLine (accepts : List Char → Bool) : List Char → Bool
  | [] => accepts []
  | next :: rest => accepts (next :: rest) || (next != '\n' && withinLine accepts rest)

/-- The pattern matches at the front of the text. -/
def matchesFront : Pattern → List Char → Bool
  | [], _ => true
  | .char _ :: _, [] => false
  | .char expected :: items, next :: rest => next == expected && matchesFront items rest
  | .anything :: items, text => withinLine (matchesFront items) text
  | .lineEnd :: items, text => atLineEnd text && matchesFront items text

/-- The pattern matches somewhere in the text. -/
def search (pattern : Pattern) : List Char → Bool
  | [] => matchesFront pattern []
  | next :: rest => matchesFront pattern (next :: rest) || search pattern rest

/-- A search succeeds where the pattern matches at the front of an end of the text. -/
theorem search_iff (pattern : Pattern) (text : List Char) :
    search pattern text = true ↔ ∃ back, back <:+ text ∧ matchesFront pattern back = true := by
  induction text with
  | nil => simp [search]
  | cons next rest ih =>
    rw [search, Bool.or_eq_true, ih]
    constructor
    · rintro (here | ⟨back, ends, found⟩)
      · exact ⟨next :: rest, List.suffix_refl _, here⟩
      · exact ⟨back, ends.trans (List.suffix_cons next rest), found⟩
    · rintro ⟨back, ends, found⟩
      rcases List.suffix_cons_iff.mp ends with rfl | later
      · exact .inl found
      · exact .inr ⟨back, later, found⟩

/-- A word at the front of a pattern is at the front of the text. -/
theorem matchesFront_literal (word : List Char) (pattern : Pattern) (text : List Char) :
    matchesFront (literal word ++ pattern) text = true ↔
      ∃ back, text = word ++ back ∧ matchesFront pattern back = true := by
  induction word generalizing text with
  | nil => simp [literal]
  | cons expected word ih =>
    change matchesFront (.char expected :: (literal word ++ pattern)) text = true ↔ _
    cases text with
    | nil => simp [matchesFront]
    | cons next rest =>
      rw [matchesFront, Bool.and_eq_true, beq_iff_eq, ih]
      constructor
      · rintro ⟨rfl, back, rfl, found⟩
        exact ⟨back, rfl, found⟩
      · rintro ⟨back, same, found⟩
        obtain ⟨rfl, rfl⟩ := List.cons.inj same
        exact ⟨rfl, back, rfl, found⟩

/-- What is accepted within the line is an end of the text. -/
theorem withinLine_suffix {accepts : List Char → Bool} {text : List Char}
    (within : withinLine accepts text = true) : ∃ back, back <:+ text ∧ accepts back = true := by
  induction text with
  | nil => exact ⟨[], List.suffix_refl _, within⟩
  | cons next rest ih =>
    rw [withinLine, Bool.or_eq_true, Bool.and_eq_true] at within
    rcases within with here | ⟨_, later⟩
    · exact ⟨next :: rest, List.suffix_refl _, here⟩
    · obtain ⟨back, ends, found⟩ := ih later
      exact ⟨back, ends.trans (List.suffix_cons next rest), found⟩

/-- What is accepted at once is accepted within the line. -/
theorem withinLine_of_accepts {accepts : List Char → Bool} {text : List Char}
    (here : accepts text = true) : withinLine accepts text = true := by
  cases text with
  | nil => exact here
  | cons next rest => rw [withinLine, here, Bool.true_or]

/-- A leading `.*` does not change a search. -/
theorem search_anything (pattern : Pattern) (text : List Char) :
    search (.anything :: pattern) text = true ↔ search pattern text = true := by
  rw [search_iff, search_iff]
  constructor
  · rintro ⟨back, ends, found⟩
    rw [matchesFront] at found
    obtain ⟨later, laterEnds, accepted⟩ := withinLine_suffix found
    exact ⟨later, laterEnds.trans ends, accepted⟩
  · rintro ⟨back, ends, found⟩
    refine ⟨back, ends, ?_⟩
    rw [matchesFront]
    exact withinLine_of_accepts found

/-- A word followed by `.*` is found exactly in the texts that contain it. -/
theorem search_word (word text : List Char) :
    search (literal word ++ [.anything]) text = true ↔ word <:+: text := by
  have everything : ∀ back, matchesFront [.anything] back = true := by
    intro back
    rw [matchesFront]
    exact withinLine_of_accepts rfl
  rw [search_iff]
  constructor
  · rintro ⟨back, ⟨front, rfl⟩, found⟩
    obtain ⟨after, rfl, _⟩ := (matchesFront_literal word _ back).mp found
    exact ⟨front, after, by rw [List.append_assoc]⟩
  · rintro ⟨front, after, rfl⟩
    refine ⟨word ++ after, ⟨front, by rw [List.append_assoc]⟩, ?_⟩
    exact (matchesFront_literal word _ _).mpr ⟨after, rfl, everything after⟩

/-- A word followed by `$` is found exactly where a line of the text ends with it. -/
theorem search_word_lineEnd (word text : List Char) :
    search (literal word ++ [.lineEnd]) text = true ↔
      ∃ front back, text = front ++ word ++ back ∧ atLineEnd back = true := by
  have ends : ∀ back, matchesFront [.lineEnd] back = atLineEnd back := by
    intro back
    rw [matchesFront, matchesFront, Bool.and_true]
  rw [search_iff]
  constructor
  · rintro ⟨back, ⟨front, rfl⟩, found⟩
    obtain ⟨after, rfl, atEnd⟩ := (matchesFront_literal word _ back).mp found
    rw [ends] at atEnd
    exact ⟨front, after, by rw [List.append_assoc], atEnd⟩
  · rintro ⟨front, after, rfl, atEnd⟩
    refine ⟨word ++ after, ⟨front, by rw [List.append_assoc]⟩, ?_⟩
    exact (matchesFront_literal word _ _).mpr ⟨after, rfl, by rw [ends, atEnd]⟩

/-! ## Words across a boundary -/

/-- No end of a text is the beginning of a word, or begins with it. -/
def Apart (word text : List Char) : Prop :=
  ∀ back ∈ text.tails, back ≠ [] → ¬ back <+: word ∧ ¬ word <+: back

/-- A text can be checked for this. -/
instance (word text : List Char) : Decidable (Apart word text) := by
  unfold Apart
  infer_instance

/-- A word behind a text it is apart from is in what follows the text. -/
theorem isInfix_append_iff {word text : List Char} (apart : Apart word text) (rest : List Char) :
    word <:+: text ++ rest ↔ word <:+: rest := by
  induction text with
  | nil => rfl
  | cons next text ih =>
    have later : Apart word text := by
      intro back inside
      refine apart back ?_
      rw [List.mem_tails] at inside ⊢
      exact inside.trans (List.suffix_cons next text)
    have first := apart (next :: text) ((List.mem_tails _ _).mpr (List.suffix_refl _))
      (List.cons_ne_nil _ _)
    rw [List.cons_append, List.infix_cons_iff, ih later]
    constructor
    · rintro (front | inside)
      · have whole : next :: text <+: (next :: text) ++ rest := List.prefix_append _ _
        rcases List.prefix_or_prefix_of_prefix front whole with short | long
        · exact absurd short first.2
        · exact absurd long first.1
      · exact inside
    · exact .inr

end Pattern

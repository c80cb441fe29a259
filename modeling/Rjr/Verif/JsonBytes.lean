import Rjr.Nodes.Sockets
import Rjr.Util.JsonText
import Rjr.Verif.ScanGrammar

/-!
# The bytes of written values

The texts of the printer in UTF-8. A character beyond ASCII has only bytes that no branch of
`extract_json_from` tests, and quotes and backslashes inside strings are escaped. So the bytes of
a hash are one message, and the printer and reader can be used over sockets.
-/

namespace Rjr.Verif.JsonBytes

open JsonParser JsonText Nodes ScanGrammar

/-- The bytes of characters, in UTF-8. -/
def bytes (chars : List Char) : Bytes := chars.flatMap String.utf8EncodeChar

/-- Texts one after the other. -/
theorem bytes_append (first second : List Char) :
    bytes (first ++ second) = bytes first ++ bytes second := List.flatMap_append

/-- The first character comes first. -/
theorem bytes_cons (char : Char) (rest : List Char) :
    bytes (char :: rest) = String.utf8EncodeChar char ++ bytes rest := List.flatMap_cons

/-- A byte inside a string that needs no escape. -/
def Inert (byte : UInt8) : Prop := byte ≠ doubleQuote ∧ byte ≠ backslash

/-- The bytes of a character beyond ASCII are beyond ASCII. -/
theorem high_bytes {char : Char} (high : ¬ char.val.toNat ≤ 0x7f) :
    ∀ byte ∈ String.utf8EncodeChar char, 128 ≤ byte.toNat := by
  intro byte member
  simp only [String.utf8EncodeChar, if_neg high] at member
  split at member
  · simp only [List.mem_cons, List.not_mem_nil, or_false] at member
    rcases member with rfl | rfl <;> simp only [UInt8.toNat_ofNat'] <;> omega
  · split at member
    · simp only [List.mem_cons, List.not_mem_nil, or_false] at member
      rcases member with rfl | rfl | rfl <;> simp only [UInt8.toNat_ofNat'] <;> omega
    · simp only [List.mem_cons, List.not_mem_nil, or_false] at member
      rcases member with rfl | rfl | rfl | rfl <;> simp only [UInt8.toNat_ofNat'] <;> omega

/-- The bytes of a character that is not escaped are inert. -/
theorem inert_bytes {char : Char} (quote : char ≠ '"') (slash : char ≠ '\\') :
    ∀ byte ∈ String.utf8EncodeChar char, Inert byte := by
  intro byte member
  by_cases low : char.val.toNat ≤ 0x7f
  · simp only [String.utf8EncodeChar, if_pos low, List.mem_singleton] at member
    have value : byte.toNat = char.val.toNat := by
      rw [member, UInt8.toNat_ofNat']
      omega
    -- a byte of ASCII is its own character
    have differs : ∀ other : Char, char ≠ other → byte.toNat ≠ other.val.toNat := by
      intro other apart same
      apply apart
      apply Char.ext
      apply UInt32.toNat_inj.mp
      rw [← value, same]
    constructor
    · rintro rfl
      exact differs '"' quote rfl
    · rintro rfl
      exact differs '\\' slash rfl
  · have high := high_bytes low byte member
    constructor
    · rintro rfl
      exact absurd high (by decide)
    · rintro rfl
      exact absurd high (by decide)

/-- Inert bytes are skipped inside a string. -/
theorem skipped_inert {text rest : Bytes} (inert : ∀ byte ∈ text, Inert byte)
    (skipped : Skipped rest) : Skipped (text ++ rest) := by
  induction text with
  | nil => exact skipped
  | cons byte text ih =>
    intro depth positive
    obtain ⟨quote, slash⟩ := inert byte List.mem_cons_self
    rw [List.cons_append, passes_cons _ (step_plain depth byte quote slash) positive]
    exact ih (fun other member => inert other (List.mem_cons_of_mem _ member)) depth positive

/-- The inside of a string literal is skipped. -/
theorem skipped_escaped (chars : List Char) : Skipped (bytes (chars.flatMap escape)) := by
  induction chars with
  | nil => exact fun _ _ => rfl
  | cons char rest ih =>
    rw [List.flatMap_cons, bytes_append]
    by_cases special : char = '"' ∨ char = '\\'
    · rw [escape, if_pos special]
      rcases special with rfl | rfl
      · exact skipped_escape ih
      · exact skipped_escape ih
    · obtain ⟨quote, slash⟩ := not_or.mp special
      rw [escape, if_neg special, bytes_cons, List.append_assoc]
      exact skipped_inert (inert_bytes quote slash) ih

/-- A string literal is crossed. -/
theorem crossed_writeString (text : String) : Crossed (bytes (writeString text)) := by
  have literal := crossed_string (skipped_escaped text.toList)
  rw [writeString, List.cons_append, bytes_cons, bytes_append]
  exact literal

/-- Digits are crossed. -/
theorem crossed_writeNat (number : Nat) : Crossed (bytes (writeNat number)) := by
  apply crossed_of_neutral
  intro byte member
  obtain ⟨char, inside, byte'⟩ := List.mem_flatMap.mp member
  have digit := writeNat_digits number char inside
  simp only [Char.isDigit, Bool.and_eq_true, decide_eq_true_eq, ge_iff_le, UInt32.le_iff_toNat_le]
    at digit
  obtain ⟨lower, upper⟩ := digit
  have low : char.val.toNat ≤ 0x7f := Nat.le_trans upper (by decide)
  simp only [String.utf8EncodeChar, if_pos low, List.mem_singleton] at byte'
  have value : byte.toNat = char.val.toNat := by
    rw [byte', UInt8.toNat_ofNat']
    omega
  rw [← value] at lower upper
  refine ⟨?_, ?_, ?_, ?_⟩ <;> rintro rfl <;> revert lower upper <;> decide

/-- The elements after the first are crossed. -/
theorem crossed_writeElements {values : List Json}
    (each : ∀ value ∈ values, Crossed (bytes (write value))) :
    Crossed (bytes (writeElements values)) := by
  induction values with
  | nil => exact crossed_fixed (by decide)
  | cons value rest ih =>
    have later := ih fun other inside => each other (List.mem_cons_of_mem _ inside)
    rw [writeElements, List.cons_append, bytes_cons, bytes_append]
    exact .append (crossed_fixed (by decide)) (.append (each value List.mem_cons_self) later)

/-- The members after the first are crossed up to the closing brace. -/
theorem crossed_writeMembers {members : List (String × Json)}
    (each : ∀ member ∈ members, Crossed (bytes (write member.2))) :
    ∃ body, bytes (writeMembers members) = body ++ [closeBrace] ∧ Crossed body := by
  induction members with
  | nil => exact ⟨[], rfl, crossed_nil⟩
  | cons member rest ih =>
    obtain ⟨key, value⟩ := member
    obtain ⟨body, same, crossed⟩ := ih fun other inside =>
      each other (List.mem_cons_of_mem _ inside)
    have own := each _ List.mem_cons_self
    refine ⟨String.utf8EncodeChar ',' ++ (bytes (writeString key) ++
      (String.utf8EncodeChar ':' ++ (bytes (write value) ++ body))), ?_, ?_⟩
    · simp only [writeMembers, List.cons_append, List.append_assoc, bytes_cons, bytes_append, same]
    · exact .append (crossed_fixed (by decide)) (.append (crossed_writeString key)
        (.append (crossed_fixed (by decide)) (.append own crossed)))

/-- The text of a hash is a braced text. -/
theorem write_obj {members : List (String × Json)}
    (each : ∀ member ∈ members, Crossed (bytes (write member.2))) :
    ∃ body, bytes (write (.obj members)) = openBrace :: (body ++ [closeBrace]) ∧
      Crossed body := by
  cases members with
  | nil => exact ⟨[], rfl, crossed_nil⟩
  | cons member rest =>
    obtain ⟨key, value⟩ := member
    obtain ⟨body, same, crossed⟩ :=
      crossed_writeMembers fun other inside => each other (List.mem_cons_of_mem _ inside)
    have own := each _ List.mem_cons_self
    refine ⟨bytes (writeString key) ++ (String.utf8EncodeChar ':' ++
      (bytes (write value) ++ body)), ?_, ?_⟩
    · simp only [write, List.cons_append, List.append_assoc, bytes_cons, bytes_append, same]
      rfl
    · exact .append (crossed_writeString key)
        (.append (crossed_fixed (by decide)) (.append own crossed))

/-- The text of every value is crossed. -/
theorem crossed_write (tree : Json) : Crossed (bytes (write tree)) := by
  induction tree using Json.induct with
  | null => exact crossed_fixed (by decide)
  | bool flag => cases flag <;> exact crossed_fixed (by decide)
  | int number =>
    cases number with
    | ofNat number => exact crossed_writeNat number
    | negSucc number =>
      rw [write, writeInt, bytes_cons]
      exact .append (crossed_fixed (by decide)) (crossed_writeNat (number + 1))
  | float word =>
    rw [write, bytes_append]
    exact .append (crossed_writeNat _) (crossed_fixed (by decide))
  | str text => exact crossed_writeString text
  | object cls identity => exact crossed_writeString cls
  | arr elements each =>
    cases elements with
    | nil => exact crossed_fixed (by decide)
    | cons value rest =>
      have later := crossed_writeElements fun other inside =>
        each other (List.mem_cons_of_mem _ inside)
      rw [write, List.cons_append, bytes_cons, bytes_append]
      exact .append (crossed_fixed (by decide)) (.append (each value List.mem_cons_self) later)
  | obj members each =>
    obtain ⟨body, same, crossed⟩ := write_obj each
    rw [same]
    exact crossed_object crossed

/-- The bytes of a hash are one message. -/
theorem framed_write (members : List (String × Json)) :
    extractJsonFrom (bytes (write (.obj members))) = some (bytes (write (.obj members)), []) := by
  obtain ⟨body, same, crossed⟩ := write_obj fun member (_ : member ∈ members) =>
    crossed_write member.2
  have closes := closeSplit_braced crossed []
  rw [List.append_nil] at closes
  rw [same, extractJsonFrom_eq, fromBrace_brace, closes]

/-- A string is read back from its bytes. -/
theorem fromUTF8_bytes (text : String) :
    String.fromUTF8? (bytes text.toList).toByteArray = some text := by
  have same : (bytes text.toList).toByteArray = text.toByteArray := String.utf8Encode_toList
  rw [same, String.fromUTF8?, dif_pos text.isValidUTF8]
  rfl

/-- Strings are written in UTF-8; what is not UTF-8 is read as an empty string. -/
def encoding : Encoding JsonText.lib where
  encode text := bytes text.toList
  decode received := (String.fromUTF8? received.toByteArray).getD ""
  decode_encode text := by rw [fromUTF8_bytes, Option.getD_some]
  framed members text plain written := by
    have formed := wellFormed_of_plain _ plain
    have same : text = String.ofList (write (.obj members)) :=
      Except.ok.inj (written.symm.trans (generate_wellFormed formed))
    rw [same, String.toList_ofList]
    exact framed_write members

end Rjr.Verif.JsonBytes

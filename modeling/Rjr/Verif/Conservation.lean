import Rjr.Verif.Framing

/-!
# Conservation of the stream

What `extract_json_from` cuts off a data string, and what becomes of the bytes of a stream. A cut
is brace-free filler, the shortest front of the rest that can be cut at all, and what follows it.
The loop of `receive_data` therefore ends on every buffer, and every byte received on a connection
is in a message, in filler before a message, or still in the buffer, whatever `handle_message`
does.
-/

namespace Rjr.Verif.Conservation

open JsonParser Nodes Framer Framing

/-! ## One message -/

/-- A bracket changes the count by one; it falls at a closing brace. -/
theorem bracket_openBrackets (scan : Scan) (byte : UInt8) :
    scan.openBrackets ≤ (scan.bracket byte).openBrackets ∨
      (scan.bracket byte).openBrackets = scan.openBrackets - 1 ∧ byte = closeBrace := by
  unfold Scan.bracket
  split
  · exact .inl (Int.le_refl _)
  · split
    · exact .inl (Int.le_add_one (Int.le_refl _))
    · split
      · rename_i isClose
        exact .inr ⟨rfl, isClose⟩
      · exact .inl (Int.le_refl _)

/-- A quote leaves the count alone. -/
theorem quote_openBrackets (scan : Scan) (byte : UInt8) :
    (scan.quote byte).openBrackets = scan.openBrackets := by
  unfold Scan.quote
  split
  · split
    · rfl
    · split <;> rfl
  · rfl

/-- The count changes at brackets only, by one; it falls only at a closing brace. -/
theorem step_openBrackets (scan : Scan) (byte : UInt8) :
    scan.openBrackets ≤ (scan.step byte).openBrackets ∨
      (scan.step byte).openBrackets = scan.openBrackets - 1 ∧ byte = closeBrace := by
  unfold Scan.step
  split
  · exact .inl (Int.le_refl _)
  · by_cases escaped : scan.escaped = true
    · rw [if_pos escaped]
      exact .inl (Int.le_refl _)
    · rw [if_neg escaped]
      dsimp only
      rw [quote_openBrackets]
      exact bracket_openBrackets scan byte

/-- From inside an object a cut ends with the closing brace. -/
theorem closeSplit_getLast {scan : Scan} {data message rest : Bytes}
    (inside : 0 < scan.openBrackets) (cut : closeSplit scan data = some (message, rest)) :
    message.getLast? = some closeBrace := by
  induction data generalizing scan message with
  | nil => cases cut
  | cons byte tail ih =>
    have counted := step_openBrackets scan byte
    by_cases closed : (scan.step byte).openBrackets = 0
    · simp only [closeSplit, closed, ↓reduceIte, Option.some.injEq, Prod.mk.injEq] at cut
      have isClose : byte = closeBrace := by
        rcases counted with more | ⟨_, isClose⟩
        · omega
        · exact isClose
      rw [← cut.1, isClose]
      rfl
    · simp only [closeSplit, closed, ↓reduceIte, Option.map_eq_some_iff] at cut
      obtain ⟨⟨inner, left⟩, found, same⟩ := cut
      cases same
      have deeper : 0 < (scan.step byte).openBrackets := by omega
      have last := ih deeper found
      rw [List.getLast?_cons, last]
      rfl

/-- A cut message is cut again as a whole. -/
theorem closeSplit_message {scan : Scan} {data message rest : Bytes}
    (cut : closeSplit scan data = some (message, rest)) :
    closeSplit scan message = some (message, []) := by
  induction data generalizing scan message with
  | nil => cases cut
  | cons byte tail ih =>
    by_cases closed : (scan.step byte).openBrackets = 0
    · simp only [closeSplit, closed, ↓reduceIte, Option.some.injEq, Prod.mk.injEq] at cut
      rw [← cut.1]
      simp only [closeSplit, closed, ↓reduceIte]
    · simp only [closeSplit, closed, ↓reduceIte, Option.map_eq_some_iff] at cut
      obtain ⟨⟨inner, left⟩, found, same⟩ := cut
      cases same
      simp only [closeSplit, closed, ↓reduceIte, ih found]
      rfl

/-- What `extract_json_from` returns for a data string: the string is filler without an opening
brace, the message and the rest; the message is in braces and no shorter front of it can be
extracted. -/
structure Cut (data message rest : Bytes) : Prop where
  /-- Only filler is dropped. -/
  whole : ∃ filler, openBrace ∉ filler ∧ data = filler ++ message ++ rest
  /-- The message starts with an opening brace. -/
  opens : message.head? = some openBrace
  /-- The message ends with a closing brace. -/
  closes : message.getLast? = some closeBrace
  /-- No shorter front of the message can be extracted. -/
  minimal : ∀ front, front ≠ [] → front <+: message → front ≠ message →
    extractJsonFrom front = none
  /-- The rest is shorter than the data. -/
  shorter : rest.length < data.length

/-- Nothing can be extracted from a front of data from which nothing can be extracted. -/
theorem extractJsonFrom_front {data front : Bytes} (absent : extractJsonFrom data = none)
    (start : front <+: data) : extractJsonFrom front = none := by
  obtain ⟨later, rfl⟩ := start
  cases found : extractJsonFrom front with
  | none => rfl
  | some cut =>
    have extended := jsonFramer.stable front cut.1 cut.2 later found
    rw [show jsonFramer.extract (front ++ later) = none from absent] at extended
    cases extended

/-- Whatever is extracted is a cut of the data. -/
theorem cut_of_extracted {data message rest : Bytes}
    (extracted : extractJsonFrom data = some (message, rest)) : Cut data message rest := by
  have cut := extracted
  rw [extractJsonFrom_eq] at cut
  have split := closeSplit_whole cut
  obtain ⟨filler, clean, whole⟩ := fromBrace_split data
  rcases fromBrace_cases data with none | ⟨tail, found⟩
  · rw [none] at cut
    cases cut
  · rw [found] at cut split
    -- The first byte scanned is the brace, after which the count is one.
    have inner := cut
    simp only [closeSplit, initial_step_brace, show (1 : Int) ≠ 0 by decide, ↓reduceIte,
      Option.map_eq_some_iff] at inner
    obtain ⟨⟨body, left⟩, bodyCut, same⟩ := inner
    cases same
    have last := closeSplit_getLast (show (0 : Int) < 1 by decide) bodyCut
    have again : jsonFramer.extract (openBrace :: body) = some (openBrace :: body, []) := by
      rw [show jsonFramer.extract = extractJsonFrom from rfl, extractJsonFrom_eq, fromBrace_brace]
      exact closeSplit_message cut
    refine ⟨⟨filler, clean, ?_⟩, rfl, ?_, ?_, jsonFramer.shrinks _ _ _ extracted⟩
    · rw [List.append_assoc, split, ← found, whole]
    · rw [List.getLast?_cons, last]
      rfl
    · rintro front _ ⟨later, whole⟩ proper
      refine jsonFramer.extract_partial again front later whole ?_
      rintro rfl
      rw [List.append_nil] at whole
      exact proper whole

/-! ## The stream -/

/-- The message framer skips bytes without an opening brace only. -/
theorem skips_filler : jsonFramer.Skips (openBrace ∉ ·) := by
  intro data message rest extracted
  obtain ⟨filler, clean, whole⟩ := (cut_of_extracted extracted).whole
  exact ⟨filler, clean, whole.symm⟩

/-- **Extraction conserves the stream and the receive loop ends.** For every data string, what is
extracted is a cut of it, and nothing can be extracted from a front of a string from which nothing
can be extracted. For either socket, every connection and whatever `handle_message` does, the loop
of `receive_data` ends in exactly one way on every chunk, and of the buffer and all chunks received
every byte is, in order, in filler without an opening brace, in a message handed over, or in the
buffer left. -/
theorem stream_conserved :
    (∀ data message rest, extractJsonFrom data = some (message, rest) → Cut data message rest) ∧
      (∀ data, extractJsonFrom data = none →
        ∀ front, front <+: data → extractJsonFrom front = none) ∧
      ∀ (socket : Socket) (raises : Raises) (connection : Connection),
        (∀ data final, LoopEnds raises ⟨connection.calls, connection.data ++ data⟩ final ↔
          final = socket.receiveData raises connection data) ∧
        ∀ chunks, Conserved (openBrace ∉ ·) connection chunks.flatten
          (received socket raises connection chunks) := by
  refine ⟨fun _ _ _ => cut_of_extracted, fun _ absent _ => extractJsonFrom_front absent, ?_⟩
  intro socket raises connection
  have same : ∀ data,
      socket.receiveData raises connection data = socketReceiveData raises connection data := by
    intro data
    cases socket <;> rfl
  refine ⟨?_, ?_⟩
  · intro data final
    have ends := loopEnds_socketReceiveData raises connection data
    rw [same]
    constructor
    · intro drains
      rw [drains.eq_drain, ends.eq_drain]
    · rintro rfl
      exact ends
  · intro chunks
    rw [received_eq]
    exact jsonFramer.receiveAll_conserved skips_filler raises connection chunks

/-- A line break, an object whose text has a brace in quotes, and the start of another one, in
two chunks: the first object is a cut, and the bytes are conserved. -/
theorem stream_conserved_chunks :
    Cut [0x0a, 0x7b, 0x27, 0x7d, 0x27, 0x7d, 0x7b] [0x7b, 0x27, 0x7d, 0x27, 0x7d] [0x7b] ∧
      extractJsonFrom [0x7b, 0x27, 0x7d] = none ∧
      Conserved (openBrace ∉ ·) Connection.new [0x0a, 0x7b, 0x27, 0x7d, 0x27, 0x7d, 0x7b]
        (received .tcp returns .new [[0x0a, 0x7b, 0x27], [0x7d, 0x27, 0x7d, 0x7b]]) :=
  ⟨stream_conserved.1 _ _ _ (by decide),
    stream_conserved.2.1 [0x7b, 0x27, 0x7d, 0x27] (by decide) _ (by decide),
    (stream_conserved.2.2 .tcp returns .new).2 [[0x0a, 0x7b, 0x27], [0x7d, 0x27, 0x7d, 0x7b]]⟩

end Rjr.Verif.Conservation

import Mathlib.Data.List.Basic

/-!
# Incremental framing

A framer cuts the first complete message off the front of a buffer. Two laws make it usable on
a stream: a cut shortens the buffer, so repeated cutting ends, and a cut does not depend on what
follows it, so bytes that arrive later cannot change it. From these alone, the messages a
receiver sees are those of the whole stream however the stream was split into chunks.

A receiver calls a consumer on every message it cuts. The consumer may fail, which ends the
current call and leaves the rest of the buffer for the next one. Whether a call fails may
depend on all earlier calls.
-/

/-- Cutting one message off the front of a buffer. -/
structure Framer (α : Type) where
  /-- The first complete message and what follows it, if there is one. -/
  extract : List α → Option (List α × List α)
  /-- A cut consumes something. -/
  shrinks : ∀ data message rest, extract data = some (message, rest) → rest.length < data.length
  /-- Later input does not change a cut. -/
  stable : ∀ data message rest later, extract data = some (message, rest) →
    extract (data ++ later) = some (message, rest ++ later)

/-- A receiver between two calls: what it has handed over so far, and its buffer. -/
structure Receiver (α : Type) where
  /-- Messages handed to the consumer, oldest first. -/
  calls : List (List α)
  /-- Input not yet cut. -/
  data : List α
  deriving DecidableEq

namespace Framer

variable {α : Type} (framer : Framer α)

/-- Cut and hand over messages until none is complete or the consumer fails. The consumer sees
the earlier calls, and `fails` tells whether it fails on the next message. -/
def drainFuel (fails : List (List α) → List α → Bool) : Nat → Receiver α → Receiver α
  | 0, receiver => receiver
  | fuel + 1, receiver =>
    match framer.extract receiver.data with
    | none => receiver
    | some (message, rest) =>
      let next : Receiver α := ⟨receiver.calls ++ [message], rest⟩
      if fails receiver.calls message then next else drainFuel fails fuel next

/-- The cutting loop, with one iteration allowed for every element of the buffer. -/
def drain (fails : List (List α) → List α → Bool) (receiver : Receiver α) : Receiver α :=
  framer.drainFuel fails receiver.data.length receiver

/-- One chunk is appended to the buffer, then the buffer is drained. -/
def receive (fails : List (List α) → List α → Bool) (receiver : Receiver α) (chunk : List α) :
    Receiver α :=
  framer.drain fails ⟨receiver.calls, receiver.data ++ chunk⟩

/-- The chunks of a stream, one after the other. -/
def receiveAll (fails : List (List α) → List α → Bool) (receiver : Receiver α)
    (chunks : List (List α)) : Receiver α :=
  chunks.foldl (framer.receive fails) receiver

/-- No message can be cut from an empty buffer. -/
theorem extract_nil : framer.extract [] = none := by
  cases found : framer.extract [] with
  | none => rfl
  | some cut =>
    have shorter := framer.shrinks [] cut.1 cut.2 found
    simp at shorter

/-- Any allowance of at least the buffer's length gives the same result. -/
theorem drainFuel_enough (fails : List (List α) → List α → Bool) :
    ∀ (fuel : Nat) (receiver : Receiver α), receiver.data.length ≤ fuel →
      framer.drainFuel fails fuel receiver = framer.drain fails receiver := by
  have agree : ∀ (fuel fuel' : Nat) (receiver : Receiver α), receiver.data.length ≤ fuel →
      receiver.data.length ≤ fuel' →
        framer.drainFuel fails fuel receiver = framer.drainFuel fails fuel' receiver := by
    intro fuel
    induction fuel with
    | zero =>
      intro fuel' receiver short _
      have empty : receiver.data = [] := List.length_eq_zero_iff.mp (Nat.le_zero.mp short)
      cases fuel' with
      | zero => rfl
      | succ fuel' => simp [drainFuel, empty, extract_nil]
    | succ fuel ih =>
      intro fuel' receiver short short'
      cases fuel' with
      | zero =>
        have empty : receiver.data = [] := List.length_eq_zero_iff.mp (Nat.le_zero.mp short')
        simp [drainFuel, empty, extract_nil]
      | succ fuel' =>
        simp only [drainFuel]
        cases found : framer.extract receiver.data with
        | none => rfl
        | some cut =>
          obtain ⟨message, rest⟩ := cut
          have shorter := framer.shrinks _ _ _ found
          simp only
          split
          · rfl
          · exact ih fuel' _ (by simp only; omega) (by simp only; omega)
  intro fuel receiver short
  exact agree fuel receiver.data.length receiver short (Nat.le_refl _)

/-- The loop's own equation, free of the allowance: the cutting loop always ends by itself. -/
theorem drain_eq (fails : List (List α) → List α → Bool) (receiver : Receiver α) :
    framer.drain fails receiver =
      match framer.extract receiver.data with
      | none => receiver
      | some (message, rest) =>
        if fails receiver.calls message then ⟨receiver.calls ++ [message], rest⟩
        else framer.drain fails ⟨receiver.calls ++ [message], rest⟩ := by
  rw [← framer.drainFuel_enough fails (receiver.data.length + 1) receiver (by omega)]
  rw [drainFuel]
  cases found : framer.extract receiver.data with
  | none => rfl
  | some cut =>
    obtain ⟨message, rest⟩ := cut
    have shorter := framer.shrinks _ _ _ found
    simp only
    split
    · rfl
    · exact framer.drainFuel_enough fails _ _ (by simp only; omega)

/-- Nothing complete: the loop ends at once. -/
theorem drain_none (fails : List (List α) → List α → Bool) (receiver : Receiver α)
    (absent : framer.extract receiver.data = none) : framer.drain fails receiver = receiver := by
  rw [drain_eq, absent]

/-- A complete message is cut and handed over first. -/
theorem drain_some (fails : List (List α) → List α → Bool) (receiver : Receiver α)
    (message rest : List α) (found : framer.extract receiver.data = some (message, rest)) :
    framer.drain fails receiver =
      if fails receiver.calls message then ⟨receiver.calls ++ [message], rest⟩
      else framer.drain fails ⟨receiver.calls ++ [message], rest⟩ := by
  rw [drain_eq, found]

/-- The loop only adds calls after the earlier ones. -/
theorem drain_calls_prefix (fails : List (List α) → List α → Bool) (receiver : Receiver α) :
    receiver.calls <+: (framer.drain fails receiver).calls := by
  unfold drain
  generalize receiver.data.length = fuel
  induction fuel generalizing receiver with
  | zero => exact List.prefix_refl _
  | succ fuel ih =>
    simp only [drainFuel]
    cases framer.extract receiver.data with
    | none => exact List.prefix_refl _
    | some cut =>
      simp only
      split
      · exact List.prefix_append _ _
      · exact (List.prefix_append receiver.calls [cut.1]).trans (ih ⟨_, cut.2⟩)

/-- Further chunks only add calls after the earlier ones. -/
theorem receiveAll_calls_prefix (fails : List (List α) → List α → Bool) (receiver : Receiver α)
    (chunks : List (List α)) :
    receiver.calls <+: (framer.receiveAll fails receiver chunks).calls := by
  induction chunks generalizing receiver with
  | nil => exact List.prefix_refl _
  | cons chunk rest ih =>
    have first := framer.drain_calls_prefix fails ⟨receiver.calls, receiver.data ++ chunk⟩
    exact first.trans (ih (framer.receive fails receiver chunk))

/-! ## The loop run to its end -/

/-- The cutting loop runs from one receiver to another: it ends where no message is complete or
the consumer fails, and goes on after every other message. -/
inductive Drains (fails : List (List α) → List α → Bool) : Receiver α → Receiver α → Prop where
  /-- No message is complete. -/
  | done {receiver : Receiver α} (absent : framer.extract receiver.data = none) :
      Drains fails receiver receiver
  /-- The consumer fails on the message. -/
  | failed {receiver : Receiver α} {message rest : List α}
      (cut : framer.extract receiver.data = some (message, rest))
      (fail : fails receiver.calls message = true) :
      Drains fails receiver ⟨receiver.calls ++ [message], rest⟩
  /-- The consumer returns, and the loop goes on. -/
  | next {receiver final : Receiver α} {message rest : List α}
      (cut : framer.extract receiver.data = some (message, rest))
      (pass : fails receiver.calls message = false)
      (later : Drains fails ⟨receiver.calls ++ [message], rest⟩ final) :
      Drains fails receiver final

/-- Induction along the cutting loop, over the length of the buffer: either nothing is complete,
or the property is carried from the rest of the buffer. -/
theorem drain_induction {motive : Receiver α → Prop}
    (done : ∀ receiver, framer.extract receiver.data = none → motive receiver)
    (cut : ∀ receiver message rest, framer.extract receiver.data = some (message, rest) →
      motive ⟨receiver.calls ++ [message], rest⟩ → motive receiver) :
    ∀ receiver, motive receiver := by
  intro receiver
  generalize size : receiver.data.length = length
  induction length using Nat.strongRecOn generalizing receiver with
  | ind length ih =>
    cases found : framer.extract receiver.data with
    | none => exact done receiver found
    | some split =>
      obtain ⟨message, rest⟩ := split
      have shorter := framer.shrinks _ _ _ found
      exact cut receiver message rest found (ih rest.length (by omega) _ rfl)

/-- The loop ends on every buffer, as `drain` says. -/
theorem drains_drain (fails : List (List α) → List α → Bool) (receiver : Receiver α) :
    framer.Drains fails receiver (framer.drain fails receiver) := by
  induction receiver using framer.drain_induction with
  | done receiver absent =>
    rw [framer.drain_none fails receiver absent]
    exact .done absent
  | cut receiver message rest found ih =>
    rw [framer.drain_some fails receiver message rest found]
    cases failed : fails receiver.calls message with
    | true => exact .failed found failed
    | false => exact .next found failed ih

/-- The loop has one end only. -/
theorem Drains.eq_drain {fails : List (List α) → List α → Bool} {receiver final : Receiver α}
    (drains : framer.Drains fails receiver final) : final = framer.drain fails receiver := by
  induction drains with
  | done absent => exact (framer.drain_none fails _ absent).symm
  | failed cut fail => rw [framer.drain_some fails _ _ _ cut, if_pos fail]
  | next cut pass later ih =>
    rw [framer.drain_some fails _ _ _ cut, pass]
    exact ih

/-! ## Conservation

A framer may skip something before the message it cuts. Then what a receiver has been given is
accounted for: it is what was skipped and the messages handed over, in turns, and the buffer. -/

/-- What stands before a message is of a kind that may be skipped, and nothing else is lost. -/
def Skips (skipped : List α → Prop) : Prop :=
  ∀ data message rest, framer.extract data = some (message, rest) →
    ∃ filler, skipped filler ∧ filler ++ message ++ rest = data

/-- The receiver was given some input on the way from one state to another. Every element of its
buffer and of the input is, in order, in a skipped part, in a message handed over since, or in
the new buffer. -/
def Conserved (skipped : List α → Prop) (before : Receiver α) (input : List α)
    (after : Receiver α) : Prop :=
  ∃ pieces : List (List α × List α), (∀ piece ∈ pieces, skipped piece.1) ∧
    after.calls = before.calls ++ pieces.map Prod.snd ∧
    before.data ++ input = (pieces.flatMap fun piece => piece.1 ++ piece.2) ++ after.data

/-- Nothing happens and nothing is lost. -/
theorem conserved_refl (skipped : List α → Prop) (receiver : Receiver α) :
    Conserved skipped receiver [] receiver :=
  ⟨[], by simp, by simp, by simp⟩

/-- Conservation of two stretches of the input is that of both together. -/
theorem Conserved.trans {skipped : List α → Prop} {first second third : Receiver α}
    {input later : List α} (before : Conserved skipped first input second)
    (after : Conserved skipped second later third) :
    Conserved skipped first (input ++ later) third := by
  obtain ⟨pieces, clean, calls, whole⟩ := before
  obtain ⟨pieces', clean', calls', whole'⟩ := after
  refine ⟨pieces ++ pieces', ?_, ?_, ?_⟩
  · intro piece inside
    rcases List.mem_append.mp inside with early | late
    · exact clean piece early
    · exact clean' piece late
  · rw [calls', calls, List.map_append, List.append_assoc]
  · rw [← List.append_assoc, whole, List.append_assoc, whole', List.flatMap_append,
      List.append_assoc]

/-- The cutting loop conserves the buffer. -/
theorem drain_conserved {skipped : List α → Prop} (skips : framer.Skips skipped)
    (fails : List (List α) → List α → Bool) (receiver : Receiver α) :
    Conserved skipped receiver [] (framer.drain fails receiver) := by
  have drains := framer.drains_drain fails receiver
  generalize framer.drain fails receiver = final at drains
  have cutOne : ∀ {receiver : Receiver α} {message rest : List α},
      framer.extract receiver.data = some (message, rest) →
        Conserved skipped receiver [] ⟨receiver.calls ++ [message], rest⟩ := by
    intro receiver message rest cut
    obtain ⟨filler, clean, whole⟩ := skips _ _ _ cut
    refine ⟨[(filler, message)], ?_, rfl, ?_⟩
    · intro piece inside
      rw [List.mem_singleton.mp inside]
      exact clean
    · simp [← whole]
  induction drains with
  | done absent => exact conserved_refl skipped _
  | failed cut fail => exact cutOne cut
  | next cut pass later ih => exact (cutOne cut).trans ih

/-- A chunk is conserved. -/
theorem receive_conserved {skipped : List α → Prop} (skips : framer.Skips skipped)
    (fails : List (List α) → List α → Bool) (receiver : Receiver α) (chunk : List α) :
    Conserved skipped receiver chunk (framer.receive fails receiver chunk) := by
  obtain ⟨pieces, clean, calls, whole⟩ :=
    framer.drain_conserved skips fails ⟨receiver.calls, receiver.data ++ chunk⟩
  rw [List.append_nil] at whole
  exact ⟨pieces, clean, calls, whole⟩

/-- The chunks of a stream are conserved. -/
theorem receiveAll_conserved {skipped : List α → Prop} (skips : framer.Skips skipped)
    (fails : List (List α) → List α → Bool) (receiver : Receiver α) (chunks : List (List α)) :
    Conserved skipped receiver chunks.flatten (framer.receiveAll fails receiver chunks) := by
  induction chunks generalizing receiver with
  | nil => exact conserved_refl skipped receiver
  | cons chunk rest ih =>
    have first := framer.receive_conserved skips fails receiver chunk
    exact first.trans (ih (framer.receive fails receiver chunk))

/-! ## A consumer that never fails -/

/-- The consumer that returns on every message. -/
def never : List (List α) → List α → Bool := fun _ _ => false

/-- Draining, then draining again with more input, is draining all of it at once. -/
theorem drain_append (receiver : Receiver α) (later : List α) :
    framer.drain never ⟨(framer.drain never receiver).calls,
        (framer.drain never receiver).data ++ later⟩ =
      framer.drain never ⟨receiver.calls, receiver.data ++ later⟩ := by
  induction receiver using framer.drain_induction with
  | done receiver absent => rw [drain_none _ _ _ absent]
  | cut receiver message rest found ih =>
    rw [drain_some _ _ _ message rest found]
    have extended := framer.stable _ _ _ later found
    rw [drain_some _ _ ⟨receiver.calls, receiver.data ++ later⟩ message (rest ++ later) extended]
    exact ih

/-- At least one chunk: the receiver ends as if the whole stream had come in one chunk. -/
theorem receiveAll_eq_drain (receiver : Receiver α) (chunk : List α) (chunks : List (List α)) :
    framer.receiveAll never receiver (chunk :: chunks) =
      framer.drain never ⟨receiver.calls, receiver.data ++ (chunk :: chunks).flatten⟩ := by
  induction chunks generalizing receiver chunk with
  | nil => simp [receiveAll, receive]
  | cons next rest ih =>
    have step := ih (framer.receive never receiver chunk) next
    simp only [receiveAll, List.foldl_cons] at step ⊢
    rw [step, receive, drain_append]
    simp

/-- A buffer without a complete message may be taken as the first chunk. -/
theorem receiveAll_rest (receiver : Receiver α) (chunks : List (List α))
    (resting : framer.extract receiver.data = none) :
    framer.receiveAll never receiver chunks =
      framer.drain never ⟨receiver.calls, receiver.data ++ chunks.flatten⟩ := by
  cases chunks with
  | nil =>
    simp only [receiveAll, List.foldl_nil, List.flatten_nil, List.append_nil]
    exact (framer.drain_none never receiver resting).symm
  | cons chunk chunks => exact framer.receiveAll_eq_drain receiver chunk chunks

/-! ## A consumer that may fail

The stream is a sequence of frames, each of which the framer cuts as a whole. `ends` counts the
elements of the first frames, so the last element of frame `index` lies in the chunk that first
brings the received length to `ends frames (index + 1)`. -/

/-- Each frame alone is cut as one message, with nothing left. -/
def Framed (frames : List (List α)) : Prop :=
  ∀ frame ∈ frames, framer.extract frame = some (frame, [])

/-- Number of elements in the first `count` frames. -/
def ends (frames : List (List α)) (count : Nat) : Nat := (frames.take count).flatten.length

/-- The last element of frame `index` lies in chunk `time`. -/
def EndsIn (frames chunks : List (List α)) (index time : Nat) : Prop :=
  ends chunks time < ends frames (index + 1) ∧ ends frames (index + 1) ≤ ends chunks (time + 1)

/-- More frames have at least as many elements. -/
theorem ends_mono (frames : List (List α)) {fewer more : Nat} (le : fewer ≤ more) :
    ends frames fewer ≤ ends frames more := by
  obtain ⟨rest, split⟩ := List.take_prefix_take_left (l := frames) le
  unfold ends
  rw [← split, List.flatten_append, List.length_append]
  exact Nat.le_add_right _ _

/-- The first frames and one more. -/
theorem take_flatten_succ (frames : List (List α)) (count : Nat) (inside : count < frames.length) :
    (frames.take (count + 1)).flatten = (frames.take count).flatten ++ frames[count] := by
  rw [List.take_succ_eq_append_getElem inside, List.flatten_append]
  simp

/-- A frame is cut from every buffer that starts with it. -/
theorem extract_frame {frame : List α} (framed : framer.extract frame = some (frame, []))
    (later : List α) : framer.extract (frame ++ later) = some (frame, later) := by
  simpa using framer.stable _ _ _ later framed

/-- Nothing is cut from a buffer that ends inside a frame. -/
theorem extract_partial {frame : List α} (framed : framer.extract frame = some (frame, []))
    (first later : List α) (split : first ++ later = frame) (open' : later ≠ []) :
    framer.extract first = none := by
  cases found : framer.extract first with
  | none => rfl
  | some cut =>
    have whole := framer.stable _ _ _ later found
    rw [split, framed] at whole
    simp only [Option.some.injEq, Prod.mk.injEq] at whole
    exact absurd (List.append_eq_nil_iff.mp whole.2.symm).2 open'

/-- A receiver that has handled the first `count` frames of what it received. -/
structure Handled (frames : List (List α)) (received : List α) (count : Nat)
    (receiver : Receiver α) : Prop where
  /-- There are that many frames. -/
  bound : count ≤ frames.length
  /-- Exactly these frames were handed over, in order. -/
  calls : receiver.calls = frames.take count
  /-- What was received is the frames handed over and the buffer. -/
  conserved : (frames.take count).flatten ++ receiver.data = received

/-- The received elements cover the frames that were handled. -/
theorem Handled.ends_le {frames : List (List α)} {received : List α} {count : Nat}
    {receiver : Receiver α} (handled : Handled frames received count receiver) :
    ends frames count ≤ received.length := by
  rw [← handled.conserved, List.length_append]
  exact Nat.le_add_right _ _

/-- When the received elements are the start of the stream and cover the next frame, the buffer
starts with it; when they end before, the buffer is a proper part of it. -/
theorem Handled.next {frames : List (List α)} {received : List α} {count : Nat}
    {receiver : Receiver α} (handled : Handled frames received count receiver)
    (start : received <+: frames.flatten) (inside : count < frames.length) :
    (ends frames (count + 1) ≤ received.length ∧
        ∃ rest, receiver.data = frames[count] ++ rest ∧
          (frames.take (count + 1)).flatten ++ rest = received) ∨
      (received.length < ends frames (count + 1) ∧
        ∃ later, later ≠ [] ∧ receiver.data ++ later = frames[count]) := by
  obtain ⟨future, whole⟩ := start
  have stream : frames.flatten =
      (frames.take count).flatten ++ (frames[count] ++ (frames.drop (count + 1)).flatten) := by
    conv_lhs => rw [← List.take_append_drop (count + 1) frames]
    rw [List.flatten_append, take_flatten_succ frames count inside, List.append_assoc]
  have tail : receiver.data ++ future = frames[count] ++ (frames.drop (count + 1)).flatten := by
    rw [← handled.conserved, stream, List.append_assoc] at whole
    exact List.append_cancel_left whole
  have size : ends frames (count + 1) = ends frames count + frames[count].length := by
    unfold ends
    rw [take_flatten_succ frames count inside, List.length_append]
  have received' : received.length = ends frames count + receiver.data.length := by
    unfold ends
    rw [← handled.conserved, List.length_append]
  rcases List.append_eq_append_iff.mp tail with ⟨later, same, _⟩ | ⟨rest, same, _⟩
  · by_cases empty : later = []
    · left
      subst empty
      rw [List.append_nil] at same
      have exactly : ends frames (count + 1) = received.length := by rw [size, received', same]
      refine ⟨Nat.le_of_eq exactly, [], by simp [same], ?_⟩
      rw [take_flatten_succ frames count inside, List.append_nil, same, handled.conserved]
    · right
      have longer : 0 < later.length := List.length_pos_iff.mpr empty
      have lengths := congrArg List.length same
      rw [List.length_append] at lengths
      exact ⟨by omega, later, empty, same.symm⟩
  · left
    refine ⟨?_, rest, same, ?_⟩
    · rw [size, received', same, List.length_append]
      omega
    · rw [take_flatten_succ frames count inside, List.append_assoc, ← same, handled.conserved]

/-- What one draining loop does on a stream of frames: it goes on from the frames handled so far
and stops at a failing one or when the next frame is not complete. -/
theorem drain_frames {frames : List (List α)} (framed : framer.Framed frames)
    (fails : List (List α) → List α → Bool) {received : List α}
    (start : received <+: frames.flatten) {count : Nat} {receiver : Receiver α}
    (handled : Handled frames received count receiver) :
    ∃ count', count ≤ count' ∧ Handled frames received count' (framer.drain fails receiver) ∧
      (∀ (index : Nat) (inside : index < frames.length), count ≤ index → index + 1 < count' →
        fails (frames.take index) frames[index] = false) ∧
      (count' < frames.length → ends frames (count' + 1) ≤ received.length →
        count < count' ∧ ∃ inside : count' - 1 < frames.length,
          fails (frames.take (count' - 1)) frames[count' - 1] = true) := by
  generalize left : frames.length - count = remaining
  induction remaining generalizing count receiver with
  | zero =>
    have all : count = frames.length := by have := handled.bound; omega
    have exhausted : receiver.data = [] := by
      have size := start.length_le
      rw [← handled.conserved, all, List.take_length, List.length_append] at size
      exact List.length_eq_zero_iff.mp (by omega)
    rw [framer.drain_none fails receiver (by rw [exhausted]; exact framer.extract_nil)]
    exact ⟨count, Nat.le_refl _, handled, fun _ _ _ _ => by omega, fun _ => by omega⟩
  | succ remaining ih =>
    have inside : count < frames.length := by omega
    have whole := framed frames[count] (List.getElem_mem inside)
    rcases handled.next start inside with ⟨_, rest, data, kept⟩ | ⟨short, later, more, data⟩
    · have cut : framer.extract receiver.data = some (frames[count], rest) := by
        rw [data]
        exact framer.extract_frame whole rest
      have advanced : Handled frames received (count + 1)
          ⟨receiver.calls ++ [frames[count]], rest⟩ := by
        refine ⟨inside, ?_, kept⟩
        rw [List.take_succ_eq_append_getElem inside, handled.calls]
      rw [framer.drain_some fails receiver _ _ cut, handled.calls]
      cases failed : fails (frames.take count) frames[count] with
      | true =>
        rw [handled.calls] at advanced
        exact ⟨count + 1, Nat.le_succ _, advanced, fun _ _ _ _ => by omega,
          fun _ _ => ⟨by omega, inside, failed⟩⟩
      | false =>
        rw [handled.calls] at advanced
        obtain ⟨count', le, final, passed, stopped⟩ := ih advanced (by omega)
        refine ⟨count', by omega, final, ?_, ?_⟩
        · intro index bound lower upper
          rcases Nat.eq_or_lt_of_le lower with same | above
          · subst same
            exact failed
          · exact passed index bound above upper
        · intro open' complete
          obtain ⟨above, stop⟩ := stopped open' complete
          exact ⟨by omega, stop⟩
    · rw [framer.drain_none fails receiver (framer.extract_partial whole _ later data more)]
      exact ⟨count, Nat.le_refl _, handled, fun _ _ _ _ => by omega, fun _ _ => by omega⟩

/-- The receiver before any input. -/
def idle : Receiver α := ⟨[], []⟩

/-- The receiver after the first chunks of a stream. -/
def after (fails : List (List α) → List α → Bool) (chunks : List (List α)) (time : Nat) :
    Receiver α :=
  framer.receiveAll fails idle (chunks.take time)

/-- One more chunk is one more call. -/
theorem after_succ (fails : List (List α) → List α → Bool) (chunks : List (List α)) (time : Nat)
    (inside : time < chunks.length) :
    framer.after fails chunks (time + 1) =
      framer.receive fails (framer.after fails chunks time) chunks[time] := by
  unfold after receiveAll
  rw [List.take_succ_eq_append_getElem inside, List.foldl_append]
  rfl

/-- What is received by some time is a start of the whole stream. -/
theorem received_start {frames chunks : List (List α)} (whole : chunks.flatten = frames.flatten)
    (time : Nat) : (chunks.take time).flatten <+: frames.flatten := by
  refine ⟨(chunks.drop time).flatten, ?_⟩
  rw [← List.flatten_append, List.take_append_drop, whole]

/-- One chunk of a stream of frames, from the frames handled before it. -/
theorem receive_frames {frames chunks : List (List α)} (framed : framer.Framed frames)
    (fails : List (List α) → List α → Bool) (whole : chunks.flatten = frames.flatten)
    {time : Nat} (inside : time < chunks.length) {count : Nat}
    (handled : Handled frames (chunks.take time).flatten count (framer.after fails chunks time)) :
    ∃ count', count ≤ count' ∧
      Handled frames (chunks.take (time + 1)).flatten count'
        (framer.after fails chunks (time + 1)) ∧
      (∀ (index : Nat) (bound : index < frames.length), count ≤ index → index + 1 < count' →
        fails (frames.take index) frames[index] = false) ∧
      (count' < frames.length → ends frames (count' + 1) ≤ ends chunks (time + 1) →
        count < count' ∧ ∃ bound : count' - 1 < frames.length,
          fails (frames.take (count' - 1)) frames[count' - 1] = true) := by
  rw [framer.after_succ fails chunks time inside]
  apply framer.drain_frames framed fails (received_start whole (time + 1))
  refine ⟨handled.bound, handled.calls, ?_⟩
  rw [take_flatten_succ chunks time inside, ← handled.conserved, List.append_assoc]

/-- At every time the receiver has handled some first frames of what it received. -/
theorem after_handled {frames chunks : List (List α)} (framed : framer.Framed frames)
    (fails : List (List α) → List α → Bool) (whole : chunks.flatten = frames.flatten)
    (time : Nat) (inside : time ≤ chunks.length) :
    ∃ count, Handled frames (chunks.take time).flatten count (framer.after fails chunks time) := by
  induction time with
  | zero => exact ⟨0, Nat.zero_le _, rfl, rfl⟩
  | succ time ih =>
    obtain ⟨count, handled⟩ := ih (by omega)
    obtain ⟨count', _, next, _⟩ := framer.receive_frames framed fails whole inside handled
    exact ⟨count', next⟩

/-- The last element of a frame lies in a chunk that exists. -/
theorem EndsIn.inside {frames chunks : List (List α)} {index time : Nat}
    (last : EndsIn frames chunks index time) : time < chunks.length := by
  by_contra outside
  have same : chunks.take (time + 1) = chunks.take time := by
    rw [List.take_of_length_le (by omega), List.take_of_length_le (by omega)]
  have order := Nat.lt_of_lt_of_le last.1 last.2
  unfold ends at order
  rw [same] at order
  omega

/-- If no failing frame ends in the chunk of a later frame's end, then every frame that has
arrived has been handled. -/
theorem after_complete {frames chunks : List (List α)} (framed : framer.Framed frames)
    (fails : List (List α) → List α → Bool) (whole : chunks.flatten = frames.flatten)
    (apart : ∀ (time index later : Nat) (bound : index < frames.length), index < later →
      later < frames.length → EndsIn frames chunks index time → EndsIn frames chunks later time →
        fails (frames.take index) frames[index] = false)
    (time : Nat) (inside : time ≤ chunks.length) :
    ∃ count, Handled frames (chunks.take time).flatten count (framer.after fails chunks time) ∧
      ∀ index, index < frames.length → ends frames (index + 1) ≤ ends chunks time →
        index < count := by
  induction time with
  | zero =>
    refine ⟨0, ⟨Nat.zero_le _, rfl, rfl⟩, ?_⟩
    intro index bound complete
    have frame := framed frames[index] (List.getElem_mem bound)
    have shorter := framer.shrinks _ _ _ frame
    have size : ends frames (index + 1) = ends frames index + frames[index].length := by
      unfold ends
      rw [take_flatten_succ frames index bound, List.length_append]
    have none : ends chunks 0 = 0 := rfl
    simp only [List.length_nil] at shorter
    omega
  | succ time ih =>
    obtain ⟨count, handled, complete⟩ := ih (by omega)
    obtain ⟨count', le, next, _, stopped⟩ :=
      framer.receive_frames framed fails whole inside handled
    refine ⟨count', next, ?_⟩
    intro index bound arrived
    by_contra missed
    -- the loop stopped early, so the frame before `count'` failed
    have nextArrived : ends frames (count' + 1) ≤ ends chunks (time + 1) :=
      Nat.le_trans (ends_mono frames (by omega)) arrived
    obtain ⟨above, position, failed⟩ := stopped (by omega) nextArrived
    have fresh : ∀ other, other < frames.length → count ≤ other →
        ends chunks time < ends frames (other + 1) := by
      intro other inBound notBefore
      by_contra old
      have := complete other inBound (by omega)
      omega
    have shared : EndsIn frames chunks (count' - 1) time :=
      ⟨fresh _ position (by omega), Nat.le_trans (ends_mono frames (by omega)) nextArrived⟩
    have sharedNext : EndsIn frames chunks count' time :=
      ⟨fresh _ (by omega) (by omega), nextArrived⟩
    have passed := apart time (count' - 1) count' position (by omega) (by omega) shared sharedNext
    rw [failed] at passed
    cases passed

/-- A frame is handled by the chunk that completes it, for every frame, exactly when no failing
frame ends in the same chunk as a later frame. -/
theorem timely_iff {frames chunks : List (List α)} (framed : framer.Framed frames)
    (fails : List (List α) → List α → Bool) (whole : chunks.flatten = frames.flatten) :
    (∀ index time, index < frames.length → EndsIn frames chunks index time →
        frames.take (index + 1) <+: (framer.after fails chunks (time + 1)).calls ∧
          (framer.after fails chunks (time + 1)).calls <+: frames) ↔
      ∀ (time index later : Nat) (bound : index < frames.length), index < later →
        later < frames.length → EndsIn frames chunks index time →
          EndsIn frames chunks later time → fails (frames.take index) frames[index] = false := by
  constructor
  · intro timely time index later bound before laterBound last lastLater
    obtain ⟨count, handled⟩ :=
      framer.after_handled framed fails whole time (Nat.le_of_lt last.inside)
    obtain ⟨count', le, next, passed, _⟩ :=
      framer.receive_frames framed fails whole last.inside handled
    have reached := (timely later time laterBound lastLater).1.length_le
    rw [next.calls, List.length_take, List.length_take] at reached
    have behind : count ≤ index := by
      by_contra above
      have := Nat.le_trans (ends_mono frames (show index + 1 ≤ count by omega)) handled.ends_le
      have := last.1
      unfold ends at *
      omega
    exact passed index bound behind (by omega)
  · intro apart index time bound last
    obtain ⟨count, handled, complete⟩ :=
      framer.after_complete framed fails whole apart (time + 1) last.inside
    have reached := complete index bound last.2
    rw [handled.calls]
    exact ⟨List.take_prefix_take_left (by omega), List.take_prefix count frames⟩

end Framer

import Rjr.Nodes.Connection
import Rjr.Verif.ScanGrammar

/-!
# Messages on a byte stream

What `receive_data` of the socket nodes hands to `handle_message`, for every way a stream can be
cut into chunks. On JSON texts the messages are exactly the texts, each by the chunk with its
last byte. On arbitrary bytes the messages and the buffer left over depend on the stream alone.
A `handle_message` that raises breaks this: the exception ends the loop, so a complete message
behind the raising one waits in the buffer for the next chunk.
-/

namespace Rjr.Verif.Framing

open JsonParser JsonGrammar Nodes Framer

/-- The two nodes that read messages from a socket. -/
inductive Socket where
  /-- `TCPConnection`. -/
  | tcp
  /-- `UnixConnection`. -/
  | unix
  deriving DecidableEq, Repr

/-- The `receive_data` of a socket connection. -/
def Socket.receiveData (raises : Raises) : Socket → Connection → Bytes → Connection
  | .tcp => TCPConnection.receiveData raises
  | .unix => UnixConnection.receiveData raises

/-- A connection after the chunks of a stream. -/
def received (socket : Socket) (raises : Raises) (connection : Connection) (chunks : List Bytes) :
    Connection :=
  receiveChunks (socket.receiveData raises) connection chunks

/-- Either socket receives chunks as the message framer does. -/
theorem received_eq (socket : Socket) (raises : Raises) (connection : Connection)
    (chunks : List Bytes) :
    received socket raises connection chunks = jsonFramer.receiveAll raises connection chunks := by
  have both := receiveChunks_eq raises connection chunks
  cases socket with
  | tcp => exact both.1
  | unix => exact both.2

/-! ## JSON texts -/

/-- A JSON object text with the filler that stands before it on the stream. -/
structure Piece where
  /-- Bytes between this text and the one before it. -/
  filler : Bytes
  /-- The object text. -/
  text : Bytes
  /-- Filler has no opening brace; it may hold anything else. -/
  clean : openBrace ∉ filler
  /-- The text is derived by the JSON grammar. -/
  valid : Derives .object text

/-- The bytes of a piece on the stream. -/
def Piece.bytes (piece : Piece) : Bytes := piece.filler ++ piece.text

/-- Draining a buffer that starts with a piece hands over its text and drops its filler. -/
theorem drain_piece (piece : Piece) (calls : List Bytes) (rest : Bytes) :
    jsonFramer.drain never ⟨calls, piece.bytes ++ rest⟩ =
      jsonFramer.drain never ⟨calls ++ [piece.text], rest⟩ := by
  have cut : jsonFramer.extract (piece.bytes ++ rest) = some (piece.text, rest) := by
    rw [Piece.bytes, List.append_assoc]
    exact ScanGrammar.extractJsonFrom_object piece.clean piece.valid rest
  exact jsonFramer.drain_some never ⟨calls, piece.bytes ++ rest⟩ piece.text rest cut

/-- Draining a buffer that starts with several pieces hands over all their texts. -/
theorem drain_pieces (pieces : List Piece) (calls : List Bytes) (rest : Bytes) :
    jsonFramer.drain never ⟨calls, (pieces.map Piece.bytes).flatten ++ rest⟩ =
      jsonFramer.drain never ⟨calls ++ pieces.map Piece.text, rest⟩ := by
  induction pieces generalizing calls with
  | nil => simp
  | cons piece pieces ih =>
    rw [List.map_cons, List.flatten_cons, List.append_assoc, drain_piece, ih]
    simp

/-- A connection that starts empty ends as if the stream had come in one chunk. -/
theorem received_new (socket : Socket) (chunks : List Bytes) :
    received socket returns .new chunks = jsonFramer.drain never ⟨[], chunks.flatten⟩ := by
  rw [received_eq]
  exact jsonFramer.receiveAll_rest Connection.new chunks jsonFramer.extract_nil

/-- **Framing is exact on JSON.** For every sequence of JSON object texts, every filler before
and after them and every division of the stream into chunks, `handle_message` is called on
exactly these texts in order, each by the chunk with its last byte, and only the trailing filler
is left in `@data`. -/
theorem receiveData_exact_on_json (socket : Socket) (pieces : List Piece) (trailing : Bytes)
    (clean : openBrace ∉ trailing) (chunks : List Bytes)
    (stream : chunks.flatten = (pieces.map Piece.bytes).flatten ++ trailing) :
    received socket returns .new chunks = ⟨pieces.map Piece.text, trailing⟩ ∧
      (∀ index time, index < pieces.length →
        EndsIn (pieces.map Piece.bytes) chunks index time →
          (pieces.map Piece.text).take (index + 1) <+:
            (received socket returns .new (chunks.take (time + 1))).calls) ∧
      ∀ time, (received socket returns .new (chunks.take time)).calls <+:
        pieces.map Piece.text := by
  have final : received socket returns .new chunks = ⟨pieces.map Piece.text, trailing⟩ := by
    rw [received_new, stream, drain_pieces, List.nil_append]
    exact jsonFramer.drain_none never _ (ScanGrammar.extractJsonFrom_filler clean)
  refine ⟨final, ?_, ?_⟩
  · intro index time inside last
    -- the chunks so far cover the first pieces completely
    have prefixed : ((pieces.map Piece.bytes).take (index + 1)).flatten <+:
        (chunks.take (time + 1)).flatten := by
      have whole : (chunks.take (time + 1)).flatten <+:
          (pieces.map Piece.bytes).flatten ++ trailing := by
        rw [← stream]
        exact ⟨(chunks.drop (time + 1)).flatten, by
          rw [← List.flatten_append, List.take_append_drop]⟩
      have first : ((pieces.map Piece.bytes).take (index + 1)).flatten <+:
          (pieces.map Piece.bytes).flatten ++ trailing := by
        refine ⟨((pieces.map Piece.bytes).drop (index + 1)).flatten ++ trailing, ?_⟩
        rw [← List.append_assoc, ← List.flatten_append, List.take_append_drop]
      exact List.prefix_of_prefix_length_le first whole last.2
    obtain ⟨rest, split⟩ := prefixed
    rw [received_new, ← split, ← List.map_take, ← List.map_take, drain_pieces, List.nil_append]
    exact jsonFramer.drain_calls_prefix never ⟨(pieces.take (index + 1)).map Piece.text, rest⟩
  · intro time
    have later : received socket returns .new chunks =
        received socket returns (received socket returns .new (chunks.take time))
          (chunks.drop time) := by
      conv_lhs => rw [← List.take_append_drop time chunks]
      exact List.foldl_append
    have grown : (received socket returns .new (chunks.take time)).calls <+:
        (received socket returns .new chunks).calls := by
      rw [later, received_eq socket returns (received _ _ _ _)]
      exact jsonFramer.receiveAll_calls_prefix _ _ _
    rwa [final] at grown

/-- A nested object text with a brace and an escaped quote in a string, cut inside the string. -/
theorem receiveData_exact_on_json_split :
    received .tcp returns .new
        [[0x20, 0x7b, 0x22, 0x7d, 0x5c], [0x22, 0x22, 0x3a, 0x7b, 0x7d, 0x7d, 0x20]] =
      ⟨[[0x7b, 0x22, 0x7d, 0x5c, 0x22, 0x22, 0x3a, 0x7b, 0x7d, 0x7d]], [0x20]⟩ := by
  have name : Derives .string [0x22, 0x7d, 0x5c, 0x22, 0x22] :=
    .string (.charactersPlain ⟨by decide, by decide, by decide⟩
      (.charactersEscape (by unfold IsEscape; decide) .charactersEmpty))
  have value : Derives .value [0x7b, 0x7d] := .valueObject (.objectEmpty .spaceEmpty)
  have member : Derives .member [0x22, 0x7d, 0x5c, 0x22, 0x22, 0x3a, 0x7b, 0x7d] :=
    .member .spaceEmpty name .spaceEmpty .spaceEmpty value .spaceEmpty
  exact (receiveData_exact_on_json .tcp
    [⟨[0x20], [0x7b, 0x22, 0x7d, 0x5c, 0x22, 0x22, 0x3a, 0x7b, 0x7d, 0x7d], by decide,
      .object (.membersOne member)⟩] [0x20] (by decide) _ rfl).1

/-! ## Arbitrary bytes -/

/-- **Chunk independence.** For every byte stream, valid or not, every starting buffer and any
two divisions of the stream into chunks, the same messages are handed over and the same bytes
stay in `@data`. A division has at least one chunk; chunks may be empty. -/
theorem receiveData_chunk_independent (socket : Socket) (connection : Connection)
    (chunks chunks' : List Bytes) (same : chunks.flatten = chunks'.flatten) (some : chunks ≠ [])
    (some' : chunks' ≠ []) :
    received socket returns connection chunks = received socket returns connection chunks' := by
  have whole : ∀ division : List Bytes, division ≠ [] →
      received socket returns connection division =
        jsonFramer.drain never ⟨connection.calls, connection.data ++ division.flatten⟩ := by
    intro division nonempty
    obtain ⟨chunk, rest, rfl⟩ := List.exists_cons_of_ne_nil nonempty
    rw [received_eq]
    exact jsonFramer.receiveAll_eq_drain connection chunk rest
  rw [whole chunks some, whole chunks' some', same]

/-- An unbalanced quote and a stray brace, whole and cut behind the quote. -/
theorem receiveData_chunk_independent_unbalanced :
    received .unix returns ⟨[], [0x7b]⟩ [[0x27, 0x7d, 0x27, 0x7d, 0x5c]] =
      received .unix returns ⟨[], [0x7b]⟩ [[0x27], [], [0x7d, 0x27, 0x7d, 0x5c]] :=
  receiveData_chunk_independent .unix ⟨[], [0x7b]⟩ _ _ rfl (by decide) (by decide)

/-! ## Messages that raise -/

/-- Each frame is extracted as one message. -/
def Frames (frames : List Bytes) : Prop :=
  ∀ frame ∈ frames, extractJsonFrom frame = some (frame, [])

/-- After the chunk with the last byte of a frame, `handle_message` has been called on all frames
up to it, once each and in order, and on no others before them. -/
def Timely (socket : Socket) (raises : Raises) (frames chunks : List Bytes) : Prop :=
  ∀ index time, index < frames.length → EndsIn frames chunks index time →
    frames.take (index + 1) <+: (received socket raises .new (chunks.take (time + 1))).calls ∧
      (received socket raises .new (chunks.take (time + 1))).calls <+: frames

/-- No frame on which `handle_message` raises ends in the same chunk as a later frame. -/
def RaisingEndsChunk (raises : Raises) (frames chunks : List Bytes) : Prop :=
  ∀ (time index later : Nat) (inside : index < frames.length), index < later →
    later < frames.length → EndsIn frames chunks index time → EndsIn frames chunks later time →
      raises (frames.take index) frames[index] = false

/-- **When a bad message holds back good ones.** For every stream of frames, every subset on
which `handle_message` raises and every division into chunks, all frames are handled by the chunk
that completes them exactly when no raising frame ends in the same chunk as a later frame. -/
theorem receiveData_timely_iff (socket : Socket) (raises : Raises) (frames chunks : List Bytes)
    (framed : Frames frames) (stream : chunks.flatten = frames.flatten) :
    Timely socket raises frames chunks ↔ RaisingEndsChunk raises frames chunks := by
  unfold Timely RaisingEndsChunk
  simp only [received_eq]
  exact jsonFramer.timely_iff framed raises stream

/-- The balanced frame `{x}`, which is not JSON. -/
def notJson : Bytes := [0x7b, 0x78, 0x7d]

/-- The frame of an empty object. -/
def emptyObject : Bytes := [0x7b, 0x7d]

/-- A `handle_message` that raises on the frame that is not JSON. -/
def raisesOnNotJson : Raises := fun _ msg => msg == notJson

/-- The raising frame alone in its chunk does not hold back the frame after it. -/
theorem receiveData_timely_apart :
    Timely .tcp raisesOnNotJson [notJson, emptyObject] [notJson, emptyObject] := by
  refine (receiveData_timely_iff .tcp _ _ _ (by unfold Frames; decide) rfl).mpr ?_
  intro time index later inside before laterInside last lastLater
  have index0 : index = 0 := by simp only [List.length_cons, List.length_nil] at laterInside; omega
  have later1 : later = 1 := by simp only [List.length_cons, List.length_nil] at laterInside; omega
  subst index0 later1
  exfalso
  match time with
  | 0 => exact absurd lastLater.2 (by decide)
  | 1 => exact absurd last.1 (by decide)
  | time + 2 => exact absurd last.inside (by simp)

/-- The raising frame and the frame after it in one chunk: the second frame has arrived and is
not handled. -/
theorem receiveData_holds_back :
    ¬ Timely .tcp raisesOnNotJson [notJson, emptyObject] [notJson ++ emptyObject] := by
  intro timely
  have reached := (timely 1 0 (by decide) ⟨by decide, by decide⟩).1
  have stuck : received .tcp raisesOnNotJson .new ([notJson ++ emptyObject].take (0 + 1)) =
      ⟨[notJson], emptyObject⟩ := by decide
  rw [stuck] at reached
  exact absurd reached.length_le (by decide)

end Rjr.Verif.Framing

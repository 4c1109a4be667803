import Mathlib.Data.List.Basic
import Riffle.Lib.FixedWidth

/-!
# Readers over a byte cursor

A cursor is a byte buffer and a position in it, as a `Cursor<&[u8]>` is to
the methods of a byte-buffer trait: `remaining` counts the bytes past the
position and `chunk` is those bytes.  A `Reader` runs over a cursor and ends
in a value and the moved cursor, in an error of its own, or in a panic
(`Fault.panic`).  The trait's fixed-width reads end in a panic when fewer
bytes remain than they take, and so does moving or slicing past the end of
the buffer; a reader that checks first turns that into an error.

The spec lemmas are stated on `chunk`: a read of a cursor whose chunk
starts with an encoding returns the encoded value, and the moved cursor's
chunk is what follows the encoding (`Cursor.chunk_advance_append`).
`bind_of_ok` and `bind_of_error` step a `do` block one read at a time, and
`bind_eq_ok` takes a finished one apart.

Strings travel as their UTF-8 bytes; `decodeUtf8_utf8Bytes` is the round
trip.
-/

namespace Riffle.ByteCursor

open Riffle.FixedWidth

/-- A byte buffer and a read position in it. -/
structure Cursor where
  buffer : List UInt8
  position : Nat
  deriving DecidableEq, Repr

namespace Cursor

/-- The number of bytes past the position. -/
def remaining (cursor : Cursor) : Nat :=
  cursor.buffer.length - cursor.position

/-- The bytes past the position. -/
def chunk (cursor : Cursor) : List UInt8 :=
  cursor.buffer.drop cursor.position

/-- The cursor moved `count` bytes on. -/
def advance (cursor : Cursor) (count : Nat) : Cursor :=
  { cursor with position := cursor.position + count }

variable (cursor : Cursor) (count : Nat)

@[simp]
theorem length_chunk : cursor.chunk.length = cursor.remaining :=
  List.length_drop

@[simp]
theorem buffer_advance : (cursor.advance count).buffer = cursor.buffer :=
  rfl

@[simp]
theorem position_advance : (cursor.advance count).position = cursor.position + count :=
  rfl

@[simp]
theorem remaining_advance : (cursor.advance count).remaining = cursor.remaining - count := by
  simp only [remaining, buffer_advance, position_advance]
  omega

@[simp]
theorem chunk_advance : (cursor.advance count).chunk = cursor.chunk.drop count := by
  simp only [chunk, buffer_advance, position_advance, List.drop_drop, Nat.add_comm]

theorem advance_advance (more : Nat) :
    (cursor.advance count).advance more = cursor.advance (count + more) := by
  simp only [advance, Nat.add_assoc]

variable {cursor} {front after : List UInt8}

/-- Moving past a prefix of the chunk leaves what follows it. -/
theorem chunk_advance_append (starts : cursor.chunk = front ++ after) :
    (cursor.advance front.length).chunk = after := by
  rw [chunk_advance, starts, List.drop_left]

theorem chunk_advance_of_length {count : Nat} (starts : cursor.chunk = front ++ after)
    (sized : front.length = count) : (cursor.advance count).chunk = after := by
  rw [← sized, chunk_advance_append starts]

@[simp]
theorem chunk_zero (buffer : List UInt8) : (⟨buffer, 0⟩ : Cursor).chunk = buffer :=
  List.drop_zero

@[simp]
theorem remaining_zero (buffer : List UInt8) : (⟨buffer, 0⟩ : Cursor).remaining = buffer.length :=
  Nat.sub_zero _

@[simp]
theorem advance_start (buffer : List UInt8) (count : Nat) :
    (⟨buffer, 0⟩ : Cursor).advance count = ⟨buffer, count⟩ := by
  simp only [advance, Nat.zero_add]

theorem remaining_of_chunk (starts : cursor.chunk = front ++ after) :
    cursor.remaining = front.length + after.length := by
  rw [← length_chunk, starts, List.length_append]

end Cursor

/-- How a read ends when it does not return: an error of the reader's own,
or a panic. -/
inductive Fault (ε : Type) where
  | error (error : ε)
  | panic
  deriving DecidableEq, Repr

/-- A read over a cursor. -/
def Reader (ε α : Type) : Type :=
  Cursor → Except (Fault ε) (α × Cursor)

namespace Reader

variable {ε α β : Type}

instance : Monad (Reader ε) where
  pure value := fun cursor => .ok (value, cursor)
  bind reader next := fun cursor =>
    match reader cursor with
    | .ok (value, moved) => next value moved
    | .error fault => .error fault

/-- Fail with an error of the reader's own. -/
def fail (error : ε) : Reader ε α :=
  fun _ => .error (.error error)

/-- Abort the whole computation. -/
def panic : Reader ε α :=
  fun _ => .error .panic

/-- The number of bytes left. -/
def remaining : Reader ε Nat :=
  fun cursor => .ok (cursor.remaining, cursor)

/-- Whether any byte is left. -/
def hasRemaining : Reader ε Bool :=
  fun cursor => .ok (decide (0 < cursor.remaining), cursor)

/-- Move `count` bytes on; moving past the end panics. -/
def advance (count : Nat) : Reader ε Unit :=
  fun cursor => if cursor.remaining < count then .error .panic else .ok ((), cursor.advance count)

/-- The next `count` bytes, without moving; slicing past the end panics. -/
def peek (count : Nat) : Reader ε (List UInt8) :=
  fun cursor => if cursor.remaining < count then .error .panic else .ok (cursor.chunk.take count, cursor)

/-- A big-endian unsigned read of `width` bytes; it panics when fewer remain. -/
def readUnsigned (width : Nat) : Reader ε Nat :=
  fun cursor =>
    if cursor.remaining < width then .error .panic
    else .ok (decodeNat (cursor.chunk.take width), cursor.advance width)

/-- A big-endian two's-complement read of `width` bytes; it panics when
fewer remain. -/
def readSigned (width : Nat) : Reader ε Int :=
  fun cursor =>
    if cursor.remaining < width then .error .panic
    else .ok (decodeInt (cursor.chunk.take width), cursor.advance width)

/-- A loop of `count` passes of `body`, collecting what each pass returns. -/
def repeatRead (body : Reader ε α) : Nat → Reader ε (List α)
  | 0 => pure []
  | count + 1 => do
      let first ← body
      let rest ← repeatRead body count
      return first :: rest

/-! ## Running a `do` block -/

variable {reader : Reader ε α} {next : α → Reader ε β} {cursor moved last : Cursor}
  {value : α} {result : β} {fault : Fault ε}

theorem pure_apply (value : α) (cursor : Cursor) :
    (pure value : Reader ε α) cursor = .ok (value, cursor) :=
  rfl

theorem bind_apply (reader : Reader ε α) (next : α → Reader ε β) (cursor : Cursor) :
    (reader >>= next) cursor =
      match reader cursor with
      | .ok (value, moved) => next value moved
      | .error fault => .error fault :=
  rfl

theorem bind_of_ok (ran : reader cursor = .ok (value, moved)) :
    (reader >>= next) cursor = next value moved := by
  rw [bind_apply, ran]

theorem bind_of_error (ran : reader cursor = .error fault) :
    (reader >>= next) cursor = .error fault := by
  rw [bind_apply, ran]

/-- A bind that returned ran both of its parts. -/
theorem bind_eq_ok (ran : (reader >>= next) cursor = .ok (result, last)) :
    ∃ value moved, reader cursor = .ok (value, moved) ∧ next value moved = .ok (result, last) := by
  rw [bind_apply] at ran
  split at ran
  · exact ⟨_, _, ‹_›, ran⟩
  · cases ran

@[simp]
theorem fail_apply (error : ε) (cursor : Cursor) :
    (fail error : Reader ε α) cursor = .error (.error error) :=
  rfl

@[simp]
theorem panic_apply (cursor : Cursor) : (panic : Reader ε α) cursor = .error .panic :=
  rfl

@[simp]
theorem remaining_apply (cursor : Cursor) :
    (remaining : Reader ε Nat) cursor = .ok (cursor.remaining, cursor) :=
  rfl

@[simp]
theorem hasRemaining_apply (cursor : Cursor) :
    (hasRemaining : Reader ε Bool) cursor = .ok (decide (0 < cursor.remaining), cursor) :=
  rfl

/-! ## The reads -/

variable {count width : Nat}

theorem advance_of_le (enough : count ≤ cursor.remaining) :
    (advance count : Reader ε Unit) cursor = .ok ((), cursor.advance count) := by
  rw [advance, if_neg (by omega)]

theorem peek_append {front after : List UInt8} (starts : cursor.chunk = front ++ after) :
    (peek front.length : Reader ε (List UInt8)) cursor = .ok (front, cursor) := by
  have enough := Cursor.remaining_of_chunk starts
  rw [peek, if_neg (by omega), starts, List.take_left]

theorem readUnsigned_of_lt (short : cursor.remaining < width) :
    (readUnsigned width : Reader ε Nat) cursor = .error .panic := by
  rw [readUnsigned, if_pos short]

theorem readSigned_of_lt (short : cursor.remaining < width) :
    (readSigned width : Reader ε Int) cursor = .error .panic := by
  rw [readSigned, if_pos short]

theorem readUnsigned_of_le (enough : width ≤ cursor.remaining) :
    (readUnsigned width : Reader ε Nat) cursor =
      .ok (decodeNat (cursor.chunk.take width), cursor.advance width) := by
  rw [readUnsigned, if_neg (by omega)]

theorem readSigned_of_le (enough : width ≤ cursor.remaining) :
    (readSigned width : Reader ε Int) cursor =
      .ok (decodeInt (cursor.chunk.take width), cursor.advance width) := by
  rw [readSigned, if_neg (by omega)]

variable {after : List UInt8}

/-- An unsigned read of a chunk that starts with an encoding returns the
encoded value. -/
theorem readUnsigned_encodeNat {encoded : Nat} (bounded : encoded < 256 ^ width)
    (starts : cursor.chunk = encodeNat width encoded ++ after) :
    (readUnsigned width : Reader ε Nat) cursor = .ok (encoded, cursor.advance width) := by
  have enough := Cursor.remaining_of_chunk starts
  rw [length_encodeNat] at enough
  rw [readUnsigned_of_le (by omega), starts, List.take_left' (length_encodeNat _ _),
    decodeNat_encodeNat, Nat.mod_eq_of_lt bounded]

/-- A signed read of a chunk that starts with an encoding of an in-range
value returns the value. -/
theorem readSigned_encodeInt {encoded : Int} (positiveWidth : 0 < width)
    (inRange : InSignedRange (8 * width) encoded)
    (starts : cursor.chunk = encodeInt width encoded ++ after) :
    (readSigned width : Reader ε Int) cursor = .ok (encoded, cursor.advance width) := by
  have enough := Cursor.remaining_of_chunk starts
  rw [length_encodeInt] at enough
  rw [readSigned_of_le (by omega), starts, List.take_left' (length_encodeInt _ _),
    decodeInt_encodeInt positiveWidth inRange]

@[simp]
theorem repeatRead_zero (body : Reader ε α) : repeatRead body 0 = pure [] :=
  rfl

theorem repeatRead_succ (body : Reader ε α) (count : Nat) :
    repeatRead body (count + 1) = (do
      let first ← body
      let rest ← repeatRead body count
      return first :: rest) :=
  rfl

end Reader

/-! ## UTF-8 text -/

/-- The UTF-8 bytes of a string. -/
def utf8Bytes (text : String) : List UInt8 :=
  text.toUTF8.data.toList

/-- UTF-8 decoding: `none` for bytes that are not UTF-8. -/
def decodeUtf8 (bytes : List UInt8) : Option String :=
  String.fromUTF8? bytes.toByteArray

theorem decodeUtf8_utf8Bytes (text : String) : decodeUtf8 (utf8Bytes text) = some text := by
  have sameBytes : (utf8Bytes text).toByteArray = text.toUTF8 := by
    apply ByteArray.ext
    rw [List.data_toByteArray, utf8Bytes, Array.toArray_toList]
  unfold decodeUtf8 String.fromUTF8?
  rw [sameBytes, String.toUTF8_eq_toByteArray, dif_pos text.isValidUTF8]
  rfl

/-- The only string with no bytes is the empty one. -/
theorem eq_empty_of_utf8Bytes_eq_nil {text : String} (noBytes : utf8Bytes text = []) :
    text = "" := by
  have decoded := decodeUtf8_utf8Bytes text
  rw [noBytes] at decoded
  have empty : decodeUtf8 [] = some "" := by decide +kernel
  exact Option.some.inj (decoded.symm.trans empty)

end Riffle.ByteCursor

import Mathlib.Data.List.Basic

/-!
# Files as lists with positional writes

A file is the list of its bytes.  `writeAt` is a positional write
(`pwrite`): it keeps what lies before the offset, fills a gap past the end of
the file with `fill`, and keeps what lies past the written range.  `readAt`
is a positional read, which returns what the file has of the range.

The lemmas are the ones a buffered or aligned writer needs: how far a write
extends the file, which prefix it keeps, that writes of consecutive ranges
compose into one write, and that a write which repeats the bytes it starts
on keeps them whatever prefix of it lands (`take_writeAt_repeating`).
-/

namespace Riffle.ByteFile

universe u

variable {α : Type u} (fill : α)

/-- A positional write of `data` at `offset`. -/
def writeAt (file : List α) (offset : Nat) (data : List α) : List α :=
  file.take offset ++ List.replicate (offset - file.length) fill ++ data ++
    file.drop (offset + data.length)

/-- A positional read of at most `length` elements from `offset`. -/
def readAt (file : List α) (offset length : Nat) : List α :=
  (file.drop offset).take length

variable {file : List α} {offset : Nat} {data : List α}

/-- A write that starts inside the file leaves no gap. -/
theorem writeAt_of_le (within : offset ≤ file.length) :
    writeAt fill file offset data = file.take offset ++ data ++ file.drop (offset + data.length) := by
  rw [writeAt, Nat.sub_eq_zero_of_le within, List.replicate_zero, List.append_nil]

@[simp]
theorem writeAt_nil (within : offset ≤ file.length) : writeAt fill file offset [] = file := by
  rw [writeAt_of_le fill within, List.append_nil, List.length_nil, Nat.add_zero,
    List.take_append_drop]

theorem length_writeAt (within : offset ≤ file.length) :
    (writeAt fill file offset data).length = max file.length (offset + data.length) := by
  rw [writeAt_of_le fill within]
  simp only [List.length_append, List.length_take, List.length_drop]
  omega

theorem offset_add_length_le_writeAt (within : offset ≤ file.length) :
    offset + data.length ≤ (writeAt fill file offset data).length := by
  rw [length_writeAt fill within]
  omega

/-- A write keeps the file before its offset. -/
theorem take_writeAt_of_le {count : Nat} (within : offset ≤ file.length) (before : count ≤ offset) :
    (writeAt fill file offset data).take count = file.take count := by
  have keptLength : (file.take offset).length = offset := List.length_take_of_le within
  rw [writeAt_of_le fill within, List.append_assoc, List.take_append_of_le_length (by omega),
    List.take_take, Nat.min_eq_left before]

/-- Up to the end of what it wrote, a write reads as the kept prefix
followed by the written data. -/
theorem take_writeAt {count : Nat} (within : offset ≤ file.length) (covered : count ≤ data.length) :
    (writeAt fill file offset data).take (offset + count) = file.take offset ++ data.take count := by
  have keptLength : (file.take offset).length = offset := List.length_take_of_le within
  rw [writeAt_of_le fill within, List.append_assoc, List.take_append, keptLength,
    Nat.add_sub_cancel_left, List.take_append_of_le_length covered, List.take_of_length_le
      (by omega)]

/-- Past what it wrote, a write keeps the file. -/
theorem drop_writeAt (within : offset ≤ file.length) (count : Nat) :
    (writeAt fill file offset data).drop (offset + data.length + count) =
      file.drop (offset + data.length + count) := by
  have keptLength : (file.take offset ++ data).length = offset + data.length := by
    rw [List.length_append, List.length_take_of_le within]
  rw [writeAt_of_le fill within, List.drop_append, keptLength,
    List.drop_eq_nil_of_le (by omega), List.nil_append, List.drop_drop]
  congr 1
  omega

/-- Writing two consecutive ranges is writing their concatenation. -/
theorem writeAt_append (within : offset ≤ file.length) (first second : List α) :
    writeAt fill (writeAt fill file offset first) (offset + first.length) second =
      writeAt fill file offset (first ++ second) := by
  have written : offset + first.length ≤ (writeAt fill file offset first).length :=
    offset_add_length_le_writeAt fill within
  rw [writeAt_of_le fill written, take_writeAt fill within (Nat.le_refl _), List.take_length,
    drop_writeAt fill within, writeAt_of_le fill within, List.length_append, Nat.add_assoc]
  simp only [List.append_assoc]

theorem length_readAt (file : List α) (offset length : Nat) :
    (readAt file offset length).length = min length (file.length - offset) := by
  rw [readAt, List.length_take, List.length_drop]

/-- A read inside the front part of a list reads only the front part. -/
theorem readAt_append_left {front rest : List α} {offset length : Nat}
    (inside : offset + length ≤ front.length) :
    readAt (front ++ rest) offset length = readAt front offset length := by
  have within : (front.drop offset).length ≥ length := by
    rw [List.length_drop]
    omega
  rw [readAt, readAt, List.drop_append_of_le_length (by omega),
    List.take_append_of_le_length within]

/-- Reading part of what was read is reading from the file directly. -/
theorem readAt_readAt {file : List α} {offset range start length : Nat}
    (inside : start + length ≤ range) :
    readAt (readAt file offset range) start length = readAt file (offset + start) length := by
  rw [readAt, readAt, readAt, List.drop_take, List.take_take, List.drop_drop,
    Nat.min_eq_left (by omega)]

/-- A read inside the first `count` elements does not see the rest. -/
theorem readAt_take {file : List α} {count offset length : Nat} (inside : offset + length ≤ count) :
    readAt (file.take count) offset length = readAt file offset length := by
  rw [readAt, readAt, List.drop_take, List.take_take, Nat.min_eq_left (by omega)]

theorem readAt_middle (front middle rest : List α) :
    readAt (front ++ middle ++ rest) front.length middle.length = middle := by
  rw [readAt, List.append_assoc, List.drop_left, List.take_left]

/-- Past its offset, a write reads as the written data and then the rest of
the file. -/
theorem drop_writeAt_self (within : offset ≤ file.length) :
    (writeAt fill file offset data).drop offset = data ++ file.drop (offset + data.length) := by
  have keptLength : (file.take offset).length = offset := List.length_take_of_le within
  rw [writeAt_of_le fill within, List.append_assoc, List.drop_append, keptLength, Nat.sub_self,
    List.drop_zero, List.drop_eq_nil_of_le (Nat.le_of_eq keptLength), List.nil_append]

/-- A write that repeats what the file holds from its offset up to `count`,
and goes on with anything after that, keeps the first `count` elements of
the file, wherever the write is cut short. -/
theorem take_writeAt_repeating {count : Nat} (before : offset ≤ count) (short : count ≤ file.length)
    (more : List α) (written : Nat) :
    (writeAt fill file offset ((((file.take count).drop offset) ++ more).take written)).take count =
      file.take count := by
  have within : offset ≤ file.length := Nat.le_trans before short
  have keptLength : (file.take offset).length = offset := List.length_take_of_le within
  have repeatedLength : ((file.take count).drop offset).length = count - offset := by
    rw [List.length_drop, List.length_take_of_le short]
  -- the first `count` elements are the kept prefix and then the repeated part
  have split : file.take count = file.take offset ++ (file.take count).drop offset := by
    conv_lhs => rw [← List.take_append_drop offset (file.take count)]
    rw [List.take_take, Nat.min_eq_left before]
  rw [writeAt_of_le fill within, List.append_assoc, List.take_append, keptLength,
    List.take_of_length_le (by omega)]
  conv_rhs => rw [split]
  congr 1
  by_cases cutShort : written ≤ count - offset
  · -- the write stops inside the repeated part; the file supplies the rest
    have writtenPart : (((file.take count).drop offset) ++ more).take written =
        ((file.take count).drop offset).take written :=
      List.take_append_of_le_length (by omega)
    have writtenLength : (((file.take count).drop offset).take written).length = written :=
      List.length_take_of_le (by omega)
    have restPart : (file.drop (offset + written)).take (count - offset - written) =
        ((file.take count).drop offset).drop written := by
      rw [List.drop_drop, List.drop_take]
      congr 1
      omega
    rw [writtenPart, writtenLength, List.take_append, writtenLength,
      List.take_of_length_le (by omega), restPart, List.take_append_drop]
  · -- the write covers the repeated part
    have writtenLength : count - offset ≤
        ((((file.take count).drop offset) ++ more).take written).length := by
      rw [List.length_take, List.length_append, repeatedLength]
      omega
    rw [List.take_append_of_le_length writtenLength, List.take_take,
      Nat.min_eq_left (by omega), List.take_left' repeatedLength]

end Riffle.ByteFile

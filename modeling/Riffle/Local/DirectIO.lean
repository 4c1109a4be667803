import Riffle.Store.Block
import Riffle.Lib.ByteFile

/-!
# Direct-I/O appends

`SyncLocalIO::direct_append` writes with `O_DIRECT`, so every write starts
at a multiple of `ALIGN` and has a length that is a multiple of it
(`src/store/local/sync_io.rs`).  It keeps the logical length of the data
apart from the padded length of the file:

* when the file does not end at `written_bytes`, it re-reads the unaligned
  tail of the last block with `inner_direct_read` and writes it again in
  front of the new data, from the aligned offset below `written_bytes`;
* `fill_buffer_and_write` copies the parts into a pooled buffer, writes each
  full buffer, and at the end writes the filled part rounded up to `ALIGN`,
  with whatever the buffer held past it.

The pooled and fresh buffers are never cleared ("filled with random data"),
so their contents are the environment's choice (`AcquiredBuffers`).  The
model proves that the padded file refines plain appends: after any sequence
of appends at the end of the previous data, the file starts with the
concatenated data, has the aligned length, and `inner_direct_read` of any
range inside the data returns that range (`Holds`).
-/

namespace Riffle.Local

open Riffle.ByteFile Riffle.FixedWidth Riffle.Store

/-- `crate::store::alignment::ALIGN`. -/
def align : Nat := 4096

/-- `bits::align_up` on `usize`: `(v + align - 1) & !(align - 1)`. -/
def alignUp (align v : Nat) : Nat :=
  (v + align - 1) % 2 ^ 64 &&& (2 ^ 64 - 1 - (align - 1))

/-- `bits::align_down` on `usize`: `v & !(align - 1)`. -/
def alignDown (align v : Nat) : Nat :=
  v &&& (2 ^ 64 - 1 - (align - 1))

/-- `bits::is_aligned`: `v & (align - 1) == 0`. -/
def isAligned (align v : Nat) : Bool :=
  v &&& (align - 1) == 0

/-- The buffer size of `IO_BUFFER_POOL`, `ALIGN * 1024 * 4`. -/
def ioBufferPoolBufferSize : Nat :=
  align * 1024 * 4

theorem alignUp_eq {v : Nat} (bounded : v + 4095 < 2 ^ 64) :
    alignUp align v = (v + 4095) / 4096 * 4096 := by
  have shifted : v + align - 1 = v + 4095 := rfl
  unfold alignUp
  rw [shifted, Nat.mod_eq_of_lt bounded]
  exact land_not_low_bits (show 12 ≤ 64 by decide) bounded

theorem alignDown_eq {v : Nat} (bounded : v < 2 ^ 64) : alignDown align v = v / 4096 * 4096 :=
  land_not_low_bits (show 12 ≤ 64 by decide) bounded

theorem isAligned_iff (v : Nat) : isAligned align v = true ↔ v % 4096 = 0 := by
  have lowBits : v &&& 4095 = v % 4096 := Nat.and_two_pow_sub_one_eq_mod v 12
  simp only [isAligned, align, beq_iff_eq]
  rw [show (4096 : Nat) - 1 = 4095 from rfl, lowBits]

/-- The errors of `inner_direct_read` and `direct_append`, with the lengths
their messages print. -/
inductive DirectIoError where
  | directRead (expected actual : Nat)
  | directAppend (expected actual : Nat)
  deriving DecidableEq, Repr

/-- The locals of `fill_buffer_and_write` that its loops update. -/
structure FillState where
  ioBuffer : List UInt8
  file : List UInt8
  nextOffset : Nat
  writtenLen : Nat
  bufferLen : Nat
  deriving DecidableEq, Repr

/-- `copy_length` of one iteration of the inner `while` loop: as much of the
part as the buffer has room for. -/
def copyLength (bufferSize : Nat) (state : FillState) (remaining : List UInt8) : Nat :=
  min remaining.length (bufferSize - state.bufferLen)

/-- One iteration of the inner `while` loop: copy what fits into the buffer,
and write the buffer once it is full. -/
def copyOnce (bufferSize : Nat) (state : FillState) (remaining : List UInt8) : FillState :=
  let ioBuffer := writeAt 0 state.ioBuffer state.bufferLen
    (remaining.take (copyLength bufferSize state remaining))
  let bufferLen := state.bufferLen + copyLength bufferSize state remaining
  if bufferLen = bufferSize then
    { state with
      ioBuffer
      file := writeAt 0 state.file state.nextOffset ioBuffer
      nextOffset := state.nextOffset + bufferLen
      writtenLen := state.writtenLen + bufferLen
      bufferLen := 0 }
  else { state with ioBuffer, bufferLen }

/-- The inner `while` loop over the bytes of one part not yet copied, with one
unit of `fuel` per iteration. -/
def fillPart (bufferSize : Nat) : Nat → FillState → List UInt8 → FillState
  | 0, state, _ => state
  | fuel + 1, state, remaining =>
      if remaining.isEmpty then state
      else
        fillPart bufferSize fuel (copyOnce bufferSize state remaining)
          (remaining.drop (copyLength bufferSize state remaining))

/-- `fill_buffer_and_write`: the file after its writes, and `written_len`. -/
def fillBufferAndWrite (ioBuffer : List UInt8) (bufferSize : Nat) (chainedBytes : List (List UInt8))
    (file : List UInt8) (offset : Nat) : List UInt8 × Nat :=
  let filled := chainedBytes.foldl (fun state bytes => fillPart bufferSize bytes.length state bytes)
    ⟨ioBuffer, file, offset, 0, 0⟩
  let writtenLen := filled.writtenLen + filled.bufferLen
  if filled.bufferLen > 0 then
    (writeAt 0 filled.file filled.nextOffset
      (filled.ioBuffer.take (alignUp align filled.bufferLen)), writtenLen)
  else (filled.file, writtenLen)

/-- `inner_direct_read`: the range is widened to aligned boundaries and read
into a pooled buffer, or a fresh one when the pool's is too small; the
buffer keeps its old bytes past what the read returns. -/
def innerDirectRead (pooled : List UInt8) (fresh : Nat → List UInt8) (file : List UInt8)
    (offset len : Nat) : Except DirectIoError (List UInt8) :=
  let leftBoundary := alignDown align offset
  let rightBoundary := alignUp align (offset + len)
  let range := rightBoundary - leftBoundary
  let fromPool := decide (range < ioBufferPoolBufferSize)
  let buf := if fromPool then pooled else fresh range
  let expected := if fromPool then ioBufferPoolBufferSize else range
  let read := readAt file leftBoundary range
  let rangeBuf := writeAt 0 (buf.take range) 0 read
  if !isAligned align read.length then .error (.directRead expected read.length)
  else
    let start := offset - leftBoundary
    let stop := start + len
    .ok ((rangeBuf.drop start).take (stop - start))

/-- The buffers one `direct_append` acquires.  A pooled buffer has the pool's
size and holds what its last user left; a fresh `IoBuffer` of a requested
size is at least that long. -/
structure AcquiredBuffers where
  readPooled : List UInt8
  readFresh : Nat → List UInt8
  write : List UInt8
  readPooled_length : readPooled.length = ioBufferPoolBufferSize
  readFresh_length : ∀ size, size ≤ (readFresh size).length
  write_length : write.length = ioBufferPoolBufferSize

/-- Where `direct_append` starts to write, and the tail it re-reads when the
file does not end at `written_bytes`. -/
def directAppendStart (buffers : AcquiredBuffers) (file : List UInt8) (writtenBytes : Nat) :
    Except DirectIoError (Nat × Option (List UInt8)) :=
  if file.length ≠ writtenBytes then
    let left := alignDown align writtenBytes
    (innerDirectRead buffers.readPooled buffers.readFresh file left (writtenBytes - left)).map
      fun remainingBytes => (left, some remainingBytes)
  else .ok (file.length, none)

/-- `SyncLocalIO::direct_append`: the re-read tail goes in front of the
parts, and the write fails unless `fill_buffer_and_write` wrote them all. -/
def directAppend (buffers : AcquiredBuffers) (file : List UInt8) (writtenBytes : Nat)
    (rawData : BytesWrapper) : Except DirectIoError (List UInt8) :=
  match directAppendStart buffers file writtenBytes with
  | .error error => .error error
  | .ok (nextOffset, remainBytes) =>
      let batchBytes := remainBytes.toList ++ rawData.chunks
      let totalLen := (batchBytes.map List.length).sum
      let filled := fillBufferAndWrite buffers.write ioBufferPoolBufferSize batchBytes file nextOffset
      if filled.2 ≠ totalLen then .error (.directAppend totalLen filled.2) else .ok filled.1

/-- What `SyncLocalIO::direct_append` writes: the offset it starts at, and
the file once all its writes have landed; `none` when it fails before its
first write.  A short write is reported only after the writes. -/
def directAppendWrites (buffers : AcquiredBuffers) (file : List UInt8) (writtenBytes : Nat)
    (rawData : BytesWrapper) : Option (Nat × List UInt8) :=
  match directAppendStart buffers file writtenBytes with
  | .error _ => none
  | .ok (nextOffset, remainBytes) =>
      some (nextOffset, (fillBufferAndWrite buffers.write ioBufferPoolBufferSize
        (remainBytes.toList ++ rawData.chunks) file nextOffset).1)

/-- Direct appends one after another, each at the end of the data before
it, as `LocalFileStore::data_insert` passes its pointer. -/
def directAppends : List UInt8 → Nat → List (AcquiredBuffers × BytesWrapper) →
    Except DirectIoError (List UInt8)
  | file, _, [] => .ok file
  | file, writtenBytes, (buffers, data) :: rest =>
      match directAppend buffers file writtenBytes data with
      | .error error => .error error
      | .ok file => directAppends file (writtenBytes + data.freeze.length) rest

/-- What plain appends of the same data leave in the file. -/
def appendedContent (steps : List (AcquiredBuffers × BytesWrapper)) : List UInt8 :=
  (steps.map fun step => step.2.freeze).flatten

section Fill

variable {bufferSize : Nat} {file : List UInt8} {offset : Nat}

/-- What `fill_buffer_and_write` has done after consuming `stream`: the full
buffers are written in order from `offset`, and the buffer holds the rest. -/
structure Buffered (bufferSize : Nat) (file : List UInt8) (offset : Nat) (stream : List UInt8)
    (state : FillState) : Prop where
  sized : state.ioBuffer.length = bufferSize
  spare : state.bufferLen < bufferSize
  buffered : state.ioBuffer.take state.bufferLen = stream.drop state.writtenLen
  consumed : state.writtenLen + state.bufferLen = stream.length
  flushed : state.file = writeAt 0 file offset (stream.take state.writtenLen)
  nextOffset_eq : state.nextOffset = offset + state.writtenLen
  wholeBuffers : bufferSize ∣ state.writtenLen

theorem buffered_start {ioBuffer : List UInt8} (sized : ioBuffer.length = bufferSize)
    (positive : 0 < bufferSize) (within : offset ≤ file.length) :
    Buffered bufferSize file offset [] ⟨ioBuffer, file, offset, 0, 0⟩ :=
  ⟨sized, positive, rfl, rfl, (writeAt_nil 0 within).symm, rfl, dvd_zero _⟩

/-- One iteration consumes what it copies: the buffer takes the copied bytes,
and a full buffer goes to the file right after the buffers before it. -/
theorem Buffered.copyOnce (within : offset ≤ file.length) {stream : List UInt8}
    {state : FillState} (buffered : Buffered bufferSize file offset stream state)
    (remaining : List UInt8) :
    Buffered bufferSize file offset (stream ++ remaining.take (copyLength bufferSize state remaining))
      (copyOnce bufferSize state remaining) := by
  unfold Riffle.Local.copyOnce
  dsimp only
  have countRoom : copyLength bufferSize state remaining ≤ bufferSize - state.bufferLen :=
    Nat.min_le_right _ _
  have countAvailable : copyLength bufferSize state remaining ≤ remaining.length :=
    Nat.min_le_left _ _
  generalize copyLength bufferSize state remaining = count at countRoom countAvailable ⊢
  have chunkLength : (remaining.take count).length = count := List.length_take_of_le countAvailable
  have spare := buffered.spare
  have bufferWithin : state.bufferLen ≤ state.ioBuffer.length := by
    rw [buffered.sized]
    omega
  have writtenWithin : state.writtenLen ≤ stream.length := by
    have := buffered.consumed
    omega
  have newSized : (writeAt 0 state.ioBuffer state.bufferLen (remaining.take count)).length =
      bufferSize := by
    rw [length_writeAt 0 bufferWithin, chunkLength, buffered.sized]
    omega
  have newBuffered :
      (writeAt 0 state.ioBuffer state.bufferLen (remaining.take count)).take
          (state.bufferLen + count) = (stream ++ remaining.take count).drop state.writtenLen := by
    rw [take_writeAt 0 bufferWithin (Nat.le_of_eq chunkLength.symm), buffered.buffered,
      List.take_of_length_le (Nat.le_of_eq chunkLength), List.drop_append_of_le_length writtenWithin]
  have consumed : state.writtenLen + (state.bufferLen + count) =
      (stream ++ remaining.take count).length := by
    rw [List.length_append, chunkLength, ← buffered.consumed]
    omega
  split
  · -- the buffer is full: it is written right after the buffers before it
    rename_i full
    have wholeBuffer : writeAt 0 state.ioBuffer state.bufferLen (remaining.take count) =
        (stream ++ remaining.take count).drop state.writtenLen := by
      rw [← newBuffered, full, List.take_of_length_le (Nat.le_of_eq newSized)]
    have flushedLength : (stream.take state.writtenLen).length = state.writtenLen :=
      List.length_take_of_le writtenWithin
    have appended :
        writeAt 0 (writeAt 0 file offset (stream.take state.writtenLen)) (offset + state.writtenLen)
            (writeAt 0 state.ioBuffer state.bufferLen (remaining.take count)) =
          writeAt 0 file offset (stream.take state.writtenLen ++
            writeAt 0 state.ioBuffer state.bufferLen (remaining.take count)) := by
      have composed := writeAt_append 0 within (stream.take state.writtenLen)
        (writeAt 0 state.ioBuffer state.bufferLen (remaining.take count))
      rwa [flushedLength] at composed
    have rejoined : stream.take state.writtenLen ++
        (stream ++ remaining.take count).drop state.writtenLen = stream ++ remaining.take count :=
      calc stream.take state.writtenLen ++ (stream ++ remaining.take count).drop state.writtenLen
          = (stream ++ remaining.take count).take state.writtenLen ++
              (stream ++ remaining.take count).drop state.writtenLen := by
            rw [List.take_append_of_le_length writtenWithin]
        _ = stream ++ remaining.take count := List.take_append_drop _ _
    refine ⟨newSized, ?_, ?_, ?_, ?_, ?_, ?_⟩
    · dsimp only
      omega
    · dsimp only
      rw [List.take_zero, List.drop_eq_nil_of_le (Nat.le_of_eq consumed.symm)]
    · dsimp only
      omega
    · dsimp only
      rw [buffered.flushed, buffered.nextOffset_eq, appended, wholeBuffer, rejoined,
        List.take_of_length_le (Nat.le_of_eq consumed.symm)]
    · dsimp only
      rw [buffered.nextOffset_eq, full]
      omega
    · exact Nat.dvd_add buffered.wholeBuffers (full ▸ dvd_refl bufferSize)
  · rename_i notFull
    refine ⟨newSized, ?_, newBuffered, consumed, ?_, buffered.nextOffset_eq,
      buffered.wholeBuffers⟩
    · dsimp only
      omega
    · rw [buffered.flushed, List.take_append_of_le_length writtenWithin]

/-- With one unit of fuel per byte, the inner loop consumes the whole part:
each iteration copies at least one byte, since the buffer always has room. -/
theorem buffered_fillPart (within : offset ≤ file.length) :
    ∀ (fuel : Nat) {stream : List UInt8} {state : FillState} {remaining : List UInt8},
      Buffered bufferSize file offset stream state → remaining.length ≤ fuel →
      Buffered bufferSize file offset (stream ++ remaining) (fillPart bufferSize fuel state remaining)
  | 0, stream, state, remaining, buffered, short => by
      rw [List.eq_nil_of_length_eq_zero (Nat.le_zero.mp short), List.append_nil]
      exact buffered
  | fuel + 1, stream, state, remaining, buffered, short => by
      cases remaining with
      | nil =>
          rw [List.append_nil]
          exact buffered
      | cons byte rest =>
          have progress : 0 < copyLength bufferSize state (byte :: rest) := by
            have spare := buffered.spare
            simp only [copyLength, List.length_cons]
            omega
          have shorter :
              ((byte :: rest).drop (copyLength bufferSize state (byte :: rest))).length ≤ fuel := by
            rw [List.length_drop]
            omega
          have continued :=
            buffered_fillPart within fuel (buffered.copyOnce within (byte :: rest)) shorter
          rw [List.append_assoc, List.take_append_drop] at continued
          simp only [fillPart, List.isEmpty_cons, Bool.false_eq_true, if_false]
          exact continued

/-- The outer loop consumes every part in turn. -/
theorem buffered_foldl (within : offset ≤ file.length) (chainedBytes : List (List UInt8)) :
    ∀ {stream : List UInt8} {state : FillState}, Buffered bufferSize file offset stream state →
      Buffered bufferSize file offset (stream ++ chainedBytes.flatten)
        (chainedBytes.foldl (fun state bytes => fillPart bufferSize bytes.length state bytes) state) := by
  induction chainedBytes with
  | nil =>
      intro stream state buffered
      rw [List.flatten_nil, List.append_nil]
      exact buffered
  | cons bytes rest inductionHypothesis =>
      intro stream state buffered
      have afterPart := buffered_fillPart within bytes.length buffered (Nat.le_refl _)
      rw [List.flatten_cons, ← List.append_assoc, List.foldl_cons]
      exact inductionHypothesis afterPart

theorem fillBufferAndWrite_spec {ioBuffer : List UInt8} (chainedBytes : List (List UInt8))
    (sized : ioBuffer.length = bufferSize) (aligned : 4096 ∣ bufferSize) (positive : 0 < bufferSize)
    (bounded : bufferSize + 4095 < 2 ^ 64) (within : offset ≤ file.length) :
    ∃ padding, fillBufferAndWrite ioBuffer bufferSize chainedBytes file offset =
        (writeAt 0 file offset (chainedBytes.flatten ++ padding), chainedBytes.flatten.length) ∧
      (chainedBytes.flatten ++ padding).length =
        (chainedBytes.flatten.length + 4095) / 4096 * 4096 := by
  have filled := buffered_foldl within chainedBytes (buffered_start sized positive within)
  rw [List.nil_append] at filled
  unfold fillBufferAndWrite
  generalize chainedBytes.foldl (fun state bytes => fillPart bufferSize bytes.length state bytes)
    ⟨ioBuffer, file, offset, 0, 0⟩ = final at filled ⊢
  generalize chainedBytes.flatten = stream at filled ⊢
  obtain ⟨finalSized, spare, buffered, consumed, flushed, nextOffset, wholeBuffers⟩ := filled
  have wholeBlocks : 4096 ∣ final.writtenLen := Nat.dvd_trans aligned wholeBuffers
  have writtenWithin : final.writtenLen ≤ stream.length := by
    omega
  have flushedLength : (stream.take final.writtenLen).length = final.writtenLen :=
    List.length_take_of_le writtenWithin
  dsimp only
  split
  · -- the filled part of the buffer goes out rounded up, with what lies past it
    rename_i partFilled
    have roundedUp : alignUp align final.bufferLen = (final.bufferLen + 4095) / 4096 * 4096 :=
      alignUp_eq (by omega)
    have roomForPadding : (final.bufferLen + 4095) / 4096 * 4096 ≤ bufferSize := by
      omega
    refine ⟨(final.ioBuffer.drop final.bufferLen).take
      ((final.bufferLen + 4095) / 4096 * 4096 - final.bufferLen), ?_, ?_⟩
    · have lastWrite : final.ioBuffer.take (alignUp align final.bufferLen) =
          stream.drop final.writtenLen ++ (final.ioBuffer.drop final.bufferLen).take
            ((final.bufferLen + 4095) / 4096 * 4096 - final.bufferLen) := by
        rw [roundedUp, ← buffered, ← List.take_add, Nat.add_sub_cancel' (by omega)]
      have composed := writeAt_append 0 within (stream.take final.writtenLen)
        (final.ioBuffer.take (alignUp align final.bufferLen))
      rw [flushedLength] at composed
      rw [flushed, nextOffset, composed, lastWrite, ← List.append_assoc, List.take_append_drop]
      congr 1
    · rw [List.length_append, List.length_take, List.length_drop, finalSized]
      omega
  · rename_i empty
    refine ⟨[], ?_, ?_⟩
    · rw [flushed, List.append_nil, List.take_of_length_le (by omega)]
      congr 1
    · rw [List.append_nil]
      omega

end Fill

section Appends

/-- A file whose first bytes are `content` and that reaches at least to the
aligned end of the content: what a direct append needs to find. -/
structure Covers (file content : List UInt8) : Prop where
  front : file.take content.length = content
  covered : alignUp align content.length ≤ file.length

/-- A file that direct appends have left holding `content`: it starts with
the content and is padded to the next aligned length. -/
structure Holds (file content : List UInt8) : Prop where
  front : file.take content.length = content
  padded : file.length = alignUp align content.length

variable {file content : List UInt8}

theorem Holds.covers (holds : Holds file content) : Covers file content :=
  ⟨holds.front, Nat.le_of_eq holds.padded.symm⟩

theorem Covers.length_ge (covers : Covers file content) (small : content.length + 4095 < 2 ^ 64) :
    (content.length + 4095) / 4096 * 4096 ≤ file.length := by
  rw [← alignUp_eq small]
  exact covers.covered

/-- Reading back a range of the content: the aligned range lies inside the
file, so the read is whole and aligned, and its middle is the range,
whatever the buffer held before. -/
theorem Covers.innerDirectRead (covers : Covers file content)
    (small : content.length + 4095 < 2 ^ 64) (pooled : List UInt8) (fresh : Nat → List UInt8)
    {offset len : Nat} (inside : offset + len ≤ content.length) :
    innerDirectRead pooled fresh file offset len = .ok (readAt content offset len) := by
  have fileLength := covers.length_ge small
  have leftEq : alignDown align offset = offset / 4096 * 4096 := alignDown_eq (by omega)
  have rightEq : alignUp align (offset + len) = (offset + len + 4095) / 4096 * 4096 :=
    alignUp_eq (by omega)
  unfold Riffle.Local.innerDirectRead
  generalize leftBoundaryEq : alignDown align offset = leftBoundary at leftEq
  dsimp only
  generalize rangeEq : alignUp align (offset + len) - leftBoundary = range
  rw [leftEq, rightEq] at rangeEq
  have wholeRead : (readAt file leftBoundary range).length = range := by
    rw [length_readAt]
    omega
  have alignedRead : isAligned align (readAt file leftBoundary range).length = true := by
    rw [wholeRead, isAligned_iff]
    omega
  rw [alignedRead, Bool.not_true, if_neg Bool.false_ne_true, writeAt_of_le 0 (Nat.zero_le _),
    List.take_zero, List.nil_append, Nat.add_sub_cancel_left]
  -- the returned slice lies inside what was read
  change Except.ok (readAt (_ ++ _) _ _) = _
  rw [readAt_append_left (by omega), readAt_readAt (by omega), Nat.add_sub_cancel' (by omega),
    ← covers.front, readAt_take inside]

theorem ioBufferPoolBufferSize_eq : ioBufferPoolBufferSize = 4096 * 4096 :=
  rfl

/-- Rounding up from the aligned offset below `w` is rounding up from zero. -/
theorem roundUp_from_alignedDown (w d : Nat) :
    w / 4096 * 4096 + (w - w / 4096 * 4096 + d + 4095) / 4096 * 4096 =
      (w + d + 4095) / 4096 * 4096 := by
  omega

theorem Covers.length_le (covers : Covers file content)
    (small : content.length + 4095 < 2 ^ 64) : content.length ≤ file.length := by
  have fileLength := covers.length_ge small
  omega

/-- Where a direct append at the end of the content starts: at the aligned
offset below the end, with the content past it to write again. -/
theorem Covers.directAppendStart (covers : Covers file content)
    (small : content.length + 4095 < 2 ^ 64) (buffers : AcquiredBuffers) :
    ∃ remain, directAppendStart buffers file content.length =
        .ok (content.length / 4096 * 4096, remain) ∧
      remain.toList.flatten = content.drop (content.length / 4096 * 4096) := by
  have fileLength := covers.length_ge small
  unfold Riffle.Local.directAppendStart
  split
  · -- the file does not end at the data: the tail of the last block is read back
    have leftEq : alignDown align content.length = content.length / 4096 * 4096 :=
      alignDown_eq (by omega)
    have tailInside : content.length / 4096 * 4096 +
        (content.length - content.length / 4096 * 4096) ≤ content.length :=
      Nat.le_of_eq (Nat.add_sub_cancel' (Nat.div_mul_le_self _ _))
    dsimp only
    rw [leftEq, covers.innerDirectRead small _ _ tailInside]
    refine ⟨_, rfl, ?_⟩
    rw [Option.toList_some, List.flatten_singleton, readAt, List.take_of_length_le]
    rw [List.length_drop]
  · -- the file ends at the data, which then ends on a block boundary
    rename_i atEnd
    have aligned : content.length / 4096 * 4096 = content.length := by
      omega
    refine ⟨none, ?_, ?_⟩
    · rw [aligned, Decidable.not_not.mp atEnd]
    · rw [aligned, List.drop_length, Option.toList_none, List.flatten_nil]

/-- One direct append at the end of the content succeeds, and leaves the file
covering the content followed by the new data, reaching to the aligned end
of the new data or to where the file reached before. -/
theorem Covers.directAppend (covers : Covers file content) (buffers : AcquiredBuffers)
    (data : BytesWrapper) (small : content.length + data.freeze.length + 4095 < 2 ^ 64) :
    ∃ appended, directAppend buffers file content.length data = .ok appended ∧
      Covers appended (content ++ data.freeze) ∧
      appended.length = max file.length (alignUp align (content ++ data.freeze).length) := by
  obtain ⟨remain, started, tail⟩ := covers.directAppendStart (by omega) buffers
  have startWithin : content.length / 4096 * 4096 ≤ file.length :=
    Nat.le_trans (Nat.div_mul_le_self _ _) (covers.length_le (by omega))
  have poolSize := ioBufferPoolBufferSize_eq
  obtain ⟨padding, filled, paddedLength⟩ := fillBufferAndWrite_spec (remain.toList ++ data.chunks)
    buffers.write_length ⟨4096, poolSize⟩ (by omega) (by omega) startWithin
  have batch : (remain.toList ++ data.chunks).flatten =
      content.drop (content.length / 4096 * 4096) ++ data.freeze := by
    rw [List.flatten_append, tail, BytesWrapper.flatten_chunks]
  rw [batch] at filled paddedLength
  unfold Riffle.Local.directAppend
  rw [started]
  dsimp only
  rw [← List.length_flatten, batch, filled, if_neg (not_not_intro rfl)]
  have batchLength : (content.drop (content.length / 4096 * 4096) ++ data.freeze).length =
      content.length - content.length / 4096 * 4096 + data.freeze.length := by
    rw [List.length_append, List.length_drop]
  have appendedLength :
      (writeAt 0 file (content.length / 4096 * 4096)
          (content.drop (content.length / 4096 * 4096) ++ data.freeze ++ padding)).length =
        max file.length (alignUp align (content ++ data.freeze).length) := by
    rw [length_writeAt 0 startWithin, paddedLength, batchLength, roundUp_from_alignedDown,
      List.length_append, alignUp_eq small]
  refine ⟨_, rfl, ⟨?_, ?_⟩, appendedLength⟩
  · -- the data lands right after the content, which the write keeps
    have keptFront : file.take (content.length / 4096 * 4096) =
        content.take (content.length / 4096 * 4096) := by
      have taken := congrArg (List.take (content.length / 4096 * 4096)) covers.front
      rwa [List.take_take, Nat.min_eq_left (Nat.div_mul_le_self _ _)] at taken
    have covered : content.length - content.length / 4096 * 4096 + data.freeze.length ≤
        (content.drop (content.length / 4096 * 4096) ++ data.freeze ++ padding).length := by
      rw [List.length_append, batchLength]
      omega
    rw [List.length_append, show content.length + data.freeze.length =
        content.length / 4096 * 4096 +
          (content.length - content.length / 4096 * 4096 + data.freeze.length) by omega,
      take_writeAt 0 startWithin covered, keptFront, ← batchLength,
      List.take_left, ← List.append_assoc, List.take_append_drop]
  · rw [appendedLength]
    exact le_max_right _ _

/-- A direct append that succeeds has made all its writes. -/
theorem directAppendWrites_of_directAppend {buffers : AcquiredBuffers} {writtenBytes : Nat}
    {data : BytesWrapper} {appended : List UInt8}
    (succeeded : directAppend buffers file writtenBytes data = .ok appended) :
    ∃ start, directAppendWrites buffers file writtenBytes data = some (start, appended) := by
  unfold Riffle.Local.directAppend at succeeded
  unfold directAppendWrites
  split at succeeded
  · cases succeeded
  · rename_i nextOffset remainBytes started
    dsimp only at succeeded
    split at succeeded
    · cases succeeded
    · cases succeeded
      exact ⟨nextOffset, rfl⟩

/-- What a direct append at the end of the content writes: from the aligned
offset below the end, the tail of the content again and then the rest. -/
theorem Covers.directAppendWrites (covers : Covers file content) (buffers : AcquiredBuffers)
    (data : BytesWrapper) (small : content.length + data.freeze.length + 4095 < 2 ^ 64) :
    ∃ more, Riffle.Local.directAppendWrites buffers file content.length data =
      some (content.length / 4096 * 4096, writeAt 0 file (content.length / 4096 * 4096)
        (content.drop (content.length / 4096 * 4096) ++ more)) := by
  obtain ⟨remain, started, tail⟩ := covers.directAppendStart (by omega) buffers
  have startWithin : content.length / 4096 * 4096 ≤ file.length :=
    Nat.le_trans (Nat.div_mul_le_self _ _) (covers.length_le (by omega))
  obtain ⟨padding, filled, -⟩ := fillBufferAndWrite_spec (remain.toList ++ data.chunks)
    buffers.write_length ⟨4096, ioBufferPoolBufferSize_eq⟩ (by decide) (by decide) startWithin
  have batch : (remain.toList ++ data.chunks).flatten =
      content.drop (content.length / 4096 * 4096) ++ data.freeze := by
    rw [List.flatten_append, tail, BytesWrapper.flatten_chunks]
  refine ⟨data.freeze ++ padding, ?_⟩
  unfold Riffle.Local.directAppendWrites
  rw [started]
  dsimp only
  rw [filled, batch, List.append_assoc]

/-- A file covering `content ++ more` covers `content`. -/
theorem Covers.of_append {more : List UInt8} (covers : Covers file (content ++ more))
    (small : (content ++ more).length + 4095 < 2 ^ 64) : Covers file content := by
  have longer : content.length ≤ (content ++ more).length := by
    rw [List.length_append]
    exact Nat.le_add_right _ _
  have grows : alignUp align content.length ≤ alignUp align (content ++ more).length := by
    rw [alignUp_eq (by omega), alignUp_eq small]
    exact Nat.mul_le_mul_right 4096 (Nat.div_le_div_right (by omega))
  constructor
  · have taken := congrArg (List.take content.length) covers.front
    rwa [List.take_take, Nat.min_eq_left longer, List.take_left] at taken
  · exact Nat.le_trans grows covers.covered

/-- On a file padded to the aligned end of its content, the append pads the
file to the aligned end of the new content. -/
theorem Holds.directAppend (holds : Holds file content) (buffers : AcquiredBuffers)
    (data : BytesWrapper) (small : content.length + data.freeze.length + 4095 < 2 ^ 64) :
    ∃ appended, directAppend buffers file content.length data = .ok appended ∧
      Holds appended (content ++ data.freeze) := by
  obtain ⟨appended, ran, covers, appendedLength⟩ := holds.covers.directAppend buffers data small
  have grows : file.length ≤ alignUp align (content ++ data.freeze).length := by
    rw [holds.padded, alignUp_eq (by omega), alignUp_eq (by rw [List.length_append]; omega),
      List.length_append]
    omega
  exact ⟨appended, ran, covers.front, by rw [appendedLength, max_eq_right grows]⟩

theorem holds_empty : Holds [] [] := by
  refine ⟨rfl, ?_⟩
  rw [List.length_nil, alignUp_eq (by norm_num)]

/-- Any run of direct appends at the end of the data keeps the file holding
the concatenated data. -/
theorem holds_directAppends :
    ∀ (steps : List (AcquiredBuffers × BytesWrapper)) {file content : List UInt8},
      Holds file content → content.length + (appendedContent steps).length + 4095 < 2 ^ 64 →
      ∃ appended, directAppends file content.length steps = .ok appended ∧
        Holds appended (content ++ appendedContent steps)
  | [], file, content, holds, _ => by
      refine ⟨file, rfl, ?_⟩
      rw [appendedContent, List.map_nil, List.flatten_nil, List.append_nil]
      exact holds
  | (buffers, data) :: rest, file, content, holds, small => by
      have stepsLength : (appendedContent ((buffers, data) :: rest)).length =
          data.freeze.length + (appendedContent rest).length := by
        rw [appendedContent, List.map_cons, List.flatten_cons, List.length_append]
        rfl
      obtain ⟨middle, appended, middleHolds⟩ := holds.directAppend buffers data (by omega)
      have middleLength : (content ++ data.freeze).length = content.length + data.freeze.length :=
        List.length_append
      obtain ⟨final, ran, finalHolds⟩ :=
        holds_directAppends rest middleHolds (by rw [middleLength]; omega)
      refine ⟨final, ?_, ?_⟩
      · rw [directAppends, appended, ← middleLength]
        exact ran
      · rw [appendedContent, List.map_cons, List.flatten_cons, ← List.append_assoc]
        exact finalHolds

/-- Direct-I/O appends refine plain appends.  After any sequence of
`direct_append`s, each at the end of the data before it and each with its
data split into any parts, every append succeeds; the file starts with the
concatenated data and has its aligned length; and `inner_direct_read` of any
range inside the data returns exactly that range. -/
theorem directAppends_refine_append (steps : List (AcquiredBuffers × BytesWrapper))
    (fitsOffset : (appendedContent steps).length < 2 ^ 63) :
    ∃ file, directAppends [] 0 steps = .ok file ∧
      file.take (appendedContent steps).length = appendedContent steps ∧
      file.length = alignUp align (appendedContent steps).length ∧
      ∀ (pooled : List UInt8) (fresh : Nat → List UInt8) (offset len : Nat),
        offset + len ≤ (appendedContent steps).length →
        innerDirectRead pooled fresh file offset len =
          .ok (readAt (appendedContent steps) offset len) := by
  have small : (appendedContent steps).length + 4095 < 2 ^ 64 := by
    omega
  obtain ⟨file, ran, holds⟩ := holds_directAppends steps holds_empty (by simpa using small)
  rw [List.nil_append] at holds
  exact ⟨file, ran, holds.front, holds.padded,
    fun pooled fresh offset len inside => holds.covers.innerDirectRead small pooled fresh inside⟩

/-- Buffers that still hold the byte `7` from their last use. -/
def staleBuffers : AcquiredBuffers where
  readPooled := List.replicate ioBufferPoolBufferSize 7
  readFresh size := List.replicate size 7
  write := List.replicate ioBufferPoolBufferSize 7
  readPooled_length := List.length_replicate
  readFresh_length _ := Nat.le_of_eq List.length_replicate.symm
  write_length := List.length_replicate

theorem directAppends_refine_append_threeAppends :
    ∃ file, directAppends [] 0
        [(staleBuffers, .direct [1, 2, 3]), (staleBuffers, .composed ⟨[[4], [5, 6]], 3⟩),
          (staleBuffers, .direct [])] = .ok file ∧
      file.take 6 = [1, 2, 3, 4, 5, 6] ∧ file.length = alignUp align 6 ∧
      innerDirectRead staleBuffers.readPooled staleBuffers.readFresh file 2 3 = .ok [3, 4, 5] :=
  let ⟨file, ran, front, padded, reads⟩ := directAppends_refine_append
    [(staleBuffers, .direct [1, 2, 3]), (staleBuffers, .composed ⟨[[4], [5, 6]], 3⟩),
      (staleBuffers, .direct [])] (by decide)
  ⟨file, ran, front, padded, reads _ _ 2 3 (by decide)⟩

end Appends

end Riffle.Local

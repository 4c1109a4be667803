import Riffle.Store.Block
import Riffle.Lib.ByteCursor

/-!
# urpc frames and their decoder

`src/urpc/frame.rs` and `Connection::parse_frame` of
`src/urpc/connection.rs`.  A frame is a 9-byte header (`content_length` as
`i32`, `message_type` as `u8`, `body_length` as `i32`, all big-endian)
followed by the content and the body.

`Frame::check` tests that the buffer holds a whole frame and moves past it;
`parse_frame` then rewinds and runs `Frame::parse` over the whole buffer,
and advances the buffer by what `check` moved past.  The `get_*` helpers
test only that one byte remains before the byte-buffer read of an `i64`,
`i32` or `u8`, and that read panics when the value's bytes are not all
there.  The lengths are added as `i32`, which wraps in the release build,
and cast to `usize` (`frameLength`).

`check_eq` says what `check` does on every cursor: it never panics and
fails only with `STREAM_INCOMPLETE`.  `parseFrame_advance` says what a frame
returned by `parse_frame` consumes.  `parse` reads past the frame `check`
measured, and a request frame whose content is shorter than its fields ends
in a panic (`parseFrame_short_index_request`).

`WorkerError::Other` displays the error it wraps, so an error a request
parser returns through `anyhow` is kept as that error.
-/

namespace Riffle.Urpc

open Riffle.FixedWidth Riffle.ByteCursor Riffle.Store

/-- `MessageType`. -/
inductive MessageType where
  | sendShuffleData
  | getMemoryData
  | getMemoryDataResponse
  | getLocalDataIndex
  | getLocalDataIndexResponse
  | getLocalData
  | getLocalDataResponse
  | rpcResponse
  deriving DecidableEq, Repr

namespace MessageType

/-- The `u8` each message type is sent as (`#[repr(u8)]`). -/
def code : MessageType → Nat
  | .sendShuffleData => 3
  | .getMemoryData => 6
  | .getMemoryDataResponse => 16
  | .getLocalDataIndex => 4
  | .getLocalDataIndexResponse => 14
  | .getLocalData => 5
  | .getLocalDataResponse => 15
  | .rpcResponse => 0

/-- `MessageType::try_from(u8)`. -/
def tryFrom : Nat → Option MessageType
  | 3 => some .sendShuffleData
  | 6 => some .getMemoryData
  | 16 => some .getMemoryDataResponse
  | 4 => some .getLocalDataIndex
  | 14 => some .getLocalDataIndexResponse
  | 5 => some .getLocalData
  | 15 => some .getLocalDataResponse
  | 0 => some .rpcResponse
  | _ => none

theorem tryFrom_code (messageType : MessageType) : tryFrom messageType.code = some messageType := by
  cases messageType <;> rfl

theorem code_lt (messageType : MessageType) : messageType.code < 256 := by
  cases messageType <;> decide

end MessageType

/-- `HEADER_LEN`. -/
def headerLen : Nat := 4 + 1 + 4

/-! ## Commands -/

/-- `GetLocalDataRequestCommand`. -/
structure GetLocalDataRequestCommand where
  requestId : Int
  appId : String
  shuffleId : Int
  partitionId : Int
  partitionNumPerRange : Int
  partitionNum : Int
  offset : Int
  length : Int
  timestamp : Int
  deriving DecidableEq, Repr

/-- `GetLocalDataIndexRequestCommand`. -/
structure GetLocalDataIndexRequestCommand where
  requestId : Int
  appId : String
  shuffleId : Int
  partitionId : Int
  partitionNumPerRange : Int
  partitionNum : Int
  deriving DecidableEq, Repr

/-- `GetMemoryDataRequestCommand`. -/
structure GetMemoryDataRequestCommand where
  requestId : Int
  appId : String
  shuffleId : Int
  partitionId : Int
  lastBlockId : Int
  readBufferSize : Int
  expectedTasksBitmapRaw : Option (List UInt8)
  timestamp : Int
  deriving DecidableEq, Repr

/-- `SendDataRequestCommand`.  The `HashMap<i32, Vec<Block>>` of blocks is
kept as its entries, in no particular order. -/
structure SendDataRequestCommand where
  requestId : Int
  appId : String
  shuffleId : Int
  blocks : List (Int × List Block)
  ticketId : Int
  timestamp : Int
  deriving DecidableEq, Repr

/-- `RpcResponseCommand`. -/
structure RpcResponseCommand where
  requestId : Int
  statusCode : Int
  retMsg : String
  deriving DecidableEq, Repr

/-- `GetLocalDataResponseCommand`. -/
structure GetLocalDataResponseCommand where
  requestId : Int
  statusCode : Int
  retMsg : String
  data : List UInt8
  deriving DecidableEq, Repr

/-- `crate::store::LocalDataIndex`. -/
structure LocalDataIndex where
  indexData : List UInt8
  dataFileLen : Int
  deriving DecidableEq, Repr

/-- `GetLocalDataIndexResponseCommand`. -/
structure GetLocalDataIndexResponseCommand where
  requestId : Int
  statusCode : Int
  retMsg : String
  dataIndex : LocalDataIndex
  deriving DecidableEq, Repr

/-- `crate::store::ResponseData`; a local read's answer is its bytes. -/
inductive ResponseData where
  | «local» (data : List UInt8)
  | mem (data : PartitionedMemoryData)
  deriving DecidableEq, Repr

/-- `GetMemoryDataResponseCommand`. -/
structure GetMemoryDataResponseCommand where
  requestId : Int
  statusCode : Int
  retMsg : String
  data : ResponseData
  deriving DecidableEq, Repr

/-- `Frame`. -/
inductive Frame where
  | sendShuffleData (command : SendDataRequestCommand)
  | getMemoryData (command : GetMemoryDataRequestCommand)
  | getMemoryDataResponse (command : GetMemoryDataResponseCommand)
  | getLocalDataIndex (command : GetLocalDataIndexRequestCommand)
  | getLocalDataIndexResponse (command : GetLocalDataIndexResponseCommand)
  | getLocalData (command : GetLocalDataRequestCommand)
  | getLocalDataResponse (command : GetLocalDataResponseCommand)
  | rpcResponse (command : RpcResponseCommand)
  deriving DecidableEq, Repr

/-! ## The field readers -/

/-- The test every `get_*` helper starts with: `STREAM_INCORRECT` naming
the helper when no byte is left. -/
def requireRemaining (helper : String) : Reader WorkerError Unit := do
  if !(← Reader.hasRemaining) then Reader.fail (.streamIncorrect helper)

/-- `get_i64`, `get_i32` and `get_u8`: the one-byte test, then the
fixed-width read, which panics when fewer bytes than it takes remain. -/
def getFixed {α : Type} (helper : String) (read : Reader WorkerError α) : Reader WorkerError α := do
  requireRemaining helper
  read

/-- `get_i64`. -/
def getI64 : Reader WorkerError Int := getFixed "get_i64" (Reader.readSigned 8)

/-- `get_i32`. -/
def getI32 : Reader WorkerError Int := getFixed "get_i32" (Reader.readSigned 4)

/-- `get_u8`. -/
def getU8 : Reader WorkerError Nat := getFixed "get_u8" (Reader.readUnsigned 1)

/-- `skip`. -/
def skip (count : Nat) : Reader WorkerError Unit := do
  if (← Reader.remaining) < count then Reader.fail (.streamIncorrect "skip")
  Reader.advance count

/-- `get_bytes`: a length, then that many bytes; `None` for a length that
is not positive. -/
def getBytes : Reader WorkerError (Option (List UInt8)) := do
  requireRemaining "get_bytes"
  let bytesDataLen ← getI32
  if bytesDataLen ≤ 0 then return none
  let remaining ← Reader.remaining
  if remaining < toUnsigned 64 bytesDataLen then
    Reader.fail (.streamIncorrect
      s!"get_bytes but not have enough remaining bytes. expected: {bytesDataLen}, real: {remaining}")
  let data ← Reader.peek (toUnsigned 64 bytesDataLen)
  skip (toUnsigned 64 bytesDataLen)
  return some data

/-- `get_string`: a length cast to `usize`, then that many bytes of UTF-8. -/
def getString : Reader WorkerError String := do
  requireRemaining "get_string 1"
  let len := toUnsigned 64 (← getI32)
  -- `len <= 0` on a `usize`
  if len = 0 then return ""
  let remaining ← Reader.remaining
  if remaining < len then
    Reader.fail (.streamIncorrect s!"get string. src remaining: {remaining}. len: {len}")
  let msg ← Reader.peek len
  skip len
  match decodeUtf8 msg with
  | some text => return text
  | none => Reader.fail (.other "invalid utf-8")

/-! ## `Frame::check` -/

/-- `(msg_len + body_len) as usize`: an `i32` sum, cast with sign
extension. -/
def frameLength (msgLen bodyLen : Int) : Nat :=
  toUnsigned 64 (wrapSigned 32 (msgLen + bodyLen))

/-- `Frame::check`. -/
def check : Reader WorkerError Unit := do
  if (← Reader.remaining) < headerLen then Reader.fail .streamIncomplete
  let msgLen ← getI32
  let _msgType ← getU8
  let bodyLen ← getI32
  if (← Reader.remaining) < frameLength msgLen bodyLen then Reader.fail .streamIncomplete
  skip (frameLength msgLen bodyLen)

/-! ## `Frame::parse` -/

/-- `parse_to_get_localfile_data_command`. -/
def parseToGetLocalfileDataCommand : Reader WorkerError GetLocalDataRequestCommand := do
  let requestId ← getI64
  let appId ← getString
  let shuffleId ← getI32
  let partitionId ← getI32
  let partitionNumPerRange ← getI32
  let partitionNum ← getI32
  let offset ← getI64
  let length ← getI32
  let timestamp ← getI64
  return ⟨requestId, appId, shuffleId, partitionId, partitionNumPerRange, partitionNum, offset,
    length, timestamp⟩

/-- The shuffle servers of a block, which the parser reads and drops. -/
def skipShuffleServer : Reader WorkerError Unit := do
  let _ ← getString
  let _ ← getString
  let _ ← getI32
  let _ ← getI32

/-- One block of a `SendShuffleData` request. -/
def parseShuffleBlock : Reader WorkerError Block := do
  let _pid ← getI32
  let blockId ← getI64
  let length ← getI32
  let _shuffleId ← getI32
  let crc ← getI64
  let taskAttemptId ← getI64
  let buffer := (← getBytes).getD []
  let lengthOfShuffleServers ← getI32
  let _ ← Reader.repeatRead skipShuffleServer lengthOfShuffleServers.toNat
  let uncompressLen ← getI32
  let _freeMem ← getI64
  return ⟨blockId, length, uncompressLen, crc, buffer, taskAttemptId⟩

/-- One partition of a `SendShuffleData` request and its blocks. -/
def parsePartitionBlocks : Reader WorkerError (Int × List Block) := do
  let partitionId ← getI32
  let blockBatchSize ← getI32
  -- `Vec::with_capacity(block_batch_size as usize)`: a negative size casts to
  -- a capacity past `isize::MAX`, which panics
  if blockBatchSize < 0 then Reader.panic
  let blocks ← Reader.repeatRead parseShuffleBlock blockBatchSize.toNat
  return (partitionId, blocks)

/-- `HashMap::insert` on the entries of a map: an entry with the same key
is replaced. -/
def insertPartition (blocksMap : List (Int × List Block)) (entry : Int × List Block) :
    List (Int × List Block) :=
  blocksMap.filter (fun kept => kept.1 != entry.1) ++ [entry]

/-- `parse_to_send_shuffle_data_command`. -/
def parseToSendShuffleDataCommand : Reader WorkerError SendDataRequestCommand := do
  let requestId ← getI64
  let appId ← getString
  let shuffleId ← getI32
  let requireId ← getI64
  let partitionBatchSize ← getI32
  let partitions ← Reader.repeatRead parsePartitionBlocks partitionBatchSize.toNat
  let timestamp ← getI64
  return ⟨requestId, appId, shuffleId, partitions.foldl insertPartition [], requireId, timestamp⟩

/-- `parse_to_get_localfile_index_command`. -/
def parseToGetLocalfileIndexCommand : Reader WorkerError GetLocalDataIndexRequestCommand := do
  let requestId ← getI64
  let appId ← getString
  let shuffleId ← getI32
  let partitionId ← getI32
  let partitionNumPerRange ← getI32
  let partitionNum ← getI32
  return ⟨requestId, appId, shuffleId, partitionId, partitionNumPerRange, partitionNum⟩

/-- `parse_to_get_memory_data_command`. -/
def parseToGetMemoryDataCommand : Reader WorkerError GetMemoryDataRequestCommand := do
  let requestId ← getI64
  let appId ← getString
  let shuffleId ← getI32
  let partitionId ← getI32
  let lastBlockId ← getI64
  let readBufferSize ← getI32
  let timestamp ← getI64
  let expectedTaskBitmapRawOption ← getBytes
  return ⟨requestId, appId, shuffleId, partitionId, lastBlockId, readBufferSize,
    expectedTaskBitmapRawOption, timestamp⟩

/-- The parser `Frame::parse` runs for a known message type. -/
def parseMessage : MessageType → Reader WorkerError Frame
  | .getLocalData => return .getLocalData (← parseToGetLocalfileDataCommand)
  | .getLocalDataIndex => return .getLocalDataIndex (← parseToGetLocalfileIndexCommand)
  | .getMemoryData => return .getMemoryData (← parseToGetMemoryDataCommand)
  | .sendShuffleData => return .sendShuffleData (← parseToSendShuffleDataCommand)
  | .rpcResponse => do
      let requestId ← getI64
      let statusCode ← getI32
      let retMsg ← getString
      return .rpcResponse ⟨requestId, statusCode, retMsg⟩
  -- the three response types: `todo!()`
  | _ => Reader.panic

/-- `Frame::parse`. -/
def parse : Reader WorkerError Frame := do
  let encodeMsgLen ← getI32
  let msgType ← getU8
  let bodyLen ← getI32
  if (← Reader.remaining) < frameLength encodeMsgLen bodyLen then Reader.fail .streamAbnormal
  match MessageType.tryFrom msgType with
  | none => Reader.fail .streamMessageTypeNotFound
  | some messageType => parseMessage messageType

/-- `Connection::parse_frame` on the bytes buffered so far: `none` while
they hold no whole frame, otherwise the frame and the buffer after
`advance(len)`. -/
def Connection.parseFrame (buffer : List UInt8) :
    Except (Fault WorkerError) (Option (Frame × List UInt8)) :=
  match check ⟨buffer, 0⟩ with
  | .ok ((), checked) =>
      match parse ⟨buffer, 0⟩ with
      | .ok (frame, _) => .ok (some (frame, buffer.drop checked.position))
      | .error fault => .error fault
  | .error (.error .streamIncomplete) => .ok none
  | .error fault => .error fault

/-! ## Spec lemmas of the readers -/

variable {cursor : Cursor} {after : List UInt8}

theorem requireRemaining_of_pos (helper : String) (nonempty : 0 < cursor.remaining) :
    requireRemaining helper cursor = .ok ((), cursor) := by
  rw [requireRemaining, Reader.bind_of_ok (Reader.hasRemaining_apply cursor)]
  simp [nonempty]
  rfl

theorem requireRemaining_of_empty (helper : String) (empty : cursor.remaining = 0) :
    requireRemaining helper cursor = .error (.error (.streamIncorrect helper)) := by
  rw [requireRemaining, Reader.bind_of_ok (Reader.hasRemaining_apply cursor)]
  simp [empty]

theorem getFixed_of_pos {α : Type} (helper : String) (read : Reader WorkerError α)
    (nonempty : 0 < cursor.remaining) : getFixed helper read cursor = read cursor := by
  rw [getFixed, Reader.bind_of_ok (requireRemaining_of_pos helper nonempty)]

theorem getFixed_of_empty {α : Type} (helper : String) (read : Reader WorkerError α)
    (empty : cursor.remaining = 0) :
    getFixed helper read cursor = .error (.error (.streamIncorrect helper)) := by
  rw [getFixed, Reader.bind_of_error (requireRemaining_of_empty helper empty)]

theorem getI64_of_le (enough : 8 ≤ cursor.remaining) :
    getI64 cursor = .ok (decodeInt (cursor.chunk.take 8), cursor.advance 8) := by
  rw [getI64, getFixed_of_pos _ _ (by omega), Reader.readSigned_of_le enough]

theorem getI32_of_le (enough : 4 ≤ cursor.remaining) :
    getI32 cursor = .ok (decodeInt (cursor.chunk.take 4), cursor.advance 4) := by
  rw [getI32, getFixed_of_pos _ _ (by omega), Reader.readSigned_of_le enough]

theorem getU8_of_le (enough : 1 ≤ cursor.remaining) :
    getU8 cursor = .ok (decodeNat (cursor.chunk.take 1), cursor.advance 1) := by
  rw [getU8, getFixed_of_pos _ _ (by omega), Reader.readUnsigned_of_le enough]

/-- With some but not all of its eight bytes left, `get_i64` passes its
test and the read panics. -/
theorem getI64_of_lt (nonempty : 0 < cursor.remaining) (short : cursor.remaining < 8) :
    getI64 cursor = .error .panic := by
  rw [getI64, getFixed_of_pos _ _ nonempty, Reader.readSigned_of_lt short]

theorem getI64_encodeInt {value : Int} (inRange : InSignedRange 64 value)
    (starts : cursor.chunk = encodeInt 8 value ++ after) :
    getI64 cursor = .ok (value, cursor.advance 8) := by
  have enough := Cursor.remaining_of_chunk starts
  rw [length_encodeInt] at enough
  rw [getI64, getFixed_of_pos _ _ (by omega),
    Reader.readSigned_encodeInt (by decide : 0 < 8) inRange starts]

theorem getI32_encodeInt {value : Int} (inRange : InSignedRange 32 value)
    (starts : cursor.chunk = encodeInt 4 value ++ after) :
    getI32 cursor = .ok (value, cursor.advance 4) := by
  have enough := Cursor.remaining_of_chunk starts
  rw [length_encodeInt] at enough
  rw [getI32, getFixed_of_pos _ _ (by omega),
    Reader.readSigned_encodeInt (by decide : 0 < 4) inRange starts]

theorem getU8_encodeNat {value : Nat} (bounded : value < 256)
    (starts : cursor.chunk = encodeNat 1 value ++ after) :
    getU8 cursor = .ok (value, cursor.advance 1) := by
  have enough := Cursor.remaining_of_chunk starts
  rw [length_encodeNat] at enough
  rw [getU8, getFixed_of_pos _ _ (by omega), Reader.readUnsigned_encodeNat (by simpa using bounded) starts]

theorem skip_of_le {count : Nat} (enough : count ≤ cursor.remaining) :
    skip count cursor = .ok ((), cursor.advance count) := by
  rw [skip, Reader.bind_of_ok (Reader.remaining_apply cursor), if_neg (by omega)]
  exact Reader.advance_of_le enough

/-- `get_string` of a chunk that starts with the length-prefixed UTF-8
bytes of a string returns the string. -/
theorem getString_utf8 {text : String} (fits : (utf8Bytes text).length < 2 ^ 31)
    (starts : cursor.chunk = encodeInt 4 (utf8Bytes text).length ++ utf8Bytes text ++ after) :
    getString cursor = .ok (text, cursor.advance (4 + (utf8Bytes text).length)) := by
  have lengthRange : InSignedRange 32 ((utf8Bytes text).length : Int) :=
    InSignedRange.of_nonneg (Int.natCast_nonneg _) (by norm_num; omega)
  have enough := Cursor.remaining_of_chunk starts
  simp only [List.length_append, length_encodeInt] at enough
  rw [List.append_assoc] at starts
  have pastLength := Cursor.chunk_advance_append starts
  rw [length_encodeInt] at pastLength
  rw [getString, Reader.bind_of_ok (requireRemaining_of_pos _ (by omega)),
    Reader.bind_of_ok (getI32_encodeInt lengthRange starts), toUnsigned_natCast (by omega)]
  by_cases noBytes : (utf8Bytes text).length = 0
  · rw [if_pos noBytes, noBytes, eq_empty_of_utf8Bytes_eq_nil (List.length_eq_zero_iff.mp noBytes)]
    rfl
  · rw [if_neg noBytes, Reader.bind_of_ok (Reader.remaining_apply _), Cursor.remaining_advance,
      if_neg (by omega)]
    dsimp only
    rw [Reader.bind_of_ok (Reader.peek_append pastLength),
      Reader.bind_of_ok (skip_of_le (by simp only [Cursor.remaining_advance]; omega)),
      decodeUtf8_utf8Bytes, Cursor.advance_advance]
    rfl

/-! ## What a header declares -/

/-- The `content_length` field at the front of a chunk, as `get_i32` reads it. -/
def headerMsgLen (bytes : List UInt8) : Int :=
  decodeInt (bytes.take 4)

/-- The `message_type` field. -/
def headerMsgType (bytes : List UInt8) : Nat :=
  decodeNat ((bytes.drop 4).take 1)

/-- The `body_length` field. -/
def headerBodyLen (bytes : List UInt8) : Int :=
  decodeInt ((bytes.drop 5).take 4)

/-- The number of bytes past the header that a header declares, as `check`
computes it. -/
def declaredLength (bytes : List UInt8) : Nat :=
  frameLength (headerMsgLen bytes) (headerBodyLen bytes)

/-- The three reads of a header, with which both `check` and `parse` begin. -/
theorem header_apply {β : Type} (enough : headerLen ≤ cursor.remaining)
    (rest : Int → Nat → Int → Reader WorkerError β) :
    (getI32 >>= fun msgLen => getU8 >>= fun msgType => getI32 >>= fun bodyLen =>
        rest msgLen msgType bodyLen) cursor =
      rest (headerMsgLen cursor.chunk) (headerMsgType cursor.chunk) (headerBodyLen cursor.chunk)
        (cursor.advance headerLen) := by
  unfold headerLen at enough
  have pastHeader : ((cursor.advance 4).advance 1).advance 4 = cursor.advance headerLen := by
    rw [Cursor.advance_advance, Cursor.advance_advance]
    rfl
  rw [Reader.bind_of_ok (getI32_of_le (by omega)),
    Reader.bind_of_ok (getU8_of_le (by simp only [Cursor.remaining_advance]; omega)),
    Reader.bind_of_ok (getI32_of_le (by simp only [Cursor.remaining_advance]; omega)), pastHeader]
  simp only [Cursor.chunk_advance, List.drop_drop, headerMsgLen, headerMsgType, headerBodyLen]

/-- `Frame::check` on every cursor: `STREAM_INCOMPLETE` while the header
and the length it declares are not all there, and otherwise a move past
exactly them. -/
theorem check_eq (cursor : Cursor) :
    check cursor =
      if cursor.remaining < headerLen + declaredLength cursor.chunk then
        .error (.error .streamIncomplete)
      else .ok ((), cursor.advance (headerLen + declaredLength cursor.chunk)) := by
  rw [check, Reader.bind_of_ok (Reader.remaining_apply cursor)]
  by_cases short : cursor.remaining < headerLen
  · rw [if_pos short, if_pos (by omega)]
    rfl
  · rw [if_neg short]
    dsimp only
    rw [header_apply (by omega), Reader.bind_of_ok (Reader.remaining_apply _),
      Cursor.remaining_advance]
    by_cases incomplete : cursor.remaining < headerLen + declaredLength cursor.chunk
    · rw [if_pos (by unfold declaredLength at incomplete; omega), if_pos incomplete]
      rfl
    · rw [if_neg (by unfold declaredLength at incomplete; omega), if_neg incomplete,
        skip_of_le (by simp only [Cursor.remaining_advance]; unfold declaredLength at incomplete; omega),
        Cursor.advance_advance]
      rfl

/-- `check` never panics, and its only error is `STREAM_INCOMPLETE`. -/
theorem check_error {fault : Fault WorkerError} (failed : check cursor = .error fault) :
    fault = .error .streamIncomplete := by
  rw [check_eq] at failed
  split at failed
  · cases failed
    rfl
  · cases failed

/-- `parse_frame` on every buffer: `None` while no whole frame is buffered,
and otherwise what `parse` makes of the whole buffer, with the buffer
advanced past the frame `check` measured. -/
theorem parseFrame_eq (buffer : List UInt8) :
    Connection.parseFrame buffer =
      if buffer.length < headerLen + declaredLength buffer then .ok none
      else
        match parse ⟨buffer, 0⟩ with
        | .ok (frame, _) => .ok (some (frame, buffer.drop (headerLen + declaredLength buffer)))
        | .error fault => .error fault := by
  have chunkStart : (⟨buffer, 0⟩ : Cursor).chunk = buffer := List.drop_zero
  have remainingStart : (⟨buffer, 0⟩ : Cursor).remaining = buffer.length := Nat.sub_zero _
  unfold Connection.parseFrame
  rw [check_eq, chunkStart, remainingStart]
  by_cases incomplete : buffer.length < headerLen + declaredLength buffer
  · rw [if_pos incomplete, if_pos incomplete]
  · rw [if_neg incomplete, if_neg incomplete]
    simp only [Cursor.position_advance, Nat.zero_add]

/-- A frame that `parse_frame` returns consumed the header and the length
the header declares, as `i32` arithmetic computes it. -/
theorem parseFrame_advance {buffer rest : List UInt8} {frame : Frame}
    (parsed : Connection.parseFrame buffer = .ok (some (frame, rest))) :
    headerLen + declaredLength buffer ≤ buffer.length ∧
      rest = buffer.drop (headerLen + declaredLength buffer) := by
  rw [parseFrame_eq] at parsed
  split at parsed
  · cases parsed
  · split at parsed
    · cases parsed
      exact ⟨by omega, rfl⟩
    · cases parsed

/-! ## Encoded headers -/

/-- A header: `content_length`, `message_type` and `body_length`. -/
def header (contentLength : Int) (messageType : Nat) (bodyLength : Int) : List UInt8 :=
  encodeInt 4 contentLength ++ encodeNat 1 messageType ++ encodeInt 4 bodyLength

section EncodedHeader

variable {contentLength bodyLength : Int} {messageType : Nat}

@[simp]
theorem length_header : (header contentLength messageType bodyLength).length = headerLen := by
  simp [header, headerLen]

theorem headerMsgLen_header (contentRange : InSignedRange 32 contentLength) (rest : List UInt8) :
    headerMsgLen (header contentLength messageType bodyLength ++ rest) = contentLength := by
  rw [headerMsgLen, header, List.append_assoc, List.append_assoc,
    List.take_left' (length_encodeInt _ _), decodeInt_encodeInt (by decide : 0 < 4) contentRange]

theorem headerMsgType_header (typeBound : messageType < 256) (rest : List UInt8) :
    headerMsgType (header contentLength messageType bodyLength ++ rest) = messageType := by
  rw [headerMsgType, header, List.append_assoc, List.append_assoc,
    List.drop_left' (length_encodeInt _ _), List.take_left' (length_encodeNat _ _),
    decodeNat_encodeNat, Nat.mod_eq_of_lt (by simpa using typeBound)]

theorem headerBodyLen_header (bodyRange : InSignedRange 32 bodyLength) (rest : List UInt8) :
    headerBodyLen (header contentLength messageType bodyLength ++ rest) = bodyLength := by
  have frontLength : (encodeInt 4 contentLength ++ encodeNat 1 messageType).length = 5 := by simp
  rw [headerBodyLen, header, List.append_assoc, List.drop_left' frontLength,
    List.take_left' (length_encodeInt _ _), decodeInt_encodeInt (by decide : 0 < 4) bodyRange]

/-- The frame length a header declares, when the two lengths are sizes whose
sum fits an `i32`. -/
theorem declaredLength_header (messageType : Nat) {contentSize dataSize : Nat}
    (fits : contentSize + dataSize < 2 ^ 31) (rest : List UInt8) :
    declaredLength (header contentSize messageType dataSize ++ rest) = contentSize + dataSize := by
  have inRange : ∀ size : Nat, size < 2 ^ 31 → InSignedRange 32 (size : Int) := by
    intro size small
    exact InSignedRange.of_nonneg (Int.natCast_nonneg _) (by norm_num; omega)
  rw [declaredLength, headerMsgLen_header (inRange _ (by omega)),
    headerBodyLen_header (inRange _ (by omega)), frameLength, ← Nat.cast_add,
    wrapSigned_of_inRange (by decide) (inRange _ fits), toUnsigned_natCast (by omega)]

/-- `check` moves past exactly a frame laid out as its header says. -/
theorem check_header_append {contentSize dataSize : Nat} {content data : List UInt8}
    (contentSized : content.length = contentSize)
    (dataSized : data.length = dataSize) (fits : contentSize + dataSize < 2 ^ 31)
    (rest : List UInt8) :
    check ⟨header contentSize messageType dataSize ++ content ++ data ++ rest, 0⟩ =
      .ok ((), ⟨header contentSize messageType dataSize ++ content ++ data ++ rest,
        headerLen + contentSize + dataSize⟩) := by
  have declared := declaredLength_header messageType fits (content ++ data ++ rest)
  simp only [List.append_assoc] at declared ⊢
  rw [check_eq, if_neg]
  · simp only [Cursor.chunk, List.drop_zero, declared, Cursor.advance, Nat.zero_add, Nat.add_assoc]
  · simp only [Cursor.remaining, Cursor.chunk, List.drop_zero, declared, List.length_append,
      length_header, contentSized, dataSized]
    omega

end EncodedHeader

/-- `Frame::parse` on a cursor that holds a header: `STREAM_ABNORMAL` when
the declared length is not all there, then the message type's parser. -/
theorem parse_eq (enough : headerLen ≤ cursor.remaining) :
    parse cursor =
      if cursor.remaining < headerLen + declaredLength cursor.chunk then
        .error (.error .streamAbnormal)
      else
        match MessageType.tryFrom (headerMsgType cursor.chunk) with
        | none => .error (.error .streamMessageTypeNotFound)
        | some messageType => parseMessage messageType (cursor.advance headerLen) := by
  rw [parse, header_apply enough, Reader.bind_of_ok (Reader.remaining_apply _),
    Cursor.remaining_advance]
  by_cases incomplete : cursor.remaining < headerLen + declaredLength cursor.chunk
  · rw [if_pos (by unfold declaredLength at incomplete; omega), if_pos incomplete]
    rfl
  · rw [if_neg (by unfold declaredLength at incomplete; omega), if_neg incomplete]
    split <;> rfl

/-! ## Requests shorter than their fields -/

/-- A `GetLocalDataIndex` frame whose content holds some but not all eight
bytes of its `request_id`: `check` passes it, `get_i64` finds a byte left,
and the read of the `i64` panics. -/
theorem parseFrame_short_index_request {content : List UInt8} (nonempty : 0 < content.length)
    (short : content.length < 8) :
    Connection.parseFrame (header content.length MessageType.getLocalDataIndex.code 0 ++ content) =
      .error .panic := by
  have typeBound := MessageType.code_lt .getLocalDataIndex
  have declared := declaredLength_header MessageType.getLocalDataIndex.code
    (by omega : content.length + 0 < 2 ^ 31) content
  rw [Nat.cast_zero, Nat.add_zero] at declared
  have chunkStart : (⟨header content.length MessageType.getLocalDataIndex.code 0 ++ content, 0⟩ : Cursor).chunk =
      header content.length MessageType.getLocalDataIndex.code 0 ++ content := List.drop_zero
  have remainingStart :
      (⟨header content.length MessageType.getLocalDataIndex.code 0 ++ content, 0⟩ : Cursor).remaining =
        headerLen + content.length := by
    simp [Cursor.remaining]
  have pastHeader :
      ((⟨header content.length MessageType.getLocalDataIndex.code 0 ++ content, 0⟩ : Cursor).advance
        headerLen).remaining = content.length := by
    rw [Cursor.remaining_advance, remainingStart]
    omega
  have parsed : parse ⟨header content.length MessageType.getLocalDataIndex.code 0 ++ content, 0⟩ =
      .error .panic := by
    rw [parse_eq (by omega), chunkStart, declared, if_neg (by omega), headerMsgType_header typeBound,
      MessageType.tryFrom_code]
    dsimp only
    rw [parseMessage, Reader.bind_of_error (by rw [parseToGetLocalfileIndexCommand,
      Reader.bind_of_error (getI64_of_lt (by omega) (by omega))])]
  rw [parseFrame_eq, declared, if_neg (by simp), parsed]

theorem parseFrame_panics_in_get_i64 :
    Connection.parseFrame [0, 0, 0, 1, 4, 0, 0, 0, 0, 7] = .error .panic := by
  have oneByteContent : [0, 0, 0, 1, 4, 0, 0, 0, 0, 7] =
      header ([7] : List UInt8).length MessageType.getLocalDataIndex.code 0 ++ [7] := by
    decide
  rw [oneByteContent]
  exact parseFrame_short_index_request (by decide) (by decide)

end Riffle.Urpc

import Riffle.Urpc.Frame
import Riffle.Store.MemoryRead

/-!
# `Frame::write` against the decoder

`Frame::write` of `src/urpc/frame.rs` for the four responses it writes.
Each writes its header, then the general response info (`request_id`,
`status_code`, and `ret_msg` after its length), then what its type adds,
then its data.  The header's lengths are computed apart from the writes:
byte counts cast `as i32` and added as `i32`, which wraps in the release
build.  A memory response declares `BytesWrapper::len` as its data length,
which for composed bytes is the total recorded when they were composed, and
writes the chunks themselves.

`ResponseParts` splits a response into the content and the data its header
should count.  `write_eq_header` says that the header counts them when a
memory answer's recorded total is the number of its bytes and the two
lengths together fit an `i32`; `check` then moves past exactly the written
frame (`check_header_append`), and a written `RpcResponse` parses back
(`parse_write_rpcResponse`).  `MemoryBuffer.pageAnswer` records the declared
lengths of the blocks it composes, so a block declared longer than its bytes
breaks the first condition.
-/

namespace Riffle.Urpc

open Riffle.FixedWidth Riffle.ByteCursor Riffle.Store

/-- A `usize` count cast `as i32`. -/
def lengthAsI32 (count : Nat) : Int :=
  wrapSigned 32 count

/-- `i32` addition in the release build. -/
def addI32 (left right : Int) : Int :=
  wrapSigned 32 (left + right)

/-- `write_i64`. -/
def writeI64 (value : Int) : List UInt8 :=
  encodeInt 8 value

/-- `write_i32`. -/
def writeI32 (value : Int) : List UInt8 :=
  encodeInt 4 value

/-- `write_u8`. -/
def writeU8 (value : Nat) : List UInt8 :=
  encodeNat 1 value

/-- What every response writes first after its header: `request_id`,
`status_code`, and the message after its length. -/
def writeResponseInfo (requestId statusCode : Int) (msgBytes : List UInt8) : List UInt8 :=
  writeI64 requestId ++ writeI32 statusCode ++ writeI32 (lengthAsI32 msgBytes.length) ++ msgBytes

/-- One segment of a memory response; its `offset` is cast `as i32`. -/
def writeSegment (segment : DataSegment) : List UInt8 :=
  writeI64 segment.blockId ++ writeI32 (wrapSigned 32 segment.offset) ++ writeI32 segment.length ++
    writeI32 segment.uncompressLength ++ writeI64 segment.crc ++ writeI64 segment.taskAttemptId

/-- `segments_encode_len`: `(4 + segments.len() * (3 * 8 + 3 * 4)) as i32`,
computed on `usize`. -/
def segmentsEncodeLen (count : Nat) : Int :=
  lengthAsI32 ((4 + count * (3 * 8 + 3 * 4)) % 2 ^ 64)

/-- `Frame::write`: the bytes it writes for a frame, `none` where it panics
(`todo!()` for the requests, `panic!` for a memory response that holds local
data). -/
def Frame.write : Frame → Option (List UInt8)
  | .getLocalDataResponse resp =>
      let msgBytes := utf8Bytes resp.retMsg
      some (writeI32 (addI32 (addI32 (addI32 (lengthAsI32 msgBytes.length) 8) 4) 4) ++
        writeU8 MessageType.getLocalDataResponse.code ++ writeI32 (lengthAsI32 resp.data.length) ++
        writeResponseInfo resp.requestId resp.statusCode msgBytes ++ resp.data)
  | .getLocalDataIndexResponse resp =>
      let msgBytes := utf8Bytes resp.retMsg
      let indexBytes := resp.dataIndex.indexData
      some (writeI32 (addI32 (addI32 (addI32 (addI32 (lengthAsI32 msgBytes.length) 8) 4) 4) 8) ++
        writeU8 MessageType.getLocalDataIndexResponse.code ++ writeI32 (lengthAsI32 indexBytes.length) ++
        writeResponseInfo resp.requestId resp.statusCode msgBytes ++
        writeI64 resp.dataIndex.dataFileLen ++ indexBytes)
  | .getMemoryDataResponse resp =>
      match resp.data with
      | .mem memData =>
          let msgBytes := utf8Bytes resp.retMsg
          let dataBytesLen := lengthAsI32 memData.data.len
          let segments := memData.shuffleDataBlockSegments
          some (writeI32 (addI32 (addI32 (addI32 (addI32 (lengthAsI32 msgBytes.length) 8) 4) 4)
              (segmentsEncodeLen segments.length)) ++
            writeU8 MessageType.getMemoryDataResponse.code ++ writeI32 dataBytesLen ++
            writeResponseInfo resp.requestId resp.statusCode msgBytes ++
            writeI32 (lengthAsI32 segments.length) ++ segments.flatMap writeSegment ++
            memData.data.alwaysComposed.composed.flatten)
      | .local _ => none
  | .rpcResponse resp =>
      let msgBytes := utf8Bytes resp.retMsg
      some (writeI32 (addI32 (addI32 (addI32 (lengthAsI32 msgBytes.length) 8) 4) 4) ++
        writeU8 MessageType.rpcResponse.code ++ writeI32 0 ++
        writeResponseInfo resp.requestId resp.statusCode msgBytes)
  | _ => none

/-! ## What a response sends -/

/-- What a response sends after its header: its message type, the content
that `content_length` should count and the data that `body_length` should
count. -/
structure ResponseParts where
  messageType : MessageType
  content : List UInt8
  data : List UInt8

/-- The parts of each response; `none` for a request and for a memory
response that holds local data. -/
def Frame.responseParts : Frame → Option ResponseParts
  | .getLocalDataResponse resp =>
      some ⟨.getLocalDataResponse,
        writeResponseInfo resp.requestId resp.statusCode (utf8Bytes resp.retMsg), resp.data⟩
  | .getLocalDataIndexResponse resp =>
      some ⟨.getLocalDataIndexResponse,
        writeResponseInfo resp.requestId resp.statusCode (utf8Bytes resp.retMsg) ++
          writeI64 resp.dataIndex.dataFileLen,
        resp.dataIndex.indexData⟩
  | .getMemoryDataResponse resp =>
      match resp.data with
      | .mem memData =>
          some ⟨.getMemoryDataResponse,
            writeResponseInfo resp.requestId resp.statusCode (utf8Bytes resp.retMsg) ++
              writeI32 (lengthAsI32 memData.shuffleDataBlockSegments.length) ++
              memData.shuffleDataBlockSegments.flatMap writeSegment,
            memData.data.freeze⟩
      | .local _ => none
  | .rpcResponse resp =>
      some ⟨.rpcResponse, writeResponseInfo resp.requestId resp.statusCode (utf8Bytes resp.retMsg), []⟩
  | _ => none

/-- A memory answer whose recorded length is the number of its bytes; a
local answer has nothing recorded. -/
def ResponseData.Consistent : ResponseData → Prop
  | .mem memData => memData.data.len = memData.data.freeze.length
  | .local _ => True

instance ResponseData.decidableConsistent : (data : ResponseData) → Decidable data.Consistent
  | .mem _ => inferInstanceAs (Decidable (_ = _))
  | .local _ => inferInstanceAs (Decidable True)

/-- The data of a frame is consistent: only a memory response records a
length of its own. -/
def Frame.DataConsistent : Frame → Prop
  | .getMemoryDataResponse resp => resp.data.Consistent
  | _ => True

instance Frame.decidableDataConsistent : (frame : Frame) → Decidable frame.DataConsistent
  | .getMemoryDataResponse resp => inferInstanceAs (Decidable resp.data.Consistent)
  | .sendShuffleData _ => inferInstanceAs (Decidable True)
  | .getMemoryData _ => inferInstanceAs (Decidable True)
  | .getLocalDataIndex _ => inferInstanceAs (Decidable True)
  | .getLocalDataIndexResponse _ => inferInstanceAs (Decidable True)
  | .getLocalData _ => inferInstanceAs (Decidable True)
  | .getLocalDataResponse _ => inferInstanceAs (Decidable True)
  | .rpcResponse _ => inferInstanceAs (Decidable True)

/-! ## The header counts what follows it -/

section Arithmetic

theorem i32Range_of_small {value : Int} (nonneg : 0 ≤ value) (small : value < 2 ^ 31) :
    InSignedRange 32 value :=
  InSignedRange.of_nonneg nonneg small

theorem lengthAsI32_of_lt {count : Nat} (small : count < 2 ^ 31) : lengthAsI32 count = count :=
  wrapSigned_of_inRange (by decide) (i32Range_of_small (by omega) (by omega))

theorem addI32_of_small {left right : Int} (nonneg : 0 ≤ left + right)
    (small : left + right < 2 ^ 31) : addI32 left right = left + right :=
  wrapSigned_of_inRange (by decide) (i32Range_of_small nonneg small)

theorem segmentsEncodeLen_of_small {count : Nat} (small : 4 + count * 36 < 2 ^ 31) :
    segmentsEncodeLen count = ((4 + count * 36 : Nat) : Int) := by
  rw [segmentsEncodeLen, Nat.mod_eq_of_lt (by omega)]
  exact lengthAsI32_of_lt small

@[simp]
theorem length_writeResponseInfo (requestId statusCode : Int) (msgBytes : List UInt8) :
    (writeResponseInfo requestId statusCode msgBytes).length = 16 + msgBytes.length := by
  simp [writeResponseInfo, writeI64, writeI32]
  omega

@[simp]
theorem length_writeSegment (segment : DataSegment) : (writeSegment segment).length = 36 := by
  simp [writeSegment, writeI64, writeI32]

theorem length_flatMap_writeSegment (segments : List DataSegment) :
    (segments.flatMap writeSegment).length = segments.length * 36 := by
  rw [List.length_flatMap]
  simp

/-- The content length every response declares before what its type adds:
the message's length cast `as i32`, then `+ 8 + 4 + 4`. -/
theorem infoLength_declared {msgLength : Nat} (small : 16 + msgLength < 2 ^ 31) :
    addI32 (addI32 (addI32 (lengthAsI32 msgLength) 8) 4) 4 = ((16 + msgLength : Nat) : Int) := by
  calc addI32 (addI32 (addI32 (lengthAsI32 msgLength) 8) 4) 4
      = addI32 (addI32 ((msgLength : Int) + 8) 4) 4 := by
        rw [lengthAsI32_of_lt (by omega), @addI32_of_small (msgLength : Int) 8 (by omega) (by omega)]
    _ = addI32 ((msgLength : Int) + 8 + 4) 4 := by
        rw [@addI32_of_small ((msgLength : Int) + 8) 4 (by omega) (by omega)]
    _ = (msgLength : Int) + 8 + 4 + 4 := addI32_of_small (by omega) (by omega)
    _ = ((16 + msgLength : Nat) : Int) := by
        push_cast
        ring

end Arithmetic

/-- `Frame::write` lays a response out as its parts under a header that
counts them, when a memory answer's recorded length is the number of its
bytes and the content and the data together fit an `i32`. -/
theorem write_eq_header {frame : Frame} {parts : ResponseParts}
    (response : frame.responseParts = some parts) (consistent : frame.DataConsistent)
    (fits : parts.content.length + parts.data.length < 2 ^ 31) :
    frame.write = some (header parts.content.length parts.messageType.code parts.data.length ++
      parts.content ++ parts.data) := by
  cases frame with
  | getLocalDataResponse resp =>
      obtain rfl := Option.some.inj response.symm
      simp only [length_writeResponseInfo] at fits ⊢
      have info := @infoLength_declared (utf8Bytes resp.retMsg).length (by omega)
      have dataDeclared := @lengthAsI32_of_lt resp.data.length (by omega)
      simp only [Frame.write, info, dataDeclared]
      simp [header, writeI32, writeU8]
  | getLocalDataIndexResponse resp =>
      obtain rfl := Option.some.inj response.symm
      have fileLenBytes : (writeI64 resp.dataIndex.dataFileLen).length = 8 := by simp [writeI64]
      simp only [List.length_append, length_writeResponseInfo, fileLenBytes] at fits ⊢
      have info := @infoLength_declared (utf8Bytes resp.retMsg).length (by omega)
      have contentDeclared : addI32 ((16 + (utf8Bytes resp.retMsg).length : Nat) : Int) 8 =
          ((16 + (utf8Bytes resp.retMsg).length + 8 : Nat) : Int) := by
        rw [addI32_of_small (by omega) (by omega)]
        push_cast
        rfl
      have dataDeclared := @lengthAsI32_of_lt resp.dataIndex.indexData.length (by omega)
      simp only [Frame.write, info, contentDeclared, dataDeclared]
      simp [header, writeI32, writeU8]
  | getMemoryDataResponse resp =>
      cases data : resp.data with
      | «local» bytes =>
          simp [Frame.responseParts, data] at response
      | mem memData =>
          simp only [Frame.responseParts, data, Option.some.injEq] at response
          subst response
          simp only [Frame.DataConsistent, data, ResponseData.Consistent] at consistent
          have countBytes : (writeI32 (lengthAsI32 memData.shuffleDataBlockSegments.length)).length = 4 := by
            simp [writeI32]
          simp only [List.length_append, length_writeResponseInfo, length_flatMap_writeSegment,
            countBytes] at fits ⊢
          have info := @infoLength_declared (utf8Bytes resp.retMsg).length (by omega)
          have contentDeclared :
              addI32 ((16 + (utf8Bytes resp.retMsg).length : Nat) : Int)
                  (segmentsEncodeLen memData.shuffleDataBlockSegments.length) =
                ((16 + (utf8Bytes resp.retMsg).length + 4 + memData.shuffleDataBlockSegments.length * 36 :
                  Nat) : Int) := by
            rw [segmentsEncodeLen_of_small (by omega), addI32_of_small (by omega) (by omega)]
            push_cast
            ring
          have dataDeclared := @lengthAsI32_of_lt memData.data.freeze.length (by omega)
          simp only [Frame.write, data, info, contentDeclared, consistent, dataDeclared,
            BytesWrapper.flatten_alwaysComposed]
          simp [header, writeI32, writeU8]
  | rpcResponse resp =>
      obtain rfl := Option.some.inj response.symm
      simp only [length_writeResponseInfo, List.length_nil] at fits ⊢
      have info := @infoLength_declared (utf8Bytes resp.retMsg).length (by omega)
      simp only [Frame.write, info]
      simp [header, writeI32, writeU8]
  | sendShuffleData _ => simp [Frame.responseParts] at response
  | getMemoryData _ => simp [Frame.responseParts] at response
  | getLocalDataIndex _ => simp [Frame.responseParts] at response
  | getLocalData _ => simp [Frame.responseParts] at response

/-- A written `RpcResponse`, whatever follows it, parses back to the same
command, with the cursor just past it. -/
theorem parse_write_rpcResponse {command : RpcResponseCommand}
    (requestRange : InSignedRange 64 command.requestId)
    (statusRange : InSignedRange 32 command.statusCode)
    (fits : 16 + (utf8Bytes command.retMsg).length < 2 ^ 31) (rest : List UInt8) :
    parse ⟨header (writeResponseInfo command.requestId command.statusCode (utf8Bytes command.retMsg)).length
        MessageType.rpcResponse.code 0 ++
        writeResponseInfo command.requestId command.statusCode (utf8Bytes command.retMsg) ++ rest, 0⟩ =
      .ok (.rpcResponse command,
        ⟨header (writeResponseInfo command.requestId command.statusCode (utf8Bytes command.retMsg)).length
          MessageType.rpcResponse.code 0 ++
          writeResponseInfo command.requestId command.statusCode (utf8Bytes command.retMsg) ++ rest,
        headerLen + 16 + (utf8Bytes command.retMsg).length⟩) := by
  obtain ⟨requestId, statusCode, retMsg⟩ := command
  dsimp only at requestRange statusRange fits ⊢
  have infoLength := length_writeResponseInfo requestId statusCode (utf8Bytes retMsg)
  have declared := declaredLength_header MessageType.rpcResponse.code
    (by omega : (writeResponseInfo requestId statusCode (utf8Bytes retMsg)).length + 0 < 2 ^ 31)
    (writeResponseInfo requestId statusCode (utf8Bytes retMsg) ++ rest)
  rw [Nat.cast_zero, Nat.add_zero, ← List.append_assoc] at declared
  have afterHeader := Cursor.chunk_advance_of_length
    (by rw [Cursor.chunk_zero, List.append_assoc] :
      (⟨header (writeResponseInfo requestId statusCode (utf8Bytes retMsg)).length
          MessageType.rpcResponse.code 0 ++ writeResponseInfo requestId statusCode (utf8Bytes retMsg) ++ rest,
        0⟩ : Cursor).chunk = _ ++ (writeResponseInfo requestId statusCode (utf8Bytes retMsg) ++ rest))
    length_header
  have bufferLength : (header (writeResponseInfo requestId statusCode (utf8Bytes retMsg)).length
      MessageType.rpcResponse.code 0 ++ writeResponseInfo requestId statusCode (utf8Bytes retMsg) ++
        rest).length = headerLen + (writeResponseInfo requestId statusCode (utf8Bytes retMsg)).length +
          rest.length := by
    simp only [List.length_append, length_header]
  have typeRead : headerMsgType (header (writeResponseInfo requestId statusCode (utf8Bytes retMsg)).length
      MessageType.rpcResponse.code 0 ++ writeResponseInfo requestId statusCode (utf8Bytes retMsg) ++
        rest) = MessageType.rpcResponse.code := by
    rw [List.append_assoc]
    exact headerMsgType_header (MessageType.code_lt _) _
  rw [parse_eq (by rw [Cursor.remaining_zero, bufferLength]; omega), Cursor.chunk_zero, declared,
    Cursor.remaining_zero, bufferLength, if_neg (by omega), typeRead, MessageType.tryFrom_code]
  dsimp only
  -- the content: `request_id`, `status_code`, then the message after its length
  have contentBytes : writeResponseInfo requestId statusCode (utf8Bytes retMsg) ++ rest =
      encodeInt 8 requestId ++ (encodeInt 4 statusCode ++
        (encodeInt 4 (utf8Bytes retMsg).length ++ utf8Bytes retMsg ++ rest)) := by
    rw [writeResponseInfo, lengthAsI32_of_lt (by omega), writeI64, writeI32, writeI32]
    simp only [List.append_assoc]
  replace afterHeader := afterHeader.trans contentBytes
  have afterRequestId := Cursor.chunk_advance_of_length afterHeader (length_encodeInt 8 requestId)
  have afterStatus := Cursor.chunk_advance_of_length afterRequestId (length_encodeInt 4 statusCode)
  rw [parseMessage, Reader.bind_of_ok (getI64_encodeInt requestRange afterHeader),
    Reader.bind_of_ok (getI32_encodeInt statusRange afterRequestId),
    Reader.bind_of_ok (getString_utf8 (by omega) afterStatus), Reader.pure_apply]
  have pastResponse : headerLen + (8 + (4 + (4 + (utf8Bytes retMsg).length))) =
      headerLen + 16 + (utf8Bytes retMsg).length := by
    omega
  rw [Cursor.advance_advance, Cursor.advance_advance, Cursor.advance_advance, Cursor.advance_start,
    pastResponse]

theorem write_agrees_with_decoder {frame : Frame} {parts : ResponseParts}
    (response : frame.responseParts = some parts) (consistent : frame.DataConsistent)
    (fits : parts.content.length + parts.data.length < 2 ^ 31) (rest : List UInt8) :
    ∃ bytes, frame.write = some bytes ∧
      bytes = header parts.content.length parts.messageType.code parts.data.length ++
        parts.content ++ parts.data ∧
      check ⟨bytes ++ rest, 0⟩ = .ok ((), ⟨bytes ++ rest, bytes.length⟩) ∧
      ∀ command, frame = .rpcResponse command → InSignedRange 64 command.requestId →
        InSignedRange 32 command.statusCode →
        parse ⟨bytes ++ rest, 0⟩ = .ok (frame, ⟨bytes ++ rest, bytes.length⟩) := by
  have written := write_eq_header response consistent fits
  refine ⟨_, written, rfl, ?_, ?_⟩
  · rw [check_header_append rfl rfl fits rest]
    simp only [List.length_append, length_header]
  · rintro command rfl requestRange statusRange
    obtain rfl := Option.some.inj response.symm
    simp only [length_writeResponseInfo, List.length_nil] at fits
    simp only [List.length_nil, Nat.cast_zero, List.append_nil]
    rw [parse_write_rpcResponse requestRange statusRange (by omega) rest]
    simp only [List.length_append, length_header, length_writeResponseInfo, Nat.add_assoc]

theorem write_agrees_with_decoder_okResponse :
    ∃ bytes, (Frame.rpcResponse ⟨7, 0, "ok"⟩).write = some bytes ∧
      check ⟨bytes, 0⟩ = .ok ((), ⟨bytes, bytes.length⟩) ∧
      parse ⟨bytes, 0⟩ = .ok (.rpcResponse ⟨7, 0, "ok"⟩, ⟨bytes, bytes.length⟩) := by
  obtain ⟨bytes, written, -, checked, parsed⟩ :=
    @write_agrees_with_decoder (.rpcResponse ⟨7, 0, "ok"⟩) _ rfl trivial (by decide +kernel) []
  rw [List.append_nil] at checked parsed
  exact ⟨bytes, written, checked, parsed _ rfl (by decide) (by decide)⟩

/-- A block that declares 5 bytes and carries 3. -/
def overDeclaredBlock : Block := ⟨1, 5, 5, 0, [1, 2, 3], 0⟩

theorem write_declares_recorded_length :
    ∃ bytes, (Frame.getMemoryDataResponse
        ⟨0, 0, "", .mem (MemoryBuffer.pageAnswer [overDeclaredBlock])⟩).write = some bytes ∧
      headerBodyLen bytes = 5 ∧ bytes.length = headerLen + (headerMsgLen bytes).toNat + 3 ∧
      check ⟨bytes, 0⟩ = .error (.error .streamIncomplete) := by
  refine ⟨_, rfl, ?_, ?_, ?_⟩ <;> decide +kernel

end Riffle.Urpc

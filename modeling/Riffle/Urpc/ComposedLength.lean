import Riffle.Urpc.Write
import Riffle.Local.ShuffleFormat
import Riffle.Store.MemoryStore

/-!
# The recorded length of composed bytes

`ComposedBytes` (`src/composed_bytes.rs`) keeps its parts and a `total_len`
that `ComposedBytes::from` takes from its caller and `put` keeps up to date.
`len()` returns the recorded total and `freeze()` the parts, and the urpc
`GetMemoryDataResponse` writes `len()` as its `body_length` before the parts.
`Consistent` is the representation invariant: the total is the sum of the
lengths of the parts.

`put` and `always_composed` keep it.  `get_v2` and `create_shuffle_format`
compose the blocks' bytes under the sum of their declared lengths, so they
keep it for blocks whose declared length is the length of their bytes
(`Block.WellFormed`), and then a memory response's `body_length` counts the
bytes it writes (`composed_bytes_consistent`).  Neither receive path checks
that: the urpc decoder reads a block's length and its bytes apart, and
`PartitionedData::from` copies both fields of the gRPC message.  A block that
declares 5 bytes and carries 3 is decoded, buffered and composed under a
total of 5 (`decoded_block_breaks_composed_length`).
-/

namespace Riffle.Store

open Riffle.FixedWidth Riffle.Local

/-- The representation invariant of `ComposedBytes`: the recorded total is
the sum of the lengths of the parts. -/
def ComposedBytes.Consistent (bytes : ComposedBytes) : Prop :=
  bytes.totalLen = (bytes.composed.map List.length).sum

instance (bytes : ComposedBytes) : Decidable bytes.Consistent :=
  inferInstanceAs (Decidable (_ = _))

/-- A `BytesWrapper` whose composed bytes, if it holds any, keep the
invariant. -/
def BytesWrapper.Consistent : BytesWrapper → Prop
  | .direct _ => True
  | .composed bytes => bytes.Consistent

instance : (wrapper : BytesWrapper) → Decidable wrapper.Consistent
  | .direct _ => inferInstanceAs (Decidable True)
  | .composed bytes => inferInstanceAs (Decidable bytes.Consistent)

namespace ComposedBytes

variable {bytes : ComposedBytes}

theorem Consistent.len_eq (consistent : bytes.Consistent) : bytes.len = bytes.freeze.length := by
  rw [len, freeze, List.length_flatten]
  exact consistent

theorem Consistent.put (consistent : bytes.Consistent) (chunk : List UInt8) :
    (bytes.put chunk).Consistent := by
  show bytes.totalLen + chunk.length = ((bytes.composed ++ [chunk]).map List.length).sum
  rw [List.map_append, List.sum_append, consistent]
  simp

/-- `from` keeps the invariant when it is given the parts' total. -/
theorem consistent_from (all : List (List UInt8)) :
    (ComposedBytes.from all (all.map List.length).sum).Consistent :=
  rfl

end ComposedBytes

namespace BytesWrapper

variable {wrapper : BytesWrapper}

theorem Consistent.len_eq (consistent : wrapper.Consistent) :
    wrapper.len = wrapper.freeze.length := by
  cases wrapper with
  | direct bytes => rfl
  | composed bytes => exact ComposedBytes.Consistent.len_eq consistent

theorem Consistent.alwaysComposed (consistent : wrapper.Consistent) :
    wrapper.alwaysComposed.Consistent := by
  cases wrapper with
  | direct bytes =>
      -- one part, recorded under its own length
      show bytes.length = ([bytes].map List.length).sum
      simp
  | composed bytes => exact consistent

end BytesWrapper

/-! ## The composers of the read and flush paths -/

section WellFormed

variable {blocks : List Block}

/-- Blocks whose declared lengths are the lengths of their bytes declare
the bytes they carry. -/
theorem lengthSum_of_wellFormed :
    ∀ {blocks : List Block}, (∀ block ∈ blocks, block.WellFormed) →
      MemoryBuffer.lengthSum blocks = (blockData blocks).length
  | [], _ => rfl
  | block :: rest, wellFormed => by
      have restSum := lengthSum_of_wellFormed fun other member =>
        wellFormed other (List.mem_cons_of_mem block member)
      rw [MemoryBuffer.lengthSum_cons, restSum, wellFormed block List.mem_cons_self]
      simp [blockData]

/-- The page `get_v2` composes from well-formed blocks records their bytes. -/
theorem consistent_pageAnswer (wellFormed : ∀ block ∈ blocks, block.WellFormed)
    (fits : (blockData blocks).length < 2 ^ 64) :
    (MemoryBuffer.pageAnswer blocks).data.Consistent := by
  show toUnsigned 64 (blocks.foldl MemoryBuffer.addLength 0) =
    ((blocks.map Block.data).map List.length).sum
  rw [MemoryBuffer.toUnsigned_foldl_addLength, lengthSum_of_wellFormed wellFormed,
    toUnsigned_natCast fits, blockData, List.length_flatten]

theorem consistent_getV2 (buffer : MemoryBuffer) (lastBlockId batchLen : Int)
    (taskIds : Option Treemap) (wellFormed : ∀ block ∈ buffer.scanOrder, block.WellFormed)
    (fits : (blockData buffer.scanOrder).length < 2 ^ 64) :
    (buffer.getV2 lastBlockId batchLen taskIds).data.Consistent := by
  have selected := @MemoryBuffer.readBlocks_sublist lastBlockId batchLen taskIds buffer
  rw [MemoryBuffer.getV2_eq]
  refine consistent_pageAnswer (fun block member => wellFormed block (selected.subset member)) ?_
  exact lt_of_le_of_lt (selected.map Block.data).flatten.length_le fits

/-- The batch `create_shuffle_format` composes from well-formed blocks
records their bytes. -/
theorem consistent_createShuffleFormat (wellFormed : ∀ block ∈ blocks, block.WellFormed)
    (fits : (blockData blocks).length < 2 ^ 64) (offset : Int) :
    (createShuffleFormat blocks offset).data.Consistent := by
  have declared : (blocks.map Block.length).sum = (blockData blocks).length :=
    lengthSum_of_wellFormed wellFormed
  have nonneg : ∀ block ∈ blocks, 0 ≤ block.length := fun block member => by
    rw [wellFormed block member]
    exact Int.natCast_nonneg _
  have summed := foldl_totalSize blocks 0 nonneg (by rw [declared]; push_cast; omega)
  rw [declared, Nat.cast_zero, Int.zero_add] at summed
  show totalSize blocks = ((blocks.map Block.data).map List.length).sum
  rw [← List.length_flatten]
  exact_mod_cast summed

end WellFormed

end Riffle.Store

namespace Riffle.Urpc

open Riffle.FixedWidth Riffle.ByteCursor Riffle.Store Riffle.Local

/-- A memory response over consistent data writes as its `body_length` the
number of bytes it writes after its content, and then those bytes. -/
theorem write_memoryResponse_of_consistent {resp : GetMemoryDataResponseCommand}
    {memData : PartitionedMemoryData} (data : resp.data = .mem memData)
    (consistent : memData.data.Consistent)
    (fits : ∀ parts, (Frame.getMemoryDataResponse resp).responseParts = some parts →
      parts.content.length + parts.data.length < 2 ^ 31) :
    ∃ content, (Frame.getMemoryDataResponse resp).write =
      some (header content.length MessageType.getMemoryDataResponse.code
        memData.data.freeze.length ++ content ++ memData.data.freeze) := by
  have response : (Frame.getMemoryDataResponse resp).responseParts =
      some ⟨.getMemoryDataResponse,
        writeResponseInfo resp.requestId resp.statusCode (utf8Bytes resp.retMsg) ++
          writeI32 (lengthAsI32 memData.shuffleDataBlockSegments.length) ++
          memData.shuffleDataBlockSegments.flatMap writeSegment,
        memData.data.freeze⟩ := by
    simp only [Frame.responseParts, data]
  have dataConsistent : (Frame.getMemoryDataResponse resp).DataConsistent := by
    show resp.data.Consistent
    rw [data]
    exact consistent.len_eq
  -- elaborated on its own, so that `response` fixes the parts before the goal is matched
  have written := write_eq_header response dataConsistent (fits _ response)
  exact ⟨_, written⟩

/-- For blocks whose declared lengths are their byte counts, every composer
keeps the recorded total at the sum of the parts: `put`, `always_composed`,
`get_v2` over a buffer of such blocks and `create_shuffle_format` of such a
batch; the total is then `freeze().len()`, and a memory response over it
declares as `body_length` the bytes it writes. -/
theorem composed_bytes_consistent :
    (∀ (bytes : ComposedBytes) (chunk : List UInt8), bytes.Consistent →
      (bytes.put chunk).Consistent) ∧
    (∀ wrapper : BytesWrapper, wrapper.Consistent →
      wrapper.alwaysComposed.Consistent ∧ wrapper.len = wrapper.freeze.length) ∧
    (∀ (buffer : MemoryBuffer) (lastBlockId batchLen : Int) (taskIds : Option Treemap),
      (∀ block ∈ buffer.scanOrder, block.WellFormed) →
      (blockData buffer.scanOrder).length < 2 ^ 64 →
      (buffer.getV2 lastBlockId batchLen taskIds).data.Consistent) ∧
    (∀ (blocks : List Block) (offset : Int), (∀ block ∈ blocks, block.WellFormed) →
      (blockData blocks).length < 2 ^ 64 → (createShuffleFormat blocks offset).data.Consistent) ∧
    ∀ (resp : GetMemoryDataResponseCommand) (memData : PartitionedMemoryData),
      resp.data = .mem memData → memData.data.Consistent →
      (∀ parts, (Frame.getMemoryDataResponse resp).responseParts = some parts →
        parts.content.length + parts.data.length < 2 ^ 31) →
      ∃ content, (Frame.getMemoryDataResponse resp).write =
        some (header content.length MessageType.getMemoryDataResponse.code
          memData.data.freeze.length ++ content ++ memData.data.freeze) :=
  ⟨fun _ chunk consistent => consistent.put chunk,
    fun _ consistent => ⟨consistent.alwaysComposed, consistent.len_eq⟩,
    fun buffer lastBlockId batchLen taskIds wellFormed fits =>
      consistent_getV2 buffer lastBlockId batchLen taskIds wellFormed fits,
    fun _ offset wellFormed fits => consistent_createShuffleFormat wellFormed fits offset,
    fun _ _ data consistent fits => write_memoryResponse_of_consistent data consistent fits⟩

/-- A buffer holding one well-formed block of three bytes. -/
def threeByteBuffer : MemoryBuffer :=
  MemoryBuffer.new.append [⟨1, 3, 3, 0, [1, 2, 3], 0⟩] 3

theorem composed_bytes_consistent_threeBytes :
    (threeByteBuffer.getV2 invalidBlockId 100 none).data.Consistent ∧
      (createShuffleFormat [⟨1, 3, 3, 0, [1, 2, 3], 0⟩] 0).data.Consistent :=
  ⟨composed_bytes_consistent.2.2.1 threeByteBuffer invalidBlockId 100 none (by decide) (by decide),
    composed_bytes_consistent.2.2.2.1 [⟨1, 3, 3, 0, [1, 2, 3], 0⟩] 0 (by decide) (by decide)⟩

/-- The content of a `SendShuffleData` frame: request 1 of app `""`, shuffle
0, ticket 1, one partition 0 holding `overDeclaredBlock` (declared length 5,
three bytes, no shuffle servers), timestamp 0. -/
def overDeclaredSendContent : List UInt8 :=
  encodeInt 8 1 ++ encodeInt 4 0 ++ encodeInt 4 0 ++ encodeInt 8 1 ++ encodeInt 4 1 ++
    encodeInt 4 0 ++ encodeInt 4 1 ++
    (encodeInt 4 0 ++ encodeInt 8 1 ++ encodeInt 4 5 ++ encodeInt 4 0 ++ encodeInt 8 0 ++
      encodeInt 8 0 ++ encodeInt 4 3 ++ [1, 2, 3] ++ encodeInt 4 0 ++ encodeInt 4 5 ++
      encodeInt 8 0) ++
    encodeInt 8 0

def overDeclaredSendFrame : List UInt8 :=
  header overDeclaredSendContent.length MessageType.sendShuffleData.code 0 ++
    overDeclaredSendContent

/-- The urpc decoder accepts a block that declares 5 bytes and carries 3;
the memory store buffers it, `get_v2` composes its page under a total of 5
over 3 bytes, and `create_shuffle_format` does the same for the flush. -/
theorem decoded_block_breaks_composed_length :
    Connection.parseFrame overDeclaredSendFrame =
        .ok (some (.sendShuffleData ⟨1, "", 0, [(0, [overDeclaredBlock])], 1, 0⟩, [])) ∧
      ¬ overDeclaredBlock.WellFormed ∧
      (((MemoryStore.from 100).insert
          (WritingViewContext.new ⟨"", 0, 0⟩ [overDeclaredBlock])).getBuffer ⟨"", 0, 0⟩).map
          (fun buffer => ((buffer.getV2 invalidBlockId 100 none).data.len,
            (buffer.getV2 invalidBlockId 100 none).data.freeze.length)) = some (5, 3) ∧
      (createShuffleFormat [overDeclaredBlock] 0).data.len = 5 ∧
      (createShuffleFormat [overDeclaredBlock] 0).data.freeze.length = 3 := by
  refine ⟨?_, ?_, ?_, ?_, ?_⟩ <;> decide +kernel

end Riffle.Urpc

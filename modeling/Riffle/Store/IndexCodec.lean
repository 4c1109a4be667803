import Riffle.Store.Block

/-!
# Index records

A partition's index file is a sequence of 40-byte records, one per block,
each giving where the block's bytes start in the data file and the block's
header (`src/store/index_codec.rs`).  `IndexCodec::encode` writes the fields
big-endian with `put_i64`/`put_i32`; `IndexCodec::decode` reads them back in
the same order after checking that 40 bytes are there.

`decodeIndexFile` is how a reader takes a whole index file apart, record by
record; it fails on a trailing partial record.  The round trip holds for
records whose fields fit their Rust types (`IndexBlock.InRange`).
-/

namespace Riffle.Store

open Riffle.FixedWidth

/-- `INDEX_BLOCK_SIZE`. -/
def indexBlockSize : Nat := 40

/-- `crate::store::index_codec::IndexBlock`. -/
structure IndexBlock where
  offset : Int
  length : Int
  uncompressLength : Int
  crc : Int
  blockId : Int
  taskAttemptId : Int
  deriving DecidableEq, Repr

/-- `impl Into<IndexBlock> for (&Block, i64)`. -/
def IndexBlock.ofBlock (block : Block) (offset : Int) : IndexBlock :=
  ⟨offset, block.length, block.uncompressLength, block.crc, block.blockId, block.taskAttemptId⟩

/-- The fields fit their types: `i64`, except `length` and
`uncompress_length`, which are `i32`. -/
def IndexBlock.InRange (block : IndexBlock) : Prop :=
  InSignedRange 64 block.offset ∧ InSignedRange 32 block.length ∧
    InSignedRange 32 block.uncompressLength ∧ InSignedRange 64 block.crc ∧
    InSignedRange 64 block.blockId ∧ InSignedRange 64 block.taskAttemptId

instance (block : IndexBlock) : Decidable block.InRange :=
  inferInstanceAs (Decidable (_ ∧ _))

/-- The fields of a block fit their Rust types: `i64`, except `length` and
`uncompress_length`, which are `i32`. -/
def Block.InRange (block : Block) : Prop :=
  InSignedRange 32 block.length ∧ InSignedRange 32 block.uncompressLength ∧
    InSignedRange 64 block.crc ∧ InSignedRange 64 block.blockId ∧
    InSignedRange 64 block.taskAttemptId

instance (block : Block) : Decidable block.InRange :=
  inferInstanceAs (Decidable (_ ∧ _))

/-- A block's record fits its types when its offset fits an `i64`. -/
theorem IndexBlock.ofBlock_inRange {block : Block} {offset : Int} (typed : block.InRange)
    (offsetRange : InSignedRange 64 offset) : (IndexBlock.ofBlock block offset).InRange :=
  ⟨offsetRange, typed⟩

namespace IndexCodec

/-- `IndexCodec::encode`. -/
def encode (block : IndexBlock) : List UInt8 :=
  encodeInt 8 block.offset ++ encodeInt 4 block.length ++ encodeInt 4 block.uncompressLength ++
    encodeInt 8 block.crc ++ encodeInt 8 block.blockId ++ encodeInt 8 block.taskAttemptId

/-- `IndexCodec::decode`: each `get_*` reads its field and moves past it. -/
def decode (bytes : List UInt8) : Except String IndexBlock :=
  if bytes.length < indexBlockSize then .error "Not enough bytes to decode"
  else
    let offset := decodeInt (bytes.take 8)
    let bytes := bytes.drop 8
    let length := decodeInt (bytes.take 4)
    let bytes := bytes.drop 4
    let uncompressLength := decodeInt (bytes.take 4)
    let bytes := bytes.drop 4
    let crc := decodeInt (bytes.take 8)
    let bytes := bytes.drop 8
    let blockId := decodeInt (bytes.take 8)
    let bytes := bytes.drop 8
    let taskAttemptId := decodeInt (bytes.take 8)
    .ok ⟨offset, length, uncompressLength, crc, blockId, taskAttemptId⟩

@[simp]
theorem length_encode (block : IndexBlock) : (encode block).length = indexBlockSize := by
  simp [encode, indexBlockSize]

/-- Decoding reads back what encoding wrote, whatever follows it. -/
theorem decode_encode_append {block : IndexBlock} (inRange : block.InRange) (rest : List UInt8) :
    decode (encode block ++ rest) = .ok block := by
  obtain ⟨offsetRange, lengthRange, uncompressRange, crcRange, blockIdRange, taskRange⟩ := inRange
  have notShort : ¬(encode block ++ rest).length < indexBlockSize := by
    rw [List.length_append, length_encode]
    omega
  unfold decode
  rw [if_neg notShort]
  simp only [encode, List.append_assoc, List.take_left' (length_encodeInt _ _),
    List.drop_left' (length_encodeInt _ _)]
  rw [@decodeInt_encodeInt 8 _ (by decide) offsetRange, @decodeInt_encodeInt 4 _ (by decide) lengthRange,
    @decodeInt_encodeInt 4 _ (by decide) uncompressRange, @decodeInt_encodeInt 8 _ (by decide) crcRange,
    @decodeInt_encodeInt 8 _ (by decide) blockIdRange, @decodeInt_encodeInt 8 _ (by decide) taskRange]

/-- Fewer than 40 bytes are refused. -/
theorem decode_short {bytes : List UInt8} (short : bytes.length < indexBlockSize) :
    decode bytes = .error "Not enough bytes to decode" := by
  unfold decode
  rw [if_pos short]

theorem encodeInt_decodeInt_of_length {part : List UInt8} {width : Nat} (sized : part.length = width) :
    encodeInt width (decodeInt part) = part :=
  sized ▸ encodeInt_decodeInt part

/-- What `decode` accepts: at least 40 bytes, whose first 40 are the
encoding of the record read, with fields that fit their types. -/
theorem decode_eq_ok {bytes : List UInt8} {block : IndexBlock} (decoded : decode bytes = .ok block) :
    indexBlockSize ≤ bytes.length ∧ block.InRange ∧ encode block = bytes.take indexBlockSize := by
  unfold decode at decoded
  split_ifs at decoded with short
  cases decoded
  have long : 40 ≤ bytes.length := Nat.not_lt.mp short
  -- each field is read from bytes of its width
  have fits : ∀ (part : List UInt8) (width : Nat), part.length = width → 0 < width →
      InSignedRange (8 * width) (decodeInt part) := by
    intro part width sized positive
    subst sized
    exact decodeInt_inRange (List.ne_nil_of_length_pos positive)
  refine ⟨long, ⟨fits _ 8 (by simp; omega) (by decide), fits _ 4 (by simp; omega) (by decide),
    fits _ 4 (by simp; omega) (by decide), fits _ 8 (by simp; omega) (by decide),
    fits _ 8 (by simp; omega) (by decide), fits _ 8 (by simp; omega) (by decide)⟩, ?_⟩
  rw [encode, encodeInt_decodeInt_of_length (by simp; omega),
    encodeInt_decodeInt_of_length (by simp; omega), encodeInt_decodeInt_of_length (by simp; omega),
    encodeInt_decodeInt_of_length (by simp; omega), encodeInt_decodeInt_of_length (by simp; omega),
    encodeInt_decodeInt_of_length (by simp; omega)]
  -- the six fields lie one after another in the first 40 bytes
  simp only [List.drop_drop, Nat.reduceAdd, List.append_assoc]
  simp only [← List.append_assoc, ← List.take_add, Nat.reduceAdd, indexBlockSize]

end IndexCodec

/-- `IndexCodec::decode` and `IndexCodec::encode` are inverse: `decode`
accepts exactly the byte strings of at least 40 bytes, reads their first 40
bytes as a record whose fields fit their Rust types, and that record encodes
back to those 40 bytes; every record whose fields fit is decoded back from
its encoding, whatever follows it. -/
theorem indexCodec_roundTrip :
    (∀ bytes : List UInt8,
      (∃ block, IndexCodec.decode bytes = .ok block) ↔ indexBlockSize ≤ bytes.length) ∧
    (∀ bytes block, IndexCodec.decode bytes = .ok block →
      block.InRange ∧ IndexCodec.encode block = bytes.take indexBlockSize) ∧
    (∀ block : IndexBlock, block.InRange →
      ∀ rest, IndexCodec.decode (IndexCodec.encode block ++ rest) = .ok block) := by
  refine ⟨fun bytes => ⟨?_, ?_⟩, fun _ _ decoded => (IndexCodec.decode_eq_ok decoded).2,
    fun _ inRange rest => IndexCodec.decode_encode_append inRange rest⟩
  · rintro ⟨block, decoded⟩
    exact (IndexCodec.decode_eq_ok decoded).1
  · intro long
    unfold IndexCodec.decode
    rw [if_neg (Nat.not_lt.mpr long)]
    exact ⟨_, rfl⟩

/-- A reader's pass over `count` records of an index file: each record is
the next 40 bytes, and nothing may be left over. -/
def decodeRecords : Nat → List UInt8 → Option (List IndexBlock)
  | 0, bytes => if bytes = [] then some [] else none
  | count + 1, bytes =>
      match IndexCodec.decode (bytes.take indexBlockSize) with
      | .error _ => none
      | .ok record => (decodeRecords count (bytes.drop indexBlockSize)).map (record :: ·)

/-- The records of a whole index file; `none` when it ends in a partial
record. -/
def decodeIndexFile (index : List UInt8) : Option (List IndexBlock) :=
  decodeRecords (index.length / indexBlockSize) index

/-- An index file written record by record reads back as those records. -/
theorem decodeRecords_flatMap_encode :
    ∀ (records : List IndexBlock), (∀ record ∈ records, record.InRange) →
      decodeRecords records.length (records.flatMap IndexCodec.encode) = some records
  | [], _ => rfl
  | record :: rest, inRange => by
      have recordRange := inRange record List.mem_cons_self
      have restRange : ∀ other ∈ rest, other.InRange :=
        fun other member => inRange other (List.mem_cons_of_mem record member)
      have encodedLength := IndexCodec.length_encode record
      rw [List.flatMap_cons, List.length_cons, decodeRecords,
        List.take_left' encodedLength, List.drop_left' encodedLength,
        ← List.append_nil (IndexCodec.encode record), IndexCodec.decode_encode_append recordRange]
      dsimp only
      rw [decodeRecords_flatMap_encode rest restRange, Option.map_some]

/-- An index file written record by record holds 40 bytes per record. -/
theorem length_flatMap_encode (records : List IndexBlock) :
    (records.flatMap IndexCodec.encode).length = indexBlockSize * records.length := by
  rw [List.length_flatMap]
  simp [Nat.mul_comm]

theorem decodeIndexFile_flatMap_encode {records : List IndexBlock}
    (inRange : ∀ record ∈ records, record.InRange) :
    decodeIndexFile (records.flatMap IndexCodec.encode) = some records := by
  rw [decodeIndexFile, length_flatMap_encode, Nat.mul_div_cancel_left _ (by decide)]
  exact decodeRecords_flatMap_encode records inRange

end Riffle.Store

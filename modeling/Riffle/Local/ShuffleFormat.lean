import Riffle.Local.FileStore

/-!
# The layout of a batch in the shuffle files

`Store::create_shuffle_format` (store/mod.rs) turns a batch of blocks and the
partition's current offset into the bytes appended to the data file, the
40-byte index records appended to the index file, the batch's length and the
offset after it.  The offset runs in `i64` arithmetic and the length is
summed as `usize`, so the records count from the start offset by prefix sums
of the declared lengths only while those sums stay in the `i64` range and the
lengths are not negative.
-/

namespace Riffle.Local

open Riffle.FixedWidth Riffle.Store

theorem sum_length_nonneg {blocks : List Block} (nonneg : ∀ block ∈ blocks, 0 ≤ block.length) :
    0 ≤ (blocks.map Block.length).sum :=
  List.sum_nonneg fun length member => by
    obtain ⟨block, blockMember, rfl⟩ := List.mem_map.mp member
    exact nonneg block blockMember

section Offsets

variable {offset : Int}

/-- Prefix sums of non-negative lengths that end below `2^63` never wrap. -/
theorem nextOffset_of_fits {block : Block} (nonneg : 0 ≤ block.length)
    (lower : -(2 ^ 63 : Int) ≤ offset) (fits : offset + block.length < 2 ^ 63) :
    wrapSigned 64 (offset + block.length) = offset + block.length :=
  wrapSigned_of_inRange (by decide) ⟨by norm_num; omega, by norm_num; omega⟩

theorem length_indexBlocks :
    ∀ (blocks : List Block) (offset : Int), (indexBlocks blocks offset).length = blocks.length
  | [], _ => rfl
  | block :: rest, offset => by
      rw [indexBlocks, List.length_cons, List.length_cons, length_indexBlocks rest]

/-- Each record of a batch counts from the start offset by the lengths of the
blocks before it. -/
theorem indexBlocks_getElem? :
    ∀ (blocks : List Block) {offset : Int}, (∀ block ∈ blocks, 0 ≤ block.length) →
      -(2 ^ 63 : Int) ≤ offset → offset + (blocks.map Block.length).sum < 2 ^ 63 →
      ∀ i, (indexBlocks blocks offset)[i]? = blocks[i]?.map fun block =>
        IndexBlock.ofBlock block (offset + ((blocks.take i).map Block.length).sum)
  | [], _, _, _, _, i => by
      simp [indexBlocks]
  | block :: rest, offset, nonneg, lower, fits, i => by
      have blockNonneg := nonneg block List.mem_cons_self
      have restNonneg : ∀ other ∈ rest, 0 ≤ other.length :=
        fun other member => nonneg other (List.mem_cons_of_mem block member)
      have restSumNonneg := sum_length_nonneg restNonneg
      rw [List.map_cons, List.sum_cons] at fits
      rw [indexBlocks, nextOffset_of_fits blockNonneg lower (by omega)]
      cases i with
      | zero =>
          simp
      | succ i =>
          rw [List.getElem?_cons_succ, List.getElem?_cons_succ,
            indexBlocks_getElem? rest restNonneg (by omega) (by omega) i]
          simp [Int.add_assoc]

/-- The offset after a batch is the start offset plus the batch's lengths. -/
theorem offsetAfter_of_fits :
    ∀ (blocks : List Block) {offset : Int}, (∀ block ∈ blocks, 0 ≤ block.length) →
      -(2 ^ 63 : Int) ≤ offset → offset + (blocks.map Block.length).sum < 2 ^ 63 →
      offsetAfter blocks offset = offset + (blocks.map Block.length).sum
  | [], offset, _, _, _ => by
      simp [offsetAfter]
  | block :: rest, offset, nonneg, lower, fits => by
      have blockNonneg := nonneg block List.mem_cons_self
      have restNonneg : ∀ other ∈ rest, 0 ≤ other.length :=
        fun other member => nonneg other (List.mem_cons_of_mem block member)
      have restSumNonneg := sum_length_nonneg restNonneg
      rw [List.map_cons, List.sum_cons] at fits ⊢
      rw [offsetAfter, nextOffset_of_fits blockNonneg lower (by omega),
        offsetAfter_of_fits rest restNonneg (by omega) (by omega), Int.add_assoc]

/-- Every record of a batch of well-typed blocks whose offsets stay in range
fits its types, so the index codec reads it back. -/
theorem indexBlocks_inRange :
    ∀ (blocks : List Block) {offset : Int}, (∀ block ∈ blocks, block.InRange) →
      (∀ block ∈ blocks, 0 ≤ block.length) →
      -(2 ^ 63 : Int) ≤ offset → offset + (blocks.map Block.length).sum < 2 ^ 63 →
      ∀ record ∈ indexBlocks blocks offset, record.InRange
  | [], _, _, _, _, _, record, member => by
      simp [indexBlocks] at member
  | block :: rest, offset, typed, nonneg, lower, fits, record, member => by
      have blockNonneg := nonneg block List.mem_cons_self
      have restNonneg : ∀ other ∈ rest, 0 ≤ other.length :=
        fun other member => nonneg other (List.mem_cons_of_mem block member)
      have restSumNonneg := sum_length_nonneg restNonneg
      rw [List.map_cons, List.sum_cons] at fits
      rw [indexBlocks, nextOffset_of_fits blockNonneg lower (by omega)] at member
      rcases List.mem_cons.mp member with first | later
      · subst first
        exact IndexBlock.ofBlock_inRange (typed block List.mem_cons_self)
          ⟨by norm_num; omega, by norm_num; omega⟩
      · exact indexBlocks_inRange rest
          (fun other member => typed other (List.mem_cons_of_mem block member)) restNonneg
          (by omega) (by omega) record later

end Offsets

/-- The `usize` total of non-negative lengths that sum below `2^64` is their
sum. -/
theorem foldl_totalSize (blocks : List Block) (total : Nat)
    (nonneg : ∀ block ∈ blocks, 0 ≤ block.length)
    (fits : (total : Int) + (blocks.map Block.length).sum < 2 ^ 64) :
    ((blocks.foldl (fun total block => (total + toUnsigned 64 block.length) % 2 ^ 64) total : Nat)
      : Int) = total + (blocks.map Block.length).sum := by
  induction blocks generalizing total with
  | nil =>
      simp
  | cons block rest inductionHypothesis =>
      have blockNonneg := nonneg block List.mem_cons_self
      have restNonneg : ∀ other ∈ rest, 0 ≤ other.length :=
        fun other member => nonneg other (List.mem_cons_of_mem block member)
      have restSumNonneg := sum_length_nonneg restNonneg
      rw [List.map_cons, List.sum_cons] at fits ⊢
      have cast : (toUnsigned 64 block.length : Int) = block.length := by
        rw [toUnsigned_of_nonneg blockNonneg (by omega), Int.toNat_of_nonneg blockNonneg]
      have noWrap : (total + toUnsigned 64 block.length) % 2 ^ 64 =
          total + toUnsigned 64 block.length :=
        Nat.mod_eq_of_lt (by omega)
      rw [List.foldl_cons, noWrap, inductionHypothesis _ restNonneg (by push_cast; omega)]
      push_cast
      rw [cast, Int.add_assoc]

theorem createShuffleFormat_layout :
    (∀ record : IndexBlock, record.InRange →
      IndexCodec.decode (IndexCodec.encode record) = .ok record ∧
        (IndexCodec.encode record).length = indexBlockSize) ∧
    ∀ (blocks : List Block) (offset : Int), (∀ block ∈ blocks, block.InRange) →
      (∀ block ∈ blocks, 0 ≤ block.length) → InSignedRange 64 offset →
      offset + (blocks.map Block.length).sum < 2 ^ 63 →
      (createShuffleFormat blocks offset).index.freeze.length = indexBlockSize * blocks.length ∧
      (∃ records, decodeIndexFile (createShuffleFormat blocks offset).index.freeze = some records ∧
        ∀ i, records[i]? = blocks[i]?.map fun block =>
          IndexBlock.ofBlock block (offset + ((blocks.take i).map Block.length).sum)) ∧
      (createShuffleFormat blocks offset).offset = offset + (blocks.map Block.length).sum ∧
      ((createShuffleFormat blocks offset).len : Int) = (blocks.map Block.length).sum ∧
      (createShuffleFormat blocks offset).data.freeze = (blocks.map Block.data).flatten := by
  refine ⟨fun record inRange => ⟨?_, IndexCodec.length_encode record⟩, ?_⟩
  · simpa using IndexCodec.decode_encode_append inRange []
  intro blocks offset typed nonneg offsetRange fits
  have lower : -(2 ^ 63 : Int) ≤ offset := by
    have := offsetRange.1
    norm_num at this
    exact this
  have upper : offset < 2 ^ 63 := by
    have := offsetRange.2
    norm_num at this
    exact this
  refine ⟨?_, ⟨indexBlocks blocks offset, ?_, indexBlocks_getElem? blocks nonneg lower fits⟩,
    offsetAfter_of_fits blocks nonneg lower fits, ?_, rfl⟩
  · simp [List.length_flatMap, length_indexBlocks, Nat.mul_comm]
  · rw [createShuffleFormat_index]
    exact decodeIndexFile_flatMap_encode (indexBlocks_inRange blocks typed nonneg lower fits)
  · rw [createShuffleFormat_len, totalSize]
    have sumBound : (0 : Int) + (blocks.map Block.length).sum < 2 ^ 64 := by omega
    simpa using foldl_totalSize blocks 0 nonneg sumBound

/-- The block of the source's codec test, followed by a second one. -/
theorem createShuffleFormat_layout_testBlocks :
    (createShuffleFormat [⟨1, 1, 0, 0, [7], 0⟩, ⟨2, 3, 3, 0, [8, 9, 10], 0⟩] 0).offset = 0 + 4 :=
  (createShuffleFormat_layout.2 [⟨1, 1, 0, 0, [7], 0⟩, ⟨2, 3, 3, 0, [8, 9, 10], 0⟩] 0
    (by decide) (by decide) (by decide) (by decide)).2.2.1

/-- At the top of the `i64` range the running offset wraps to the bottom, and
a negative declared length is summed as a huge `usize`. -/
theorem createShuffleFormat_wraps :
    (createShuffleFormat [⟨1, 1, 0, 0, [7], 0⟩] (2 ^ 63 - 1)).offset = -2 ^ 63 ∧
      (createShuffleFormat [⟨1, -1, 0, 0, [], 0⟩] 0).len = 2 ^ 64 - 1 := by
  decide

end Riffle.Local

import Riffle.Store.MemoryStore
import Riffle.App.HugePartition

/-!
# The sizes one partition insert records

A send request (gRPC `send_shuffle_data` or urpc
`SendDataRequestCommand::apply`) hands each partition's blocks to
`App::insert` through `WritingViewContext::new`, and its size then goes four
ways:

* `WritingViewContext::new` sums the declared lengths as `i32` and casts the
  sum `as u64` (`data_size`);
* `App::insert` returns `data_size as i32`, which the sender adds `as i64` to
  its inserted total (`appInsertedSize`);
* `MemoryBuffer::append` adds `data_size as i64` to `staging_size` and
  `total_size`;
* `App::inc_partition_size` adds `(data_size as i32) as u64` to the `u64`
  `PartitionedMeta.total_size`.

The `i32` sum wraps once the lengths reach `2 ^ 31`: from there on all four
disagree with the sum (`insert_sizes_wrap_at_i32`).  Below it every cast is
exact (`insert_sizes_exact`).
-/

namespace Riffle.Store

open Riffle.FixedWidth

section Exact

variable {uid : PartitionedUId} {blocks : List Block}

/-- The sum of the declared lengths, what each of the four should record. -/
def declaredSum (blocks : List Block) : Int :=
  (blocks.map Block.length).sum

theorem dataSize_new_of_small (nonneg : 0 ≤ declaredSum blocks)
    (small : declaredSum blocks < 2 ^ 31) :
    ((WritingViewContext.new uid blocks).dataSize : Int) = declaredSum blocks := by
  have inRange : InSignedRange 32 (declaredSum blocks) :=
    InSignedRange.of_nonneg nonneg (by norm_num; omega)
  show ((toUnsigned 64 (wrapSigned 32 (declaredSum blocks)) : Nat) : Int) = _
  rw [wrapSigned_of_inRange (by norm_num) inRange, toUnsigned_of_nonneg nonneg (by omega),
    Int.toNat_of_nonneg nonneg]

theorem appInsertedSize_new_of_small (nonneg : 0 ≤ declaredSum blocks)
    (small : declaredSum blocks < 2 ^ 31) :
    appInsertedSize (WritingViewContext.new uid blocks) = declaredSum blocks := by
  unfold appInsertedSize
  rw [dataSize_new_of_small nonneg small]
  exact wrapSigned_of_inRange (by norm_num) (InSignedRange.of_nonneg nonneg (by norm_num; omega))

/-- The `u64` size read back `as i64`. -/
theorem toSigned_dataSize_new_of_small (nonneg : 0 ≤ declaredSum blocks)
    (small : declaredSum blocks < 2 ^ 31) :
    toSigned 64 (WritingViewContext.new uid blocks).dataSize = declaredSum blocks := by
  have exact := @dataSize_new_of_small uid blocks nonneg small
  rw [toSigned_of_lt (by norm_num; omega), exact]

/-- The `i32` of the size widened back to `u64`. -/
theorem partitionIncrement_new_of_small (nonneg : 0 ≤ declaredSum blocks)
    (small : declaredSum blocks < 2 ^ 31) :
    (toUnsigned 64 (wrapSigned 32 (WritingViewContext.new uid blocks).dataSize) : Int) =
      declaredSum blocks := by
  show ((toUnsigned 64 (appInsertedSize (WritingViewContext.new uid blocks)) : Nat) : Int) = _
  rw [appInsertedSize_new_of_small nonneg small, toUnsigned_of_nonneg nonneg (by omega),
    Int.toNat_of_nonneg nonneg]

end Exact

/-- Below `2 ^ 31` the four sizes of a partition insert are the sum of the
declared lengths: the context's `data_size`, what `App::insert` returns to
the sender, what `append` adds to the buffer's staging and total sizes, and
what `inc_partition_size` adds to the partition's `u64` total. -/
theorem insert_sizes_exact (uid : PartitionedUId) (blocks : List Block)
    (nonneg : 0 ≤ declaredSum blocks) (small : declaredSum blocks < 2 ^ 31) :
    let ctx := WritingViewContext.new uid blocks
    (ctx.dataSize : Int) = declaredSum blocks ∧ appInsertedSize ctx = declaredSum blocks ∧
      (∀ buffer : MemoryBuffer,
        (buffer.append ctx.dataBlocks ctx.dataSize).stagingSize =
            buffer.stagingSize + declaredSum blocks ∧
          (buffer.append ctx.dataBlocks ctx.dataSize).totalSize =
            buffer.totalSize + declaredSum blocks) ∧
      ∀ (app : App) (key : Int × Int),
        ((app.incPartitionSize key ctx.dataSize).partitionMetaInfos.lookup key).map
            PartitionedMeta.totalSize =
          some (((app.getPartitionMeta key).1.totalSize + (declaredSum blocks).toNat) %
            2 ^ 64) := by
  dsimp only
  have asI64 := @toSigned_dataSize_new_of_small uid blocks nonneg small
  refine ⟨dataSize_new_of_small nonneg small, appInsertedSize_new_of_small nonneg small,
    fun buffer => ⟨?_, ?_⟩, fun app key => ?_⟩
  · show buffer.stagingSize + toSigned 64 (WritingViewContext.new uid blocks).dataSize = _
    rw [asI64]
  · rw [MemoryBuffer.totalSize_append, asI64]
  · have increment : toUnsigned 64 (wrapSigned 32 (WritingViewContext.new uid blocks).dataSize) =
        (declaredSum blocks).toNat := by
      have exact := @partitionIncrement_new_of_small uid blocks nonneg small
      omega
    rw [App.lookup_incPartitionSize, Option.map_some, increment]

theorem insert_sizes_exact_oneBlock :
    0 ≤ declaredSum [⟨1, 10, 10, 0, [], 0⟩] ∧ declaredSum [⟨1, 10, 10, 0, [], 0⟩] < 2 ^ 31 ∧
      appInsertedSize (WritingViewContext.new ⟨"app", 0, 0⟩ [⟨1, 10, 10, 0, [], 0⟩]) = 10 :=
  have facts := insert_sizes_exact ⟨"app", 0, 0⟩ [⟨1, 10, 10, 0, [], 0⟩] (by decide) (by decide)
  ⟨by decide, by decide, facts.2.1.trans (by decide)⟩

/-- Two blocks that declare `2 ^ 30` bytes each. -/
def twoHalfGiBBlocks : List Block :=
  [⟨1, 2 ^ 30, 2 ^ 30, 0, [], 0⟩, ⟨2, 2 ^ 30, 2 ^ 30, 0, [], 0⟩]

/-- A partition of `2 ^ 31` declared bytes: the `i32` sum wraps to `-2 ^ 31`,
so `data_size` is `2 ^ 64 - 2 ^ 31`, `App::insert` returns `-2 ^ 31`, the
buffer's sizes go down by `2 ^ 31`, and the partition's `u64` total wraps to
`2 ^ 64 - 2 ^ 31` in an app that had no meta for it. -/
theorem insert_sizes_wrap_at_i32 :
    let ctx := WritingViewContext.new ⟨"app", 0, 0⟩ twoHalfGiBBlocks
    declaredSum twoHalfGiBBlocks = 2 ^ 31 ∧ ctx.dataSize = 2 ^ 64 - 2 ^ 31 ∧
      appInsertedSize ctx = -2 ^ 31 ∧
      (MemoryBuffer.new.append ctx.dataBlocks ctx.dataSize).stagingSize = -2 ^ 31 ∧
      (MemoryBuffer.new.append ctx.dataBlocks ctx.dataSize).totalSize = -2 ^ 31 ∧
      (((HugePartitions.initial true).app.incPartitionSize (0, 0)
          ctx.dataSize).partitionMetaInfos.lookup (0, 0)).map PartitionedMeta.totalSize =
        some (2 ^ 64 - 2 ^ 31) := by
  refine ⟨?_, ?_, ?_, ?_, ?_, ?_⟩ <;> decide

end Riffle.Store

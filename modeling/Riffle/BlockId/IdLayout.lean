import Mathlib.Data.BitVec
import Riffle.Lib.FixedWidth
import Riffle.Lib.BitField

/-!
# Block-id layout

A block id (id_layout.rs) is one `i64` holding three fields: the sequence
number in the high bits, the partition id in the middle and the task attempt
id in the low bits.  The widths come from the client's `BlockIdLayout`;
`IdLayout::new` precomputes the partition mask, `get_block_id` packs the three
fields with shifts and ors, and `get_partition_id` masks and shifts the middle
field back out.

Values of type `i64` are `BitVec 64`; the widths are `i32` and stay `Int`.
Release builds shift by the low six bits of the count (`shiftAmount`), and
`partition_id_bits + task_attempt_id_bits` is a wrapping `i32` sum.
-/

namespace Riffle.BlockId

open Riffle.FixedWidth Riffle.BitField

/-- The amount a shift by an `i32` count moves an `i64`: the count's low six bits. -/
def shiftAmount (count : Int) : Nat :=
  toUnsigned 6 count

theorem shiftAmount_of_lt {count : Int} (nonneg : 0 ≤ count) (below : count < 64) :
    shiftAmount count = count.toNat :=
  toUnsigned_of_nonneg nonneg below

structure IdLayout where
  sequenceNoBits : Int
  partitionIdBits : Int
  taskAttemptIdBits : Int
  partitionIdMask : BitVec 64
  partitionIdOffset : Int
  deriving DecidableEq, Repr

def IdLayout.new (sequenceNoBits partitionIdBits taskAttemptIdBits : Int) : IdLayout :=
  let maxPartitionId := (1#64 <<< shiftAmount partitionIdBits) - 1#64
  { sequenceNoBits
    partitionIdBits
    taskAttemptIdBits
    partitionIdMask := maxPartitionId <<< shiftAmount taskAttemptIdBits
    partitionIdOffset := taskAttemptIdBits }

def IdLayout.getPartitionId (layout : IdLayout) (blockId : BitVec 64) : BitVec 64 :=
  (blockId &&& layout.partitionIdMask).sshiftRight (shiftAmount layout.partitionIdOffset)

def IdLayout.getBlockId (layout : IdLayout) (sequenceNo partitionId taskAttemptId : BitVec 64) :
    BitVec 64 :=
  let s := sequenceNo <<< shiftAmount (wrapSigned 32
    (layout.partitionIdBits + layout.taskAttemptIdBits))
  let p := partitionId <<< shiftAmount layout.taskAttemptIdBits
  let t := taskAttemptId <<< 0
  s ||| p ||| t

/-- The protobuf message a client sends with its layout. -/
structure BlockIdLayout where
  sequenceNoBits : Int
  partitionIdBits : Int
  taskAttemptIdBits : Int
  deriving DecidableEq, Repr

def defaultSequenceNoBit : Int := 16
def defaultPartitionIdBit : Int := 24
def defaultTaskIdBit : Int := 23

/-- A layout different from the default only logs a warning; a missing one
falls back to the default widths. -/
def toLayout : Option BlockIdLayout → IdLayout
  | some blockIdLayout =>
      IdLayout.new blockIdLayout.sequenceNoBits blockIdLayout.partitionIdBits
        blockIdLayout.taskAttemptIdBits
  | none => IdLayout.new defaultSequenceNoBit defaultPartitionIdBit defaultTaskIdBit

/-! ## Layouts that fill an `i64` -/

/-- Three positive widths that together fill the 63 value bits of an `i64`. -/
structure FillsWord (s p t : Int) : Prop where
  sequencePositive : 1 ≤ s
  partitionPositive : 1 ≤ p
  taskPositive : 1 ≤ t
  fills : s + p + t = 63

/-- The three field values of a block id lie in the ranges their widths give. -/
def InLayoutRange (s p t : Int) (sequenceNo partitionId taskAttemptId : BitVec 64) : Prop :=
  sequenceNo.toNat < 2 ^ s.toNat ∧ partitionId.toNat < 2 ^ p.toNat ∧
    taskAttemptId.toNat < 2 ^ t.toNat

instance (s p t : Int) (sequenceNo partitionId taskAttemptId : BitVec 64) :
    Decidable (InLayoutRange s p t sequenceNo partitionId taskAttemptId) :=
  inferInstanceAs (Decidable (_ ∧ _))

/-- The default layout the server falls back to fills the word. -/
theorem fillsWord_default :
    FillsWord defaultSequenceNoBit defaultPartitionIdBit defaultTaskIdBit :=
  ⟨by decide, by decide, by decide, by decide⟩

section Fills

variable {s p t : Int} (fill : FillsWord s p t)
include fill

theorem FillsWord.widths : s.toNat + p.toNat + t.toNat = 63 := by
  have := fill.fills
  have := fill.sequencePositive
  have := fill.partitionPositive
  have := fill.taskPositive
  omega

/-- The partition field is `x / 2^t % 2^p`. -/
theorem FillsWord.toNat_getPartitionId (blockId : BitVec 64) :
    ((IdLayout.new s p t).getPartitionId blockId).toNat =
      blockId.toNat / 2 ^ t.toNat % 2 ^ p.toNat := by
  have widths := fill.widths
  have partitionShift : shiftAmount p = p.toNat :=
    shiftAmount_of_lt (by have := fill.partitionPositive; omega) (by omega)
  have taskShift : shiftAmount t = t.toNat :=
    shiftAmount_of_lt (by have := fill.taskPositive; omega) (by omega)
  simp only [IdLayout.getPartitionId, IdLayout.new, partitionShift, taskShift]
  exact toNat_extractField blockId (by have := fill.partitionPositive; omega) (by omega)

variable {sequenceNo partitionId taskAttemptId : BitVec 64}

/-- The packed id, read as a number: the three fields in mixed radix. -/
theorem FillsWord.toNat_getBlockId
    (range : InLayoutRange s p t sequenceNo partitionId taskAttemptId) :
    ((IdLayout.new s p t).getBlockId sequenceNo partitionId taskAttemptId).toNat =
      (sequenceNo.toNat * 2 ^ p.toNat + partitionId.toNat) * 2 ^ t.toNat +
        taskAttemptId.toNat := by
  obtain ⟨sequenceBound, partitionBound, taskBound⟩ := range
  have widths := fill.widths
  have partitionPositive := fill.partitionPositive
  have taskPositive := fill.taskPositive
  have sumShift : shiftAmount (wrapSigned 32 (p + t)) = p.toNat + t.toNat := by
    have sumInRange : InSignedRange 32 (p + t) := ⟨by norm_num; omega, by norm_num; omega⟩
    rw [wrapSigned_of_inRange (by decide) sumInRange, @shiftAmount_of_lt (p + t) (by omega)
      (by omega)]
    omega
  have taskShift : shiftAmount t = t.toNat := shiftAmount_of_lt (by omega) (by omega)
  -- the sequence number and the partition id share the shift by the task width
  have regroup : sequenceNo <<< (p.toNat + t.toNat) ||| partitionId <<< t.toNat =
      (sequenceNo <<< p.toNat ||| partitionId) <<< t.toNat := by
    rw [BitVec.shiftLeft_or_distrib, BitVec.shiftLeft_add]
  have upperBound : sequenceNo.toNat * 2 ^ p.toNat + partitionId.toNat <
      2 ^ (s.toNat + p.toNat) :=
    mul_two_pow_add_lt sequenceBound partitionBound
  have wordBound : ∀ {k : Nat}, k ≤ 63 → 2 ^ k < 2 ^ 64 :=
    fun atMost => Nat.pow_lt_pow_right (by decide) (by omega)
  have upper : (sequenceNo <<< p.toNat ||| partitionId).toNat =
      sequenceNo.toNat * 2 ^ p.toNat + partitionId.toNat := by
    apply toNat_pack partitionBound
    calc sequenceNo.toNat * 2 ^ p.toNat < 2 ^ (s.toNat + p.toNat) := by omega
      _ < 2 ^ 64 := wordBound (by omega)
  have packedBound : (sequenceNo <<< p.toNat ||| partitionId).toNat * 2 ^ t.toNat < 2 ^ 64 := by
    rw [upper]
    calc (sequenceNo.toNat * 2 ^ p.toNat + partitionId.toNat) * 2 ^ t.toNat
        < 2 ^ (s.toNat + p.toNat) * 2 ^ t.toNat :=
          Nat.mul_lt_mul_of_pos_right upperBound (Nat.two_pow_pos _)
      _ = 2 ^ (s.toNat + p.toNat + t.toNat) := (Nat.pow_add 2 _ _).symm
      _ < 2 ^ 64 := wordBound (by omega)
  simp only [IdLayout.getBlockId, IdLayout.new, sumShift, taskShift, BitVec.shiftLeft_zero,
    regroup]
  rw [toNat_pack taskBound packedBound, upper]

theorem FillsWord.getPartitionId_getBlockId
    (range : InLayoutRange s p t sequenceNo partitionId taskAttemptId) :
    (IdLayout.new s p t).getPartitionId
        ((IdLayout.new s p t).getBlockId sequenceNo partitionId taskAttemptId) = partitionId := by
  apply BitVec.eq_of_toNat_eq
  rw [fill.toNat_getPartitionId, fill.toNat_getBlockId range,
    mul_two_pow_add_div range.2.2, mul_two_pow_add_mod range.2.1]

theorem FillsWord.getBlockId_lt (range : InLayoutRange s p t sequenceNo partitionId taskAttemptId) :
    ((IdLayout.new s p t).getBlockId sequenceNo partitionId taskAttemptId).toNat < 2 ^ 63 := by
  obtain ⟨sequenceBound, partitionBound, taskBound⟩ := range
  rw [fill.toNat_getBlockId ⟨sequenceBound, partitionBound, taskBound⟩, ← fill.widths]
  exact mul_two_pow_add_lt (mul_two_pow_add_lt sequenceBound partitionBound) taskBound

/-- Below the sign bit the signed and the unsigned reading of an id agree, so
the `as u64` cast into a bitmap and the `as i64` cast back keep its value. -/
theorem FillsWord.toInt_getBlockId
    (range : InLayoutRange s p t sequenceNo partitionId taskAttemptId) :
    ((IdLayout.new s p t).getBlockId sequenceNo partitionId taskAttemptId).toInt =
      ((IdLayout.new s p t).getBlockId sequenceNo partitionId taskAttemptId).toNat := by
  apply BitVec.toInt_eq_toNat_of_msb
  rw [BitVec.msb_eq_false_iff_two_mul_lt]
  have := fill.getBlockId_lt range
  omega

theorem FillsWord.getBlockId_injective {sequenceNo' partitionId' taskAttemptId' : BitVec 64}
    (range : InLayoutRange s p t sequenceNo partitionId taskAttemptId)
    (range' : InLayoutRange s p t sequenceNo' partitionId' taskAttemptId')
    (same : (IdLayout.new s p t).getBlockId sequenceNo partitionId taskAttemptId =
      (IdLayout.new s p t).getBlockId sequenceNo' partitionId' taskAttemptId') :
    sequenceNo = sequenceNo' ∧ partitionId = partitionId' ∧ taskAttemptId = taskAttemptId' := by
  have sameValue := congrArg BitVec.toNat same
  rw [fill.toNat_getBlockId range, fill.toNat_getBlockId range'] at sameValue
  obtain ⟨sequenceEq, partitionEq, taskEq⟩ :=
    mixedRadix_injective range.2.1 range.2.2 range'.2.1 range'.2.2 sameValue
  exact ⟨BitVec.eq_of_toNat_eq sequenceEq, BitVec.eq_of_toNat_eq partitionEq,
    BitVec.eq_of_toNat_eq taskEq⟩

end Fills

theorem getBlockId_layout_roundTrip (s p t : Int) (sequencePositive : 1 ≤ s)
    (partitionPositive : 1 ≤ p) (taskPositive : 1 ≤ t) (fills : s + p + t = 63) :
    (∀ sequenceNo partitionId taskAttemptId : BitVec 64,
      InLayoutRange s p t sequenceNo partitionId taskAttemptId →
        (IdLayout.new s p t).getPartitionId
          ((IdLayout.new s p t).getBlockId sequenceNo partitionId taskAttemptId) =
            partitionId) ∧
    (∀ sequenceNo partitionId taskAttemptId sequenceNo' partitionId' taskAttemptId' : BitVec 64,
      InLayoutRange s p t sequenceNo partitionId taskAttemptId →
      InLayoutRange s p t sequenceNo' partitionId' taskAttemptId' →
      (IdLayout.new s p t).getBlockId sequenceNo partitionId taskAttemptId =
        (IdLayout.new s p t).getBlockId sequenceNo' partitionId' taskAttemptId' →
      sequenceNo = sequenceNo' ∧ partitionId = partitionId' ∧
        taskAttemptId = taskAttemptId') ∧
    (∀ sequenceNo partitionId taskAttemptId : BitVec 64,
      InLayoutRange s p t sequenceNo partitionId taskAttemptId →
        0 ≤ ((IdLayout.new s p t).getBlockId sequenceNo partitionId taskAttemptId).toInt ∧
        (((IdLayout.new s p t).getBlockId sequenceNo partitionId taskAttemptId).toNat : Int) =
          ((IdLayout.new s p t).getBlockId sequenceNo partitionId taskAttemptId).toInt) := by
  have fill : FillsWord s p t := ⟨sequencePositive, partitionPositive, taskPositive, fills⟩
  refine ⟨fun _ _ _ range => fill.getPartitionId_getBlockId range,
    fun _ _ _ _ _ _ range range' same => fill.getBlockId_injective range range' same, ?_⟩
  intro sequenceNo partitionId taskAttemptId range
  rw [fill.toInt_getBlockId range]
  exact ⟨Int.natCast_nonneg _, rfl⟩

/-- The layout and the ids of the source's own test. -/
theorem getBlockId_layout_roundTrip_testIdLayout :
    (IdLayout.new 18 24 21).getPartitionId ((IdLayout.new 18 24 21).getBlockId 123 45 67) = 45 :=
  (getBlockId_layout_roundTrip 18 24 21 (by decide) (by decide) (by decide) (by decide)).1
    123 45 67 ⟨by decide, by decide, by decide⟩

end Riffle.BlockId

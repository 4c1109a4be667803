import Mathlib.Data.BitVec
import Mathlib.Tactic

/-!
# Fields packed into a machine word

A machine word of `w` bits is read as a `BitVec w`.  Packing a field `high`
above a field `low` of `i` bits is `high <<< i ||| low`; extracting a field of
`n` bits at offset `i` masks with `((1 <<< n) - 1) <<< i` and shifts right by
`i`.  The lemmas below read both operations as arithmetic on `toNat`: packing
is `high * 2^i + low` and extraction is `/ 2^i % 2^n`, as long as the packed
word stays below the sign bit.
-/

namespace Riffle.BitField

/-- Or-ing a value below `2^i` into a multiple of `2^i` adds it. -/
theorem mul_two_pow_or_eq_add {high low i : Nat} (lowBound : low < 2 ^ i) :
    high * 2 ^ i ||| low = high * 2 ^ i + low := by
  have shifted := Nat.shiftLeft_add_eq_or_of_lt lowBound high
  rw [Nat.shiftLeft_eq] at shifted
  exact shifted.symm

/-- A field of `m` bits above one of `i` bits fits in `m + i` bits. -/
theorem mul_two_pow_add_lt {high low m i : Nat} (highBound : high < 2 ^ m)
    (lowBound : low < 2 ^ i) : high * 2 ^ i + low < 2 ^ (m + i) := by
  calc high * 2 ^ i + low < (high + 1) * 2 ^ i := by rw [Nat.succ_mul]; omega
    _ ≤ 2 ^ m * 2 ^ i := Nat.mul_le_mul_right _ highBound
    _ = 2 ^ (m + i) := (Nat.pow_add 2 m i).symm

section Word

variable {w : Nat}

theorem toNat_shiftLeft_of_lt {x : BitVec w} {i : Nat} (bounded : x.toNat * 2 ^ i < 2 ^ w) :
    (x <<< i).toNat = x.toNat * 2 ^ i := by
  rw [BitVec.toNat_shiftLeft, Nat.shiftLeft_eq, Nat.mod_eq_of_lt bounded]

/-- Packing two fields: `high <<< i ||| low` is `high * 2^i + low`. -/
theorem toNat_pack {high low : BitVec w} {i : Nat} (lowBound : low.toNat < 2 ^ i)
    (bounded : high.toNat * 2 ^ i < 2 ^ w) :
    (high <<< i ||| low).toNat = high.toNat * 2 ^ i + low.toNat := by
  rw [BitVec.toNat_or, toNat_shiftLeft_of_lt bounded, mul_two_pow_or_eq_add lowBound]

/-- The mask of `n` bits at offset `i`, read as a number. -/
theorem toNat_fieldMask {n i : Nat} (positive : 0 < n) (fits : n + i < w) :
    (((1#w <<< n) - 1#w) <<< i).toNat = (2 ^ n - 1) * 2 ^ i := by
  have nBelow : 2 ^ n < 2 ^ w := Nat.pow_lt_pow_right (by decide) (by omega)
  have onePow : 1 ≤ 2 ^ n := Nat.one_le_two_pow
  have one : (1#w).toNat = 1 := BitVec.toNat_one (by omega)
  have shifted : (1#w <<< n).toNat = 2 ^ n := by
    rw [toNat_shiftLeft_of_lt (by rw [one, Nat.one_mul]; exact nBelow), one, Nat.one_mul]
  have lowered : ((1#w <<< n) - 1#w).toNat = 2 ^ n - 1 := by
    rw [BitVec.toNat_sub, shifted, one]
    have wrapped : 2 ^ w - 1 + 2 ^ n = 2 ^ w + (2 ^ n - 1) := by omega
    rw [wrapped, Nat.add_mod_left, Nat.mod_eq_of_lt (by omega)]
  have spanBound : (2 ^ n - 1) * 2 ^ i < 2 ^ w := by
    calc (2 ^ n - 1) * 2 ^ i < 2 ^ n * 2 ^ i := by
          apply Nat.mul_lt_mul_of_pos_right (by omega) (Nat.two_pow_pos _)
      _ = 2 ^ (n + i) := (Nat.pow_add 2 n i).symm
      _ < 2 ^ w := Nat.pow_lt_pow_right (by decide) fits
  rw [toNat_shiftLeft_of_lt (by rw [lowered]; exact spanBound), lowered]

/-- A mask of width `n` at offset `i` below the top bit has its sign bit clear. -/
theorem fieldMask_msb {n i : Nat} (positive : 0 < n) (fits : n + i < w) :
    (((1#w <<< n) - 1#w) <<< i).msb = false := by
  rw [BitVec.msb_eq_false_iff_two_mul_lt, toNat_fieldMask positive fits]
  have spanBound : (2 ^ n - 1) * 2 ^ i < 2 ^ (n + i) := by
    rw [Nat.pow_add]
    apply Nat.mul_lt_mul_of_pos_right (by have := @Nat.one_le_two_pow n; omega)
      (Nat.two_pow_pos _)
  have topBound : 2 * 2 ^ (n + i) ≤ 2 ^ w := by
    rw [← Nat.pow_succ']
    exact Nat.pow_le_pow_right (by decide) fits
  omega

/-- Extracting the field of `n` bits at offset `i` by masking and an
arithmetic right shift reads `x / 2^i % 2^n`. -/
theorem toNat_extractField (x : BitVec w) {n i : Nat} (positive : 0 < n) (fits : n + i < w) :
    ((x &&& (((1#w <<< n) - 1#w) <<< i)).sshiftRight i).toNat = x.toNat / 2 ^ i % 2 ^ n := by
  have signClear : (x &&& (((1#w <<< n) - 1#w) <<< i)).msb = false := by
    rw [BitVec.msb_and, fieldMask_msb positive fits, Bool.and_false]
  rw [BitVec.sshiftRight_eq_of_msb_false signClear, BitVec.toNat_ushiftRight,
    BitVec.toNat_and, toNat_fieldMask positive fits, ← Nat.shiftLeft_eq,
    Nat.shiftRight_and_distrib, Nat.shiftLeft_shiftRight, Nat.and_two_pow_sub_one_eq_mod,
    Nat.shiftRight_eq_div_pow]

/-- Truncating a sign extension back to the original width gives the value
back (`p as i64 as i32`). -/
theorem setWidth_signExtend_of_le {v : Nat} (atMost : w ≤ v) (x : BitVec w) :
    (x.signExtend v).setWidth w = x := by
  ext i below
  rw [BitVec.getElem_setWidth, BitVec.getLsbD_signExtend]
  simp [below, Nat.lt_of_lt_of_le below atMost]

end Word

/-- The field above the low `t` bits, read back by division. -/
theorem mul_two_pow_add_div {high low t : Nat} (lowBound : low < 2 ^ t) :
    (high * 2 ^ t + low) / 2 ^ t = high := by
  rw [Nat.add_comm, Nat.add_mul_div_right _ _ (Nat.two_pow_pos t), Nat.div_eq_of_lt lowBound,
    Nat.zero_add]

/-- The low `t` bits, read back as the remainder. -/
theorem mul_two_pow_add_mod {high low t : Nat} (lowBound : low < 2 ^ t) :
    (high * 2 ^ t + low) % 2 ^ t = low := by
  rw [Nat.add_comm, Nat.add_mul_mod_self_right, Nat.mod_eq_of_lt lowBound]

/-- Three fields in mixed radix determine each other: the low field is the
remainder by `2^t`, the middle one the next remainder by `2^p`, and the high
one what is left. -/
theorem mixedRadix_injective {a b c a' b' c' p t : Nat}
    (middle : b < 2 ^ p) (low : c < 2 ^ t) (middle' : b' < 2 ^ p) (low' : c' < 2 ^ t)
    (same : (a * 2 ^ p + b) * 2 ^ t + c = (a' * 2 ^ p + b') * 2 ^ t + c') :
    a = a' ∧ b = b' ∧ c = c' := by
  have lowPart : c = c' := by
    rw [← mul_two_pow_add_mod low, same, mul_two_pow_add_mod low']
  have upperPart : a * 2 ^ p + b = a' * 2 ^ p + b' := by
    rw [← @mul_two_pow_add_div (a * 2 ^ p + b) c t low, same, mul_two_pow_add_div low']
  have middlePart : b = b' := by
    rw [← mul_two_pow_add_mod middle, upperPart, mul_two_pow_add_mod middle']
  have highPart : a = a' := by
    rw [← @mul_two_pow_add_div a b p middle, upperPart, mul_two_pow_add_div middle']
  exact ⟨highPart, middlePart, lowPart⟩

end Riffle.BitField

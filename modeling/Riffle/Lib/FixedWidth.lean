import Mathlib.Tactic

/-!
# Fixed-width integers and their big-endian encodings

Machine integers are modelled as mathematical integers together with the
conversions a systems language applies at its casts and in wrapping
arithmetic:

* `toUnsigned bits` keeps the low `bits` bits (`as uN`, two's complement);
* `toSigned bits` reads an unsigned value as two's complement (`as iN`);
* `wrapSigned bits` is the composite, i.e. release-mode wrapping arithmetic.

Values travel over the wire as big-endian byte strings: `encodeNat width`
writes the low `width` bytes of a number, most significant first, and
`decodeNat` reads any byte string back.  The round-trip lemmas are the
only facts about encodings the frame and index codecs use.
-/

namespace Riffle.FixedWidth

/-- The low `bits` bits of an integer, as an unsigned number. -/
def toUnsigned (bits : Nat) (value : Int) : Nat :=
  (value % (2 ^ bits : Int)).toNat

/-- Two's-complement reading of an unsigned `bits`-bit number. -/
def toSigned (bits : Nat) (value : Nat) : Int :=
  if value < 2 ^ (bits - 1) then value else (value : Int) - 2 ^ bits

/-- Wrapping conversion into the signed `bits`-bit range. -/
def wrapSigned (bits : Nat) (value : Int) : Int :=
  toSigned bits (toUnsigned bits value)

/-- `value` lies in the range of the signed `bits`-bit integers. -/
def InSignedRange (bits : Nat) (value : Int) : Prop :=
  -(2 ^ (bits - 1) : Int) ≤ value ∧ value < 2 ^ (bits - 1)

instance (bits : Nat) (value : Int) : Decidable (InSignedRange bits value) :=
  inferInstanceAs (Decidable (_ ∧ _))

theorem toUnsigned_lt (bits : Nat) (value : Int) :
    toUnsigned bits value < 2 ^ bits := by
  have positive : (0 : Int) < 2 ^ bits := by positivity
  have remainderBound := Int.emod_lt_of_pos value positive
  have remainderNonneg := Int.emod_nonneg value positive.ne'
  have castPower : ((2 ^ bits : Nat) : Int) = (2 : Int) ^ bits := by
    push_cast
    rfl
  unfold toUnsigned
  omega

theorem toUnsigned_of_nonneg {bits : Nat} {value : Int}
    (nonneg : 0 ≤ value) (bounded : value < 2 ^ bits) :
    toUnsigned bits value = value.toNat := by
  unfold toUnsigned
  rw [Int.emod_eq_of_lt nonneg bounded]

theorem toUnsigned_natCast {bits value : Nat} (bounded : value < 2 ^ bits) :
    toUnsigned bits value = value := by
  rw [toUnsigned_of_nonneg (Int.natCast_nonneg value) (by exact_mod_cast bounded)]
  rfl

theorem toSigned_of_lt {bits value : Nat} (small : value < 2 ^ (bits - 1)) :
    toSigned bits value = value := by
  rw [toSigned, if_pos small]

/-- Reading back the low bits of an in-range integer gives the integer. -/
theorem toSigned_toUnsigned {bits : Nat} {value : Int} (positiveWidth : 0 < bits)
    (inRange : InSignedRange bits value) :
    toSigned bits (toUnsigned bits value) = value := by
  obtain ⟨lower, upper⟩ := inRange
  have halfPower : (2 : Int) ^ bits = 2 * 2 ^ (bits - 1) := by
    rw [← pow_succ']
    congr 1
    omega
  have halfPowerNat : (2 : Nat) ^ bits = 2 * 2 ^ (bits - 1) := by
    exact_mod_cast halfPower
  unfold toSigned toUnsigned
  by_cases nonneg : 0 ≤ value
  · have smallRemainder : value % (2 ^ bits : Int) = value :=
      Int.emod_eq_of_lt nonneg (by omega)
    rw [smallRemainder]
    have belowHalf : value.toNat < 2 ^ (bits - 1) := by
      have cast : ((2 ^ (bits - 1) : Nat) : Int) = 2 ^ (bits - 1) := by
        push_cast
        rfl
      omega
    rw [if_pos belowHalf]
    exact Int.toNat_of_nonneg nonneg
  · have shiftedRemainder :
        value % (2 ^ bits : Int) = value + 2 ^ bits := by
      rw [Int.emod_eq_add_self_emod]
      exact Int.emod_eq_of_lt (by omega) (by omega)
    rw [shiftedRemainder]
    have castHalf : ((2 ^ (bits - 1) : Nat) : Int) = 2 ^ (bits - 1) := by
      push_cast
      rfl
    have notBelowHalf : ¬ (value + 2 ^ bits).toNat < 2 ^ (bits - 1) := by
      omega
    rw [if_neg notBelowHalf]
    have castBack : (((value + 2 ^ bits).toNat : Nat) : Int) =
        value + 2 ^ bits :=
      Int.toNat_of_nonneg (by omega)
    rw [castBack]
    ring

theorem wrapSigned_of_inRange {bits : Nat} {value : Int} (positiveWidth : 0 < bits)
    (inRange : InSignedRange bits value) :
    wrapSigned bits value = value :=
  toSigned_toUnsigned positiveWidth inRange

theorem wrapSigned_inRange {bits : Nat} (positiveWidth : 0 < bits) (value : Int) :
    InSignedRange bits (wrapSigned bits value) := by
  have below := toUnsigned_lt bits value
  have halfPower : (2 : Nat) ^ bits = 2 * 2 ^ (bits - 1) := by
    rw [← pow_succ']
    congr 1
    omega
  have castPower : ((2 ^ bits : Nat) : Int) = 2 ^ bits := by
    push_cast
    rfl
  have castHalf : ((2 ^ (bits - 1) : Nat) : Int) = 2 ^ (bits - 1) := by
    push_cast
    rfl
  unfold wrapSigned toSigned InSignedRange
  split <;> constructor <;> omega

/-- A value in `[0, 2 ^ (bits - 1))` is in the signed range. -/
theorem InSignedRange.of_nonneg {bits : Nat} {value : Int} (nonneg : 0 ≤ value)
    (small : value < 2 ^ (bits - 1)) : InSignedRange bits value :=
  ⟨le_trans (neg_nonpos.mpr (by positivity)) nonneg, small⟩

theorem InSignedRange.widen {bits wider : Nat} {value : Int} (positiveWidth : 0 < bits)
    (atMost : bits ≤ wider) (inRange : InSignedRange bits value) :
    InSignedRange wider value := by
  obtain ⟨lower, upper⟩ := inRange
  have halfGrows : (2 : Int) ^ (bits - 1) ≤ 2 ^ (wider - 1) :=
    pow_le_pow_right₀ (by norm_num) (by omega)
  exact ⟨by omega, by omega⟩

/-- Keeping the low bits of the low bits is keeping the low bits. -/
theorem toUnsigned_toUnsigned {small large : Nat} (atMost : small ≤ large) (value : Int) :
    toUnsigned small (toUnsigned large value) = toUnsigned small value := by
  have largeNonneg : 0 ≤ value % (2 ^ large : Int) :=
    Int.emod_nonneg value (by positivity)
  have divides : (2 ^ small : Int) ∣ 2 ^ large := pow_dvd_pow 2 atMost
  unfold toUnsigned
  rw [Int.toNat_of_nonneg largeNonneg, Int.emod_emod_of_dvd value divides]

/-- A wrapping counter: adding to the low bits of a value and keeping the low
bits is adding to the value. -/
theorem toUnsigned_toUnsigned_add (bits : Nat) (value offset : Int) :
    toUnsigned bits ((toUnsigned bits value : Int) + offset) = toUnsigned bits (value + offset) := by
  have lowNonneg : 0 ≤ value % (2 ^ bits : Int) := Int.emod_nonneg value (by positivity)
  unfold toUnsigned
  rw [Int.toNat_of_nonneg lowNonneg, Int.emod_add_emod]

/-- Subtracting the low bits of a value and keeping the low bits is
subtracting the value. -/
theorem toUnsigned_sub_toUnsigned (bits : Nat) (value offset : Int) :
    toUnsigned bits (value - (toUnsigned bits offset : Int)) = toUnsigned bits (value - offset) := by
  have lowNonneg : 0 ≤ offset % (2 ^ bits : Int) := Int.emod_nonneg offset (by positivity)
  unfold toUnsigned
  rw [Int.toNat_of_nonneg lowNonneg, Int.sub_emod_emod]

/-- An unsigned subtraction that goes below zero wraps round to the top of
the range. -/
theorem toUnsigned_sub_of_lt {bits small large : Nat} (below : small < large)
    (fits : large - small ≤ 2 ^ bits) :
    toUnsigned bits ((small : Int) - large) = 2 ^ bits - (large - small) := by
  have castPower : ((2 ^ bits : Nat) : Int) = (2 : Int) ^ bits := by
    push_cast
    rfl
  have wrapped : ((small : Int) - large) % 2 ^ bits = (small : Int) - large + 2 ^ bits := by
    rw [← Int.add_emod_right]
    exact Int.emod_eq_of_lt (by omega) (by omega)
  unfold toUnsigned
  rw [wrapped]
  omega

/-- Masking a `width`-bit value with the complement of `2 ^ k - 1` clears its
low `k` bits, which rounds it down to a multiple of `2 ^ k`. -/
theorem land_not_low_bits {width k value : Nat} (atMost : k ≤ width) (bounded : value < 2 ^ width) :
    value &&& (2 ^ width - 1 - (2 ^ k - 1)) = value / 2 ^ k * 2 ^ k := by
  have lowBelow : 2 ^ k - 1 < 2 ^ width :=
    Nat.lt_of_lt_of_le (Nat.sub_lt (Nat.two_pow_pos k) Nat.one_pos)
      (Nat.pow_le_pow_right (by decide) atMost)
  have mask : 2 ^ width - 1 - (2 ^ k - 1) = 2 ^ width - (2 ^ k - 1 + 1) := by
    have := Nat.two_pow_pos k
    omega
  rw [mask]
  apply Nat.eq_of_testBit_eq
  intro bit
  rw [Nat.testBit_and, Nat.testBit_two_pow_sub_succ lowBelow, Nat.testBit_two_pow_sub_one,
    Nat.testBit_mul_two_pow, Nat.testBit_div_two_pow]
  by_cases low : bit < k
  · simp [low, Nat.not_le.mpr low]
  by_cases inside : bit < width
  · have shifted : bit - k + k = bit := by omega
    simp [low, inside, shifted, Nat.not_lt.mp low]
  · -- above the width both sides are zero
    have clear : value.testBit bit = false :=
      Nat.testBit_lt_two_pow (Nat.lt_of_lt_of_le bounded
        (Nat.pow_le_pow_right (by decide) (Nat.not_lt.mp inside)))
    have shifted : bit - k + k = bit := by omega
    simp [inside, clear, shifted]

/-! ## Big-endian byte strings -/

/-- The low `width` bytes of `value`, most significant first. -/
def encodeNat : Nat → Nat → List UInt8
  | 0, _ => []
  | width + 1, value =>
      encodeNat width (value / 256) ++ [UInt8.ofNat (value % 256)]

/-- One step of big-endian reading: shift in the next byte. -/
def shiftInByte (accumulated : Nat) (byte : UInt8) : Nat :=
  accumulated * 256 + byte.toNat

/-- The number a big-endian byte string denotes. -/
def decodeNat (bytes : List UInt8) : Nat :=
  bytes.foldl shiftInByte 0

/-- Big-endian two's-complement encoding of a signed integer. -/
def encodeInt (width : Nat) (value : Int) : List UInt8 :=
  encodeNat width (toUnsigned (8 * width) value)

/-- Two's-complement reading of a big-endian byte string. -/
def decodeInt (bytes : List UInt8) : Int :=
  toSigned (8 * bytes.length) (decodeNat bytes)

@[simp]
theorem length_encodeNat (width value : Nat) :
    (encodeNat width value).length = width := by
  induction width generalizing value with
  | zero =>
      rfl
  | succ width inductionHypothesis =>
      simp [encodeNat, inductionHypothesis]

@[simp]
theorem length_encodeInt (width : Nat) (value : Int) :
    (encodeInt width value).length = width :=
  length_encodeNat width _

/-- Reading from a non-zero accumulator shifts it past the bytes read. -/
theorem foldl_shiftInByte (start : Nat) (bytes : List UInt8) :
    bytes.foldl shiftInByte start =
      start * 256 ^ bytes.length + decodeNat bytes := by
  induction bytes generalizing start with
  | nil =>
      simp [decodeNat]
  | cons byte rest inductionHypothesis =>
      unfold decodeNat
      rw [List.foldl_cons, List.foldl_cons, inductionHypothesis,
        inductionHypothesis (shiftInByte 0 byte)]
      simp only [shiftInByte, List.length_cons, pow_succ]
      ring

theorem decodeNat_append (front back : List UInt8) :
    decodeNat (front ++ back) =
      decodeNat front * 256 ^ back.length + decodeNat back := by
  unfold decodeNat
  rw [List.foldl_append, foldl_shiftInByte]
  rfl

theorem decodeNat_encodeNat (width value : Nat) :
    decodeNat (encodeNat width value) = value % 256 ^ width := by
  induction width generalizing value with
  | zero =>
      simp [encodeNat, decodeNat, Nat.mod_one]
  | succ width inductionHypothesis =>
      rw [encodeNat, decodeNat_append, inductionHypothesis]
      have lastByte : decodeNat [UInt8.ofNat (value % 256)] = value % 256 := by
        simp [decodeNat, shiftInByte, Nat.mod_mod_of_dvd]
      rw [lastByte, List.length_singleton, pow_one, pow_succ', Nat.mod_mul]
      ring

theorem decodeNat_lt (bytes : List UInt8) :
    decodeNat bytes < 256 ^ bytes.length := by
  induction bytes using List.reverseRecOn with
  | nil =>
      simp [decodeNat]
  | append_singleton initial last inductionHypothesis =>
      rw [decodeNat_append]
      have lastBound : decodeNat [last] < 256 := by
        simpa [decodeNat, shiftInByte] using last.toNat_lt
      simp only [List.length_append, List.length_singleton, pow_succ]
      omega

/-- Decoding an in-range value's encoding gives the value back. -/
theorem decodeInt_encodeInt {width : Nat} {value : Int} (positiveWidth : 0 < width)
    (inRange : InSignedRange (8 * width) value) :
    decodeInt (encodeInt width value) = value := by
  unfold decodeInt encodeInt
  rw [length_encodeNat, decodeNat_encodeNat]
  have powerEquation : (256 : Nat) ^ width = 2 ^ (8 * width) := by
    rw [pow_mul]
    norm_num
  rw [powerEquation, Nat.mod_eq_of_lt (toUnsigned_lt _ _)]
  exact toSigned_toUnsigned (by omega) inRange

theorem toUnsigned_toSigned {bits value : Nat} (bounded : value < 2 ^ bits) :
    toUnsigned bits (toSigned bits value) = value := by
  unfold toSigned
  split_ifs
  · exact toUnsigned_natCast bounded
  · -- a value read as negative wraps back
    unfold toUnsigned
    rw [Int.sub_emod_right, Int.emod_eq_of_lt (Int.natCast_nonneg value) (by exact_mod_cast bounded)]
    rfl

/-- Wrapping keeps the low bits. -/
theorem toUnsigned_wrapSigned (bits : Nat) (value : Int) :
    toUnsigned bits (wrapSigned bits value) = toUnsigned bits value :=
  toUnsigned_toSigned (toUnsigned_lt bits value)

/-- A running total kept in a wrapping register is the wrapped total: wrapping
a summand first changes nothing once the sum is wrapped. -/
theorem wrapSigned_wrapSigned_add (bits : Nat) (value offset : Int) :
    wrapSigned bits (wrapSigned bits value + offset) = wrapSigned bits (value + offset) := by
  have lowBits : toUnsigned bits (wrapSigned bits value + offset) =
      toUnsigned bits (value + offset) := by
    rw [← toUnsigned_toUnsigned_add bits value offset,
      ← toUnsigned_toUnsigned_add bits (wrapSigned bits value) offset, toUnsigned_wrapSigned]
  show toSigned bits (toUnsigned bits (wrapSigned bits value + offset)) =
    toSigned bits (toUnsigned bits (value + offset))
  rw [lowBits]

theorem toSigned_inRange {bits value : Nat} (positiveWidth : 0 < bits) (bounded : value < 2 ^ bits) :
    InSignedRange bits (toSigned bits value) := by
  have doubled : (2 : Int) ^ bits = 2 * 2 ^ (bits - 1) := by
    rw [← pow_succ', Nat.sub_add_cancel positiveWidth]
  have boundedInt : (value : Int) < 2 ^ bits := by exact_mod_cast bounded
  have powerPos : (0 : Int) < 2 ^ (bits - 1) := by positivity
  unfold toSigned InSignedRange
  split_ifs with small
  · have smallInt : (value : Int) < 2 ^ (bits - 1) := by exact_mod_cast small
    exact ⟨by omega, smallInt⟩
  · have largeInt : (2 : Int) ^ (bits - 1) ≤ value := by exact_mod_cast Nat.not_lt.mp small
    exact ⟨by omega, by omega⟩

theorem encodeNat_decodeNat (bytes : List UInt8) :
    encodeNat bytes.length (decodeNat bytes) = bytes := by
  induction bytes using List.reverseRecOn with
  | nil =>
      rfl
  | append_singleton initial last inductionHypothesis =>
      have lastBound : last.toNat < 256 := last.toNat_lt
      have shifted : decodeNat (initial ++ [last]) = decodeNat initial * 256 + last.toNat := by
        rw [decodeNat_append]
        simp [decodeNat, shiftInByte]
      have quotient : (decodeNat initial * 256 + last.toNat) / 256 = decodeNat initial := by
        omega
      have remainder : (decodeNat initial * 256 + last.toNat) % 256 = last.toNat := by
        omega
      rw [List.length_append, List.length_singleton, encodeNat, shifted, quotient, remainder,
        inductionHypothesis, UInt8.ofNat_toNat]

theorem decodeNat_lt_two_pow (bytes : List UInt8) :
    decodeNat bytes < 2 ^ (8 * bytes.length) := by
  have powerEquation : (256 : Nat) ^ bytes.length = 2 ^ (8 * bytes.length) := by
    rw [pow_mul]
    norm_num
  exact powerEquation ▸ decodeNat_lt bytes

/-- Every byte string is the encoding of what it decodes to. -/
theorem encodeInt_decodeInt (bytes : List UInt8) :
    encodeInt bytes.length (decodeInt bytes) = bytes := by
  unfold encodeInt decodeInt
  rw [toUnsigned_toSigned (decodeNat_lt_two_pow bytes), encodeNat_decodeNat]

/-- What a non-empty byte string decodes to fits its width. -/
theorem decodeInt_inRange {bytes : List UInt8} (nonempty : bytes ≠ []) :
    InSignedRange (8 * bytes.length) (decodeInt bytes) := by
  have positive : 0 < 8 * bytes.length := by
    have := List.length_pos_of_ne_nil nonempty
    omega
  exact toSigned_inRange positive (decodeNat_lt_two_pow bytes)

end Riffle.FixedWidth

import Mathlib
import ScriptEngine.Machine.Container

/-!
# The exact value of a number

A finite double is a dyadic fraction, `Number.value?`.  The binary form is canonical, so two
numbers are equal exactly if their values are (`Number.beq_iff_of_value?`), so the two zeros
are equal.  One number is below another exactly if its value is (`Number.lt_iff_of_value?`).
`Number.integer?` finds the integers among the values, and every count below `2 ^ 53` is the
value of its number (`Number.value?_count`).
-/

namespace ScriptEngine

namespace Number

/-- The value of a number that is finite. -/
def value? (number : Float) : Option ℚ :=
  match denote number with
  | .finite negative significand exponent =>
    some ((if negative then -1 else 1) * significand * 2 ^ exponent)
  | _ => none

/-- The three fields of the binary form. -/
theorem toBits_eq_fields (number : Float) :
    ∃ sign field fraction : Nat,
      number.toBits.toNat = sign * twoTo 63 + field * twoTo 52 + fraction ∧
        sign < 2 ∧ field < 2048 ∧ fraction < twoTo 52 ∧
          number.toBits.toNat / twoTo 63 = sign ∧
            number.toBits.toNat / twoTo 52 % twoTo 11 = field ∧
              number.toBits.toNat % twoTo 52 = fraction := by
  have bound : number.toBits.toNat < 18446744073709551616 := number.toBits.toNat_lt
  have sign : twoTo 63 = 9223372036854775808 := rfl
  have fraction : twoTo 52 = 4503599627370496 := rfl
  have field : twoTo 11 = 2048 := rfl
  rw [sign, fraction, field]
  refine ⟨_, _, _, ?_, ?_, ?_, ?_, rfl, rfl, rfl⟩ <;> omega

/-- The significand of a finite number is as large as the exponent allows. -/
theorem canonical_of_denote
    {number : Float}
    {negative : Bool}
    {significand : Nat}
    {exponent : Int}
    (finite : denote number = .finite negative significand exponent) :
    significand < 2 * twoTo 52 ∧ -1074 ≤ exponent ∧
      (twoTo 52 ≤ significand ∨ exponent = -1074) := by
  obtain ⟨sign, field, fraction, -, -, -, small, isSign, isField, isFraction⟩ :=
    toBits_eq_fields number
  unfold denote at finite
  simp only [isSign, isField, isFraction] at finite
  split at finite
  · split at finite <;> cases finite
  · split at finite
    · cases finite
      exact ⟨by omega, by omega, .inr rfl⟩
    · rename_i notZero
      cases finite
      refine ⟨by omega, ?_, .inl (Nat.le_add_left _ _)⟩
      have : (1 : Int) ≤ Int.ofNat field := Int.ofNat_le.mpr (Nat.pos_of_ne_zero notZero)
      omega

/-- The binary form is determined by what it denotes. -/
theorem eq_of_denote
    {first second : Float}
    {negative : Bool}
    {significand : Nat}
    {exponent : Int}
    (isFirst : denote first = .finite negative significand exponent)
    (isSecond : denote second = .finite negative significand exponent) :
    first = second := by
  obtain ⟨sign, field, fraction, bits, signSmall, fieldSmall, small, isSign, isField, isFraction⟩ :=
    toBits_eq_fields first
  obtain ⟨sign', field', fraction', bits', signSmall', fieldSmall', small', isSign', isField',
    isFraction'⟩ := toBits_eq_fields second
  unfold denote at isFirst isSecond
  simp only [isSign, isField, isFraction] at isFirst
  simp only [isSign', isField', isFraction'] at isSecond
  have sameSign : (sign == 1) = (sign' == 1) → sign = sign' := by
    intro same
    have : sign = 1 ↔ sign' = 1 := by simpa using congrArg (· = true) same
    omega
  have same : sign = sign' ∧ field = field' ∧ fraction = fraction' := by
    split at isFirst
    · split at isFirst <;> cases isFirst
    split at isSecond
    · split at isSecond <;> cases isSecond
    split at isFirst <;> split at isSecond <;> cases isFirst <;>
      obtain ⟨signs, fractions, exponents⟩ := Denotation.finite.inj isSecond
    · exact ⟨sameSign signs.symm, by omega, fractions.symm⟩
    · omega
    · omega
    · have fields : Int.ofNat field' = Int.ofNat field := by omega
      exact ⟨sameSign signs.symm, (Int.ofNat.inj fields).symm, by omega⟩
  obtain ⟨rfl, rfl, rfl⟩ := same
  exact Float.toBits_inj.mp (UInt64.toNat_inj.mp (bits.trans bits'.symm))

/-- Two canonical fractions with the same size are the same. -/
theorem eq_of_canonical
    {first second : Nat}
    {low high : Int}
    (firstSmall : first < 2 * twoTo 52)
    (secondCanonical : twoTo 52 ≤ second ∨ high = -1074)
    (lowest : -1074 ≤ low)
    (ordered : low ≤ high)
    (same : (first : ℚ) * 2 ^ low = second * 2 ^ high) :
    first = second ∧ low = high := by
  obtain ⟨distance, rfl⟩ := Int.le.dest ordered
  have scaled : first = second * 2 ^ distance := by
    have nonzero : (2 : ℚ) ^ low ≠ 0 := zpow_ne_zero _ two_ne_zero
    rw [zpow_add₀ two_ne_zero, zpow_natCast, mul_comm ((2 : ℚ) ^ low), ← mul_assoc] at same
    exact_mod_cast mul_right_cancel₀ nonzero same
  cases distance with
  | zero => exact ⟨by simpa using scaled, by simp⟩
  | succ distance =>
      rcases secondCanonical with large | isLowest
      · have grows : second * 2 ≤ second * 2 ^ (distance + 1) :=
          Nat.mul_le_mul_left _ (Nat.le_self_pow (Nat.succ_ne_zero _) 2)
        omega
      · push_cast at isLowest
        omega

theorem denote_zero : denote 0 = .finite false 0 (-1074) := by
  decide

theorem denote_negativeZero : denote (-0) = .finite true 0 (-1074) := by
  decide

/-- A number without a significand is one of the two zeros. -/
theorem eq_zero_of_denote
    {number : Float}
    {negative : Bool}
    {exponent : Int}
    (finite : denote number = .finite negative 0 exponent) :
    number = if negative then -0 else 0 := by
  obtain ⟨-, -, isLarge | rfl⟩ := canonical_of_denote finite
  · exact absurd isLarge (by decide)
  · cases negative with
    | false => exact eq_of_denote finite denote_zero
    | true => exact eq_of_denote finite denote_negativeZero

theorem value?_zero : value? 0 = some 0 := by
  simp [value?, denote_zero]

theorem value?_negativeZero : value? (-0) = some 0 := by
  simp [value?, denote_negativeZero]

theorem value?_nan : value? Float.nan = none := by
  have : denote Float.nan = .notANumber := by decide
  simp [value?, this]

/-- A value comes from a significand, an exponent and a sign. -/
theorem denote_of_value?
    {number : Float}
    {value : ℚ}
    (isValue : value? number = some value) :
    ∃ negative significand exponent,
      denote number = .finite negative significand exponent ∧
        value = (if negative then -1 else 1) * significand * 2 ^ exponent := by
  unfold value? at isValue
  split at isValue
  · rename_i negative significand exponent finite
    exact ⟨negative, significand, exponent, finite, (Option.some.inj isValue).symm⟩
  · cases isValue

/-- The size of a value is that of its dyadic fraction. -/
theorem abs_dyadic (negative : Bool) (significand : Nat) (exponent : Int) :
    |(if negative then (-1 : ℚ) else 1) * significand * 2 ^ exponent| =
      significand * 2 ^ exponent := by
  have positive : (0 : ℚ) < 2 ^ exponent := zpow_pos two_pos _
  cases negative <;> simp [abs_mul, abs_of_pos positive]

/-- The sign of a value that is not zero is that of its dyadic fraction. -/
theorem dyadic_neg_iff (negative : Bool) {significand : Nat} (exponent : Int)
    (nonzero : significand ≠ 0) :
    (if negative then (-1 : ℚ) else 1) * significand * 2 ^ exponent < 0 ↔ negative = true := by
  have positive : (0 : ℚ) < significand * 2 ^ exponent :=
    mul_pos (Nat.cast_pos.mpr (Nat.pos_of_ne_zero nonzero)) (zpow_pos two_pos _)
  cases negative with
  | false => simpa [mul_assoc] using positive.le
  | true => simpa [mul_assoc] using positive

/-- Numbers with the same value are equal or zeros. -/
theorem eq_or_zeros_of_value?
    {first second : Float}
    {value : ℚ}
    (isFirst : value? first = some value)
    (isSecond : value? second = some value) :
    first = second ∨ first = 0 ∧ second = -0 ∨ first = -0 ∧ second = 0 := by
  obtain ⟨negative, significand, exponent, denotes, rfl⟩ := denote_of_value? isFirst
  obtain ⟨negative', significand', exponent', denotes', same⟩ := denote_of_value? isSecond
  have size : (significand : ℚ) * 2 ^ exponent = significand' * 2 ^ exponent' := by
    rw [← abs_dyadic negative, ← abs_dyadic negative', same]
  obtain ⟨small, lowest, canonical⟩ := canonical_of_denote denotes
  obtain ⟨small', lowest', canonical'⟩ := canonical_of_denote denotes'
  have parts : significand = significand' ∧ exponent = exponent' := by
    rcases le_total exponent exponent' with ordered | ordered
    · exact eq_of_canonical small canonical' lowest ordered size
    · obtain ⟨significands, exponents⟩ :=
        eq_of_canonical small' canonical lowest' ordered size.symm
      exact ⟨significands.symm, exponents.symm⟩
  obtain ⟨rfl, rfl⟩ := parts
  by_cases isZero : significand = 0
  · subst isZero
    rw [eq_zero_of_denote denotes, eq_zero_of_denote denotes']
    cases negative <;> cases negative' <;> simp
  · have signs : negative = negative' := by
      rw [Bool.eq_iff_iff, ← dyadic_neg_iff negative exponent isZero, same,
        dyadic_neg_iff negative' exponent isZero]
    exact .inl (eq_of_denote denotes (signs ▸ denotes'))

/-- Finite numbers are equal exactly if they have the same value. -/
theorem beq_iff_of_value?
    {first second : Float}
    {value other : ℚ}
    (isFirst : value? first = some value)
    (isSecond : value? second = some other) :
    (first == second) = true ↔ value = other := by
  rw [Float.beq_iff_ne_nan_and_eq]
  constructor
  · rintro ⟨-, -, rfl | ⟨rfl, rfl⟩ | ⟨rfl, rfl⟩⟩
    · exact Option.some.inj (isFirst.symm.trans isSecond)
    · rw [value?_zero] at isFirst
      rw [value?_negativeZero] at isSecond
      exact Option.some.inj (isFirst.symm.trans isSecond)
    · rw [value?_negativeZero] at isFirst
      rw [value?_zero] at isSecond
      exact Option.some.inj (isFirst.symm.trans isSecond)
  · rintro rfl
    refine ⟨?_, ?_, eq_or_zeros_of_value? isFirst isSecond⟩
    · rintro rfl
      cases value?_nan.symm.trans isFirst
    · rintro rfl
      cases value?_nan.symm.trans isSecond

/-- Whatever equals a number with a value has that value. -/
theorem value?_of_beq
    {first second : Float}
    {value : ℚ}
    (isSecond : value? second = some value)
    (equal : (first == second) = true) :
    value? first = some value := by
  obtain ⟨-, -, rfl | ⟨rfl, rfl⟩ | ⟨rfl, rfl⟩⟩ := Float.beq_iff_ne_nan_and_eq.mp equal
  · exact isSecond
  · rw [value?_zero, ← value?_negativeZero, isSecond]
  · rw [value?_negativeZero, ← value?_zero, isSecond]

/-! ## Order -/

section

open Float.Model Float.Model.UnpackedFloat

theorem toNat_unpackMantissa (bits : BitVec 64) :
    (@unpackMantissa Format.binary64 bits).toNat = bits.toNat % twoTo 52 := by
  simp [unpackMantissa, twoTo]

theorem toNat_unpackExponent (bits : BitVec 64) :
    (@unpackExponent Format.binary64 bits).toNat = bits.toNat / twoTo 52 % twoTo 11 := by
  simp [unpackExponent, twoTo, Nat.shiftRight_eq_div_pow]

theorem toNat_unpackSign (bits : BitVec 64) :
    (@unpackSign Format.binary64 bits).toNat = bits.toNat / twoTo 63 := by
  have single : bits.toNat / 2 ^ 63 < 2 := by
    have bounded := bits.isLt
    omega
  simpa [unpackSign, twoTo, Nat.shiftRight_eq_div_pow] using Nat.mod_eq_of_lt single

/-- The sign of a number that is negative or not, as it stands among the parts. -/
def signOf (negative : Bool) : UnpackedFloat.Sign :=
  if negative then .negative else .positive

theorem ofBitVec_eq_signOf (bit : BitVec 1) : Sign.ofBitVec bit = signOf (bit.toNat == 1) := by
  have : bit = 0#1 ∨ bit = 1#1 := by
    have := bit.isLt
    simp only [← BitVec.toNat_inj, BitVec.toNat_ofNat]
    omega
  rcases this with rfl | rfl <;> rfl

/-- Equal parts make equal numbers. -/
theorem finite_congr
    {sign : Sign}
    {mantissa significand : Nat}
    {place exponent : Int}
    {positive : 0 < mantissa}
    (sameMantissa : mantissa = significand)
    (samePlace : place = exponent) :
    ∃ stillPositive,
      UnpackedFloat.finite sign mantissa place positive =
        .finite sign significand exponent stillPositive := by
  subst sameMantissa samePlace
  exact ⟨positive, rfl⟩

/-- A finite number has the parts that it denotes, and none if they are zero. -/
theorem unpack_of_denote
    {number : Float}
    {negative : Bool}
    {significand : Nat}
    {exponent : Int}
    (finite : denote number = .finite negative significand exponent) :
    significand = 0 ∧ number.toModel.unpack = .zero (signOf negative) ∨
      ∃ positive,
        number.toModel.unpack = .finite (signOf negative) significand exponent positive := by
  obtain ⟨sign, field, fraction, -, -, fieldSmall, -, isSign, isField, isFraction⟩ :=
    toBits_eq_fields number
  have opened : number.toModel.unpack =
      UnpackedFloat.unpack Format.binary64 number.toBits.toBitVec := rfl
  have mantissa := (toNat_unpackMantissa number.toBits.toBitVec).trans isFraction
  have biased := (toNat_unpackExponent number.toBits.toBitVec).trans isField
  have signBit := (toNat_unpackSign number.toBits.toBitVec).trans isSign
  have signs := ofBitVec_eq_signOf (@unpackSign Format.binary64 number.toBits.toBitVec)
  rw [signBit] at signs
  unfold denote at finite
  simp only [isSign, isField, isFraction] at finite
  rw [opened]
  unfold UnpackedFloat.unpack
  simp only [signs]
  split at finite
  · split at finite <;> cases finite
  · rename_i notMax
    have notSpecial : @unpackExponent Format.binary64 number.toBits.toBitVec ≠ -1#_ := by
      intro isMax
      rw [isMax] at biased
      exact notMax (biased.symm.trans rfl)
    rw [if_neg notSpecial]
    split at finite
    · rename_i isZero
      cases finite
      have subnormal : @unpackExponent Format.binary64 number.toBits.toBitVec = 0#11 :=
        BitVec.eq_of_toNat_eq (biased.trans isZero)
      rw [if_pos subnormal]
      split
      · rename_i noMantissa
        rw [noMantissa] at mantissa
        exact .inl ⟨mantissa.symm, rfl⟩
      · refine .inr (finite_congr mantissa ?_)
        rw [biased, isZero]
        rfl
    · rename_i notZero
      cases finite
      have normal : @unpackExponent Format.binary64 number.toBits.toBitVec ≠ 0#_ := by
        intro isNone
        rw [isNone] at biased
        exact notZero (biased.symm.trans rfl)
      rw [if_neg normal]
      refine .inr (finite_congr ?_ ?_)
      · rw [BitVec.toNat_append, ← Nat.shiftLeft_add_eq_or_of_lt (BitVec.isLt _), mantissa,
          Nat.add_comm]
        rfl
      · rw [biased]
        rfl

/-- A canonical fraction with a smaller exponent is smaller. -/
theorem lt_of_canonical
    {first second : Nat}
    {low high : Int}
    (firstSmall : first < 2 * twoTo 52)
    (secondCanonical : twoTo 52 ≤ second ∨ high = -1074)
    (lowest : -1074 ≤ low)
    (less : low < high) :
    (first : ℚ) * 2 ^ low < second * 2 ^ high := by
  obtain ⟨distance, rfl⟩ := Int.le.dest (Int.add_one_le_of_lt less)
  have large : twoTo 52 ≤ second := secondCanonical.resolve_right (by omega)
  have scaled : first < second * 2 ^ (distance + 1) := by
    have grows : second * 2 ≤ second * 2 ^ (distance + 1) :=
      Nat.mul_le_mul_left _ (Nat.le_self_pow (Nat.succ_ne_zero _) 2)
    omega
  have positive : (0 : ℚ) < 2 ^ low := zpow_pos two_pos _
  calc (first : ℚ) * 2 ^ low
      < ((second * 2 ^ (distance + 1) : Nat) : ℚ) * 2 ^ low :=
        mul_lt_mul_of_pos_right (by exact_mod_cast scaled) positive
    _ = second * 2 ^ (low + 1 + distance) := by
        have exponent : low + 1 + distance = low + ((distance + 1 : Nat) : Int) := by
          push_cast
          ring
        rw [exponent, zpow_add₀ two_ne_zero, zpow_natCast]
        push_cast
        ring

/-- Canonical fractions are ordered by their exponents first. -/
theorem dyadic_lt_iff
    {first second : Nat}
    {low high : Int}
    (firstCanonical : first < 2 * twoTo 52 ∧ -1074 ≤ low ∧ (twoTo 52 ≤ first ∨ low = -1074))
    (secondCanonical :
      second < 2 * twoTo 52 ∧ -1074 ≤ high ∧ (twoTo 52 ≤ second ∨ high = -1074)) :
    (first : ℚ) * 2 ^ low < second * 2 ^ high ↔
      ((compare low high).then (compare first second)) = .lt := by
  obtain ⟨firstSmall, firstLowest, firstLarge⟩ := firstCanonical
  obtain ⟨secondSmall, secondLowest, secondLarge⟩ := secondCanonical
  rcases lt_trichotomy low high with less | rfl | more
  · simp only [lt_of_canonical firstSmall secondLarge firstLowest less,
      compare_lt_iff_lt.mpr less, Ordering.then]
  · have positive : (0 : ℚ) < 2 ^ low := zpow_pos two_pos _
    rw [mul_lt_mul_iff_left₀ positive, Nat.cast_lt]
    simp [compare_lt_iff_lt]
  · have reversed := lt_of_canonical secondSmall firstLarge secondLowest more
    simp [not_lt_of_gt reversed, compare_gt_iff_gt.mpr more]

/-- The comparison of finite numbers compares their values. -/
theorem lt_iff_of_value?
    {first second : Float}
    {value other : ℚ}
    (isFirst : value? first = some value)
    (isSecond : value? second = some other) :
    first < second ↔ value < other := by
  obtain ⟨negative, significand, exponent, denotes, rfl⟩ := denote_of_value? isFirst
  obtain ⟨negative', significand', exponent', denotes', rfl⟩ := denote_of_value? isSecond
  have opened :
      first < second ↔
        UnpackedFloat.compare first.toModel.unpack second.toModel.unpack = some .lt := by
    change decide (UnpackedFloat.lt first.toModel.unpack second.toModel.unpack = true) = true ↔ _
    rw [decide_eq_true_iff, UnpackedFloat.lt, beq_iff_eq]
  have canonical := canonical_of_denote denotes
  have canonical' := canonical_of_denote denotes'
  have upward := dyadic_lt_iff canonical canonical'
  have downward := dyadic_lt_iff canonical' canonical
  have size {significand : Nat} (exponent : Int) (positive : 0 < significand) :
      (0 : ℚ) < significand * 2 ^ exponent :=
    mul_pos (Nat.cast_pos.mpr positive) (zpow_pos two_pos _)
  have swapped :
      ((compare exponent exponent').then (compare significand significand')).swap =
        (compare exponent' exponent).then (compare significand' significand) := by
    rw [Ordering.swap_then, ← Std.OrientedCmp.eq_swap, ← Std.OrientedCmp.eq_swap]
  rw [opened]
  rcases unpack_of_denote denotes with ⟨rfl, unpacked⟩ | ⟨positive, unpacked⟩ <;>
    rcases unpack_of_denote denotes' with ⟨rfl, unpacked'⟩ | ⟨positive', unpacked'⟩ <;>
    rw [unpacked, unpacked']
  · simp [UnpackedFloat.compare]
  · have above := size exponent' positive'
    cases negative' <;> simp [UnpackedFloat.compare, signOf, above, above.le]
  · have above := size exponent positive
    cases negative <;> simp [UnpackedFloat.compare, signOf, above, above.le]
  · have above := size exponent positive
    have above' := size exponent' positive'
    cases negative with
    | false =>
        cases negative' with
        | false => simpa [UnpackedFloat.compare, signOf] using upward.symm
        | true =>
            have apart := not_lt_of_gt ((neg_lt_zero.mpr above').trans above)
            simpa [UnpackedFloat.compare, signOf] using apart
    | true =>
        cases negative' with
        | false =>
            have apart := (neg_lt_zero.mpr above).trans above'
            simpa [UnpackedFloat.compare, signOf] using apart
        | true =>
            simpa [UnpackedFloat.compare, signOf, swapped] using downward.symm

end

/-! ## Integers -/

/-- A natural number with a sign, as an integer and as a value. -/
theorem cast_signed (negative : Bool) (size : Nat) :
    ((if negative then -Int.ofNat size else Int.ofNat size : Int) : ℚ) =
      (if negative then -1 else 1) * size := by
  cases negative <;> simp

/-- The integer that a number denotes is its value. -/
theorem integer?_eq_some_iff {number : Float} {integer : Int} :
    integer? number = some integer ↔ value? number = some (integer : ℚ) := by
  rcases meaning : denote number with _ | negative | ⟨negative, significand, exponent⟩
  · simp [integer?, value?, meaning]
  · simp [integer?, value?, meaning]
  simp only [integer?, value?, meaning]
  by_cases whole : 0 ≤ exponent
  · obtain ⟨power, rfl⟩ := Int.eq_ofNat_of_zero_le whole
    have scaled :
        ((if negative then -1 else 1) * significand * 2 ^ (power : Int) : ℚ) =
          ((if negative then -Int.ofNat (significand * twoTo power)
            else Int.ofNat (significand * twoTo power) : Int) : ℚ) := by
      rw [cast_signed, Nat.cast_mul, mul_assoc]
      simp [twoTo]
    rw [scaled]
    simp only [whole, if_true, Int.toNat_natCast, Option.map_some, Option.some.injEq, Int.cast_inj]
  · obtain ⟨power, isPower⟩ := Int.eq_ofNat_of_zero_le (show 0 ≤ -exponent by omega)
    obtain rfl : exponent = -(power : Int) := by omega
    have positive : (2 : ℚ) ^ power ≠ 0 := pow_ne_zero _ two_ne_zero
    simp only [whole, if_false, isPower, Int.toNat_natCast]
    by_cases divides : significand % twoTo power = 0
    · obtain ⟨quotient, rfl⟩ := Nat.dvd_of_mod_eq_zero divides
      have divided :
          ((if negative then -1 else 1) * ((twoTo power * quotient : Nat) : ℚ) *
              2 ^ (-(power : Int)) : ℚ) =
            ((if negative then -Int.ofNat quotient else Int.ofNat quotient : Int) : ℚ) := by
        rw [cast_signed, zpow_neg, zpow_natCast, Nat.cast_mul, mul_assoc, mul_right_comm,
          show ((twoTo power : Nat) : ℚ) = 2 ^ power by simp [twoTo], mul_inv_cancel₀ positive,
          one_mul]
      rw [divided, if_pos divides,
        Nat.mul_div_cancel_left quotient (show 0 < twoTo power from Nat.pow_pos two_pos)]
      simp only [Option.map_some, Option.some.injEq, Int.cast_inj]
    · simp only [divides, if_false, Option.map_none, reduceCtorEq, false_iff, Option.some.injEq]
      intro isInteger
      have size : (significand : ℚ) = integer.natAbs * 2 ^ power := by
        have sizes := congrArg abs isInteger
        rw [abs_dyadic, zpow_neg, zpow_natCast, ← div_eq_mul_inv, div_eq_iff positive] at sizes
        rw [sizes, Nat.cast_natAbs, Int.cast_abs]
      have product : significand = integer.natAbs * 2 ^ power := by exact_mod_cast size
      exact divides (product ▸ Nat.mul_mod_left _ _)

/-! ## Counts -/

open Float.Model Float.Model.UnpackedFloat

/-- A significand that stands at its exponent is not rounded. -/
theorem roundWithAccuracy_of_target
    {mantissa : Nat}
    {exponent : Int}
    (positive : 0 < mantissa)
    (target : Format.binary64.targetExponent (totalExponent mantissa exponent) = exponent) :
    roundWithAccuracy .binary64 .positive mantissa exponent .exact =
      .finite .positive mantissa exponent positive := by
  have still :
      shiftToTargetExponent .binary64 mantissa exponent .exact =
        (⟨mantissa, false, false⟩, exponent) := by
    unfold shiftToTargetExponent shiftToExponent
    simp only [target, sub_self]
    simp [ExtendedMantissa.ofMantissaAndAccuracy, HShiftRight.hShiftRight, Nat.repeat]
  have rounded : (⟨mantissa, false, false⟩ : ExtendedMantissa).roundedMantissa = mantissa := rfl
  unfold roundWithAccuracy
  simp only [still, rounded]
  exact dif_neg positive.ne'

theorem decreaseExponent_zero (count places : Nat) :
    decreaseExponent count 0 (-(places : Int)) = (count * 2 ^ places, -(places : Int)) := by
  unfold decreaseExponent
  simp [Nat.shiftLeft_eq]

/-- A positive count has 53 binary digits after this number of places. -/
theorem digits_count
    {count places : Nat}
    (positive : 0 < count)
    (isPlaces : count.log2 + places = 52) :
    (count * 2 ^ places).log2 = 52 := by
  have low := Nat.mul_le_mul_right (2 ^ places) (Nat.log2_self_le positive.ne')
  have high := Nat.mul_lt_mul_of_pos_right (Nat.lt_log2_self (n := count))
    (Nat.pow_pos (n := places) two_pos)
  rw [← pow_add] at low high
  rw [add_right_comm] at high
  rw [isPlaces] at low high
  exact (Nat.log2_eq_iff (Nat.mul_pos positive (Nat.pow_pos two_pos)).ne').mpr ⟨low, high⟩

theorem round_count
    {count places : Nat}
    (positive : 0 < count)
    (isPlaces : count.log2 + places = 52) :
    UnpackedFloat.round .binary64 .positive count 0 =
      .finite .positive (count * 2 ^ places) (-(places : Int))
        (Nat.mul_pos positive (Nat.pow_pos two_pos)) := by
  have digits := digits_count positive isPlaces
  have target : Format.binary64.targetExponent (totalExponent count 0) = -(places : Int) := by
    simp only [Format.targetExponent, totalExponent, Format.minExponent, Format.mantissaBits]
    omega
  have still :
      Format.binary64.targetExponent (totalExponent (count * 2 ^ places) (-(places : Int))) =
        -(places : Int) := by
    simp only [Format.targetExponent, totalExponent, Format.minExponent, Format.mantissaBits,
      digits]
    omega
  unfold UnpackedFloat.round
  simp only [target, decreaseExponent_zero]
  exact roundWithAccuracy_of_target (Nat.mul_pos positive (Nat.pow_pos two_pos)) still

theorem ofUInt64_count
    {count places : Nat}
    (positive : 0 < count)
    (isPlaces : count.log2 + places = 52)
    (small : count < 2 ^ 64) :
    UnpackedFloat.ofUInt64 .binary64 (UInt64.ofNat count) =
      .finite .positive (count * 2 ^ places) (-(places : Int))
        (Nat.mul_pos positive (Nat.pow_pos two_pos)) := by
  have word : (UInt64.ofNat count).toNat = count := UInt64.toNat_ofNat_of_lt' small
  have above : compare (count : Int) 0 = .gt := compare_gt_iff_gt.mpr (by omega)
  unfold UnpackedFloat.ofUInt64 UnpackedFloat.ofNat UnpackedFloat.ofInt
  rw [word, ← round_count positive isPlaces]
  unfold UnpackedFloat.normalize
  rw [above]
  rfl

/-- The binary form of a positive count. -/
theorem toBits_count
    {count places : Nat}
    (positive : 0 < count)
    (isPlaces : count.log2 + places = 52)
    (small : count < 2 ^ 64) :
    (UInt64.ofNat count).toFloat.toBits.toNat =
      (1075 - places) * twoTo 52 + (count * 2 ^ places) % twoTo 52 := by
  have packed :
      (UInt64.ofNat count).toFloat.toBits.toBitVec =
        packComponents .binary64 .positive (BitVec.ofNat 11 (1075 - places))
          (BitVec.ofNat 52 (count * 2 ^ places)) := by
    change UnpackedFloat.pack .binary64 (UnpackedFloat.ofUInt64 .binary64 (UInt64.ofNat count)) = _
    rw [ofUInt64_count positive isPlaces small]
    have biased :
        (-(places : Int) + (Format.binary64.exponentBias : Int) + (52 : Nat)).toNat =
          1075 - places := by
      simp only [Format.exponentBias]
      omega
    have finite : ¬2 ^ Format.binary64.exponentBits ≤ 1075 - places + 1 := by
      simp only [Nat.reducePow]
      omega
    unfold UnpackedFloat.pack
    simp only [biased, digits_count positive isPlaces, finite, if_false]
    rfl
  have bits := congrArg BitVec.toNat packed
  have exponentSmall : 1075 - places < 2 ^ 11 := by omega
  have isField : twoTo 52 = 2 ^ 52 := rfl
  unfold packComponents at bits
  rw [BitVec.toNat_append, BitVec.toNat_append, BitVec.toNat_ofNat, BitVec.toNat_ofNat,
    Nat.mod_eq_of_lt exponentSmall,
    ← Nat.shiftLeft_add_eq_or_of_lt (Nat.mod_lt _ (Nat.pow_pos two_pos)), Nat.shiftLeft_eq] at bits
  rw [isField]
  refine bits.trans ?_
  simp [Sign.toBitVec]

theorem denote_count
    {count places : Nat}
    (positive : 0 < count)
    (isPlaces : count.log2 + places = 52)
    (small : count < 2 ^ 64) :
    denote (UInt64.ofNat count).toFloat = .finite false (count * 2 ^ places) (-(places : Int)) := by
  have log := digits_count positive isPlaces
  rw [Nat.log2_eq_iff (Nat.mul_pos positive (Nat.pow_pos two_pos)).ne'] at log
  have bits := toBits_count positive isPlaces small
  generalize count * 2 ^ places = significand at log bits ⊢
  have isSign : twoTo 63 = 9223372036854775808 := rfl
  have isFraction : twoTo 52 = 4503599627370496 := rfl
  have isField : twoTo 11 = 2048 := rfl
  unfold denote
  rw [bits, isSign, isFraction, isField]
  have sign :
      ((1075 - places) * 4503599627370496 + significand % 4503599627370496) /
          9223372036854775808 = 0 := by
    omega
  have field :
      ((1075 - places) * 4503599627370496 + significand % 4503599627370496) /
          4503599627370496 % 2048 = 1075 - places := by
    omega
  have fraction :
      ((1075 - places) * 4503599627370496 + significand % 4503599627370496) %
          4503599627370496 = significand - 4503599627370496 := by
    omega
  simp only [sign, field, fraction]
  rw [if_neg (by omega), if_neg (by omega)]
  have whole : significand - 4503599627370496 + 4503599627370496 = significand := by omega
  have exponent : Int.ofNat (1075 - places) - 1075 = -(places : Int) := by
    have : places ≤ 52 := by omega
    simp only [Int.ofNat_eq_natCast]
    omega
  rw [whole, exponent]
  rfl

/-- Every count below `2 ^ 53` is the value of its number. -/
theorem value?_count {count : Nat} (small : count < 2 ^ 53) :
    value? (UInt64.ofNat count).toFloat = some (count : ℚ) := by
  rcases Nat.eq_zero_or_pos count with rfl | positive
  · exact value?_zero
  · have digits : count.log2 < 53 := (Nat.log2_lt positive.ne').mpr small
    obtain ⟨places, isPlaces⟩ := Nat.exists_eq_add_of_le (Nat.le_of_lt_succ digits)
    rw [value?, denote_count positive isPlaces.symm (by omega)]
    have nonzero : (2 : ℚ) ^ places ≠ 0 := pow_ne_zero _ two_ne_zero
    simp [nonzero]

end Number

end ScriptEngine

import Reckon.Proofs.Number.Literal

/-!
Signs and magnitudes of finite numbers: on which side of nought a number lies is told by the sign of its bit
pattern, and without the sign the pattern is that of its absolute value.
-/
namespace Reckon.Number

open Float.Model Float.Model.UnpackedFloat

section

variable (bits : BitVec 64)

private theorem toNat_exponent :
    (@unpackExponent .binary64 bits).toNat = bits.toNat / 2 ^ 52 % 2 ^ 11 := by
  rw [unpackExponent_def]
  simp [BitVec.extractLsb'_toNat, Nat.shiftRight_eq_div_pow]

private theorem toNat_mantissa :
    (@unpackMantissa .binary64 bits).toNat = bits.toNat % 2 ^ 52 := by
  rw [unpackMantissa_def]
  simp [BitVec.extractLsb'_toNat]

private theorem toNat_sign : (@unpackSign .binary64 bits).toNat = bits.toNat / 2 ^ 63 % 2 := by
  rw [unpackSign_def]
  simp [BitVec.extractLsb'_toNat, Nat.shiftRight_eq_div_pow]

end

/-- The sign bit is all that a number and its absolute value differ in. -/
private theorem unpack_unsigned {bits unsigned : BitVec 64}
    (cleared : unsigned.toNat = bits.toNat % 2 ^ 63) :
    UnpackedFloat.unpack .binary64 unsigned = (UnpackedFloat.unpack .binary64 bits).abs := by
  have exponent : @unpackExponent .binary64 unsigned = @unpackExponent .binary64 bits := by
    apply BitVec.eq_of_toNat_eq
    rw [toNat_exponent, toNat_exponent, cleared]
    omega
  have mantissa : @unpackMantissa .binary64 unsigned = @unpackMantissa .binary64 bits := by
    apply BitVec.eq_of_toNat_eq
    rw [toNat_mantissa, toNat_mantissa, cleared]
    omega
  have sign : @unpackSign .binary64 unsigned = 0#1 := by
    apply BitVec.eq_of_toNat_eq
    rw [toNat_sign, cleared]
    simp
  unfold UnpackedFloat.unpack
  simp only [exponent, mantissa, sign]
  split
  · split
    · rfl
    · rfl
  · split
    · split
      · rfl
      · rfl
    · rfl

section

variable {number : Float}

theorem abs_eq_ofBits (number : Float) :
    number.abs = Float.ofBits (UInt64.ofNat (magnitude number)) := by
  have small : magnitude number < 2 ^ 64 := by
    have bound : number.toBits.toNat % 2 ^ 63 < 2 ^ 63 := Nat.mod_lt _ (by omega)
    rw [magnitude, Nat.pow_eq]
    omega
  have cleared : (UInt64.ofNat (magnitude number)).toBitVec.toNat =
      number.toBits.toBitVec.toNat % 2 ^ 63 :=
    UInt64.toNat_ofNat_of_lt' small
  unfold Float.abs Float.ofBits Float.Model.abs Float.Model.ofBits
  rw [unpack_unsigned cleared]
  rfl

def sign (number : Float) : Sign :=
  if isNegative number then .negative else .positive

private theorem ofBitVec_unpackSign (number : Float) :
    Sign.ofBitVec (@unpackSign .binary64 number.toBits.toBitVec) = sign number := by
  have bound : number.toBits.toNat < 2 ^ 64 := number.toBits.toNat_lt
  have bit := toNat_sign number.toBits.toBitVec
  rw [UInt64.toNat_toBitVec] at bit
  have clear : @unpackSign .binary64 number.toBits.toBitVec = 0#1 ↔
      ¬ Nat.pow 2 63 ≤ number.toBits.toNat := by
    rw [← BitVec.toNat_inj, bit, BitVec.toNat_zero, Nat.pow_eq]
    omega
  unfold Sign.ofBitVec sign isNegative
  by_cases negative : Nat.pow 2 63 ≤ number.toBits.toNat
  · rw [if_neg (fun zero => clear.mp zero negative), if_pos (decide_eq_true negative)]
  · rw [if_pos (clear.mpr negative), if_neg (by simpa using negative)]

theorem magnitude_of_finite (finite : number.isFinite) : magnitude number < Magnitude.infinity := by
  by_contra large
  have full : @unpackExponent .binary64 number.toBits.toBitVec = -1#_ := by
    apply BitVec.eq_of_toNat_eq
    change ¬ number.toBits.toBitVec.toNat % 2 ^ 63 < 0x7ff * 2 ^ 52 at large
    rw [toNat_exponent, show (-1#11 : BitVec 11).toNat = 2047 from rfl]
    omega
  change (UnpackedFloat.unpack .binary64 number.toBits.toBitVec).isFinite = true at finite
  unfold UnpackedFloat.unpack at finite
  simp only [full, if_true] at finite
  split at finite
  · cases finite
  · cases finite

/-- A finite number is unpacked with the sign of its pattern. -/
private theorem unpack_of_finite (finite : number.isFinite) :
    number.toModel.unpack = .zero (sign number) ∨
      ∃ mantissa exponent positive,
        number.toModel.unpack = .finite (sign number) mantissa exponent positive := by
  rw [← ofBitVec_unpackSign]
  change (UnpackedFloat.unpack .binary64 number.toBits.toBitVec).isFinite = true at finite
  change UnpackedFloat.unpack .binary64 number.toBits.toBitVec = _ ∨ ∃ mantissa exponent positive,
    UnpackedFloat.unpack .binary64 number.toBits.toBitVec = _
  unfold UnpackedFloat.unpack at finite ⊢
  dsimp only at finite ⊢
  split at finite
  · split at finite
    · cases finite
    · cases finite
  · rename_i notFull
    rw [if_neg notFull]
    split
    · split
      · exact .inl rfl
      · rename_i some
        exact .inr ⟨_, _, Nat.pos_of_ne_zero fun none => some (BitVec.eq_of_toNat_eq none), rfl⟩
    · refine .inr ⟨_, _, ?_, rfl⟩
      rw [BitVec.toNat_append]
      exact Nat.lt_of_lt_of_le (Nat.two_pow_pos 52) Nat.left_le_or

/-- Where a finite number lies, as comparisons with nought and the sign tell alike. -/
inductive Side (number : Float) : Prop
  | zero (equal : (number == 0.0) = true) (notAbove : ¬ 0.0 < number) (notBelow : ¬ number < 0.0)
  | above (different : (number == 0.0) = false) (above : 0.0 < number) (notBelow : ¬ number < 0.0)
      (unsigned : isNegative number = false)
  | below (different : (number == 0.0) = false) (notAbove : ¬ 0.0 < number) (below : number < 0.0)
      (negative : isNegative number = true)

theorem side_of_finite (finite : number.isFinite) : Side number := by
  have nought : (0.0 : Float).toModel.unpack = .zero .positive := rfl
  have equals : (number == 0.0) = number.toModel.unpack.beq (0.0 : Float).toModel.unpack := rfl
  have exceeds : 0.0 < number ↔ (0.0 : Float).toModel.unpack.lt number.toModel.unpack = true :=
    decide_eq_true_iff
  have precedes : number < 0.0 ↔ number.toModel.unpack.lt (0.0 : Float).toModel.unpack = true :=
    decide_eq_true_iff
  rw [nought] at equals exceeds precedes
  rcases unpack_of_finite finite with zero | ⟨mantissa, exponent, positive, nonzero⟩
  · rw [zero] at equals exceeds precedes
    exact .zero equals (fun above => nomatch exceeds.mp above) fun below => nomatch precedes.mp below
  · rw [nonzero] at equals exceeds precedes
    unfold sign at equals exceeds precedes
    cases negative : isNegative number with
    | false =>
      simp only [negative, Bool.false_eq_true, if_false] at equals exceeds precedes
      exact .above equals (exceeds.mpr rfl) (fun below => nomatch precedes.mp below) negative
    | true =>
      simp only [negative, if_true] at equals exceeds precedes
      exact .below equals (fun above => nomatch exceeds.mp above) (precedes.mpr rfl) negative

end

end Reckon.Number

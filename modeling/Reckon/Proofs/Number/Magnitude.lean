import Mathlib.Tactic.Ring
import Reckon.Magnitude.Shortest

/-!
A fraction that is exactly the number of a finite pattern is rounded to that pattern. So is the decimal
that is chosen for the pattern.
-/
namespace Reckon.Magnitude

private theorem significand_of_lt {pattern : Nat} (small : pattern < 2 ^ 52) :
    significand pattern = pattern := if_pos small

private theorem exponent_of_lt {pattern : Nat} (small : pattern < 2 ^ 52) :
    exponent pattern = -1074 := if_pos small

private theorem significand_of_le {pattern : Nat} (large : 2 ^ 52 ≤ pattern) :
    significand pattern = pattern % 2 ^ 52 + 2 ^ 52 := if_neg (Nat.not_lt.mpr large)

private theorem exponent_of_le {pattern : Nat} (large : 2 ^ 52 ≤ pattern) :
    exponent pattern = (pattern / 2 ^ 52 : Nat) - 1075 := if_neg (Nat.not_lt.mpr large)

private theorem significand_lt (pattern : Nat) : significand pattern < 2 ^ 53 := by
  rcases Nat.lt_or_ge pattern (2 ^ 52) with small | large
  · rw [significand_of_lt small]
    omega
  · rw [significand_of_le large]
    omega

private theorem exponent_ge (pattern : Nat) : -1074 ≤ exponent pattern := by
  rcases Nat.lt_or_ge pattern (2 ^ 52) with small | large
  · rw [exponent_of_lt small]
  · rw [exponent_of_le large]
    omega

/-- Only at the least power may a significand have fewer than 53 binary digits. -/
private theorem significand_full (pattern : Nat) :
    exponent pattern = -1074 ∨ 2 ^ 52 ≤ significand pattern := by
  rcases Nat.lt_or_ge pattern (2 ^ 52) with small | large
  · exact .inl (exponent_of_lt small)
  · rw [significand_of_le large]
    exact .inr (Nat.le_add_left ..)

private theorem pattern_eq (pattern : Nat) :
    (exponent pattern + 1074).toNat * 2 ^ 52 + significand pattern = pattern := by
  rcases Nat.lt_or_ge pattern (2 ^ 52) with small | large
  · rw [exponent_of_lt small, significand_of_lt small]
    exact Nat.zero_add pattern
  · have steps : ((pattern / 2 ^ 52 : Nat) - 1075 + 1074 : Int).toNat = pattern / 2 ^ 52 - 1 := by
      omega
    rw [exponent_of_le large, significand_of_le large, steps]
    omega

/-- The fraction is a whole number of times a power of two. -/
def Scales (numerator denominator significand : Nat) (power : Int) : Prop :=
  (scaled numerator denominator power).1 = significand * (scaled numerator denominator power).2

section

variable {numerator denominator significand : Nat} {power : Int}

private theorem scales_iff : Scales numerator denominator significand power ↔
    numerator * 2 ^ (-power).toNat = significand * (denominator * 2 ^ power.toNat) :=
  Iff.rfl

private theorem Scales.lower (scales : Scales numerator denominator significand power) {lower : Int}
    (bound : lower ≤ power) :
    Scales numerator denominator (significand * 2 ^ (power - lower).toNat) lower := by
  rw [scales_iff] at scales ⊢
  have shift : power.toNat + (-lower).toNat =
      (power - lower).toNat + lower.toNat + (-power).toNat := by omega
  apply Nat.eq_of_mul_eq_mul_right (Nat.two_pow_pos (-power).toNat)
  calc numerator * 2 ^ (-lower).toNat * 2 ^ (-power).toNat
      = numerator * 2 ^ (-power).toNat * 2 ^ (-lower).toNat := Nat.mul_right_comm ..
    _ = significand * denominator * 2 ^ (power.toNat + (-lower).toNat) := by
        rw [scales, Nat.pow_add, ← Nat.mul_assoc, ← Nat.mul_assoc]
    _ = significand * 2 ^ (power - lower).toNat * (denominator * 2 ^ lower.toNat) *
          2 ^ (-power).toNat := by
        rw [shift, Nat.pow_add, Nat.pow_add]
        simp only [Nat.mul_assoc, Nat.mul_left_comm]

private theorem scaled_pos (numerator : Nat) (positive : 0 < denominator) (power : Int) :
    0 < (scaled numerator denominator power).2 :=
  Nat.mul_pos positive (Nat.two_pow_pos _)

private theorem Scales.quotient (scales : Scales numerator denominator significand power)
    (positive : 0 < denominator) :
    (scaled numerator denominator power).1 / (scaled numerator denominator power).2 =
      significand := by
  rw [scales]
  exact Nat.mul_div_cancel _ (scaled_pos numerator positive power)

private theorem Scales.roundedQuotient (scales : Scales numerator denominator significand power)
    (positive : 0 < denominator) :
    roundedQuotient (scaled numerator denominator power).1 (scaled numerator denominator power).2 =
      significand := by
  have exact : (scaled numerator denominator power).1 % (scaled numerator denominator power).2 = 0 := by
    rw [scales]
    exact Nat.mul_mod_left ..
  have whole := scaled_pos numerator positive power
  rw [Magnitude.roundedQuotient, exact, if_pos (.inl whole), scales.quotient positive]

/-- The binary logarithm of the fraction is known up to one from those of its parts. -/
private theorem Scales.log2_lt (scales : Scales numerator denominator significand power)
    (present : numerator ≠ 0) {digits : Nat} (short : significand < 2 ^ digits) :
    (numerator.log2 : Int) - denominator.log2 ≤ power + digits := by
  have below := Nat.log2_self_le present
  have above : denominator < 2 ^ (denominator.log2 + 1) := Nat.lt_log2_self
  have bound : 2 ^ (numerator.log2 + (-power).toNat) <
      2 ^ (digits + (denominator.log2 + 1 + power.toNat)) := by
    calc 2 ^ (numerator.log2 + (-power).toNat)
        ≤ numerator * 2 ^ (-power).toNat := by
          rw [Nat.pow_add]
          exact Nat.mul_le_mul_right _ below
      _ = significand * (denominator * 2 ^ power.toNat) := scales
      _ < 2 ^ (digits + (denominator.log2 + 1 + power.toNat)) := by
          rw [Nat.pow_add, Nat.pow_add _ (_ + 1)]
          exact Nat.mul_lt_mul'' short (Nat.mul_lt_mul_of_pos_right above (Nat.two_pow_pos _))
  have exponents := (Nat.pow_lt_pow_iff_right Nat.one_lt_two).mp bound
  omega

private theorem Scales.lt_log2 (scales : Scales numerator denominator significand power)
    (positive : 0 < denominator) {digits : Nat} (long : 2 ^ digits ≤ significand) :
    power + digits ≤ (numerator.log2 : Int) - denominator.log2 := by
  have below := Nat.log2_self_le (Nat.ne_of_gt positive)
  have above : numerator < 2 ^ (numerator.log2 + 1) := Nat.lt_log2_self
  have bound : 2 ^ (digits + (denominator.log2 + power.toNat)) <
      2 ^ (numerator.log2 + 1 + (-power).toNat) := by
    calc 2 ^ (digits + (denominator.log2 + power.toNat))
        ≤ significand * (denominator * 2 ^ power.toNat) := by
          rw [Nat.pow_add, Nat.pow_add _ denominator.log2]
          exact Nat.mul_le_mul long (Nat.mul_le_mul_right _ below)
      _ = numerator * 2 ^ (-power).toNat := scales.symm
      _ < 2 ^ (numerator.log2 + 1 + (-power).toNat) := by
          rw [Nat.pow_add _ (_ + 1)]
          exact Nat.mul_lt_mul_of_pos_right above (Nat.two_pow_pos _)
  have exponents := (Nat.pow_lt_pow_iff_right Nat.one_lt_two).mp bound
  omega

end

/-- The estimate is the power of the significand or, where there is room below, the one before it. -/
private theorem Scales.power_eq {numerator denominator pattern : Nat}
    (scales : Scales numerator denominator (significand pattern) (exponent pattern))
    (present : numerator ≠ 0) (positive : 0 < denominator) :
    power numerator denominator = exponent pattern := by
  have upper := scales.log2_lt present (significand_lt pattern)
  have least := exponent_ge pattern
  simp only [power, Nat.pow_eq]
  generalize equal : max ((numerator.log2 : Int) - denominator.log2 - 53) (-1074) = estimate
  by_cases exact : estimate = exponent pattern
  · rw [exact, scales.quotient positive, if_neg (Nat.not_le.mpr (significand_lt pattern))]
  · rcases significand_full pattern with bottom | full
    · omega
    · have lower := scales.lt_log2 positive full
      have before : estimate = exponent pattern - 1 := by omega
      have once : (exponent pattern - estimate).toNat = 1 := by omega
      have halved : Scales numerator denominator (significand pattern * 2 ^ 1) estimate :=
        once ▸ scales.lower (by omega)
      have twice : 2 ^ 53 ≤ significand pattern * 2 ^ 1 := Nat.mul_le_mul_right 2 full
      rw [halved.quotient positive, if_pos twice, before, Int.sub_add_cancel]

private theorem nearest_of_scales {numerator denominator pattern : Nat} (positive : 0 < denominator)
    (finite : pattern < infinity)
    (scales : Scales numerator denominator (significand pattern) (exponent pattern)) :
    nearest numerator denominator = pattern := by
  have parts := pattern_eq pattern
  by_cases present : numerator = 0
  · have zero : significand pattern = 0 := by
      have product := scales_iff.mp scales
      have power := Nat.two_pow_pos (exponent pattern).toNat
      rw [present, Nat.zero_mul] at product
      exact (Nat.mul_eq_zero.mp product.symm).resolve_right
        (Nat.ne_of_gt (Nat.mul_pos positive power))
    rcases significand_full pattern with bottom | full
    · rw [bottom, zero] at parts
      rw [nearest, if_pos present]
      exact parts
    · omega
  · rw [nearest, if_neg present]
    dsimp only
    rw [scales.power_eq present positive, scales.roundedQuotient positive, Nat.pow_eq, parts]
    exact Nat.min_eq_left (Nat.le_of_lt finite)

private theorem ofDecimal_expansion {pattern : Nat} (finite : pattern < infinity) :
    ofDecimal (expansion pattern) = pattern := by
  apply nearest_of_scales (Decimal.denominator_pos _) finite
  have whole : (min (exponent pattern) 0).toNat = 0 := by omega
  have places : (-min (exponent pattern) 0).toNat = (-exponent pattern).toNat := by omega
  have ten (count : Nat) : 10 ^ count = 5 ^ count * 2 ^ count := Nat.mul_pow 5 2 count
  simp only [scales_iff, Decimal.numerator, Decimal.denominator, expansion, numerator, Nat.pow_eq,
    whole, places, ten]
  ring

private theorem ofDecimal_of_mem_neighbours {pattern : Nat} {grid : Int} {decimal : Decimal}
    (member : decimal ∈ neighbours pattern grid) : ofDecimal decimal = pattern :=
  of_decide_eq_true (List.mem_filter.mp member).2

theorem ofDecimal_shortest {pattern : Nat} (finite : pattern < infinity) :
    ofDecimal (shortest pattern) = pattern := by
  simp only [shortest]
  generalize (List.range 20).map (fun step : Nat => decimalBound pattern - step) = grids
  cases found : grids.findSome? fun grid => (neighbours pattern grid).head? with
  | none => exact ofDecimal_expansion finite
  | some decimal =>
    obtain ⟨grid, -, head⟩ := List.exists_of_findSome?_eq_some found
    exact ofDecimal_of_mem_neighbours (List.mem_of_mem_head? head)

end Reckon.Magnitude

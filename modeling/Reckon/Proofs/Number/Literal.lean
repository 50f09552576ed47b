import Mathlib
import Reckon.Proofs.Lexer.Lexeme
import Reckon.Proofs.Number.Magnitude

/-!
Numbers and the literals that are written for them: the digits of a finite magnitude are one lexeme,
which is read as that very number again.
-/
namespace Reckon

namespace Decimal

private theorem ofDigitChars_toDigits_append (number : Nat) (digits : List Char) :
    Nat.ofDigitChars 10 (Nat.toDigits 10 number ++ digits) 0 =
      number * 10 ^ digits.length + Nat.ofDigitChars 10 digits 0 := by
  rw [Nat.ofDigitChars_append, Nat.ofDigitChars_ten_toDigits, Nat.ofDigitChars_eq_ofDigitChars_zero,
    Nat.mul_comm]

private theorem ofDigitChars_leftpad (places number : Nat) :
    Nat.ofDigitChars 10 ((Nat.toDigits 10 number).leftpad places '0') 0 = number := by
  rw [List.leftpad, Nat.ofDigitChars_append, Nat.ofDigitChars_replicate_zero, Nat.mul_zero,
    Nat.ofDigitChars_ten_toDigits]

private theorem toDigits_digits (number : Nat) :
    ∀ character ∈ Nat.toDigits 10 number, character.isDigit :=
  fun _ member => Nat.isDigit_of_mem_toDigits (by omega) (by omega) member

private theorem leftpad_digits (places number : Nat) :
    ∀ character ∈ (Nat.toDigits 10 number).leftpad places '0', character.isDigit := by
  intro character member
  rcases List.mem_append.mp member with padding | inside
  · rw [(List.mem_replicate.mp padding).2]
    rfl
  · exact toDigits_digits number character inside

private theorem length_leftpad {places number : Nat} (present : 0 < places)
    (short : number < 10 ^ places) :
    ((Nat.toDigits 10 number).leftpad places '0').length = places := by
  have fits := (Nat.length_toDigits_le_iff (by omega) present).mpr short
  simp only [List.leftpad, List.length_append, List.length_replicate]
  omega

private theorem numerator_ofDigits (whole fraction : List Char) :
    (ofDigits whole fraction).numerator = Nat.ofDigitChars 10 (whole ++ fraction) 0 := by
  have scale : (-(fraction.length : Int)).toNat = 0 := by omega
  simp only [numerator, ofDigits, scale, Nat.pow_eq, Nat.pow_zero, Nat.mul_one]

private theorem denominator_ofDigits (whole fraction : List Char) :
    (ofDigits whole fraction).denominator = 10 ^ fraction.length := by
  have places : (- -(fraction.length : Int)).toNat = fraction.length := by omega
  simp only [denominator, ofDigits, places, Nat.pow_eq]

/-- The digits of a decimal make a literal with the same numerator and the same denominator. -/
private theorem digits_lexeme (decimal : Decimal) :
    ∃ read : Decimal, read.numerator = decimal.numerator ∧ read.denominator = decimal.denominator ∧
      (Lexer.Lexeme decimal.digits (.int (Number.ofDecimal read)) ∨
        Lexer.Lexeme decimal.digits (.float (Number.ofDecimal read))) := by
  have unit : decimal.denominator = 10 ^ (-decimal.exponent).toNat := rfl
  simp only [digits, Nat.pow_eq]
  generalize (-decimal.exponent).toNat = places at unit
  by_cases whole : places = 0
  · refine ⟨ofDigits (Nat.toDigits 10 decimal.numerator) [], ?_, ?_, .inl ?_⟩
    · rw [numerator_ofDigits, List.append_nil, Nat.ofDigitChars_ten_toDigits]
    · rw [denominator_ofDigits, unit, whole, List.length_nil]
    · rw [if_pos whole, whole, Nat.pow_zero, Nat.div_one]
      exact .int Nat.toDigits_ne_nil (toDigits_digits _)
  · have short : decimal.numerator % 10 ^ places < 10 ^ places :=
      Nat.mod_lt _ (Nat.pow_pos (by omega))
    have length := length_leftpad (Nat.pos_of_ne_zero whole) short
    refine ⟨ofDigits (Nat.toDigits 10 (decimal.numerator / 10 ^ places))
      ((Nat.toDigits 10 (decimal.numerator % 10 ^ places)).leftpad places '0'), ?_, ?_, .inr ?_⟩
    · rw [numerator_ofDigits, ofDigitChars_toDigits_append, length, ofDigitChars_leftpad]
      exact Nat.div_add_mod' ..
    · rw [denominator_ofDigits, length, unit]
    · rw [if_neg whole]
      exact .float Nat.toDigits_ne_nil (toDigits_digits _) (leftpad_digits _ _)

end Decimal

namespace Number

private theorem ofDecimal_eq {first second : Decimal} (top : first.numerator = second.numerator)
    (bottom : first.denominator = second.denominator) : ofDecimal first = ofDecimal second := by
  rw [ofDecimal, ofDecimal, Magnitude.ofDecimal, Magnitude.ofDecimal, top, bottom]

/-- The text is one literal, and it is read as the number. -/
def IsLiteral (text : String) (number : Float) : Prop :=
  ∃ kind, Lexer.Lexeme text.toList kind ∧ (kind = .int number ∨ kind = .float number)

theorem isLiteral_digits (decimal : Decimal) :
    IsLiteral (String.ofList decimal.digits) (ofDecimal decimal) := by
  obtain ⟨read, top, bottom, literal⟩ := decimal.digits_lexeme
  rw [ofDecimal_eq top bottom] at literal
  rw [IsLiteral, String.toList_ofList]
  rcases literal with whole | pointed
  · exact ⟨_, whole, .inl rfl⟩
  · exact ⟨_, pointed, .inr rfl⟩

theorem isLiteral_magnitudeText {pattern : Nat} (finite : pattern < Magnitude.infinity) :
    IsLiteral (magnitudeText pattern) (Float.ofBits (UInt64.ofNat pattern)) := by
  rw [magnitudeText]
  by_cases zero : pattern = 0
  · subst zero
    exact isLiteral_digits ⟨0, 0⟩
  · have read : ofDecimal (Magnitude.shortest pattern) = Float.ofBits (UInt64.ofNat pattern) := by
      rw [ofDecimal, Magnitude.ofDecimal_shortest finite]
    rw [if_neg zero, if_neg (Nat.ne_of_lt finite), ← read]
    exact isLiteral_digits (Magnitude.shortest pattern)

/-- Finite and without the sign of negative numbers. -/
structure IsPlain (number : Float) : Prop where
  finite : magnitude number < Magnitude.infinity
  unsigned : isNegative number = false

private theorem IsPlain.ofBits_magnitude {number : Float} (plain : IsPlain number) :
    Float.ofBits (UInt64.ofNat (magnitude number)) = number := by
  have clear : number.toBits.toNat < 2 ^ 63 := by
    have unsigned := plain.unsigned
    simpa [isNegative] using unsigned
  rw [magnitude, Nat.pow_eq, Nat.mod_eq_of_lt clear, UInt64.ofNat_toNat, Float.ofBits_toBits]

theorem isLiteral_text {number : Float} (plain : IsPlain number) :
    IsLiteral (text number) number := by
  have literal := isLiteral_magnitudeText plain.finite
  rw [plain.ofBits_magnitude] at literal
  simpa [text, Nat.not_lt.mpr (Nat.le_of_lt plain.finite), plain.unsigned] using literal

/-- Numbers are written so that they are read again. -/
def IsSpelling (spell : Float → String) : Prop :=
  ∀ number, IsPlain number → IsLiteral (spell number) number

end Number

end Reckon

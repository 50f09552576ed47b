import Reckon.Proofs.Grammar.Printing
import Reckon.Proofs.Number.Sides

/-!
Finite values and their texts. A text is one literal, behind a sign where the value is below nought, and the
standard parser makes of it the number itself or the negation of its absolute value.
-/
namespace Reckon

open Number

section

variable {literal : String} {number : Float}

private theorem Lexer.scanned_literal (before : List Char) (read : IsLiteral literal number) :
    ∃ kind span finish, (kind = .int number ∨ kind = .float number) ∧
      Scanned before literal.toList [⟨kind, span, literal⟩, .finish finish] := by
  obtain ⟨kind, lexeme, reading⟩ := read
  have none : ∀ character ∈ ([] : List Char), character ∈ blanks := List.forall_mem_nil _
  have ends : ∀ character ∈ ([] : List Char).head?, character ∈ blanks := nofun
  obtain ⟨span, scanned⟩ :=
    Scanned.lexeme lexeme ends (@Scanned.finish (before ++ literal.toList) [] none)
  rw [List.append_nil, String.ofList_toList] at scanned
  exact ⟨kind, span, _, reading, scanned⟩

private theorem Lexer.scanned_minus {rest : List Char} {tokens : List Token}
    (onward : Scanned ['-'] rest tokens) :
    ∃ span, Scanned [] ('-' :: rest) (⟨.minus, span, "-"⟩ :: tokens) := by
  have sign : ("-", .minus) ∈ signs := by simp [signs, symbols]
  have none : ∀ character ∈ ([] : List Char), character ∈ blanks := List.forall_mem_nil _
  have longest : Longest "-".toList rest :=
    longest_sign sign fun first second alone _ compares => by
      obtain rfl : '-' = first := (List.cons.inj alone).1
      exact absurd compares (by decide)
  exact ⟨_, .token none (.sign sign) longest onward⟩

private theorem Parser.parse_literal {kind : Token.Kind}
    (reading : kind = .int number ∨ kind = .float number) (span : Span) (finish : Position) :
    (ofTokens .standard [⟨kind, span, literal⟩, .finish finish]).parse.1 = .ok (.number number span) := by
  rcases reading with rfl | rfl
  · rfl
  · rfl

private theorem Parser.parse_minus_literal {kind : Token.Kind}
    (reading : kind = .int number ∨ kind = .float number) (opening span : Span) (finish : Position) :
    (ofTokens .standard [⟨.minus, opening, "-"⟩, ⟨kind, span, literal⟩, .finish finish]).parse.1 =
      .ok ((Expr.number number span).signed .minus opening) := by
  rcases reading with rfl | rfl
  · rfl
  · rfl

/-- The standard parser makes a tree of this form of the text. -/
def ReadsAs (text : String) (expr : Expr) : Prop :=
  ∃ tokens parsed, (Lexer.ofText text).tokens.1 = .ok tokens ∧
    (Parser.ofTokens .standard tokens).parse.1 = .ok parsed ∧ parsed.SameTree expr

private theorem readsAs_literal (read : IsLiteral literal number) (span : Span) :
    ReadsAs literal (.number number span) := by
  obtain ⟨kind, place, finish, reading, scanned⟩ := Lexer.scanned_literal [] read
  exact ⟨_, _, Lexer.tokens_of_scanned scanned, Parser.parse_literal reading place finish,
    .number number trivial⟩

private theorem readsAs_minus_literal (read : IsLiteral literal number) (span place : Span) :
    ReadsAs ("-" ++ literal) (.unary .minus (.number number span) place) := by
  obtain ⟨kind, inside, finish, reading, scanned⟩ := Lexer.scanned_literal ['-'] read
  obtain ⟨opening, whole⟩ := Lexer.scanned_minus scanned
  have split : ("-" ++ literal).toList = '-' :: literal.toList := String.toList_append
  rw [← split] at whole
  exact ⟨_, _, Lexer.tokens_of_scanned whole, Parser.parse_minus_literal reading opening inside finish,
    .unary .minus (.number number trivial) trivial⟩

end

namespace Value

variable {value : Value}

private theorem readsAs_of_zero (equal : (value.number == 0.0) = true) (span : Span) :
    ReadsAs value.text (.number 0.0 span) := by
  have literal : IsLiteral "0" 0.0 := isLiteral_digits ⟨0, 0⟩
  rw [text, if_pos equal]
  exact readsAs_literal literal span

private theorem readsAs_of_above (finite : value.number.isFinite)
    (different : (value.number == 0.0) = false) (unsigned : isNegative value.number = false)
    (span : Span) : ReadsAs value.text (.number value.number span) := by
  have literal := isLiteral_text ⟨magnitude_of_finite finite, unsigned⟩
  rw [text, if_neg (Bool.eq_false_iff.mp different)]
  exact readsAs_literal literal span

private theorem readsAs_of_below (finite : value.number.isFinite)
    (different : (value.number == 0.0) = false) (negative : isNegative value.number = true)
    (span place : Span) :
    ReadsAs value.text (.unary .minus (.number value.number.abs span) place) := by
  have small := magnitude_of_finite finite
  have literal := isLiteral_magnitudeText small
  rw [← abs_eq_ofBits] at literal
  rw [text, if_neg (Bool.eq_false_iff.mp different), Number.text, if_neg (Nat.not_lt.mpr small.le),
    if_pos negative]
  exact readsAs_minus_literal literal span place

end Value

/-- The text of a finite value is read without an error, above nought as the number itself, at either zero
as zero, and below nought as the negation of its absolute value; the three cases exclude each other. -/
theorem finite_value_reads_back (value : Value) (finite : value.number.isFinite) :
    ∃ tokens parsed, (Lexer.ofText value.text).tokens.1 = .ok tokens ∧
      (Parser.ofTokens .standard tokens).parse.1 = .ok parsed ∧
      (0.0 < value.number ∨ (value.number == 0.0) = true ∨ value.number < 0.0) ∧
      (0.0 < value.number → parsed.SameTree (.number value.number default)) ∧
      ((value.number == 0.0) = true → parsed.SameTree (.number 0.0 default)) ∧
      (value.number < 0.0 →
        parsed.SameTree (.unary .minus (.number value.number.abs default) default)) := by
  cases side_of_finite finite with
  | zero equal notAbove notBelow =>
    obtain ⟨tokens, parsed, lexed, read, same⟩ := Value.readsAs_of_zero equal default
    exact ⟨tokens, parsed, lexed, read, .inr (.inl equal), fun above => absurd above notAbove,
      fun _ => same, fun below => absurd below notBelow⟩
  | above different above notBelow unsigned =>
    obtain ⟨tokens, parsed, lexed, read, same⟩ :=
      Value.readsAs_of_above finite different unsigned default
    refine ⟨tokens, parsed, lexed, read, .inl above, fun _ => same, fun equal => ?_,
      fun below => absurd below notBelow⟩
    rw [different] at equal
    cases equal
  | below different notAbove below negative =>
    obtain ⟨tokens, parsed, lexed, read, same⟩ :=
      Value.readsAs_of_below finite different negative default default
    refine ⟨tokens, parsed, lexed, read, .inr (.inr below), fun above => absurd above notAbove,
      fun equal => ?_, fun _ => same⟩
    rw [different] at equal
    cases equal

/-- A tenth below nought, whose pattern no decimal meets exactly. -/
theorem negative_tenth_reads_back :
    (-0.1 : Float).isFinite ∧ (-0.1 : Float) < 0.0 ∧
      ∃ tokens parsed, (Lexer.ofText (Value.ofNumber (-0.1)).text).tokens.1 = .ok tokens ∧
        (Parser.ofTokens .standard tokens).parse.1 = .ok parsed ∧
        parsed.SameTree (.unary .minus (.number (-0.1 : Float).abs default) default) := by
  have finite : (-0.1 : Float).isFinite := by decide
  have below : (-0.1 : Float) < 0.0 := by decide
  obtain ⟨tokens, parsed, lexed, read, -, -, -, negated⟩ :=
    finite_value_reads_back (Value.ofNumber (-0.1)) finite
  exact ⟨finite, below, tokens, parsed, lexed, read, negated below⟩

end Reckon

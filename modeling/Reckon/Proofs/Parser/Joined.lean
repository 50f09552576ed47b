import Reckon.Proofs.Grammar
import Reckon.Proofs.Lexer.Layout
import Reckon.Proofs.Parser.Alike

/-!
Texts put together from lexemes. Such a text has the tokens of these lexemes, and it is parsed as they are
wherever they stand.
-/
namespace Reckon

theorem BinaryOperator.lexeme (operator : BinaryOperator) :
    Lexer.Lexeme operator.text.toList operator.kind := by
  by_cases word : operator = .and ∨ operator = .or
  · rcases word with rfl | rfl
    · exact Lexer.lexeme_of_keyword .and
    · exact Lexer.lexeme_of_keyword .or
  · have listed : (operator.text, operator.kind) ∈ Lexer.signs := by
      revert word
      cases operator <;> decide
    exact .sign listed

theorem UnaryOperator.lexeme (operator : UnaryOperator) :
    Lexer.Lexeme operator.kind.text.toList operator.kind := by
  cases operator with
  | plus | minus =>
    apply Lexer.Lexeme.sign
    simp [UnaryOperator.kind, Token.Kind.text, Lexer.signs, Lexer.symbols]
  | not => exact Lexer.lexeme_of_keyword .not

namespace Parser

variable {tokens : List Token}

theorem joined_intercalate (words : List String) :
    Lexer.Joined words (" ".intercalate words).toList := by
  induction words with
  | nil => exact .nothing
  | cons word words ih =>
    cases words with
    | nil =>
      rw [String.intercalate_singleton]
      exact .single word
    | cons next words =>
      have blank : ∀ character ∈ [' '], character ∈ Lexer.blanks := by simp [Lexer.blanks]
      rw [String.intercalate_cons_cons]
      have joined := Lexer.Joined.apart word next (List.cons_ne_nil ' ' []) blank ih
      simpa using joined

theorem visible_of_lexemes
    (read : ∀ token ∈ tokens, Lexer.Lexeme token.lexeme.toList token.kind) :
    ∀ token ∈ tokens, (!isFinish token) = true := by
  intro token member
  have other := (read token member).kind_ne_finish
  simpa [isFinish] using other

theorem pending_finish (limits : Limits) (position : Position)
    (visible : ∀ token ∈ tokens, (!isFinish token) = true) :
    (ofTokens limits (tokens ++ [.finish position])).pending = tokens := by
  rw [ofTokens, List.takeWhile_append_of_pos visible]
  exact List.append_nil _

/-- The tokens of the text say the same as those that stand nowhere, so they are parsed alike. -/
theorem parse_joined {text : String}
    (read : ∀ token ∈ tokens, Lexer.Lexeme token.lexeme.toList token.kind)
    (joined : Lexer.Joined (tokens.map Token.lexeme) text.toList) :
    ∃ found, (Lexer.ofText text).tokens.1 = .ok found ∧
      Lexer.lexemes found = tokens.map Token.lexeme ∧
      ∃ related, ∀ limits expr,
        (ofTokens limits (tokens ++ [Token.finish default])).parse.1 = .ok expr →
        ∃ parsed, (ofTokens limits found).parse.1 = .ok parsed ∧ parsed.Alike related expr := by
  have lexemes : ∀ reading ∈ tokens.map Token.reading, Lexer.Lexeme reading.2.toList reading.1 := by
    simpa [Token.reading] using read
  have words : (tokens.map Token.reading).map Prod.snd = tokens.map Token.lexeme := by
    simp [Token.reading]
  obtain ⟨found, scanned, same⟩ := Lexer.scanned_of_joined lexemes [] (words ▸ joined)
  refine ⟨found, Lexer.tokens_of_scanned scanned, ?_, ?_⟩
  · obtain ⟨readings, -, listed, same'⟩ := scanned.readings
    have equal : readings = tokens.map Token.reading :=
      List.append_cancel_right (same'.symm.trans same)
    rw [listed, equal, words]
  · have said : found.map Token.reading = (tokens ++ [Token.finish default]).map Token.reading := by
      rw [same, List.map_append]
      rfl
    obtain ⟨token, member, finish⟩ := scanned.finished
    refine ⟨SamePlace found (tokens ++ [Token.finish default]), fun limits expr accepted => ?_⟩
    have outcomes := parse_alike (samePlace_joins _ _) limits (alike_of_reading said)
      ⟨token, member, decide_eq_true finish⟩
    rw [accepted] at outcomes
    generalize (ofTokens limits found).parse.1 = outcome at outcomes ⊢
    cases outcomes with
    | ok alike => exact ⟨_, rfl, alike⟩

end Parser

end Reckon

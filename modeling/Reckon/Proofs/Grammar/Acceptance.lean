import Reckon.Proofs.Grammar.Completeness
import Reckon.Proofs.Grammar.Uniqueness
import Reckon.Proofs.Parser.Passage

/-!
Within limits that the tokens cannot exhaust, a parser accepts exactly the texts of longest phrases,
and it returns the expression of the one longest phrase that a text has.
-/
namespace Reckon.Grammar

open Reckon.Parser Reckon.Parser.Configuration

private theorem outcome_complete {part expr : Expr} {after : List Token}
    (unextended : Unextended after)
    (completed : outcome ⟨.complete part, []⟩ after = .ok expr) : after = [] ∧ part = expr := by
  cases after with
  | nil =>
    cases completed
    exact ⟨rfl, rfl⟩
  | cons token rest =>
    have plain := unextended.plain rfl
    simp only [outcome, step, plain, close] at completed
    cases completed

theorem outcome_initial_iff {tokens : List Token} {expr : Expr} :
    outcome .initial tokens = .ok expr ↔
      ∃ phrase : Phrase .expression,
        phrase.tokens = tokens ∧ phrase.Longest [] ∧ phrase.expr = expr := by
  constructor
  · intro completed
    obtain ⟨phrase, after, rfl, longest, _, finished⟩ :=
      derived_of_outcome (tokens.length + 1) .expression .expression [] tokens expr
        (Nat.lt_succ_self _) (fun _ _ => trivial) (yields_nil _) completed
    obtain ⟨rfl, same⟩ := outcome_complete longest.unextended finished
    exact ⟨phrase, (List.append_nil _).symm, longest, same⟩
  · rintro ⟨phrase, rfl, longest, rfl⟩
    have reads := phrase.outcome_tokens .expression [] (Nat.le_refl 1) (yields_nil _) longest
      (below_nil _)
    rw [List.append_nil] at reads
    exact reads

/-- Under limits that no parse of the tokens can reach, the parser returns exactly the tree of a derivation
of the tokens before the end of the text in which every chain and every list of clauses is as long as what
follows allows; there is at most one such derivation. -/
theorem parse_eq_ok_iff_longest (limits : Limits) (tokens : List Token)
    (deep : (sentence tokens).length + 1 ≤ limits.depth)
    (many : (sentence tokens).length ≤ limits.operators) :
    (∀ expr, (Parser.ofTokens limits tokens).parse.1 = .ok expr ↔
      ∃ phrase : Phrase .expression,
        phrase.tokens = sentence tokens ∧ phrase.Longest [] ∧ phrase.expr = expr) ∧
    ∀ first second : Phrase .expression,
      first.tokens = sentence tokens → first.Longest [] →
      second.tokens = sentence tokens → second.Longest [] → first = second := by
  constructor
  · intro expr
    exact (parse_eq_ok_iff deep many).trans outcome_initial_iff
  · intro first second text longest other longest'
    have same : first.tokens ++ [] = second.tokens ++ [] := by rw [text, other]
    exact (first.unique second same longest longest' (below_nil _) (below_nil _)).1

/-- A further clause may open with either word, and `not` may stand in a condition. -/
theorem longest_of_repeated_then :
    let tokens : List Token := [.keyword .if, .name "x", .keyword .then, .keyword .not, .name "y",
      .keyword .then, .name "z", .keyword .then, .leftParen, .name "x", .plus, .name "y",
      .rightParen].map fun kind => ⟨kind, default, kind.text⟩
    ∃ phrase : Phrase .expression,
      phrase.tokens = tokens ∧ phrase.Longest [] ∧
        ∀ other : Phrase .expression, other.tokens = tokens → other.Longest [] → other = phrase := by
  intro tokens
  have exact := parse_eq_ok_iff_longest ⟨14, 13⟩ tokens (by decide) (by decide)
  obtain ⟨phrase, text, longest, _⟩ := (exact.1 _).mp rfl
  exact ⟨phrase, text, longest, fun other same whole => exact.2 other phrase same whole text longest⟩

end Reckon.Grammar

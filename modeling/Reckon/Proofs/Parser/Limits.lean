import Reckon.Proofs.Grammar.Acceptance

/-!
What limits do to a parser. They never change an expression or a diagnostic of another kind, and tokens
that a parser accepts within some limits are accepted within others unless a reading of the tokens
crosses them.
-/
namespace Reckon.Parser

open Reckon.Parser.Configuration Reckon.Grammar

section

variable {limits larger : Limits} {finish : Span} {configuration last : Configuration}
  {operators total : Nat} {tokens taken : List Token}

private theorem Configuration.Within.mono {next : Option Token}
    (deeper : limits.depth ≤ larger.depth) (more : limits.operators ≤ larger.operators)
    (within : configuration.Within limits operators next) :
    configuration.Within larger operators next :=
  ⟨Nat.le_trans within.1 deeper, fun token member => Nat.le_trans (within.2 token member) more⟩

private theorem Passage.mono (deeper : limits.depth ≤ larger.depth)
    (more : limits.operators ≤ larger.operators)
    (passage : Passage limits configuration operators taken last total) :
    Passage larger configuration operators taken last total := by
  induction passage with
  | stay => exact .stay _ _
  | take within step _ ih => exact .take (within.mono deeper more) step ih

private theorem advance_mono (deeper : limits.depth ≤ larger.depth)
    (more : limits.operators ≤ larger.operators)
    (unlimited : ∀ diagnostic, (advance limits finish configuration operators tokens).1 =
      .error diagnostic → diagnostic.fault ≠ .nestingTooDeep limits.depth ∧
        diagnostic.fault ≠ .tooManyOperators limits.operators) :
    advance larger finish configuration operators tokens =
      advance limits finish configuration operators tokens := by
  obtain ⟨taken, pending, last, total, rfl, passage, halts⟩ :=
    advance_halts limits finish tokens configuration operators
  rw [advance_passage passage] at unlimited halts ⊢
  rw [advance_passage (passage.mono deeper more)]
  generalize result : advance limits finish last total pending = answer at halts unlimited ⊢
  cases halts with
  | deep => exact absurd rfl (unlimited _ rfl).1
  | crowded => exact absurd rfl (unlimited _ rfl).2
  | refused _ what within refuses => exact advance_of_refusal (within.mono deeper more) refuses
  | whole expr finished => exact advance_of_finish finished

end

private theorem tokens_follow {configuration : Configuration} {tokens : List Token} {expr : Expr}
    (completed : configuration.outcome tokens = .ok expr) :
    (configuration.follow tokens).1.map Reading.token = tokens := by
  induction tokens generalizing configuration with
  | nil => rfl
  | cons token rest ih =>
    obtain ⟨next, step, onward⟩ := step_of_outcome completed
    rw [follow_step step]
    simp only [onto, List.singleton_append, List.map_cons, reading_token, ih onward]

theorem follow_longest (phrase : Phrase .expression) (longest : phrase.Longest []) :
    follow .initial phrase.tokens = (phrase.readings 1, .ok phrase.expr) := by
  have reads := phrase.follow_tokens .expression [] (Nat.le_refl 1) (yields_nil _) longest
    (below_nil _)
  rw [List.append_nil] at reads
  exact reads.trans (congrArg (·, _) (List.append_nil _))

private theorem parse_longest {phrase : Phrase .expression} {tokens : List Token} (limits : Limits)
    (text : (ofTokens limits tokens).pending = phrase.tokens) (longest : phrase.Longest []) :
    (Suffices limits 0 (phrase.readings 1) → (ofTokens limits tokens).parse.1 = .ok phrase.expr) ∧
    (¬ Suffices limits 0 (phrase.readings 1) →
      ∃ diagnostic, (ofTokens limits tokens).parse.1 = .error diagnostic ∧
        Crossing limits 0 (phrase.readings 1) diagnostic) := by
  have completed : outcome .initial (ofTokens limits tokens).pending = .ok phrase.expr :=
    outcome_initial_iff.mpr ⟨phrase, text.symm, longest, rfl⟩
  have same : (follow .initial (ofTokens limits tokens).pending).1 = phrase.readings 1 := by
    rw [text, follow_longest phrase longest]
  rw [← same]
  exact ⟨fun sufficed => congrArg Prod.fst (advance_of_suffices completed sufficed),
    crossing_of_insufficient completed (Nat.zero_le _) (Nat.zero_le _)⟩

/-- A text that some limits accept is accepted under exactly the limits that its deepest operand and its
number of operations keep to, with the same tree; under any other the first reading beyond them is
reported. Wider limits change nothing but a failure to keep to the limits. -/
theorem parse_within_limits (wide : Limits) (tokens : List Token) :
    (∀ expr, (ofTokens wide tokens).parse.1 = .ok expr →
      ∃ phrase : Phrase .expression,
        phrase.tokens = sentence tokens ∧ phrase.Longest [] ∧ phrase.expr = expr ∧
        (phrase.readings 1).map Reading.token = phrase.tokens ∧
        ∀ limits : Limits,
          (phrase.nesting ≤ limits.depth ∧ expr.operations ≤ limits.operators →
            (ofTokens limits tokens).parse.1 = .ok expr) ∧
          (¬ (phrase.nesting ≤ limits.depth ∧ expr.operations ≤ limits.operators) →
            ∃ diagnostic, (ofTokens limits tokens).parse.1 = .error diagnostic ∧
              Crossing limits 0 (phrase.readings 1) diagnostic)) ∧
    ∀ larger : Limits, wide.depth ≤ larger.depth → wide.operators ≤ larger.operators →
      (∀ diagnostic, (ofTokens wide tokens).parse.1 = .error diagnostic →
        diagnostic.fault ≠ .nestingTooDeep wide.depth ∧
          diagnostic.fault ≠ .tooManyOperators wide.operators) →
      (ofTokens larger tokens).parse.1 = (ofTokens wide tokens).parse.1 := by
  constructor
  · intro expr accepted
    have completed := outcome_of_advance accepted
    obtain ⟨phrase, text, longest, rfl⟩ := outcome_initial_iff.mp completed
    have reads := follow_longest phrase longest
    have read := tokens_follow completed
    rw [← text, reads] at read
    refine ⟨phrase, text, longest, rfl, read, fun limits => ?_⟩
    have decided := parse_longest limits text.symm longest
    rw [phrase.suffices_readings limits] at decided
    exact decided
  · intro larger deeper more unlimited
    have same := congrArg Prod.fst (advance_mono deeper more unlimited)
    exact same

/-- The sign opens the third level, and with two levels the parser stops at its operand. -/
theorem parse_within_limits_of_signed :
    let tokens : List Token := [.leftParen, .minus, .name "x", .plus, .name "y", .rightParen].map
      fun kind => ⟨kind, default, kind.text⟩
    (∃ phrase : Phrase .expression, phrase.tokens = tokens ∧
      (∀ limits : Limits,
        phrase.nesting ≤ limits.depth ∧ phrase.expr.operations ≤ limits.operators →
          (ofTokens limits tokens).parse.1 = .ok phrase.expr) ∧
      ∃ diagnostic, (ofTokens ⟨2, 1⟩ tokens).parse.1 = .error diagnostic ∧
        Crossing ⟨2, 1⟩ 0 (phrase.readings 1) diagnostic) ∧
    ∀ larger : Limits, 3 ≤ larger.depth → 1 ≤ larger.operators →
      (ofTokens larger tokens).parse.1 = (ofTokens ⟨3, 1⟩ tokens).parse.1 := by
  intro tokens
  have exact := parse_within_limits ⟨3, 1⟩ tokens
  obtain ⟨phrase, text, _, same, _, decided⟩ := exact.1 _ rfl
  have stopped : (ofTokens ⟨2, 1⟩ tokens).parse.1 = .error (.of (.nestingTooDeep 2) default []) := rfl
  have deeper : ¬ (phrase.nesting ≤ 2 ∧ _) := fun within =>
    nomatch stopped.symm.trans ((decided ⟨2, 1⟩).1 within)
  refine ⟨⟨phrase, text, fun limits => ?_, (decided ⟨2, 1⟩).2 deeper⟩, fun larger deeper more => ?_⟩
  · rw [same]
    exact (decided limits).1
  · exact exact.2 larger deeper more fun diagnostic failed => nomatch failed

end Reckon.Parser

import Reckon.Proofs.Parser.Alike
import Reckon.Proofs.Parser.Reading

/-!
The two words before a further clause. Where a parser takes `elif` it stands behind a result of a
conditional, and there it takes `then` for the same; so the one word may be put for the other.
-/
namespace Reckon.Parser

open Reckon.Parser.Configuration

/-- The same token, or `then` in the place of `elif`. -/
inductive Reworded : Token → Token → Prop
  | same (token : Token) : Reworded token token
  | clause {token token' : Token} (old : token.kind = .keyword .elif)
      (new : token'.kind = .keyword .then) (place : token'.span = token.span) : Reworded token token'

section

variable {token token' : Token}

private theorem Reworded.isFinish (reworded : Reworded token token') :
    Parser.isFinish token = Parser.isFinish token' := by
  cases reworded with
  | same => rfl
  | clause old new => simp only [Parser.isFinish, old, new, reduceCtorEq]

/-- Neither word is an operator. -/
private theorem Reworded.counted (reworded : Reworded token token') (configuration : Configuration)
    (operators : Nat) :
    configuration.counted operators token' = configuration.counted operators token := by
  cases reworded with
  | same => rfl
  | clause old new =>
    have uncounted {word : Token} (plain : BinaryOperator.ofKind? word.kind = none) :
        configuration.counted operators word = operators := by
      cases phase : configuration.phase <;>
        simp [Configuration.counted, takesOperator, phase, plain]
    have before : BinaryOperator.ofKind? token.kind = none := by
      rw [old]
      rfl
    have after : BinaryOperator.ofKind? token'.kind = none := by
      rw [new]
      rfl
    rw [uncounted before, uncounted after]

/-- A construct that `elif` finishes on its way does not wait for `then`: a condition, which does, refuses
`elif`. -/
private theorem close_then {stack : List Frame} {part : Expr} {next : Configuration}
    (closed : close (.keyword .elif) stack part = .ok next) :
    close (.keyword .then) stack part = .ok next := by
  induction stack generalizing part with
  | nil => cases closed
  | cons frame stack ih =>
    cases frame with
    | group | condition => cases closed
    | result => exact closed
    | operation | unary | assignment | otherwise => exact ih closed

private theorem Reworded.step (reworded : Reworded token token')
    {configuration next : Configuration}
    (step : configuration.step token = .ok next) : configuration.step token' = .ok next := by
  cases reworded with
  | same => exact step
  | clause old new =>
    obtain ⟨phase, stack⟩ := configuration
    cases phase with
    | complete part =>
      rw [step_plain old rfl] at step
      rw [step_plain new rfl]
      exact close_then step
    | awaiting | name | equals =>
      simp only [Configuration.step, starting, old] at step
      cases step

end

section

variable {limits : Limits} {finish : Span} {expr : Expr} {configuration : Configuration}
  {operators : Nat}

private theorem taken_of_accepted {token : Token} {rest : List Token}
    (accepted : (advance limits finish configuration operators (token :: rest)).1 = .ok expr) :
    ∃ next, configuration.Within limits operators (some token) ∧
      configuration.step token = .ok next ∧
      (advance limits finish next (configuration.counted operators token) rest).1 = .ok expr := by
  rw [advance_cons] at accepted
  split at accepted
  · cases accepted
  · rename_i shallow
    split at accepted
    · cases accepted
    · rename_i few
      have within := within_some.mpr ⟨Nat.not_lt.mp shallow, Nat.not_lt.mp few⟩
      cases step : configuration.step token with
      | error what =>
        rw [step] at accepted
        cases accepted
      | ok next =>
        rw [step] at accepted
        exact ⟨next, within, rfl, accepted⟩

/-- Both runs go through the same configurations with the same counts of operators. -/
private theorem accepted_of_reworded {tokens tokens' : List Token} (finish' : Span)
    (changed : List.Forall₂ Reworded tokens tokens')
    (accepted : (advance limits finish configuration operators tokens).1 = .ok expr) :
    (advance limits finish' configuration operators tokens').1 = .ok expr := by
  induction changed generalizing configuration operators with
  | nil =>
    have finished : configuration.finish = .ok expr := outcome_of_advance accepted
    rw [advance_of_finish finished]
  | @cons token token' rest rest' reworded _ ih =>
    obtain ⟨next, ⟨shallow, few⟩, step, onward⟩ := taken_of_accepted accepted
    have counted := reworded.counted configuration operators
    have within : configuration.Within limits operators (some token') :=
      within_some.mpr ⟨shallow, counted ▸ few token rfl⟩
    rw [advance_of_step within (reworded.step step), counted]
    exact ih onward

end

/-- Any of the `elif` in a list of tokens may be `then`, and the expression stays the same. -/
theorem accepted_with_then (limits : Limits) (tokens tokens' : List Token) (expr : Expr)
    (changed : List.Forall₂ Reworded tokens tokens')
    (accepted : (ofTokens limits tokens).parse.1 = .ok expr) :
    (ofTokens limits tokens').parse.1 = .ok expr := by
  have ends (token token' : Token) (reworded : Reworded token token') :
      isFinish token = isFinish token' :=
    reworded.isFinish
  have pending := (forall₂_pending ends changed).1
  exact accepted_of_reworded (ofTokens limits tokens').finish pending accepted

/-- The second `elif` belongs to the inner of two conditionals, which has a third one as its premise. -/
theorem accepted_with_then_within :
    let word (kind : Token.Kind) : Token := ⟨kind, default, kind.text⟩
    let before := [.keyword .if, .name "x", .keyword .then, .keyword .if, .leftParen, .keyword .if,
      .name "y", .keyword .then, .name "x", .keyword .elif, .name "z", .keyword .then, .name "y",
      .rightParen, .keyword .then, .name "z"].map word
    let after := [.name "y", .keyword .then, .minus, .name "x", .keyword .else, .name "y"].map word
    let tokens := before ++ word (.keyword .elif) :: after
    let tokens' := before ++ word (.keyword .then) :: after
    List.Forall₂ Reworded tokens tokens' ∧
      ∃ expr, (ofTokens ⟨5, 0⟩ tokens).parse.1 = .ok expr ∧
        (ofTokens ⟨5, 0⟩ tokens').parse.1 = .ok expr := by
  intro word before after tokens tokens'
  have kept (words : List Token) : List.Forall₂ Reworded words words :=
    List.forall₂_same.mpr fun token _ => .same token
  have changed : List.Forall₂ Reworded tokens tokens' :=
    List.rel_append (kept before) (.cons (.clause rfl rfl rfl) (kept after))
  exact ⟨changed, _, rfl, accepted_with_then ⟨5, 0⟩ tokens tokens' _ changed rfl⟩

end Reckon.Parser

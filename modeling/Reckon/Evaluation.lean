import Reckon.Arithmetic
import Reckon.Store

/-!
Evaluation of expressions in a context. What was assigned before a fault stays assigned. Levels of
evaluation are limited, and a chain of operators counts as one level however long it is.
-/
namespace Reckon

/-- A value, or none from a conditional without a branch to take. -/
abbrev Evaluation (α : Type) := ExceptT Diagnostic (StateM Store) α

namespace Evaluation

def fail {α : Type} (context : Context) (fault : Fault) (span : Span) : Evaluation α :=
  throw (.of fault span (context.traceback span.start))

/-- The value of a part that has to have one. -/
def required (context : Context) (part : Expr) (value : Option Value) : Evaluation Value :=
  match value with
  | some value => pure value
  | none => fail context .noValue part.span

/-- Division alone fails, when the divisor is either zero; the fault lies where the divisor's value
was made and belongs to the context of the dividend. -/
def operate (context : Context) (operator : BinaryOperator) (left right : Value)
    (rightSpan : Span) : Evaluation Float :=
  if operator = .divide ∧ right.number == 0.0 then
    fail (left.context.getD context) .divisionByZero (right.span.getD rightSpan)
  else pure (operator.apply left.number right.number)

end Evaluation

open Evaluation

mutual

/-- The left operand of an operator stays on the operator's level if it is an operation itself; every
other part is one level deeper. Levels count from one. -/
def Expr.evaluate (context : Context) (limit level : Nat) (expr : Expr) :
    Evaluation (Option Value) :=
  if limit < level then fail context (.evaluationTooDeep limit) expr.span
  else
    match expr with
    | .number value span => pure (some ⟨value, span, context⟩)
    | .variable name span => do
      match context.lookup (← get) name with
      | some value => pure (some ((value.withSpan span).withContext context))
      | none => fail context (.undefinedVariable name) span
    | .assign name operand span => do
      let value ← required context operand (← operand.evaluate context limit (level + 1))
      modify fun store => context.assign store name value
      pure (some (value.withSpan span))
    | .unary operator operand span => do
      let value ← required context operand (← operand.evaluate context limit (level + 1))
      pure (some ⟨operator.apply value.number, span, context⟩)
    | .binary left operator right span => do
      let leftLevel := if left.isBinary then level else level + 1
      let first ← required context left (← left.evaluate context limit leftLevel)
      let second ← required context right (← right.evaluate context limit (level + 1))
      let number ← operate context operator first second right.span
      pure (some ⟨number, span, context⟩)
    | .conditional branches _ => branches.evaluate context limit (level + 1)

/-- Conditions in order up to the first that holds, then its result alone. -/
def Branches.evaluate (context : Context) (limit level : Nat) :
    Branches → Evaluation (Option Value)
  | .nothing => pure none
  | .otherwise result => result.evaluate context limit level
  | .clause condition result rest => do
    let value ← required context condition (← condition.evaluate context limit level)
    if value.isTruthy then result.evaluate context limit level
    else rest.evaluate context limit level

end

end Reckon

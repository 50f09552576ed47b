import Reckon.Proofs.Grammar
import Reckon.Proofs.Parser.Reading

/-!
How the tokens of a phrase are read, by the grammar alone. Assignments, prefixed phrases, parentheses and
conditionals open one level for each expression in them, and chains open none.
-/
namespace Reckon

mutual

/-- How many operators between operands an expression holds. -/
def Expr.operations : Expr → Nat
  | .number _ _ | .variable _ _ => 0
  | .assign _ value _ => value.operations
  | .unary _ operand _ => operand.operations
  | .binary left _ right _ => left.operations + right.operations + 1
  | .conditional branches _ => branches.operations

def Branches.operations : Branches → Nat
  | .nothing => 0
  | .otherwise result => result.operations
  | .clause condition result rest =>
    condition.operations + result.operations + rest.operations

end

namespace Grammar

open Reckon.Parser

mutual

/-- The level is that of the phrase itself. -/
def Phrase.readings {symbol : Symbol} (level : Nat) : Phrase symbol → List Reading
  | .assignment _ opening target equals value =>
    .operand opening.val level :: .mark target.val :: .mark equals.val :: value.readings (level + 1)
  | .chain _ _ first links => first.readings level ++ links.readings level
  | .prefixed _ _ sign operand => .operand sign.val level :: operand.readings (level + 1)
  | .unsigned power => power.readings level
  | .number _ literal => [.operand literal.val level]
  | .variable _ reference => [.operand reference.val level]
  | .group opening inner closing =>
    .operand opening.val level :: (inner.readings (level + 1) ++ [.mark closing.val])
  | .conditional opening clause => .operand opening.val level :: clause.readings level

def Links.readings {family : Family} (level : Nat) : Links family → List Reading
  | .nothing => []
  | .link _ _ sign operand rest =>
    .operator sign.val :: (operand.readings level ++ rest.readings level)

/-- The level is that of the whole conditional. -/
def Clause.readings (level : Nat) : Clause → List Reading
  | .mk condition consequence result rest =>
    condition.readings (level + 1) ++ .mark consequence.val ::
      (result.readings (level + 1) ++ rest.readings level)

def Clauses.readings (level : Nat) : Clauses → List Reading
  | .nothing => []
  | .otherwise mark result => .mark mark.val :: result.readings (level + 1)
  | .further mark clause => .mark mark.val :: clause.readings level

end

/-- The most levels that are open at once, if the phrase is a whole text. -/
def Phrase.nesting {symbol : Symbol} (phrase : Phrase symbol) : Nat :=
  ((phrase.readings 1).map Reading.level).foldr max 0

mutual

theorem Phrase.operators_readings {symbol : Symbol} (phrase : Phrase symbol) (level : Nat) :
    (phrase.readings level).countP Reading.isOperator = phrase.expr.operations := by
  match phrase with
  | .assignment _ opening target equals value => exact value.operators_readings (level + 1)
  | .chain family own first links =>
    rw [Phrase.readings, List.countP_append, first.operators_readings level]
    exact links.operators_readings first.expr level
  | .prefixed operator own sign operand => exact operand.operators_readings (level + 1)
  | .unsigned power => exact power.operators_readings level
  | .number _ _ => rfl
  | .variable _ _ => rfl
  | .group opening inner closing =>
    have counted := inner.operators_readings (level + 1)
    simpa [Phrase.readings, Phrase.expr, Reading.isOperator] using counted
  | .conditional opening clause => exact clause.operators_readings level

theorem Links.operators_readings {family : Family} (links : Links family) (left : Expr)
    (level : Nat) :
    left.operations + (links.readings level).countP Reading.isOperator =
      (links.expr left).operations := by
  match links with
  | .nothing => rfl
  | .link operator own sign operand rest =>
    have counted := operand.operators_readings level
    have further := rest.operators_readings
      (.binary left operator operand.expr ⟨left.span.start, operand.expr.span.stop⟩) level
    simp only [Expr.operations] at further
    simp only [Links.readings, Links.expr, ← further, List.countP_cons, List.countP_append, counted,
      Reading.isOperator, if_true]
    omega

theorem Clause.operators_readings (clause : Clause) (level : Nat) :
    (clause.readings level).countP Reading.isOperator = clause.branches.operations := by
  match clause with
  | .mk condition consequence result rest =>
    have tested := condition.operators_readings (level + 1)
    have chosen := result.operators_readings (level + 1)
    have further := rest.operators_readings level
    simp [Clause.readings, Clause.branches, Branches.operations, Reading.isOperator, tested, chosen,
      further, Nat.add_assoc]

theorem Clauses.operators_readings (rest : Clauses) (level : Nat) :
    (rest.readings level).countP Reading.isOperator = rest.branches.operations := by
  match rest with
  | .nothing => rfl
  | .otherwise mark result => exact result.operators_readings (level + 1)
  | .further mark clause => exact clause.operators_readings level

end

private theorem foldr_max_le {most : Nat} (levels : List Nat) :
    levels.foldr max 0 ≤ most ↔ ∀ level ∈ levels, level ≤ most := by
  induction levels with
  | nil => simp
  | cons level levels ih => simp only [List.foldr_cons, Nat.max_le, ih, List.forall_mem_cons]

theorem Phrase.suffices_readings {symbol : Symbol} (phrase : Phrase symbol) (limits : Limits) :
    Suffices limits 0 (phrase.readings 1) ↔
      phrase.nesting ≤ limits.depth ∧ phrase.expr.operations ≤ limits.operators := by
  rw [← phrase.operators_readings 1, nesting, foldr_max_le, List.forall_mem_map]
  exact ⟨fun ⟨shallow, few⟩ => ⟨shallow, by rwa [Nat.zero_add] at few⟩,
    fun ⟨shallow, few⟩ => ⟨shallow, by rwa [Nat.zero_add]⟩⟩

end Grammar

end Reckon

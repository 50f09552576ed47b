import Reckon.Proofs.Grammar
import Reckon.Proofs.Parser.Outcome

/-!
Longest phrases: none of their expressions could go on with the operator behind it, and no conditional
with the clause behind it. A configuration that reads such a phrase comes to its expression.
-/
namespace Reckon.Grammar

open Reckon.Parser

/-- No operator between operands comes next. -/
def Unextended (after : List Token) : Prop :=
  ∀ token ∈ after.head?, ∀ operator : BinaryOperator, token.kind ≠ operator.kind

/-- No word comes next with which a conditional could go on. -/
def Uncontinued (after : List Token) : Prop :=
  ∀ token ∈ after.head?,
    token.kind ≠ .keyword .then ∧ token.kind ≠ .keyword .elif ∧ token.kind ≠ .keyword .else

mutual

/-- The second argument holds the tokens behind the phrase. -/
def Phrase.Longest {symbol : Symbol} : Phrase symbol → List Token → Prop
  | .assignment _ _ _ _ value, after => value.Longest after ∧ Unextended after
  | .chain _ _ first links, after =>
    first.Longest (links.tokens ++ after) ∧ links.Longest after ∧
      (symbol = .expression → Unextended after)
  | .prefixed _ _ _ operand, after => operand.Longest after
  | .unsigned power, after => power.Longest after
  | .number _ _, _ => True
  | .variable _ _, _ => True
  | .group _ inner closing, after => inner.Longest (closing.val :: after)
  | .conditional _ clause, after => clause.Longest after

def Links.Longest {family : Family} : Links family → List Token → Prop
  | .nothing, _ => True
  | .link _ _ _ operand rest, after => operand.Longest (rest.tokens ++ after) ∧ rest.Longest after

def Clause.Longest : Clause → List Token → Prop
  | .mk condition consequence result rest, after =>
    condition.Longest (consequence.val :: (result.tokens ++ (rest.tokens ++ after))) ∧
      result.Longest (rest.tokens ++ after) ∧ rest.Longest after

def Clauses.Longest : Clauses → List Token → Prop
  | .nothing, after => Uncontinued after
  | .otherwise _ result, after => result.Longest after
  | .further _ clause, after => clause.Longest after

end

/-- The strength of the weakest operator that a phrase may hold outside parentheses and conditionals. -/
def Symbol.strength : Symbol → Nat
  | .expression => 1
  | .comparison => 3
  | .arithmetic => 4
  | .term => 5
  | .factor | .power => 7
  | .atom => 8

def goalStrength : Goal → Nat
  | .expression => 1
  | .comparison => 3
  | .factor => 4
  | .atom => 8

theorem strength_of_mem {operator : BinaryOperator} {family : Family}
    (own : operator ∈ family.operators) : operator.strength = family.symbol.strength := by
  cases family <;> cases operator <;> simp_all [Family.operators] <;> rfl

theorem symbol_strength_lt_operand (family : Family) :
    family.symbol.strength < family.operand.strength := by
  cases family <;> decide

theorem strength_le_of_lt_operand {operator : BinaryOperator} {family : Family}
    (weaker : operator.strength < family.operand.strength) :
    operator.strength ≤ family.symbol.strength := by
  cases family <;> cases operator <;> first | decide | exact absurd weaker (by decide)

theorem strength_lt_of_not_mem {operator : BinaryOperator} {family : Family}
    (foreign : operator ∉ family.operators) (weaker : operator.strength < family.operand.strength) :
    operator.strength < family.symbol.strength := by
  cases family <;> cases operator <;> first
    | decide
    | exact absurd weaker (by decide)
    | exact absurd (by decide) foreign

theorem goalStrength_le_operand {operator : BinaryOperator} {family : Family}
    (own : operator ∈ family.operators) :
    goalStrength operator.goal ≤ family.operand.strength := by
  cases family <;> cases operator <;> simp_all [Family.operators] <;> decide

/-- A construct that is no operation leaves all operators to an expression in it. -/
theorem yields_loose {frame : Frame} {stack : List Frame} (loose : frame.strength = 0) :
    Yields Symbol.expression.strength (frame :: stack) :=
  yields_cons.mpr (Nat.lt_of_le_of_lt (Nat.le_of_eq loose) Nat.zero_lt_one)

theorem signed_strength {operator : UnaryOperator} {symbol : Symbol}
    (own : signed operator = symbol) : operator.strength + 1 = symbol.strength := by
  subst own
  cases operator <;> rfl

theorem goalStrength_le_signed {operator : UnaryOperator} {symbol : Symbol}
    (own : signed operator = symbol) : goalStrength operator.goal ≤ symbol.strength := by
  subst own
  cases operator <;> decide

theorem eq_expression_of_wide {goal : Goal} (wide : goalStrength goal ≤ Symbol.expression.strength) :
    goal = .expression := by
  cases goal <;> first | rfl | exact absurd wide (by decide)

theorem admits_of_signed {operator : UnaryOperator} {symbol : Symbol} {goal : Goal}
    (own : signed operator = symbol) (wide : goalStrength goal ≤ symbol.strength) :
    goal.admits operator := by
  subst own
  cases operator <;> cases goal <;> first | rfl | exact absurd wide (by decide)

theorem Unextended.plain {after : List Token} (unextended : Unextended after) {token : Token}
    (member : token ∈ after.head?) : BinaryOperator.ofKind? token.kind = none :=
  BinaryOperator.ofKind?_eq_none.mpr (unextended token member)

theorem Unextended.below {after : List Token} (unextended : Unextended after) (strength : Nat) :
    Below strength after := by
  intro token member operator equal
  rw [unextended.plain member] at equal
  cases equal

theorem below_atom (tokens : List Token) : Below Symbol.atom.strength tokens := by
  intro token member operator equal
  cases operator <;> decide

theorem unextended_of_below {after : List Token} (below : Below 1 after) : Unextended after := by
  intro token member operator equal
  have weak := below token member operator (BinaryOperator.ofKind?_eq_some.mpr equal)
  have positive := strength_pos operator
  omega

theorem Phrase.Longest.unextended {phrase : Phrase .expression} {after : List Token}
    (longest : phrase.Longest after) : Unextended after := by
  cases phrase with
  | assignment => exact longest.2
  | chain => exact longest.2.2 rfl
  | prefixed operator own => cases operator <;> cases own

theorem unextended_of_kind {token : Token} {kind : Token.Kind} (rest : List Token)
    (equal : token.kind = kind) (plain : BinaryOperator.ofKind? kind = none) :
    Unextended (token :: rest) := by
  intro head member
  cases member
  rw [equal]
  exact BinaryOperator.ofKind?_eq_none.mp plain

theorem below_links {family : Family} (links : Links family) {after : List Token}
    (below : Below family.symbol.strength after) :
    Below (family.symbol.strength + 1) (links.tokens ++ after) := by
  cases links with
  | nothing => exact below.mono (Nat.le_succ _)
  | link operator own sign operand rest =>
    refine below_cons.mpr fun found equal => ?_
    have read := BinaryOperator.ofKind?_eq_some.mpr sign.property
    obtain rfl : operator = found := Option.some.inj (read.symm.trans equal)
    exact Nat.lt_succ_of_le (Nat.le_of_eq (strength_of_mem own))

end Reckon.Grammar

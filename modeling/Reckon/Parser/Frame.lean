import Reckon.Expr
import Reckon.Fault

/-!
The unfinished constructs around the place a parser has come to. Operators bind by strength; a
construct either waits for a token of its own or is whole as soon as its last part is.
-/
namespace Reckon

namespace Parser

/-- What may stand where an operand is due, the wider choices first. -/
inductive Goal where
  | expression | comparison | factor | atom
deriving DecidableEq, Repr

namespace Goal

def expectation : Goal → Expectation
  | .expression => .expression
  | .comparison => .comparison
  | .factor | .atom => .atom

def admitsNegation : Goal → Bool
  | .expression | .comparison => true
  | .factor | .atom => false

def admitsSign : Goal → Bool
  | .expression | .comparison | .factor => true
  | .atom => false

end Goal

end Parser

namespace BinaryOperator

def strength : BinaryOperator → Nat
  | .and | .or => 1
  | .equal | .unequal | .less | .lessEqual | .greater | .greaterEqual => 3
  | .add | .subtract => 4
  | .multiply | .divide => 5
  | .power => 7

def goal : BinaryOperator → Parser.Goal
  | .and | .or => .comparison
  | .power => .atom
  | _ => .factor

end BinaryOperator

namespace UnaryOperator

/-- A sign binds weaker than a power, a negation weaker than a comparison. -/
def strength : UnaryOperator → Nat
  | .not => 2
  | .plus | .minus => 6

def goal : UnaryOperator → Parser.Goal
  | .not => .comparison
  | .plus | .minus => .factor

end UnaryOperator

namespace Expr

def joined (left : Expr) (operator : BinaryOperator) (right : Expr) : Expr :=
  .binary left operator right (left.span.through right.span)

def signed (operand : Expr) (operator : UnaryOperator) (opening : Span) : Expr :=
  .unary operator operand (opening.through operand.span)

/-- A conditional reaches to the end of its last part. -/
def chosen (last : Expr) (opening : Span) (branches : Branches) : Expr :=
  .conditional branches (opening.through last.span)

end Expr

namespace Parser

/-- A construct with the parts it has so far. The clauses of a conditional come last one first. -/
inductive Frame where
  | operation (left : Expr) (operator : BinaryOperator)
  | unary (operator : UnaryOperator) (opening : Span)
  | group
  | assignment (name : String) (opening : Span)
  | condition (opening : Span) (clauses : List (Expr × Expr))
  | result (opening : Span) (clauses : List (Expr × Expr)) (premise : Expr)
  | otherwise (opening : Span) (clauses : List (Expr × Expr))

namespace Frame

/-- Whether the part under way counts as one more level of nesting. -/
def opensLevel : Frame → Bool
  | .operation .. => false
  | _ => true

/-- What the construct is with its last part, unless it still waits for a token. -/
def whole (part : Expr) : Frame → Except Expectation Expr
  | .operation left operator => .ok (left.joined operator part)
  | .unary operator opening => .ok (part.signed operator opening)
  | .group => .error .closing
  | .assignment name opening => .ok (.assign name part (opening.through part.span))
  | .condition .. => .error .consequence
  | .result opening clauses premise =>
    .ok (part.chosen opening (.after ((premise, part) :: clauses) .nothing))
  | .otherwise opening clauses => .ok (part.chosen opening (.after clauses (.otherwise part)))

end Frame

/-- Finishes the operators that bind at least as strongly as one that follows. -/
def reduce (strength : Nat) : List Frame → Expr → List Frame × Expr
  | .operation left operator :: stack, part =>
    if strength ≤ operator.strength then reduce strength stack (left.joined operator part)
    else (.operation left operator :: stack, part)
  | .unary operator opening :: stack, part =>
    if strength ≤ operator.strength then reduce strength stack (part.signed operator opening)
    else (.unary operator opening :: stack, part)
  | stack, part => (stack, part)

end Parser

end Reckon

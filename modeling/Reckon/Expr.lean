import Reckon.Token

/-! Expression trees, every node with the region of the text it was read from. -/
namespace Reckon

inductive UnaryOperator where
  | plus | minus | not
deriving DecidableEq, Repr

inductive BinaryOperator where
  | add | subtract | multiply | divide | power
  | equal | unequal | less | lessEqual | greater | greaterEqual
  | and | or
deriving DecidableEq, Repr

namespace BinaryOperator

def text : BinaryOperator → String
  | .add => "+"
  | .subtract => "-"
  | .multiply => "*"
  | .divide => "/"
  | .power => "^"
  | .equal => "=="
  | .unequal => "!="
  | .less => "<"
  | .lessEqual => "<="
  | .greater => ">"
  | .greaterEqual => ">="
  | .and => "and"
  | .or => "or"

def ofKind? : Token.Kind → Option BinaryOperator
  | .plus => some .add
  | .minus => some .subtract
  | .star => some .multiply
  | .slash => some .divide
  | .caret => some .power
  | .equalEqual => some .equal
  | .bangEqual => some .unequal
  | .less => some .less
  | .lessEqual => some .lessEqual
  | .greater => some .greater
  | .greaterEqual => some .greaterEqual
  | .keyword .and => some .and
  | .keyword .or => some .or
  | _ => none

end BinaryOperator

mutual

inductive Expr where
  | number (value : Float) (span : Span)
  | variable (name : String) (span : Span)
  | assign (name : String) (value : Expr) (span : Span)
  | unary (operator : UnaryOperator) (operand : Expr) (span : Span)
  | binary (left : Expr) (operator : BinaryOperator) (right : Expr) (span : Span)
  | conditional (branches : Branches) (span : Span)

/-- The clauses of a conditional in order, and the result when no condition holds, if there is one. -/
inductive Branches where
  | nothing
  | otherwise (result : Expr)
  | clause (condition result : Expr) (rest : Branches)

end

namespace Expr

def span : Expr → Span
  | .number _ span | .variable _ span | .assign _ _ span | .unary _ _ span
  | .binary _ _ _ span | .conditional _ span => span

def isBinary : Expr → Bool
  | .binary .. => true
  | _ => false

end Expr

/-- Puts clauses, the last one first, before the branches that follow them. -/
def Branches.after (clauses : List (Expr × Expr)) (rest : Branches) : Branches :=
  clauses.foldl (fun later clause => .clause clause.1 clause.2 later) rest

end Reckon

import Reckon.Expr

/-! What the operators make of numbers. Truth is one, falsehood nought. -/
namespace Reckon

def UnaryOperator.apply (number : Float) : UnaryOperator → Float
  | .plus => number
  | .minus => number * -1.0
  | .not => Number.ofBool (!Number.isTruthy number)

/-- A disjunction is the first operand that counts as true, or the last. -/
def BinaryOperator.apply (left right : Float) : BinaryOperator → Float
  | .add => left + right
  | .subtract => left - right
  | .multiply => left * right
  | .divide => left / right
  | .power => left.pow right
  | .equal => Number.ofBool (left == right)
  | .unequal => Number.ofBool (left != right)
  | .less => Number.ofBool (left < right)
  | .lessEqual => Number.ofBool (left ≤ right)
  | .greater => Number.ofBool (right < left)
  | .greaterEqual => Number.ofBool (right ≤ left)
  | .and => Number.ofBool (Number.isTruthy left && Number.isTruthy right)
  | .or => if Number.isTruthy left then left else right

end Reckon

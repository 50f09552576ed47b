import Reckon.Parser.Frame

/-!
One step of parsing. A configuration holds what is due next and the unfinished constructs around
it, and each token either leads to the next configuration or is refused with what was expected.
-/
namespace Reckon.Parser

inductive Phase where
  | awaiting (goal : Goal)
  | name
  | equals (name : String) (opening : Span)
  | complete (part : Expr)

structure Configuration where
  phase : Phase
  stack : List Frame

namespace Configuration

def initial : Configuration := ⟨.awaiting .expression, []⟩

/-- Levels of nesting that have to be open for the next token. They matter where an operand is due;
elsewhere no level has been opened since. -/
def depth (configuration : Configuration) : Nat :=
  match configuration.phase with
  | .awaiting _ => configuration.stack.countP Frame.opensLevel + 1
  | _ => 0

/-- Whether the next token would be counted as an operator between two operands. -/
def takesOperator (configuration : Configuration) (kind : Token.Kind) : Bool :=
  match configuration.phase with
  | .complete _ => (BinaryOperator.ofKind? kind).isSome
  | _ => false

def starting (token : Token) (stack : List Frame) (goal : Goal) : Option Configuration :=
  match token.kind with
  | .int value | .float value => some ⟨.complete (.number value token.span), stack⟩
  | .name text => some ⟨.complete (.variable text token.span), stack⟩
  | .leftParen => some ⟨.awaiting .expression, .group :: stack⟩
  | .keyword .if => some ⟨.awaiting .expression, .condition token.span [] :: stack⟩
  | .plus => if goal.admitsSign then prefixed .plus else none
  | .minus => if goal.admitsSign then prefixed .minus else none
  | .keyword .not => if goal.admitsNegation then prefixed .not else none
  | .keyword .sclr => if goal = .expression then some ⟨.name, stack⟩ else none
  | _ => none
where
  prefixed (operator : UnaryOperator) : Option Configuration :=
    some ⟨.awaiting operator.goal, .unary operator token.span :: stack⟩

end Configuration

/-- What a construct makes of a token behind its last part, if it is one that it waits for. -/
def Frame.resumed (part : Expr) (kind : Token.Kind) (stack : List Frame) :
    Frame → Option Configuration
  | .group => if kind = .rightParen then some ⟨.complete part, stack⟩ else none
  | .condition opening clauses =>
    if kind = .keyword .then then
      some ⟨.awaiting .expression, .result opening clauses part :: stack⟩
    else none
  | .result opening clauses premise =>
    let clauses := (premise, part) :: clauses
    if kind = .keyword .elif ∨ kind = .keyword .then then
      some ⟨.awaiting .expression, .condition opening clauses :: stack⟩
    else if kind = .keyword .else then
      some ⟨.awaiting .expression, .otherwise opening clauses :: stack⟩
    else none
  | _ => none

/-- Behind an operand, a token that is no operator finishes constructs up to the one that takes it. -/
def close (kind : Token.Kind) : List Frame → Expr → Except Expectation Configuration
  | [], _ => .error .finish
  | frame :: stack, part =>
    match frame.resumed part kind stack with
    | some next => .ok next
    | none => do close kind stack (← frame.whole part)

/-- Behind an operand, the end of the text finishes all constructs. -/
def conclude : List Frame → Expr → Except Expectation Expr
  | [], part => .ok part
  | frame :: stack, part => do conclude stack (← frame.whole part)

namespace Configuration

def step (configuration : Configuration) (token : Token) : Except Expectation Configuration :=
  let stack := configuration.stack
  match configuration.phase with
  | .awaiting goal =>
    match starting token stack goal with
    | some next => .ok next
    | none => .error goal.expectation
  | .name =>
    match token.kind with
    | .name text => .ok ⟨.equals text token.span, stack⟩
    | _ => .error .name
  | .equals name opening =>
    match token.kind with
    | .equal => .ok ⟨.awaiting .expression, .assignment name opening :: stack⟩
    | _ => .error .equals
  | .complete part =>
    match BinaryOperator.ofKind? token.kind with
    | some operator =>
      let (stack, left) := reduce operator.strength stack part
      .ok ⟨.awaiting operator.goal, .operation left operator :: stack⟩
    | none => close token.kind stack part

def finish (configuration : Configuration) : Except Expectation Expr :=
  match configuration.phase with
  | .awaiting goal => .error goal.expectation
  | .name => .error .name
  | .equals .. => .error .equals
  | .complete part => conclude configuration.stack part

end Configuration

end Reckon.Parser

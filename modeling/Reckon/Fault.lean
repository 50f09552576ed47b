/-!
What can go wrong: the cause, the family it belongs to and its wording. What was expected of a text
is a closed list of descriptions, open only to wordings given from outside.
-/
namespace Reckon

inductive Expectation where
  | expression | comparison | atom
  | name | equals | closing | consequence | finish
  | wording (text : String)
deriving DecidableEq, Repr

def Expectation.text : Expectation → String
  | .expression => "'sclr', number, identifier, '+', '-', '(', 'if' or 'not'"
  | .comparison => "number, identifier, '+', '-', '(', 'if' or 'not'"
  | .atom => "number, identifier, '+', '-', '(' or 'if'"
  | .name => "identifier"
  | .equals => "'='"
  | .closing => "')'"
  | .consequence => "'then'"
  | .finish => "operator or end of input"
  | .wording text => text

inductive Fault where
  | illegalCharacter (character : Char)
  | badFloat
  | badComparator (lexeme : String)
  | expected (what : Expectation)
  | nestingTooDeep (limit : Nat)
  | tooManyOperators (limit : Nat)
  | undefinedVariable (name : String)
  | divisionByZero
  | noValue
  | evaluationTooDeep (limit : Nat)
deriving DecidableEq, Repr

namespace Fault

inductive Category where
  | invalidToken | syntactic | runtime
deriving DecidableEq, Repr

def Category.text : Category → String
  | .invalidToken => "Invalid Token"
  | .syntactic => "Syntax Error"
  | .runtime => "Runtime Error"

def category : Fault → Category
  | .illegalCharacter _ | .badFloat | .badComparator _ => .invalidToken
  | .expected _ | .nestingTooDeep _ | .tooManyOperators _ => .syntactic
  | .undefinedVariable _ | .divisionByZero | .noValue | .evaluationTooDeep _ => .runtime

def message : Fault → String
  | .illegalCharacter character => s!"Illegal character '{character}'"
  | .badFloat => "Bad Float"
  | .badComparator lexeme => s!"Bad Comparator '{lexeme}'"
  | .expected what => s!"Expected {what.text}"
  | .nestingTooDeep limit => s!"Expression nested deeper than {limit} levels"
  | .tooManyOperators limit => s!"Expression has more than {limit} operators"
  | .undefinedVariable name => s!"{name} is not defined"
  | .divisionByZero => "Division by zero"
  | .noValue => "Expression produced no value"
  | .evaluationTooDeep limit => s!"Evaluation nested deeper than {limit} levels"

end Fault

end Reckon

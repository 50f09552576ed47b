import Reckon.Diagnostic
import Reckon.Parser.Configuration

/-!
Parsing of tokens into one expression, within limits on nesting and on operators. A parser stands
before the token it did not take and can be asked again from there; its count of operators goes on.
-/
namespace Reckon

structure Limits where
  depth : Nat
  operators : Nat
deriving DecidableEq, Repr

def Limits.standard : Limits := ⟨64, 1000⟩

structure Parser where
  limits : Limits
  pending : List Token
  finish : Span
  operators : Nat

namespace Parser

def isFinish (token : Token) : Bool := token.kind = .finish

/-- The first end of text ends the tokens. Where there is none, one without width stands behind the
last token. -/
def ofTokens (limits : Limits) (tokens : List Token) : Parser where
  limits := limits
  pending := tokens.takeWhile fun token => !isFinish token
  finish :=
    match tokens.find? isFinish with
    | some token => token.span
    | none => (tokens.getLast?.map fun token => Span.point token.span.stop).getD default
  operators := 0

structure Progress where
  pending : List Token
  operators : Nat

/-- The nesting is checked before the next token is looked at. An operator too many is taken, a
token that does not fit is not. -/
def advance (limits : Limits) (finish : Span) (configuration : Configuration) (operators : Nat) :
    List Token → Except Diagnostic Expr × Progress
  | [] =>
    let stop (fault : Fault) := (.error (.of fault finish []), ⟨[], operators⟩)
    if limits.depth < configuration.depth then stop (.nestingTooDeep limits.depth)
    else
      match configuration.finish with
      | .ok expression => (.ok expression, ⟨[], operators⟩)
      | .error expectation => stop (.expected expectation)
  | token :: rest =>
    let stop (fault : Fault) (pending : List Token) :=
      (.error (.of fault token.span []), ⟨pending, operators⟩)
    let counted := if configuration.takesOperator token.kind then operators + 1 else operators
    if limits.depth < configuration.depth then
      stop (.nestingTooDeep limits.depth) (token :: rest)
    else if limits.operators < counted then
      stop (.tooManyOperators limits.operators) rest
    else
      match configuration.step token with
      | .ok next => advance limits finish next counted rest
      | .error expectation => stop (.expected expectation) (token :: rest)

def parse (parser : Parser) : Except Diagnostic Expr × Parser :=
  let (outcome, progress) :=
    advance parser.limits parser.finish .initial parser.operators parser.pending
  (outcome, { parser with pending := progress.pending, operators := progress.operators })

end Parser

end Reckon

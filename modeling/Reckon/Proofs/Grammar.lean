import Reckon.Parser.Frame

/-!
The grammar of expressions. A phrase is a derivation from a symbol: it has the tokens that it derives
and the expression that it stands for, in which operators of one family lean to the left.
-/
namespace Reckon

def UnaryOperator.kind : UnaryOperator → Token.Kind
  | .plus => .plus
  | .minus => .minus
  | .not => .keyword .not

def BinaryOperator.kind : BinaryOperator → Token.Kind
  | .add => .plus
  | .subtract => .minus
  | .multiply => .star
  | .divide => .slash
  | .power => .caret
  | .equal => .equalEqual
  | .unequal => .bangEqual
  | .less => .less
  | .lessEqual => .lessEqual
  | .greater => .greater
  | .greaterEqual => .greaterEqual
  | .and => .keyword .and
  | .or => .keyword .or

namespace BinaryOperator

variable {kind : Token.Kind}

theorem ofKind?_eq_some {operator : BinaryOperator} :
    ofKind? kind = some operator ↔ kind = operator.kind := by
  constructor
  · intro found
    unfold ofKind? at found
    split at found <;> cases found <;> rfl
  · rintro rfl
    cases operator <;> rfl

theorem ofKind?_eq_none : ofKind? kind = none ↔ ∀ operator : BinaryOperator, kind ≠ operator.kind := by
  rw [Option.eq_none_iff_forall_ne_some]
  exact forall_congr' fun _ => not_congr ofKind?_eq_some

end BinaryOperator

namespace Grammar

inductive Symbol where
  | expression | comparison | arithmetic | term | factor | power | atom
deriving DecidableEq, Repr

/-- The operators that may stand in one chain. -/
inductive Family where
  | logical | relational | additive | multiplicative | power
deriving DecidableEq, Repr

namespace Family

def operators : Family → List BinaryOperator
  | .logical => [.and, .or]
  | .relational => [.equal, .unequal, .less, .greater, .lessEqual, .greaterEqual]
  | .additive => [.add, .subtract]
  | .multiplicative => [.multiply, .divide]
  | .power => [.power]

def operand : Family → Symbol
  | .logical => .comparison
  | .relational => .arithmetic
  | .additive => .term
  | .multiplicative => .factor
  | .power => .atom

def symbol : Family → Symbol
  | .logical => .expression
  | .relational => .comparison
  | .additive => .arithmetic
  | .multiplicative => .term
  | .power => .power

end Family

/-- What a prefixed phrase is, and its operand as well. -/
def signed : UnaryOperator → Symbol
  | .not => .comparison
  | .plus | .minus => .factor

abbrev Terminal (kind : Token.Kind) := { token : Token // token.kind = kind }

mutual

inductive Phrase : Symbol → Type
  | assignment (name : String) (opening : Terminal (.keyword .sclr)) (target : Terminal (.name name))
      (equals : Terminal .equal) (value : Phrase .expression) : Phrase .expression
  | chain {symbol : Symbol} (family : Family) (own : family.symbol = symbol)
      (first : Phrase family.operand) (links : Links family) : Phrase symbol
  | prefixed {symbol : Symbol} (operator : UnaryOperator) (own : signed operator = symbol)
      (sign : Terminal operator.kind) (operand : Phrase symbol) : Phrase symbol
  | unsigned (power : Phrase .power) : Phrase .factor
  | number (value : Float)
      (literal : { token : Token // token.kind = .int value ∨ token.kind = .float value }) :
      Phrase .atom
  | variable (name : String) (reference : Terminal (.name name)) : Phrase .atom
  | group (opening : Terminal .leftParen) (inner : Phrase .expression)
      (closing : Terminal .rightParen) : Phrase .atom
  | conditional (opening : Terminal (.keyword .if)) (clause : Clause) : Phrase .atom

/-- The operators of a chain, each with its right operand. -/
inductive Links : Family → Type
  | nothing {family : Family} : Links family
  | link {family : Family} (operator : BinaryOperator) (own : operator ∈ family.operators)
      (sign : Terminal operator.kind) (operand : Phrase family.operand) (rest : Links family) : Links family

/-- A condition and its result, with all that follows them in the conditional. -/
inductive Clause : Type
  | mk (condition : Phrase .expression) (consequence : Terminal (.keyword .then))
      (result : Phrase .expression) (rest : Clauses) : Clause

/-- Either word may introduce a further clause. -/
inductive Clauses : Type
  | nothing : Clauses
  | otherwise (mark : Terminal (.keyword .else)) (result : Phrase .expression) : Clauses
  | further (mark : { token : Token // token.kind = .keyword .elif ∨ token.kind = .keyword .then })
      (clause : Clause) : Clauses

end

mutual

def Phrase.tokens {symbol : Symbol} : Phrase symbol → List Token
  | .assignment _ opening target equals value =>
    opening.val :: target.val :: equals.val :: value.tokens
  | .chain _ _ first links => first.tokens ++ links.tokens
  | .prefixed _ _ sign operand => sign.val :: operand.tokens
  | .unsigned power => power.tokens
  | .number _ literal => [literal.val]
  | .variable _ reference => [reference.val]
  | .group opening inner closing => opening.val :: (inner.tokens ++ [closing.val])
  | .conditional opening clause => opening.val :: clause.tokens

def Links.tokens {family : Family} : Links family → List Token
  | .nothing => []
  | .link _ _ sign operand rest => sign.val :: (operand.tokens ++ rest.tokens)

def Clause.tokens : Clause → List Token
  | .mk condition consequence result rest =>
    condition.tokens ++ consequence.val :: (result.tokens ++ rest.tokens)

def Clauses.tokens : Clauses → List Token
  | .nothing => []
  | .otherwise mark result => mark.val :: result.tokens
  | .further mark clause => mark.val :: clause.tokens

end

mutual

/-- Parentheses leave no trace in the expression, and a region reaches from the first of its parts
to the last. -/
def Phrase.expr {symbol : Symbol} : Phrase symbol → Expr
  | .assignment name _ target _ value =>
    .assign name value.expr ⟨target.val.span.start, value.expr.span.stop⟩
  | .chain _ _ first links => links.expr first.expr
  | .prefixed operator _ sign operand =>
    .unary operator operand.expr ⟨sign.val.span.start, operand.expr.span.stop⟩
  | .unsigned power => power.expr
  | .number value literal => .number value literal.val.span
  | .variable name reference => .variable name reference.val.span
  | .group _ inner _ => inner.expr
  | .conditional opening clause =>
    .conditional clause.branches ⟨opening.val.span.start, clause.last.span.stop⟩

def Links.expr {family : Family} (left : Expr) : Links family → Expr
  | .nothing => left
  | .link operator _ _ operand rest =>
    rest.expr (.binary left operator operand.expr ⟨left.span.start, operand.expr.span.stop⟩)

def Clause.branches : Clause → Branches
  | .mk condition _ result rest => .clause condition.expr result.expr rest.branches

def Clauses.branches : Clauses → Branches
  | .nothing => .nothing
  | .otherwise _ result => .otherwise result.expr
  | .further _ clause => clause.branches

def Clause.last : Clause → Expr
  | .mk _ _ result rest => rest.last result.expr

def Clauses.last (result : Expr) : Clauses → Expr
  | .nothing => result
  | .otherwise _ alternative => alternative.expr
  | .further _ clause => clause.last

end

/-- What tokens are parsed as: all that stand before the first end of a text. -/
def sentence (tokens : List Token) : List Token :=
  tokens.takeWhile fun token => token.kind != .finish

end Grammar

end Reckon

import Reckon.Number
import Reckon.Position

/-! The smallest meaningful pieces of a text, with the tables of reserved words and comparators. -/
namespace Reckon

inductive Keyword where
  | sclr | and | or | not | if | then | elif | else
deriving DecidableEq, Repr

namespace Keyword

def text : Keyword → String
  | .sclr => "sclr"
  | .and => "and"
  | .or => "or"
  | .not => "not"
  | .if => "if"
  | .then => "then"
  | .elif => "elif"
  | .else => "else"

def all : List Keyword := [.sclr, .and, .or, .not, .if, .then, .elif, .else]

def ofText? (word : String) : Option Keyword :=
  all.find? fun keyword => keyword.text = word

theorem ofText?_text (keyword : Keyword) : ofText? keyword.text = some keyword := by
  cases keyword <;> decide

end Keyword

namespace Token

/-- An integer has no point in its text, a float has one; both hold a binary64 number. -/
inductive Kind where
  | int (value : Float)
  | float (value : Float)
  | name (text : String)
  | keyword (word : Keyword)
  | plus | minus | star | slash | caret
  | equal | equalEqual | bangEqual | less | lessEqual | greater | greaterEqual
  | leftParen | rightParen
  | finish
deriving DecidableEq

def Kind.text : Kind → String
  | .int value | .float value => Number.text value
  | .name text => text
  | .keyword word => word.text
  | .plus => "+"
  | .minus => "-"
  | .star => "*"
  | .slash => "/"
  | .caret => "^"
  | .equal => "="
  | .equalEqual => "=="
  | .bangEqual => "!="
  | .less => "<"
  | .lessEqual => "<="
  | .greater => ">"
  | .greaterEqual => ">="
  | .leftParen => "("
  | .rightParen => ")"
  | .finish => "EOF"

def comparators : List Kind :=
  [.equal, .equalEqual, .bangEqual, .less, .lessEqual, .greater, .greaterEqual]

def comparator? (lexeme : String) : Option Kind :=
  comparators.find? fun kind => kind.text = lexeme

end Token

structure Token where
  kind : Token.Kind
  span : Span
  lexeme : String
deriving DecidableEq

/-- The end of a text, seen as a token without width. -/
def Token.finish (position : Position) : Token := ⟨.finish, .point position, ""⟩

end Reckon

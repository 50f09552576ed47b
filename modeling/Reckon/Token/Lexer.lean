import Reckon.Diagnostic
import Reckon.Token

/-!
Tokens of a text. A lexer stands between two characters; it takes the longest piece there and can
be asked again from where a fault left it.
-/
namespace Reckon

structure Lexer where
  position : Position
  rest : List Char
deriving DecidableEq, Repr

namespace Lexer

def ofText (text : String) : Lexer := ⟨.start, text.toList⟩

def isLayout (character : Char) : Bool :=
  character = ' ' || character = '\t' || character = '\r' || character = '\n'

def isComparatorCharacter (character : Char) : Bool :=
  character = '>' || character = '<' || character = '=' || character = '!'

/-- The tokens of one character that begin no longer one. -/
def symbol? : Char → Option Token.Kind
  | '+' => some .plus
  | '-' => some .minus
  | '*' => some .star
  | '/' => some .slash
  | '^' => some .caret
  | '(' => some .leftParen
  | ')' => some .rightParen
  | _ => none

/-- Characters taken together: the text reported, whether it is a token, and what was passed before
it without being reported. -/
structure Piece where
  passed : List Char
  text : List Char
  verdict : Except Fault Token.Kind

/-- Digits and at most one point. Only a second point is reported, not the number before it. -/
def number (characters : List Char) : Piece :=
  let whole := characters.takeWhile Char.isDigit
  match characters.dropWhile Char.isDigit with
  | '.' :: behind =>
    let fraction := behind.takeWhile Char.isDigit
    let text := whole ++ '.' :: fraction
    match behind.dropWhile Char.isDigit with
    | '.' :: _ => ⟨text, ['.'], .error .badFloat⟩
    | _ => ⟨[], text, .ok (.float (Number.ofDecimal (.ofDigits whole fraction)))⟩
  | _ => ⟨[], whole, .ok (.int (Number.ofDecimal (.ofDigits whole [])))⟩

def word (characters : List Char) : Piece :=
  let letters := characters.takeWhile Char.isAlpha
  let text := String.ofList letters
  ⟨[], letters, .ok (((Keyword.ofText? text).map .keyword).getD (.name text))⟩

/-- A second comparator character is always taken, whether or not the two make a comparator. -/
def comparator (first : Char) (behind : List Char) : Piece :=
  let text := first :: (behind.take 1).filter isComparatorCharacter
  match Token.comparator? (String.ofList text) with
  | some kind => ⟨[], text, .ok kind⟩
  | none => ⟨[], text, .error (.badComparator (String.ofList text))⟩

def piece (first : Char) (behind : List Char) : Piece :=
  match symbol? first with
  | some kind => ⟨[], [first], .ok kind⟩
  | none =>
    if first.isDigit then number (first :: behind)
    else if first.isAlpha then word (first :: behind)
    else if isComparatorCharacter first then comparator first behind
    else ⟨[], [first], .error (.illegalCharacter first)⟩

def past (lexer : Lexer) (count : Nat) : Lexer :=
  ⟨lexer.position.advanceBy (lexer.rest.take count), lexer.rest.drop count⟩

def pastLayout (lexer : Lexer) : Lexer :=
  lexer.past (lexer.rest.takeWhile isLayout).length

private theorem number_text_ne_nil {first : Char} (behind : List Char) (digit : first.isDigit) :
    (number (first :: behind)).text ≠ [] := by
  simp only [number, List.takeWhile_cons, digit, if_true]
  split
  · split <;> simp
  · simp

private theorem comparator_text_ne_nil (first : Char) (behind : List Char) :
    (comparator first behind).text ≠ [] := by
  simp only [comparator]
  split <;> simp

theorem piece_text_ne_nil (first : Char) (behind : List Char) :
    (piece first behind).text ≠ [] := by
  unfold piece
  split
  · simp
  · split
    · rename_i digit
      exact number_text_ne_nil behind digit
    · split
      · rename_i letter
        simp [word, letter]
      · split
        · exact comparator_text_ne_nil first behind
        · simp

theorem past_rest_length (lexer : Lexer) (count : Nat) :
    (lexer.past count).rest.length = lexer.rest.length - count := by
  simp [past]

/-- All tokens up to the end of the text, which is the last of them, or the first fault. Either way
the lexer that is left stands behind the characters taken. -/
def tokens (lexer : Lexer) : Except Diagnostic (List Token) × Lexer :=
  let current := lexer.pastLayout
  match _equal : current.rest with
  | [] => (.ok [.finish current.position], current)
  | first :: behind =>
    let piece := piece first behind
    let start := current.past piece.passed.length
    let next := start.past piece.text.length
    let span : Span := ⟨start.position, next.position⟩
    match piece.verdict with
    | .error fault => (.error (.of fault span []), next)
    | .ok kind =>
      let (outcome, last) := next.tokens
      (outcome.map (⟨kind, span, String.ofList piece.text⟩ :: ·), last)
termination_by lexer.rest.length
decreasing_by
  have shorter : current.rest.length ≤ lexer.rest.length := by
    simp only [current, pastLayout, past_rest_length]
    omega
  have taken : 0 < piece.text.length := List.length_pos_iff.mpr (piece_text_ne_nil first behind)
  have present : 0 < current.rest.length := by simp [_equal]
  have behind_piece : next.rest.length =
      current.rest.length - piece.passed.length - piece.text.length := by
    rw [past_rest_length, past_rest_length]
  change next.rest.length < lexer.rest.length
  omega

end Lexer

end Reckon

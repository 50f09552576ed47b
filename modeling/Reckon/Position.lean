/-! Places in a text and the regions between two of them. -/
namespace Reckon

/-- The index counts UTF-8 bytes from nought, the line and the column count from one. -/
structure Position where
  index : Nat
  line : Nat
  column : Nat
deriving DecidableEq, Repr

namespace Position

def start : Position := ⟨0, 1, 1⟩

instance : Inhabited Position := ⟨start⟩

/-- The place just behind a character; a line feed alone begins a new line. -/
def advance (position : Position) (character : Char) : Position where
  index := position.index + character.utf8Size
  line := if character = '\n' then position.line + 1 else position.line
  column := if character = '\n' then 1 else position.column + 1

def advanceBy (position : Position) (characters : List Char) : Position :=
  characters.foldl advance position

@[simp] theorem advanceBy_nil (position : Position) : position.advanceBy [] = position := rfl

@[simp] theorem advanceBy_cons (position : Position) (character : Char) (rest : List Char) :
    position.advanceBy (character :: rest) = (position.advance character).advanceBy rest := rfl

theorem advanceBy_append (position : Position) (first second : List Char) :
    position.advanceBy (first ++ second) = (position.advanceBy first).advanceBy second :=
  List.foldl_append

/-- The places passed on the way over some characters, both ends included. -/
def trail (position : Position) : List Char → List Position
  | [] => [position]
  | character :: rest => position :: (position.advance character).trail rest

def text (position : Position) : String :=
  s!"{position.line}:{position.column}"

end Position

structure Span where
  start : Position
  stop : Position
deriving DecidableEq, Repr

namespace Span

def point (position : Position) : Span := ⟨position, position⟩

instance : Inhabited Span := ⟨point .start⟩

def through (first last : Span) : Span := ⟨first.start, last.stop⟩

end Span

end Reckon

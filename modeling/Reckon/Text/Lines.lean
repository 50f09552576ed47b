/-!
The lines of a text. A line ends before a line feed, and a carriage return just before that line
feed belongs to the ending; nothing follows a final line feed.
-/
namespace Reckon.Text

def linesOf : List Char → List (List Char)
  | [] => []
  | '\n' :: rest => [] :: linesOf rest
  | '\r' :: '\n' :: rest => [] :: linesOf rest
  | character :: rest =>
    match linesOf rest with
    | [] => [[character]]
    | line :: later => (character :: line) :: later

def lines (text : String) : List String :=
  (linesOf text.toList).map String.ofList

/-- Lines are numbered from one. -/
def line? (text : String) (number : Nat) : Option String :=
  (lines text)[number - 1]?

end Reckon.Text

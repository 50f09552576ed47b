import Reckon.Text.Blank
import Reckon.Text.Lines

/-!
Texts that are put together from lines. A line feed behind each line gives the lines back, unless a
carriage return at the end of one would be taken for a part of the ending.
-/
namespace Reckon.Text

theorem linesOf_line {line : List Char} (single : '\n' ∉ line) (ended : line.getLast? ≠ some '\r')
    (rest : List Char) : linesOf (line ++ '\n' :: rest) = line :: linesOf rest := by
  induction line with
  | nil => rfl
  | cons character line ih =>
    simp only [List.mem_cons, not_or] at single
    have inner : line.getLast? ≠ some '\r' := by
      intro last
      apply ended
      cases line with
      | nil => cases last
      | cons next line => exact last
    have plain : ∀ later, character = '\r' → line ++ '\n' :: rest = '\n' :: later → False := by
      intro later returned split
      cases line with
      | nil => exact ended (congrArg some returned)
      | cons next line => exact single.2 (List.mem_cons.mpr (.inl (List.cons.inj split).1.symm))
    rw [List.cons_append, linesOf.eq_4 _ _ (Ne.symm single.1) plain, ih single.2 inner]

/-- Each line with a line feed behind it. -/
def joined (lines : List String) : String :=
  String.join (lines.map fun line => line ++ "\n")

private theorem joined_cons (line : String) (lines : List String) :
    joined (line :: lines) = line ++ ("\n" ++ joined lines) := by
  rw [joined, List.map_cons, String.join_cons, String.append_assoc]
  rfl

theorem lines_joined {lines : List String} (single : ∀ line ∈ lines, '\n' ∉ line.toList)
    (ended : ∀ line ∈ lines, line.toList.getLast? ≠ some '\r') :
    Text.lines (joined lines) = lines := by
  induction lines with
  | nil => rfl
  | cons line lines ih =>
    have first := linesOf_line (single line List.mem_cons_self) (ended line List.mem_cons_self)
      (joined lines).toList
    have later := ih (fun other member => single other (List.mem_cons_of_mem _ member))
      fun other member => ended other (List.mem_cons_of_mem _ member)
    rw [Text.lines, joined_cons, String.toList_append, String.toList_append]
    change (linesOf (line.toList ++ '\n' :: (joined lines).toList)).map String.ofList = _
    rw [first, List.map_cons, String.ofList_toList]
    exact congrArg (line :: ·) later

/-- A text that keeps both its ends when trimmed does not end in a blank. -/
theorem getLast?_of_trimmed {text : List Char} (kept : trimmed text = text) {character : Char}
    (last : text.getLast? = some character) : isBlank character = false := by
  rw [← kept, trimmed, List.getLast?_reverse] at last
  have first := List.head?_dropWhile_not isBlank (text.dropWhile isBlank).reverse
  rw [last] at first
  exact first

end Reckon.Text

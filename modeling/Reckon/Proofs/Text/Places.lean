import Reckon.Proofs.Lexer.Lexeme
import Reckon.Proofs.Text.Lines

/-!
Lines around places. A place stands on a line that begins behind the last line feed before it; the lines of
the text hold that line under the number of the place, unless it is an empty last one.
-/
namespace Reckon

namespace Text

/-- A carriage return before a line feed belongs to the ending. -/
def unended (line : List Char) : List Char :=
  if line.getLast? = some '\r' then line.dropLast else line

/-- The line that a text begins with. -/
def firstLine (text : List Char) : List Char :=
  if '\n' ∈ text then unended (text.takeWhile (· ≠ '\n')) else text

/-- What of a text stands on its last line, be it nothing. -/
def lastLine (text : List Char) : List Char :=
  (text.reverse.takeWhile (· ≠ '\n')).reverse

/-- The line on which a place stands between two parts of a text. -/
def lineAround (before behind : List Char) : List Char :=
  firstLine (lastLine before ++ behind)

private theorem linesOf_returned {line : List Char} (single : '\n' ∉ line) (rest : List Char) :
    linesOf (line ++ '\r' :: '\n' :: rest) = line :: linesOf rest := by
  induction line with
  | nil => rfl
  | cons character line ih =>
    simp only [List.mem_cons, not_or] at single
    have plain : ∀ later, character = '\r' → line ++ '\r' :: '\n' :: rest = '\n' :: later → False := by
      intro later _ split
      cases line with
      | nil => cases split
      | cons next line => exact single.2 (List.mem_cons.mpr (.inl (List.cons.inj split).1.symm))
    rw [List.cons_append, linesOf.eq_4 _ _ (Ne.symm single.1) plain, ih single.2]

private theorem linesOf_feed {line : List Char} (single : '\n' ∉ line) (rest : List Char) :
    linesOf (line ++ '\n' :: rest) = unended line :: linesOf rest := by
  unfold unended
  split
  · rename_i returned
    obtain ⟨front, rfl⟩ := List.getLast?_eq_some_iff.mp returned
    have inner : '\n' ∉ front := fun member => single (List.mem_append_left _ member)
    rw [List.dropLast_concat, List.append_assoc]
    exact linesOf_returned inner rest
  · rename_i ended
    exact linesOf_line single ended rest

private theorem linesOf_unfed {text : List Char} (single : '\n' ∉ text) (some : text ≠ []) :
    linesOf text = [text] := by
  induction text with
  | nil => exact absurd rfl some
  | cons character text ih =>
    simp only [List.mem_cons, not_or] at single
    have plain : ∀ later, character = '\r' → text = '\n' :: later → False := by
      rintro later - rfl
      exact single.2 List.mem_cons_self
    rw [linesOf.eq_4 _ _ (Ne.symm single.1) plain]
    cases text with
    | nil => rfl
    | cons next text => rw [ih single.2 (List.cons_ne_nil _ _)]

theorem firstLine_feed {line : List Char} (single : '\n' ∉ line) (rest : List Char) :
    firstLine (line ++ '\n' :: rest) = unended line := by
  have all : ∀ character ∈ line, decide (character ≠ '\n') := by
    intro character member
    exact decide_eq_true fun feed => single (feed ▸ member)
  have present : '\n' ∈ line ++ '\n' :: rest := List.mem_append_right _ List.mem_cons_self
  rw [firstLine, if_pos present, List.takeWhile_append_of_pos all]
  simp

/-- A text has a first line as soon as it has a character. -/
private theorem linesOf_head? (text : List Char) :
    (linesOf text).head? = if text = [] then none else some (firstLine text) := by
  by_cases fed : '\n' ∈ text
  · obtain ⟨line, rest, rfl, single⟩ := List.eq_append_cons_of_mem fed
    rw [linesOf_feed single, firstLine_feed single, if_neg (by simp), List.head?_cons]
  · by_cases empty : text = []
    · subst empty
      rfl
    · rw [linesOf_unfed fed empty, if_neg empty, firstLine, if_neg fed, List.head?_cons]

private theorem lastLine_unfed {text : List Char} (single : '\n' ∉ text) :
    lastLine text = text := by
  have all : ∀ character ∈ text.reverse, decide (character ≠ '\n') := by
    intro character member
    exact decide_eq_true fun feed => single (feed ▸ List.mem_reverse.mp member)
  rw [lastLine, List.takeWhile_eq_self_iff.mpr all, List.reverse_reverse]

private theorem lastLine_feed (line rest : List Char) :
    lastLine (line ++ '\n' :: rest) = lastLine rest := by
  have stopped : ('\n' :: line.reverse).takeWhile (· ≠ '\n') = [] := by simp
  simp only [lastLine, List.reverse_append, List.reverse_cons, List.append_assoc, List.singleton_append]
  rw [List.takeWhile_append]
  split
  · rename_i same
    have whole := (List.takeWhile_prefix _).eq_of_length same
    rw [stopped, List.append_nil, whole]
  · rfl

/-- As many lines end before a place as there are line feeds. -/
private theorem linesOf_getElem?_count (before behind : List Char) :
    (linesOf (before ++ behind))[before.count '\n']? = (linesOf (lastLine before ++ behind)).head? := by
  by_cases fed : '\n' ∈ before
  · obtain ⟨line, rest, rfl, single⟩ := List.eq_append_cons_of_mem fed
    have shorter : rest.length < (line ++ '\n' :: rest).length := by
      simp only [List.length_append, List.length_cons]
      omega
    have count : (line ++ '\n' :: rest).count '\n' = rest.count '\n' + 1 := by
      rw [List.count_append, List.count_eq_zero_of_not_mem single, List.count_cons_self, Nat.zero_add]
    rw [count, List.append_assoc, List.cons_append, linesOf_feed single, List.getElem?_cons_succ,
      linesOf_getElem?_count rest behind, lastLine_feed]
  · rw [List.count_eq_zero_of_not_mem fed, lastLine_unfed fed, ← List.head?_eq_getElem?]
termination_by before.length

/-- The lines of a text have the line of a place under its number. -/
theorem line?_behind {text : String} {before behind : List Char} (split : text.toList = before ++ behind) :
    line? text (Position.behind before).line =
      if behind = [] ∧ lastLine before = [] then none
      else some (String.ofList (lineAround before behind)) := by
  have number : (Position.behind before).line - 1 = before.count '\n' := Nat.add_sub_cancel_left ..
  have empty : lastLine before ++ behind = [] ↔ behind = [] ∧ lastLine before = [] := by
    rw [List.append_eq_nil_iff, and_comm]
  rw [line?, lines, split, number, List.getElem?_map, linesOf_getElem?_count, linesOf_head?]
  simp only [empty]
  split
  · rfl
  · rfl

end Text

end Reckon

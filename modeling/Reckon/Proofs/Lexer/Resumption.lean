import Reckon.Proofs.Lexer.Layout

/-!
Lexers that are asked again. From where a call has left it, a lexer reads what is not taken yet as a new
lexer would, only further on in the text; and behind layout the tokens of one text follow those of another.
-/
namespace Reckon

/-- Where a place of a text comes to stand when the text begins at the origin. Only places on its first
line share a line with the origin. -/
def Position.moved (origin position : Position) : Position where
  index := origin.index + position.index
  line := origin.line + (position.line - 1)
  column := if position.line = 1 then origin.column + (position.column - 1) else position.column

def Span.moved (origin : Position) (span : Span) : Span :=
  ⟨origin.moved span.start, origin.moved span.stop⟩

def Token.moved (origin : Position) (token : Token) : Token :=
  { token with span := token.span.moved origin }

def Diagnostic.moved (origin : Position) (diagnostic : Diagnostic) : Diagnostic :=
  { diagnostic with span := diagnostic.span.moved origin }

namespace Position

/-- Lines and columns count from one. -/
structure Counted (position : Position) : Prop where
  line : 1 ≤ position.line
  column : 1 ≤ position.column

private theorem counted_start : Counted start := ⟨Nat.le_refl 1, Nat.le_refl 1⟩

private theorem Counted.advance {position : Position} (counted : Counted position)
    (character : Char) :
    Counted (position.advance character) := by
  unfold Position.advance
  split
  · exact ⟨Nat.le_add_left 1 _, Nat.le_refl 1⟩
  · exact ⟨counted.line, Nat.le_add_left 1 _⟩

private theorem Counted.advanceBy {position : Position} (counted : Counted position)
    (characters : List Char) : Counted (position.advanceBy characters) := by
  induction characters generalizing position with
  | nil => exact counted
  | cons character characters ih => exact ih (counted.advance character)

private theorem moved_start (origin : Position) : origin.moved start = origin := by
  simp [moved, start]

private theorem moved_advance (origin : Position) {position : Position} (counted : Counted position)
    (character : Char) :
    origin.moved (position.advance character) = (origin.moved position).advance character := by
  have line := counted.line
  have column := counted.column
  unfold moved Position.advance
  by_cases feed : character = '\n'
  · simp only [feed, if_true, mk.injEq]
    refine ⟨by omega, by omega, ?_⟩
    rw [if_neg (by omega)]
  · simp only [feed, if_false, mk.injEq]
    refine ⟨by omega, trivial, ?_⟩
    split
    · omega
    · rfl

private theorem moved_advanceBy (origin : Position) {position : Position}
    (counted : Counted position) (characters : List Char) :
    origin.moved (position.advanceBy characters) =
      (origin.moved position).advanceBy characters := by
  induction characters generalizing position with
  | nil => rfl
  | cons character characters ih =>
    rw [advanceBy_cons, ih (counted.advance character), moved_advance origin counted]
    rfl

end Position

namespace Lexer

def moved (origin : Position) (lexer : Lexer) : Lexer :=
  { lexer with position := origin.moved lexer.position }

/-- What a call returns, with every place in it moved. -/
def movedResult (origin : Position) :
    Except Diagnostic (List Token) → Except Diagnostic (List Token)
  | .ok tokens => .ok (tokens.map (Token.moved origin))
  | .error diagnostic => .error (diagnostic.moved origin)

section

variable {lexer current : Lexer} {first : Char} {behind : List Char}

private theorem tokens_of_nil (passed : lexer.pastLayout = current) (empty : current.rest = []) :
    lexer.tokens = (.ok [.finish current.position], current) := by
  subst passed
  rw [tokens]
  split
  · rfl
  · rename_i equal
    cases empty.symm.trans equal

private theorem tokens_of_cons {taken : Piece} (passed : lexer.pastLayout = current)
    (some : current.rest = first :: behind) (found : piece first behind = taken) :
    lexer.tokens =
      let start := current.past taken.passed.length
      let next := start.past taken.text.length
      let span : Span := ⟨start.position, next.position⟩
      match taken.verdict with
      | .error fault => (.error (.of fault span []), next)
      | .ok kind =>
        (next.tokens.1.map (⟨kind, span, String.ofList taken.text⟩ :: ·), next.tokens.2) := by
  subst passed found
  rw [tokens]
  split
  · rename_i equal
    cases some.symm.trans equal
  · rename_i equal
    obtain ⟨rfl, rfl⟩ := List.cons.inj (some.symm.trans equal)
    rfl

private theorem past_moved (origin : Position) (counted : lexer.position.Counted) (count : Nat) :
    (lexer.moved origin).past count = (lexer.past count).moved origin := by
  unfold past moved
  rw [Position.moved_advanceBy origin counted]

private theorem counted_past (counted : lexer.position.Counted) (count : Nat) :
    (lexer.past count).position.Counted :=
  counted.advanceBy _

private theorem past_piece_moved (origin : Position) (counted : lexer.position.Counted)
    (piece : Piece) :
    (lexer.moved origin).past piece.passed.length =
        (lexer.past piece.passed.length).moved origin ∧
      ((lexer.past piece.passed.length).moved origin).past piece.text.length =
        ((lexer.past piece.passed.length).past piece.text.length).moved origin :=
  ⟨past_moved origin counted _, past_moved origin (counted_past counted _) _⟩

/-- A lexer does not look at where it stands. -/
private theorem tokens_moved (origin : Position) (counted : lexer.position.Counted) :
    (lexer.moved origin).tokens =
      (movedResult origin lexer.tokens.1, lexer.tokens.2.moved origin) := by
  fun_induction tokens lexer with
  | case1 lexer current empty =>
    have passed : (lexer.moved origin).pastLayout = current.moved origin :=
      past_moved origin counted _
    exact tokens_of_nil passed empty
  | case2 lexer current first behind some taken start next span fault failed =>
    have here : current.position.Counted := counted_past counted _
    have passed : (lexer.moved origin).pastLayout = current.moved origin :=
      past_moved origin counted _
    have found : piece first behind = taken := rfl
    clear_value taken
    obtain ⟨begins, ends⟩ := past_piece_moved origin here taken
    rw [tokens_of_cons passed some found]
    simp only [begins, ends, failed]
    rfl
  | case3 lexer current first behind some taken start next span kind read outcome last onward ih =>
    have here : current.position.Counted := counted_past counted _
    have passed : (lexer.moved origin).pastLayout = current.moved origin :=
      past_moved origin counted _
    have later : (next.moved origin).tokens = _ := ih (counted_past (counted_past here _) _)
    have found : piece first behind = taken := rfl
    clear_value taken
    obtain ⟨begins, ends⟩ := past_piece_moved origin here taken
    rw [tokens_of_cons passed some found]
    simp only [begins, ends, read]
    change (Except.map _ (next.moved origin).tokens.1, (next.moved origin).tokens.2) = _
    rw [later, onward]
    cases outcome with
    | error diagnostic => rfl
    | ok tokens => rfl

private theorem past_past (lexer : Lexer) (first second : Nat) :
    (lexer.past first).past second = lexer.past (first + second) := by
  unfold past
  rw [List.take_add, Position.advanceBy_append, List.drop_drop]

/-- Whatever a call returns, the characters that it has taken stand together. -/
private theorem tokens_past (lexer : Lexer) : ∃ count, lexer.tokens.2 = lexer.past count := by
  fun_induction tokens lexer with
  | case1 lexer current empty => exact ⟨_, rfl⟩
  | case2 lexer current first behind some taken start next =>
    exact ⟨_, by rw [← past_past, ← past_past]; rfl⟩
  | case3 lexer current first behind some taken start next span kind read outcome last onward ih =>
    obtain ⟨count, left⟩ := ih
    rw [onward] at left
    exact ⟨_, left.trans (by rw [← past_past, ← past_past, ← past_past]; rfl)⟩

private theorem tokens_shorter {lexer : Lexer} {diagnostic : Diagnostic}
    (failed : lexer.tokens.1 = .error diagnostic) :
    lexer.tokens.2.rest.length < lexer.rest.length := by
  fun_induction tokens lexer with
  | case1 lexer current empty => cases failed
  | case2 lexer current first behind some taken start next =>
    have present : 0 < taken.text.length := List.length_pos_iff.mpr (piece_text_ne_nil first behind)
    have ahead : 0 < current.rest.length := by
      rw [some]
      exact Nat.succ_pos _
    have layout : current.rest.length ≤ lexer.rest.length := by
      simp only [current, pastLayout, past_rest_length]
      omega
    have left : next.rest.length =
        current.rest.length - taken.passed.length - taken.text.length := by
      rw [past_rest_length, past_rest_length]
    change next.rest.length < lexer.rest.length
    omega
  | case3 lexer current first behind some taken start next span kind read outcome last onward ih =>
    rw [onward] at ih
    cases outcome with
    | ok tokens => cases failed
    | error other =>
      have shorter := ih failed
      have passed : next.rest.length ≤ lexer.rest.length := by
        simp only [next, start, current, pastLayout, past_rest_length]
        omega
      exact Nat.lt_of_lt_of_le shorter passed

private theorem tokens_finished {lexer : Lexer} (read : ∃ tokens, lexer.tokens.1 = .ok tokens) :
    lexer.tokens.2.rest = [] := by
  fun_induction tokens lexer with
  | case1 lexer current empty => exact empty
  | case2 => exact absurd read nofun
  | case3 lexer current first behind some taken start next span kind found outcome last onward ih =>
    rw [onward] at ih
    cases outcome with
    | error diagnostic => exact absurd read nofun
    | ok tokens => exact ih ⟨tokens, rfl⟩

private theorem tokens_of_empty {lexer : Lexer} (empty : lexer.rest = []) :
    lexer.tokens = (.ok [.finish lexer.position], lexer) := by
  have passed : lexer.pastLayout = lexer := by
    obtain ⟨position, rest⟩ := lexer
    subst empty
    rfl
  exact tokens_of_nil passed empty

end

/-- The lexer behind so many calls. -/
def called (lexer : Lexer) : Nat → Lexer
  | 0 => lexer
  | calls + 1 => called lexer.tokens.2 calls

private theorem called_add (lexer : Lexer) (calls more : Nat) :
    lexer.called (calls + more) = (lexer.called calls).called more := by
  induction calls generalizing lexer with
  | zero => rw [Nat.zero_add, called]
  | succ calls ih =>
    rw [Nat.add_right_comm, called, called]
    exact ih lexer.tokens.2

private theorem called_of_empty {lexer : Lexer} (empty : lexer.rest = []) (calls : Nat) :
    lexer.called calls = lexer := by
  induction calls with
  | zero => rfl
  | succ calls ih => rw [called, tokens_of_empty empty, ih]

/-- A call stands behind the characters that the earlier ones have taken, and before the others. -/
private theorem called_standing (before rest : List Char) (calls : Nat) :
    ∃ taken left, rest = taken ++ left ∧
      (standing before rest).called calls = standing (before ++ taken) left := by
  induction calls generalizing before rest with
  | zero => exact ⟨[], rest, rfl, by rw [List.append_nil]; rfl⟩
  | succ calls ih =>
    obtain ⟨count, past⟩ := tokens_past (standing before rest)
    have moved : (standing before rest).past count =
        standing (before ++ rest.take count) (rest.drop count) := by
      unfold Lexer.past standing
      rw [Position.advanceBy_behind]
    obtain ⟨taken, left, split, same⟩ := ih (before ++ rest.take count) (rest.drop count)
    refine ⟨rest.take count ++ taken, left, ?_, ?_⟩
    · rw [List.append_assoc, ← split, List.take_append_drop]
    · rw [called, past, moved, same, List.append_assoc]

private theorem exists_read (lexer : Lexer) {bound : Nat} (short : lexer.rest.length ≤ bound) :
    ∃ calls ≤ bound, ∃ tokens, (lexer.called calls).tokens.1 = .ok tokens := by
  induction bound generalizing lexer with
  | zero =>
    have empty : lexer.rest = [] := List.length_eq_zero_iff.mp (Nat.le_zero.mp short)
    exact ⟨0, Nat.le_refl 0, _, congrArg Prod.fst (tokens_of_empty empty)⟩
  | succ bound ih =>
    cases outcome : lexer.tokens.1 with
    | ok tokens => exact ⟨0, Nat.zero_le _, tokens, outcome⟩
    | error diagnostic =>
      have shorter := tokens_shorter outcome
      obtain ⟨calls, few, read⟩ := ih lexer.tokens.2 (by omega)
      exact ⟨calls + 1, Nat.succ_le_succ few, read⟩

section

variable {before layout text rest : List Char} {tokens : List Token}

private theorem tokens_of_pastLayout {lexer other : Lexer}
    (same : lexer.pastLayout = other.pastLayout) :
    lexer.tokens = other.tokens := by
  cases left : other.pastLayout.rest with
  | nil => rw [tokens_of_nil same left, tokens_of_nil rfl left]
  | cons first behind => rw [tokens_of_cons same left rfl, tokens_of_cons rfl left rfl]

private theorem tokens_after_layout (before rest : List Char)
    (blank : ∀ character ∈ layout, character ∈ blanks) :
    (standing before (layout ++ rest)).tokens = (standing (before ++ layout) rest).tokens := by
  apply tokens_of_pastLayout
  obtain ⟨more, tail, rfl, blank', ends⟩ : ∃ more tail, rest = more ++ tail ∧
      (∀ character ∈ more, character ∈ blanks) ∧ Ends isLayout tail :=
    ⟨_, _, List.takeWhile_append_dropWhile.symm,
      fun _ member => isLayout_iff.mp (List.mem_takeWhile_imp member), ends_dropWhile isLayout rest⟩
  have all : ∀ character ∈ layout ++ more, character ∈ blanks := fun character member =>
    (List.mem_append.mp member).elim (blank character) (blank' character)
  rw [pastLayout_standing (before ++ layout) blank' ends, ← List.append_assoc,
    pastLayout_standing before all ends, List.append_assoc]

/-- Layout behind a text extends none of its lexemes. -/
private theorem longest_before_gap {lexeme : List Char} (longest : Longest lexeme text)
    (gap : ∀ character ∈ rest.head?, character ∈ blanks) : Longest lexeme (text ++ rest) where
  whole more later kind split some longer := by
    rcases List.append_eq_append_iff.mp split with ⟨extra, rfl, left⟩ | ⟨under, inside, -⟩
    · cases extra with
      | nil =>
        rw [List.append_nil] at some longer
        exact longest.whole text [] kind (List.append_nil text).symm some longer
      | cons first extra =>
        have layout := isLayout_iff.mpr (gap first (by rw [left]; rfl))
        have plain := longer.plain first (by simp)
        rw [plain] at layout
        cases layout
    · exact longest.whole more under kind inside some longer
  paired first second alone next compares := by
    cases text with
    | nil => exact (longest_of_gap lexeme gap).paired first second alone next compares
    | cons character text => exact longest.paired first second alone next compares

/-- The tokens of a text come first, and the lexer goes on in the layout behind it. -/
private theorem tokens_append (scanned : Scanned before text tokens)
    (gap : ∀ character ∈ rest.head?, character ∈ blanks) :
    (standing before (text ++ rest)).tokens.1 =
      (standing (before ++ text) rest).tokens.1.map (tokens.dropLast ++ ·) := by
  induction scanned with
  | @finish before layout blank =>
    rw [tokens_after_layout before rest blank]
    cases (standing (before ++ layout) rest).tokens.1 with
    | error diagnostic => rfl
    | ok others => rfl
  | @token before layout lexeme text kind tokens blank read longest onward ih =>
    have single : Unpointed kind (text ++ rest) := by
      rintro - point
      cases text with
      | nil => exact absurd (gap '.' point) (by decide)
      | cons first text =>
        cases point
        exact not_scanned_point onward
    obtain ⟨last, member, -⟩ := onward.finished
    obtain ⟨head, tail, rfl⟩ := List.exists_cons_of_ne_nil (List.ne_nil_of_mem member)
    rw [List.append_assoc, List.append_assoc,
      tokens_lexeme before blank read (longest_before_gap longest gap) single, ih]
    rw [← List.append_assoc before, ← List.append_assoc (before ++ layout)]
    cases (standing (before ++ layout ++ lexeme ++ text) rest).tokens.1 with
    | error diagnostic => rfl
    | ok others => rfl

end

/-- From where it stands a lexer reads the text as a new one does. -/
private theorem tokens_standing (before left : List Char) : (standing before left).tokens.1 =
    movedResult (.behind before) (ofText (String.ofList left)).tokens.1 := by
  have fresh : standing before left = (ofText (String.ofList left)).moved (.behind before) := by
    rw [ofText, moved, Position.moved_start, String.toList_ofList]
    rfl
  rw [fresh, tokens_moved _ Position.counted_start]

/-- Behind a call that has read the rest nothing is left, so no later call moves on. -/
private theorem tokens_behind_read {text : String} {calls : Nat}
    (read : ∃ tokens, ((ofText text).called calls).tokens.1 = .ok tokens) (later : Nat) :
    ((ofText text).called (calls + 1 + later)).tokens.1 = .ok [.finish (.behind text.toList)] := by
  have empty : ((ofText text).called (calls + 1)).rest = [] := by
    rw [called_add]
    exact tokens_finished read
  obtain ⟨all, none, whole, ended⟩ := called_standing [] text.toList (calls + 1)
  rw [← ofText_standing, List.nil_append] at ended
  rw [ended] at empty
  obtain rfl : none = [] := empty
  rw [called_add, ended, called_of_empty rfl, tokens_of_empty rfl, whole, List.append_nil]
  rfl

/-- Every call reads the text from where the one before has left it, whatever that returned; some call within
as many as there are characters, and one more, reads it to its end, where all later ones stay. -/
theorem tokens_resumed (text : String) :
    (∀ calls,
      let lexer := (ofText text).called calls
      (∃ before, text.toList = before ++ lexer.rest ∧ lexer.position = .behind before) ∧
      lexer.tokens.1 =
        movedResult lexer.position (ofText (String.ofList lexer.rest)).tokens.1 ∧
      (∀ diagnostic, lexer.tokens.1 = .error diagnostic →
        lexer.tokens.2.rest.length < lexer.rest.length) ∧
      ∀ tokens, lexer.tokens.1 = .ok tokens → ∀ later,
        ((ofText text).called (calls + 1 + later)).tokens.1 =
          .ok [⟨.finish, ⟨.behind text.toList, .behind text.toList⟩, ""⟩]) ∧
    (∃ calls ≤ text.length, ∃ tokens, ((ofText text).called calls).tokens.1 = .ok tokens) ∧
    ∀ tokens (layout rest : String), (ofText text).tokens.1 = .ok tokens → layout.toList ≠ [] →
      (∀ character ∈ layout.toList, character ∈ blanks) →
      (ofText (text ++ layout ++ rest)).tokens.1 =
        (movedResult (.behind (text ++ layout).toList) (ofText rest).tokens.1).map
          (tokens.dropLast ++ ·) := by
  refine ⟨fun calls => ?_, ?_, fun tokens layout rest read some blank => ?_⟩
  · obtain ⟨taken, left, split, reached⟩ := called_standing [] text.toList calls
    rw [← ofText_standing, List.nil_append] at reached
    dsimp only
    refine ⟨⟨taken, ?_, ?_⟩, ?_, fun diagnostic failed => tokens_shorter failed, ?_⟩
    · rw [reached]
      exact split
    · rw [reached]
      rfl
    · rw [reached]
      exact tokens_standing taken left
    · exact fun tokens read => tokens_behind_read ⟨tokens, read⟩
  · exact exists_read (ofText text) (Nat.le_of_eq String.length_toList)
  · have scanned : Scanned [] text.toList tokens := scanned_of_tokens read
    obtain ⟨first, more, equal⟩ := List.exists_cons_of_ne_nil some
    have gap : ∀ character ∈ (layout.toList ++ rest.toList).head?, character ∈ blanks := by
      rw [equal]
      rintro character ⟨⟩
      exact blank first (equal ▸ List.mem_cons_self)
    have behind := tokens_standing (text.toList ++ layout.toList) rest.toList
    rw [String.ofList_toList] at behind
    rw [ofText_standing, String.toList_append, String.toList_append, List.append_assoc,
      tokens_append scanned gap, List.nil_append, tokens_after_layout text.toList rest.toList blank,
      behind]

/-- The first call stops behind the second point, the next one reads from there over the line feed. The text
that is read there is also read in front of other text, here one with a fault. -/
theorem tokens_resumed_behind_point :
    let lexer := (ofText "1.2.3\nx").called 1
    let tokens : List Token := [⟨.int 3, ⟨⟨0, 1, 1⟩, ⟨1, 1, 2⟩⟩, "3"⟩,
      ⟨.name "x", ⟨⟨2, 2, 1⟩, ⟨3, 2, 2⟩⟩, "x"⟩, .finish ⟨3, 2, 2⟩]
    (ofText "1.2.3\nx").tokens.1 = .error (.of .badFloat ⟨⟨3, 1, 4⟩, ⟨4, 1, 5⟩⟩ []) ∧
      lexer.position = ⟨4, 1, 5⟩ ∧ (ofText "3\nx").tokens.1 = .ok tokens ∧
      lexer.tokens.1 = .ok (tokens.map (Token.moved ⟨4, 1, 5⟩)) ∧
      (∀ later, ((ofText "1.2.3\nx").called (1 + 1 + later)).tokens.1 = .ok [.finish ⟨7, 2, 2⟩]) ∧
      (ofText "3\nx\t<<").tokens.1 =
        .error ((Diagnostic.of (.badComparator "<<") ⟨⟨0, 1, 1⟩, ⟨2, 1, 3⟩⟩ []).moved ⟨4, 2, 3⟩) := by
  intro lexer tokens
  have fresh : (ofText "3\nx").tokens.1 = .ok tokens := by decide +kernel
  have left : lexer = ⟨⟨4, 1, 5⟩, "3\nx".toList⟩ := by decide +kernel
  have resumed := (tokens_resumed "1.2.3\nx").1 1
  have second : lexer.tokens.1 = .ok (tokens.map (Token.moved ⟨4, 1, 5⟩)) := by
    have same : lexer.tokens.1 = _ := resumed.2.1
    rw [same, show (ofText "1.2.3\nx").called 1 = _ from left, String.ofList_toList, fresh]
    rfl
  have joined := (tokens_resumed "3\nx").2.2 tokens "\t" "<<" fresh (by decide) (by simp [blanks])
  refine ⟨by decide +kernel, by rw [left], fresh, second, ?_, ?_⟩
  · exact fun later => (resumed.2.2.2 _ second later).trans (by decide)
  · have faulty : (ofText "<<").tokens.1 = .error (.of (.badComparator "<<") ⟨⟨0, 1, 1⟩, ⟨2, 1, 3⟩⟩ []) := by
      decide +kernel
    rw [faulty] at joined
    exact joined.trans (by decide)

end Lexer

end Reckon

import Reckon.Proofs.Evaluation.Faults
import Reckon.Proofs.Parser.Regions
import Reckon.Proofs.Session.Places

/-!
The caret below a source line. What a session reports lies in a region of its source that begins with the
character at fault, or at the end; so the line shown has that character in the column of the caret.
-/
namespace Reckon

namespace Lexer

/-- Some of the text, begun by a character that is no layout unless the text has ended. The first argument
holds all that stands before the text. -/
def RegionIn (before text : List Char) (span : Span) : Prop :=
  ∃ passed within rest, text = passed ++ (within ++ rest) ∧
    span = ⟨.behind (before ++ passed), .behind (before ++ (passed ++ within))⟩ ∧
    Ends isLayout (within ++ rest)

section

variable {before text passed rest : List Char} {tokens : List Token}

private theorem RegionIn.later {span : Span} (region : RegionIn (before ++ passed) rest span) :
    RegionIn before (passed ++ rest) span := by
  obtain ⟨more, within, behind, rfl, rfl, ends⟩ := region
  refine ⟨passed ++ more, within, behind, (List.append_assoc ..).symm, ?_, ends⟩
  simp only [List.append_assoc]

private theorem ends_cons {first : Char} (plain : isLayout first = false) (rest : List Char) :
    Ends isLayout (first :: rest) := by
  intro character begun
  cases begun
  exact plain

private theorem Lexeme.ends {lexeme : List Char} {kind : Token.Kind} (read : Lexeme lexeme kind)
    (rest : List Char) : Ends isLayout (lexeme ++ rest) := by
  obtain ⟨first, tail, rfl⟩ := List.exists_cons_of_ne_nil read.ne_nil
  exact ends_cons (read.plain first List.mem_cons_self) _

/-- A region from one token through another that is no earlier. -/
private theorem Scanned.region (scanned : Scanned before text tokens) {opening closing : Nat}
    {first last : Token} (begins : tokens[opening]? = some first) (ends : tokens[closing]? = some last)
    (order : opening ≤ closing) : RegionIn before text (first.span.through last.span) := by
  induction scanned generalizing opening closing first with
  | @finish before layout blank =>
    obtain rfl := List.mem_singleton.mp (List.mem_of_getElem? begins)
    obtain rfl := List.mem_singleton.mp (List.mem_of_getElem? ends)
    refine ⟨layout, [], [], (List.append_nil layout).symm, ?_, nofun⟩
    rw [List.append_nil]
    rfl
  | @token before layout lexeme rest kind tokens blank read longest onward ih =>
    have begun := read.ends rest
    cases opening with
    | succ opening =>
      cases closing with
      | zero => cases order
      | succ closing =>
        rw [List.getElem?_cons_succ] at begins ends
        exact (ih begins ends (Nat.le_of_succ_le_succ order)).later.later
    | zero =>
      rw [List.getElem?_cons_zero, Option.some.injEq] at begins
      subst begins
      cases closing with
      | zero =>
        cases ends
        exact ⟨layout, lexeme, rest, rfl, by rw [List.append_assoc]; rfl, begun⟩
      | succ closing =>
        -- From this lexeme the region goes on through all that the last token ends.
        rw [List.getElem?_cons_succ] at ends
        obtain ⟨passed, within, behind, rfl, span, _⟩ := ih ends ends (Nat.le_refl _)
        refine ⟨layout, lexeme ++ (passed ++ within), behind, by simp only [List.append_assoc], ?_, ?_⟩
        · have stop := congrArg Span.stop span
          simp only [Span.through, List.append_assoc] at stop
          rw [Span.through, stop]
        · rw [List.append_assoc]
          exact read.ends _

private theorem Offence.region {diagnostic : Diagnostic}
    (offence : Offence before text diagnostic) :
    RegionIn before text diagnostic.span := by
  cases offence with
  | @illegal first rest plain =>
    exact ⟨[], [first], rest, rfl, by rw [List.append_nil]; rfl,
      ends_cons (isLayout_eq_false_iff.mpr plain) rest⟩
  | @secondPoint numeral value rest decimal =>
    exact ⟨numeral, ['.'], rest, rfl, by rw [← List.append_assoc], ends_cons rfl rest⟩
  | @comparator text rest compared unknown =>
    obtain ⟨first, tail, rfl⟩ := List.exists_cons_of_ne_nil compared.ne_nil
    exact ⟨[], first :: tail, rest, rfl, by rw [List.append_nil]; rfl,
      ends_cons (not_layout_of_comparator compared.head) _⟩

private theorem Refused.region {diagnostic : Diagnostic}
    (refused : Refused before text diagnostic) :
    RegionIn before text diagnostic.span := by
  induction refused with
  | here _ offence => exact offence.region.later
  | later _ _ _ _ _ ih => exact ih.later.later

end

end Lexer

namespace Text

/-- A line that goes on with a character that is no carriage return has it still without its ending. -/
private theorem unended_append_cons (line rest : List Char) {character : Char}
    (plain : character ≠ '\r') :
    ∃ more, unended (line ++ character :: rest) = line ++ character :: more := by
  unfold unended
  split
  · rename_i returned
    rcases rest.eq_nil_or_concat with rfl | ⟨front, latest, rfl⟩
    · rw [List.getLast?_concat, Option.some.injEq] at returned
      exact absurd returned plain
    · refine ⟨front, ?_⟩
      rw [List.concat_eq_append, ← List.cons_append, ← List.append_assoc, List.dropLast_concat]
  · exact ⟨rest, rfl⟩

private theorem firstLine_append_cons {line : List Char} (single : '\n' ∉ line) (rest : List Char)
    {character : Char} (feed : character ≠ '\n') (plain : character ≠ '\r') :
    ∃ more, firstLine (line ++ character :: rest) = line ++ character :: more := by
  by_cases fed : '\n' ∈ rest
  · obtain ⟨front, behind, rfl, unfed⟩ := List.eq_append_cons_of_mem fed
    have inner : '\n' ∉ line ++ character :: front := by
      simp only [List.mem_append, List.mem_cons, not_or]
      exact ⟨single, feed.symm, unfed⟩
    have split : line ++ character :: (front ++ '\n' :: behind) =
        (line ++ character :: front) ++ '\n' :: behind := by simp
    rw [split, firstLine_feed inner]
    exact unended_append_cons line front plain
  · have unfed : '\n' ∉ line ++ character :: rest := by
      simp only [List.mem_append, List.mem_cons, not_or]
      exact ⟨single, feed.symm, fed⟩
    exact ⟨rest, if_neg unfed⟩

private theorem not_mem_lastLine (before : List Char) : '\n' ∉ lastLine before := by
  intro member
  have passed := List.mem_takeWhile_imp (List.mem_reverse.mp member)
  simp at passed

private theorem column_behind (before : List Char) :
    (Position.behind before).column - 1 = (lastLine before).length := by
  rw [lastLine, List.length_reverse]
  exact Nat.add_sub_cancel_left ..

/-- The line around a place has what stands before the place on its line, and then the character there. -/
private theorem lineAround_of_plain {before behind : List Char}
    (ends : Lexer.Ends Lexer.isLayout behind) :
    ∃ more, lineAround before behind = lastLine before ++ more ∧ more.head? = behind.head? := by
  cases behind with
  | nil =>
    refine ⟨[], ?_, rfl⟩
    rw [lineAround, List.append_nil, firstLine, if_neg (not_mem_lastLine before)]
  | cons character behind =>
    have plain := ends character rfl
    have feed : character ≠ '\n' := by
      rintro rfl
      cases plain
    have returned : character ≠ '\r' := by
      rintro rfl
      cases plain
    obtain ⟨more, same⟩ := firstLine_append_cons (not_mem_lastLine before) behind feed returned
    exact ⟨character :: more, same, rfl⟩

end Text

namespace Session

variable {session : Session} {source : String} {tokens : List Token} {diagnostic : Diagnostic}

private theorem getElem?_of_pending {limits : Limits} {index : Nat} {token : Token}
    (found : (Parser.ofTokens limits tokens).pending[index]? = some token) :
    tokens[index]? = some token := by
  have inside := (List.getElem?_eq_some_iff.mp found).1
  have front : (Parser.ofTokens limits tokens).pending <+: tokens := List.takeWhile_prefix _
  obtain ⟨rest, split⟩ := front
  have same : ((Parser.ofTokens limits tokens).pending ++ rest)[index]? =
      (Parser.ofTokens limits tokens).pending[index]? := List.getElem?_append_left inside
  rwa [split, found] at same

private theorem finish_mem (limits : Limits) (ended : ∃ token ∈ tokens, token.kind = .finish) :
    ∃ token ∈ tokens, (Parser.ofTokens limits tokens).finish = token.span := by
  obtain ⟨last, member, kind⟩ := ended
  cases found : tokens.find? Parser.isFinish with
  | some token =>
    refine ⟨token, List.mem_of_find?_eq_some found, ?_⟩
    simp only [Parser.ofTokens, found]
  | none => exact absurd (decide_eq_true kind) (List.find?_eq_none.mp found last member)

private theorem region_of_run (failed : (session.run source).1.outcome = .error diagnostic) :
    Lexer.RegionIn [] source.toList diagnostic.span := by
  cases read : (Lexer.ofText source).tokens.1 with
  | error first =>
    have refused : Lexer.Refused [] source.toList first := Lexer.refused_of_tokens read
    simp only [run, read] at failed
    cases failed
    exact refused.region
  | ok tokens =>
    have scanned : Lexer.Scanned [] source.toList tokens := Lexer.scanned_of_tokens read
    have single (token : Token) (member : token ∈ tokens) :
        Lexer.RegionIn [] source.toList token.span := by
      obtain ⟨index, found⟩ := List.mem_iff_getElem?.mp member
      exact scanned.region found found (Nat.le_refl _)
    cases parsed : (Parser.ofTokens session.settings.limits tokens).parse.1 with
    | error first =>
      simp only [run, read, parsed] at failed
      cases failed
      rcases Parser.place_of_failed parsed with ended | ⟨token, member, span⟩
      · obtain ⟨token, member, same⟩ := finish_mem session.settings.limits scanned.finished
        exact (ended.trans same) ▸ single token member
      · exact span ▸ single token ((List.takeWhile_prefix _).subset member)
    | ok expr =>
      simp only [run, read, parsed] at failed
      obtain ⟨node, inner, span⟩ := node_of_run failed
      obtain ⟨_, _, stands⟩ := Parser.stands_of_parse parsed
      obtain ⟨opening, closing, _, _, below⟩ := stands.of_node inner
      cases below with
      | node begins ends order region =>
        rw [span, region]
        exact scanned.region (getElem?_of_pending begins) (getElem?_of_pending ends) order

private theorem toList_pushn (text : String) (character : Char) (count : Nat) :
    (text.pushn character count).toList = text.toList ++ List.replicate count character := by
  rw [String.pushn_eq_repeat_push]
  induction count with
  | zero => exact (List.append_nil _).symm
  | succ count ih =>
    rw [Nat.repeat, String.toList_push, ih, List.append_assoc, List.replicate_succ']

private theorem excerpt_of_line {line : String} (shown : diagnostic.sourceLine = some line) :
    diagnostic.excerpt.map String.toList = some ("  | ".toList ++ line.toList ++ "\n  | ".toList ++
      List.replicate (diagnostic.span.start.column - 1) ' ' ++ ['^']) := by
  rw [Diagnostic.excerpt, shown, Option.map_some, Option.map_some]
  simp only [String.toList_append, toList_pushn, toString]
  rfl

/-- What a session reports lies in its source, whatever was bound before. Where a line is shown, the column
of the start holds the character there, or the line ends before it along with the source; the caret stands
below. -/
theorem caret_below_character (session : Session) (source : String) (diagnostic : Diagnostic)
    (failed : (session.evaluate source).1.outcome = .error diagnostic) :
    ∃ before within behind, source.toList = before ++ (within ++ behind) ∧
      diagnostic.span = ⟨.behind before, .behind (before ++ within)⟩ ∧
      ∀ line, diagnostic.sourceLine = some line →
        line.toList[diagnostic.span.start.column - 1]? = (within ++ behind).head? ∧
        (within ++ behind = [] → line.toList.length = diagnostic.span.start.column - 1) ∧
        diagnostic.excerpt.map String.toList = some ("  | ".toList ++ line.toList ++
          "\n  | ".toList ++ List.replicate (diagnostic.span.start.column - 1) ' ' ++ ['^']) := by
  cases outcome : (session.run source).1.outcome with
  | ok value =>
    simp only [evaluate, outcome] at failed
    cases failed
  | error first =>
    obtain ⟨before, within, behind, split, span, ends⟩ := region_of_run outcome
    rw [List.nil_append, List.nil_append] at span
    have start : first.span.start = .behind before := congrArg Span.start span
    have shown := sourceLine_withSource session.settings.sourceName split start
    simp only [evaluate, outcome] at failed
    cases failed
    refine ⟨before, within, behind, split, span, fun line found => ?_⟩
    have column : first.span.start.column - 1 = (Text.lastLine before).length := by
      rw [start, Text.column_behind]
    obtain ⟨more, around, head⟩ := Text.lineAround_of_plain ends
    have text : line.toList = Text.lastLine before ++ more := by
      rw [shown] at found
      split at found
      · cases found
      · cases found
        rw [String.toList_ofList, around]
    refine ⟨?_, ?_, excerpt_of_line found⟩
    · change line.toList[first.span.start.column - 1]? = _
      rw [column, text, List.getElem?_append_right (Nat.le_refl _), Nat.sub_self, ← head,
        List.head?_eq_getElem?]
    · intro ended
      rw [ended] at head
      obtain rfl := List.head?_eq_none_iff.mp head
      change _ = first.span.start.column - 1
      rw [column, text, List.append_nil]

/-- The name that is divided by was bound to nought by an earlier source, and stands on the second line of
this one. -/
theorem caret_below_bound_name :
    let session := (ofSettings .standard).after [.evaluate "sclr z = null"]
    ∃ diagnostic, (session.evaluate "true\n / z\r\n").1.outcome = .error diagnostic ∧
      diagnostic.sourceLine = some " / z" ∧
      ∃ before within behind, "true\n / z\r\n".toList = before ++ (within ++ behind) ∧
        diagnostic.span = ⟨.behind before, .behind (before ++ within)⟩ ∧
        ∀ line, diagnostic.sourceLine = some line →
          line.toList[diagnostic.span.start.column - 1]? = (within ++ behind).head? ∧
          (within ++ behind = [] → line.toList.length = diagnostic.span.start.column - 1) ∧
          diagnostic.excerpt.map String.toList = some ("  | ".toList ++ line.toList ++
            "\n  | ".toList ++ List.replicate (diagnostic.span.start.column - 1) ' ' ++ ['^']) := by
  intro session
  let bound : Expr := .assign "z" (.variable "null" ⟨⟨9, 1, 10⟩, ⟨13, 1, 14⟩⟩)
    ⟨⟨5, 1, 6⟩, ⟨13, 1, 14⟩⟩
  let divided : Expr := .binary (.variable "true" ⟨.start, ⟨4, 1, 5⟩⟩) .divide
    (.variable "z" ⟨⟨8, 2, 4⟩, ⟨9, 2, 5⟩⟩) ⟨.start, ⟨9, 2, 5⟩⟩
  let report : Diagnostic :=
    .of .divisionByZero ⟨⟨8, 2, 4⟩, ⟨9, 2, 5⟩⟩ [⟨"<program>", some ⟨8, 2, 4⟩⟩]
  obtain ⟨tokens, read, parsed⟩ : ∃ tokens, (Lexer.ofText "sclr z = null").tokens.1 = .ok tokens ∧
      (Parser.ofTokens .standard tokens).parse.1 = .ok bound :=
    ⟨_, by with_unfolding_all rfl, by with_unfolding_all rfl⟩
  obtain ⟨tokens', read', parsed'⟩ : ∃ tokens, (Lexer.ofText "true\n / z\r\n").tokens.1 = .ok tokens ∧
      (Parser.ofTokens .standard tokens).parse.1 = .ok divided :=
    ⟨_, by with_unfolding_all rfl, by with_unfolding_all rfl⟩
  have begun : session =
      { ofSettings .standard with store := (bound.run seeded.1 128 seeded.2).2 } :=
    ((ofSettings .standard).evaluate_parsed read parsed).2
  have stopped : (divided.run seeded.1 128 (bound.run seeded.1 128 seeded.2).2).1 =
      .error report := by
    with_unfolding_all rfl
  have failed : (session.evaluate "true\n / z\r\n").1.outcome =
      .error (report.withSource "<stdin>" "true\n / z\r\n") := by
    rw [begun]
    exact (evaluate_parsed _ read' parsed').1.trans (congrArg (Except.mapError _) stopped)
  exact ⟨_, failed, by with_unfolding_all rfl, caret_below_character session _ _ failed⟩

end Session

end Reckon

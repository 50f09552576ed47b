import Reckon.Proofs.Session.History
import Reckon.Proofs.Session.Layout
import Reckon.Proofs.Text.Places

/-!
Places of diagnostics. Whatever a session reports starts at a place in its source, and the line around that
place is shown, unless it is an empty last one.
-/
namespace Reckon

namespace Lexer

/-- Behind some of the text. The first argument holds all that stands before the text. -/
def PlaceIn (before text : List Char) (position : Position) : Prop :=
  ∃ passed rest, text = passed ++ rest ∧ position = .behind (before ++ passed)

section

variable {before passed rest : List Char}

private theorem placeIn_behind (before passed rest : List Char) :
    PlaceIn before (passed ++ rest) (.behind (before ++ passed)) :=
  ⟨passed, rest, rfl, rfl⟩

private theorem PlaceIn.later {position : Position}
    (place : PlaceIn (before ++ passed) rest position) :
    PlaceIn before (passed ++ rest) position := by
  obtain ⟨more, behind, rfl, rfl⟩ := place
  exact ⟨passed ++ more, behind, (List.append_assoc ..).symm, by rw [List.append_assoc]⟩

private theorem Scanned.place {text : List Char} {tokens : List Token}
    (scanned : Scanned before text tokens) :
    ∀ token ∈ tokens, PlaceIn before text token.span.start := by
  induction scanned with
  | @finish before layout =>
    intro token member
    obtain rfl := List.mem_singleton.mp member
    exact ⟨layout, [], (List.append_nil layout).symm, rfl⟩
  | @token before layout lexeme rest _ _ _ _ _ _ ih =>
    intro token member
    rcases List.mem_cons.mp member with rfl | later
    · exact placeIn_behind before layout (lexeme ++ rest)
    · exact (ih token later).later.later

private theorem Offence.place {text : List Char} {diagnostic : Diagnostic}
    (offence : Offence before text diagnostic) : PlaceIn before text diagnostic.span.start := by
  cases offence with
  | secondPoint rest decimal => exact placeIn_behind _ _ _
  | illegal | comparator => exact ⟨[], _, rfl, by rw [List.append_nil]⟩

private theorem Refused.place {text : List Char} {diagnostic : Diagnostic}
    (refused : Refused before text diagnostic) : PlaceIn before text diagnostic.span.start := by
  induction refused with
  | here _ offence => exact offence.place.later
  | later _ _ _ _ _ ih => exact ih.later.later

end

end Lexer

namespace Session

variable {session : Session} {source : String} {diagnostic : Diagnostic}

private theorem rooted_after (settings : Settings) (requests : List Request) :
    ((ofSettings settings).after requests).Rooted := by
  induction requests using List.reverseRecOn with
  | nil => exact rooted_ofSettings settings
  | append_singleton requests request ih =>
    rw [after_append]
    cases request with
    | evaluate source => exact ih.evaluate source
    | assign name value => exact ih.assign name value.number
    | get name => exact ih
    | reset => exact rooted_ofSettings _

private theorem Rooted.agree_self (rooted : session.Rooted) :
    Agree session.root session.root session.store session.store := by
  have same : session.Matches session := ⟨rfl, rfl, fun _ => rfl⟩
  exact same.agree rooted rooted

/-- A run alongside itself: the region of its diagnostic is one between tokens of the source. -/
private theorem place_of_run (rooted : session.Rooted)
    (failed : (session.run source).1.outcome = .error diagnostic) :
    Lexer.PlaceIn [] source.toList diagnostic.span.start := by
  cases read : (Lexer.ofText source).tokens.1 with
  | error first =>
    have refused : Lexer.Refused [] source.toList first := Lexer.refused_of_tokens read
    simp only [run, read] at failed
    cases failed
    exact refused.place
  | ok tokens =>
    have scanned : Lexer.Scanned [] source.toList tokens := Lexer.scanned_of_tokens read
    have outcomes := (run_alike read read rfl ⟨rfl, rfl, fun _ => rfl⟩ rooted.agree_self).1
    rw [failed] at outcomes
    cases outcomes with
    | error alike =>
      obtain ⟨opening, _, first, _, _, _, found, _, _, _, same, _⟩ := alike.span
      rw [same]
      exact scanned.place first (List.mem_of_getElem? found)

private theorem numbered_behind (before : List Char) : (Position.behind before).line ≠ 0 :=
  Nat.ne_of_gt (Nat.lt_add_right _ Nat.zero_lt_one)

theorem sourceLine_withSource {before behind : List Char} (name : String)
    (split : source.toList = before ++ behind) (start : diagnostic.span.start = .behind before) :
    (diagnostic.withSource name source).sourceLine =
      if behind = [] ∧ Text.lastLine before = [] then none
      else some (String.ofList (Text.lineAround before behind)) := by
  rw [Diagnostic.withSource, start, if_neg (numbered_behind before)]
  exact Text.line?_behind split

/-- A diagnostic starts at a place in the source, and it comes with the line around that place exactly if
this is not the empty line at the end of a source that is empty or ends in a line feed. -/
theorem source_line_of_failure (session : Session) (rooted : session.Rooted) (source : String)
    (diagnostic : Diagnostic) (failed : (session.evaluate source).1.outcome = .error diagnostic) :
    ∃ before behind, source.toList = before ++ behind ∧ diagnostic.span.start = .behind before ∧
      (diagnostic.sourceLine = some (String.ofList (Text.lineAround before behind)) ∧
          diagnostic.excerpt.isSome ↔
        ¬ (behind = [] ∧ Text.lastLine before = [])) ∧
      (behind = [] ∧ Text.lastLine before = [] →
        diagnostic.sourceLine = none ∧ diagnostic.excerpt = none) := by
  cases outcome : (session.run source).1.outcome with
  | ok value =>
    simp only [evaluate, outcome] at failed
    cases failed
  | error first =>
    obtain ⟨before, behind, split, start⟩ := place_of_run rooted outcome
    rw [List.nil_append] at start
    have shown := sourceLine_withSource session.settings.sourceName split start
    simp only [evaluate, outcome] at failed
    cases failed
    refine ⟨before, behind, split, start, ?_⟩
    rw [Diagnostic.excerpt, shown]
    by_cases ended : behind = [] ∧ Text.lastLine before = []
    · simp [ended]
    · simp [ended]

/-- The name is bound by an earlier source; the parenthesis that nothing opens stands on the second line. -/
theorem source_line_of_closing :
    let session := (ofSettings .standard).after [.evaluate "sclr x = true"]
    session.Rooted ∧ ∃ diagnostic, (session.evaluate "x\n + )\r\n").1.outcome = .error diagnostic ∧
      ∃ before behind, "x\n + )\r\n".toList = before ++ behind ∧
        diagnostic.span.start = .behind before ∧
        (diagnostic.sourceLine = some (String.ofList (Text.lineAround before behind)) ∧
            diagnostic.excerpt.isSome ↔
          ¬ (behind = [] ∧ Text.lastLine before = [])) := by
  intro session
  have rooted : session.Rooted := rooted_after .standard _
  have settings : session.settings = .standard := after_settings _ _
  obtain ⟨tokens, first, read, refused⟩ : ∃ tokens first,
      (Lexer.ofText "x\n + )\r\n").tokens.1 = .ok tokens ∧
        (Parser.ofTokens .standard tokens).parse.1 = .error first :=
    ⟨_, _, by with_unfolding_all rfl, by with_unfolding_all rfl⟩
  rw [show Limits.standard = session.settings.limits from settings ▸ rfl] at refused
  have failed := congrArg (fun answer => answer.1.outcome) (session.evaluate_unparsed read refused)
  obtain ⟨before, behind, split, start, shown, _⟩ :=
    source_line_of_failure session rooted _ _ failed
  exact ⟨rooted, _, failed, before, behind, split, start, shown⟩

/-- Of an open parenthesis with a line feed behind it the diagnostic starts on the second line, and it has
neither that line nor an excerpt. -/
theorem unshown_line_behind_feed :
    ∃ diagnostic, ((ofSettings .standard).evaluate "(\n").1.outcome = .error diagnostic ∧
      diagnostic.span.start = ⟨2, 2, 1⟩ ∧ diagnostic.sourceLine = none ∧ diagnostic.excerpt = none :=
  ⟨_, by with_unfolding_all rfl, by with_unfolding_all rfl, by with_unfolding_all rfl,
    by with_unfolding_all rfl⟩

end Session

end Reckon

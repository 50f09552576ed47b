import Reckon.Console.Command
import Reckon.Proofs.Session.History
import Reckon.Proofs.Text.Lines

/-!
Dialogues and evaluations from the command line show what a single session answers to the same lines in
turn: a dialogue all of it, an evaluation as far as the first line that fails.
-/
namespace Reckon

def Session.outcomes (session : Session) : List String → List (Except Diagnostic (Option Value))
  | [] => []
  | source :: rest =>
    (session.evaluate source).1.outcome :: (session.evaluate source).2.outcomes rest

namespace Console

/-- A line with something to evaluate: not empty, without blanks at its ends, and no command. -/
structure Plain (line : String) : Prop where
  filled : line ≠ ""
  trimmed : Text.trimmed line.toList = line.toList
  single : '\n' ∉ line.toList
  question : line ∉ ["exit", "quit", "help", "clear"]

instance (line : String) : Decidable (Plain line) :=
  decidable_of_iff (line ≠ "" ∧ Text.trimmed line.toList = line.toList ∧ '\n' ∉ line.toList ∧
      line ∉ ["exit", "quit", "help", "clear"])
    ⟨fun ⟨filled, trimmed, single, question⟩ => ⟨filled, trimmed, single, question⟩,
      fun ⟨filled, trimmed, single, question⟩ => ⟨filled, trimmed, single, question⟩⟩

def shown (terminal : Terminal) (value : Value) : String :=
  terminal.paint .dimmed "=>" ++ " " ++ terminal.paint .cyan value.text ++ "\n"

def reported (terminal : Terminal) (diagnostic : Diagnostic) : String :=
  terminal.paint .red diagnostic.message ++ "\n" ++
    (diagnostic.excerpt.elim "" fun excerpt => terminal.paint .dimmed excerpt ++ "\n")

def values (outcomes : List (Except Diagnostic (Option Value))) : List Value :=
  outcomes.filterMap fun outcome =>
    match outcome with
    | .ok value => value
    | .error _ => none

def failures (outcomes : List (Except Diagnostic (Option Value))) : List Diagnostic :=
  outcomes.filterMap fun outcome =>
    match outcome with
    | .ok _ => none
    | .error diagnostic => some diagnostic

/-- Outcomes up to the first failure, which is the last of them. -/
def throughFailure : List (Except Diagnostic (Option Value)) → List (Except Diagnostic (Option Value))
  | [] => []
  | .ok value :: rest => .ok value :: throughFailure rest
  | .error diagnostic :: _ => [.error diagnostic]

/-- Values on the output, failures among the errors, both in order. -/
def display (terminal : Terminal) (outcomes : List (Except Diagnostic (Option Value))) : Transcript where
  output := String.join ((values outcomes).map (shown terminal))
  errors := String.join ((failures outcomes).map (reported terminal))

namespace Transcript

private theorem empty_append (transcript : Transcript) :
    Transcript.empty ++ transcript = transcript := by
  cases transcript with
  | mk output errors =>
    change Transcript.mk ("" ++ output) ("" ++ errors) = _
    rw [String.empty_append, String.empty_append]

private theorem append_empty (transcript : Transcript) :
    transcript ++ Transcript.empty = transcript := by
  cases transcript with
  | mk output errors =>
    change Transcript.mk (output ++ "") (errors ++ "") = _
    rw [String.append_empty, String.append_empty]

private theorem append_assoc (first second third : Transcript) :
    first ++ second ++ third = first ++ (second ++ third) := by
  change Transcript.mk _ _ = Transcript.mk _ _
  rw [Transcript.mk.injEq]
  exact ⟨String.append_assoc, String.append_assoc⟩

end Transcript

/-- Each outcome is shown as it comes. -/
private theorem display_cons (terminal : Terminal) (outcome : Except Diagnostic (Option Value))
    (rest : List (Except Diagnostic (Option Value))) :
    display terminal (outcome :: rest) =
      Transcript.ofOutcome terminal outcome ++ display terminal rest := by
  cases outcome with
  | ok found =>
    cases found with
    | none => exact (Transcript.empty_append _).symm
    | some value =>
      change Transcript.mk (String.join (shown terminal value :: _)) _ = .mk _ ("" ++ _)
      rw [String.join_cons, String.empty_append]
      rfl
  | error diagnostic =>
    have report : Transcript.ofDiagnostic terminal diagnostic =
        .ofErrors (reported terminal diagnostic) := by
      unfold Transcript.ofDiagnostic reported
      cases diagnostic.excerpt with
      | none => exact congrArg Transcript.ofErrors String.append_empty.symm
      | some excerpt => exact congrArg Transcript.ofErrors String.append_assoc
    rw [Transcript.ofOutcome, report]
    change Transcript.mk _ (String.join (reported terminal diagnostic :: _)) = .mk ("" ++ _) _
    rw [String.join_cons, String.empty_append]
    rfl

variable {terminal : Terminal}

private theorem display_of_isPlain (bare : terminal.IsPlain)
    (outcomes : List (Except Diagnostic (Option Value))) :
    display terminal outcomes =
      ⟨String.join ((values outcomes).map fun value => "=> " ++ value.text ++ "\n"),
        String.join ((failures outcomes).map fun diagnostic => diagnostic.message ++ "\n" ++
          diagnostic.excerpt.elim "" fun excerpt => excerpt ++ "\n")⟩ := by
  have paint : terminal.paint = fun _ text => text := by
    funext style text
    exact bare style text
  unfold display shown reported
  rw [paint]
  rfl

private theorem request_of_trimmed {line : String} (reads : terminal.ReadsAsItStands)
    (trimmed : Text.trimmed line.toList = line.toList) (typed : '\x08' ∉ line.toList) :
    Dialogue.request terminal line = line := by
  rw [Dialogue.request, reads line typed, trimmed, String.ofList_toList]

private theorem answer_of_plain {line : String} (plain : Plain line) (session : Session) :
    Dialogue.answer terminal session line =
      (Transcript.ofOutcome terminal (session.evaluate line).1.outcome,
        some (session.evaluate line).2) := by
  have question := plain.question
  simp only [List.mem_cons, List.not_mem_nil, or_false, not_or] at question
  obtain ⟨exit, quit, help, clear⟩ := question
  simp [Dialogue.answer, plain.filled, exit, quit, help, clear]

private theorem run_plain (reads : terminal.ReadsAsItStands) {lines : List String}
    (plain : ∀ line ∈ lines, Plain line ∧ '\x08' ∉ line.toList)
    (session : Session) (later : List String) :
    Dialogue.run terminal session (lines ++ later) =
      display terminal (session.outcomes lines) ++
        Dialogue.run terminal (session.after (lines.map .evaluate)) later := by
  induction lines generalizing session with
  | nil => exact (Transcript.empty_append _).symm
  | cons line lines ih =>
    obtain ⟨first, typed⟩ := plain line List.mem_cons_self
    have rest := ih (fun other member => plain other (List.mem_cons_of_mem _ member))
      (session.evaluate line).2
    rw [List.cons_append, Dialogue.run, request_of_trimmed reads first.trimmed typed, answer_of_plain first]
    simp only
    rw [rest, Session.outcomes, display_cons, Transcript.append_assoc]
    rfl

private theorem evaluateAll_display (session : Session) (lines : List String) :
    Command.evaluateAll terminal session lines =
      (display terminal (throughFailure (session.outcomes lines)),
        if (failures (session.outcomes lines)).isEmpty then 0 else 1) := by
  induction lines generalizing session with
  | nil => rfl
  | cons line lines ih =>
    rw [Command.evaluateAll, Session.outcomes]
    simp only [ih]
    cases (session.evaluate line).1.outcome with
    | ok value =>
      rw [throughFailure, display_cons]
      rfl
    | error diagnostic =>
      rw [throughFailure, display_cons]
      change _ = (_ ++ Transcript.empty, _)
      rw [Transcript.append_empty]
      rfl

private theorem lines_of_trimmed {lines : List String}
    (kept : ∀ line ∈ lines, Text.trimmed line.toList = line.toList ∧ '\n' ∉ line.toList) :
    Text.lines (Text.joined lines) = lines := by
  apply Text.lines_joined
  · intro line member
    exact (kept line member).2
  · intro line member last
    cases Text.getLast?_of_trimmed (kept line member).1 last

private theorem repl_joined {lines : List String}
    (kept : ∀ line ∈ lines, Text.trimmed line.toList = line.toList ∧ '\n' ∉ line.toList) :
    (Command.ofArguments ["repl"]).execute terminal (Text.joined lines) =
      (.ofOutput (Help.banner terminal) ++
        Dialogue.run terminal (Session.ofSettings .standard) lines, 0) := by
  change (_ ++ Dialogue.run terminal _ (Text.lines (Text.joined lines)), 0) = _
  rw [lines_of_trimmed kept]

private theorem run_clear (reads : terminal.ReadsAsItStands) (session : Session)
    (later : List String) :
    Dialogue.run terminal session ("clear" :: later) =
      .ofOutput (Help.cleared terminal) ++ Dialogue.run terminal session.reset later := by
  have request : Dialogue.request terminal "clear" = "clear" :=
    request_of_trimmed reads (by decide) (by decide)
  rw [Dialogue.run, request]
  rfl

/-- Lines that a dialogue takes for expressions, none with a backspace in it. The dialogue shows the outcomes
of one session, an evaluation those up to the first failure; behind a line that clears the session the
dialogue goes on as a new one. Where painting is plain, values and reports stand there bare. -/
theorem drivers_show_one_session {terminal : Terminal} (reads : terminal.ReadsAsItStands)
    {lines : List String} (given : lines ≠ [])
    (plain : ∀ line ∈ lines, Plain line ∧ '\x08' ∉ line.toList) :
    let fresh := Session.ofSettings .standard
    let outcomes := fresh.outcomes lines
    let dialogue := fun lines => (Command.ofArguments ["repl"]).execute terminal (Text.joined lines)
    dialogue lines = (.ofOutput (Help.banner terminal) ++
        (display terminal outcomes ++ .ofOutput (Help.goodbye terminal)), 0) ∧
      (∀ input, (Command.ofArguments ("eval" :: lines)).execute terminal input =
        (display terminal (throughFailure outcomes),
          if (failures outcomes).isEmpty then 0 else 1)) ∧
      (∀ earlier later, lines = earlier ++ later → ∃ rest,
        dialogue later = (.ofOutput (Help.banner terminal) ++ rest, 0) ∧
          dialogue (earlier ++ "clear" :: later) = (.ofOutput (Help.banner terminal) ++
            (display terminal (fresh.outcomes earlier) ++
              (.ofOutput (Help.cleared terminal) ++ rest)), 0)) ∧
      (terminal.IsPlain → ∀ listed, display terminal listed =
        ⟨String.join ((values listed).map fun value => "=> " ++ value.text ++ "\n"),
          String.join ((failures listed).map fun diagnostic => diagnostic.message ++ "\n" ++
            diagnostic.excerpt.elim "" fun excerpt => excerpt ++ "\n")⟩) := by
  intro fresh outcomes dialogue
  have kept : ∀ line ∈ lines, Text.trimmed line.toList = line.toList ∧ '\n' ∉ line.toList := by
    intro line member
    exact ⟨(plain line member).1.trimmed, (plain line member).1.single⟩
  refine ⟨?_, ?_, ?_, display_of_isPlain⟩
  · have ended : Dialogue.run terminal fresh (lines ++ []) = _ := run_plain reads plain fresh []
    rw [List.append_nil] at ended
    change (Command.ofArguments ["repl"]).execute terminal (Text.joined lines) = _
    rw [repl_joined kept, ended]
    rfl
  · intro input
    rw [← evaluateAll_display]
    cases lines with
    | nil => exact absurd rfl given
    | cons line rest => rfl
  · rintro earlier later rfl
    have cleared : ∀ line ∈ earlier ++ "clear" :: later,
        Text.trimmed line.toList = line.toList ∧ '\n' ∉ line.toList := by
      intro line member
      rcases List.mem_append.mp member with before | behind
      · exact kept line (List.mem_append_left _ before)
      rcases List.mem_cons.mp behind with rfl | after
      · exact ⟨by decide, by decide⟩
      · exact kept line (List.mem_append_right _ after)
    have restarted : Dialogue.run terminal fresh (earlier ++ "clear" :: later) = _ :=
      run_plain reads (fun line member => plain line (List.mem_append_left later member)) fresh _
    rw [run_clear reads, Session.reset_after] at restarted
    refine ⟨Dialogue.run terminal fresh later, ?_, ?_⟩
    · exact repl_joined fun line member => kept line (List.mem_append_right _ member)
    · rw [← restarted]
      exact repl_joined cleared

/-- The second line fails at `q`, behind an assignment that stays made. -/
theorem drivers_show_failed_line :
    let terminal := Terminal.standard false
    let lines := ["sclr x = 2", "(sclr x = 3) + q", "x"]
    let outcomes := (Session.ofSettings .standard).outcomes lines
    terminal.ReadsAsItStands ∧ terminal.IsPlain ∧ lines ≠ [] ∧
      (∀ line ∈ lines, Plain line ∧ '\x08' ∉ line.toList) ∧
      (Command.ofArguments ("eval" :: lines)).run false "" =
        (display terminal (throughFailure outcomes), if (failures outcomes).isEmpty then 0 else 1) ∧
      (Command.ofArguments ["repl"]).run false (Text.joined lines) =
        (.ofOutput (Help.banner terminal) ++
          (display terminal outcomes ++ .ofOutput (Help.goodbye terminal)), 0) ∧
      (display terminal outcomes).output =
        String.join ((values outcomes).map fun value => "=> " ++ value.text ++ "\n") := by
  intro terminal lines outcomes
  have reads : terminal.ReadsAsItStands := Terminal.standard_readsAsItStands false
  have bare : terminal.IsPlain := Terminal.standard_isPlain
  have given : lines ≠ [] := List.cons_ne_nil _ _
  have plain : ∀ line ∈ lines, Plain line ∧ '\x08' ∉ line.toList := by decide
  obtain ⟨dialogue, evaluation, _, shown⟩ := drivers_show_one_session reads given plain
  refine ⟨reads, bare, given, plain, evaluation "", dialogue, ?_⟩
  rw [shown bare outcomes]

/-- A line with a backspace is free of all that a dialogue would take for something else, but it is evaluated
as it stands after typing: a session reports the backspace, the dialogue shows the number that is left. -/
theorem backspace_takes_back :
    let terminal := Terminal.standard false
    let lines := ["12\x08"]
    (∀ line ∈ lines, Plain line) ∧
      (Command.ofArguments ["repl"]).run false (Text.joined lines) ≠
        (.ofOutput (Help.banner terminal) ++
          (display terminal ((Session.ofSettings .standard).outcomes lines) ++
            .ofOutput (Help.goodbye terminal)), 0) := by
  intro terminal lines
  refine ⟨by decide, ?_⟩
  let fresh := Session.ofSettings .standard
  have request : Dialogue.request terminal "12\x08" = "1" := by decide
  have one : Plain "1" := by decide
  obtain ⟨found, answer⟩ : ∃ found, (fresh.evaluate "1").1.outcome = .ok found :=
    ⟨_, by with_unfolding_all rfl⟩
  have quiet : ((Command.ofArguments ["repl"]).run false (Text.joined lines)).1.errors = "" := by
    have read : Text.lines (Text.joined lines) = lines := by decide
    change "" ++ (Dialogue.run terminal fresh (Text.lines (Text.joined lines))).errors = ""
    rw [read, Dialogue.run, request, answer_of_plain one, answer]
    cases found with
    | none => rfl
    | some value => rfl
  obtain ⟨diagnostic, offence⟩ : ∃ diagnostic,
      (fresh.evaluate "12\x08").1.outcome = .error diagnostic :=
    ⟨_, by with_unfolding_all rfl⟩
  have outcomes : fresh.outcomes lines = [.error diagnostic] :=
    congrArg (fun outcome => [outcome]) offence
  intro same
  have errors : "" = "" ++ ((display terminal (fresh.outcomes lines)).errors ++ "") :=
    quiet.symm.trans (congrArg (fun result => result.1.errors) same)
  rw [outcomes] at errors
  have characters := congrArg String.toList errors
  simp [display, failures, reported] at characters

end Console

end Reckon

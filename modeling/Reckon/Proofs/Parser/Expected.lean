import Reckon.Proofs.Parser.Refusal

/-!
What a parser expects behind some tokens, read off these tokens alone. The latest of them tell what is due;
behind an operand, the parentheses and conditions that they leave open tell which token is waited for.
-/
namespace Reckon.Parser

open Reckon.Parser.Configuration

/-- What tokens leave open: a parenthesis, a condition, or the result of one, where the conditional may
go on but need not. -/
inductive Opening where
  | group | condition | result
deriving DecidableEq

/-- A parenthesis closes along with all that was opened in it. A `then` is that of the condition, or else
it begins a further condition, as `elif` does. -/
def Opening.behind (kind : Token.Kind) (openings : List Opening) : List Opening :=
  match kind, openings with
  | .leftParen, _ => .group :: openings
  | .rightParen, _ => (openings.dropWhile (· ≠ .group)).tail
  | .keyword .if, _ => .condition :: openings
  | .keyword .then, .condition :: outer => .result :: outer
  | .keyword .then, .result :: outer => .condition :: outer
  | .keyword .elif, .result :: outer => .condition :: outer
  | .keyword .else, .result :: outer => outer
  | _, _ => openings

/-- The innermost opening comes first, and of the tokens the latest. -/
def openings (earlier : List Token) : List Opening :=
  earlier.foldr (fun token openings => Opening.behind token.kind openings) []

inductive Due where
  | operand (goal : Goal)
  | name | equals | continuation
deriving DecidableEq

/-- By the latest token alone. -/
def Due.of : Token.Kind → Due
  | .leftParen | .equal | .keyword .if | .keyword .then | .keyword .elif | .keyword .else =>
    .operand .expression
  | .keyword .and | .keyword .or | .keyword .not => .operand .comparison
  | .plus | .minus | .star | .slash | .equalEqual | .bangEqual | .less | .lessEqual | .greater
  | .greaterEqual => .operand .factor
  | .caret => .operand .atom
  | .keyword .sclr => .name
  | .int _ | .float _ | .name _ | .rightParen | .finish => .continuation

/-- By the tokens taken, the latest first. -/
def Due.behind (earlier : List Token) : Due :=
  match earlier.map Token.kind with
  | [] => .operand .expression
  | .name _ :: .keyword .sclr :: _ => .equals
  | latest :: _ => .of latest

/-- The token that the innermost parenthesis or condition waits for. -/
def waiting (openings : List Opening) : Expectation :=
  match openings.find? (· ≠ .result) with
  | some .group => .closing
  | some .condition => .consequence
  | _ => .finish

def Due.expectation (openings : List Opening) : Due → Expectation
  | .operand .expression => .expression
  | .operand .comparison => .comparison
  | .operand .factor | .operand .atom => .atom
  | .name => .name
  | .equals => .equals
  | .continuation => waiting openings

def expectationBehind (earlier : List Token) : Expectation :=
  (Due.behind earlier).expectation (openings earlier)

def Frame.opening? : Frame → Option Opening
  | .group => some .group
  | .condition .. => some .condition
  | .result .. => some .result
  | _ => none

def Phase.due : Phase → Due
  | .awaiting goal => .operand goal
  | .name => .name
  | .equals .. => .equals
  | .complete _ => .continuation

/-- The tokens taken, the latest first, show what is due and what is open. -/
structure Configuration.Shown (earlier : List Token) (configuration : Configuration) : Prop where
  due : configuration.phase.due = .behind earlier
  openings : configuration.stack.filterMap Frame.opening? = openings earlier

theorem shown_initial : Configuration.initial.Shown [] := ⟨rfl, rfl⟩

private theorem openings_cons (token : Token) (earlier : List Token) :
    openings (token :: earlier) = Opening.behind token.kind (openings earlier) := rfl

private theorem of_eq_name {kind : Token.Kind} : Due.of kind = .name ↔ kind = .keyword .sclr := by
  constructor
  · intro named
    cases kind with
    | keyword word => cases word <;> first | rfl | cases named
    | _ => cases named
  · rintro rfl
    rfl

private theorem behind_eq_name {earlier : List Token} :
    Due.behind earlier = .name ↔ ∃ rest, earlier.map Token.kind = .keyword .sclr :: rest := by
  unfold Due.behind
  split
  · rename_i empty
    rw [empty]
    exact ⟨nofun, nofun⟩
  · rename_i assigned
    rw [assigned]
    exact ⟨nofun, nofun⟩
  · rename_i latest rest _ same
    rw [of_eq_name, same]
    simp only [List.cons.injEq, exists_and_left, exists_eq', and_true]

private theorem of_eq_atom {kind : Token.Kind} : Due.of kind = .operand .atom ↔ kind = .caret := by
  constructor
  · intro powered
    cases kind with
    | keyword word => cases word <;> cases powered
    | caret => rfl
    | _ => cases powered
  · rintro rfl
    rfl

theorem behind_eq_atom {earlier : List Token} :
    Due.behind earlier = .operand .atom ↔ (earlier.map Token.kind).head? = some .caret := by
  unfold Due.behind
  split
  · rename_i empty
    rw [empty]
    exact ⟨nofun, nofun⟩
  · rename_i assigned
    rw [assigned]
    exact ⟨nofun, nofun⟩
  · rename_i same
    rw [of_eq_atom, same, List.head?_cons, Option.some.injEq]

/-- Behind the name of an assignment its sign is due, and behind any other token what that token says. -/
private theorem behind_cons {earlier : List Token} (unnamed : Due.behind earlier ≠ .name)
    (token : Token) :
    Due.behind (token :: earlier) = Due.of token.kind := by
  rw [Due.behind, List.map_cons]
  split
  · rename_i absent
    cases absent
  · rename_i rest same
    exact absurd (behind_eq_name.mpr ⟨rest, (List.cons.inj same).2⟩) unnamed
  · rename_i same
    rw [(List.cons.inj same).1]

private theorem of_operator {kind : Token.Kind} {operator : BinaryOperator}
    (sign : BinaryOperator.ofKind? kind = some operator) : Due.of kind = .operand operator.goal := by
  cases kind with
  | keyword word => cases word <;> cases sign <;> rfl
  | _ => cases sign <;> rfl

private theorem of_prefix (operator : UnaryOperator) :
    Due.of operator.kind = .operand operator.goal := by
  cases operator <;> rfl

private theorem openings_operator {kind : Token.Kind} {operator : BinaryOperator}
    (sign : BinaryOperator.ofKind? kind = some operator) (openings : List Opening) :
    Opening.behind kind openings = openings := by
  cases kind with
  | keyword word => cases word <;> cases sign <;> rfl
  | _ => cases sign <;> rfl

private theorem openings_prefix (operator : UnaryOperator) (openings : List Opening) :
    Opening.behind operator.kind openings = openings := by
  cases operator <;> rfl

private theorem openings_reduce (strength : Nat) (stack : List Frame) (part : Expr) :
    (reduce strength stack part).1.filterMap Frame.opening? = stack.filterMap Frame.opening? := by
  induction stack generalizing part with
  | nil => rfl
  | cons frame stack ih =>
    cases frame with
    | operation left operator =>
      rw [reduce]
      split
      · exact ih _
      · rfl
    | unary operator opening =>
      rw [reduce]
      split
      · exact ih _
      · rfl
    | _ => rfl

section

variable {earlier : List Token} {token : Token} {stack : List Frame} {part : Expr}
  {next : Configuration}

private theorem Begins.shown {goal : Goal} (begins : Begins token stack goal next)
    (awaited : Due.behind earlier = .operand goal)
    (shown : stack.filterMap Frame.opening? = openings earlier) :
    next.Shown (token :: earlier) := by
  have unnamed : Due.behind earlier ≠ .name := by
    rw [awaited]
    nofun
  have latest := behind_cons unnamed token
  have opened := openings_cons token earlier
  rw [← shown] at opened
  cases begins with
  | number value literal =>
    rcases literal with kind | kind <;> rw [kind] at latest opened <;> exact ⟨latest.symm, opened.symm⟩
  | reference _ kind | group kind | conditional kind | assignment kind =>
    rw [kind] at latest opened
    exact ⟨latest.symm, opened.symm⟩
  | prefixed operator sign =>
    rw [sign, of_prefix] at latest
    rw [sign, openings_prefix] at opened
    exact ⟨latest.symm, opened.symm⟩

private theorem Resumes.openings {frame : Frame} {kind : Token.Kind}
    (resumes : Resumes part stack kind frame next) :
    next.stack.filterMap Frame.opening? =
      Opening.behind kind ((frame :: stack).filterMap Frame.opening?) := by
  cases resumes with
  | group closing =>
    subst closing
    simp [Frame.opening?, Opening.behind]
  | condition _ _ mark =>
    subst mark
    rfl
  | further _ _ _ mark => rcases mark with rfl | rfl <;> rfl
  | otherwise _ _ _ mark =>
    subst mark
    rfl

/-- What is due behind a token that finishes constructs is decided by the token. -/
private theorem Closes.due {kind : Token.Kind} (closes : Closes kind stack part next) :
    next.phase.due = Due.of kind ∧
      (kind = .rightParen ∨ kind = .keyword .then ∨ kind = .keyword .elif ∨ kind = .keyword .else) := by
  induction closes with
  | resumes resumes =>
    cases resumes with
    | group mark | condition _ _ mark | otherwise _ _ _ mark =>
      subst mark
      exact ⟨rfl, by decide⟩
    | further _ _ _ mark => rcases mark with rfl | rfl <;> exact ⟨rfl, by decide⟩
  | whole _ _ ih => exact ih

private theorem openings_close {kind : Token.Kind} (closed : close kind stack part = .ok next) :
    next.stack.filterMap Frame.opening? = Opening.behind kind (stack.filterMap Frame.opening?) := by
  induction stack generalizing part with
  | nil => cases closed
  | cons frame stack ih =>
    cases resumed : frame.resumed part kind stack with
    | some found =>
      rw [close, resumed] at closed
      cases closed
      exact (resumes_iff.mpr resumed).openings
    | none =>
      cases whole : frame.whole part with
      | error what =>
        simp only [close, resumed, whole] at closed
        cases closed
      | ok expr =>
        rw [close_whole resumed whole] at closed
        rw [ih closed]
        cases frame with
        | result opening clauses premise =>
          -- Of the tokens that finish constructs only a parenthesis passes a result by.
          obtain ⟨notThen, notElif, notElse⟩ := resumed_result_eq_none.mp resumed
          obtain ⟨-, kinds⟩ := (closes_of_close closed).due
          simp only [notThen, notElif, notElse, or_false] at kinds
          subst kinds
          simp [Frame.opening?, Opening.behind]
        | group | condition => cases whole
        | _ => rfl

end

namespace Configuration

section

variable {earlier : List Token} {configuration next : Configuration}

private theorem Shown.step {token : Token} (shown : configuration.Shown earlier)
    (step : configuration.step token = .ok next) : next.Shown (token :: earlier) := by
  have opened := openings_cons token earlier
  rw [← shown.openings] at opened
  have latest (unnamed : configuration.phase.due ≠ .name) :
      Due.behind (token :: earlier) = Due.of token.kind :=
    behind_cons (shown.due ▸ unnamed) token
  cases steps_of_step step with
  | begins begins => exact begins.shown shown.due.symm shown.openings
  | name named =>
    obtain ⟨rest, assigned⟩ := behind_eq_name.mp shown.due.symm
    rw [named] at opened
    refine ⟨?_, opened.symm⟩
    rw [Due.behind, List.map_cons, named, assigned]
    rfl
  | equals mark =>
    rw [mark] at latest opened
    exact ⟨(latest nofun).symm, opened.symm⟩
  | @operation operator part stack sign =>
    rw [of_operator sign] at latest
    rw [openings_operator sign] at opened
    exact ⟨(latest nofun).symm, (openings_reduce operator.strength stack part).trans opened.symm⟩
  | @closes part stack next closes =>
    obtain ⟨decided, kinds⟩ := closes.due
    have plain : BinaryOperator.ofKind? token.kind = none := by
      rcases kinds with kind | kind | kind | kind <;> rw [kind] <;> rfl
    rw [step_plain rfl plain] at step
    exact ⟨decided.trans (latest nofun).symm, (openings_close step).trans opened.symm⟩

theorem shown_passage {limits : Limits} {taken : List Token} {operators total : Nat}
    (passage : Passage limits configuration operators taken next total)
    (shown : configuration.Shown earlier) : next.Shown (taken.reverse ++ earlier) := by
  induction passage generalizing earlier with
  | stay => exact shown
  | take _ step _ ih =>
    rw [List.reverse_cons, List.append_assoc]
    exact ih (shown.step step)

end

end Configuration

section

variable {stack : List Frame} {part : Expr} {what : Expectation}

/-- A construct that waits for a token expects it of whatever comes. -/
private theorem waiting_of_whole_error {frame : Frame} (missing : frame.whole part = .error what)
    (openings : List Opening) : waiting ((frame.opening?.toList) ++ openings) = what := by
  cases frame with
  | group | condition =>
    cases missing
    rfl
  | _ => cases missing

private theorem waiting_of_whole {frame : Frame} {expr : Expr} (whole : frame.whole part = .ok expr)
    (openings : List Opening) :
    waiting ((frame.opening?.toList) ++ openings) = waiting openings := by
  cases frame with
  | group | condition => cases whole
  | _ => rfl

private theorem filterMap_opening_cons (frame : Frame) (stack : List Frame) :
    (frame :: stack).filterMap Frame.opening? =
      frame.opening?.toList ++ stack.filterMap Frame.opening? := by
  rw [List.filterMap_cons]
  cases frame.opening? <;> rfl

/-- Why a token behind an operand is refused: a construct waits for another one, or none is left. -/
inductive Blocked (kind : Token.Kind) : List Frame → Expr → Expectation → Prop
  | outermost (part : Expr) : Blocked kind [] part .finish
  | waits {frame : Frame} {stack : List Frame} {part : Expr} {what : Expectation}
      (passed : frame.resumed part kind stack = none) (missing : frame.whole part = .error what) :
      Blocked kind (frame :: stack) part what
  | whole {frame : Frame} {stack : List Frame} {part expr : Expr} {what : Expectation}
      (whole : frame.whole part = .ok expr) (onward : Blocked kind stack expr what) :
      Blocked kind (frame :: stack) part what

theorem blocked_of_close {kind : Token.Kind} (refused : close kind stack part = .error what) :
    Blocked kind stack part what := by
  induction stack generalizing part with
  | nil =>
    cases refused
    exact .outermost part
  | cons frame stack ih =>
    cases resumed : frame.resumed part kind stack with
    | some found =>
      rw [close, resumed] at refused
      cases refused
    | none =>
      cases whole : frame.whole part with
      | error missing =>
        simp only [close, resumed, whole] at refused
        cases refused
        exact .waits resumed whole
      | ok expr =>
        rw [close_whole resumed whole] at refused
        exact .whole whole (ih refused)

/-- At the end a construct waits for a token just as it does before one that is never taken. -/
theorem blocked_of_conclude (refused : conclude stack part = .error what) :
    Blocked .finish stack part what ∧ what ≠ .finish := by
  induction stack generalizing part with
  | nil => cases refused
  | cons frame stack ih =>
    cases whole : frame.whole part with
    | error missing =>
      simp only [conclude, whole] at refused
      cases refused
      cases frame with
      | group | condition =>
        cases whole
        exact ⟨.waits rfl rfl, by decide⟩
      | _ => cases whole
    | ok expr =>
      simp only [conclude, whole] at refused
      obtain ⟨onward, inner⟩ := ih refused
      exact ⟨.whole whole onward, inner⟩

private theorem Blocked.waiting {kind : Token.Kind} (blocked : Blocked kind stack part what) :
    what = waiting (stack.filterMap Frame.opening?) := by
  induction blocked with
  | outermost => rfl
  | waits _ missing =>
    rw [filterMap_opening_cons]
    exact (waiting_of_whole_error missing _).symm
  | whole whole _ ih =>
    rw [filterMap_opening_cons, waiting_of_whole whole]
    exact ih

private theorem expectation_of_step {configuration : Configuration} {token : Token}
    (refused : configuration.step token = .error what) :
    what = configuration.phase.due.expectation (configuration.stack.filterMap Frame.opening?) := by
  obtain ⟨phase, stack⟩ := configuration
  cases phase with
  | awaiting goal =>
    simp only [step] at refused
    split at refused
    · cases refused
    · cases refused
      cases goal <;> rfl
  | name | equals =>
    simp only [step] at refused
    split at refused
    · cases refused
    · cases refused
      rfl
  | complete part =>
    cases sign : BinaryOperator.ofKind? token.kind with
    | some operator =>
      simp only [step, sign] at refused
      cases refused
    | none =>
      rw [step_plain rfl sign] at refused
      exact (blocked_of_close refused).waiting

private theorem expectation_of_finish {configuration : Configuration}
    (refused : configuration.finish = .error what) :
    what = configuration.phase.due.expectation (configuration.stack.filterMap Frame.opening?) := by
  obtain ⟨phase, stack⟩ := configuration
  cases phase with
  | awaiting goal =>
    cases refused
    cases goal <;> rfl
  | complete part => exact (blocked_of_conclude refused).1.waiting
  | _ =>
    cases refused
    rfl

theorem finish_of_refusal {configuration : Configuration}
    (refuses : configuration.refusal none = some what) : configuration.finish = .error what := by
  simp only [refusal] at refuses
  split at refuses
  · cases refuses
  · rename_i refused
    cases refuses
    exact refused

theorem step_of_refusal {configuration : Configuration} {token : Token}
    (refuses : configuration.refusal (some token) = some what) :
    configuration.step token = .error what := by
  simp only [refusal] at refuses
  split at refuses
  · cases refuses
  · rename_i refused
    cases refuses
    exact refused

theorem expectation_of_refusal {configuration : Configuration} {next : Option Token}
    (refuses : configuration.refusal next = some what) :
    what = configuration.phase.due.expectation (configuration.stack.filterMap Frame.opening?) := by
  cases next with
  | none => exact expectation_of_finish (finish_of_refusal refuses)
  | some token => exact expectation_of_step (step_of_refusal refuses)

end

/-- What a first parse reports is decided by the tokens before the one that it stopped at. -/
theorem expectation_behind_taken (limits : Limits) (tokens : List Token) (diagnostic : Diagnostic)
    (what : Expectation) (failed : (ofTokens limits tokens).parse.1 = .error diagnostic)
    (expects : diagnostic.fault = .expected what) :
    ∃ token, (supplied tokens)[index limits tokens]? = some token ∧ diagnostic.span = token.span ∧
      what = expectationBehind ((supplied tokens).take (index limits tokens)).reverse := by
  obtain ⟨taken, pending, last, total, split, passage, within, refuses⟩ :=
    refusal_of_parse failed expects
  obtain ⟨reported, reached⟩ := parse_of_refusal split passage within refuses
  obtain ⟨head, tail, text, -, placed⟩ := placed_of_split split
  rw [failed] at reported
  cases reported
  have shown := shown_passage passage shown_initial
  rw [List.append_nil] at shown
  rw [reached]
  refine ⟨head, ?_, placed, ?_⟩
  · rw [text, List.getElem?_append_right (Nat.le_refl _), Nat.sub_self]
    rfl
  · rw [text, List.take_left, expectationBehind, ← shown.due, ← shown.openings]
    exact expectation_of_refusal refuses

/-- The parenthesis is waited for in a conditional that needs nothing more, also where the conditional
that it stands in waits for a token as well. -/
theorem parenthesis_waited_for :
    let text := [bare (.keyword .if), bare .leftParen, bare (.keyword .if), bare (.name "x"),
      bare (.keyword .then), bare (.name "y"), bare .equal]
    let report : Diagnostic := .of (.expected .closing) default []
    (ofTokens ⟨8, 7⟩ text).parse.1 = .error report ∧ index ⟨8, 7⟩ text = 6 ∧
      ∃ token, (supplied text)[6]? = some token ∧ report.span = token.span ∧
        Expectation.closing = expectationBehind ((supplied text).take 6).reverse := by
  intro text report
  have failed : (ofTokens ⟨8, 7⟩ text).parse.1 = .error report := by rfl
  exact ⟨failed, rfl, expectation_behind_taken ⟨8, 7⟩ text report .closing failed rfl⟩

end Reckon.Parser

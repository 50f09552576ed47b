import Reckon.Parser
import Reckon.Proofs.Grammar

/-!
What a configuration comes to over the tokens that are left, apart from all limits. A construct that
the next token neither extends nor resumes may be finished beforehand, and within limits that the
tokens cannot exhaust a parser comes to the same.
-/
namespace Reckon.Parser

def Configuration.outcome (configuration : Configuration) : List Token → Except Expectation Expr
  | [] => configuration.finish
  | token :: rest => do (← configuration.step token).outcome rest

/-- No operator between operands stands in front that binds as strongly. -/
def Below (strength : Nat) (tokens : List Token) : Prop :=
  ∀ token ∈ tokens.head?, ∀ operator ∈ BinaryOperator.ofKind? token.kind, operator.strength < strength

theorem Below.mono {weak strong : Nat} {tokens : List Token} (below : Below weak tokens)
    (bound : weak ≤ strong) : Below strong tokens :=
  fun token member operator equal => Nat.lt_of_lt_of_le (below token member operator equal) bound

theorem below_nil (strength : Nat) : Below strength [] := nofun

theorem below_cons {strength : Nat} {token : Token} {rest : List Token} :
    Below strength (token :: rest) ↔
      ∀ operator ∈ BinaryOperator.ofKind? token.kind, operator.strength < strength := by
  simp [Below]

/-- How strongly a construct holds its last part; what is no operation gives it to any operator. -/
def Frame.strength : Frame → Nat
  | .operation _ operator => operator.strength
  | .unary operator _ => operator.strength
  | _ => 0

/-- The innermost construct gives its last part to the operators of a strength. -/
def Yields (strength : Nat) (stack : List Frame) : Prop :=
  ∀ frame ∈ stack.head?, frame.strength < strength

theorem Yields.mono {weak strong : Nat} {stack : List Frame} (yields : Yields weak stack)
    (bound : weak ≤ strong) : Yields strong stack :=
  fun frame member => Nat.lt_of_lt_of_le (yields frame member) bound

theorem yields_nil (strength : Nat) : Yields strength [] := nofun

theorem yields_cons {strength : Nat} {frame : Frame} {stack : List Frame} :
    Yields strength (frame :: stack) ↔ frame.strength < strength := by
  simp [Yields]

theorem strength_pos (operator : BinaryOperator) : 0 < operator.strength := by
  cases operator <;> decide

theorem reduce_of_yields {strength : Nat} {stack : List Frame} (part : Expr)
    (yields : Yields strength stack) : reduce strength stack part = (stack, part) := by
  cases stack with
  | nil => rfl
  | cons frame stack =>
    have weaker := yields_cons.mp yields
    cases frame with
    | operation left operator => exact if_neg (Nat.not_le.mpr weaker)
    | unary operator opening => exact if_neg (Nat.not_le.mpr weaker)
    | _ => rfl

private theorem reduce_whole {strength : Nat} {frame : Frame} {part expr : Expr}
    (stack : List Frame) (positive : 0 < strength) (holds : strength ≤ frame.strength)
    (whole : frame.whole part = .ok expr) :
    reduce strength (frame :: stack) part = reduce strength stack expr := by
  cases frame with
  | operation left operator =>
    cases whole
    exact if_pos holds
  | unary operator opening =>
    cases whole
    exact if_pos holds
  | _ => exact absurd holds (Nat.not_le.mpr positive)

theorem close_whole {kind : Token.Kind} {frame : Frame} {stack : List Frame} {part expr : Expr}
    (passed : frame.resumed part kind stack = none) (whole : frame.whole part = .ok expr) :
    close kind (frame :: stack) part = close kind stack expr := by
  rw [close, passed]
  simp only [whole]
  rfl

theorem outcome_step {configuration next : Configuration} {token : Token} {rest : List Token}
    (step : configuration.step token = .ok next) :
    configuration.outcome (token :: rest) = next.outcome rest := by
  rw [Configuration.outcome, step]
  rfl

theorem step_of_outcome {configuration : Configuration} {token : Token} {rest : List Token}
    {expr : Expr} (completed : configuration.outcome (token :: rest) = .ok expr) :
    ∃ next, configuration.step token = .ok next ∧ next.outcome rest = .ok expr := by
  cases step : configuration.step token with
  | ok next => exact ⟨next, rfl, outcome_step step ▸ completed⟩
  | error what =>
    simp only [Configuration.outcome, step] at completed
    cases completed

def Goal.admits (goal : Goal) : UnaryOperator → Bool
  | .plus | .minus => goal.admitsSign
  | .not => goal.admitsNegation

inductive Begins (token : Token) (stack : List Frame) : Goal → Configuration → Prop
  | number {goal : Goal} (value : Float)
      (literal : token.kind = .int value ∨ token.kind = .float value) :
      Begins token stack goal ⟨.complete (.number value token.span), stack⟩
  | reference {goal : Goal} (name : String) (named : token.kind = .name name) :
      Begins token stack goal ⟨.complete (.variable name token.span), stack⟩
  | group {goal : Goal} (opening : token.kind = .leftParen) :
      Begins token stack goal ⟨.awaiting .expression, .group :: stack⟩
  | conditional {goal : Goal} (opening : token.kind = .keyword .if) :
      Begins token stack goal ⟨.awaiting .expression, .condition token.span [] :: stack⟩
  | prefixed {goal : Goal} (operator : UnaryOperator) (sign : token.kind = operator.kind)
      (wide : goal.admits operator) :
      Begins token stack goal ⟨.awaiting operator.goal, .unary operator token.span :: stack⟩
  | assignment (opening : token.kind = .keyword .sclr) :
      Begins token stack .expression ⟨.name, stack⟩

theorem Begins.starting {token : Token} {stack : List Frame} {goal : Goal} {next : Configuration}
    (begins : Begins token stack goal next) :
    Configuration.starting token stack goal = some next := by
  cases begins with
  | number value literal => rcases literal with equal | equal <;> rw [Configuration.starting, equal]
  | prefixed operator sign wide =>
    cases operator <;> rw [Configuration.starting, sign] <;> exact if_pos wide
  | assignment equal =>
    rw [Configuration.starting, equal]
    rfl
  | reference name equal | group equal | conditional equal => rw [Configuration.starting, equal]

private theorem begins_of_prefix {token : Token} {stack : List Frame} {goal : Goal}
    {next : Configuration} (operator : UnaryOperator) (sign : token.kind = operator.kind)
    (starts : (if goal.admits operator then
      Configuration.starting.prefixed token stack operator else none) = some next) :
    Begins token stack goal next := by
  split at starts
  · rename_i wide
    cases starts
    exact .prefixed operator sign wide
  · cases starts

theorem begins_of_starting {token : Token} {stack : List Frame} {goal : Goal} {next : Configuration}
    (starts : Configuration.starting token stack goal = some next) :
    Begins token stack goal next := by
  cases kind : token.kind with
  | int value =>
    rw [Configuration.starting, kind] at starts
    cases starts
    exact .number value (.inl kind)
  | float value =>
    rw [Configuration.starting, kind] at starts
    cases starts
    exact .number value (.inr kind)
  | name text =>
    rw [Configuration.starting, kind] at starts
    cases starts
    exact .reference text kind
  | leftParen =>
    rw [Configuration.starting, kind] at starts
    cases starts
    exact .group kind
  | plus => exact begins_of_prefix .plus kind (by rwa [Configuration.starting, kind] at starts)
  | minus => exact begins_of_prefix .minus kind (by rwa [Configuration.starting, kind] at starts)
  | keyword word =>
    cases word with
    | «if» =>
      rw [Configuration.starting, kind] at starts
      cases starts
      exact .conditional kind
    | not => exact begins_of_prefix .not kind (by rwa [Configuration.starting, kind] at starts)
    | sclr =>
      cases goal <;> rw [Configuration.starting, kind] at starts <;> cases starts
      exact .assignment kind
    | _ =>
      rw [Configuration.starting, kind] at starts
      cases starts
  | _ =>
    rw [Configuration.starting, kind] at starts
    cases starts

theorem Begins.next_of_sign {token : Token} {stack : List Frame} {goal : Goal}
    {next : Configuration} {operator : UnaryOperator} (begins : Begins token stack goal next)
    (sign : token.kind = operator.kind) :
    next = ⟨.awaiting operator.goal, .unary operator token.span :: stack⟩ := by
  cases begins with
  | number value literal =>
    cases operator <;> rcases literal with equal | equal <;> cases sign.symm.trans equal
  | prefixed other equal =>
    cases operator <;> cases other <;> first | rfl | cases sign.symm.trans equal
  | reference _ equal | group equal | conditional equal | assignment equal =>
    cases operator <;> cases sign.symm.trans equal

theorem Begins.next_of_sclr {token : Token} {stack : List Frame} {goal : Goal}
    {next : Configuration} (begins : Begins token stack goal next)
    (opening : token.kind = .keyword .sclr) : next = ⟨.name, stack⟩ := by
  cases begins with
  | number value literal => rcases literal with equal | equal <;> cases opening.symm.trans equal
  | prefixed other equal => cases other <;> cases opening.symm.trans equal
  | assignment => rfl
  | reference _ equal | group equal | conditional equal => cases opening.symm.trans equal

theorem Begins.step {token : Token} {stack : List Frame} {goal : Goal} {next : Configuration}
    (begins : Begins token stack goal next) :
    Configuration.step ⟨.awaiting goal, stack⟩ token = .ok next := by
  simp only [Configuration.step, begins.starting]

theorem step_name {token : Token} {name : String} (named : token.kind = .name name)
    (stack : List Frame) :
    Configuration.step ⟨.name, stack⟩ token = .ok ⟨.equals name token.span, stack⟩ := by
  simp only [Configuration.step, named]

theorem step_equals {token : Token} (equals : token.kind = .equal) (name : String) (opening : Span)
    (stack : List Frame) :
    Configuration.step ⟨.equals name opening, stack⟩ token =
      .ok ⟨.awaiting .expression, .assignment name opening :: stack⟩ := by
  simp only [Configuration.step, equals]

theorem step_plain {token : Token} {kind : Token.Kind} (equal : token.kind = kind)
    (plain : BinaryOperator.ofKind? kind = none) (part : Expr) (stack : List Frame) :
    Configuration.step ⟨.complete part, stack⟩ token = close kind stack part := by
  subst equal
  simp only [Configuration.step, plain]

theorem outcome_begins {goal : Goal} {stack : List Frame} {token : Token} {rest : List Token}
    {next : Configuration} (begins : Begins token stack goal next) :
    Configuration.outcome ⟨.awaiting goal, stack⟩ (token :: rest) = next.outcome rest :=
  outcome_step begins.step

theorem step_operator {left : Expr} {stack : List Frame} {token : Token} {operator : BinaryOperator}
    (sign : BinaryOperator.ofKind? token.kind = some operator)
    (yields : Yields operator.strength stack) :
    Configuration.step ⟨.complete left, stack⟩ token =
      .ok ⟨.awaiting operator.goal, .operation left operator :: stack⟩ := by
  simp only [Configuration.step, sign, reduce_of_yields left yields]

theorem outcome_operator {left : Expr} {stack : List Frame} {token : Token} {rest : List Token}
    {operator : BinaryOperator} (sign : BinaryOperator.ofKind? token.kind = some operator)
    (yields : Yields operator.strength stack) :
    Configuration.outcome ⟨.complete left, stack⟩ (token :: rest) =
      Configuration.outcome ⟨.awaiting operator.goal, .operation left operator :: stack⟩ rest :=
  outcome_step (step_operator sign yields)

inductive Resumes (part : Expr) (stack : List Frame) (kind : Token.Kind) :
    Frame → Configuration → Prop
  | group (closing : kind = .rightParen) :
      Resumes part stack kind .group ⟨.complete part, stack⟩
  | condition (opening : Span) (clauses : List (Expr × Expr)) (mark : kind = .keyword .then) :
      Resumes part stack kind (.condition opening clauses)
        ⟨.awaiting .expression, .result opening clauses part :: stack⟩
  | further (opening : Span) (clauses : List (Expr × Expr)) (premise : Expr)
      (mark : kind = .keyword .elif ∨ kind = .keyword .then) :
      Resumes part stack kind (.result opening clauses premise)
        ⟨.awaiting .expression, .condition opening ((premise, part) :: clauses) :: stack⟩
  | otherwise (opening : Span) (clauses : List (Expr × Expr)) (premise : Expr)
      (mark : kind = .keyword .else) :
      Resumes part stack kind (.result opening clauses premise)
        ⟨.awaiting .expression, .otherwise opening ((premise, part) :: clauses) :: stack⟩

theorem resumes_iff {part : Expr} {stack : List Frame} {frame : Frame} {kind : Token.Kind}
    {next : Configuration} :
    Resumes part stack kind frame next ↔ frame.resumed part kind stack = some next := by
  constructor
  · intro resumes
    cases resumes with
    | group closing | condition _ _ closing => exact if_pos closing
    | further opening clauses premise mark => exact if_pos mark
    | otherwise opening clauses premise mark =>
      subst mark
      rfl
  · intro resumed
    cases frame with
    | group =>
      simp only [Frame.resumed, Option.ite_none_right_eq_some, Option.some.injEq] at resumed
      obtain ⟨closing, rfl⟩ := resumed
      exact .group closing
    | condition opening clauses =>
      simp only [Frame.resumed, Option.ite_none_right_eq_some, Option.some.injEq] at resumed
      obtain ⟨mark, rfl⟩ := resumed
      exact .condition opening clauses mark
    | result opening clauses premise =>
      simp only [Frame.resumed] at resumed
      split at resumed
      · rename_i mark
        cases resumed
        exact .further opening clauses premise mark
      · simp only [Option.ite_none_right_eq_some, Option.some.injEq] at resumed
        obtain ⟨mark, rfl⟩ := resumed
        exact .otherwise opening clauses premise mark
    | _ => cases resumed

theorem resumed_result_eq_none {part premise : Expr} {opening : Span}
    {clauses : List (Expr × Expr)} {kind : Token.Kind} {stack : List Frame} :
    (Frame.result opening clauses premise).resumed part kind stack = none ↔
      kind ≠ .keyword .then ∧ kind ≠ .keyword .elif ∧ kind ≠ .keyword .else := by
  simp only [Frame.resumed]
  split
  · rename_i mark
    rcases mark with rfl | rfl <;> simp
  · rename_i neither
    simp only [not_or] at neither
    simp [neither]

theorem Resumes.plain {part : Expr} {stack : List Frame} {frame : Frame} {kind : Token.Kind}
    {next : Configuration} (resumes : Resumes part stack kind frame next) :
    BinaryOperator.ofKind? kind = none := by
  cases resumes with
  | group mark | condition _ _ mark | otherwise _ _ _ mark => rw [mark]; rfl
  | further opening clauses premise mark => rcases mark with rfl | rfl <;> rfl

theorem Resumes.step {part : Expr} {frame : Frame} {stack : List Frame} {token : Token}
    {next : Configuration} (resumes : Resumes part stack token.kind frame next) :
    Configuration.step ⟨.complete part, frame :: stack⟩ token = .ok next := by
  rw [step_plain rfl resumes.plain, close, resumes_iff.mp resumes]

theorem outcome_resumes {part : Expr} {frame : Frame} {stack : List Frame} {token : Token}
    {rest : List Token} {next : Configuration} (resumes : Resumes part stack token.kind frame next) :
    Configuration.outcome ⟨.complete part, frame :: stack⟩ (token :: rest) = next.outcome rest :=
  outcome_step resumes.step

/-- Behind an operand a token finishes constructs up to the one that it resumes. -/
inductive Closes (kind : Token.Kind) : List Frame → Expr → Configuration → Prop
  | resumes {part : Expr} {frame : Frame} {stack : List Frame} {next : Configuration}
      (resumes : Resumes part stack kind frame next) : Closes kind (frame :: stack) part next
  | whole {part expr : Expr} {frame : Frame} {stack : List Frame} {next : Configuration}
      (whole : frame.whole part = .ok expr) (onward : Closes kind stack expr next) :
      Closes kind (frame :: stack) part next

theorem closes_of_close {kind : Token.Kind} {stack : List Frame} {part : Expr}
    {next : Configuration} (closed : close kind stack part = .ok next) :
    Closes kind stack part next := by
  induction stack generalizing part with
  | nil => cases closed
  | cons frame stack hyp =>
    cases resumed : frame.resumed part kind stack with
    | some found =>
      rw [close, resumed] at closed
      cases closed
      exact .resumes (resumes_iff.mpr resumed)
    | none =>
      cases whole : frame.whole part with
      | error what =>
        simp only [close, resumed, whole] at closed
        cases closed
      | ok expr =>
        rw [close_whole resumed whole] at closed
        exact .whole whole (hyp closed)

/-- All that a step can do. -/
inductive Steps (token : Token) : Configuration → Configuration → Prop
  | begins {goal : Goal} {stack : List Frame} {next : Configuration}
      (begins : Begins token stack goal next) : Steps token ⟨.awaiting goal, stack⟩ next
  | name {text : String} {stack : List Frame} (named : token.kind = .name text) :
      Steps token ⟨.name, stack⟩ ⟨.equals text token.span, stack⟩
  | equals {name : String} {opening : Span} {stack : List Frame} (mark : token.kind = .equal) :
      Steps token ⟨.equals name opening, stack⟩
        ⟨.awaiting .expression, .assignment name opening :: stack⟩
  | operation {operator : BinaryOperator} {part : Expr} {stack : List Frame}
      (sign : BinaryOperator.ofKind? token.kind = some operator) :
      Steps token ⟨.complete part, stack⟩
        ⟨.awaiting operator.goal,
          .operation (reduce operator.strength stack part).2 operator ::
            (reduce operator.strength stack part).1⟩
  | closes {part : Expr} {stack : List Frame} {next : Configuration}
      (closes : Closes token.kind stack part next) : Steps token ⟨.complete part, stack⟩ next

theorem steps_of_step {configuration next : Configuration} {token : Token}
    (step : configuration.step token = .ok next) : Steps token configuration next := by
  obtain ⟨phase, stack⟩ := configuration
  cases phase with
  | awaiting goal =>
    cases starts : Configuration.starting token stack goal with
    | none =>
      simp only [Configuration.step, starts] at step
      cases step
    | some found =>
      simp only [Configuration.step, starts] at step
      cases step
      exact .begins (begins_of_starting starts)
  | name =>
    simp only [Configuration.step] at step
    split at step
    · rename_i named
      cases step
      exact .name named
    · cases step
  | equals name opening =>
    simp only [Configuration.step] at step
    split at step
    · rename_i mark
      cases step
      exact .equals mark
    · cases step
  | complete part =>
    cases sign : BinaryOperator.ofKind? token.kind with
    | none =>
      simp only [Configuration.step, sign] at step
      exact .closes (closes_of_close step)
    | some operator =>
      simp only [Configuration.step, sign] at step
      cases step
      exact .operation sign

/-- A construct that the next token does not resume and that holds its part against an operator there
is whole before that token as well. -/
theorem step_whole (frame : Frame) {part expr : Expr} {stack : List Frame} {token : Token}
    (whole : frame.whole part = .ok expr)
    (below : ∀ operator ∈ BinaryOperator.ofKind? token.kind, operator.strength < frame.strength + 1)
    (passed : frame.resumed part token.kind stack = none) :
    Configuration.step ⟨.complete part, frame :: stack⟩ token =
      Configuration.step ⟨.complete expr, stack⟩ token := by
  simp only [Configuration.step]
  cases found : BinaryOperator.ofKind? token.kind with
  | none => exact close_whole passed whole
  | some operator =>
    have held := Nat.lt_succ_iff.mp (below operator found)
    simp only [reduce_whole stack (strength_pos operator) held whole]

theorem finish_whole {frame : Frame} {part expr : Expr} (stack : List Frame)
    (whole : frame.whole part = .ok expr) :
    Configuration.finish ⟨.complete part, frame :: stack⟩ =
      Configuration.finish ⟨.complete expr, stack⟩ := by
  simp only [Configuration.finish, conclude, whole]
  rfl

theorem outcome_whole (frame : Frame) {part expr : Expr} {stack : List Frame} {after : List Token}
    (whole : frame.whole part = .ok expr) (below : Below (frame.strength + 1) after)
    (passed : ∀ token ∈ after.head?, frame.resumed part token.kind stack = none) :
    Configuration.outcome ⟨.complete part, frame :: stack⟩ after =
      Configuration.outcome ⟨.complete expr, stack⟩ after := by
  cases after with
  | nil => exact finish_whole stack whole
  | cons token rest =>
    simp only [Configuration.outcome, step_whole frame whole (below_cons.mp below) (passed token rfl)]

end Reckon.Parser

import Reckon.Proofs.Parser.Nesting

/-!
How a parser reads each token: as the beginning of an operand, with the levels of nesting open there, as
an operator between two operands, or as a mark within a construct. The readings tell at which token a
limit is crossed, if one is.
-/
namespace Reckon.Parser

open Reckon.Parser.Configuration

inductive Reading where
  | operand (token : Token) (level : Nat)
  | operator (token : Token)
  | mark (token : Token)

namespace Reading

def token : Reading → Token
  | .operand token _ | .operator token | .mark token => token

/-- No level opens but where an operand begins. -/
def level : Reading → Nat
  | .operand _ level => level
  | _ => 0

def isOperator : Reading → Bool
  | .operator _ => true
  | _ => false

end Reading

/-- The limits are kept where so many operators have been counted before. -/
structure Suffices (limits : Limits) (operators : Nat) (readings : List Reading) : Prop where
  shallow : ∀ reading ∈ readings, reading.level ≤ limits.depth
  few : operators + readings.countP Reading.isOperator ≤ limits.operators

/-- What is reported where the limits no longer suffice: at the operand that opens one level more than
they allow, or at the operator that is one more. -/
inductive Crossing (limits : Limits) (operators : Nat) (readings : List Reading) : Diagnostic → Prop
  | deep {before after : List Reading} {token : Token}
      (split : readings = before ++ .operand token (limits.depth + 1) :: after)
      (sufficed : Suffices limits operators before) :
      Crossing limits operators readings ⟨.nestingTooDeep limits.depth, token.span, [], none, none⟩
  | crowded {before after : List Reading} {token : Token}
      (split : readings = before ++ .operator token :: after)
      (sufficed : Suffices limits operators before)
      (full : operators + before.countP Reading.isOperator = limits.operators) :
      Crossing limits operators readings
        ⟨.tooManyOperators limits.operators, token.span, [], none, none⟩

section

variable {limits : Limits} {operators : Nat} {readings : List Reading} {reading : Reading}

private theorem suffices_nil (few : operators ≤ limits.operators) : Suffices limits operators [] :=
  ⟨nofun, few⟩

private theorem operators_cons :
    operators + (reading :: readings).countP Reading.isOperator =
      operators + [reading].countP Reading.isOperator + readings.countP Reading.isOperator := by
  rw [← List.singleton_append, List.countP_append, Nat.add_assoc]

private theorem suffices_cons :
    Suffices limits operators (reading :: readings) ↔
      reading.level ≤ limits.depth ∧
        Suffices limits (operators + [reading].countP Reading.isOperator) readings := by
  constructor
  · rintro ⟨shallow, few⟩
    exact ⟨shallow reading List.mem_cons_self,
      fun other member => shallow other (List.mem_cons_of_mem reading member), operators_cons ▸ few⟩
  · rintro ⟨first, shallow, few⟩
    exact ⟨List.forall_mem_cons.mpr ⟨first, shallow⟩, operators_cons ▸ few⟩

private theorem Crossing.cons {diagnostic : Diagnostic} (fits : reading.level ≤ limits.depth)
    (crossing : Crossing limits (operators + [reading].countP Reading.isOperator) readings diagnostic) :
    Crossing limits operators (reading :: readings) diagnostic := by
  cases crossing with
  | deep split sufficed =>
    subst split
    exact .deep (List.cons_append ..).symm (suffices_cons.mpr ⟨fits, sufficed⟩)
  | crowded split sufficed full =>
    subst split
    exact .crowded (List.cons_append ..).symm (suffices_cons.mpr ⟨fits, sufficed⟩)
      (operators_cons.trans full)

end

/-- What comes behind the readings, with them in front. -/
def onto (readings : List Reading) (result : List Reading × Except Expectation Expr) :
    List Reading × Except Expectation Expr :=
  (readings ++ result.1, result.2)

@[simp] theorem onto_onto (first second : List Reading)
    (result : List Reading × Except Expectation Expr) :
    onto first (onto second result) = onto (first ++ second) result := by
  simp only [onto, List.append_assoc]

namespace Configuration

def reading (configuration : Configuration) (token : Token) : Reading :=
  match configuration.phase with
  | .awaiting _ => .operand token (Parser.level configuration.stack)
  | .complete _ =>
    if (BinaryOperator.ofKind? token.kind).isSome then .operator token else .mark token
  | _ => .mark token

/-- What a configuration comes to over the tokens that are left, with how it reads them on the way. -/
def follow (configuration : Configuration) : List Token → List Reading × Except Expectation Expr
  | [] => ([], configuration.finish)
  | token :: rest =>
    onto [configuration.reading token]
      (match configuration.step token with
      | .ok next => next.follow rest
      | .error what => ([], .error what))

theorem follow_snd (configuration : Configuration) (tokens : List Token) :
    (configuration.follow tokens).2 = configuration.outcome tokens := by
  induction tokens generalizing configuration with
  | nil => rfl
  | cons token rest ih =>
    simp only [follow, outcome, onto]
    cases configuration.step token with
    | ok next => exact ih next
    | error what => rfl

private theorem reading_level (configuration : Configuration) (token : Token) :
    (configuration.reading token).level = configuration.depth := by
  obtain ⟨phase, stack⟩ := configuration
  cases phase with
  | complete part =>
    simp only [reading]
    split <;> rfl
  | _ => rfl

theorem reading_token (configuration : Configuration) (token : Token) :
    (configuration.reading token).token = token := by
  obtain ⟨phase, stack⟩ := configuration
  cases phase with
  | complete part =>
    simp only [reading]
    split <;> rfl
  | _ => rfl

theorem reading_counted (configuration : Configuration) (operators : Nat) (token : Token) :
    configuration.counted operators token =
      operators + [configuration.reading token].countP Reading.isOperator := by
  obtain ⟨phase, stack⟩ := configuration
  cases phase with
  | complete part =>
    by_cases sign : (BinaryOperator.ofKind? token.kind).isSome <;>
      simp [counted, takesOperator, reading, sign, Reading.isOperator]
  | _ => rfl

end Configuration

section

variable {configuration next : Configuration} {token : Token} {rest : List Token}

theorem follow_step (step : configuration.step token = .ok next) :
    configuration.follow (token :: rest) =
      onto [configuration.reading token] (next.follow rest) := by
  simp only [follow, step]

theorem follow_begins {goal : Goal} {stack : List Frame} (begins : Begins token stack goal next) :
    follow ⟨.awaiting goal, stack⟩ (token :: rest) =
      onto [.operand token (level stack)] (next.follow rest) :=
  follow_step begins.step

private theorem reading_operator {left : Expr} {stack : List Frame} {operator : BinaryOperator}
    (sign : BinaryOperator.ofKind? token.kind = some operator) :
    reading ⟨.complete left, stack⟩ token = .operator token := by
  simp [reading, sign]

theorem follow_operator {left : Expr} {stack : List Frame} {operator : BinaryOperator}
    (sign : BinaryOperator.ofKind? token.kind = some operator)
    (yields : Yields operator.strength stack) :
    follow ⟨.complete left, stack⟩ (token :: rest) =
      onto [.operator token]
        (follow ⟨.awaiting operator.goal, .operation left operator :: stack⟩ rest) := by
  rw [follow_step (step_operator sign yields), reading_operator sign]

theorem follow_resumes {part : Expr} {frame : Frame} {stack : List Frame}
    (resumes : Resumes part stack token.kind frame next) :
    follow ⟨.complete part, frame :: stack⟩ (token :: rest) =
      onto [.mark token] (next.follow rest) := by
  rw [follow_step resumes.step]
  simp [reading, resumes.plain]

theorem follow_whole (frame : Frame) {part expr : Expr} {stack : List Frame} {after : List Token}
    (whole : frame.whole part = .ok expr) (below : Below (frame.strength + 1) after)
    (passed : ∀ token ∈ after.head?, frame.resumed part token.kind stack = none) :
    follow ⟨.complete part, frame :: stack⟩ after = follow ⟨.complete expr, stack⟩ after := by
  cases after with
  | nil => exact congrArg (Prod.mk []) (finish_whole stack whole)
  | cons token rest =>
    simp only [follow, step_whole frame whole (below_cons.mp below) (passed token rfl), reading]

end

/-- An assignment opens its level behind the equals sign. -/
def Phase.opening : Phase → Nat
  | .name | .equals .. => 1
  | _ => 0

/-- The level that the next operand opens, if it opens one, is at most one beyond the limit. -/
def Configuration.Shallow (limit : Nat) (configuration : Configuration) : Prop :=
  configuration.levels + configuration.phase.opening ≤ limit

section

variable {limit : Nat} {configuration next : Configuration}

private theorem Configuration.Shallow.depth_le (shallow : configuration.Shallow limit) :
    configuration.depth ≤ limit + 1 :=
  Nat.le_trans (depth_le_levels configuration)
    (Nat.succ_le_succ (Nat.le_trans (Nat.le_add_right _ _) shallow))

private theorem opening_closes {kind : Token.Kind} {stack : List Frame} {part : Expr}
    (closes : Closes kind stack part next) : next.phase.opening = 0 := by
  induction closes with
  | resumes resumes => cases resumes <;> rfl
  | whole _ _ ih => exact ih

private theorem Configuration.Shallow.step {token : Token} (shallow : configuration.Shallow limit)
    (within : configuration.depth ≤ limit) (step : configuration.step token = .ok next) :
    next.Shallow limit := by
  cases steps_of_step step with
  | begins begins =>
    have opened := levels_begins begins
    have within : level _ ≤ limit := within
    cases begins with
    | assignment => exact within
    | _ => exact Nat.le_trans opened within
  | name => exact shallow
  | equals =>
    simp only [Shallow, levels, List.countP_cons] at shallow ⊢
    exact shallow
  | @operation operator part stack sign =>
    exact Nat.le_trans (levels_reduce operator.strength stack part) shallow
  | closes closes =>
    rw [Shallow, opening_closes closes]
    exact Nat.le_trans (levels_closes closes) shallow

private theorem depth_of_finish {expr : Expr} (finished : configuration.finish = .ok expr) :
    configuration.depth = 0 := by
  obtain ⟨phase, stack⟩ := configuration
  cases phase with
  | complete => rfl
  | _ => cases finished

private theorem reading_of_deep (token : Token) (shallow : configuration.Shallow limit)
    (deep : limit < configuration.depth) :
    configuration.reading token = .operand token (limit + 1) := by
  have bound := shallow.depth_le
  have exact : configuration.depth = limit + 1 := Nat.le_antisymm bound deep
  obtain ⟨phase, stack⟩ := configuration
  cases phase with
  | awaiting goal => exact congrArg (Reading.operand token) exact
  | _ => cases exact

private theorem reading_of_crowded {token : Token} {operators most : Nat} (few : operators ≤ most)
    (many : most < configuration.counted operators token) :
    configuration.reading token = .operator token ∧ operators = most := by
  rw [reading_counted] at many
  cases kind : configuration.reading token with
  | operator other =>
    have same : other = token := by rw [← reading_token configuration token, kind, Reading.token]
    rw [kind] at many
    exact ⟨by rw [same], Nat.le_antisymm few (Nat.lt_succ_iff.mp many)⟩
  | operand | mark =>
    rw [kind] at many
    exact absurd few (Nat.not_le.mpr many)

end

section

variable {limits : Limits} {finish : Span} {configuration : Configuration} {operators : Nat}
  {tokens : List Token} {expr : Expr}

theorem advance_of_finish (finished : configuration.finish = .ok expr) :
    advance limits finish configuration operators [] = (.ok expr, ⟨[], operators⟩) := by
  have shut : ¬ limits.depth < configuration.depth := by
    rw [depth_of_finish finished]
    exact Nat.not_lt_zero _
  simp only [advance, if_neg shut, finished]

theorem advance_of_suffices (completed : configuration.outcome tokens = .ok expr)
    (sufficed : Suffices limits operators (configuration.follow tokens).1) :
    advance limits finish configuration operators tokens =
      (.ok expr, ⟨[], operators + (configuration.follow tokens).1.countP Reading.isOperator⟩) := by
  induction tokens generalizing configuration operators with
  | nil => exact advance_of_finish completed
  | cons token rest ih =>
    obtain ⟨next, step, later⟩ := step_of_outcome completed
    rw [follow_step step] at sufficed ⊢
    obtain ⟨level, onward⟩ := suffices_cons.mp sufficed
    rw [reading_level] at level
    rw [← reading_counted] at onward
    have within : configuration.Within limits operators (some token) :=
      within_some.mpr ⟨level, Nat.le_trans (Nat.le_add_right _ _) onward.few⟩
    rw [advance_of_step within step, ih later onward, reading_counted, ← operators_cons]
    rfl

/-- Otherwise the run ends at the first reading that crosses a limit. -/
theorem crossing_of_insufficient (completed : configuration.outcome tokens = .ok expr)
    (shallow : configuration.Shallow limits.depth) (few : operators ≤ limits.operators)
    (short : ¬ Suffices limits operators (configuration.follow tokens).1) :
    ∃ diagnostic, (advance limits finish configuration operators tokens).1 = .error diagnostic ∧
      Crossing limits operators (configuration.follow tokens).1 diagnostic := by
  induction tokens generalizing configuration operators with
  | nil => exact absurd (suffices_nil few) short
  | cons token rest ih =>
    obtain ⟨next, step, later⟩ := step_of_outcome completed
    rw [follow_step step] at short ⊢
    by_cases deep : limits.depth < configuration.depth
    · rw [advance_cons, if_pos deep, reading_of_deep token shallow deep]
      exact ⟨_, rfl, .deep (List.nil_append _).symm (suffices_nil few)⟩
    by_cases many : limits.operators < configuration.counted operators token
    · obtain ⟨reading, full⟩ := reading_of_crowded few many
      rw [advance_cons, if_neg deep, if_pos many, reading]
      exact ⟨_, rfl, .crowded (List.nil_append _).symm (suffices_nil few) full⟩
    -- The reading fits, so the crossing is one of the readings behind it.
    have level := Nat.not_lt.mp deep
    have counted := Nat.not_lt.mp many
    rw [advance_of_step (within_some.mpr ⟨level, counted⟩) step]
    have shallower := shallow.step level step
    rw [← reading_level configuration token] at level
    have onward : ¬ Suffices limits (configuration.counted operators token) (next.follow rest).1 := by
      rw [reading_counted]
      exact fun sufficed => short (suffices_cons.mpr ⟨level, sufficed⟩)
    obtain ⟨diagnostic, stopped, crossing⟩ := ih later shallower counted onward
    rw [reading_counted] at crossing
    exact ⟨diagnostic, stopped, crossing.cons level⟩

theorem sufficed_of_accepted (accepted :
      (advance limits finish configuration operators tokens).1 = .ok expr)
    (shallow : configuration.Shallow limits.depth) (few : operators ≤ limits.operators) :
    Suffices limits operators (configuration.follow tokens).1 := by
  refine Classical.byContradiction fun short => ?_
  obtain ⟨diagnostic, failed, -⟩ :=
    crossing_of_insufficient (outcome_of_advance accepted) shallow few short
  cases failed.symm.trans accepted

end

end Reckon.Parser

import Reckon.Proofs.Parser.Outcome

/-!
Passages: the steps that a parser takes within its limits. A parser that stands at the end of a
passage goes on as one that starts there, and tokens too few to exhaust the limits all pass.
-/
namespace Reckon.Parser

open Reckon.Parser.Configuration

namespace Configuration

def counted (configuration : Configuration) (operators : Nat) (token : Token) : Nat :=
  if configuration.takesOperator token.kind then operators + 1 else operators

/-- The limits let a configuration look at the next token, if there is one. -/
def Within (limits : Limits) (configuration : Configuration) (operators : Nat)
    (next : Option Token) : Prop :=
  configuration.depth ≤ limits.depth ∧
    ∀ token ∈ next, configuration.counted operators token ≤ limits.operators

def levels (configuration : Configuration) : Nat :=
  configuration.stack.countP Frame.opensLevel

/-- What a configuration expects in place of the next token, or of the end. -/
def refusal (configuration : Configuration) : Option Token → Option Expectation
  | none =>
    match configuration.finish with
    | .ok _ => none
    | .error what => some what
  | some token =>
    match configuration.step token with
    | .ok _ => none
    | .error what => some what

end Configuration

inductive Passage (limits : Limits) :
    Configuration → Nat → List Token → Configuration → Nat → Prop
  | stay (configuration : Configuration) (operators : Nat) :
      Passage limits configuration operators [] configuration operators
  | take {configuration next last : Configuration} {operators total : Nat} {token : Token}
      {rest : List Token} (within : configuration.Within limits operators (some token))
      (step : configuration.step token = .ok next)
      (onward : Passage limits next (configuration.counted operators token) rest last total) :
      Passage limits configuration operators (token :: rest) last total

def place (finish : Span) (next : Option Token) : Span :=
  (next.map Token.span).getD finish

section

variable {limits : Limits} {finish : Span} {configuration last : Configuration}
  {operators total : Nat}

theorem within_some {token : Token} :
    configuration.Within limits operators (some token) ↔
      configuration.depth ≤ limits.depth ∧ configuration.counted operators token ≤ limits.operators := by
  simp only [Within, Option.mem_def, Option.some.injEq, forall_eq']

theorem advance_cons (token : Token) (rest : List Token) :
    advance limits finish configuration operators (token :: rest) =
      if limits.depth < configuration.depth then
        (.error (.of (.nestingTooDeep limits.depth) token.span []), ⟨token :: rest, operators⟩)
      else if limits.operators < configuration.counted operators token then
        (.error (.of (.tooManyOperators limits.operators) token.span []), ⟨rest, operators⟩)
      else
        match configuration.step token with
        | .ok next => advance limits finish next (configuration.counted operators token) rest
        | .error what =>
          (.error (.of (.expected what) token.span []), ⟨token :: rest, operators⟩) :=
  rfl

theorem advance_of_step {next : Configuration} {token : Token} {rest : List Token}
    (within : configuration.Within limits operators (some token))
    (step : configuration.step token = .ok next) :
    advance limits finish configuration operators (token :: rest) =
      advance limits finish next (configuration.counted operators token) rest := by
  have few := within.2 token rfl
  rw [advance_cons, if_neg (Nat.not_lt.mpr within.1), if_neg (Nat.not_lt.mpr few), step]

theorem advance_of_refusal {pending : List Token} {what : Expectation}
    (within : configuration.Within limits operators pending.head?)
    (refuses : configuration.refusal pending.head? = some what) :
    advance limits finish configuration operators pending =
      (.error (.of (.expected what) (place finish pending.head?) []), ⟨pending, operators⟩) := by
  cases pending with
  | nil =>
    cases finished : configuration.finish with
    | ok expr => simp only [List.head?_nil, refusal, finished, reduceCtorEq] at refuses
    | error missing =>
      simp only [List.head?_nil, refusal, finished, Option.some.injEq] at refuses
      simp only [advance, if_neg (Nat.not_lt.mpr within.1), finished, refuses]
      rfl
  | cons token rest =>
    have few := within.2 token rfl
    cases step : configuration.step token with
    | ok next => simp only [List.head?_cons, refusal, step, reduceCtorEq] at refuses
    | error missing =>
      simp only [List.head?_cons, refusal, step, Option.some.injEq] at refuses
      rw [advance_cons, if_neg (Nat.not_lt.mpr within.1), if_neg (Nat.not_lt.mpr few), step, refuses]
      rfl

theorem advance_passage {taken : List Token}
    (passage : Passage limits configuration operators taken last total) (rest : List Token) :
    advance limits finish configuration operators (taken ++ rest) =
      advance limits finish last total rest := by
  induction passage with
  | stay => rfl
  | take within step _ hyp =>
    rw [List.cons_append, advance_of_step within step]
    exact hyp

theorem outcome_passage {taken : List Token}
    (passage : Passage limits configuration operators taken last total) (rest : List Token) :
    configuration.outcome (taken ++ rest) = last.outcome rest := by
  induction passage with
  | stay => rfl
  | take _ step _ hyp =>
    rw [List.cons_append, outcome_step step]
    exact hyp

inductive Halts (limits : Limits) (finish : Span) (configuration : Configuration) (operators : Nat) :
    List Token → Except Diagnostic Expr × Progress → Prop
  | deep (pending : List Token) (deep : limits.depth < configuration.depth) :
      Halts limits finish configuration operators pending
        (.error (.of (.nestingTooDeep limits.depth) (place finish pending.head?) []), ⟨pending, operators⟩)
  | crowded (token : Token) (rest : List Token)
      (many : limits.operators < configuration.counted operators token) :
      Halts limits finish configuration operators (token :: rest)
        (.error (.of (.tooManyOperators limits.operators) token.span []), ⟨rest, operators⟩)
  | refused (pending : List Token) (what : Expectation)
      (within : configuration.Within limits operators pending.head?)
      (refuses : configuration.refusal pending.head? = some what) :
      Halts limits finish configuration operators pending
        (.error (.of (.expected what) (place finish pending.head?) []), ⟨pending, operators⟩)
  | whole (expr : Expr) (finished : configuration.finish = .ok expr) :
      Halts limits finish configuration operators [] (.ok expr, ⟨[], operators⟩)

/-- Each run is a passage up to where the parser stops. -/
theorem advance_halts (limits : Limits) (finish : Span) (tokens : List Token)
    (configuration : Configuration) (operators : Nat) :
    ∃ taken pending last total, tokens = taken ++ pending ∧
      Passage limits configuration operators taken last total ∧
      Halts limits finish last total pending
        (advance limits finish configuration operators tokens) := by
  induction tokens generalizing configuration operators with
  | nil =>
    refine ⟨[], [], configuration, operators, rfl, .stay _ _, ?_⟩
    by_cases deep : limits.depth < configuration.depth
    · simp only [advance, if_pos deep]
      exact .deep [] deep
    have within : configuration.Within limits operators none := ⟨Nat.not_lt.mp deep, nofun⟩
    cases finished : configuration.finish with
    | ok expr =>
      simp only [advance, if_neg deep, finished]
      exact .whole expr finished
    | error what =>
      have refuses : configuration.refusal none = some what := by simp only [refusal, finished]
      rw [advance_of_refusal within refuses]
      exact .refused [] what within refuses
  | cons token rest hyp =>
    by_cases deep : limits.depth < configuration.depth
    · refine ⟨[], token :: rest, configuration, operators, rfl, .stay _ _, ?_⟩
      rw [advance_cons, if_pos deep]
      exact .deep (token :: rest) deep
    by_cases many : limits.operators < configuration.counted operators token
    · refine ⟨[], token :: rest, configuration, operators, rfl, .stay _ _, ?_⟩
      rw [advance_cons, if_neg deep, if_pos many]
      exact .crowded token rest many
    have within : configuration.Within limits operators (some token) :=
      within_some.mpr ⟨Nat.not_lt.mp deep, Nat.not_lt.mp many⟩
    cases step : configuration.step token with
    | ok next =>
      obtain ⟨taken, pending, last, total, rfl, passage, halts⟩ :=
        hyp next (configuration.counted operators token)
      rw [advance_of_step within step]
      exact ⟨token :: taken, pending, last, total, rfl, .take within step passage, halts⟩
    | error what =>
      have refuses : configuration.refusal (some token) = some what := by
        simp only [refusal, step]
      rw [advance_of_refusal within refuses]
      exact ⟨[], token :: rest, configuration, operators, rfl, .stay _ _,
        .refused (token :: rest) what within refuses⟩

theorem outcome_of_advance {tokens : List Token} {expr : Expr}
    (accepted : (advance limits finish configuration operators tokens).1 = .ok expr) :
    configuration.outcome tokens = .ok expr := by
  obtain ⟨taken, pending, last, total, rfl, passage, halts⟩ :=
    advance_halts limits finish tokens configuration operators
  rw [outcome_passage passage]
  generalize advance limits finish configuration operators (taken ++ pending) = result at halts accepted
  cases halts with
  | whole whole finished =>
    cases accepted
    exact finished
  | _ => cases accepted

theorem depth_le_levels (configuration : Configuration) :
    configuration.depth ≤ configuration.levels + 1 := by
  cases phase : configuration.phase <;> simp [depth, levels, phase]

private theorem counted_le (configuration : Configuration) (operators : Nat) (token : Token) :
    configuration.counted operators token ≤ operators + 1 := by
  unfold counted
  split
  · exact Nat.le_refl _
  · exact Nat.le_succ _

theorem levels_reduce (strength : Nat) (stack : List Frame) (part : Expr) :
    (reduce strength stack part).1.countP Frame.opensLevel ≤ stack.countP Frame.opensLevel := by
  induction stack generalizing part with
  | nil => exact Nat.le_refl _
  | cons frame stack hyp =>
    have inner : stack.countP Frame.opensLevel ≤ (frame :: stack).countP Frame.opensLevel :=
      (List.sublist_cons_self frame stack).countP_le
    cases frame with
    | operation left operator =>
      rw [reduce]
      split
      · exact Nat.le_trans (hyp _) inner
      · exact Nat.le_refl _
    | unary operator opening =>
      rw [reduce]
      split
      · exact Nat.le_trans (hyp _) inner
      · exact Nat.le_refl _
    | _ => exact Nat.le_refl _

private theorem levels_resumes {part : Expr} {stack : List Frame} {kind : Token.Kind}
    {frame : Frame} {next : Configuration} (resumes : Resumes part stack kind frame next) :
    next.levels ≤ (frame :: stack).countP Frame.opensLevel := by
  cases resumes with
  | group => exact (List.sublist_cons_self Frame.group stack).countP_le
  | _ => simp [levels, List.countP_cons, Frame.opensLevel]

theorem levels_closes {kind : Token.Kind} {stack : List Frame} {part : Expr}
    {next : Configuration} (closes : Closes kind stack part next) :
    next.levels ≤ stack.countP Frame.opensLevel := by
  induction closes with
  | resumes resumes => exact levels_resumes resumes
  | @whole _ _ frame stack _ _ _ hyp =>
    exact Nat.le_trans hyp (List.sublist_cons_self frame stack).countP_le

theorem levels_begins {token : Token} {stack : List Frame} {goal : Goal} {next : Configuration}
    (begins : Begins token stack goal next) :
    next.levels ≤ stack.countP Frame.opensLevel + 1 := by
  cases begins <;> simp [levels, List.countP_cons, Frame.opensLevel]

private theorem levels_step {next : Configuration} {token : Token}
    (step : configuration.step token = .ok next) : next.levels ≤ configuration.levels + 1 := by
  cases steps_of_step step with
  | begins begins => exact levels_begins begins
  | name => exact Nat.le_succ _
  | equals => simp [levels, List.countP_cons, Frame.opensLevel]
  | @operation operator part stack =>
    have fewer := levels_reduce operator.strength stack part
    simp only [levels, List.countP_cons, Frame.opensLevel]
    exact Nat.le_succ_of_le fewer
  | closes closes => exact Nat.le_succ_of_le (levels_closes closes)

/-- Within limits that so many tokens cannot exhaust, a parser accepts what a configuration completes. -/
private theorem advance_of_outcome {tokens : List Token} {expr : Expr}
    (deep : configuration.levels + tokens.length + 1 ≤ limits.depth)
    (many : operators + tokens.length ≤ limits.operators)
    (completed : configuration.outcome tokens = .ok expr) :
    (advance limits finish configuration operators tokens).1 = .ok expr := by
  have shallow := depth_le_levels configuration
  induction tokens generalizing configuration operators with
  | nil =>
    have finished : configuration.finish = .ok expr := completed
    have shut : ¬ limits.depth < configuration.depth := by
      simp only [List.length_nil] at deep
      omega
    simp only [advance, if_neg shut, finished]
  | cons token rest hyp =>
    -- The levels open and the tokens left never exceed the limit together.
    simp only [List.length_cons] at deep many
    have few := counted_le configuration operators token
    obtain ⟨next, step, onward⟩ := step_of_outcome completed
    have raised := levels_step step
    have within : configuration.Within limits operators (some token) :=
      within_some.mpr ⟨by omega, by omega⟩
    rw [advance_of_step within step]
    exact hyp (by omega) (by omega) onward (depth_le_levels next)

end

theorem parse_eq_ok_iff {limits : Limits} {tokens : List Token} {expr : Expr}
    (deep : (ofTokens limits tokens).pending.length + 1 ≤ limits.depth)
    (many : (ofTokens limits tokens).pending.length ≤ limits.operators) :
    (ofTokens limits tokens).parse.1 = .ok expr ↔
      outcome .initial (ofTokens limits tokens).pending = .ok expr := by
  constructor
  · exact outcome_of_advance
  · refine advance_of_outcome ?_ ?_
    · rw [show Configuration.levels .initial = 0 from rfl, Nat.zero_add]
      exact deep
    · rw [show (ofTokens limits tokens).operators = 0 from rfl, Nat.zero_add]
      exact many

/-- What a call of a parser answers, and where it leaves the parser. -/
theorem parse_halts (parser : Parser) :
    ∃ taken pending last total answer, parser.pending = taken ++ pending ∧
      Passage parser.limits .initial parser.operators taken last total ∧
      Halts parser.limits parser.finish last total pending answer ∧
      parser.parse.1 = answer.1 ∧ parser.parse.2.pending = answer.2.pending := by
  obtain ⟨taken, pending, last, total, split, passage, halts⟩ :=
    advance_halts parser.limits parser.finish parser.pending .initial parser.operators
  exact ⟨taken, pending, last, total, _, split, passage, halts, rfl, rfl⟩

end Reckon.Parser

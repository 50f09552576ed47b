import Reckon.Proofs.Parser.Outcome

/-!
Closing texts: whatever a parser has under way, some tokens complete it. A parenthesis is closed, and a
conditional gets its last alternative, so that no word behind it can go on with it.
-/
namespace Reckon.Parser

open Reckon.Parser.Configuration

/-- A token without a place. -/
def bare (kind : Token.Kind) : Token := ⟨kind, default, kind.text⟩

def operand : Token := bare (.name "x")

def Frame.closing : Frame → List Token
  | .group => [bare .rightParen]
  | .condition _ _ => [bare (.keyword .then), operand, bare (.keyword .else), operand]
  | .result _ _ _ => [bare (.keyword .else), operand]
  | _ => []

def Phase.closing : Phase → List Token
  | .awaiting _ => [operand]
  | .name => [operand, bare .equal, operand]
  | .equals _ _ => [bare .equal, operand]
  | .complete _ => []

def Configuration.closing (configuration : Configuration) : List Token :=
  configuration.phase.closing ++ configuration.stack.flatMap Frame.closing

private theorem below_closing (strength : Nat) (stack : List Frame) :
    Below strength (stack.flatMap Frame.closing) := by
  induction stack with
  | nil => exact below_nil strength
  | cons frame stack hyp =>
    cases frame with
    | group | condition | result => exact below_cons.mpr nofun
    | _ => exact hyp

private theorem outcome_operand (goal : Goal) (stack : List Frame) (rest : List Token) :
    outcome ⟨.awaiting goal, stack⟩ (operand :: rest) =
      outcome ⟨.complete (.variable "x" default), stack⟩ rest :=
  outcome_begins (.reference "x" rfl)

private theorem outcome_frame_closing (frame : Frame) (stack : List Frame) (part : Expr) :
    ∃ expr, outcome ⟨.complete part, frame :: stack⟩
        (frame.closing ++ stack.flatMap Frame.closing) =
      outcome ⟨.complete expr, stack⟩ (stack.flatMap Frame.closing) := by
  have below (strength : Nat) := below_closing strength stack
  have alternative (opening : Span) (clauses : List (Expr × Expr)) (premise result : Expr) :
      ∃ expr, outcome ⟨.complete result, .result opening clauses premise :: stack⟩
          (bare (.keyword .else) :: operand :: stack.flatMap Frame.closing) =
        outcome ⟨.complete expr, stack⟩ (stack.flatMap Frame.closing) := by
    exact ⟨_, (outcome_resumes (.otherwise opening clauses premise rfl)).trans
      ((outcome_operand _ _ _).trans (outcome_whole _ rfl (below _) fun _ _ => rfl))⟩
  cases frame with
  | group => exact ⟨part, outcome_resumes (.group rfl)⟩
  | condition opening clauses =>
    obtain ⟨expr, closed⟩ := alternative opening clauses part (.variable "x" default)
    refine ⟨expr, ?_⟩
    simp only [Frame.closing, List.cons_append, List.nil_append]
    rw [outcome_resumes (.condition opening clauses rfl), outcome_operand]
    exact closed
  | result opening clauses premise => exact alternative opening clauses premise part
  | _ => exact ⟨_, outcome_whole _ rfl (below _) fun _ _ => rfl⟩

private theorem outcome_stack_closing (stack : List Frame) (part : Expr) :
    ∃ expr, outcome ⟨.complete part, stack⟩ (stack.flatMap Frame.closing) = .ok expr := by
  induction stack generalizing part with
  | nil => exact ⟨part, rfl⟩
  | cons frame stack hyp =>
    obtain ⟨whole, closed⟩ := outcome_frame_closing frame stack part
    obtain ⟨expr, completed⟩ := hyp whole
    exact ⟨expr, closed.trans completed⟩

theorem outcome_closing (configuration : Configuration) :
    ∃ expr, configuration.outcome configuration.closing = .ok expr := by
  obtain ⟨phase, stack⟩ := configuration
  cases phase with
  | awaiting goal =>
    obtain ⟨expr, completed⟩ := outcome_stack_closing stack (.variable "x" default)
    exact ⟨expr, (outcome_operand goal stack _).trans completed⟩
  | name =>
    obtain ⟨expr, completed⟩ :=
      outcome_stack_closing (.assignment "x" default :: stack) (.variable "x" default)
    refine ⟨expr, (outcome_step (step_name rfl stack)).trans ?_⟩
    refine (outcome_step (step_equals rfl "x" default stack)).trans ?_
    exact (outcome_operand _ _ _).trans completed
  | equals name opening =>
    obtain ⟨expr, completed⟩ :=
      outcome_stack_closing (.assignment name opening :: stack) (.variable "x" default)
    refine ⟨expr, (outcome_step (step_equals rfl name opening stack)).trans ?_⟩
    exact (outcome_operand _ _ _).trans completed
  | complete part => exact outcome_stack_closing stack part

theorem closing_open (configuration : Configuration) :
    configuration.closing.all fun token => !isFinish token := by
  obtain ⟨phase, stack⟩ := configuration
  rw [Configuration.closing, List.all_append, List.all_flatMap, Bool.and_eq_true]
  constructor
  · cases phase <;> rfl
  · refine List.all_eq_true.mpr fun frame _ => ?_
    cases frame <;> rfl

end Reckon.Parser

import Reckon.Proofs.Parser.Outcome

/-!
Trailing constructs: those that wait for no token. A parser may stand behind the tokens of a phrase
with some of them still unfinished above what stood there before; they are finished as soon as a token
comes that one of the constructs below takes.
-/
namespace Reckon.Parser

open Reckon.Parser.Configuration

/-- Whatever follows the tokens, the configurations come to the same over it. -/
def Leads (configuration : Configuration) (tokens : List Token) (target : Configuration) : Prop :=
  ∀ after, configuration.outcome (tokens ++ after) = target.outcome after

theorem Leads.trans {first second third : Configuration} {tokens others : List Token}
    (leads : Leads first tokens second) (onward : Leads second others third) :
    Leads first (tokens ++ others) third := by
  intro after
  rw [List.append_assoc, leads, onward]

theorem Leads.cons {first second third : Configuration} {token : Token} {others : List Token}
    (step : first.step token = .ok second) (onward : Leads second others third) :
    Leads first (token :: others) third := by
  intro after
  rw [List.cons_append, outcome_step step]
  exact onward after

theorem leads_nil (configuration : Configuration) : Leads configuration [] configuration :=
  fun _ => rfl

/-- The construct waits for no token, nor takes one in a condition. -/
def trailing (inCondition : Bool) : Frame → Bool
  | .group | .condition _ _ => false
  | .result _ _ _ => !inCondition
  | _ => true

section

variable {inCondition : Bool} {above stack : List Frame}

private theorem whole_of_trailing {frame : Frame} (trails : trailing inCondition frame)
    (part : Expr) :
    ∃ expr, frame.whole part = .ok expr := by
  cases frame with
  | group | condition => cases trails
  | _ => exact ⟨_, rfl⟩

theorem conclude_trailing (trails : above.all (trailing inCondition)) (part : Expr) :
    ∃ expr, conclude above part = .ok expr := by
  induction above generalizing part with
  | nil => exact ⟨part, rfl⟩
  | cons frame above hyp =>
    obtain ⟨first, rest⟩ := Bool.and_eq_true_iff.mp (List.all_cons ▸ trails)
    obtain ⟨expr, whole⟩ := whole_of_trailing first part
    obtain ⟨final, concluded⟩ := hyp rest expr
    refine ⟨final, ?_⟩
    simp only [conclude, whole]
    exact concluded

theorem reduce_trailing {strength : Nat} (trails : above.all (trailing inCondition))
    (yields : Yields strength stack) (part : Expr) :
    ∃ left whole, reduce strength (above ++ stack) part = (left ++ stack, whole) ∧
      left.all (trailing inCondition) := by
  induction above generalizing part with
  | nil => exact ⟨[], part, reduce_of_yields part yields, rfl⟩
  | cons frame above hyp =>
    obtain ⟨first, rest⟩ := Bool.and_eq_true_iff.mp (List.all_cons ▸ trails)
    cases frame with
    | operation operand operator =>
      rw [List.cons_append, reduce]
      split
      · exact hyp rest _
      · exact ⟨.operation operand operator :: above, part, rfl, trails⟩
    | unary operator opening =>
      rw [List.cons_append, reduce]
      split
      · exact hyp rest _
      · exact ⟨.unary operator opening :: above, part, rfl, trails⟩
    | group | condition => cases first
    | _ => exact ⟨_, part, rfl, trails⟩

theorem resumed_closing {frame : Frame} (trails : trailing inCondition frame) (part : Expr)
    (stack : List Frame) : frame.resumed part .rightParen stack = none := by
  cases frame with
  | group => cases trails
  | _ => rfl

theorem resumed_consequence {frame : Frame} (trails : trailing true frame) (part : Expr)
    (stack : List Frame) : frame.resumed part (.keyword .then) stack = none := by
  cases frame with
  | condition | result => cases trails
  | _ => rfl

theorem close_trailing {kind : Token.Kind} (trails : above.all (trailing inCondition))
    (passed : ∀ frame ∈ above, ∀ part stack, frame.resumed part kind stack = none)
    (stack : List Frame) (part : Expr) :
    ∃ whole, close kind (above ++ stack) part = close kind stack whole := by
  induction above generalizing part with
  | nil => exact ⟨part, rfl⟩
  | cons frame above hyp =>
    obtain ⟨first, rest⟩ := Bool.and_eq_true_iff.mp (List.all_cons ▸ trails)
    obtain ⟨expr, whole⟩ := whole_of_trailing first part
    rw [List.cons_append, close_whole (passed frame List.mem_cons_self part _) whole]
    exact hyp rest (fun frame member => passed frame (List.mem_cons_of_mem _ member)) expr

/-- In a condition all of the phrase is finished, elsewhere the innermost conditional goes on. -/
theorem close_result (kind : Token.Kind) {onward : Span → List (Expr × Expr) → Frame}
    (marks : ∀ opening clauses premise part stack,
      (Frame.result opening clauses premise).resumed part kind stack =
        some ⟨.awaiting .expression, onward opening ((premise, part) :: clauses) :: stack⟩)
    (trails : above.all (trailing inCondition)) (opening : Span) (clauses : List (Expr × Expr))
    (premise part : Expr) (stack : List Frame) :
    ∃ opening' clauses' left, left.all (trailing inCondition) ∧
      close kind (above ++ .result opening clauses premise :: stack) part =
        .ok ⟨.awaiting .expression, onward opening' clauses' :: (left ++ stack)⟩ := by
  induction above generalizing part with
  | nil =>
    refine ⟨opening, (premise, part) :: clauses, [], rfl, ?_⟩
    simp only [List.nil_append, close, marks]
  | cons frame above hyp =>
    obtain ⟨first, rest⟩ := Bool.and_eq_true_iff.mp (List.all_cons ▸ trails)
    have inner := hyp rest
    cases frame with
    | group | condition => cases first
    | result opening' clauses' premise' =>
      have standing : inCondition = false := by simpa [trailing] using first
      refine ⟨opening', (premise', part) :: clauses', above ++ [.result opening clauses premise], ?_, ?_⟩
      · subst standing
        simpa [trailing] using rest
      · simp only [List.cons_append, List.append_assoc, List.nil_append, close, marks]
    | _ =>
      rw [List.cons_append, close_whole rfl rfl]
      exact inner _

end

/-- Over the tokens the configuration reads one phrase, on top of what stood there before. -/
def Reads (inCondition : Bool) (configuration : Configuration) (tokens : List Token)
    (stack : List Frame) : Prop :=
  ∃ part above, above.all (trailing inCondition) ∧
    Leads configuration tokens ⟨.complete part, above ++ stack⟩

section

variable {inCondition : Bool} {stack : List Frame}

theorem Reads.append_frames {configuration : Configuration} {tokens : List Token}
    (left : List Frame) (reads : Reads inCondition configuration tokens (left ++ stack))
    (trails : left.all (trailing inCondition)) : Reads inCondition configuration tokens stack := by
  obtain ⟨part, above, all, leads⟩ := reads
  refine ⟨part, above ++ left, ?_, ?_⟩
  · simp only [List.all_append, all, trails, Bool.and_true]
  · rw [List.append_assoc]
    exact leads

theorem Reads.cons {first second : Configuration} {token : Token} {tokens : List Token}
    (step : first.step token = .ok second) (reads : Reads inCondition second tokens stack) :
    Reads inCondition first (token :: tokens) stack := by
  obtain ⟨part, above, all, leads⟩ := reads
  exact ⟨part, above, all, leads.cons step⟩

end

end Reckon.Parser

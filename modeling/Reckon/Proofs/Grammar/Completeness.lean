import Reckon.Proofs.Grammar.Longest
import Reckon.Proofs.Grammar.Readings

/-!
Where a longest phrase is due, its tokens come to the expression of the phrase, and each of them is read
as the grammar has it.
-/
namespace Reckon.Grammar

open Reckon.Parser Reckon.Parser.Configuration

mutual

theorem Phrase.follow_tokens {symbol : Symbol} (phrase : Phrase symbol) (goal : Goal)
    (stack : List Frame) {after : List Token} (wide : goalStrength goal ≤ symbol.strength)
    (yields : Yields symbol.strength stack) (longest : phrase.Longest after)
    (below : Below symbol.strength after) :
    follow ⟨.awaiting goal, stack⟩ (phrase.tokens ++ after) =
      onto (phrase.readings (level stack)) (follow ⟨.complete phrase.expr, stack⟩ after) := by
  match phrase, wide, yields, longest, below with
  | .assignment name opening target equals value, wide, _, longest, _ =>
    obtain ⟨inner, unextended⟩ := longest
    obtain rfl := eq_expression_of_wide wide
    have reads := value.follow_tokens .expression (.assignment name target.val.span :: stack)
      (Nat.le_refl 1) (yields_loose rfl) inner (unextended.below 1)
    rw [level_opening (by rfl)] at reads
    simp only [Phrase.tokens, List.cons_append]
    rw [follow_begins (.assignment opening.property),
      follow_step (step_name target.property stack),
      follow_step (step_equals equals.property name _ stack), reads,
      follow_whole _ rfl (unextended.below _) fun _ _ => rfl]
    simp only [onto_onto]
    rfl
  | .chain family own first links, wide, yields, longest, below =>
    obtain ⟨leading, linked, _⟩ := longest
    rw [← own] at wide yields below
    have weaker := symbol_strength_lt_operand family
    have behind := below_links links below
    have reads := first.follow_tokens goal stack (Nat.le_of_lt (Nat.lt_of_le_of_lt wide weaker))
      (yields.mono (Nat.le_of_lt weaker)) leading (behind.mono weaker)
    rw [Phrase.tokens, List.append_assoc, reads, links.follow_tokens yields linked below, onto_onto]
    rfl
  | .prefixed operator own sign operand, wide, yields, longest, below =>
    have above := signed_strength own
    have wider := admits_of_signed own wide
    have reads := operand.follow_tokens operator.goal (.unary operator sign.val.span :: stack)
      (goalStrength_le_signed own) (yields_cons.mpr (Nat.lt_of_succ_le (Nat.le_of_eq above)))
      longest below
    rw [level_opening (by rfl)] at reads
    rw [Phrase.tokens, List.cons_append, follow_begins (.prefixed operator sign.property wider),
      reads, follow_whole (.unary operator sign.val.span) rfl (below.mono (Nat.le_of_eq above.symm))
        fun _ _ => rfl, onto_onto]
    rfl
  | .unsigned power, wide, yields, longest, below =>
    exact power.follow_tokens goal stack wide yields longest below
  | .number value literal, _, _, _, _ =>
    exact follow_begins (.number value literal.property)
  | .variable name reference, _, _, _, _ =>
    exact follow_begins (.reference name reference.property)
  | .group opening inner closing, _, _, longest, _ =>
    have closes := unextended_of_kind after closing.property rfl
    have reads := inner.follow_tokens .expression (.group :: stack) (Nat.le_refl 1)
      (yields_loose rfl) longest (closes.below 1)
    rw [level_opening (by rfl)] at reads
    simp only [Phrase.tokens, List.cons_append, List.append_assoc, List.nil_append]
    rw [follow_begins (.group opening.property), reads, follow_resumes (.group closing.property)]
    simp only [onto_onto]
    rfl
  | .conditional opening clause, _, _, longest, _ =>
    rw [Phrase.tokens, List.cons_append, follow_begins (.conditional opening.property),
      clause.follow_tokens longest, onto_onto]
    rfl

theorem Links.follow_tokens {family : Family} (links : Links family) {left : Expr}
    {stack : List Frame} {after : List Token} (yields : Yields family.symbol.strength stack)
    (longest : links.Longest after) (below : Below family.symbol.strength after) :
    follow ⟨.complete left, stack⟩ (links.tokens ++ after) =
      onto (links.readings (level stack)) (follow ⟨.complete (links.expr left), stack⟩ after) := by
  match links, longest with
  | .nothing, _ => rfl
  | .link operator own sign operand rest, longest =>
    obtain ⟨inner, linked⟩ := longest
    have equal := strength_of_mem own
    have weaker := symbol_strength_lt_operand family
    have behind := below_links rest below
    have holds : Yields family.operand.strength (.operation left operator :: stack) :=
      yields_cons.mpr (Nat.lt_of_le_of_lt (Nat.le_of_eq equal) weaker)
    have reads := operand.follow_tokens operator.goal (.operation left operator :: stack)
      (goalStrength_le_operand own) holds inner (behind.mono weaker)
    rw [level_operation] at reads
    -- What follows binds no stronger than the operator, so the operation is whole before it.
    have closes : Below (operator.strength + 1) (rest.tokens ++ after) :=
      behind.mono (Nat.succ_le_succ (Nat.le_of_eq equal.symm))
    rw [Links.tokens, List.cons_append, List.append_assoc,
      follow_operator (BinaryOperator.ofKind?_eq_some.mpr sign.property) (equal ▸ yields), reads,
      follow_whole (.operation left operator) rfl closes fun _ _ => rfl,
      rest.follow_tokens yields linked below]
    simp only [onto_onto]
    rfl

theorem Clause.follow_tokens (clause : Clause) {opening : Span} {clauses : List (Expr × Expr)}
    {stack : List Frame} {after : List Token} (longest : clause.Longest after) :
    follow ⟨.awaiting .expression, .condition opening clauses :: stack⟩ (clause.tokens ++ after) =
      onto (clause.readings (level stack))
        (follow ⟨.complete (clause.last.chosen opening (.after clauses clause.branches)), stack⟩
          after) := by
  match clause, longest with
  | .mk condition consequence result rest, longest =>
    obtain ⟨premise, inner, further⟩ := longest
    have plain := unextended_of_kind (result.tokens ++ (rest.tokens ++ after))
      consequence.property rfl
    have tests := condition.follow_tokens .expression (.condition opening clauses :: stack)
      (Nat.le_refl 1) (yields_loose rfl) premise (plain.below 1)
    have chooses := result.follow_tokens .expression
      (.result opening clauses condition.expr :: stack) (Nat.le_refl 1) (yields_loose rfl) inner
      (inner.unextended.below 1)
    rw [level_opening (by rfl)] at tests chooses
    simp only [Clause.tokens, List.append_assoc, List.cons_append]
    rw [tests, follow_resumes (.condition opening clauses consequence.property), chooses,
      rest.follow_tokens further inner.unextended]
    simp only [onto_onto]
    rfl

theorem Clauses.follow_tokens (rest : Clauses) {opening : Span} {clauses : List (Expr × Expr)}
    {premise result : Expr} {stack : List Frame} {after : List Token} (longest : rest.Longest after)
    (unextended : Unextended (rest.tokens ++ after)) :
    follow ⟨.complete result, .result opening clauses premise :: stack⟩ (rest.tokens ++ after) =
      onto (rest.readings (level stack))
        (follow ⟨.complete ((rest.last result).chosen opening
          (.after clauses (.clause premise result rest.branches))), stack⟩ after) := by
  match rest, longest, unextended with
  | .nothing, longest, unextended =>
    exact follow_whole _ rfl (unextended.below _) fun token member =>
      resumed_result_eq_none.mpr (longest token member)
  | .otherwise mark alternative, longest, _ =>
    have reads := alternative.follow_tokens .expression
      (.otherwise opening ((premise, result) :: clauses) :: stack) (Nat.le_refl 1)
      (yields_loose rfl) longest (longest.unextended.below 1)
    rw [level_opening (by rfl)] at reads
    rw [Clauses.tokens, List.cons_append,
      follow_resumes (.otherwise opening clauses premise mark.property), reads,
      follow_whole _ rfl (longest.unextended.below _) fun _ _ => rfl, onto_onto]
    rfl
  | .further mark clause, longest, _ =>
    rw [Clauses.tokens, List.cons_append,
      follow_resumes (.further opening clauses premise mark.property),
      clause.follow_tokens longest, onto_onto]
    rfl

end

theorem Phrase.outcome_tokens {symbol : Symbol} (phrase : Phrase symbol) (goal : Goal)
    (stack : List Frame) {after : List Token} (wide : goalStrength goal ≤ symbol.strength)
    (yields : Yields symbol.strength stack) (longest : phrase.Longest after)
    (below : Below symbol.strength after) :
    outcome ⟨.awaiting goal, stack⟩ (phrase.tokens ++ after) =
      outcome ⟨.complete phrase.expr, stack⟩ after := by
  rw [← follow_snd, phrase.follow_tokens goal stack wide yields longest below, ← follow_snd]
  rfl

end Reckon.Grammar

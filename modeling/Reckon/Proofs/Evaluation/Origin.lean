import Reckon.Proofs.Evaluation.Plain

/-!
Origins. Whatever an evaluation passes on was made in its own context: the values, those read from names
of outer contexts included, and the faults, each with the calls that led to its place.
-/
namespace Reckon

open Evaluation

structure Value.MadeIn (context : Context) (value : Value) : Prop where
  context : value.context = some context
  placed : value.span.isSome

structure Diagnostic.RaisedIn (context : Context) (diagnostic : Diagnostic) : Prop where
  runtime : diagnostic.category = .runtime
  traceback : diagnostic.traceback = context.traceback diagnostic.span.start

namespace Evaluation

def MadeIn (context : Context) (found : Option Value) : Prop :=
  ∀ value ∈ found, value.MadeIn context

variable {α β : Type} {context : Context}

/-- From every store, to a result with the property or to a fault of the context. -/
def Stays (context : Context) (made : α → Prop) (evaluation : Evaluation α) : Prop :=
  ∀ store, match (evaluation.run.run store).1 with
    | .ok result => made result
    | .error diagnostic => diagnostic.RaisedIn context

variable {made : α → Prop} {results : β → Prop}

private theorem Stays.bind {first : Evaluation α} {next : α → Evaluation β}
    (begun : Stays context made first)
    (continued : ∀ value, made value → Stays context results (next value)) :
    Stays context results (first >>= next) := by
  intro store
  have reached := begun store
  rw [run_bind]
  generalize first.run.run store = ended at reached ⊢
  obtain ⟨outcome, between⟩ := ended
  cases outcome with
  | error diagnostic => exact reached
  | ok value => exact continued value reached between

private theorem stays_pure {value : α} (holds : made value) : Stays context made (pure value) := by
  intro store
  exact holds

private theorem stays_fail {fault : Fault} (span : Span) (runtime : fault.category = .runtime) :
    Stays context made (fail context fault span) := by
  intro store
  exact ⟨runtime, rfl⟩

private theorem stays_get : Stays context (fun _ => True) (get : Evaluation Store) := by
  intro store
  trivial

private theorem stays_modify (change : Store → Store) :
    Stays context (fun _ => True) (modify change : Evaluation PUnit) := by
  intro store
  trivial

private theorem stays_required (part : Expr) {found : Option Value}
    (holds : MadeIn context found) :
    Stays context (Value.MadeIn context) (required context part found) := by
  cases found with
  | none => exact stays_fail part.span rfl
  | some value => exact stays_pure (holds value rfl)

/-- The fault of a division belongs to the context of the dividend, which is the evaluating one. -/
private theorem stays_operate (operator : BinaryOperator) {left : Value} (right : Value)
    (span : Span) (holds : left.MadeIn context) :
    Stays context (fun _ => True) (operate context operator left right span) := by
  unfold operate
  split
  · rw [holds.context, Option.getD_some]
    exact stays_fail _ rfl
  · exact stays_pure trivial

private theorem stays_part (part : Expr) {evaluation : Evaluation (Option Value)}
    (begun : Stays context (MadeIn context) evaluation)
    {next : Value → Evaluation β}
    (continued : ∀ value, value.MadeIn context → Stays context results (next value)) :
    Stays context results (evaluation >>= fun found => required context part found >>= next) := by
  apply begun.bind
  intro found holds
  exact (stays_required part holds).bind continued

/-- A value that is stamped with its place and its context. -/
private theorem stays_value (number : Float) (span : Span) :
    Stays context (MadeIn context)
      (pure (some ⟨number, some span, some context⟩)) := by
  apply stays_pure
  intro value member
  cases member
  exact ⟨rfl, rfl⟩

end Evaluation

mutual

theorem Expr.evaluate_stays (context : Context) (limit level : Nat) (expr : Expr) :
    Stays context (MadeIn context)
      (expr.evaluate context limit level) := by
  rw [Expr.evaluate.eq_def]
  split
  · exact stays_fail expr.span rfl
  · cases expr with
    | number value span => exact stays_value value span
    | «variable» name span =>
      -- The value in the table may have come from anywhere; it is stamped anew.
      apply stays_get.bind
      intro store _
      cases context.lookup store name with
      | none => exact stays_fail span rfl
      | some value => exact stays_value value.number span
    | assign name operand span =>
      apply stays_part operand (operand.evaluate_stays context limit (level + 1))
      intro value holds
      apply (stays_modify _).bind
      intro _ _
      apply stays_pure
      intro result member
      cases member
      exact ⟨holds.context, rfl⟩
    | unary operator operand span =>
      apply stays_part operand (operand.evaluate_stays context limit (level + 1))
      intro value _
      exact stays_value (operator.apply value.number) span
    | binary left operator right span =>
      apply stays_part left (left.evaluate_stays context limit _)
      intro first holds
      apply stays_part right (right.evaluate_stays context limit (level + 1))
      intro second _
      apply (stays_operate operator second right.span holds).bind
      intro number _
      exact stays_value number span
    | conditional branches span => exact branches.evaluate_stays context limit (level + 1)

theorem Branches.evaluate_stays (context : Context) (limit level : Nat) (branches : Branches) :
    Stays context (MadeIn context)
      (branches.evaluate context limit level) := by
  cases branches with
  | nothing => exact stays_pure nofun
  | otherwise result => exact result.evaluate_stays context limit level
  | clause condition result rest =>
    rw [Branches.evaluate]
    apply stays_part condition (condition.evaluate_stays context limit level)
    intro value _
    split
    · exact result.evaluate_stays context limit level
    · exact rest.evaluate_stays context limit level

end

theorem Expr.raised_of_run {expr : Expr} {context : Context} {limit : Nat} {store : Store}
    {diagnostic : Diagnostic} (failed : (expr.run context limit store).1 = .error diagnostic) :
    diagnostic.RaisedIn context := by
  have reached := expr.evaluate_stays context limit 1 store
  rw [Expr.run] at failed
  rw [failed] at reached
  exact reached

end Reckon

import Reckon.Proofs.Alike
import Reckon.Proofs.Evaluation.Plain
import Reckon.Proofs.Store.Forest

/-!
Evaluation of expressions that are alike, in contexts that bind the same numbers: it comes to values,
absences or diagnostics that are alike, and the contexts bind the same numbers again.
-/
namespace Reckon

open Evaluation

/-- Every name has the same number in both contexts, or none in either. -/
structure Agree (context context' : Context) (store store' : Store) : Prop where
  present : context.table < store.tables.length
  present' : context'.table < store'.tables.length
  number : ∀ name, (context.lookup store name).map Value.number =
    (context'.lookup store' name).map Value.number

section

variable {context context' : Context}

private theorem Agree.assign {store store' : Store} (agree : Agree context context' store store')
    (name : String) {value value' : Value} (same : value.number = value'.number) :
    Agree context context' (context.assign store name value)
      (context'.assign store' name value') where
  present := (Store.length_set ..).symm ▸ agree.present
  present' := (Store.length_set ..).symm ▸ agree.present'
  number other := by
    rw [context.lookup_assign _ _ _ agree.present, context'.lookup_assign _ _ _ agree.present']
    split
    · exact congrArg some same
    · exact agree.number other

variable (related : Span → Span → Prop) {α α' β β' : Type}

/-- From stores that agree to outcomes that are alike and stores that agree. -/
def Parallel (context context' : Context) (successes : α → α' → Prop) (first : Evaluation α)
    (second : Evaluation α') : Prop :=
  ∀ store store', Agree context context' store store' →
    Paired (Diagnostic.Alike related) successes (first.run.run store).1 (second.run.run store').1 ∧
      Agree context context' (first.run.run store).2 (second.run.run store').2

variable {related} {successes : α → α' → Prop} {results : β → β' → Prop}

private theorem Parallel.bind {first : Evaluation α} {second : Evaluation α'}
    {next : α → Evaluation β}
    {later : α' → Evaluation β'} (begun : Parallel related context context' successes first second)
    (continued : ∀ value value', successes value value' →
      Parallel related context context' results (next value) (later value')) :
    Parallel related context context' results (first >>= next) (second >>= later) := by
  intro store store' agree
  rw [run_bind, run_bind]
  obtain ⟨outcomes, between⟩ := begun store store' agree
  generalize first.run.run store = reached at outcomes between ⊢
  generalize second.run.run store' = reached' at outcomes between ⊢
  obtain ⟨outcome, left⟩ := reached
  obtain ⟨outcome', left'⟩ := reached'
  cases outcomes with
  | error alike => exact ⟨.error alike, between⟩
  | ok alike => exact continued _ _ alike left left' between

private theorem run_get (store : Store) :
    (get : Evaluation Store).run.run store = (.ok store, store) := rfl

private theorem parallel_pure {value : α} {value' : α'} (alike : successes value value') :
    Parallel related context context' successes (pure value) (pure value') :=
  fun _ _ agree => ⟨.ok alike, agree⟩

private theorem parallel_fail (outer outer' : Context) (fault : Fault) {span span' : Span}
    (place : related span span') :
    Parallel related context context' successes (fail outer fault span) (fail outer' fault span') :=
  fun _ _ agree => ⟨.error ⟨rfl, place⟩, agree⟩

private theorem parallel_required {part part' : Expr} (alike : part.Alike related part')
    {value value' : Option Value} (found : Option.Rel (Value.Alike related) value value') :
    Parallel related context context' (Value.Alike related) (required context part value)
      (required context' part' value') := by
  cases found with
  | some same => exact parallel_pure same
  | none => exact parallel_fail context context' .noValue alike.span

private theorem parallel_operate (operator : BinaryOperator) {left left' right right' : Value}
    (first : left.Alike related left') (second : right.Alike related right') {span span' : Span}
    (place : related span span') :
    Parallel related context context' Eq (operate context operator left right span)
      (operate context' operator left' right' span') := by
  -- A division by zero is reported where the divisor's value was made, or else where the divisor stands.
  have reported : related (right.span.getD span) (right'.span.getD span') := by
    have spans := second.span
    generalize right.span = found at spans ⊢
    generalize right'.span = found' at spans ⊢
    cases spans with
    | some known => exact known
    | none => exact place
  unfold operate
  rw [← first.number, ← second.number]
  split
  · exact parallel_fail _ _ .divisionByZero reported
  · exact parallel_pure rfl

private theorem parallel_part {part part' : Expr} (alike : part.Alike related part')
    {first second : Evaluation (Option Value)}
    (begun : Parallel related context context' (Option.Rel (Value.Alike related)) first second)
    {next : Value → Evaluation β} {later : Value → Evaluation β'}
    (continued : ∀ value value', value.Alike related value' →
      Parallel related context context' results (next value) (later value')) :
    Parallel related context context' results
      (first >>= fun found => required context part found >>= next)
      (second >>= fun found => required context' part' found >>= later) :=
  begun.bind fun _ _ found => (parallel_required alike found).bind continued

end

mutual

theorem Expr.Alike.evaluate {related : Span → Span → Prop} {context context' : Context}
    (limit level : Nat) {expr expr' : Expr} (alike : expr.Alike related expr') :
    Parallel related context context' (Option.Rel (Value.Alike related))
      (expr.evaluate context limit level) (expr'.evaluate context' limit level) := by
  rw [Expr.evaluate.eq_def, Expr.evaluate.eq_def context']
  split
  · exact parallel_fail context context' (.evaluationTooDeep limit) alike.span
  · cases alike with
    | number value place => exact parallel_pure (.some ⟨rfl, .some place⟩)
    | «variable» name place =>
      intro store store' agree
      have same := agree.number name
      simp only [run_bind, run_get]
      generalize context.lookup store name = found at same ⊢
      generalize context'.lookup store' name = found' at same ⊢
      cases found with
      | none =>
        cases found' with
        | none => exact parallel_fail context context' (.undefinedVariable name) place store store' agree
        | some value' => cases same
      | some value =>
        cases found' with
        | none => cases same
        | some value' => exact ⟨.ok (.some ⟨Option.some.inj same, .some place⟩), agree⟩
    | assign name inner place =>
      refine parallel_part inner (inner.evaluate limit (level + 1)) fun value value' same => ?_
      intro store store' agree
      exact ⟨.ok (.some ⟨same.number, .some place⟩), agree.assign name same.number⟩
    | unary operator inner place =>
      refine parallel_part inner (inner.evaluate limit (level + 1)) fun value value' same => ?_
      exact parallel_pure (.some ⟨congrArg (operator.apply ·) same.number, .some place⟩)
    | binary operator first second place =>
      dsimp only
      rw [← first.isBinary]
      refine parallel_part first (first.evaluate limit _) fun left left' same => ?_
      refine parallel_part second (second.evaluate limit (level + 1)) fun right right' same' => ?_
      refine (parallel_operate operator same same' second.span).bind fun number number' equal => ?_
      exact parallel_pure (.some ⟨equal, .some place⟩)
    | conditional inner place => exact inner.evaluate limit (level + 1)

theorem Branches.Alike.evaluate {related : Span → Span → Prop} {context context' : Context}
    (limit level : Nat) {branches branches' : Branches} (alike : branches.Alike related branches') :
    Parallel related context context' (Option.Rel (Value.Alike related))
      (branches.evaluate context limit level) (branches'.evaluate context' limit level) := by
  cases alike with
  | nothing => exact parallel_pure .none
  | otherwise last => exact last.evaluate limit level
  | clause test chosen later =>
    rw [Branches.evaluate, Branches.evaluate]
    refine parallel_part test (test.evaluate limit level) fun value value' same => ?_
    rw [Value.isTruthy, Value.isTruthy, ← same.number]
    split
    · exact chosen.evaluate limit level
    · exact later.evaluate limit level

end

end Reckon

import Reckon.Proofs.Evaluation.Origin
import Reckon.Proofs.Store.History

/-!
Tracebacks. A value belongs to the context that it was made in, a value read from a name of an outer one
included, and a fault shows the way to that context from the outermost one: each context on it where the
next was entered, and the last at the fault.
-/
namespace Reckon

open Evaluation

namespace Context

/-- The contexts from the outermost one to this one. -/
def path (context : Context) : List Context :=
  context.lineage.reverse

def entry? : Context → Option Position
  | .root _ _ => none
  | .child _ _ entry _ => some entry

/-- The places on the way to a context, where the last one is given. -/
def places (context : Context) (last : Position) : List (Option Position) :=
  context.path.tail.map entry? ++ [some last]

private theorem path_child (parent : Context) (label : String) (entry : Position) (table : Nat) :
    (child parent label entry table).path = parent.path ++ [child parent label entry table] := by
  simp only [path, lineage, List.reverse_cons]

private theorem path_ne_nil (context : Context) : context.path ≠ [] := by
  cases context <;> simp [path, lineage]

private theorem places_child (parent : Context) (label : String) (entry last : Position)
    (table : Nat) :
    (child parent label entry table).places last = parent.places entry ++ [some last] := by
  simp only [places, path_child, List.tail_append_of_ne_nil parent.path_ne_nil, List.map_append,
    List.map_cons, List.map_nil, entry?]

private theorem label_traceback (context : Context) (position : Position) :
    (context.traceback position).map Call.label = context.path.map label := by
  induction context generalizing position with
  | root => rfl
  | child parent name entry table ih =>
    rw [traceback, path_child, List.map_append, List.map_append, ih]
    rfl

private theorem position_traceback (context : Context) (position : Position) :
    (context.traceback position).map Call.position = context.places position := by
  induction context generalizing position with
  | root => rfl
  | child parent name entry table ih =>
    rw [traceback, places_child, List.map_append, ih]
    rfl

end Context

private theorem operate_divide_zero {context : Context} {dividend divisor : Value} (span : Span)
    (made : dividend.MadeIn context) (zero : divisor.number == 0.0) :
    let place := divisor.span.getD span
    operate context .divide dividend divisor span =
      throw ⟨.divisionByZero, place, context.traceback place.start, none, none⟩ := by
  rw [operate, if_pos ⟨rfl, zero⟩, made.context, Option.getD_some]
  rfl

/-- At whatever level, whatever is bound and however deep the context lies. -/
theorem evaluation_belongs_to_context (expr : Expr) (context : Context) (limit level : Nat)
    (store : Store) :
    (∀ value, ((expr.evaluate context limit level).run.run store).1 = .ok (some value) →
      value.context = some context ∧ value.span.isSome ∧
      ∀ (divisor : Value) (span : Span), divisor.number == 0.0 →
        let place := divisor.span.getD span
        operate context .divide value divisor span =
          throw ⟨.divisionByZero, place, context.traceback place.start, none, none⟩) ∧
    ∀ diagnostic, ((expr.evaluate context limit level).run.run store).1 = .error diagnostic →
      diagnostic.category = .runtime ∧
      diagnostic.traceback.map Call.label = context.path.map Context.label ∧
      diagnostic.traceback.map Call.position = context.places diagnostic.span.start := by
  have reached := expr.evaluate_stays context limit level store
  constructor
  · intro value returned
    rw [returned] at reached
    have made : value.MadeIn context := reached value rfl
    exact ⟨made.context, made.placed, fun _ span zero => operate_divide_zero span made zero⟩
  · intro diagnostic failed
    rw [failed] at reached
    obtain ⟨runtime, traceback⟩ := reached
    rw [traceback]
    exact ⟨runtime, context.label_traceback _, context.position_traceback _⟩

/-- The dividend is bound two contexts further out. -/
theorem quotient_belongs_to_inner :
    let outer : Context := .root "program" 0
    let middle : Context := .child outer "middle" ⟨3, 1, 4⟩ 1
    let inner : Context := .child middle "inner" ⟨20, 2, 8⟩ 2
    let store : Store := outer.assign ⟨[.empty, .empty, .empty]⟩ "x" (.ofNumber 6.0)
    let dividend : Expr := .variable "x" ⟨⟨30, 3, 1⟩, ⟨31, 3, 2⟩⟩
    let divisor : Value := ⟨0.0, none, none⟩
    let span : Span := ⟨⟨34, 3, 5⟩, ⟨35, 3, 6⟩⟩
    let quotient : Expr := .binary dividend .divide (.number 0.0 span) ⟨⟨30, 3, 1⟩, ⟨35, 3, 6⟩⟩
    let calls : List Call :=
      [⟨"program", some ⟨3, 1, 4⟩⟩, ⟨"middle", some ⟨20, 2, 8⟩⟩, ⟨"inner", some ⟨34, 3, 5⟩⟩]
    let report : Diagnostic := .of .divisionByZero span calls
    (∃ value, ((dividend.evaluate inner 2 2).run.run store).1 = .ok (some value) ∧
      divisor.number == 0.0 ∧ value.context = some inner ∧
      operate inner .divide value divisor span =
        throw ⟨.divisionByZero, span, inner.traceback span.start, none, none⟩) ∧
    ((quotient.evaluate inner 2 1).run.run store).1 = .error report ∧
      calls.map Call.label = inner.path.map Context.label ∧
      calls.map Call.position = inner.places span.start := by
  intro outer middle inner store dividend divisor span quotient calls report
  have returned : ((dividend.evaluate inner 2 2).run.run store).1 =
      .ok (some ⟨6.0, some dividend.span, some inner⟩) := rfl
  have zero : divisor.number == 0.0 := by decide
  have failed : ((quotient.evaluate inner 2 1).run.run store).1 = .error report := by
    -- The zero is decided only where no name of the statement stands for it.
    subst report calls quotient divisor span dividend store inner middle outer
    rfl
  obtain ⟨belongs, _, divides⟩ :=
    (evaluation_belongs_to_context dividend inner 2 2 store).1 _ returned
  have shown := (evaluation_belongs_to_context quotient inner 2 1 store).2 report failed
  exact ⟨⟨_, returned, zero, belongs, divides divisor span zero⟩, failed, shown.2⟩

end Reckon

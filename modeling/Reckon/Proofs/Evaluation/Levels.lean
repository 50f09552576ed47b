import Reckon.Proofs.Evaluation.Plain

/-!
Levels of evaluation, read off the shape of the tree. An expression that has room for its levels below
the limit is evaluated without using them up, whatever is bound and whichever branches are taken.
-/
namespace Reckon

open Evaluation

mutual

/-- As many levels as the evaluation can come to, its own one included; a chain of operators has one
level for itself and those of its deepest operand. -/
def Expr.levels : Expr → Nat
  | .number _ _ | .variable _ _ => 1
  | .assign _ operand _ | .unary _ operand _ => operand.levels + 1
  | .binary left _ right _ =>
    max (if left.isBinary then left.levels else left.levels + 1) (right.levels + 1)
  | .conditional branches _ => branches.levels + 1

def Branches.levels : Branches → Nat
  | .nothing => 0
  | .otherwise result => result.levels
  | .clause condition result rest => max condition.levels (max result.levels rest.levels)

end

namespace Evaluation

variable {α β : Type}

def Fails (fault : Fault) (outcome : Except Diagnostic α) : Prop :=
  ∃ diagnostic, outcome = .error diagnostic ∧ diagnostic.fault = fault

theorem fails_bind {first : Evaluation α} {next : α → Evaluation β} {store : Store} {fault : Fault}
    (failed : Fails fault (first.run.run store).1) :
    Fails fault ((first >>= next).run.run store).1 := by
  obtain ⟨diagnostic, outcome, same⟩ := failed
  rw [run_bind]
  generalize first.run.run store = reached at outcome ⊢
  obtain ⟨_, later⟩ := reached
  cases outcome
  exact ⟨diagnostic, rfl, same⟩

/-- The levels are used up from no store. -/
def Endures (evaluation : Evaluation α) : Prop :=
  ∀ store, ¬ Exhausted (evaluation.run.run store).1

private theorem Endures.bind {first : Evaluation α} {next : α → Evaluation β}
    (begun : Endures first)
    (continued : ∀ value, Endures (next value)) : Endures (first >>= next) := by
  intro store
  have finished := begun store
  rw [run_bind]
  generalize first.run.run store = reached at finished ⊢
  obtain ⟨outcome, between⟩ := reached
  cases outcome with
  | ok value => exact continued value between
  | error diagnostic =>
    rintro ⟨_, limit, ⟨⟩, deep⟩
    exact finished ⟨diagnostic, limit, rfl, deep⟩

private theorem endures_pure (value : α) : Endures (pure value) := by
  rintro store ⟨_, _, ⟨⟩, _⟩

private theorem endures_fail (context : Context) {fault : Fault} (span : Span)
    (other : ∀ limit, fault ≠ .evaluationTooDeep limit) :
    Endures (fail context fault span : Evaluation α) := by
  rintro store ⟨_, limit, ⟨⟩, deep⟩
  exact other limit deep

private theorem endures_required (context : Context) (part : Expr) (value : Option Value) :
    Endures (required context part value) := by
  cases value with
  | none => exact endures_fail context part.span nofun
  | some value => exact endures_pure value

private theorem endures_operate (context : Context) (operator : BinaryOperator) (left right : Value)
    (span : Span) : Endures (operate context operator left right span) := by
  unfold operate
  split
  · exact endures_fail _ _ nofun
  · exact endures_pure _

private theorem endures_modify (change : Store → Store) :
    Endures (modify change : Evaluation PUnit) := by
  rintro store ⟨_, _, ⟨⟩, _⟩

end Evaluation

mutual

theorem Expr.endures (context : Context) {limit level : Nat} (expr : Expr)
    (room : level + expr.levels ≤ limit + 1) : Endures (expr.evaluate context limit level) := by
  rw [Expr.evaluate.eq_def]
  cases expr with
  | number value span =>
    rw [Expr.levels] at room
    rw [if_neg (by omega)]
    exact endures_pure _
  | «variable» name span =>
    rw [Expr.levels] at room
    rw [if_neg (by omega)]
    refine Endures.bind (fun store => ?_) fun store => ?_
    · rintro ⟨_, _, ⟨⟩, _⟩
    · split
      · exact endures_pure _
      · exact endures_fail _ _ nofun
  | assign name operand span =>
    rw [Expr.levels] at room
    rw [if_neg (by omega)]
    refine (operand.endures context (by omega)).bind fun _ => ?_
    refine (endures_required context operand _).bind fun value => ?_
    exact (endures_modify _).bind fun _ => endures_pure _
  | unary operator operand span =>
    rw [Expr.levels] at room
    rw [if_neg (by omega)]
    refine (operand.endures context (by omega)).bind fun _ => ?_
    exact (endures_required context operand _).bind fun _ => endures_pure _
  | binary left operator right span =>
    rw [Expr.levels] at room
    rw [if_neg (by omega)]
    -- A chain goes on at its own level, any other left operand stands one level below.
    have inner : (if left.isBinary then level else level + 1) + left.levels ≤ limit + 1 := by
      cases shape : left.isBinary with
      | true =>
        simp only [shape, if_true] at room ⊢
        omega
      | false =>
        simp only [shape, Bool.false_eq_true, if_false] at room ⊢
        omega
    refine (left.endures context inner).bind fun _ => ?_
    refine (endures_required context left _).bind fun first => ?_
    refine (right.endures context (by omega)).bind fun _ => ?_
    refine (endures_required context right _).bind fun second => ?_
    exact (endures_operate context operator first second _).bind fun _ => endures_pure _
  | conditional branches span =>
    rw [Expr.levels] at room
    rw [if_neg (by omega)]
    exact branches.endures context (by omega)

theorem Branches.endures (context : Context) {limit level : Nat} (branches : Branches)
    (room : level + branches.levels ≤ limit + 1) :
    Endures (branches.evaluate context limit level) := by
  cases branches with
  | nothing => exact endures_pure _
  | otherwise result => exact result.endures context room
  | clause condition result rest =>
    rw [Branches.levels] at room
    rw [Branches.evaluate]
    refine (condition.endures context (by omega)).bind fun _ => ?_
    refine (endures_required context condition _).bind fun value => ?_
    split
    · exact result.endures context (by omega)
    · exact rest.endures context (by omega)

end

end Reckon

import Reckon.Proofs.Evaluation.Visits

/-!
One interpreter for many evaluations. It counts the levels that are open: one more before a node and one
less behind it, whether the node has come to a value or not. So the count is the level of the node, and
every evaluation starts from the first one again.
-/
namespace Reckon

open Evaluation

structure Running where
  depth : Nat
  store : Store

abbrev Counting (α : Type) := ExceptT Diagnostic (StateM Running) α

namespace Counting

variable {α β : Type}

/-- What opens no level. -/
def plainly (evaluation : Evaluation α) : Counting α := ExceptT.mk fun running =>
  let (outcome, store) := evaluation.run.run running.store
  (outcome, { running with store := store })

/-- The count goes down again behind a failure as well. -/
def entered (limit : Nat) (context : Context) (node : Expr) (visit : Counting α) : Counting α :=
  ExceptT.mk fun running =>
    if limit ≤ running.depth then
      (plainly (fail context (.evaluationTooDeep limit) node.span)).run.run running
    else
      let (outcome, later) := visit.run.run { running with depth := running.depth + 1 }
      (outcome, { later with depth := later.depth - 1 })

end Counting

open Counting

mutual

/-- What a node does once its level is open. Operations along the left operands of an operation open
none. -/
def Expr.visit (limit : Nat) (context : Context) : Expr → Counting (Option Value)
  | .number value span => plainly (pure (some ⟨value, span, context⟩))
  | .variable name span => plainly do
    match context.lookup (← get) name with
    | some value => pure (some ((value.withSpan span).withContext context))
    | none => fail context (.undefinedVariable name) span
  | .assign name operand span => do
    let found ← entered limit context operand (operand.visit limit context)
    let value ← plainly (required context operand found)
    plainly do
      modify fun store => context.assign store name value
      pure (some (value.withSpan span))
  | .unary operator operand span => do
    let found ← entered limit context operand (operand.visit limit context)
    plainly do
      let value ← required context operand found
      pure (some ⟨operator.apply value.number, span, context⟩)
  | .binary left operator right span => do
    let leading :=
      if left.isBinary then left.visit limit context
      else entered limit context left (left.visit limit context)
    let first ← plainly (required context left (← leading))
    let found ← entered limit context right (right.visit limit context)
    plainly do
      let second ← required context right found
      let number ← operate context operator first second right.span
      pure (some ⟨number, span, context⟩)
  | .conditional branches _ => branches.visit limit context

def Branches.visit (limit : Nat) (context : Context) : Branches → Counting (Option Value)
  | .nothing => plainly (pure none)
  | .otherwise result => entered limit context result (result.visit limit context)
  | .clause condition result rest => do
    let found ← entered limit context condition (condition.visit limit context)
    let value ← plainly (required context condition found)
    if value.isTruthy then entered limit context result (result.visit limit context)
    else rest.visit limit context

end

namespace Counting

variable {α β : Type}

/-- With so many levels open, the count is kept and all else is as without one. -/
def Agrees (depth : Nat) (counting : Counting α) (evaluation : Evaluation α) : Prop :=
  ∀ store, counting.run.run ⟨depth, store⟩ =
    ((evaluation.run.run store).1, ⟨depth, (evaluation.run.run store).2⟩)

private theorem agrees_plainly (depth : Nat) (evaluation : Evaluation α) :
    Agrees depth (plainly evaluation) evaluation :=
  fun _ => rfl

private theorem Agrees.bind {depth : Nat} {first : Counting α} {second : Evaluation α}
    {next : α → Counting β} {later : α → Evaluation β} (begun : Agrees depth first second)
    (continued : ∀ value, Agrees depth (next value) (later value)) :
    Agrees depth (first >>= next) (second >>= later) := by
  intro store
  rw [run_bind, ExceptT.run_bind, StateT.run_bind, begun store]
  rcases second.run.run store with ⟨outcome, between⟩
  cases outcome with
  | ok value => exact continued value between
  | error diagnostic => rfl

private theorem run_entered (limit : Nat) (context : Context) (node : Expr) (visit : Counting α)
    (depth : Nat) (store : Store) :
    (entered limit context node visit).run.run ⟨depth, store⟩ =
      if limit ≤ depth then
        (plainly (fail context (.evaluationTooDeep limit) node.span)).run.run ⟨depth, store⟩
      else
        ((visit.run.run ⟨depth + 1, store⟩).1, { (visit.run.run ⟨depth + 1, store⟩).2 with
          depth := (visit.run.run ⟨depth + 1, store⟩).2.depth - 1 }) :=
  rfl

/-- Before a node the level that it is evaluated at is not open yet. -/
private theorem agrees_entered {limit depth : Nat} {context : Context} {node : Expr}
    (visited : depth + 1 ≤ limit → Agrees (depth + 1) (node.visit limit context)
      (node.evaluate context limit (depth + 1))) :
    Agrees depth (entered limit context node (node.visit limit context))
      (node.evaluate context limit (depth + 1)) := by
  intro store
  rw [run_entered]
  by_cases full : limit ≤ depth
  · rw [if_pos full, Expr.evaluate.eq_def, if_pos (Nat.lt_succ_of_le full)]
    rfl
  · rw [if_neg full, visited (Nat.lt_of_not_le full) store]
    rfl

end Counting

mutual

private theorem Expr.visit_agrees (limit : Nat) (context : Context) {level : Nat}
    (room : level ≤ limit) (expr : Expr) :
    Agrees level (expr.visit limit context) (expr.evaluate context limit level) := by
  rw [Expr.evaluate.eq_def, if_neg (Nat.not_lt.mpr room)]
  cases expr with
  | number value span => exact agrees_plainly level _
  | «variable» name span => exact agrees_plainly level _
  | assign name operand span =>
    refine (agrees_entered fun inner => operand.visit_agrees limit context inner).bind fun found => ?_
    exact (agrees_plainly level _).bind fun _ => agrees_plainly level _
  | unary operator operand span =>
    refine (agrees_entered fun inner => operand.visit_agrees limit context inner).bind fun found => ?_
    exact agrees_plainly level _
  | binary left operator right span =>
    -- An operation on the left is visited on the level that is open already.
    have begun : Agrees level
        (if left.isBinary then left.visit limit context
          else entered limit context left (left.visit limit context))
        (left.evaluate context limit (if left.isBinary then level else level + 1)) := by
      cases left.isBinary with
      | true => exact left.visit_agrees limit context room
      | false => exact agrees_entered fun inner => left.visit_agrees limit context inner
    refine begun.bind fun found => (agrees_plainly level _).bind fun first => ?_
    refine (agrees_entered fun inner => right.visit_agrees limit context inner).bind fun found => ?_
    exact agrees_plainly level _
  | conditional branches span => exact branches.visit_agrees limit context level

private theorem Branches.visit_agrees (limit : Nat) (context : Context) (level : Nat)
    (branches : Branches) :
    Agrees level (branches.visit limit context) (branches.evaluate context limit (level + 1)) := by
  cases branches with
  | nothing => exact agrees_plainly level _
  | otherwise result => exact agrees_entered fun inner => result.visit_agrees limit context inner
  | clause condition result rest =>
    refine (agrees_entered fun inner => condition.visit_agrees limit context inner).bind fun found => ?_
    refine (agrees_plainly level _).bind fun value => ?_
    split
    · exact agrees_entered fun inner => result.visit_agrees limit context inner
    · exact rest.visit_agrees limit context level

end

structure Interpreter where
  limit : Nat
  depth : Nat

namespace Interpreter

/-- One evaluation that is asked for, with all that is bound at that time. -/
structure Request where
  expr : Expr
  context : Context
  store : Store

def fresh (limit : Nat) : Interpreter := ⟨limit, 0⟩

def evaluate (interpreter : Interpreter) (request : Request) :
    (Except Diagnostic (Option Value) × Store) × Interpreter :=
  let (outcome, running) :=
    (entered interpreter.limit request.context request.expr
      (request.expr.visit interpreter.limit request.context)).run.run
        ⟨interpreter.depth, request.store⟩
  ((outcome, running.store), { interpreter with depth := running.depth })

def after (interpreter : Interpreter) (requests : List Request) : Interpreter :=
  requests.foldl (fun reached request => (reached.evaluate request).2) interpreter

private theorem evaluate_eq (interpreter : Interpreter) (request : Request) :
    interpreter.evaluate request =
      ((request.expr.evaluate request.context interpreter.limit (interpreter.depth + 1)).run.run
        request.store, interpreter) := by
  have agrees : Agrees interpreter.depth
      (entered interpreter.limit request.context request.expr
        (request.expr.visit interpreter.limit request.context))
      (request.expr.evaluate request.context interpreter.limit (interpreter.depth + 1)) :=
    agrees_entered fun room => request.expr.visit_agrees _ _ room
  rw [evaluate, agrees request.store]
  rfl

private theorem after_eq (interpreter : Interpreter) (requests : List Request) :
    interpreter.after requests = interpreter := by
  induction requests with
  | nil => rfl
  | cons request requests ih => rw [after, List.foldl_cons, evaluate_eq]; exact ih

/-- Whatever an interpreter has evaluated before, one evaluation ends at the first node that the one without
a limit reaches beyond it, with all that is bound by then. -/
theorem evaluation_limit_exact (limit : Nat) (earlier : List Request) (request : Request) :
    let visits := request.expr.visits request.context 1 request.store
    let unlimited := (request.expr.plain request.context).run.run request.store
    let answer (limit : Nat) := (((fresh limit).after earlier).evaluate request).1
    answer limit = request.expr.run request.context limit request.store ∧
    answer limit = curtailed request.context limit visits unlimited ∧
    (Fails (.evaluationTooDeep limit) (answer limit).1 ↔ ∃ visit ∈ visits, limit < visit.level) ∧
    (¬ Fails (.evaluationTooDeep limit) (answer limit).1 →
      answer limit = unlimited ∧ ∀ larger, limit ≤ larger → answer larger = answer limit) := by
  intro visits unlimited answer
  have answered (limit : Nat) :
      answer limit = request.expr.run request.context limit request.store := by
    simp only [answer, after_eq, evaluate_eq]
    rfl
  have exact (limit : Nat) : answer limit = curtailed request.context limit visits unlimited :=
    (answered limit).trans (request.expr.run_eq_curtailed request.context limit request.store)
  have finished := request.expr.plain_endures request.context request.store
  refine ⟨answered limit, exact limit, exact limit ▸ fails_curtailed finished, fun whole => ?_⟩
  rw [exact limit] at whole
  have same (larger : Nat) (more : limit ≤ larger) : answer larger = unlimited :=
    (exact larger).trans (curtailed_of_whole more whole)
  exact ⟨same limit (Nat.le_refl _),
    fun larger more => (same larger more).trans (same limit (Nat.le_refl _)).symm⟩

/-- Asked again, an interpreter fails at the same operand, and the assignment before it is made. -/
theorem evaluation_limit_of_second_operand :
    let name : Expr := .variable "x" (.point ⟨11, 1, 12⟩)
    let assigned : Expr := .assign "y" (.variable "x" default) default
    let signed : Expr := .unary .minus (.unary .minus name default) default
    let bound : Bindings := Bindings.empty.set "x" (.ofNumber 1.0)
    let request : Request := ⟨.binary assigned .add signed default, .root "program" 0, ⟨[bound]⟩⟩
    let answer := (((fresh 3).after [request]).evaluate request).1
    Fails (.evaluationTooDeep 3) answer.1 ∧
      answer = (.error (.of (.evaluationTooDeep 3) (.point ⟨11, 1, 12⟩)
        [⟨"program", some ⟨11, 1, 12⟩⟩]), ⟨[bound.set "y" (.ofNumber 1.0)]⟩) := by
  intro name assigned signed bound request answer
  obtain ⟨-, curtailed, deep, -⟩ := evaluation_limit_exact 3 [request] request
  have reached : (request.expr.visits request.context 1 request.store).find? (3 < ·.level) =
      some ⟨4, name, ⟨[bound.set "y" (.ofNumber 1.0)]⟩⟩ := rfl
  have member := List.mem_of_find?_eq_some reached
  exact ⟨deep.mpr ⟨_, member, by decide⟩, curtailed.trans rfl⟩

end Interpreter

end Reckon

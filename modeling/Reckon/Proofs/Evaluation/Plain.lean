import Reckon.Session

/-!
Evaluation without levels, read off the shape of the tree, with every fault it can end in. Evaluation
under a limit runs along chains of operators; where its levels suffice it agrees with the plain one in
outcome and store.
-/
namespace Reckon

open Evaluation

/-- The report on a part that has no value where one is needed: it lies on the part. -/
def Context.absent (context : Context) (part : Expr) : Diagnostic :=
  ⟨.noValue, part.span, context.traceback part.span.start, none, none⟩

mutual

/-- An operation is its left operand, then its right one, then the operator; nothing is limited. -/
def Expr.plain (context : Context) : Expr → Evaluation (Option Value)
  | .number value span => pure (some ⟨value, span, context⟩)
  | .variable name span => do
    match context.lookup (← get) name with
    | some value => pure (some ⟨value.number, span, context⟩)
    | none => throw ⟨.undefinedVariable name, span, context.traceback span.start, none, none⟩
  | .assign name operand span => do
    let some value ← operand.plain context | throw (context.absent operand)
    modify fun store => context.assign store name value
    pure (some ⟨value.number, span, value.context⟩)
  | .unary operator operand span => do
    let some value ← operand.plain context | throw (context.absent operand)
    pure (some ⟨operator.apply value.number, span, context⟩)
  | .binary left operator right span => do
    let some first ← left.plain context | throw (context.absent left)
    let some second ← right.plain context | throw (context.absent right)
    -- A division by zero lies where the divisor was made and belongs to the context of the dividend.
    if operator = .divide ∧ second.number == 0.0 then
      let divisor := second.span.getD right.span
      throw ⟨.divisionByZero, divisor, (first.context.getD context).traceback divisor.start, none, none⟩
    else pure (some ⟨operator.apply first.number second.number, span, context⟩)
  | .conditional branches _ => branches.plain context

def Branches.plain (context : Context) : Branches → Evaluation (Option Value)
  | .nothing => pure none
  | .otherwise result => result.plain context
  | .clause condition result rest => do
    let some value ← condition.plain context | throw (context.absent condition)
    if value.isTruthy then result.plain context else rest.plain context

end

/-- The value that a part has to have. -/
def Expr.valued (context : Context) (part : Expr) : Evaluation Value := do
  let some value ← part.plain context | throw (context.absent part)
  pure value

structure Link where
  operator : BinaryOperator
  operand : Expr
  span : Span

/-- The operand at the left end of a chain of operations, and its operators in the order of the text. -/
def Expr.chain : Expr → Expr × List Link
  | .binary left operator right span => (left.chain.1, left.chain.2 ++ [⟨operator, right, span⟩])
  | expr => (expr, [])

def Link.evaluate (context : Context) (limit level : Nat) (first : Value) (link : Link) :
    Evaluation Value := do
  let second ← required context link.operand (← link.operand.evaluate context limit level)
  let number ← operate context link.operator first second link.operand.span
  pure ⟨number, link.span, context⟩

/-- One loop along a chain: the operand at its left end, then link by link in the order of the text,
with all operands one level below. -/
def Expr.replay (context : Context) (limit level : Nat) (expr : Expr) : Evaluation (Option Value) := do
  let (operand, links) := expr.chain
  let first ← required context operand (← operand.evaluate context limit (level + 1))
  some <$> links.foldlM (Link.evaluate context limit (level + 1)) first

private theorem Expr.evaluate_eq_replay (context : Context) (limit level : Nat) (expr : Expr)
    (operation : expr.isBinary) (room : level ≤ limit) :
    expr.evaluate context limit level = expr.replay context limit level := by
  cases expr with
  | binary left operator right span =>
    rw [Expr.evaluate.eq_def, if_neg (Nat.not_lt.mpr room)]
    cases equal : left.isBinary with
    | true =>
      have inner := left.evaluate_eq_replay context limit level equal room
      simp only [equal, if_true, inner, replay, chain, List.foldlM_append, List.foldlM_cons,
        List.foldlM_nil, Link.evaluate, required, bind_assoc, map_eq_pure_bind, pure_bind]
    | false =>
      have single : left.chain = (left, []) := by
        cases left with
        | binary => simp [isBinary] at equal
        | _ => rfl
      simp only [equal, Bool.false_eq_true, if_false, replay, chain, single, List.nil_append,
        List.foldlM_cons, List.foldlM_nil, Link.evaluate, bind_assoc, map_eq_pure_bind, pure_bind]
  | _ => simp [isBinary] at operation

theorem Expr.valued_eq_required (part : Expr) (context : Context) :
    part.valued context = part.plain context >>= required context part := by
  unfold valued
  congr 1
  funext found
  cases found <;> rfl

private theorem Expr.valued_bind {α : Type} (part : Expr) (context : Context)
    (onward : Value → Evaluation α) :
    part.valued context >>= onward = (do
      let some value ← part.plain context | throw (context.absent part)
      onward value) := by
  rw [valued, bind_assoc]
  congr 1
  funext found
  cases found <;> rfl

private theorem Evaluation.operate_bind {α : Type} (context : Context) (operator : BinaryOperator)
    (first second : Value) (right : Span) (onward : Float → Evaluation α) :
    operate context operator first second right >>= onward =
      if operator = .divide ∧ second.number == 0.0 then
        let divisor := second.span.getD right
        throw ⟨.divisionByZero, divisor, (first.context.getD context).traceback divisor.start, none,
          none⟩
      else onward (operator.apply first.number second.number) := by
  rw [operate]
  split <;> rfl

section

variable {context : Context}

theorem plain_assign (name : String) (operand : Expr) (span : Span) :
    (Expr.assign name operand span).plain context = (do
      let value ← operand.valued context
      modify fun store => context.assign store name value
      pure (some (value.withSpan span))) := by
  rw [Expr.valued_bind]
  rfl

theorem plain_unary (operator : UnaryOperator) (operand : Expr) (span : Span) :
    (Expr.unary operator operand span).plain context = (do
      let value ← operand.valued context
      pure (some ⟨operator.apply value.number, span, context⟩)) := by
  rw [Expr.valued_bind]
  rfl

theorem plain_binary (left right : Expr) (operator : BinaryOperator) (span : Span) :
    (Expr.binary left operator right span).plain context = (do
      let first ← left.valued context
      let second ← right.valued context
      let number ← operate context operator first second right.span
      pure (some ⟨number, span, context⟩)) := by
  simp only [Expr.valued_bind, operate_bind]
  rfl

theorem plain_clause (condition result : Expr) (rest : Branches) :
    (Branches.clause condition result rest).plain context = (do
      let value ← condition.valued context
      if value.isTruthy then result.plain context else rest.plain context) := by
  rw [Expr.valued_bind]
  rfl

end

namespace Evaluation

variable {α β : Type}

theorem run_bind (first : Evaluation α) (next : α → Evaluation β) (store : Store) :
    (first >>= next).run.run store =
      match first.run.run store with
      | (.ok value, later) => (next value).run.run later
      | (.error diagnostic, later) => (.error diagnostic, later) := by
  rw [ExceptT.run_bind, StateT.run_bind]
  cases first.run.run store with
  | mk outcome later => cases outcome <;> rfl

def Exhausted (outcome : Except Diagnostic α) : Prop :=
  ∃ diagnostic limit, outcome = .error diagnostic ∧ diagnostic.fault = .evaluationTooDeep limit

/-- From every store the same outcome and the same store, unless the first has used up its levels. -/
def Within (first second : Evaluation α) : Prop :=
  ∀ store, ¬ Exhausted (first.run.run store).1 → first.run.run store = second.run.run store

private theorem Within.refl (evaluation : Evaluation α) : Within evaluation evaluation :=
  fun _ _ => rfl

private theorem Within.bind {first second : Evaluation α} {next later : α → Evaluation β}
    (begun : Within first second) (continued : ∀ value, Within (next value) (later value)) :
    Within (first >>= next) (second >>= later) := by
  intro store finished
  rw [run_bind] at finished ⊢
  rw [run_bind]
  rcases equal : first.run.run store with ⟨outcome, between⟩
  rw [equal] at finished
  have same : second.run.run store = (outcome, between) := by
    rw [← begun store, equal]
    rw [equal]
    rintro ⟨diagnostic, limit, rfl, deep⟩
    exact finished ⟨diagnostic, limit, rfl, deep⟩
  rw [same]
  cases outcome with
  | error diagnostic => rfl
  | ok value => exact continued value between finished

/-- A part comes to its value, and what is behind it goes on with that value. -/
private theorem Within.part {context : Context} {part : Expr} {first : Evaluation (Option Value)}
    {next later : Value → Evaluation α} (begun : Within first (part.plain context))
    (continued : ∀ value, Within (next value) (later value)) :
    Within (first >>= fun found => required context part found >>= next)
      (part.valued context >>= later) := by
  rw [part.valued_eq_required, bind_assoc]
  exact begun.bind fun _ => (Within.refl _).bind continued

private theorem within_fail (context : Context) (limit : Nat) (span : Span)
    (evaluation : Evaluation α) :
    Within (fail context (.evaluationTooDeep limit) span) evaluation := by
  intro store finished
  exact absurd ⟨_, limit, rfl, rfl⟩ finished

end Evaluation

mutual

theorem Expr.evaluate_within (context : Context) (limit level : Nat) (expr : Expr) :
    Within (expr.evaluate context limit level) (expr.plain context) := by
  rw [Expr.evaluate.eq_def]
  split
  · exact within_fail context limit expr.span _
  · cases expr with
    | number value span => exact .refl _
    | «variable» name span => exact .refl _
    | assign name operand span =>
      rw [plain_assign]
      exact (operand.evaluate_within context limit (level + 1)).part fun _ => .refl _
    | unary operator operand span =>
      rw [plain_unary]
      exact (operand.evaluate_within context limit (level + 1)).part fun _ => .refl _
    | binary left operator right span =>
      rw [plain_binary]
      refine (left.evaluate_within context limit _).part fun first => ?_
      exact (right.evaluate_within context limit (level + 1)).part fun _ => .refl _
    | conditional branches span => exact branches.evaluate_within context limit (level + 1)

theorem Branches.evaluate_within (context : Context) (limit level : Nat) (branches : Branches) :
    Within (branches.evaluate context limit level) (branches.plain context) := by
  cases branches with
  | nothing => exact .refl _
  | otherwise result => exact result.evaluate_within context limit level
  | clause condition result rest =>
    rw [plain_clause]
    refine (condition.evaluate_within context limit level).part fun value => ?_
    split
    · exact result.evaluate_within context limit level
    · exact rest.evaluate_within context limit level

end

/-- Where its levels suffice, evaluation is plain evaluation: the value with its number, region and
context, the absence or the diagnostic, and every table of the store. Within the limit it takes each
operation as one loop along the chain, where the plain one descends. -/
theorem Expr.run_eq_plain (expr : Expr) (context : Context) (limit : Nat) (store : Store)
    (finished : ¬ Exhausted (expr.run context limit store).1) :
    expr.run context limit store = (expr.plain context).run.run store ∧
      ∀ (level : Nat) (operation : Expr), operation.isBinary → level ≤ limit →
        operation.evaluate context limit level = operation.replay context limit level :=
  ⟨expr.evaluate_within context limit 1 store finished,
    fun level operation binary room => operation.evaluate_eq_replay context limit level binary room⟩

/-- An assignment in a chain stays made where a later operand of the chain fails. -/
theorem run_eq_plain_of_failed_chain :
    let assigned : Expr := .assign "x" (.number 1.0 default) default
    let sum : Expr := .binary assigned .add (.variable "x" default) default
    let quotient : Expr := .binary sum .divide (.variable "y" default) default
    let context : Context := .root "program" 0
    ¬ Exhausted (quotient.run context 3 ⟨[.empty]⟩).1 ∧
      quotient.run context 3 ⟨[.empty]⟩ = (quotient.plain context).run.run ⟨[.empty]⟩ ∧
      quotient.evaluate context 3 1 = quotient.replay context 3 1 := by
  intro assigned sum quotient context
  have failed : (quotient.run context 3 ⟨[.empty]⟩).1 =
      .error (.of (.undefinedVariable "y") default [⟨"program", some default⟩]) := by rfl
  have finished : ¬ Exhausted (quotient.run context 3 ⟨[.empty]⟩).1 := by
    rw [failed]
    rintro ⟨diagnostic, limit, equal, deep⟩
    cases equal
    cases deep
  obtain ⟨plain, looped⟩ := quotient.run_eq_plain context 3 ⟨[.empty]⟩ finished
  exact ⟨finished, plain, looped 1 quotient rfl (by decide)⟩

end Reckon

import Reckon.Proofs.Evaluation.Origin
import Reckon.Proofs.Evaluation.Visits
import Reckon.Proofs.Parser.Height

/-!
Where faults are raised. An evaluation that fails has come to a node that raises its fault, and a division
by zero is reported where the divisor's value was made. That is the divisor itself, unless it is a
conditional; then it lies within the conditional, at the result that was chosen.
-/
namespace Reckon

open Evaluation

def Expr.isConditional : Expr → Bool
  | .conditional .. => true
  | _ => false

mutual

/-- The node that makes the value of an expression: a conditional makes none but chooses a result. -/
def Expr.source (context : Context) (expr : Expr) (store : Store) : Expr :=
  match expr with
  | .conditional branches _ => (branches.source context store).getD expr
  | _ => expr

def Branches.source (context : Context) (branches : Branches) (store : Store) : Option Expr :=
  match branches with
  | .nothing => none
  | .otherwise result => some (result.source context store)
  | .clause condition result rest =>
    match (condition.valued context).run.run store with
    | (.ok value, between) =>
      if value.isTruthy then some (result.source context between) else rest.source context between
    | (.error _, _) => none

end

/-- A node at which a fault comes up, and all that is bound by then. -/
inductive Raises (context : Context) : Visit → Diagnostic → Store → Prop
  | undefined (level : Nat) (name : String) (span : Span) (store : Store)
      (missing : context.lookup store name = none) :
      Raises context ⟨level, .variable name span, store⟩
        ⟨.undefinedVariable name, span, context.traceback span.start, none, none⟩ store
  | absent (level : Nat) {part : Expr} {store after : Store}
      (empty : (part.plain context).run.run store = (.ok none, after)) :
      Raises context ⟨level, part, store⟩
        ⟨.noValue, part.span, context.traceback part.span.start, none, none⟩ after
  | division (level : Nat) {left right : Expr} (span : Span) {store between after : Store}
      {first second : Value} (dividend : (left.valued context).run.run store = (.ok first, between))
      (divisor : (right.valued context).run.run between = (.ok second, after))
      (zero : second.number == 0.0) :
      Raises context ⟨level, .binary left .divide right span, store⟩
        ⟨.divisionByZero, (right.source context between).span,
          context.traceback (right.source context between).span.start, none, none⟩ after

def RaisedAmong (context : Context) (visits : List Visit) (diagnostic : Diagnostic) (after : Store) :
    Prop :=
  ∃ visit ∈ visits, Raises context visit diagnostic after

private theorem RaisedAmong.mono {context : Context} {visits others : List Visit}
    {diagnostic : Diagnostic}
    {after : Store} (raised : RaisedAmong context visits diagnostic after) (within : visits ⊆ others) :
    RaisedAmong context others diagnostic after := by
  obtain ⟨visit, member, raises⟩ := raised
  exact ⟨visit, within member, raises⟩

namespace Evaluation

variable {α β : Type} {first : Evaluation α} {next : α → Evaluation β} {store after : Store}

private theorem succeeded_of_bind {result : β}
    (succeeded : (first >>= next).run.run store = (.ok result, after)) :
    ∃ value between, first.run.run store = (.ok value, between) ∧
      (next value).run.run between = (.ok result, after) := by
  rw [run_bind] at succeeded
  generalize first.run.run store = ended at succeeded ⊢
  obtain ⟨outcome, between⟩ := ended
  cases outcome with
  | error diagnostic => cases succeeded
  | ok value => exact ⟨value, between, rfl, succeeded⟩

private theorem failed_of_bind {diagnostic : Diagnostic}
    (failed : (first >>= next).run.run store = (.error diagnostic, after)) :
    first.run.run store = (.error diagnostic, after) ∨
      ∃ value between, first.run.run store = (.ok value, between) ∧
        (next value).run.run between = (.error diagnostic, after) := by
  rw [run_bind] at failed
  generalize first.run.run store = ended at failed ⊢
  obtain ⟨outcome, between⟩ := ended
  cases outcome with
  | error found =>
    cases failed
    exact .inl rfl
  | ok value => exact .inr ⟨value, between, rfl, failed⟩

end Evaluation

section

variable {context : Context} {store after : Store}

private theorem plain_eq_run (expr : Expr) (context : Context) (store : Store) :
    (expr.plain context).run.run store = expr.run context expr.levels store := by
  have room : ¬ Exhausted (expr.run context expr.levels store).1 :=
    expr.endures context (Nat.le_of_eq (Nat.add_comm 1 expr.levels)) store
  exact (expr.evaluate_within context expr.levels 1 store room).symm

private theorem plain_stays (expr : Expr) (context : Context) :
    Stays context (MadeIn context) (expr.plain context) := by
  intro store
  rw [plain_eq_run]
  exact expr.evaluate_stays context expr.levels 1 store

private theorem plain_of_valued {part : Expr} {value : Value}
    (succeeded : (part.valued context).run.run store = (.ok value, after)) :
    (part.plain context).run.run store = (.ok (some value), after) := by
  obtain ⟨found, between, ran, onward⟩ := succeeded_of_bind succeeded
  cases found with
  | none => cases onward
  | some result =>
    cases onward
    exact ran

private theorem context_of_valued {part : Expr} {value : Value}
    (succeeded : (part.valued context).run.run store = (.ok value, after)) :
    value.context = some context := by
  have made := plain_stays part context store
  rw [plain_of_valued succeeded] at made
  exact (made value rfl).context

/-- A value made in an evaluation that goes on to it bears one region, whatever came before. -/
def Stamps (span : Span) (evaluation : Evaluation (Option Value)) : Prop :=
  ∀ store value after, evaluation.run.run store = (.ok (some value), after) → value.span = some span

private theorem stamps_bind {α : Type} {first : Evaluation α} {next : α → Evaluation (Option Value)}
    {span : Span} (continued : ∀ value, Stamps span (next value)) : Stamps span (first >>= next) := by
  intro store value after succeeded
  obtain ⟨found, between, -, onward⟩ := succeeded_of_bind succeeded
  exact continued found between value after onward

private theorem stamps_value (number : Float) (span : Span) (maker : Option Context) :
    Stamps span (pure (some ⟨number, some span, maker⟩)) := by
  intro store value after succeeded
  cases succeeded
  rfl

private theorem plain_stamps (context : Context) {expr : Expr}
    (other : expr.isConditional = false) :
    Stamps expr.span (expr.plain context) := by
  cases expr with
  | number value span => exact stamps_value value span _
  | «variable» name span =>
    refine stamps_bind fun bound => ?_
    cases context.lookup bound name with
    | none =>
      intro store value after succeeded
      cases succeeded
    | some value => exact stamps_value value.number span _
  | assign name operand span =>
    rw [plain_assign]
    exact stamps_bind fun value => stamps_bind fun _ => stamps_value value.number span value.context
  | unary operator operand span =>
    rw [plain_unary]
    exact stamps_bind fun value => stamps_value _ span _
  | binary left operator right span =>
    rw [plain_binary]
    exact stamps_bind fun first => stamps_bind fun second => stamps_bind fun number =>
      stamps_value number span _
  | conditional => cases other

private theorem source_of_other {expr : Expr} (other : expr.isConditional = false) (store : Store) :
    expr.source context store = expr := by
  cases expr with
  | conditional => cases other
  | _ => rfl

end

mutual

private theorem Expr.span_of_plain {context : Context} {store after : Store} (expr : Expr)
    {value : Value} (made : (expr.plain context).run.run store = (.ok (some value), after)) :
    value.span = some (expr.source context store).span := by
  cases other : expr.isConditional with
  | false =>
    rw [source_of_other other]
    exact plain_stamps context other store value after made
  | true =>
    cases expr with
    | conditional branches span =>
      obtain ⟨node, chosen, spans⟩ := branches.span_of_plain made
      rw [Expr.source, chosen, Option.getD_some]
      exact spans
    | _ => cases other

private theorem Branches.span_of_plain {context : Context} {store after : Store}
    (branches : Branches)
    {value : Value} (made : (branches.plain context).run.run store = (.ok (some value), after)) :
    ∃ node, branches.source context store = some node ∧ value.span = some node.span := by
  cases branches with
  | nothing => cases made
  | otherwise result => exact ⟨_, rfl, result.span_of_plain made⟩
  | clause condition result rest =>
    rw [plain_clause] at made
    obtain ⟨premise, between, ran, onward⟩ := succeeded_of_bind made
    simp only [Branches.source, ran]
    split at onward
    · rename_i holds
      rw [if_pos holds]
      exact ⟨_, rfl, result.span_of_plain onward⟩
    · rename_i fails
      rw [if_neg fails]
      exact rest.span_of_plain onward

end

section

variable {context : Context} {level : Nat} {store after : Store} {diagnostic : Diagnostic}

private theorem raised_of_valued {part : Expr}
    (raised : ∀ {diagnostic after}, (part.plain context).run.run store = (.error diagnostic, after) →
      RaisedAmong context (part.visits context level store) diagnostic after)
    (failed : (part.valued context).run.run store = (.error diagnostic, after)) :
    RaisedAmong context (part.visits context level store) diagnostic after := by
  rcases failed_of_bind failed with inner | ⟨found, between, ran, onward⟩
  · exact raised inner
  · cases found with
    | some value => cases onward
    | none =>
      cases onward
      refine ⟨⟨level, part, store⟩, ?_, .absent level ran⟩
      rw [Expr.visits.eq_def]
      exact List.mem_cons_self

private theorem raised_of_operate {operator : BinaryOperator} {left right : Expr}
    {first second : Value} {span : Span} {start between : Store}
    (dividend : (left.valued context).run.run start = (.ok first, between))
    (divisor : (right.valued context).run.run between = (.ok second, store))
    (failed : (operate context operator first second right.span).run.run store =
      (.error diagnostic, after)) :
    Raises context ⟨level, .binary left operator right span, start⟩ diagnostic after := by
  unfold operate at failed
  split at failed
  · rename_i division
    obtain ⟨rfl, zero⟩ := division
    rw [context_of_valued dividend, right.span_of_plain (plain_of_valued divisor)] at failed
    cases failed
    exact .division level span dividend divisor zero
  · cases failed

end

mutual

private theorem Expr.raised {context : Context} (level : Nat) {store after : Store}
    {diagnostic : Diagnostic}
    (expr : Expr) (failed : (expr.plain context).run.run store = (.error diagnostic, after)) :
    RaisedAmong context (expr.visits context level store) diagnostic after := by
  rw [Expr.visits.eq_def]
  cases expr with
  | number value span => cases failed
  | «variable» name span =>
    refine ⟨_, List.mem_cons_self, ?_⟩
    change (match context.lookup store name with
      | some value => (pure (some ((value.withSpan span).withContext context)) : Evaluation _)
      | none => fail context (.undefinedVariable name) span).run.run store = _ at failed
    cases missing : context.lookup store name with
    | some value =>
      simp only [missing] at failed
      cases failed
    | none =>
      simp only [missing] at failed
      cases failed
      exact .undefined level name span store missing
  | assign name operand span =>
    rw [plain_assign] at failed
    rcases failed_of_bind failed with inner | ⟨value, between, _, onward⟩
    · exact (raised_of_valued (operand.raised _) inner).mono (List.subset_cons_self _ _)
    · cases onward
  | unary operator operand span =>
    rw [plain_unary] at failed
    rcases failed_of_bind failed with inner | ⟨value, between, _, onward⟩
    · exact (raised_of_valued (operand.raised _) inner).mono (List.subset_cons_self _ _)
    · cases onward
  | binary left operator right span =>
    rw [plain_binary] at failed
    rcases failed_of_bind failed with inner | ⟨first, between, ran, onward⟩
    · have reached := raised_of_valued (left.raised (left.leadingLevel level)) inner
      exact reached.mono (List.subset_cons_of_subset _ (List.subset_append_left _ _))
    rcases failed_of_bind onward with inner | ⟨second, later, divisor, onward⟩
    · have reached := raised_of_valued (right.raised (level + 1)) inner
      simp only [ran, behind]
      exact reached.mono (List.subset_cons_of_subset _ (List.subset_append_right _ _))
    rcases failed_of_bind onward with inner | ⟨number, _, _, onward⟩
    · exact ⟨_, List.mem_cons_self, raised_of_operate ran divisor inner⟩
    · cases onward
  | conditional branches span =>
    exact (branches.raised (level + 1) failed).mono (List.subset_cons_self _ _)

private theorem Branches.raised {context : Context} (level : Nat) {store after : Store}
    {diagnostic : Diagnostic} (branches : Branches)
    (failed : (branches.plain context).run.run store = (.error diagnostic, after)) :
    RaisedAmong context (branches.visits context level store) diagnostic after := by
  rw [Branches.visits.eq_def]
  cases branches with
  | nothing => cases failed
  | otherwise result => exact result.raised level failed
  | clause condition result rest =>
    rw [plain_clause] at failed
    rcases failed_of_bind failed with inner | ⟨value, between, ran, onward⟩
    · exact (raised_of_valued (condition.raised level) inner).mono (List.subset_append_left _ _)
    · simp only [ran, behind]
      split at onward
      · rename_i holds
        rw [if_pos holds]
        exact (result.raised level onward).mono (List.subset_append_right _ _)
      · rename_i fails
        rw [if_neg fails]
        exact (rest.raised level onward).mono (List.subset_append_right _ _)

end

private theorem exists_of_mem_behind {α : Type} {outcome : Except Diagnostic α × Store}
    {onward : α → Store → List Visit} {visit : Visit} (reached : visit ∈ behind outcome onward) :
    ∃ value between, visit ∈ onward value between := by
  unfold behind at reached
  split at reached
  · exact ⟨_, _, reached⟩
  · cases reached

mutual

private theorem Expr.node_of_visit {context : Context} {level : Nat} {store : Store} (expr : Expr)
    {visit : Visit} (reached : visit ∈ expr.visits context level store) : expr.Node visit.node := by
  rw [Expr.visits.eq_def] at reached
  rcases List.mem_cons.mp reached with rfl | reached
  · exact .root expr
  cases expr with
  | number | «variable» => cases reached
  | assign name operand span | unary operator operand span =>
    exact .within (List.mem_singleton_self operand) (operand.node_of_visit reached)
  | binary left operator right span =>
    rcases List.mem_append.mp reached with reached | reached
    · exact .within List.mem_cons_self (left.node_of_visit reached)
    · obtain ⟨_, between, reached⟩ := exists_of_mem_behind reached
      exact .within (List.mem_cons_of_mem _ List.mem_cons_self) (right.node_of_visit reached)
  | conditional branches span =>
    obtain ⟨part, member, inner⟩ := branches.node_of_visit reached
    exact .within member inner

private theorem Branches.node_of_visit {context : Context} {level : Nat} {store : Store}
    (branches : Branches) {visit : Visit} (reached : visit ∈ branches.visits context level store) :
    ∃ part ∈ branches.parts, part.Node visit.node := by
  rw [Branches.visits.eq_def] at reached
  cases branches with
  | nothing => cases reached
  | otherwise result => exact ⟨result, List.mem_singleton_self _, result.node_of_visit reached⟩
  | clause condition result rest =>
    rcases List.mem_append.mp reached with reached | reached
    · exact ⟨condition, List.mem_cons_self, condition.node_of_visit reached⟩
    · obtain ⟨value, between, reached⟩ := exists_of_mem_behind reached
      split at reached
      · exact ⟨result, List.mem_cons_of_mem _ List.mem_cons_self, result.node_of_visit reached⟩
      · obtain ⟨part, member, inner⟩ := rest.node_of_visit reached
        exact ⟨part, List.mem_cons_of_mem _ (List.mem_cons_of_mem _ member), inner⟩

end

mutual

private theorem Expr.node_of_source (context : Context) (store : Store) (expr : Expr) :
    expr.Node (expr.source context store) := by
  cases other : expr.isConditional with
  | false =>
    rw [source_of_other other]
    exact .root expr
  | true =>
    cases expr with
    | conditional branches span =>
      cases chosen : branches.source context store with
      | none =>
        rw [Expr.source, chosen]
        exact .root _
      | some node =>
        obtain ⟨part, member, inner⟩ := branches.node_of_source chosen
        rw [Expr.source, chosen]
        exact .within member inner
    | _ => cases other

private theorem Branches.node_of_source {context : Context} {store : Store} (branches : Branches)
    {node : Expr}
    (chosen : branches.source context store = some node) : ∃ part ∈ branches.parts, part.Node node := by
  cases branches with
  | nothing => cases chosen
  | otherwise result =>
    cases chosen
    exact ⟨result, List.mem_singleton_self _, result.node_of_source context store⟩
  | clause condition result rest =>
    simp only [Branches.source] at chosen
    split at chosen
    · split at chosen
      · cases chosen
        exact ⟨result, List.mem_cons_of_mem _ List.mem_cons_self, result.node_of_source context _⟩
      · obtain ⟨part, member, inner⟩ := rest.node_of_source chosen
        exact ⟨part, List.mem_cons_of_mem _ (List.mem_cons_of_mem _ member), inner⟩
    · cases chosen

end

section

variable {expr : Expr} {context : Context} {limit : Nat} {store : Store} {diagnostic : Diagnostic}

private theorem Raises.node {visit : Visit} {after : Store}
    (raises : Raises context visit diagnostic after) :
    ∃ node, visit.node.Node node ∧ diagnostic.span = node.span := by
  cases raises with
  | undefined | absent => exact ⟨_, .root _, rfl⟩
  | @division level left right span _ between =>
    have divisor : (Expr.binary left .divide right span).Node right :=
      .of_child (List.mem_cons_of_mem _ List.mem_cons_self)
    exact ⟨_, divisor.trans (right.node_of_source context between), rfl⟩

private theorem raises_of_run (failed : (expr.run context limit store).1 = .error diagnostic)
    (shallow : ¬ Exhausted (expr.run context limit store).1) :
    RaisedAmong context (expr.visits context 1 store) diagnostic (expr.run context limit store).2 := by
  have same : expr.run context limit store = (expr.plain context).run.run store :=
    expr.evaluate_within context limit 1 store shallow
  rw [same] at failed ⊢
  exact expr.raised 1 (Prod.ext failed rfl)

/-- Every fault of an evaluation lies at a node of the tree. -/
theorem node_of_run (failed : (expr.run context limit store).1 = .error diagnostic) :
    ∃ node, expr.Node node ∧ diagnostic.span = node.span := by
  by_cases deep : Exhausted (expr.run context limit store).1
  · have cut := expr.run_eq_curtailed context limit store
    rw [curtailed] at cut
    cases found : (expr.visits context 1 store).find? (limit < ·.level) with
    | none =>
      rw [found] at cut
      rw [cut] at deep
      exact absurd deep (expr.plain_endures context store)
    | some visit =>
      rw [found] at cut
      rw [cut] at failed
      cases failed
      exact ⟨visit.node, expr.node_of_visit (List.mem_of_find?_eq_some found), rfl⟩
  · obtain ⟨visit, reached, raises⟩ := raises_of_run failed deep
    obtain ⟨node, inner, spans⟩ := raises.node
    exact ⟨node, (expr.node_of_visit reached).trans inner, spans⟩

end

/-- The division that fails is one that the evaluation came to, with its dividend and its divisor, the
latter nought. -/
theorem division_reported_where_made (expr : Expr) (context : Context) (limit : Nat) (store : Store)
    (diagnostic : Diagnostic) (failed : (expr.run context limit store).1 = .error diagnostic)
    (zero : diagnostic.fault = .divisionByZero) :
    ∃ visit ∈ expr.visits context 1 store, ∃ left right span first second between,
      expr.Node visit.node ∧ visit.node = .binary left .divide right span ∧
      (left.valued context).run.run visit.store = (.ok first, between) ∧
      (right.valued context).run.run between = (.ok second, (expr.run context limit store).2) ∧
      second.number == 0.0 ∧
      diagnostic.span = (right.source context between).span ∧
      (right.isConditional = false → diagnostic.span = right.span) := by
  have shallow : ¬ Exhausted (expr.run context limit store).1 := by
    rintro ⟨found, limit, same, deep⟩
    cases failed.symm.trans same
    cases zero.symm.trans deep
  obtain ⟨visit, reached, raises⟩ := raises_of_run failed shallow
  generalize (expr.run context limit store).2 = after at raises ⊢
  cases raises with
  | division level span dividend divisor nought =>
    refine ⟨_, reached, _, _, span, _, _, _, expr.node_of_visit reached, rfl, dividend, divisor, nought,
      rfl, fun other => ?_⟩
    rw [source_of_other other]
  | _ => cases zero

/-- The region between two places of a first line. -/
def region (start stop : Nat) : Span := ⟨⟨start, 1, start + 1⟩, ⟨stop, 1, stop + 1⟩⟩

/-- The divisor is a sign before a name, and the dividend binds the name to nought. -/
theorem division_reported_at_sign :
    let dividend : Expr := .assign "x" (.number 0.0 (region 10 11)) (region 6 11)
    let divisor : Expr := .unary .plus (.variable "x" (region 16 17)) (region 15 17)
    let quotient : Expr := .binary dividend .divide divisor (region 6 17)
    let context : Context := .root "program" 0
    let report : Diagnostic := .of .divisionByZero (region 15 17) [⟨"program", some ⟨15, 1, 16⟩⟩]
    (quotient.run context 4 ⟨[.empty]⟩).1 = .error report ∧
      ∃ visit ∈ quotient.visits context 1 ⟨[.empty]⟩, ∃ left right span first second between,
        quotient.Node visit.node ∧ visit.node = .binary left .divide right span ∧
        (left.valued context).run.run visit.store = (.ok first, between) ∧
        (right.valued context).run.run between = (.ok second, (quotient.run context 4 ⟨[.empty]⟩).2) ∧
        second.number == 0.0 ∧ report.span = (right.source context between).span ∧
        (right.isConditional = false → report.span = right.span) :=
  ⟨rfl, division_reported_where_made _ _ 4 ⟨[.empty]⟩ _ rfl rfl⟩

/-- The divisor is a conditional, and the report points at the result within it. -/
theorem conditional_divisor_reported_inside :
    let choice : Expr := .conditional
      (.clause (.number 1.0 (region 8 9)) (.number 0.0 (region 15 16)) .nothing) (region 5 16)
    let quotient : Expr := .binary (.number 1.0 (region 0 1)) .divide choice (region 0 16)
    (quotient.run (.root "program" 0) 128 ⟨[.empty]⟩).1 =
        .error (.of .divisionByZero (region 15 16) [⟨"program", some ⟨15, 1, 16⟩⟩]) ∧
      region 15 16 ≠ choice.span :=
  ⟨rfl, by decide⟩

end Reckon

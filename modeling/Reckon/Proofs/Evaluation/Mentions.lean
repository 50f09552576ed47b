import Reckon.Proofs.Alike
import Reckon.Proofs.Evaluation.Effect

/-!
What evaluation depends on. Two runs of an expression, in any contexts, come to the same and complete the
same assignments as soon as the variables that are mentioned in it have the same numbers in both.
-/
namespace Reckon

open Evaluation

mutual

/-- The names of the variables; a name that is only assigned is not mentioned. -/
def Expr.mentions : Expr → List String
  | .number _ _ => []
  | .variable name _ => [name]
  | .assign _ operand _ | .unary _ operand _ => operand.mentions
  | .binary left _ right _ => left.mentions ++ right.mentions
  | .conditional branches _ => branches.mentions

def Branches.mentions : Branches → List String
  | .nothing => []
  | .otherwise result => result.mentions
  | .clause condition result rest => condition.mentions ++ (result.mentions ++ rest.mentions)

end

/-- The names have the same numbers in both contexts, or none in either. -/
structure AgreeOn (names : List String) (context context' : Context) (store store' : Store) : Prop where
  present : context.table < store.tables.length
  present' : context'.table < store'.tables.length
  number : ∀ name ∈ names, (context.lookup store name).map Value.number =
    (context'.lookup store' name).map Value.number

section

variable {names : List String} {context context' : Context} {store store' : Store}

private theorem AgreeOn.mono (agree : AgreeOn names context context' store store')
    {fewer : List String}
    (subset : fewer ⊆ names) : AgreeOn fewer context context' store store' where
  present := agree.present
  present' := agree.present'
  number name member := agree.number name (subset member)

/-- A name that is assigned agrees from then on, wherever it was found before. -/
private theorem AgreeOn.assign (agree : AgreeOn names context context' store store') (name : String)
    (number : Float) :
    AgreeOn names context context' (store.set context.table name (.ofNumber number))
      (store'.set context'.table name (.ofNumber number)) where
  present := by
    rw [Store.length_set]
    exact agree.present
  present' := by
    rw [Store.length_set]
    exact agree.present'
  number other member := by
    have here := context.lookup_assign name other (.ofNumber number) agree.present
    have there := context'.lookup_assign name other (.ofNumber number) agree.present'
    unfold Context.assign Value.detached Value.ofNumber at here there
    unfold Value.ofNumber
    rw [here, there]
    split
    · rfl
    · exact agree.number other member

private theorem AgreeOn.overwrite (agree : AgreeOn names context context' store store')
    (writes : List Write) :
    AgreeOn names context context' (store.overwrite context.table writes)
      (store'.overwrite context'.table writes) := by
  induction writes generalizing store store' with
  | nil => exact agree
  | cons write writes ih =>
    apply ih
    exact agree.assign write.name write.number

end

/-- Both come to the same number and region, to no value, or to the same fault in the same region. -/
abbrev SameOutcome : Except Diagnostic (Option Value) → Except Diagnostic (Option Value) → Prop :=
  Paired (Diagnostic.Alike Eq) (Option.Rel (Value.Alike Eq))

section

variable {context context' : Context} {limit level : Nat} {store store' : Store} {part : Expr}

private theorem value_of_same
    (same : SameOutcome ((part.evaluate context limit level).run.run store).1
      ((part.evaluate context' limit level).run.run store').1) :
    Option.Rel (Value.Alike Eq) (part.value? context limit level store)
      (part.value? context' limit level store') := by
  unfold Expr.value?
  generalize ((part.evaluate context limit level).run.run store).1 = outcome at same ⊢
  generalize ((part.evaluate context' limit level).run.run store').1 = outcome' at same ⊢
  cases same with
  | error => exact .none
  | ok found => exact found

private theorem same_failure {α : Type} {results : α → α → Prop} (fault : Fault) (span : Span) :
    Paired (Diagnostic.Alike Eq) results
      ((fail context fault span : Evaluation α).run.run store).1
      ((fail context' fault span : Evaluation α).run.run store').1 :=
  .error ⟨rfl, rfl⟩

/-- What follows a part begins from the stores that the two runs of the part leave. -/
private theorem same_part {next next' : Value → Evaluation (Option Value)}
    (same : SameOutcome ((part.evaluate context limit level).run.run store).1
      ((part.evaluate context' limit level).run.run store').1)
    (continued : ∀ value value', part.value? context limit level store = some value →
      part.value? context' limit level store' = some value' → value.Alike Eq value' →
      SameOutcome ((next value).run.run (part.after context limit level store)).1
        ((next' value').run.run (part.after context' limit level store')).1) :
    SameOutcome
      ((part.evaluate context limit level >>= fun found =>
        required context part found >>= next).run.run store).1
      ((part.evaluate context' limit level >>= fun found =>
        required context' part found >>= next').run.run store').1 := by
  rw [run_bind, run_bind]
  unfold Expr.value? Expr.after at continued
  generalize (part.evaluate context limit level).run.run store = run at same continued ⊢
  generalize (part.evaluate context' limit level).run.run store' = run' at same continued ⊢
  obtain ⟨outcome, later⟩ := run
  obtain ⟨outcome', later'⟩ := run'
  cases same with
  | error alike => exact .error alike
  | ok found =>
    cases found with
    | none => exact same_failure .noValue part.span
    | some alike => exact continued _ _ rfl rfl alike

private theorem same_operate (operator : BinaryOperator) {left left' right right' : Value}
    (first : left.Alike Eq left') (second : right.Alike Eq right') (span whole : Span) :
    SameOutcome
      ((operate context operator left right span >>= fun number =>
        (pure (some ⟨number, whole, context⟩) : Evaluation _)).run.run store).1
      ((operate context' operator left' right' span >>= fun number =>
        (pure (some ⟨number, whole, context'⟩) : Evaluation _)).run.run store').1 := by
  have place : right.span.getD span = right'.span.getD span := by
    have spans := second.span
    generalize right.span = known at spans ⊢
    generalize right'.span = known' at spans ⊢
    cases spans with
    | none => rfl
    | some equal => exact equal
  unfold operate
  rw [← first.number, ← second.number, ← place]
  split
  · exact .error ⟨rfl, rfl⟩
  · exact .ok (.some ⟨rfl, .some rfl⟩)

end

/-- Behind a part that is run alike the contexts still agree, on names mentioned in the part or not. -/
private theorem AgreeOn.after {names : List String} {context context' : Context}
    {store store' : Store}
    (agree : AgreeOn names context context' store store') {limit level : Nat} {part : Expr}
    (alike : part.writes context limit level store = part.writes context' limit level store') :
    AgreeOn names context context' (part.after context limit level store)
      (part.after context' limit level store') := by
  rw [Expr.after_eq_overwrite, Expr.after_eq_overwrite, ← alike]
  exact agree.overwrite _

mutual

private theorem Expr.same_of_agree {context context' : Context} (limit level : Nat)
    {store store' : Store}
    (expr : Expr) (agree : AgreeOn expr.mentions context context' store store') :
    SameOutcome ((expr.evaluate context limit level).run.run store).1
        ((expr.evaluate context' limit level).run.run store').1 ∧
      expr.writes context limit level store = expr.writes context' limit level store' := by
  rw [Expr.evaluate.eq_def, Expr.evaluate.eq_def context', Expr.writes.eq_def,
    Expr.writes.eq_def context']
  split
  · exact ⟨same_failure (.evaluationTooDeep limit) expr.span, rfl⟩
  · cases expr with
    | number value span => exact ⟨.ok (.some ⟨rfl, .some rfl⟩), rfl⟩
    | «variable» name span =>
      have number := agree.number name List.mem_cons_self
      refine ⟨?_, rfl⟩
      simp only [run_bind]
      change SameOutcome
        ((match context.lookup store name with
          | some value => (pure (some ((value.withSpan span).withContext context)) : Evaluation _)
          | none => fail context (.undefinedVariable name) span).run.run store).1
        ((match context'.lookup store' name with
          | some value => (pure (some ((value.withSpan span).withContext context')) : Evaluation _)
          | none => fail context' (.undefinedVariable name) span).run.run store').1
      generalize context.lookup store name = found at number ⊢
      generalize context'.lookup store' name = found' at number ⊢
      cases found with
      | none =>
        cases found' with
        | none => exact same_failure (.undefinedVariable name) span
        | some value' => cases number
      | some value =>
        cases found' with
        | none => cases number
        | some value' => exact .ok (.some ⟨Option.some.inj number, .some rfl⟩)
    | assign name operand span =>
      obtain ⟨same, writes⟩ := operand.same_of_agree limit (level + 1) agree
      have values := value_of_same same
      refine ⟨same_part same fun value value' _ _ alike => ?_, ?_⟩
      · exact .ok (.some ⟨alike.number, .some rfl⟩)
      · dsimp only
        rw [writes]
        generalize operand.value? context limit (level + 1) store = value at values ⊢
        generalize operand.value? context' limit (level + 1) store' = value' at values ⊢
        cases values with
        | none => rfl
        | some alike => simp only [alike.number]
    | unary operator operand span =>
      obtain ⟨same, writes⟩ := operand.same_of_agree limit (level + 1) agree
      refine ⟨same_part same fun value value' _ _ alike => ?_, writes⟩
      exact .ok (.some ⟨congrArg (operator.apply ·) alike.number, .some rfl⟩)
    | binary left operator right span =>
      dsimp only
      generalize (if left.isBinary then level else level + 1) = leftLevel
      obtain ⟨same, writes⟩ :=
        left.same_of_agree limit leftLevel (agree.mono (List.subset_append_left _ _))
      have between := agree.after writes
      obtain ⟨same', writes'⟩ :=
        right.same_of_agree limit (level + 1) (between.mono (List.subset_append_right _ _))
      have values := value_of_same same
      refine ⟨same_part same fun first first' _ _ alike => ?_, ?_⟩
      · exact same_part same' fun second second' _ _ alike' =>
          same_operate operator alike alike' right.span span
      · rw [writes, writes']
        generalize left.value? context limit leftLevel store = value at values ⊢
        generalize left.value? context' limit leftLevel store' = value' at values ⊢
        cases values with
        | none => rfl
        | some => rfl
    | conditional branches span => exact branches.same_of_agree limit (level + 1) agree

private theorem Branches.same_of_agree {context context' : Context} (limit level : Nat)
    {store store' : Store} (branches : Branches)
    (agree : AgreeOn branches.mentions context context' store store') :
    SameOutcome ((branches.evaluate context limit level).run.run store).1
        ((branches.evaluate context' limit level).run.run store').1 ∧
      branches.writes context limit level store = branches.writes context' limit level store' := by
  cases branches with
  | nothing => exact ⟨.ok .none, rfl⟩
  | otherwise result => exact result.same_of_agree limit level agree
  | clause condition result rest =>
    obtain ⟨same, writes⟩ :=
      condition.same_of_agree limit level (agree.mono (List.subset_append_left _ _))
    have between := agree.after writes
    have behind := between.mono (List.subset_append_right _ _)
    obtain ⟨taken, writes'⟩ :=
      result.same_of_agree limit level (behind.mono (List.subset_append_left _ _))
    obtain ⟨passed, writes''⟩ :=
      rest.same_of_agree limit level (behind.mono (List.subset_append_right _ _))
    have values := value_of_same same
    rw [Branches.evaluate, Branches.evaluate, Branches.writes, Branches.writes]
    refine ⟨same_part same fun value value' _ _ alike => ?_, ?_⟩
    · rw [Value.isTruthy, Value.isTruthy, ← alike.number]
      split
      · exact taken
      · exact passed
    · rw [writes, writes', writes'']
      generalize condition.value? context limit level store = value at values ⊢
      generalize condition.value? context' limit level store' = value' at values ⊢
      cases values with
      | none => rfl
      | some alike =>
        dsimp only
        rw [Value.isTruthy, Value.isTruthy, ← alike.number]

end

/-- Two runs of an expression that nobody can tell apart but by what stood in the stores before. -/
structure SameCourse (expr : Expr) (limit : Nat) (context context' : Context)
    (store store' : Store) : Prop where
  outcome : SameOutcome (expr.run context limit store).1 (expr.run context' limit store').1
  writes : expr.writes context limit 1 store = expr.writes context' limit 1 store'
  left : (expr.run context limit store).2 =
    store.overwrite context.table (expr.writes context limit 1 store)
  left' : (expr.run context' limit store').2 =
    store'.overwrite context'.table (expr.writes context limit 1 store)

/-- Numbers are compared bit by bit here, so two zeros of different signs do not agree. -/
theorem evaluation_depends_on_mentioned {contexts contexts' : List Context} {store store' : Store}
    {context context' : Context} (forest : Forest contexts store) (member : context ∈ contexts)
    (forest' : Forest contexts' store') (member' : context' ∈ contexts') (expr : Expr)
    (limit : Nat) :
    ((∀ name ∈ expr.mentions, (context.lookup store name).map Value.number =
        (context'.lookup store' name).map Value.number) →
      SameCourse expr limit context context' store store') ∧
    (expr.mentions = [] → SameCourse expr limit context context' store store') := by
  have alike (agrees : ∀ name ∈ expr.mentions, (context.lookup store name).map Value.number =
      (context'.lookup store' name).map Value.number) :
      SameCourse expr limit context context' store store' := by
    have agree : AgreeOn expr.mentions context context' store store' :=
      ⟨forest.table_lt context member, forest'.table_lt context' member', agrees⟩
    obtain ⟨outcome, writes⟩ := expr.same_of_agree limit 1 agree
    refine ⟨outcome, writes, expr.after_eq_overwrite context limit 1 store, ?_⟩
    rw [writes]
    exact expr.after_eq_overwrite context' limit 1 store'
  refine ⟨alike, fun constant => alike ?_⟩
  rw [constant]
  exact nofun

/-- One context finds `x` in the context around it and the other in itself, and only the other knows `w`.
The divisor reads what the dividend has assigned. -/
theorem same_course_of_inherited :
    let (root, single) := Context.openRoot .empty "program"
    let (inner, nested) := Context.openChild (single.set root.table "x" (.ofNumber 1.0)) root "inner" .start
    let (other, empty) := Context.openRoot .empty "other"
    let store' := (empty.set other.table "w" (.ofNumber 7.0)).set other.table "x" (.ofNumber 1.0)
    let quotient : Expr := .binary (.assign "x" (.unary .minus (.variable "x" default) default) default)
      .divide (.unary .not (.variable "x" default) default) default
    SameCourse quotient 9 inner other nested store' ∧
      quotient.writes inner 9 1 nested = [⟨"x", -1.0⟩] ∧
      ((quotient.run inner 9 nested).1.mapError Diagnostic.fault) = .error .divisionByZero := by
  have single : Forest _ _ := Forest.empty.root "program"
  have bound := single.bind List.mem_cons_self "x" (.ofNumber 1.0)
  have nested := bound.child List.mem_cons_self "inner" .start
  have lone : Forest _ _ := Forest.empty.root "other"
  have other := (lone.bind List.mem_cons_self "w" (.ofNumber 7.0)).bind List.mem_cons_self "x"
    (.ofNumber 1.0)
  have course := evaluation_depends_on_mentioned nested List.mem_cons_self other List.mem_cons_self
  exact ⟨(course _ 9).1 (by decide), by decide, by decide⟩

end Reckon

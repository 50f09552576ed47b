import Reckon.Proofs.Evaluation.Plain
import Reckon.Proofs.Store.Forest

/-!
Effects of evaluation. A run completes a sequence of assignments, whether it ends in a value, in an
absence or in a fault, and the store that it leaves is the one it began with, overwritten by them.
-/
namespace Reckon

open Evaluation

namespace Expr

variable (context : Context) (limit level : Nat) (store : Store)

/-- What an expression comes to from a store, if that is a value. -/
def value? (expr : Expr) : Option Value :=
  match ((expr.evaluate context limit level).run.run store).1 with
  | .ok value => value
  | .error _ => none

def after (expr : Expr) : Store :=
  ((expr.evaluate context limit level).run.run store).2

end Expr

mutual

/-- The assignments that are completed in a run from a store, in order. An assignment is completed when
its right side has come to a value, behind all those completed in it. -/
def Expr.writes (context : Context) (limit level : Nat) (store : Store) (expr : Expr) : List Write :=
  if limit < level then []
  else
    match expr with
    | .number _ _ | .variable _ _ => []
    | .assign name operand _ =>
      operand.writes context limit (level + 1) store ++
        match operand.value? context limit (level + 1) store with
        | some value => [⟨name, value.number⟩]
        | none => []
    | .unary _ operand _ => operand.writes context limit (level + 1) store
    | .binary left _ right _ =>
      let leftLevel := if left.isBinary then level else level + 1
      left.writes context limit leftLevel store ++
        match left.value? context limit leftLevel store with
        | some _ => right.writes context limit (level + 1) (left.after context limit leftLevel store)
        | none => []
    | .conditional branches _ => branches.writes context limit (level + 1) store

def Branches.writes (context : Context) (limit level : Nat) (store : Store) :
    Branches → List Write
  | .nothing => []
  | .otherwise result => result.writes context limit level store
  | .clause condition result rest =>
    condition.writes context limit level store ++
      match condition.value? context limit level store with
      | some value =>
        if value.isTruthy then result.writes context limit level (condition.after context limit level store)
        else rest.writes context limit level (condition.after context limit level store)
      | none => []

end

mutual

def Expr.targets : Expr → List String
  | .number _ _ | .variable _ _ => []
  | .assign name operand _ => operand.targets ++ [name]
  | .unary _ operand _ => operand.targets
  | .binary left _ right _ => left.targets ++ right.targets
  | .conditional branches _ => branches.targets

def Branches.targets : Branches → List String
  | .nothing => []
  | .otherwise result => result.targets
  | .clause condition result rest => condition.targets ++ (result.targets ++ rest.targets)

end

section

variable {α : Type} (context : Context) (limit level : Nat) (store : Store)

/-- What follows a part that has to have a value runs where the part left off, or not at all. -/
private theorem after_required (part : Expr) (next : Value → Evaluation α) :
    ((part.evaluate context limit level >>= fun found =>
      required context part found >>= next).run.run store).2 =
      match part.value? context limit level store with
      | some value => ((next value).run.run (part.after context limit level store)).2
      | none => part.after context limit level store := by
  rw [run_bind]
  unfold Expr.value? Expr.after
  rcases (part.evaluate context limit level).run.run store with ⟨outcome, later⟩
  cases outcome with
  | error diagnostic => rfl
  | ok found =>
    cases found with
    | none => rfl
    | some value => rfl

private theorem after_operate (operator : BinaryOperator) (first second : Value) (span : Span)
    (next : Float → α) :
    ((operate context operator first second span >>= fun number =>
      (pure (next number) : Evaluation α)).run.run store).2 = store := by
  rw [run_bind]
  unfold operate
  by_cases zero : operator = .divide ∧ (second.number == 0.0) = true
  · rw [if_pos zero]
    rfl
  · rw [if_neg zero]
    rfl

end

mutual

theorem Expr.after_eq_overwrite (context : Context) (limit level : Nat) (store : Store)
    (expr : Expr) :
    expr.after context limit level store =
      store.overwrite context.table (expr.writes context limit level store) := by
  rw [Expr.after, Expr.evaluate.eq_def, Expr.writes.eq_def]
  split
  · rfl
  · cases expr with
    | number value span => rfl
    | «variable» name span =>
      change ((match context.lookup store name with
        | some value => (pure (some ((value.withSpan span).withContext context)) : Evaluation _)
        | none => fail context (.undefinedVariable name) span).run.run store).2 = store
      cases context.lookup store name with
      | none => rfl
      | some value => rfl
    | assign name operand span =>
      have inner := operand.after_eq_overwrite context limit (level + 1) store
      refine (after_required context limit (level + 1) store operand _).trans ?_
      dsimp only
      rw [Store.overwrite_append, ← inner]
      cases operand.value? context limit (level + 1) store with
      | none => rfl
      | some value => rfl
    | unary operator operand span =>
      have inner := operand.after_eq_overwrite context limit (level + 1) store
      refine (after_required context limit (level + 1) store operand _).trans ?_
      dsimp only
      rw [← inner]
      cases operand.value? context limit (level + 1) store with
      | none => rfl
      | some value => rfl
    | binary left operator right span =>
      dsimp only
      generalize (if left.isBinary then level else level + 1) = leftLevel
      -- The right operand begins from the store that the left one leaves, if that came to a value.
      have first := left.after_eq_overwrite context limit leftLevel store
      refine (after_required context limit leftLevel store left _).trans ?_
      rw [Store.overwrite_append, ← first]
      cases left.value? context limit leftLevel store with
      | none => rfl
      | some value =>
        dsimp only
        have second := right.after_eq_overwrite context limit (level + 1)
          (left.after context limit leftLevel store)
        refine (after_required context limit (level + 1) _ right _).trans ?_
        rw [← second]
        cases right.value? context limit (level + 1) (left.after context limit leftLevel store) with
        | none => rfl
        | some other => exact after_operate context _ operator value other right.span _
    | conditional branches span => exact branches.after_eq_overwrite context limit (level + 1) store

theorem Branches.after_eq_overwrite (context : Context) (limit level : Nat) (store : Store)
    (branches : Branches) :
    ((branches.evaluate context limit level).run.run store).2 =
      store.overwrite context.table (branches.writes context limit level store) := by
  cases branches with
  | nothing => rfl
  | otherwise result => exact result.after_eq_overwrite context limit level store
  | clause condition result rest =>
    have tested := condition.after_eq_overwrite context limit level store
    rw [Branches.evaluate, Branches.writes]
    refine (after_required context limit level store condition _).trans ?_
    rw [Store.overwrite_append, ← tested]
    cases condition.value? context limit level store with
    | none => rfl
    | some value =>
      dsimp only
      split
      · exact result.after_eq_overwrite context limit level _
      · exact rest.after_eq_overwrite context limit level _

end

mutual

private theorem Expr.writes_sublist_targets (context : Context) (limit level : Nat) (store : Store)
    (expr : Expr) :
    ((expr.writes context limit level store).map Write.name).Sublist expr.targets := by
  rw [Expr.writes.eq_def]
  split
  · exact List.nil_sublist _
  · cases expr with
    | number | «variable» => exact List.nil_sublist _
    | assign name operand span =>
      rw [Expr.targets, List.map_append]
      refine (operand.writes_sublist_targets context limit (level + 1) store).append ?_
      cases operand.value? context limit (level + 1) store with
      | none => exact List.nil_sublist _
      | some value => exact List.Sublist.refl _
    | unary operator operand span =>
      exact operand.writes_sublist_targets context limit (level + 1) store
    | binary left operator right span =>
      rw [Expr.targets, List.map_append]
      refine (left.writes_sublist_targets context limit _ store).append ?_
      split
      · exact right.writes_sublist_targets context limit (level + 1) _
      · exact List.nil_sublist _
    | conditional branches span =>
      exact branches.writes_sublist_targets context limit (level + 1) store

private theorem Branches.writes_sublist_targets (context : Context) (limit level : Nat)
    (store : Store) (branches : Branches) :
    ((branches.writes context limit level store).map Write.name).Sublist branches.targets := by
  cases branches with
  | nothing => exact List.nil_sublist _
  | otherwise result => exact result.writes_sublist_targets context limit level store
  | clause condition result rest =>
    rw [Branches.writes, Branches.targets, List.map_append]
    refine (condition.writes_sublist_targets context limit level store).append ?_
    split
    · split
      · exact (result.writes_sublist_targets context limit level _).trans
          (List.sublist_append_left _ _)
      · exact (rest.writes_sublist_targets context limit level _).trans
          (List.sublist_append_right _ _)
    · exact List.nil_sublist _

end

/-- In a forest, evaluation changes the table of its own context alone, and that one by the assignments
that were completed, in order, at most once for each that stands in the expression. -/
theorem effect_of_run {contexts : List Context} {store : Store} {context : Context}
    (forest : Forest contexts store) (member : context ∈ contexts) (expr : Expr) (limit : Nat) :
    let writes := expr.writes context limit 1 store
    let after := (expr.run context limit store).2
    (∀ other ∈ contexts, other ≠ context → after.table other.table = store.table other.table) ∧
      after.table context.table = (store.table context.table).overwrite writes ∧
      (writes.map Write.name).Sublist expr.targets ∧
      (∀ name, name ∉ expr.targets → ∀ other ∈ contexts,
        other.lookup after name = other.lookup store name) ∧
      Forest contexts after := by
  intro writes after
  have left : after = store.overwrite context.table writes :=
    expr.after_eq_overwrite context limit 1 store
  have present := forest.table_lt context member
  have named : (writes.map Write.name).Sublist expr.targets :=
    expr.writes_sublist_targets context limit 1 store
  refine ⟨?_, ?_, named, ?_, ?_⟩
  · intro other inside different
    have apart : other.table ≠ context.table := fun same =>
      different (forest.eq_of_table other inside context member same)
    rw [left, Store.table_overwrite store _ writes present, if_neg apart]
  · rw [left, Store.table_overwrite store _ writes present, if_pos rfl]
  · intro name free other inside
    -- A scope may reach the table of the context through parents, so each of its tables is compared.
    have unwritten : name ∉ writes.map Write.name := fun written => free (named.subset written)
    refine Store.find?_congr fun number => ?_
    rw [left, Store.table_overwrite store number writes present]
    split
    · rename_i same
      rw [same, Bindings.get?_overwrite unwritten]
    · rfl
  · rw [left]
    exact forest.overwrite member writes

/-- The sum fails at `q`, which keeps `z` from being assigned; `w` stands in the branch not taken, and
`x` and `y` stay assigned. -/
theorem effect_of_failed_sum :
    let (root, single) := Context.openRoot .empty "program"
    let (inner, store) := Context.openChild single root "inner" .start
    let chosen : Branches := .clause (.assign "y" (.number 2.0 default) default)
      (.assign "z" (.variable "q" default) default)
      (.otherwise (.assign "w" (.number 3.0 default) default))
    let sum : Expr := .binary (.assign "x" (.number 1.0 default) default) .add
      (.conditional chosen default) default
    let after := (sum.run inner 5 store).2
    Forest [inner, root] store ∧ after.table root.table = store.table root.table ∧
      after.table inner.table =
        (store.table inner.table).overwrite [⟨"x", 1.0⟩, ⟨"y", 2.0⟩] := by
  have single : Forest _ _ := Forest.empty.root "program"
  have forest : Forest _ _ := single.child List.mem_cons_self "inner" .start
  have effect := fun expr => effect_of_run forest List.mem_cons_self expr 5
  exact ⟨forest, (effect _).1 _ (by decide) (by decide), (effect _).2.1⟩

end Reckon

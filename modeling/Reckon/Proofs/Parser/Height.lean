import Mathlib.Algebra.GroupWithZero.Nat
import Mathlib.Algebra.Order.BigOperators.Group.List
import Mathlib.Algebra.Order.Group.Nat
import Reckon.Proofs.Parser.Limits

/-!
The height of the expressions that a parser returns. A path downwards meets operations, which the parser
counts over all its calls, and other nodes, each of which stands on a level of its own; so both limits
together bound the height.
-/
namespace Reckon

def Expr.children : Expr → List Expr
  | .number _ _ | .variable _ _ => []
  | .assign _ value _ => [value]
  | .unary _ operand _ => [operand]
  | .binary left _ right _ => [left, right]
  | .conditional branches _ => branches.parts

mutual

private theorem Expr.rec_children {motive : Expr → Prop}
    (step : ∀ expr : Expr, (∀ child ∈ expr.children, motive child) → motive expr) (expr : Expr) :
    motive expr := by
  apply step
  match expr with
  | .number _ _ => exact nofun
  | .variable _ _ => exact nofun
  | .assign _ value _ => exact List.forall_mem_singleton.mpr (value.rec_children step)
  | .unary _ operand _ => exact List.forall_mem_singleton.mpr (operand.rec_children step)
  | .binary left _ right _ =>
    exact List.forall_mem_cons.mpr ⟨left.rec_children step,
      List.forall_mem_singleton.mpr (right.rec_children step)⟩
  | .conditional branches _ => exact branches.rec_parts step

private theorem Branches.rec_parts {motive : Expr → Prop}
    (step : ∀ expr : Expr, (∀ child ∈ expr.children, motive child) → motive expr)
    (branches : Branches) : ∀ part ∈ branches.parts, motive part := by
  match branches with
  | .nothing => exact nofun
  | .otherwise result => exact List.forall_mem_singleton.mpr (result.rec_children step)
  | .clause condition result rest =>
    exact List.forall_mem_cons.mpr ⟨condition.rec_children step,
      List.forall_mem_cons.mpr ⟨result.rec_children step, rest.rec_parts step⟩⟩

end

mutual

/-- How many nodes the longest path downwards holds. -/
def Expr.height : Expr → Nat
  | .number _ _ | .variable _ _ => 1
  | .assign _ value _ => value.height + 1
  | .unary _ operand _ => operand.height + 1
  | .binary left _ right _ => max left.height right.height + 1
  | .conditional branches _ => branches.height + 1

def Branches.height : Branches → Nat
  | .nothing => 0
  | .otherwise result => result.height
  | .clause condition result rest => max condition.height (max result.height rest.height)

end

/-- The nodes of a tree, its root among them. -/
inductive Expr.Node : Expr → Expr → Prop
  | root (expr : Expr) : Node expr expr
  | within {expr child node : Expr} (member : child ∈ expr.children) (inner : Node child node) :
      Node expr node

theorem Expr.Node.trans {expr between node : Expr} (outer : expr.Node between)
    (inner : between.Node node) : expr.Node node := by
  induction outer with
  | root => exact inner
  | within member _ ih => exact .within member (ih inner)

theorem Expr.Node.of_child {expr child : Expr} (member : child ∈ expr.children) : expr.Node child :=
  .within member (.root child)

/-- The nodes from an expression down to one without children. -/
inductive Expr.Path : Expr → List Expr → Prop
  | leaf {expr : Expr} (last : expr.children = []) : Path expr [expr]
  | step {expr child : Expr} {path : List Expr} (member : child ∈ expr.children)
      (onward : Path child path) : Path expr (expr :: path)

private theorem Branches.exists_tallest (branches : Branches) (some : branches.parts ≠ []) :
    ∃ part ∈ branches.parts, branches.height = part.height := by
  match branches with
  | .nothing => exact absurd rfl some
  | .otherwise result => exact ⟨result, List.mem_singleton_self _, rfl⟩
  | .clause condition result rest =>
    have chosen : ∃ part ∈ result :: rest.parts, max result.height rest.height = part.height := by
      by_cases none : rest.parts = []
      · cases rest with
        | nothing => exact ⟨result, List.mem_cons_self, Nat.max_zero _⟩
        | otherwise | clause => cases none
      · obtain ⟨part, member, tallest⟩ := rest.exists_tallest none
        rcases Nat.le_total rest.height result.height with lower | lower
        · exact ⟨result, List.mem_cons_self, Nat.max_eq_left lower⟩
        · exact ⟨part, List.mem_cons_of_mem _ member, (Nat.max_eq_right lower).trans tallest⟩
    obtain ⟨part, member, tallest⟩ := chosen
    rcases Nat.le_total (max result.height rest.height) condition.height with lower | lower
    · exact ⟨condition, List.mem_cons_self, Nat.max_eq_left lower⟩
    · exact ⟨part, List.mem_cons_of_mem _ member, (Nat.max_eq_right lower).trans tallest⟩

namespace Expr

def isOther (expr : Expr) : Bool :=
  !expr.isBinary

private theorem exists_tallest (expr : Expr) (inner : expr.children ≠ []) :
    ∃ child ∈ expr.children, expr.height = child.height + 1 := by
  cases expr with
  | number | «variable» => exact absurd rfl inner
  | assign name value span => exact ⟨value, List.mem_singleton_self _, rfl⟩
  | unary operator operand span => exact ⟨operand, List.mem_singleton_self _, rfl⟩
  | binary left operator right span =>
    rcases Nat.le_total right.height left.height with lower | lower
    · exact ⟨left, List.mem_cons_self, congrArg (· + 1) (Nat.max_eq_left lower)⟩
    · exact ⟨right, List.mem_cons_of_mem _ (List.mem_singleton_self _),
        congrArg (· + 1) (Nat.max_eq_right lower)⟩
  | conditional branches span =>
    obtain ⟨part, member, tallest⟩ := branches.exists_tallest inner
    exact ⟨part, member, congrArg (· + 1) tallest⟩

private theorem height_leaf {expr : Expr} (last : expr.children = []) : expr.height = 1 := by
  cases expr with
  | number | «variable» => rfl
  | conditional branches span =>
    cases branches with
    | nothing => rfl
    | otherwise | clause => cases last
  | assign | unary | binary => cases last

private theorem exists_path (expr : Expr) : ∃ path, expr.Path path ∧ path.length = expr.height := by
  induction expr using Expr.rec_children with
  | step expr below =>
    by_cases last : expr.children = []
    · exact ⟨[expr], .leaf last, (height_leaf last).symm⟩
    · obtain ⟨child, member, tallest⟩ := expr.exists_tallest last
      obtain ⟨path, onward, long⟩ := below child member
      exact ⟨expr :: path, .step member onward, by rw [List.length_cons, long, tallest]⟩

private theorem operations_part {part : Expr} {branches : Branches}
    (member : part ∈ branches.parts) :
    part.operations ≤ branches.operations := by
  match branches with
  | .nothing => cases member
  | .otherwise result => exact Nat.le_of_eq (congrArg operations (List.mem_singleton.mp member))
  | .clause condition result rest =>
    rcases List.mem_cons.mp member with rfl | member
    · exact Nat.le_trans (Nat.le_add_right _ _) (Nat.le_add_right _ _)
    · rcases List.mem_cons.mp member with rfl | member
      · exact Nat.le_trans (Nat.le_add_left _ _) (Nat.le_add_right _ _)
      · exact Nat.le_trans (operations_part member) (Nat.le_add_left _ _)

private theorem operations_child {expr child : Expr} (member : child ∈ expr.children) :
    child.operations + [expr].countP isBinary ≤ expr.operations := by
  cases expr with
  | number | «variable» => cases member
  | assign name value span =>
    obtain rfl : child = value := List.mem_singleton.mp member
    exact Nat.le_refl _
  | unary operator operand span =>
    obtain rfl : child = operand := List.mem_singleton.mp member
    exact Nat.le_refl _
  | binary left operator right span =>
    rcases List.mem_cons.mp member with rfl | member
    · exact Nat.succ_le_succ (Nat.le_add_right _ _)
    · rw [List.mem_singleton.mp member]
      exact Nat.succ_le_succ (Nat.le_add_left _ _)
  | conditional branches span => exact operations_part member

private theorem Path.operations {expr : Expr} {path : List Expr} (down : expr.Path path) :
    path.countP isBinary ≤ expr.operations := by
  induction down with
  | @leaf expr last =>
    cases expr with
    | binary => cases last
    | _ => exact Nat.zero_le _
  | @step expr child path member _ ih =>
    rw [← List.singleton_append, List.countP_append, Nat.add_comm]
    exact Nat.le_trans (Nat.add_le_add_right ih _) (operations_child member)

end Expr

namespace Parser

section

variable {limit level strength : Nat} {expr : Expr} {path : List Expr}

private theorem others_cons (other : expr.isOther)
    (below : level + 1 + path.countP Expr.isOther ≤ limit + 1) :
    level + (expr :: path).countP Expr.isOther ≤ limit + 1 := by
  rw [List.countP_cons_of_pos other]
  omega

private theorem Nested.others_path (nested : Nested limit level strength expr)
    (down : expr.Path path) :
    level + path.countP Expr.isOther ≤ limit + 1 := by
  -- A node other than an operation stands one level above its parts; brackets open a level for no node.
  induction nested generalizing path with
  | number value span bound | reference name span bound =>
    cases down with
    | leaf => exact Nat.succ_le_succ bound
    | step member => cases member
  | assignment name span inner ih | unary operator span inner ih =>
    cases down with
    | leaf last => cases last
    | step member onward =>
      obtain rfl := List.mem_singleton.mp member
      exact others_cons rfl (ih onward)
  | operation span first second bound left right =>
    cases down with
    | leaf last => cases last
    | step member onward =>
      rw [List.countP_cons_of_neg Bool.false_ne_true]
      rcases List.mem_cons.mp member with rfl | member
      · exact left onward
      · obtain rfl := List.mem_singleton.mp member
        exact right onward
  | group inner ih => exact Nat.le_trans (Nat.add_le_add_right (Nat.le_succ _) _) (ih down)
  | conditional span some inner ih =>
    cases down with
    | leaf last => exact absurd last some
    | step member onward => exact others_cons rfl (ih _ member onward)

private theorem Nested.others_le (nested : Nested limit 1 0 expr) (down : expr.Path path) :
    path.countP Expr.isOther ≤ limit := by
  have bound := nested.others_path down
  omega

private theorem Nested.height_le (nested : Nested limit 1 0 expr) :
    expr.height ≤ limit + expr.operations := by
  obtain ⟨path, down, long⟩ := expr.exists_path
  -- The longest path is its operations and its other nodes, and each kind has its own bound.
  have parts := path.length_eq_countP_add_countP Expr.isBinary
  have same : path.countP (fun node => decide ¬ node.isBinary = true) = path.countP Expr.isOther :=
    List.countP_congr fun node _ => by simp [Expr.isOther]
  have others := nested.others_le down
  have operations := down.operations
  omega

end

private theorem operators_passage {limits : Limits} {configuration last : Configuration}
    {operators total : Nat} {taken : List Token}
    (passage : Passage limits configuration operators taken last total)
    (few : operators ≤ limits.operators) : operators ≤ total ∧ total ≤ limits.operators := by
  induction passage with
  | stay => exact ⟨Nat.le_refl _, few⟩
  | take within step _ ih =>
    obtain ⟨more, bound⟩ := ih (within.2 _ rfl)
    rw [Configuration.reading_counted] at more
    exact ⟨Nat.le_trans (Nat.le_add_right _ _) more, bound⟩

private theorem Halts.operators {limits : Limits} {finish : Span} {configuration : Configuration}
    {operators : Nat} {pending : List Token} {answer : Except Diagnostic Expr × Progress}
    (halts : Halts limits finish configuration operators pending answer) :
    answer.2.operators = operators := by
  cases halts <;> rfl

/-- The expressions that a parser returns when it is asked so many times. -/
def trees : Nat → Parser → List Expr
  | 0, _ => []
  | calls + 1, parser => parser.parse.1.toOption.toList ++ trees calls parser.parse.2

section

variable {parser : Parser} {expr : Expr}

private theorem operators_parse (few : parser.operators ≤ parser.limits.operators) :
    parser.operators ≤ parser.parse.2.operators ∧
      parser.parse.2.operators ≤ parser.limits.operators := by
  obtain ⟨taken, pending, last, total, -, passage, halts⟩ :=
    advance_halts parser.limits parser.finish parser.pending .initial parser.operators
  have counted : parser.parse.2.operators = total := halts.operators
  rw [counted]
  exact operators_passage passage few

private theorem operators_of_accepted (few : parser.operators ≤ parser.limits.operators)
    (accepted : parser.parse.1 = .ok expr) :
    parser.parse.2.operators = parser.operators + expr.operations := by
  have completed := outcome_of_advance accepted
  have sufficed := sufficed_of_accepted accepted (Nat.zero_le _) few
  have answered : parser.parse.2.operators = _ :=
    congrArg (fun answer => answer.2.operators) (advance_of_suffices completed sufficed)
  obtain ⟨phrase, text, longest, rfl⟩ := Grammar.outcome_initial_iff.mp completed
  rw [answered, ← text, follow_longest phrase longest, phrase.operators_readings]

private theorem operations_parse (few : parser.operators ≤ parser.limits.operators) :
    parser.operators + (parser.parse.1.toOption.toList.map Expr.operations).sum ≤
      parser.parse.2.operators := by
  cases answer : parser.parse.1 with
  | error diagnostic => exact (operators_parse few).1
  | ok expr => exact Nat.le_of_eq (operators_of_accepted few answer).symm

private theorem operations_trees (calls : Nat) (few : parser.operators ≤ parser.limits.operators) :
    parser.operators + ((trees calls parser).map Expr.operations).sum ≤
      parser.limits.operators := by
  induction calls generalizing parser with
  | zero => exact few
  | succ calls ih =>
    have first := operations_parse few
    have rest : parser.parse.2.operators + ((trees calls parser.parse.2).map Expr.operations).sum ≤
      parser.limits.operators := ih (operators_parse few).2
    rw [trees, List.map_append, List.sum_append]
    omega

private theorem nested_of_trees (calls : Nat) (returned : expr ∈ trees calls parser) :
    Nested parser.limits.depth 1 0 expr := by
  induction calls generalizing parser with
  | zero => cases returned
  | succ calls ih =>
    rcases List.mem_append.mp returned with first | later
    · cases answer : parser.parse.1 with
      | error diagnostic =>
        rw [answer] at first
        cases first
      | ok whole =>
        rw [answer] at first
        obtain rfl : expr = whole := List.mem_singleton.mp first
        exact nested_of_parse answer
    · have nested := ih later
      exact nested

end

/-- Over all calls of one parser, failed ones between them, the operations returned keep to the limit on
operators; along every path through a tree all other nodes keep to the limit on levels, and so the height
keeps to the sum of both. -/
theorem trees_bounded (limits : Limits) (tokens : List Token) (calls : Nat) :
    ((trees calls (ofTokens limits tokens)).map Expr.operations).sum ≤ limits.operators ∧
    ∀ tree ∈ trees calls (ofTokens limits tokens),
      (∀ path, tree.Path path → path.countP Expr.isOther ≤ limits.depth) ∧
        tree.height ≤ limits.depth + limits.operators := by
  have total : ((trees calls (ofTokens limits tokens)).map Expr.operations).sum ≤ limits.operators :=
    Nat.le_trans (Nat.le_add_left _ _) (operations_trees calls (Nat.zero_le _))
  refine ⟨total, fun tree returned => ?_⟩
  have nested : Nested limits.depth 1 0 tree := nested_of_trees calls returned
  have part : tree.operations ≤ ((trees calls (ofTokens limits tokens)).map Expr.operations).sum :=
    List.le_sum_of_mem (List.mem_map_of_mem returned)
  refine ⟨fun path down => nested.others_le down, ?_⟩
  exact Nat.le_trans nested.height_le (Nat.add_le_add_left (Nat.le_trans part total) _)

/-- The call that meets the second operator fails behind it, and the next one returns what is left. -/
theorem trees_bounded_behind_failure :
    let tokens : List Token := [.name "x", .plus, .name "y", .plus, .name "z"].map
      fun kind => ⟨kind, default, kind.text⟩
    let parser := ofTokens ⟨1, 1⟩ tokens
    trees 2 parser = [.variable "z" default] ∧
      ((trees 2 parser).map Expr.operations).sum ≤ 1 ∧
      (∀ path, (Expr.variable "z" default).Path path → path.countP Expr.isOther ≤ 1) ∧
      (Expr.variable "z" default).height ≤ 2 := by
  intro tokens parser
  have returned : trees 2 parser = [.variable "z" default] := rfl
  have bounded := trees_bounded ⟨1, 1⟩ tokens 2
  have member : Expr.variable "z" default ∈ trees 2 parser := returned ▸ List.mem_singleton_self _
  exact ⟨returned, bounded.1, bounded.2 _ member⟩

end Parser

end Reckon

import Reckon.Proofs.Evaluation.Tower

/-!
Levels of evaluation against levels of nesting: six of the former suffice for each of the latter, one for
each strength of operators between two operands and one for the construct that opens the level.
-/
namespace Reckon

open Reckon.Parser Evaluation

/-- How many strengths of operators between two operands there are from a strength on. -/
def strengthsFrom (strength : Nat) : Nat :=
  Tower.ladder.countP fun operator => strength ≤ operator.strength

private theorem strengthsFrom_le (strength : Nat) : strengthsFrom strength ≤ 5 :=
  List.countP_le_length

private theorem strengthsFrom_anti {weak strong : Nat} (bound : weak ≤ strong) :
    strengthsFrom strong ≤ strengthsFrom weak :=
  List.countP_mono_left fun _ _ binds =>
    decide_eq_true (Nat.le_trans bound (of_decide_eq_true binds))

private theorem strengthsFrom_operator (operator : BinaryOperator) :
    strengthsFrom operator.strength = strengthsFrom (operator.strength + 1) + 1 := by
  cases operator <;> decide

private theorem Branches.levels_le {branches : Branches} {bound : Nat}
    (all : ∀ part ∈ branches.parts, part.levels ≤ bound) : branches.levels ≤ bound := by
  cases branches with
  | nothing => exact Nat.zero_le _
  | otherwise result => exact all result List.mem_cons_self
  | clause condition result rest =>
    have later := rest.levels_le fun part member =>
      all part (List.mem_cons_of_mem _ (List.mem_cons_of_mem _ member))
    have test := all condition List.mem_cons_self
    have chosen := all result (List.mem_cons_of_mem _ List.mem_cons_self)
    rw [Branches.levels]
    omega

/-- Only a chain of operators takes levels beyond those of its own level of nesting. -/
def chainLevels (strength : Nat) (expr : Expr) : Nat :=
  if expr.isBinary then strengthsFrom strength else 0

private theorem chainLevels_le (strength : Nat) (expr : Expr) :
    chainLevels strength expr ≤ strengthsFrom strength := by
  unfold chainLevels
  split
  · exact Nat.le_refl _
  · exact Nat.zero_le _

private theorem levels_of_nested {limit level strength : Nat} {expr : Expr}
    (nested : Nested limit level strength expr) :
    6 * level + expr.levels ≤ 6 * limit + chainLevels strength expr + 1 := by
  -- Six levels are left for every level of nesting below, and those of the chain under way.
  induction nested with
  | number value span bound | reference name span bound =>
    rw [Expr.levels]
    omega
  | @assignment _ _ _ value _ _ ih | @unary _ _ _ value _ _ ih =>
    have chain := (chainLevels_le 0 value).trans (strengthsFrom_le 0)
    rw [Expr.levels]
    omega
  | @operation level strength operator left right span first second bound ih ih' =>
    have next := strengthsFrom_operator operator
    have wider := strengthsFrom_anti bound
    have chain := chainLevels_le (operator.strength + 1) right
    have whole : chainLevels strength (.binary left operator right span) = strengthsFrom strength := rfl
    rw [whole, Expr.levels]
    cases shape : left.isBinary with
    | true =>
      have first := chainLevels_le operator.strength left
      simp only [if_true]
      omega
    | false =>
      have first : chainLevels operator.strength left = 0 := by
        simp only [chainLevels, shape, Bool.false_eq_true, if_false]
      simp only [Bool.false_eq_true, if_false]
      omega
  | @group _ _ expr _ ih =>
    have chain := (chainLevels_le 0 expr).trans (strengthsFrom_le 0)
    omega
  | @conditional level strength branches span some inner ih =>
    obtain ⟨part, member⟩ := List.exists_mem_of_ne_nil _ some
    have room : ∀ part ∈ branches.parts, 6 * (level + 1) + part.levels ≤ 6 * limit + 6 := by
      intro part member
      have chain := (chainLevels_le 0 part).trans (strengthsFrom_le 0)
      have inside := ih part member
      omega
    have inside := room part member
    have most : branches.levels ≤ 6 * limit - 6 * level :=
      Branches.levels_le fun part member => by
        have inside := room part member
        omega
    rw [Expr.levels]
    omega

/-- Six levels of evaluation for each level of nesting are enough for whatever a parser accepts, and for
every limit on nesting there is a text for which one fewer is not. -/
theorem evaluation_levels_of_nesting :
    (∀ (limits : Limits) (tokens : List Token) (expr : Expr),
      (ofTokens limits tokens).parse.1 = .ok expr →
      ∀ (limit : Nat), 6 * limits.depth ≤ limit → ∀ (context : Context) (store : Store),
        ¬ Exhausted (expr.run context limit store).1) ∧
      ∀ depth, 1 ≤ depth → ∃ text operators expr,
        Expr.ofText ⟨depth, operators⟩ text = .ok expr ∧
        ∀ (context : Context) (store : Store),
          Fails (.evaluationTooDeep (6 * depth - 1)) (expr.run context (6 * depth - 1) store).1 := by
  refine ⟨?_, ?_⟩
  · intro limits tokens expr accepted limit enough context store
    have nested : Nested limits.depth 1 0 expr := nested_of_parse accepted
    have bound := levels_of_nested nested
    have chain := (chainLevels_le 0 expr).trans (strengthsFrom_le 0)
    exact expr.endures context (by omega) store
  · intro depth positive
    obtain ⟨above, rfl⟩ := Nat.exists_eq_add_of_le' positive
    obtain ⟨related, whole, read, alike⟩ := Tower.ofText_text above ⟨above + 1, 5 * (above + 1)⟩
      (Nat.le_refl _) (Nat.le_refl _)
    refine ⟨_, _, whole, read, fun context store => ?_⟩
    exact Tower.exhausts_expr context alike (by omega) store

/-- The negated operand in brackets stands on the third level of nesting; whatever is bound, eighteen
levels of evaluation are enough, and there is a text of three levels for which seventeen are not. -/
theorem levels_of_negated_group :
    let token (kind : Token.Kind) : Token := ⟨kind, default, kind.text⟩
    let tokens := [.name "x", .keyword .or, .keyword .not, .leftParen, .name "y", .rightParen].map token
    let choice : Expr := .binary (.variable "x" default) .or
      (.unary .not (.variable "y" default) default) default
    (ofTokens ⟨3, 1⟩ tokens).parse.1 = .ok choice ∧
      (∀ context store, ¬ Exhausted (choice.run context 18 store).1) ∧
      ∃ text operators expr, Expr.ofText ⟨3, operators⟩ text = .ok expr ∧
        ∀ (context : Context) (store : Store),
          Fails (.evaluationTooDeep 17) (expr.run context 17 store).1 := by
  intro token tokens choice
  have accepted : (ofTokens ⟨3, 1⟩ tokens).parse.1 = .ok choice := rfl
  exact ⟨accepted, evaluation_levels_of_nesting.1 ⟨3, 1⟩ tokens choice accepted 18 (Nat.le_refl _),
    evaluation_levels_of_nesting.2 3 (by decide)⟩

end Reckon

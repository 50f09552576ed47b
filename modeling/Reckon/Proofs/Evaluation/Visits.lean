import Reckon.Proofs.Evaluation.Levels

/-!
What evaluation without a limit reaches, node by node, with the level of the node and all that is bound
by then. Evaluation under a limit ends at the first node that stands too deep; where there is none, it
is evaluation without a limit.
-/
namespace Reckon

open Evaluation

structure Visit where
  level : Nat
  node : Expr
  store : Store

/-- What is reached behind a part, if the part comes to a value. -/
def Evaluation.behind {α : Type} (outcome : Except Diagnostic α × Store)
    (onward : α → Store → List Visit) : List Visit :=
  match outcome with
  | (.ok value, between) => onward value between
  | (.error _, _) => []

/-- Where the left operand of an operation stands: one level below, unless it is one more operation. -/
def Expr.leadingLevel (level : Nat) : Expr → Nat
  | .binary .. => level
  | _ => level + 1

private theorem Expr.leadingLevel_eq (level : Nat) (left : Expr) :
    left.leadingLevel level = if left.isBinary then level else level + 1 := by
  cases left <;> rfl

mutual

/-- Operations along the left operands of an operation stand on its level, and all operands of theirs
one level below; so does every part of any other node below the node. -/
def Expr.visits (context : Context) (level : Nat) (expr : Expr) (store : Store) : List Visit :=
  ⟨level, expr, store⟩ ::
    match expr with
    | .number _ _ | .variable _ _ => []
    | .assign _ operand _ | .unary _ operand _ => operand.visits context (level + 1) store
    | .binary left _ right _ =>
      left.visits context (left.leadingLevel level) store ++
        behind ((left.valued context).run.run store) fun _ between =>
          right.visits context (level + 1) between
    | .conditional branches _ => branches.visits context (level + 1) store

/-- The level is that of each condition and result. -/
def Branches.visits (context : Context) (level : Nat) (branches : Branches) (store : Store) :
    List Visit :=
  match branches with
  | .nothing => []
  | .otherwise result => result.visits context level store
  | .clause condition result rest =>
    condition.visits context level store ++
      behind ((condition.valued context).run.run store) fun value between =>
        if value.isTruthy then result.visits context level between
        else rest.visits context level between

end

namespace Evaluation

variable {α β : Type} {context : Context} {limit : Nat} {store : Store}

/-- The outcome without a limit, unless a visit passes the limit. -/
def curtailed (context : Context) (limit : Nat) (visits : List Visit)
    (outcome : Except Diagnostic α × Store) : Except Diagnostic α × Store :=
  match visits.find? (limit < ·.level) with
  | some visit =>
    (.error ⟨.evaluationTooDeep limit, visit.node.span,
      context.traceback visit.node.span.start, none, none⟩, visit.store)
  | none => outcome

def Curtails (context : Context) (limit : Nat) (store : Store) (visits : List Visit)
    (first second : Evaluation α) : Prop :=
  first.run.run store = curtailed context limit visits (second.run.run store)

private theorem Curtails.refl (evaluation : Evaluation α) :
    Curtails context limit store [] evaluation evaluation :=
  rfl

private theorem Curtails.bind {first second : Evaluation α} {next later : α → Evaluation β}
    {visits : List Visit} {onward : α → Store → List Visit}
    (begun : Curtails context limit store visits first second)
    (continued : ∀ value between,
      Curtails context limit between (onward value between) (next value) (later value)) :
    Curtails context limit store (visits ++ behind (second.run.run store) onward)
      (first >>= next) (second >>= later) := by
  rw [Curtails, curtailed] at begun
  rw [Curtails, run_bind, run_bind, begun, curtailed, List.find?_append]
  cases visits.find? (limit < ·.level) with
  | some visit => rfl
  | none =>
    rw [Option.none_or]
    rcases second.run.run store with ⟨outcome, between⟩
    cases outcome with
    | ok value => exact continued value between
    | error diagnostic => rfl

/-- What does not evaluate parts adds no visits. -/
private theorem Curtails.andThen {first second : Evaluation α} {visits : List Visit}
    (begun : Curtails context limit store visits first second) (next : α → Evaluation β) :
    Curtails context limit store visits (first >>= next) (second >>= next) := by
  have whole : Curtails context limit store
      (visits ++ behind (second.run.run store) fun _ _ => []) (first >>= next) (second >>= next) :=
    begun.bind fun value _ => .refl (next value)
  have none : behind (second.run.run store) (fun _ _ => []) = [] := by
    unfold behind
    split <;> rfl
  rwa [none, List.append_nil] at whole

private theorem Curtails.visit {visit : Visit} {visits : List Visit} {first second : Evaluation α}
    (room : ¬ limit < visit.level) (onward : Curtails context limit store visits first second) :
    Curtails context limit store (visit :: visits) first second := by
  rw [Curtails, curtailed, List.find?_cons_of_neg (by simpa using room)]
  exact onward

private theorem curtails_deep {level : Nat} {visits : List Visit} (node : Expr)
    (deep : limit < level) (evaluation : Evaluation α) :
    Curtails context limit store (⟨level, node, store⟩ :: visits)
      (fail context (.evaluationTooDeep limit) node.span) evaluation := by
  rw [Curtails, curtailed, List.find?_cons_of_pos (by simpa using deep)]
  rfl

section

variable {operand : Expr} {first : Evaluation (Option Value)} {visits : List Visit}

private theorem Curtails.valued
    (begun : Curtails context limit store visits first (operand.plain context)) :
    Curtails context limit store visits (first >>= required context operand) (operand.valued context) := by
  rw [operand.valued_eq_required]
  exact begun.andThen _

/-- A part comes to its value, and what is behind it goes on with that value. -/
private theorem Curtails.part {next later : Value → Evaluation β} {onward : Value → Store → List Visit}
    (begun : Curtails context limit store visits first (operand.plain context))
    (continued : ∀ value between,
      Curtails context limit between (onward value between) (next value) (later value)) :
    Curtails context limit store (visits ++ behind ((operand.valued context).run.run store) onward)
      (first >>= fun found => required context operand found >>= next)
      (operand.valued context >>= later) := by
  have whole := begun.valued.bind continued
  rwa [bind_assoc] at whole

private theorem Curtails.lastPart
    (begun : Curtails context limit store visits first (operand.plain context))
    (next : Value → Evaluation β) :
    Curtails context limit store visits
      (first >>= fun found => required context operand found >>= next)
      (operand.valued context >>= next) := by
  have whole := begun.valued.andThen next
  rwa [bind_assoc] at whole

end

end Evaluation

mutual

private theorem Expr.curtails (context : Context) (limit level : Nat) (store : Store)
    (expr : Expr) :
    Curtails context limit store (expr.visits context level store)
      (expr.evaluate context limit level) (expr.plain context) := by
  rw [Expr.evaluate.eq_def, Expr.visits.eq_def]
  by_cases deep : limit < level
  · rw [if_pos deep]
    exact curtails_deep expr deep _
  · rw [if_neg deep]
    refine .visit deep ?_
    cases expr with
    | number value span => exact .refl _
    | «variable» name span => exact .refl _
    | assign name operand span =>
      rw [plain_assign]
      exact (operand.curtails context limit (level + 1) store).lastPart _
    | unary operator operand span =>
      rw [plain_unary]
      exact (operand.curtails context limit (level + 1) store).lastPart _
    | binary left operator right span =>
      rw [plain_binary]
      simp only [Expr.leadingLevel_eq]
      -- The right operand is reached with what the left one has bound, if that came to a value.
      refine (left.curtails context limit _ store).part fun value between => ?_
      exact (right.curtails context limit (level + 1) between).lastPart _
    | conditional branches span => exact branches.curtails context limit (level + 1) store

private theorem Branches.curtails (context : Context) (limit level : Nat) (store : Store)
    (branches : Branches) :
    Curtails context limit store (branches.visits context level store)
      (branches.evaluate context limit level) (branches.plain context) := by
  cases branches with
  | nothing => exact .refl _
  | otherwise result => exact result.curtails context limit level store
  | clause condition result rest =>
    rw [plain_clause]
    refine (condition.curtails context limit level store).part fun value between => ?_
    split
    · exact result.curtails context limit level between
    · exact rest.curtails context limit level between

end

theorem Expr.run_eq_curtailed (expr : Expr) (context : Context) (limit : Nat) (store : Store) :
    expr.run context limit store =
      curtailed context limit (expr.visits context 1 store) ((expr.plain context).run.run store) :=
  expr.curtails context limit 1 store

/-- Without a limit no evaluation runs out of levels. -/
theorem Expr.plain_endures (expr : Expr) (context : Context) : Endures (expr.plain context) := by
  intro store
  have room : ¬ Exhausted (expr.run context expr.levels store).1 :=
    expr.endures context (Nat.le_of_eq (Nat.add_comm 1 expr.levels)) store
  rwa [Expr.run, expr.evaluate_within context expr.levels 1 store room] at room

namespace Evaluation

variable {α : Type} {context : Context} {limit : Nat} {visits : List Visit}
  {outcome : Except Diagnostic α × Store}

theorem fails_curtailed (finished : ¬ Exhausted outcome.1) :
    Fails (.evaluationTooDeep limit) (curtailed context limit visits outcome).1 ↔
      ∃ visit ∈ visits, limit < visit.level := by
  rw [curtailed]
  cases found : visits.find? (limit < ·.level) with
  | none =>
    have shallow := List.find?_eq_none.mp found
    constructor
    · rintro ⟨diagnostic, failed, deep⟩
      exact absurd ⟨diagnostic, limit, failed, deep⟩ finished
    · rintro ⟨visit, member, deep⟩
      exact absurd (decide_eq_true deep) (shallow visit member)
  | some visit =>
    have deep : limit < visit.level := by simpa using List.find?_some found
    exact ⟨fun _ => ⟨visit, List.mem_of_find?_eq_some found, deep⟩, fun _ => ⟨_, rfl, rfl⟩⟩

/-- A result that no limit has cut short is the one of every larger limit. -/
theorem curtailed_of_whole {larger : Nat} (more : limit ≤ larger)
    (whole : ¬ Fails (.evaluationTooDeep limit) (curtailed context limit visits outcome).1) :
    curtailed context larger visits outcome = outcome := by
  have shallow (visit : Visit) (member : visit ∈ visits) : ¬ larger < visit.level := by
    intro deep
    cases found : visits.find? (limit < ·.level) with
    | none =>
      have passes : limit < visit.level := Nat.lt_of_le_of_lt more deep
      exact List.find?_eq_none.mp found visit member (decide_eq_true passes)
    | some first =>
      rw [curtailed, found] at whole
      exact whole ⟨_, rfl, rfl⟩
  have none : visits.find? (larger < ·.level) = none :=
    List.find?_eq_none.mpr fun visit member deep => shallow visit member (of_decide_eq_true deep)
  rw [curtailed, none]

end Evaluation

end Reckon

import Reckon.Proofs.Parser.Passage

/-!
Nesting of expressions. A parser accepts only expressions whose numbers and names stand within its limit
of levels, with the operators of a level binding the more strongly the further inside they stand.
-/
namespace Reckon

def Branches.parts : Branches → List Expr
  | .nothing => []
  | .otherwise result => [result]
  | .clause condition result rest => condition :: result :: rest.parts

namespace Parser

/-- At a level, with no operator outside brackets that binds weaker than a strength. Brackets leave no
node of their own. -/
inductive Nested (limit : Nat) : Nat → Nat → Expr → Prop
  | number {level strength : Nat} (value : Float) (span : Span) (bound : level ≤ limit) :
      Nested limit level strength (.number value span)
  | reference {level strength : Nat} (name : String) (span : Span) (bound : level ≤ limit) :
      Nested limit level strength (.variable name span)
  | assignment {level strength : Nat} (name : String) {value : Expr} (span : Span)
      (inner : Nested limit (level + 1) 0 value) :
      Nested limit level strength (.assign name value span)
  | unary {level strength : Nat} (operator : UnaryOperator) {operand : Expr} (span : Span)
      (inner : Nested limit (level + 1) 0 operand) :
      Nested limit level strength (.unary operator operand span)
  | operation {level strength : Nat} {operator : BinaryOperator} {left right : Expr} (span : Span)
      (first : Nested limit level operator.strength left)
      (second : Nested limit level (operator.strength + 1) right)
      (bound : strength ≤ operator.strength) :
      Nested limit level strength (.binary left operator right span)
  | group {level strength : Nat} {expr : Expr} (inner : Nested limit (level + 1) 0 expr) :
      Nested limit level strength expr
  | conditional {level strength : Nat} {branches : Branches} (span : Span)
      (some : branches.parts ≠ []) (inner : ∀ part ∈ branches.parts, Nested limit (level + 1) 0 part) :
      Nested limit level strength (.conditional branches span)

private theorem Nested.weaken {limit level strong weak : Nat} {expr : Expr}
    (nested : Nested limit level strong expr) (bound : weak ≤ strong) :
    Nested limit level weak expr := by
  cases nested with
  | number value span inside => exact .number value span inside
  | reference name span inside => exact .reference name span inside
  | assignment name span inner => exact .assignment name span inner
  | unary operator span inner => exact .unary operator span inner
  | operation span first second above => exact .operation span first second (Nat.le_trans bound above)
  | group inner => exact .group inner
  | conditional span some inner => exact .conditional span some inner

/-- The level of the part under way. -/
def level (stack : List Frame) : Nat :=
  stack.countP Frame.opensLevel + 1

/-- How strongly the operators of the part under way have to bind. -/
def due : List Frame → Nat
  | .operation _ operator :: _ => operator.strength + 1
  | _ => 0

@[simp] theorem level_nil : level [] = 1 := rfl

@[simp] theorem level_operation (left : Expr) (operator : BinaryOperator) (stack : List Frame) :
    level (.operation left operator :: stack) = level stack := by
  simp [level, Frame.opensLevel]

theorem level_opening {frame : Frame} (opens : frame.opensLevel) (stack : List Frame) :
    level (frame :: stack) = level stack + 1 := by
  simp [level, opens]

private theorem due_opening {frame : Frame} (opens : frame.opensLevel) (stack : List Frame) :
    due (frame :: stack) = 0 := by
  cases frame with
  | operation => cases opens
  | _ => rfl

def clauseParts (clauses : List (Expr × Expr)) : List Expr :=
  clauses.flatMap fun clause => [clause.1, clause.2]

private theorem mem_clauseParts_cons {part : Expr} {clause : Expr × Expr}
    {clauses : List (Expr × Expr)} :
    part ∈ clauseParts (clause :: clauses) ↔
      part = clause.1 ∨ part = clause.2 ∨ part ∈ clauseParts clauses := by
  simp only [clauseParts, List.flatMap_cons, List.mem_append, List.mem_cons, List.not_mem_nil,
    or_false, or_assoc]

def Frame.parts : Frame → List Expr
  | .operation .. | .unary .. | .group | .assignment .. => []
  | .condition _ clauses | .otherwise _ clauses => clauseParts clauses
  | .result _ clauses premise => premise :: clauseParts clauses

private theorem mem_parts_after {part : Expr} {clauses : List (Expr × Expr)} {rest : Branches} :
    part ∈ (Branches.after clauses rest).parts ↔ part ∈ clauseParts clauses ∨ part ∈ rest.parts := by
  induction clauses generalizing rest with
  | nil => simp [Branches.after, clauseParts]
  | cons clause clauses ih =>
    have step : part ∈ (Branches.after (clause :: clauses) rest).parts ↔
        part ∈ clauseParts clauses ∨ part ∈ (Branches.clause clause.1 clause.2 rest).parts := ih
    rw [step, mem_clauseParts_cons]
    simp only [Branches.parts, List.mem_cons, or_assoc, or_left_comm]

/-- Stacks of constructs whose parts are nested within the limit. An operation stands on an operation
only if it binds more strongly. -/
inductive Stacked (limit : Nat) : List Frame → Prop
  | nil : Stacked limit []
  | operation {left : Expr} {operator : BinaryOperator} {stack : List Frame}
      (below : Stacked limit stack) (first : Nested limit (level stack) operator.strength left)
      (binds : due stack ≤ operator.strength) :
      Stacked limit (.operation left operator :: stack)
  | opening {frame : Frame} {stack : List Frame} (opens : frame.opensLevel)
      (below : Stacked limit stack)
      (parts : ∀ part ∈ frame.parts, Nested limit (level stack + 1) 0 part) :
      Stacked limit (frame :: stack)

section

variable {limit : Nat} {frame : Frame} {stack : List Frame} {part expr : Expr}

private theorem Stacked.rest (stacked : Stacked limit (frame :: stack)) : Stacked limit stack := by
  cases stacked with
  | operation below => exact below
  | opening _ below => exact below

private theorem Stacked.parts (stacked : Stacked limit (frame :: stack))
    (opens : frame.opensLevel) :
    ∀ part ∈ frame.parts, Nested limit (level stack + 1) 0 part := by
  cases stacked with
  | operation => cases opens
  | opening _ _ parts => exact parts

private theorem Stacked.opened (stacked : Stacked limit stack) (opens : frame.opensLevel)
    (empty : frame.parts = []) : Stacked limit (frame :: stack) :=
  .opening opens stacked fun _ member => absurd (empty ▸ member) List.not_mem_nil

private theorem nested_part (opens : frame.opensLevel)
    (last : Nested limit (level (frame :: stack)) (due (frame :: stack)) part) :
    Nested limit (level stack + 1) 0 part := by
  rwa [level_opening opens, due_opening opens] at last

/-- A construct with a level of its own, once whole, may stand where any strength is due. -/
private theorem nested_opened (opens : frame.opensLevel)
    (parts : ∀ part ∈ frame.parts, Nested limit (level stack + 1) 0 part)
    (last : Nested limit (level stack + 1) 0 part) (whole : frame.whole part = .ok expr)
    (strength : Nat) : Nested limit (level stack) strength expr := by
  cases frame with
  | operation => cases opens
  | unary operator opening =>
    cases whole
    exact .unary operator _ last
  | group => cases whole
  | assignment name opening =>
    cases whole
    exact .assignment name _ last
  | condition => cases whole
  | result opening clauses premise =>
    cases whole
    have added : part ∈ clauseParts ((premise, part) :: clauses) :=
      mem_clauseParts_cons.mpr (.inr (.inl rfl))
    refine .conditional _ (List.ne_nil_of_mem (mem_parts_after.mpr (.inl added))) fun inner member => ?_
    rcases mem_parts_after.mp member with earlier | final
    · rcases mem_clauseParts_cons.mp earlier with rfl | rfl | earlier
      · exact parts _ List.mem_cons_self
      · exact last
      · exact parts _ (List.mem_cons_of_mem _ earlier)
    · cases final
  | otherwise opening clauses =>
    cases whole
    have added : part ∈ (Branches.otherwise part).parts := List.mem_singleton_self part
    refine .conditional _ (List.ne_nil_of_mem (mem_parts_after.mpr (.inr added))) fun inner member => ?_
    rcases mem_parts_after.mp member with earlier | final
    · exact parts _ earlier
    · rw [List.mem_singleton.mp final]
      exact last

/-- A construct with its last part is nested as strongly as what stands around it asks for. -/
private theorem nested_whole (stacked : Stacked limit (frame :: stack))
    (last : Nested limit (level (frame :: stack)) (due (frame :: stack)) part)
    (whole : frame.whole part = .ok expr) : Nested limit (level stack) (due stack) expr := by
  cases stacked with
  | operation below first binds =>
    cases whole
    rw [level_operation] at last
    exact .operation _ first last binds
  | opening opens below parts => exact nested_opened opens parts (nested_part opens last) whole _

/-- The part that is left may be the first one of an operation of the strength. -/
private theorem nested_reduce {strength : Nat} (stacked : Stacked limit stack)
    (last : Nested limit (level stack) (max strength (due stack)) part) :
    let left := reduce strength stack part
    Stacked limit left.1 ∧ Nested limit (level left.1) strength left.2 ∧ due left.1 ≤ strength := by
  induction stacked generalizing part with
  | nil => exact ⟨.nil, last.weaken (Nat.le_max_left _ _), Nat.zero_le _⟩
  | @operation left operator stack below first binds ih =>
    rw [level_operation] at last
    rw [reduce]
    split
    · rename_i holds
      -- The operation made is as strong as its operator, and that stands above what is due below it.
      refine ih (.operation _ first (last.weaken ?_) (Nat.max_le.mpr ⟨holds, binds⟩))
      exact Nat.le_max_right _ _
    · rename_i gives
      refine ⟨.operation below first binds, ?_, Nat.lt_of_not_le gives⟩
      rw [level_operation]
      exact last.weaken (Nat.le_max_left _ _)
  | @opening frame stack opens below parts ih =>
    have kept : Stacked limit (frame :: stack) ∧ Nested limit (level (frame :: stack)) strength part ∧
        due (frame :: stack) ≤ strength :=
      ⟨.opening opens below parts, last.weaken (Nat.le_max_left _ _),
        (due_opening opens stack).symm ▸ Nat.zero_le _⟩
    cases frame with
    | operation => cases opens
    | unary operator opening =>
      rw [reduce]
      split
      · rw [level_opening rfl] at last
        exact ih (.unary operator _ (last.weaken (Nat.zero_le _)))
      · exact kept
    | _ => exact kept

end

/-- What a parser has so far is nested within the limit, a whole operand as strongly as can be. -/
structure Configuration.Kept (limit : Nat) (configuration : Configuration) : Prop where
  stacked : Stacked limit configuration.stack
  operand : ∀ part, configuration.phase = .complete part →
    ∀ strength, Nested limit (level configuration.stack) strength part

private theorem kept_of_waiting {limit : Nat} {phase : Phase} {stack : List Frame}
    (waiting : ∀ part, phase ≠ .complete part) (stacked : Stacked limit stack) :
    Configuration.Kept limit ⟨phase, stack⟩ :=
  ⟨stacked, fun part same => absurd same (waiting part)⟩

private theorem Configuration.kept_initial (limit : Nat) : Kept limit .initial :=
  kept_of_waiting (by rintro _ ⟨⟩) .nil

section

variable {limit : Nat} {stack : List Frame} {part expr : Expr}

private theorem Begins.kept {token : Token} {goal : Goal} {next : Configuration}
    (begins : Begins token stack goal next) (stacked : Stacked limit stack)
    (shallow : level stack ≤ limit) : next.Kept limit := by
  cases begins with
  | number value literal =>
    refine ⟨stacked, fun part same strength => ?_⟩
    cases same
    exact .number value _ shallow
  | reference name named =>
    refine ⟨stacked, fun part same strength => ?_⟩
    cases same
    exact .reference name _ shallow
  | group | conditional | prefixed => exact kept_of_waiting (by rintro _ ⟨⟩) (stacked.opened rfl rfl)
  | assignment => exact kept_of_waiting (by rintro _ ⟨⟩) stacked

private theorem Resumes.kept {frame : Frame} {kind : Token.Kind} {next : Configuration}
    (resumes : Resumes part stack kind frame next) (stacked : Stacked limit (frame :: stack))
    (last : Nested limit (level (frame :: stack)) (due (frame :: stack)) part) :
    next.Kept limit := by
  cases resumes with
  | group =>
    refine ⟨stacked.rest, fun part same strength => ?_⟩
    cases same
    exact .group (nested_part rfl last)
  | condition opening clauses =>
    refine kept_of_waiting (by rintro _ ⟨⟩) (.opening rfl stacked.rest fun inner member => ?_)
    rcases List.mem_cons.mp member with rfl | earlier
    · exact nested_part rfl last
    · exact stacked.parts rfl inner earlier
  | further opening clauses premise | otherwise opening clauses premise =>
    refine kept_of_waiting (by rintro _ ⟨⟩) (.opening rfl stacked.rest fun inner member => ?_)
    rcases mem_clauseParts_cons.mp member with rfl | rfl | earlier
    · exact stacked.parts rfl _ List.mem_cons_self
    · exact nested_part rfl last
    · exact stacked.parts rfl inner (List.mem_cons_of_mem _ earlier)

private theorem Closes.kept {kind : Token.Kind} {next : Configuration}
    (closes : Closes kind stack part next)
    (stacked : Stacked limit stack) (last : Nested limit (level stack) (due stack) part) :
    next.Kept limit := by
  induction closes with
  | resumes resumes => exact resumes.kept stacked last
  | whole whole _ ih => exact ih stacked.rest (nested_whole stacked last whole)

private theorem nested_conclude (stacked : Stacked limit stack)
    (last : Nested limit (level stack) (due stack) part) (concluded : conclude stack part = .ok expr) :
    Nested limit 1 0 expr := by
  induction stack generalizing part with
  | nil =>
    cases concluded
    exact last
  | cons frame stack ih =>
    cases whole : frame.whole part with
    | error what =>
      simp only [conclude, whole] at concluded
      cases concluded
    | ok between =>
      simp only [conclude, whole] at concluded
      exact ih stacked.rest (nested_whole stacked last whole) concluded

end

namespace Configuration

variable {limit : Nat} {configuration next : Configuration}

private theorem Kept.step (kept : configuration.Kept limit) (shallow : configuration.depth ≤ limit)
    {token : Token} (step : configuration.step token = .ok next) : next.Kept limit := by
  cases steps_of_step step with
  | begins begins => exact begins.kept kept.stacked shallow
  | name => exact kept_of_waiting (by rintro _ ⟨⟩) kept.stacked
  | equals => exact kept_of_waiting (by rintro _ ⟨⟩) (kept.stacked.opened rfl rfl)
  | operation =>
    obtain ⟨stacked, first, binds⟩ := nested_reduce kept.stacked (kept.operand _ rfl _)
    exact kept_of_waiting (by rintro _ ⟨⟩) (.operation stacked first binds)
  | closes closes => exact closes.kept kept.stacked (kept.operand _ rfl _)

private theorem Kept.finish (kept : configuration.Kept limit) {expr : Expr}
    (finished : configuration.finish = .ok expr) : Nested limit 1 0 expr := by
  obtain ⟨phase, stack⟩ := configuration
  cases phase with
  | complete part => exact nested_conclude kept.stacked (kept.operand part rfl _) finished
  | _ => cases finished

end Configuration

private theorem kept_passage {limits : Limits} {configuration last : Configuration}
    {operators total : Nat}
    {taken : List Token} (passage : Passage limits configuration operators taken last total)
    (kept : configuration.Kept limits.depth) : last.Kept limits.depth := by
  induction passage with
  | stay => exact kept
  | take within step _ ih => exact ih (kept.step within.1 step)

/-- Whatever a parser has read before, the expression that it returns is nested within its limit. -/
theorem nested_of_parse {parser : Parser} {expr : Expr} (accepted : parser.parse.1 = .ok expr) :
    Nested parser.limits.depth 1 0 expr := by
  obtain ⟨taken, pending, last, total, -, passage, halts⟩ :=
    advance_halts parser.limits parser.finish parser.pending .initial parser.operators
  have kept := kept_passage passage (Configuration.kept_initial _)
  change (advance parser.limits parser.finish .initial parser.operators parser.pending).1 = _ at accepted
  generalize advance parser.limits parser.finish .initial parser.operators parser.pending = result
    at halts accepted
  cases halts with
  | whole whole finished =>
    cases accepted
    exact kept.finish finished
  | _ => cases accepted

end Parser

end Reckon

import Reckon.Proofs.Parser.Height

/-!
Regions of expressions. Each node that a parser builds stands on the tokens from a first one to a last one,
whose places its region joins, and its children stand on tokens between these, one behind the other.
-/
namespace Reckon.Parser

open Reckon.Parser.Configuration

mutual

/-- The numbers are those of the first token and the last one. -/
inductive Stands (tokens : List Token) : Nat → Nat → Expr → Prop
  | node {first last : Nat} {opening closing : Token} {expr : Expr}
      (begins : tokens[first]? = some opening) (ends : tokens[last]? = some closing)
      (order : first ≤ last) (span : expr.span = opening.span.through closing.span)
      (row : Row tokens first (last + 1) expr.children) : Stands tokens first last expr

/-- Expressions in order on tokens from a first one up to one that is none of theirs. -/
inductive Row (tokens : List Token) : Nat → Nat → List Expr → Prop
  | nil {first stop : Nat} (bound : first ≤ stop) : Row tokens first stop []
  | cons {first left right stop : Nat} {expr : Expr} {rest : List Expr} (bound : first ≤ left)
      (stands : Stands tokens left right expr) (later : Row tokens (right + 1) stop rest) :
      Row tokens first stop (expr :: rest)

end

section

variable {tokens : List Token} {first last stop : Nat} {expr : Expr} {parts : List Expr}

theorem Stands.order (stands : Stands tokens first last expr) : first ≤ last := by
  cases stands with
  | node _ _ order => exact order

private theorem Row.bound (row : Row tokens first stop parts) : first ≤ stop := by
  induction parts generalizing first with
  | nil =>
    cases row with
    | nil bound => exact bound
  | cons part parts ih =>
    cases row with
    | cons bound stands later =>
      have order := stands.order
      have above := ih later
      omega

private theorem Row.widen {lower higher : Nat} (row : Row tokens first stop parts)
    (below : lower ≤ first) (above : stop ≤ higher) : Row tokens lower higher parts := by
  induction parts generalizing lower first with
  | nil =>
    cases row with
    | nil bound => exact .nil (by omega)
  | cons part parts ih =>
    cases row with
    | cons bound stands later =>
      exact .cons (Nat.le_trans below bound) stands (ih later (Nat.le_refl _))

private theorem Row.concat {left right higher : Nat} (row : Row tokens first stop parts)
    (order : stop ≤ left) (stands : Stands tokens left right expr) (above : right < higher) :
    Row tokens first higher (parts ++ [expr]) := by
  induction parts generalizing first with
  | nil =>
    cases row with
    | nil bound => exact .cons (Nat.le_trans bound order) stands (.nil above)
  | cons part parts ih =>
    cases row with
    | cons bound inner later => exact .cons bound inner (ih later)

theorem Row.exists_of_mem (row : Row tokens first stop parts) (member : expr ∈ parts) :
    ∃ left right, first ≤ left ∧ right < stop ∧ Stands tokens left right expr := by
  induction parts generalizing first with
  | nil => cases member
  | cons part parts ih =>
    cases row with
    | cons bound stands later =>
      rcases List.mem_cons.mp member with rfl | member
      · exact ⟨_, _, bound, later.bound, stands⟩
      · obtain ⟨left, right, above, below, inner⟩ := ih later member
        have order := stands.order
        exact ⟨left, right, by omega, below, inner⟩

/-- A node stands on tokens that the nodes above it stand on. -/
theorem Stands.of_node {node : Expr} (stands : Stands tokens first last expr)
    (inner : expr.Node node) :
    ∃ left right, first ≤ left ∧ right ≤ last ∧ Stands tokens left right node := by
  induction inner generalizing first last with
  | root => exact ⟨first, last, Nat.le_refl _, Nat.le_refl _, stands⟩
  | within member _ ih =>
    cases stands with
    | node _ _ _ _ row =>
      obtain ⟨left, right, above, below, part⟩ := row.exists_of_mem member
      obtain ⟨left', right', above', below', node⟩ := ih part
      exact ⟨left', right', by omega, by omega, node⟩

end

/-- The parts of clauses in the order of the text; of the clauses the last one comes first. -/
def clauseRow (clauses : List (Expr × Expr)) : List Expr :=
  clauses.reverse.flatMap fun clause => [clause.1, clause.2]

private theorem clauseRow_cons (clause : Expr × Expr) (clauses : List (Expr × Expr)) :
    clauseRow (clause :: clauses) = clauseRow clauses ++ [clause.1] ++ [clause.2] := by
  simp [clauseRow]

private theorem parts_after (clauses : List (Expr × Expr)) (rest : Branches) :
    (Branches.after clauses rest).parts = clauseRow clauses ++ rest.parts := by
  induction clauses generalizing rest with
  | nil => rfl
  | cons clause clauses ih =>
    have step : (Branches.after (clause :: clauses) rest).parts =
        clauseRow clauses ++ (Branches.clause clause.1 clause.2 rest).parts := ih _
    rw [step, clauseRow_cons, List.append_assoc, List.append_assoc]
    rfl

namespace Frame

/-- The parts that the construct has so far, in the order of the text. -/
def row : Frame → List Expr
  | .operation left _ => [left]
  | .unary .. | .group | .assignment .. => []
  | .condition _ clauses | .otherwise _ clauses => clauseRow clauses
  | .result _ clauses premise => clauseRow clauses ++ [premise]

/-- Where what the construct makes begins; parentheses make nothing. -/
def start? : Frame → Option Position
  | .operation left _ => some left.span.start
  | .group => none
  | .unary _ opening | .assignment _ opening | .condition opening _ | .result opening _ _
  | .otherwise opening _ => some opening.start

private theorem whole_row {frame : Frame} {part expr : Expr} (whole : frame.whole part = .ok expr) :
    ∃ start, frame.start? = some start ∧ expr.span = ⟨start, part.span.stop⟩ ∧
      expr.children = frame.row ++ [part] := by
  cases frame with
  | group | condition => cases whole
  | operation | unary | assignment =>
    cases whole
    exact ⟨_, rfl, rfl, rfl⟩
  | result opening clauses premise =>
    cases whole
    refine ⟨_, rfl, rfl, (parts_after _ _).trans ?_⟩
    rw [clauseRow_cons, Branches.parts, List.append_nil, row]
  | otherwise opening clauses =>
    cases whole
    exact ⟨_, rfl, rfl, parts_after _ _⟩

end Frame

/-- What a construct has so far stands on tokens from one number up to another. -/
def Frame.Holds (tokens : List Token) (floor stop : Nat) (frame : Frame) : Prop :=
  floor ≤ stop ∧ ∀ start ∈ frame.start?, ∃ first opening, floor ≤ first ∧ first < stop ∧
    tokens[first]? = some opening ∧ opening.span.start = start ∧ Row tokens first stop frame.row

/-- Constructs around one another, the inner ones behind what the outer ones have so far. -/
inductive Held (tokens : List Token) : Nat → List Frame → Prop
  | nil (stop : Nat) : Held tokens stop []
  | cons {floor stop : Nat} {frame : Frame} {stack : List Frame} (below : Held tokens floor stack)
      (holds : frame.Holds tokens floor stop) : Held tokens stop (frame :: stack)

/-- An operand on tokens behind those of the constructs around it. -/
def Completed (tokens : List Token) (stop : Nat) (stack : List Frame) (part : Expr) : Prop :=
  ∃ first last, Held tokens first stack ∧ Stands tokens first last part ∧ last < stop

/-- All that a configuration has stands on tokens before a number. -/
def Configuration.Placed (tokens : List Token) (stop : Nat) (configuration : Configuration) : Prop :=
  match configuration.phase with
  | .awaiting _ | .name => Held tokens stop configuration.stack
  | .equals _ opening => ∃ first token, first < stop ∧ tokens[first]? = some token ∧
      token.span = opening ∧ Held tokens first configuration.stack
  | .complete part => Completed tokens stop configuration.stack part

section

variable {tokens : List Token} {stop higher : Nat} {frame : Frame} {stack : List Frame}
  {part expr : Expr}

private theorem Frame.Holds.mono {floor : Nat} (holds : frame.Holds tokens floor stop)
    (above : stop ≤ higher) :
    frame.Holds tokens floor higher := by
  refine ⟨Nat.le_trans holds.1 above, fun start begun => ?_⟩
  obtain ⟨first, opening, behind, inside, found, same, row⟩ := holds.2 start begun
  exact ⟨first, opening, behind, Nat.lt_of_lt_of_le inside above, found, same,
    row.widen (Nat.le_refl _) above⟩

private theorem Held.mono (held : Held tokens stop stack) (above : stop ≤ higher) :
    Held tokens higher stack := by
  cases held with
  | nil => exact .nil higher
  | cons below holds => exact .cons below (holds.mono above)

private theorem Held.rest (held : Held tokens stop (frame :: stack)) : Held tokens stop stack := by
  cases held with
  | cons below holds => exact below.mono holds.1

/-- A construct with its last part stands from its own beginning to the end of that part. -/
private theorem Completed.whole (completed : Completed tokens stop (frame :: stack) part)
    (whole : frame.whole part = .ok expr) : Completed tokens stop stack expr := by
  obtain ⟨left, right, held, stands, inside⟩ := completed
  obtain ⟨start, begun, span, children⟩ := Frame.whole_row whole
  cases held with
  | cons below holds =>
    obtain ⟨first, opening, behind, before, found, same, row⟩ := holds.2 start begun
    refine ⟨first, right, below.mono behind, ?_, inside⟩
    have order : left ≤ right := stands.order
    have parts : Row tokens first (right + 1) expr.children :=
      children ▸ row.concat (Nat.le_refl _) stands (Nat.lt_succ_self right)
    cases stands with
    | node _ ends _ spans =>
      refine .node found ends (by omega) ?_ parts
      rw [span, spans, ← same]
      rfl

private theorem Completed.reduce (strength : Nat) (completed : Completed tokens stop stack part) :
    Completed tokens stop (reduce strength stack part).1 (reduce strength stack part).2 := by
  induction stack generalizing part with
  | nil => exact completed
  | cons frame stack ih =>
    cases frame with
    | operation left operator =>
      rw [Parser.reduce]
      split
      · exact ih (completed.whole rfl)
      · exact completed
    | unary operator opening =>
      rw [Parser.reduce]
      split
      · exact ih (completed.whole rfl)
      · exact completed
    | _ => exact completed

/-- A construct goes on with one part more. -/
private theorem Completed.resumed {later : Frame}
    (completed : Completed tokens stop (frame :: stack) part)
    (start : later.start? = frame.start?) (row : later.row = frame.row ++ [part]) :
    Held tokens stop (later :: stack) := by
  obtain ⟨left, right, held, stands, inside⟩ := completed
  have order : left ≤ right := stands.order
  cases held with
  | cons below holds =>
    obtain ⟨bound, begins⟩ := holds
    refine .cons below ⟨by omega, fun place begun => ?_⟩
    obtain ⟨first, opening, behind, before, found, same, parts⟩ := begins place (start ▸ begun)
    refine ⟨first, opening, behind, by omega, found, same, ?_⟩
    rw [row]
    exact parts.concat (Nat.le_refl _) stands inside

private theorem held_opening {token : Token} (held : Held tokens stop stack)
    (found : tokens[stop]? = some token)
    (start : frame.start? = some token.span.start) (row : frame.row = []) :
    Held tokens (stop + 1) (frame :: stack) := by
  refine .cons held ⟨Nat.le_succ stop, fun place begun => ?_⟩
  rw [start] at begun
  refine ⟨stop, token, Nat.le_refl _, Nat.lt_succ_self _, found, Option.some.inj begun, ?_⟩
  rw [row]
  exact .nil (Nat.le_succ stop)

private theorem Resumes.placed {kind : Token.Kind} {next : Configuration}
    (resumes : Resumes part stack kind frame next)
    (completed : Completed tokens stop (frame :: stack) part) : next.Placed tokens (stop + 1) := by
  have later := Nat.le_succ stop
  cases resumes with
  | group =>
    obtain ⟨left, right, held, stands, inside⟩ := completed
    exact ⟨left, right, held.rest, stands, Nat.lt_succ_of_lt inside⟩
  | condition opening clauses =>
    have held : Held tokens stop (.result opening clauses part :: stack) := completed.resumed rfl rfl
    exact held.mono later
  | further opening clauses premise =>
    have held : Held tokens stop (.condition opening ((premise, part) :: clauses) :: stack) :=
      completed.resumed rfl (clauseRow_cons (premise, part) clauses)
    exact held.mono later
  | otherwise opening clauses premise =>
    have held : Held tokens stop (.otherwise opening ((premise, part) :: clauses) :: stack) :=
      completed.resumed rfl (clauseRow_cons (premise, part) clauses)
    exact held.mono later

private theorem Closes.placed {kind : Token.Kind} {next : Configuration}
    (closes : Closes kind stack part next)
    (completed : Completed tokens stop stack part) : next.Placed tokens (stop + 1) := by
  induction closes with
  | resumes resumes => exact resumes.placed completed
  | whole whole _ ih => exact ih (completed.whole whole)

private theorem completed_conclude (completed : Completed tokens stop stack part)
    (concluded : conclude stack part = .ok expr) : Completed tokens stop [] expr := by
  induction stack generalizing part with
  | nil =>
    cases concluded
    exact completed
  | cons frame stack ih =>
    cases whole : frame.whole part with
    | error what =>
      simp only [conclude, whole] at concluded
      cases concluded
    | ok between =>
      simp only [conclude, whole] at concluded
      exact ih (completed.whole whole) concluded

private theorem Begins.placed {token : Token} {goal : Goal} {next : Configuration}
    (begins : Begins token stack goal next) (found : tokens[stop]? = some token)
    (held : Held tokens stop stack) : next.Placed tokens (stop + 1) := by
  have leaf {expr : Expr} (span : expr.span = token.span) (last : expr.children = []) :
      Completed tokens (stop + 1) stack expr := by
    refine ⟨stop, stop, held, .node found found (Nat.le_refl _) span ?_, Nat.lt_succ_self _⟩
    rw [last]
    exact .nil (Nat.le_succ stop)
  cases begins with
  | number | reference => exact leaf rfl rfl
  | group => exact .cons held ⟨Nat.le_succ stop, nofun⟩
  | conditional | prefixed => exact held_opening held found rfl rfl
  | assignment => exact held.mono (Nat.le_succ stop)

end

namespace Configuration

variable {tokens : List Token} {stop : Nat} {configuration next : Configuration}

private theorem Placed.step {token : Token} (placed : configuration.Placed tokens stop)
    (found : tokens[stop]? = some token) (step : configuration.step token = .ok next) :
    next.Placed tokens (stop + 1) := by
  cases steps_of_step step with
  | begins begins => exact begins.placed found placed
  | name => exact ⟨stop, token, Nat.lt_succ_self stop, found, rfl, placed⟩
  | @equals name opening stack =>
    obtain ⟨first, named, before, inside, same, held⟩ := placed
    refine .cons held ⟨by omega, fun start begun => ?_⟩
    cases begun
    exact ⟨first, named, Nat.le_refl _, by omega, inside, congrArg Span.start same, .nil (by omega)⟩
  | @operation operator part stack =>
    obtain ⟨left, right, held, stands, inside⟩ := Completed.reduce operator.strength placed
    have order : left ≤ right := stands.order
    refine .cons held ⟨by omega, fun start begun => ?_⟩
    cases begun
    have row := Row.cons (Nat.le_refl left) stands (.nil (Nat.succ_le_of_lt (Nat.lt_succ_of_lt inside)))
    cases stands with
    | node begins _ _ span =>
      exact ⟨left, _, Nat.le_refl _, by omega, begins, (congrArg Span.start span).symm, row⟩
  | closes closes => exact closes.placed placed

private theorem placed_passage {limits : Limits} {taken before rest : List Token}
    {operators total : Nat} (passage : Passage limits configuration operators taken next total)
    (placed : configuration.Placed (before ++ (taken ++ rest)) before.length) :
    next.Placed (before ++ (taken ++ rest)) (before ++ taken).length := by
  induction passage generalizing before with
  | stay =>
    rw [List.append_nil]
    exact placed
  | @take _ between _ _ _ token taken _ step _ ih =>
    have found : (before ++ (token :: taken ++ rest))[before.length]? = some token := by
      rw [List.getElem?_append_right (Nat.le_refl _), Nat.sub_self]
      rfl
    have onward := placed.step found step
    have same : before ++ (token :: taken ++ rest) = (before ++ [token]) ++ (taken ++ rest) := by
      rw [List.append_assoc]
      rfl
    rw [same] at onward ⊢
    rw [List.append_cons before token taken]
    exact ih (by rwa [List.length_append])

end Configuration

/-- The expression that a parser returns stands on tokens that it had before it. -/
theorem stands_of_parse {parser : Parser} {expr : Expr} (accepted : parser.parse.1 = .ok expr) :
    ∃ first last, Stands parser.pending first last expr := by
  obtain ⟨taken, pending, final, total, answer, split, passage, halts, answered, -⟩ :=
    parse_halts parser
  have placed : final.Placed parser.pending taken.length := by
    have begun : Configuration.initial.Placed ([] ++ (taken ++ pending)) 0 := .nil 0
    rw [split]
    exact placed_passage passage begun
  rw [answered] at accepted
  cases halts with
  | whole whole finished =>
    cases accepted
    obtain ⟨phase, stack⟩ := final
    cases phase with
    | complete part =>
      obtain ⟨first, last, -, stands, -⟩ := completed_conclude placed finished
      exact ⟨first, last, stands⟩
    | _ => cases finished
  | _ => cases accepted

/-- What a parser reports lies at one of the tokens that it had before it, or at their end. -/
theorem place_of_failed {parser : Parser} {diagnostic : Diagnostic}
    (failed : parser.parse.1 = .error diagnostic) :
    diagnostic.span = parser.finish ∨ ∃ token ∈ parser.pending, diagnostic.span = token.span := by
  obtain ⟨taken, pending, final, total, answer, split, -, halts, answered, -⟩ := parse_halts parser
  have placed (rest : List Token) (within : rest <:+ parser.pending) :
      place parser.finish rest.head? = parser.finish ∨
        ∃ token ∈ parser.pending, place parser.finish rest.head? = token.span := by
    cases rest with
    | nil => exact .inl rfl
    | cons token rest => exact .inr ⟨token, within.subset List.mem_cons_self, rfl⟩
  have inside : pending <:+ parser.pending := ⟨taken, split.symm⟩
  rw [answered] at failed
  cases halts with
  | deep | refused =>
    cases failed
    exact placed pending inside
  | crowded token rest =>
    cases failed
    exact placed (token :: rest) inside
  | whole => cases failed

end Reckon.Parser

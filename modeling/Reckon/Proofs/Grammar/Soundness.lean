import Reckon.Proofs.Grammar.Longest

/-!
What a configuration completes begins with a longest phrase of the symbol that is due, and from the
expression of that phrase it goes on alike.
-/
namespace Reckon.Grammar

open Reckon.Parser Reckon.Parser.Configuration

def Derived (symbol : Symbol) (stack : List Frame) (tokens : List Token) (expr : Expr) : Prop :=
  ∃ (phrase : Phrase symbol) (after : List Token), tokens = phrase.tokens ++ after ∧
    phrase.Longest after ∧ Below symbol.strength after ∧
    outcome ⟨.complete phrase.expr, stack⟩ after = .ok expr

/-- The token does not open one of the wider symbols only. -/
def Symbol.Admits (kind : Token.Kind) : Symbol → Prop
  | .expression => True
  | .comparison => kind ≠ .keyword .sclr
  | .arithmetic | .term | .factor => kind ≠ .keyword .sclr ∧ kind ≠ .keyword .not
  | .power | .atom =>
    kind ≠ .keyword .sclr ∧ kind ≠ .keyword .not ∧ kind ≠ .plus ∧ kind ≠ .minus

def Admitted (symbol : Symbol) (tokens : List Token) : Prop :=
  ∀ token ∈ tokens.head?, symbol.Admits token.kind

/-- All shorter texts that are completed begin with a longest phrase. -/
def Reader (bound : Nat) : Prop :=
  ∀ (symbol : Symbol) (goal : Goal) (stack : List Frame) (tokens : List Token) (expr : Expr),
    tokens.length < bound → Admitted symbol tokens → Yields symbol.strength stack →
    outcome ⟨.awaiting goal, stack⟩ tokens = .ok expr → Derived symbol stack tokens expr

private theorem begins_of_outcome {goal : Goal} {stack : List Frame} {tokens : List Token}
    {expr : Expr} (completed : outcome ⟨.awaiting goal, stack⟩ tokens = .ok expr) :
    ∃ token rest next, tokens = token :: rest ∧ Begins token stack goal next ∧
      next.outcome rest = .ok expr := by
  cases tokens with
  | nil => cases completed
  | cons token rest =>
    cases starts : starting token stack goal with
    | none =>
      simp only [outcome, step, starts] at completed
      cases completed
    | some next =>
      have begins := begins_of_starting starts
      rw [outcome_begins begins] at completed
      exact ⟨token, rest, next, rfl, begins, completed⟩

private theorem named_of_outcome {stack : List Frame} {tokens : List Token} {expr : Expr}
    (completed : outcome ⟨.name, stack⟩ tokens = .ok expr) :
    ∃ token rest name, tokens = token :: rest ∧ token.kind = .name name ∧
      outcome ⟨.equals name token.span, stack⟩ rest = .ok expr := by
  cases tokens with
  | nil => cases completed
  | cons token rest =>
    cases kind : token.kind with
    | name name =>
      rw [outcome_step (step_name kind stack)] at completed
      exact ⟨token, rest, name, rfl, kind, completed⟩
    | _ =>
      simp only [outcome, step, kind] at completed
      cases completed

private theorem assigned_of_outcome {name : String} {opening : Span} {stack : List Frame}
    {tokens : List Token} {expr : Expr}
    (completed : outcome ⟨.equals name opening, stack⟩ tokens = .ok expr) :
    ∃ token rest, tokens = token :: rest ∧ token.kind = .equal ∧
      outcome ⟨.awaiting .expression, .assignment name opening :: stack⟩ rest = .ok expr := by
  cases tokens with
  | nil => cases completed
  | cons token rest =>
    cases kind : token.kind with
    | equal =>
      rw [outcome_step (step_equals kind name opening stack)] at completed
      exact ⟨token, rest, rfl, kind, completed⟩
    | _ =>
      simp only [outcome, step, kind] at completed
      cases completed

private theorem resumes_of_outcome {part : Expr} {frame : Frame} {stack : List Frame}
    {after : List Token}
    {expr : Expr} {missing : Expectation} (waits : frame.whole part = .error missing)
    (unextended : Unextended after)
    (completed : outcome ⟨.complete part, frame :: stack⟩ after = .ok expr) :
    ∃ token rest next, after = token :: rest ∧ Resumes part stack token.kind frame next ∧
      next.outcome rest = .ok expr := by
  cases after with
  | nil =>
    simp only [outcome, Configuration.finish, conclude, waits] at completed
    cases completed
  | cons token rest =>
    have plain := unextended.plain rfl
    cases resumed : frame.resumed part token.kind stack with
    | none =>
      simp only [outcome, step, plain, close, resumed, waits] at completed
      cases completed
    | some next =>
      have resumes := resumes_iff.mpr resumed
      rw [outcome_resumes resumes] at completed
      exact ⟨token, rest, next, rfl, resumes, completed⟩

/-- Every phrase that may begin where the goal stands may begin with a sign if the goal may. -/
def Suits : Goal → Symbol → Prop
  | .expression, symbol => symbol = .expression
  | .comparison, symbol => symbol = .expression ∨ symbol = .comparison
  | .factor, symbol => symbol ≠ .power ∧ symbol ≠ .atom
  | .atom, _ => True

private theorem suits_operand {family : Family} {operator : BinaryOperator}
    (own : operator ∈ family.operators) : Suits operator.goal family.operand := by
  cases family <;> cases operator <;> simp_all [Family.operators, Suits, BinaryOperator.goal,
    Family.operand]

private theorem suits_signed {operator : UnaryOperator} {symbol : Symbol}
    (own : signed operator = symbol) :
    Suits operator.goal symbol := by
  subst own
  cases operator <;> simp [signed, Suits, UnaryOperator.goal]

private theorem admitted_of_suits {goal : Goal} {symbol : Symbol} {stack : List Frame}
    {tokens : List Token} {expr : Expr} (suits : Suits goal symbol)
    (completed : outcome ⟨.awaiting goal, stack⟩ tokens = .ok expr) : Admitted symbol tokens := by
  obtain ⟨token, rest, next, rfl, begins, _⟩ := begins_of_outcome completed
  intro head member
  cases member
  cases begins with
  | number value literal =>
    rcases literal with equal | equal <;> cases symbol <;> simp [Symbol.Admits, equal]
  | reference name equal => cases symbol <;> simp [Symbol.Admits, equal]
  | group equal => cases symbol <;> simp [Symbol.Admits, equal]
  | conditional equal => cases symbol <;> simp [Symbol.Admits, equal]
  | prefixed operator sign wide =>
    cases operator <;> cases goal <;> cases symbol <;> simp_all [Symbol.Admits, Suits,
      UnaryOperator.kind, Goal.admits, Goal.admitsSign, Goal.admitsNegation]
  | assignment equal =>
    cases suits
    trivial

section

variable {bound : Nat} (reader : Reader bound) {stack : List Frame} {expr : Expr}
include reader

private theorem Reader.expression {frame : Frame} {tokens : List Token}
    (size : tokens.length < bound) (loose : frame.strength = 0)
    (completed : outcome ⟨.awaiting .expression, frame :: stack⟩ tokens = .ok expr) :
    ∃ (phrase : Phrase .expression) (after : List Token), tokens = phrase.tokens ++ after ∧
      phrase.Longest after ∧
      outcome ⟨.complete phrase.expr, frame :: stack⟩ after = .ok expr := by
  obtain ⟨phrase, after, text, longest, _, finished⟩ :=
    reader .expression .expression (frame :: stack) tokens expr size (fun _ _ => trivial)
      (yields_loose loose) completed
  exact ⟨phrase, after, text, longest, finished⟩

private theorem derived_links {family : Family} (yields : Yields family.symbol.strength stack)
    (left : Expr)
    (after : List Token) (size : after.length ≤ bound) (below : Below family.operand.strength after)
    (completed : outcome ⟨.complete left, stack⟩ after = .ok expr) :
    ∃ (links : Links family) (later : List Token), after = links.tokens ++ later ∧
      links.Longest later ∧ Below family.symbol.strength later ∧
      outcome ⟨.complete (links.expr left), stack⟩ later = .ok expr := by
  match after with
  | [] => exact ⟨.nothing, [], rfl, trivial, below_nil _, completed⟩
  | token :: rest =>
    cases found : BinaryOperator.ofKind? token.kind with
    | none =>
      have ends := unextended_of_kind rest rfl found
      exact ⟨.nothing, token :: rest, rfl, trivial, ends.below _, completed⟩
    | some operator =>
      have weaker := below_cons.mp below operator found
      -- An operator of another family is weaker than this chain and ends it.
      by_cases own : operator ∈ family.operators
      · have equal := strength_of_mem own
        rw [outcome_operator found (equal ▸ yields)] at completed
        obtain ⟨operand, between, rfl, longest, behind, continued⟩ :=
          reader family.operand operator.goal (.operation left operator :: stack) rest expr size
            (admitted_of_suits (suits_operand own) completed) (yields_cons.mpr weaker) completed
        have held : Below (operator.strength + 1) between := fun token member next present =>
          Nat.lt_succ_of_le (equal ▸ strength_le_of_lt_operand (behind token member next present))
        rw [outcome_whole (.operation left operator) rfl held fun _ _ => rfl] at continued
        have shorter : between.length ≤ bound := by
          simp only [List.length_cons, List.length_append] at size
          omega
        obtain ⟨links, later, rfl, linked, ends, finished⟩ :=
          derived_links yields (left.joined operator operand.expr) between shorter behind continued
        have sign : token.kind = operator.kind := BinaryOperator.ofKind?_eq_some.mp found
        refine ⟨.link operator own ⟨token, sign⟩ operand links, later, ?_, ⟨longest, linked⟩, ends,
          finished⟩
        simp only [Links.tokens, List.cons_append, List.append_assoc]
      · refine ⟨.nothing, token :: rest, rfl, trivial, below_cons.mpr fun next present => ?_, completed⟩
        obtain rfl : operator = next := Option.some.inj (found.symm.trans present)
        exact strength_lt_of_not_mem own weaker
termination_by after.length

private theorem derived_chain (family : Family) {symbol : Symbol} {tokens : List Token}
    (own : family.symbol = symbol) (size : tokens.length ≤ bound)
    (yields : Yields symbol.strength stack) (first : Derived family.operand stack tokens expr) :
    Derived symbol stack tokens expr := by
  obtain ⟨phrase, after, rfl, longest, below, continued⟩ := first
  have shorter : after.length ≤ bound := by
    simp only [List.length_append] at size
    omega
  obtain ⟨links, later, rfl, linked, ends, finished⟩ :=
    derived_links reader (own ▸ yields) phrase.expr after shorter below continued
  refine ⟨.chain family own phrase links, later, ?_, ⟨longest, linked, ?_⟩, own ▸ ends, finished⟩
  · simp only [Phrase.tokens, List.append_assoc]
  · intro whole
    rw [own, whole] at ends
    exact unextended_of_below ends

/-- The tokens begin with all that follows the first result of a conditional. -/
def DerivedClauses (opening : Span) (clauses : List (Expr × Expr)) (premise result : Expr)
    (stack : List Frame) (tokens : List Token) (expr : Expr) : Prop :=
  ∃ (rest : Clauses) (after : List Token), tokens = rest.tokens ++ after ∧ rest.Longest after ∧
    outcome ⟨.complete ((rest.last result).chosen opening
      (.after clauses (.clause premise result rest.branches))), stack⟩ after = .ok expr

omit reader in
private theorem derived_nothing {opening : Span} {clauses : List (Expr × Expr)}
    {premise result : Expr} {tokens : List Token} (unextended : Unextended tokens)
    (passed : ∀ token ∈ tokens.head?,
      (Frame.result opening clauses premise).resumed result token.kind stack = none)
    (completed : outcome ⟨.complete result, .result opening clauses premise :: stack⟩ tokens =
      .ok expr) : DerivedClauses opening clauses premise result stack tokens expr := by
  rw [outcome_whole _ rfl (unextended.below _) passed] at completed
  have uncontinued : Uncontinued tokens := fun token member =>
    resumed_result_eq_none.mp (passed token member)
  exact ⟨.nothing, tokens, rfl, uncontinued, completed⟩

mutual

private theorem derived_clause {opening : Span} (clauses : List (Expr × Expr)) (tokens : List Token)
    (size : tokens.length < bound)
    (completed : outcome ⟨.awaiting .expression, .condition opening clauses :: stack⟩ tokens =
      .ok expr) :
    ∃ (clause : Clause) (after : List Token), tokens = clause.tokens ++ after ∧
      clause.Longest after ∧
      outcome ⟨.complete (clause.last.chosen opening (.after clauses clause.branches)), stack⟩ after =
        .ok expr := by
  obtain ⟨condition, behind, rfl, premise, met⟩ := reader.expression size rfl completed
  obtain ⟨word, inside, next, rfl, resumes, entered⟩ :=
    resumes_of_outcome rfl premise.unextended met
  cases resumes with
  | condition _ _ mark =>
    simp only [List.length_append, List.length_cons] at size
    have shorter : inside.length < bound := by omega
    obtain ⟨result, later, rfl, longest, chosen⟩ := reader.expression shorter rfl entered
    simp only [List.length_append] at shorter
    obtain ⟨rest, after, rfl, further, finished⟩ :=
      derived_clauses clauses condition.expr result.expr later (by omega) longest.unextended chosen
    refine ⟨.mk condition ⟨word, mark⟩ result rest, after, ?_, ⟨premise, longest, further⟩, finished⟩
    simp only [Clause.tokens, List.append_assoc, List.cons_append]
termination_by tokens.length

private theorem derived_clauses {opening : Span} (clauses : List (Expr × Expr))
    (premise result : Expr)
    (tokens : List Token) (size : tokens.length < bound) (unextended : Unextended tokens)
    (completed : outcome ⟨.complete result, .result opening clauses premise :: stack⟩ tokens =
      .ok expr) : DerivedClauses opening clauses premise result stack tokens expr := by
  match tokens with
  | [] => exact derived_nothing unextended nofun completed
  | token :: rest =>
    cases resumed : (Frame.result opening clauses premise).resumed result token.kind stack with
    | none =>
      refine derived_nothing unextended (fun head member => ?_) completed
      cases member
      exact resumed
    | some next =>
      have resumes := resumes_iff.mpr resumed
      rw [outcome_resumes resumes] at completed
      cases resumes with
      | further _ _ _ mark =>
        obtain ⟨clause, after, rfl, longest, finished⟩ :=
          derived_clause ((premise, result) :: clauses) rest (Nat.lt_of_succ_lt size) completed
        exact ⟨.further ⟨token, mark⟩ clause, after, rfl, longest, finished⟩
      | otherwise _ _ _ mark =>
        obtain ⟨alternative, after, rfl, longest, continued⟩ :=
          reader.expression (Nat.lt_of_succ_lt size) rfl completed
        rw [outcome_whole _ rfl (longest.unextended.below _) fun _ _ => rfl] at continued
        exact ⟨.otherwise ⟨token, mark⟩ alternative, after, rfl, longest, continued⟩
termination_by tokens.length

end

private theorem derived_atom {goal : Goal} {tokens : List Token} (size : tokens.length ≤ bound)
    (admitted : Admitted .atom tokens)
    (completed : outcome ⟨.awaiting goal, stack⟩ tokens = .ok expr) :
    Derived .atom stack tokens expr := by
  obtain ⟨token, rest, next, rfl, begins, continued⟩ := begins_of_outcome completed
  obtain ⟨notAssignment, notNegation, notPlus, notMinus⟩ := admitted token rfl
  cases begins with
  | number value literal =>
    exact ⟨.number value ⟨token, literal⟩, rest, rfl, trivial, below_atom rest, continued⟩
  | reference name named =>
    exact ⟨.variable name ⟨token, named⟩, rest, rfl, trivial, below_atom rest, continued⟩
  | group opening =>
    obtain ⟨inner, behind, rfl, longest, met⟩ := reader.expression size rfl continued
    obtain ⟨last, after, next, rfl, resumes, finished⟩ :=
      resumes_of_outcome rfl longest.unextended met
    cases resumes with
    | group closing =>
      refine ⟨.group ⟨token, opening⟩ inner ⟨last, closing⟩, after, ?_, longest, below_atom after,
        finished⟩
      simp only [Phrase.tokens, List.cons_append, List.append_assoc, List.nil_append]
  | conditional opening =>
    obtain ⟨clause, after, rfl, longest, finished⟩ := derived_clause reader [] rest size continued
    exact ⟨.conditional ⟨token, opening⟩ clause, after, rfl, longest, below_atom after, finished⟩
  | prefixed operator sign =>
    cases operator with
    | plus => exact absurd sign notPlus
    | minus => exact absurd sign notMinus
    | not => exact absurd sign notNegation
  | assignment opening => exact absurd opening notAssignment

private theorem derived_prefixed {goal : Goal} (operator : UnaryOperator) {symbol : Symbol}
    {token : Token}
    {rest : List Token} (own : signed operator = symbol) (sign : token.kind = operator.kind)
    (size : rest.length < bound)
    (completed : outcome ⟨.awaiting goal, stack⟩ (token :: rest) = .ok expr) :
    Derived symbol stack (token :: rest) expr := by
  obtain ⟨_, _, next, equal, begins, continued⟩ := begins_of_outcome completed
  cases equal
  rw [begins.next_of_sign sign] at continued
  have above := signed_strength own
  obtain ⟨operand, after, rfl, longest, below, finished⟩ :=
    reader symbol operator.goal (.unary operator token.span :: stack) rest expr size
      (admitted_of_suits (suits_signed own) continued)
      (yields_cons.mpr (Nat.lt_of_succ_le (Nat.le_of_eq above))) continued
  rw [outcome_whole (.unary operator token.span) rfl (below.mono (Nat.le_of_eq above.symm))
    fun _ _ => rfl] at finished
  exact ⟨.prefixed operator own ⟨token, sign⟩ operand, after, rfl, longest, below, finished⟩

private theorem derived_factor {goal : Goal} {tokens : List Token} (size : tokens.length ≤ bound)
    (admitted : Admitted .factor tokens) (yields : Yields Symbol.factor.strength stack)
    (completed : outcome ⟨.awaiting goal, stack⟩ tokens = .ok expr) :
    Derived .factor stack tokens expr := by
  obtain ⟨token, rest, next, rfl, _⟩ := begins_of_outcome completed
  obtain ⟨notAssignment, notNegation⟩ := admitted token rfl
  by_cases plus : token.kind = .plus
  · exact derived_prefixed reader .plus rfl plus size completed
  by_cases minus : token.kind = .minus
  · exact derived_prefixed reader .minus rfl minus size completed
  have atomic : Admitted .atom (token :: rest) := by
    intro head member
    cases member
    exact ⟨notAssignment, notNegation, plus, minus⟩
  obtain ⟨power, after, equal, longest, below, finished⟩ :=
    derived_chain reader .power rfl size yields (derived_atom reader size atomic completed)
  exact ⟨.unsigned power, after, equal, longest, below, finished⟩

private theorem derived_term {goal : Goal} {tokens : List Token} (size : tokens.length ≤ bound)
    (admitted : Admitted .term tokens) (yields : Yields Symbol.term.strength stack)
    (completed : outcome ⟨.awaiting goal, stack⟩ tokens = .ok expr) :
    Derived .term stack tokens expr :=
  derived_chain reader .multiplicative rfl size yields
    (derived_factor reader size admitted (yields.mono (by decide)) completed)

private theorem derived_arithmetic {goal : Goal} {tokens : List Token}
    (size : tokens.length ≤ bound)
    (admitted : Admitted .arithmetic tokens) (yields : Yields Symbol.arithmetic.strength stack)
    (completed : outcome ⟨.awaiting goal, stack⟩ tokens = .ok expr) :
    Derived .arithmetic stack tokens expr :=
  derived_chain reader .additive rfl size yields
    (derived_term reader size admitted (yields.mono (by decide)) completed)

private theorem derived_comparison {goal : Goal} {tokens : List Token}
    (size : tokens.length ≤ bound)
    (admitted : Admitted .comparison tokens) (yields : Yields Symbol.comparison.strength stack)
    (completed : outcome ⟨.awaiting goal, stack⟩ tokens = .ok expr) :
    Derived .comparison stack tokens expr := by
  obtain ⟨token, rest, next, rfl, _⟩ := begins_of_outcome completed
  by_cases negation : token.kind = .keyword .not
  · exact derived_prefixed reader .not rfl negation size completed
  have positive : Admitted .arithmetic (token :: rest) := by
    intro head member
    cases member
    exact ⟨admitted token rfl, negation⟩
  exact derived_chain reader .relational rfl size yields
    (derived_arithmetic reader size positive (yields.mono (by decide)) completed)

private theorem derived_assignment {goal : Goal} {token : Token} {rest : List Token}
    (opening : token.kind = .keyword .sclr) (size : rest.length < bound)
    (completed : outcome ⟨.awaiting goal, stack⟩ (token :: rest) = .ok expr) :
    Derived .expression stack (token :: rest) expr := by
  obtain ⟨_, _, next, equal, begins, continued⟩ := begins_of_outcome completed
  cases equal
  rw [begins.next_of_sclr opening] at continued
  obtain ⟨target, _, name, rfl, named, continued⟩ := named_of_outcome continued
  obtain ⟨sign, inside, rfl, equals, continued⟩ := assigned_of_outcome continued
  simp only [List.length_cons] at size
  have shorter : inside.length < bound := by omega
  obtain ⟨value, after, rfl, longest, finished⟩ := reader.expression shorter rfl continued
  rw [outcome_whole _ rfl (longest.unextended.below _) fun _ _ => rfl] at finished
  exact ⟨.assignment name ⟨token, opening⟩ ⟨target, named⟩ ⟨sign, equals⟩ value, after, rfl,
    ⟨longest, longest.unextended⟩, longest.unextended.below _, finished⟩

private theorem derived_expression {goal : Goal} {tokens : List Token}
    (size : tokens.length ≤ bound) (yields : Yields Symbol.expression.strength stack)
    (completed : outcome ⟨.awaiting goal, stack⟩ tokens = .ok expr) :
    Derived .expression stack tokens expr := by
  obtain ⟨token, rest, next, rfl, _⟩ := begins_of_outcome completed
  by_cases opening : token.kind = .keyword .sclr
  · exact derived_assignment reader opening size completed
  have nameless : Admitted .comparison (token :: rest) := by
    intro head member
    cases member
    exact opening
  exact derived_chain reader .logical rfl size yields
    (derived_comparison reader size nameless (yields.mono (by decide)) completed)

end

theorem derived_of_outcome : ∀ bound, Reader bound := by
  intro bound
  induction bound with
  | zero => exact fun _ _ _ _ _ size => absurd size (Nat.not_lt_zero _)
  | succ bound reader =>
    intro symbol goal stack tokens expr size admitted yields completed
    have size := Nat.le_of_lt_succ size
    cases symbol with
    | expression => exact derived_expression reader size yields completed
    | comparison => exact derived_comparison reader size admitted yields completed
    | arithmetic => exact derived_arithmetic reader size admitted yields completed
    | term => exact derived_term reader size admitted yields completed
    | factor => exact derived_factor reader size admitted yields completed
    | power =>
      exact derived_chain reader .power rfl size yields (derived_atom reader size admitted completed)
    | atom => exact derived_atom reader size admitted completed

end Reckon.Grammar

import Reckon.Proofs.Evaluation.Levels
import Reckon.Proofs.Parser.Joined
import Reckon.Proofs.Parser.Nesting

/-!
Towers: conditionals at the ends of chains that climb through all strengths of operators. A tower that
nests so many levels is parsed within a limit of as many, and its evaluation takes six for each of them.
-/
namespace Reckon

open Reckon.Parser Evaluation

namespace Tower

def numeral (digit : Char) : Token.Kind × String :=
  (.int (Number.ofDecimal (.ofDigits [digit] [])), String.ofList [digit])

def literal (digit : Char) : Expr :=
  .number (Number.ofDecimal (.ofDigits [digit] [])) default

/-- The operators of all strengths, the weakest first. -/
def ladder : List BinaryOperator := [.or, .equal, .add, .multiply, .power]

/-- Every operator takes the next one with its operands as its right operand. -/
def climb (operators : List BinaryOperator) (last : Expr) : Expr :=
  operators.foldr (fun operator right => (literal '0').joined operator right) last

/-- So many storeys stand above the lowest one; each storey is the result of a conditional at the end of
the climb below it. -/
def expr : Nat → Expr
  | 0 => climb ladder (literal '0')
  | above + 1 =>
    climb ladder ((expr above).chosen default (.after [(literal '1', expr above)] .nothing))

def rungs (operators : List BinaryOperator) : List (Token.Kind × String) :=
  operators.flatMap fun operator => [numeral '0', (operator.kind, operator.text)]

def premise : List (Token.Kind × String) :=
  [(.keyword .if, "if"), numeral '1', (.keyword .then, "then")]

def readings : Nat → List (Token.Kind × String)
  | 0 => rungs ladder ++ [numeral '0']
  | above + 1 => rungs ladder ++ (premise ++ readings above)

def bare (reading : Token.Kind × String) : Token :=
  ⟨reading.1, default, reading.2⟩

section

variable {limits : Limits} {finish : Span} {stack : List Frame} {count : Nat}

private theorem advance_begins {goal : Goal} {token : Token} {next : Configuration}
    (begins : Begins token stack goal next) (shallow : level stack ≤ limits.depth)
    (few : count ≤ limits.operators) (rest : List Token) :
    advance limits finish ⟨.awaiting goal, stack⟩ count (token :: rest) =
      advance limits finish next count rest := by
  have within : Configuration.Within limits ⟨.awaiting goal, stack⟩ count (some token) :=
    ⟨shallow, fun _ _ => few⟩
  exact advance_of_step within begins.step

private theorem advance_rung {operator : BinaryOperator} (yields : Yields operator.strength stack)
    (goal : Goal) (shallow : level stack ≤ limits.depth) (few : count + 1 ≤ limits.operators)
    (rest : List Token) :
    advance limits finish ⟨.awaiting goal, stack⟩ count
        (bare (numeral '0') :: bare (operator.kind, operator.text) :: rest) =
      advance limits finish ⟨.awaiting operator.goal, .operation (literal '0') operator :: stack⟩
        (count + 1) rest := by
  have begins : Begins (bare (numeral '0')) stack goal ⟨.complete (literal '0'), stack⟩ :=
    .number _ (.inl rfl)
  rw [advance_begins begins shallow (Nat.le_of_succ_le few)]
  let sign := bare (operator.kind, operator.text)
  have found : BinaryOperator.ofKind? sign.kind = some operator := (BinaryOperator.ofKind?_eq_some.mpr rfl)
  have counted : Configuration.counted ⟨.complete (literal '0'), stack⟩ count sign = count + 1 := by
    simp only [Configuration.counted, Configuration.takesOperator, found, Option.isSome_some, if_true]
  have within : Configuration.Within limits ⟨.complete (literal '0'), stack⟩ count (some sign) := by
    refine ⟨Nat.zero_le _, fun _ member => ?_⟩
    cases member
    rw [counted]
    exact few
  have step : Configuration.step ⟨.complete (literal '0'), stack⟩ sign =
      .ok ⟨.awaiting operator.goal, .operation (literal '0') operator :: stack⟩ := by
    simp only [Configuration.step, found, reduce_of_yields _ yields]
  rw [advance_of_step within step, counted]

def climbed (operators : List BinaryOperator) (stack : List Frame) : List Frame :=
  operators.foldl (fun stack operator => .operation (literal '0') operator :: stack) stack

@[simp] theorem level_climbed (operators : List BinaryOperator) (stack : List Frame) :
    level (climbed operators stack) = level stack := by
  induction operators generalizing stack with
  | nil => rfl
  | cons operator operators ih =>
    exact (ih (.operation (literal '0') operator :: stack)).trans (level_operation ..)

private theorem conclude_climbed (operators : List BinaryOperator) (stack : List Frame)
    (last : Expr) :
    conclude (climbed operators stack) last = conclude stack (climb operators last) := by
  induction operators generalizing stack with
  | nil => rfl
  | cons operator operators ih => exact ih (.operation (literal '0') operator :: stack)

private theorem rungs_cons (operator : BinaryOperator) (operators : List BinaryOperator) :
    rungs (operator :: operators) =
      numeral '0' :: (operator.kind, operator.text) :: rungs operators :=
  List.flatMap_cons

/-- Operators in rising strength leave their operations on the stack, all of them on one level. -/
private theorem advance_climb {operators : List BinaryOperator}
    (rising : operators.Pairwise fun weak strong => weak.strength < strong.strength)
    (yields : ∀ operator ∈ operators, Yields operator.strength stack) (goal : Goal)
    (shallow : level stack ≤ limits.depth) (few : count + operators.length ≤ limits.operators)
    (rest : List Token) :
    ∃ last, advance limits finish ⟨.awaiting goal, stack⟩ count
        ((rungs operators).map bare ++ rest) =
      advance limits finish ⟨.awaiting last, climbed operators stack⟩ (count + operators.length)
        rest := by
  induction operators generalizing stack goal count with
  | nil => exact ⟨goal, rfl⟩
  | cons operator operators ih =>
    obtain ⟨weaker, rising⟩ := List.pairwise_cons.mp rising
    rw [List.length_cons] at few ⊢
    -- The operation just left on the stack gives its right operand to every operator still to come.
    have above : ∀ stronger ∈ operators,
        Yields stronger.strength (.operation (literal '0') operator :: stack) :=
      fun stronger member => yields_cons.mpr (weaker stronger member)
    have flat : level (.operation (literal '0') operator :: stack) ≤ limits.depth :=
      (level_operation ..).symm ▸ shallow
    have room : count + 1 + operators.length ≤ limits.operators := by omega
    obtain ⟨last, onward⟩ := ih rising above operator.goal flat room
    refine ⟨last, ?_⟩
    rw [rungs_cons, List.map_cons, List.map_cons, List.cons_append, List.cons_append,
      advance_rung (yields operator List.mem_cons_self) goal shallow (by omega), onward]
    congr 1
    omega

private theorem advance_premise (goal : Goal) (shallow : level stack + 1 ≤ limits.depth)
    (few : count ≤ limits.operators) (rest : List Token) :
    advance limits finish ⟨.awaiting goal, stack⟩ count (premise.map bare ++ rest) =
      advance limits finish ⟨.awaiting .expression, .result default [] (literal '1') :: stack⟩ count
        rest := by
  let inner : List Frame := .condition default [] :: stack
  have opened : Begins (bare (.keyword .if, "if")) stack goal ⟨.awaiting .expression, inner⟩ :=
    .conditional rfl
  have literal : Begins (bare (numeral '1')) inner .expression ⟨.complete (literal '1'), inner⟩ :=
    .number _ (.inl rfl)
  have within : Configuration.Within limits ⟨.complete (Tower.literal '1'), inner⟩ count
      (some (bare (.keyword .then, "then"))) := ⟨Nat.zero_le _, fun _ member => by cases member; exact few⟩
  have opens : (Frame.condition default []).opensLevel := rfl
  have deeper : level inner ≤ limits.depth := (level_opening opens stack).symm ▸ shallow
  change advance limits finish ⟨.awaiting goal, stack⟩ count
    (bare (.keyword .if, "if") :: bare (numeral '1') :: bare (.keyword .then, "then") :: rest) = _
  rw [advance_begins opened (Nat.le_of_succ_le shallow) few, advance_begins literal deeper few,
    advance_of_step within rfl]
  rfl

private theorem advance_ladder (yields : Yields 1 stack) (shallow : level stack ≤ limits.depth)
    (few : count + 5 ≤ limits.operators) (rest : List Token) :
    ∃ goal, advance limits finish ⟨.awaiting .expression, stack⟩ count
        ((rungs ladder).map bare ++ rest) =
      advance limits finish ⟨.awaiting goal, climbed ladder stack⟩ (count + 5) rest :=
  advance_climb (by decide) (fun operator _ => yields.mono (strength_pos operator)) .expression shallow
    few rest

/-- A tower is read where an expression is due, in as many further levels as it has storeys above the
first. -/
private theorem advance_tower (above : Nat) (yields : Yields 1 stack)
    (shallow : level stack + above ≤ limits.depth)
    (few : count + 5 * (above + 1) ≤ limits.operators) {whole : Expr}
    (concluded : conclude stack (expr above) = .ok whole) :
    (advance limits finish ⟨.awaiting .expression, stack⟩ count ((readings above).map bare)).1 =
      .ok whole := by
  -- The stack is general because each storey stands on the constructs that the ones below it leave open.
  induction above generalizing stack count with
  | zero =>
    obtain ⟨goal, climbs⟩ := @advance_ladder limits finish stack count yields shallow few
      [bare (numeral '0')]
    have begins : Begins (bare (numeral '0')) (climbed ladder stack) goal
        ⟨.complete (literal '0'), climbed ladder stack⟩ := .number _ (.inl rfl)
    have flat : level (climbed ladder stack) ≤ limits.depth := (level_climbed ..).symm ▸ shallow
    have finished := (conclude_climbed ladder stack (literal '0')).trans concluded
    rw [readings, List.map_append]
    refine (congrArg Prod.fst (climbs.trans (advance_begins begins flat few []))).trans ?_
    simp only [advance, Configuration.depth, Nat.not_lt_zero, if_false, Configuration.finish, finished]
  | succ above ih =>
    have room : count + 5 ≤ limits.operators := by omega
    obtain ⟨goal, climbs⟩ := @advance_ladder limits finish stack count yields (by omega) room
      (premise.map bare ++ (readings above).map bare)
    have deeper : level (climbed ladder stack) + 1 ≤ limits.depth := by
      rw [level_climbed]
      omega
    have opens : (Frame.result default [] (literal '1')).opensLevel := rfl
    rw [readings, List.map_append, List.map_append]
    refine (congrArg Prod.fst (climbs.trans (advance_premise goal deeper room _))).trans ?_
    refine ih (yields_cons.mpr Nat.one_pos) ?_ (by omega) ?_
    · rw [level_opening opens, level_climbed]
      omega
    · exact (conclude_climbed ladder stack _).trans concluded

end

private theorem numeral_lexeme {digit : Char} (plain : digit.isDigit) :
    Lexer.Lexeme (numeral digit).2.toList (numeral digit).1 := by
  have all : ∀ character ∈ [digit], character.isDigit := by
    intro character member
    rw [List.mem_singleton.mp member]
    exact plain
  rw [numeral, String.toList_ofList]
  exact .int (List.cons_ne_nil _ _) all

private theorem rungs_lexeme (operators : List BinaryOperator) :
    ∀ reading ∈ rungs operators, Lexer.Lexeme reading.2.toList reading.1 := by
  intro reading member
  obtain ⟨operator, -, inside⟩ := List.mem_flatMap.mp member
  simp only [List.mem_cons, List.not_mem_nil, or_false] at inside
  rcases inside with rfl | rfl
  · exact numeral_lexeme rfl
  · exact operator.lexeme

private theorem readings_lexeme (above : Nat) :
    ∀ reading ∈ readings above, Lexer.Lexeme reading.2.toList reading.1 := by
  induction above with
  | zero =>
    intro reading member
    rcases List.mem_append.mp member with climbing | last
    · exact rungs_lexeme ladder reading climbing
    · rw [List.mem_singleton.mp last]
      exact numeral_lexeme rfl
  | succ above ih =>
    intro reading member
    rcases List.mem_append.mp member with climbing | later
    · exact rungs_lexeme ladder reading climbing
    · rcases List.mem_append.mp later with opening | higher
      · simp only [premise, List.mem_cons, List.not_mem_nil, or_false] at opening
        rcases opening with rfl | rfl | rfl
        · exact Lexer.lexeme_of_keyword .if
        · exact numeral_lexeme rfl
        · exact Lexer.lexeme_of_keyword .then
      · exact ih reading higher

def spaced : List String → List Char
  | [] => []
  | [lexeme] => lexeme.toList
  | lexeme :: next :: lexemes => lexeme.toList ++ ([' '] ++ spaced (next :: lexemes))

private theorem joined_spaced (lexemes : List String) : Lexer.Joined lexemes (spaced lexemes) := by
  induction lexemes with
  | nil => exact .nothing
  | cons lexeme lexemes ih =>
    cases lexemes with
    | nil => exact .single lexeme
    | cons next lexemes =>
      have blank : ∀ character ∈ [' '], character ∈ Lexer.blanks := by simp [Lexer.blanks]
      exact .apart lexeme next (List.cons_ne_nil _ _) blank ih

def text (above : Nat) : String :=
  String.ofList (spaced ((readings above).map Prod.snd))

example : text 1 = "0 or 0 == 0 + 0 * 0 ^ if 1 then 0 or 0 == 0 + 0 * 0 ^ 0" := by decide

def tokens (above : Nat) : List Token :=
  (readings above).map bare ++ [.finish default]

private theorem lexeme_bare (above : Nat) :
    ∀ token ∈ (readings above).map bare, Lexer.Lexeme token.lexeme.toList token.kind := by
  intro token member
  obtain ⟨reading, inside, rfl⟩ := List.mem_map.mp member
  exact readings_lexeme above reading inside

private theorem parse_tokens (above : Nat) (limits : Limits) (shallow : above + 1 ≤ limits.depth)
    (few : 5 * (above + 1) ≤ limits.operators) :
    (ofTokens limits (tokens above)).parse.1 = .ok (expr above) := by
  have pending : (ofTokens limits (tokens above)).pending = (readings above).map bare :=
    pending_finish limits default (visible_of_lexemes (lexeme_bare above))
  rw [parse, pending]
  refine advance_tower above (yields_nil 1) ?_ ?_ rfl
  · rw [level_nil, Nat.add_comm]
    exact shallow
  · exact (Nat.zero_add _).symm ▸ few

/-- The text of a tower is read within a limit of as many levels as it has storeys. -/
theorem ofText_text (above : Nat) (limits : Limits) (shallow : above + 1 ≤ limits.depth)
    (few : 5 * (above + 1) ≤ limits.operators) :
    ∃ related whole, Expr.ofText limits (text above) = .ok whole ∧
      whole.Alike related (expr above) := by
  have words : ((readings above).map bare).map Token.lexeme = (readings above).map Prod.snd := by
    simp [bare]
  have joined : Lexer.Joined (((readings above).map bare).map Token.lexeme) (text above).toList := by
    rw [words, text, String.toList_ofList]
    exact joined_spaced _
  obtain ⟨found, lexed, -, related, parsed⟩ := parse_joined (lexeme_bare above) joined
  obtain ⟨whole, read, alike⟩ := parsed limits _ (parse_tokens above limits shallow few)
  refine ⟨related, whole, ?_, alike⟩
  simp only [Expr.ofText, lexed]
  exact read

section

variable (context : Context) {limit level : Nat}

/-- From every store the evaluation ends for want of levels. -/
def Exhausts (limit level : Nat) (expr : Expr) : Prop :=
  ∀ store, Fails (.evaluationTooDeep limit) ((expr.evaluate context limit level).run.run store).1

private theorem exhausts_of_lt (deep : limit < level) (expr : Expr) :
    Exhausts context limit level expr := by
  intro store
  rw [Expr.evaluate.eq_def, if_pos deep]
  exact ⟨_, rfl, rfl⟩

/-- A literal in front is evaluated, unless it is too deep itself, and then what follows it is. -/
private theorem fails_literal {β : Type} (value : Float) (span : Span) {next : Value → Evaluation β}
    {store : Store}
    (failed : Fails (.evaluationTooDeep limit) ((next ⟨value, span, context⟩).run.run store).1) :
    Fails (.evaluationTooDeep limit)
      (((Expr.number value span).evaluate context limit level >>= fun found =>
        required context (.number value span) found >>= next).run.run store).1 := by
  by_cases deep : limit < level
  · exact fails_bind (exhausts_of_lt context deep _ store)
  · rw [Expr.evaluate.eq_def, if_neg deep]
    exact failed

variable {related : Span → Span → Prop} {whole : Expr}

/-- Every operator of a climb takes its right operand one level further down. -/
private theorem exhausts_climb {operators : List BinaryOperator} {last : Expr}
    (alike : whole.Alike related (climb operators last))
    (inner : ∀ last', last'.Alike related last →
      Exhausts context limit (level + operators.length) last') :
    Exhausts context limit level whole := by
  induction operators generalizing level whole with
  | nil => exact inner whole alike
  | cons operator operators ih =>
    change whole.Alike related (.binary (literal '0') operator (climb operators last) _) at alike
    cases alike with
    | binary _ first second place =>
      cases first with
      | number =>
        have same : level + 1 + operators.length = level + (operator :: operators).length := by
          rw [List.length_cons]
          omega
        have higher := ih second fun last' alike => same ▸ inner last' alike
        intro store
        rw [Expr.evaluate.eq_def]
        split
        · exact ⟨_, rfl, rfl⟩
        · exact fails_literal context _ _ (fails_bind (higher store))

private theorem one_truthy :
    Number.isTruthy (Number.ofDecimal (.ofDigits ['1'] [])) = true := by decide

/-- A tower needs six levels for each of its storeys: five that its climb goes down, and one below the
conditional. -/
theorem exhausts_expr {above : Nat} (alike : whole.Alike related (expr above))
    (deep : limit < level + (6 * above + 5)) : Exhausts context limit level whole := by
  induction above generalizing level whole with
  | zero => exact exhausts_climb context alike fun last _ => exhausts_of_lt context deep last
  | succ above ih =>
    refine exhausts_climb context alike fun last' alike' => ?_
    change last'.Alike related (.conditional (.clause (literal '1') (expr above) .nothing) _) at alike'
    cases alike' with
    | conditional inner place =>
      cases inner with
      | clause test chosen later =>
        cases test with
        | number =>
          have higher : Exhausts context limit (level + 5 + 1) _ := ih chosen (by omega)
          intro store
          rw [Expr.evaluate.eq_def]
          split
          · exact ⟨_, rfl, rfl⟩
          · dsimp only
            rw [Branches.evaluate]
            refine fails_literal context _ _ ?_
            rw [Value.isTruthy, if_pos one_truthy]
            exact higher store

end

end Tower

end Reckon

import Reckon.Parser
import Reckon.Proofs.Alike

/-!
Parsing of tokens that are alike: the parser looks at their kinds alone, so it takes the same steps over
them and comes to expressions or diagnostics that are alike.
-/
namespace Reckon

namespace Parser

inductive Frame.Alike (related : Span → Span → Prop) : Frame → Frame → Prop
  | operation (operator : BinaryOperator) {left left' : Expr} (first : left.Alike related left') :
      Frame.Alike related (.operation left operator) (.operation left' operator)
  | unary (operator : UnaryOperator) {opening opening' : Span} (place : related opening opening') :
      Frame.Alike related (.unary operator opening) (.unary operator opening')
  | group : Frame.Alike related .group .group
  | assignment (name : String) {opening opening' : Span} (place : related opening opening') :
      Frame.Alike related (.assignment name opening) (.assignment name opening')
  | condition {opening opening' : Span} {clauses clauses' : List (Expr × Expr)}
      (place : related opening opening') (before : ClausesAlike related clauses clauses') :
      Frame.Alike related (.condition opening clauses) (.condition opening' clauses')
  | result {opening opening' : Span} {clauses clauses' : List (Expr × Expr)}
      {premise premise' : Expr} (place : related opening opening')
      (before : ClausesAlike related clauses clauses') (test : premise.Alike related premise') :
      Frame.Alike related (.result opening clauses premise) (.result opening' clauses' premise')
  | otherwise {opening opening' : Span} {clauses clauses' : List (Expr × Expr)}
      (place : related opening opening') (before : ClausesAlike related clauses clauses') :
      Frame.Alike related (.otherwise opening clauses) (.otherwise opening' clauses')

abbrev StackAlike (related : Span → Span → Prop) : List Frame → List Frame → Prop :=
  List.Forall₂ (Frame.Alike related)

inductive Phase.Alike (related : Span → Span → Prop) : Phase → Phase → Prop
  | awaiting (goal : Goal) : Phase.Alike related (.awaiting goal) (.awaiting goal)
  | name : Phase.Alike related .name .name
  | equals (name : String) {opening opening' : Span} (place : related opening opening') :
      Phase.Alike related (.equals name opening) (.equals name opening')
  | complete {part part' : Expr} (whole : part.Alike related part') :
      Phase.Alike related (.complete part) (.complete part')

inductive Configuration.Alike (related : Span → Span → Prop) : Configuration → Configuration → Prop
  | mk {phase phase' : Phase} {stack stack' : List Frame} (due : phase.Alike related phase')
      (frames : StackAlike related stack stack') :
      Configuration.Alike related ⟨phase, stack⟩ ⟨phase', stack'⟩

section

variable {related : Span → Span → Prop}

private theorem levels_alike {stack stack' : List Frame}
    (frames : StackAlike related stack stack') :
    stack.countP Frame.opensLevel = stack'.countP Frame.opensLevel := by
  induction frames with
  | nil => rfl
  | cons head tail ih =>
    rw [List.countP_cons, List.countP_cons, ih]
    cases head <;> rfl

private theorem Configuration.Alike.depth {configuration configuration' : Configuration}
    (alike : configuration.Alike related configuration') :
    configuration.depth = configuration'.depth := by
  obtain ⟨due, frames⟩ := alike
  cases due with
  | awaiting goal => exact congrArg (· + 1) (levels_alike frames)
  | name | equals | complete => rfl

private theorem Configuration.Alike.takesOperator {configuration configuration' : Configuration}
    (alike : configuration.Alike related configuration') (kind : Token.Kind) :
    configuration.takesOperator kind = configuration'.takesOperator kind := by
  obtain ⟨due, frames⟩ := alike
  cases due with
  | awaiting | name | equals | complete => rfl

variable (joins : Joins related)
include joins

private theorem joined_alike {left left' right right' : Expr} (operator : BinaryOperator)
    (first : left.Alike related left') (second : right.Alike related right') :
    (left.joined operator right).Alike related (left'.joined operator right') :=
  .binary operator first second (joins _ _ _ _ first.span second.span)

private theorem signed_alike {operand operand' : Expr} {opening opening' : Span}
    (operator : UnaryOperator)
    (place : related opening opening') (inner : operand.Alike related operand') :
    (operand.signed operator opening).Alike related (operand'.signed operator opening') :=
  .unary operator inner (joins _ _ _ _ place inner.span)

private theorem chosen_alike {last last' : Expr} {opening opening' : Span}
    {branches branches' : Branches}
    (place : related opening opening') (final : last.Alike related last')
    (inner : branches.Alike related branches') :
    (last.chosen opening branches).Alike related (last'.chosen opening' branches') :=
  .conditional inner (joins _ _ _ _ place final.span)

private theorem Frame.Alike.whole {frame frame' : Frame} {part part' : Expr}
    (alike : frame.Alike related frame') (last : part.Alike related part') :
    Paired Eq (Expr.Alike related) (frame.whole part) (frame'.whole part') := by
  cases alike with
  | operation operator first => exact .ok (joined_alike joins operator first last)
  | unary operator place => exact .ok (signed_alike joins operator place last)
  | group => exact .error rfl
  | assignment name place => exact .ok (.assign name last (joins _ _ _ _ place last.span))
  | condition place before => exact .error rfl
  | result place before test =>
    exact .ok (chosen_alike joins place last (.after (.cons ⟨test, last⟩ before) .nothing))
  | otherwise place before =>
    exact .ok (chosen_alike joins place last (.after before (.otherwise last)))

private theorem reduce_alike (strength : Nat) {stack stack' : List Frame} {part part' : Expr}
    (frames : StackAlike related stack stack') (last : part.Alike related part') :
    StackAlike related (reduce strength stack part).1 (reduce strength stack' part').1 ∧
      (reduce strength stack part).2.Alike related (reduce strength stack' part').2 := by
  induction frames generalizing part part' with
  | nil => exact ⟨.nil, last⟩
  | cons head tail ih =>
    cases head with
    | operation operator first =>
      simp only [reduce]
      split
      · exact ih (joined_alike joins operator first last)
      · exact ⟨.cons (.operation operator first) tail, last⟩
    | unary operator place =>
      simp only [reduce]
      split
      · exact ih (signed_alike joins operator place last)
      · exact ⟨.cons (.unary operator place) tail, last⟩
    | group =>
      simp only [reduce]
      exact ⟨.cons .group tail, last⟩
    | assignment name place =>
      simp only [reduce]
      exact ⟨.cons (.assignment name place) tail, last⟩
    | condition place before =>
      simp only [reduce]
      exact ⟨.cons (.condition place before) tail, last⟩
    | result place before test =>
      simp only [reduce]
      exact ⟨.cons (.result place before test) tail, last⟩
    | otherwise place before =>
      simp only [reduce]
      exact ⟨.cons (.otherwise place before) tail, last⟩

omit joins in
private theorem Frame.Alike.resumed {frame frame' : Frame} {part part' : Expr}
    {stack stack' : List Frame}
    (alike : frame.Alike related frame') (last : part.Alike related part') (kind : Token.Kind)
    (frames : StackAlike related stack stack') :
    Option.Rel (Configuration.Alike related) (frame.resumed part kind stack)
      (frame'.resumed part' kind stack') := by
  cases alike with
  | group =>
    simp only [Frame.resumed]
    split
    · exact .some ⟨.complete last, frames⟩
    · exact .none
  | condition place before =>
    simp only [Frame.resumed]
    split
    · exact .some ⟨.awaiting .expression, .cons (.result place before last) frames⟩
    · exact .none
  | @result _ _ clauses clauses' premise premise' place before test =>
    have added : ClausesAlike related ((premise, part) :: clauses) ((premise', part') :: clauses') :=
      .cons ⟨test, last⟩ before
    simp only [Frame.resumed]
    split
    · exact .some ⟨.awaiting .expression, .cons (.condition place added) frames⟩
    · split
      · exact .some ⟨.awaiting .expression, .cons (.otherwise place added) frames⟩
      · exact .none
  | operation | unary | assignment | otherwise => exact .none

private theorem close_alike (kind : Token.Kind) {stack stack' : List Frame} {part part' : Expr}
    (frames : StackAlike related stack stack') (last : part.Alike related part') :
    Paired Eq (Configuration.Alike related) (close kind stack part) (close kind stack' part') := by
  induction frames generalizing part part' with
  | nil => exact .error rfl
  | @cons frame frame' stack stack' head tail ih =>
    have resumed := head.resumed last kind tail
    rw [close, close]
    generalize frame.resumed part kind stack = found at resumed ⊢
    generalize frame'.resumed part' kind stack' = found' at resumed ⊢
    cases resumed with
    | some alike => exact .ok alike
    | none => exact (head.whole joins last).bind fun _ _ finished => ih finished

private theorem conclude_alike {stack stack' : List Frame} {part part' : Expr}
    (frames : StackAlike related stack stack') (last : part.Alike related part') :
    Paired Eq (Expr.Alike related) (conclude stack part) (conclude stack' part') := by
  induction frames generalizing part part' with
  | nil => exact .ok last
  | cons head tail ih =>
    rw [conclude, conclude]
    exact (head.whole joins last).bind fun _ _ finished => ih finished

omit joins in
private theorem starting_alike {token token' : Token} (alike : token.Alike related token')
    {stack stack' : List Frame} (frames : StackAlike related stack stack') (goal : Goal) :
    Option.Rel (Configuration.Alike related) (Configuration.starting token stack goal)
      (Configuration.starting token' stack' goal) := by
  obtain ⟨kind, span, lexeme⟩ := token
  obtain ⟨kind', span', lexeme'⟩ := token'
  obtain ⟨rfl, place⟩ := alike
  have prefixed (operator : UnaryOperator) :
      Configuration.Alike related ⟨.awaiting operator.goal, .unary operator span :: stack⟩
        ⟨.awaiting operator.goal, .unary operator span' :: stack'⟩ :=
    ⟨.awaiting operator.goal, .cons (.unary operator place) frames⟩
  cases kind with
  | int value | float value => exact .some ⟨.complete (.number value place), frames⟩
  | name text => exact .some ⟨.complete (.variable text place), frames⟩
  | leftParen => exact .some ⟨.awaiting .expression, .cons .group frames⟩
  | plus => cases goal <;> first | exact .some (prefixed .plus) | exact .none
  | minus => cases goal <;> first | exact .some (prefixed .minus) | exact .none
  | keyword word =>
    cases word with
    | «if» => exact .some ⟨.awaiting .expression, .cons (.condition place .nil) frames⟩
    | not => cases goal <;> first | exact .some (prefixed .not) | exact .none
    | sclr => cases goal <;> first | exact .some ⟨.name, frames⟩ | exact .none
    | _ => exact .none
  | _ => exact .none

private theorem Configuration.Alike.step {configuration configuration' : Configuration}
    (alike : configuration.Alike related configuration') {token token' : Token}
    (same : token.Alike related token') :
    Paired Eq (Configuration.Alike related) (configuration.step token)
      (configuration'.step token') := by
  obtain ⟨due, frames⟩ := alike
  rename_i stack stack'
  cases due with
  | awaiting goal =>
    have starts := starting_alike same frames goal
    simp only [Configuration.step]
    generalize Configuration.starting token stack goal = next at starts ⊢
    generalize Configuration.starting token' stack' goal = next' at starts ⊢
    cases starts with
    | some alike => exact .ok alike
    | none => exact .error rfl
  | name =>
    simp only [Configuration.step, ← same.kind]
    split
    · exact .ok ⟨.equals _ same.span, frames⟩
    · exact .error rfl
  | equals name place =>
    simp only [Configuration.step, ← same.kind]
    split
    · exact .ok ⟨.awaiting .expression, .cons (.assignment name place) frames⟩
    · exact .error rfl
  | complete whole =>
    simp only [Configuration.step, ← same.kind]
    split
    · rename_i operator _
      have reduced := reduce_alike joins operator.strength frames whole
      exact .ok ⟨.awaiting operator.goal, .cons (.operation operator reduced.2) reduced.1⟩
    · exact close_alike joins token.kind frames whole

private theorem Configuration.Alike.finish {configuration configuration' : Configuration}
    (alike : configuration.Alike related configuration') :
    Paired Eq (Expr.Alike related) configuration.finish configuration'.finish := by
  obtain ⟨due, frames⟩ := alike
  cases due with
  | awaiting | name | equals => exact .error rfl
  | complete whole => exact conclude_alike joins frames whole

/-- The count of operators is the same at every token, so the limits are passed at the same one. -/
private theorem advance_alike (limits : Limits) {finish finish' : Span}
    (place : related finish finish')
    {tokens tokens' : List Token} (same : List.Forall₂ (Token.Alike related) tokens tokens')
    {configuration configuration' : Configuration}
    (alike : configuration.Alike related configuration') (operators : Nat) :
    Paired (Diagnostic.Alike related) (Expr.Alike related)
      (advance limits finish configuration operators tokens).1
      (advance limits finish' configuration' operators tokens').1 := by
  induction same generalizing configuration configuration' operators with
  | nil =>
    have ends := alike.finish joins
    simp only [advance, ← alike.depth]
    split
    · exact .error ⟨rfl, place⟩
    · generalize configuration.finish = outcome at ends ⊢
      generalize configuration'.finish = outcome' at ends ⊢
      cases ends with
      | ok whole => exact .ok whole
      | error expectation =>
        subst expectation
        exact .error ⟨rfl, place⟩
  | @cons token token' rest rest' head tail ih =>
    have next := alike.step joins head
    simp only [advance, ← alike.depth, ← alike.takesOperator, ← head.kind]
    generalize (if configuration.takesOperator token.kind then operators + 1 else operators) = counted
    split
    · exact .error ⟨rfl, head.span⟩
    · split
      · exact .error ⟨rfl, head.span⟩
      · generalize configuration.step token = outcome at next ⊢
        generalize configuration'.step token' = outcome' at next ⊢
        cases next with
        | ok onward => exact ih onward _
        | error expectation =>
          subst expectation
          exact .error ⟨rfl, head.span⟩

end

/-- What relates the tokens of two lists, and an end to an end only, relates those up to the first end. -/
theorem forall₂_pending {changed : Token → Token → Prop}
    (ends : ∀ token token', changed token token' → isFinish token = isFinish token')
    {tokens tokens' : List Token} (same : List.Forall₂ changed tokens tokens') :
    List.Forall₂ changed (tokens.takeWhile fun token => !isFinish token)
        (tokens'.takeWhile fun token => !isFinish token) ∧
      Option.Rel changed (tokens.find? isFinish) (tokens'.find? isFinish) := by
  induction same with
  | nil => exact ⟨.nil, .none⟩
  | @cons token token' rest rest' head tail ih =>
    simp only [List.takeWhile_cons, List.find?_cons, ← ends token token' head]
    cases isFinish token with
    | true => exact ⟨.nil, .some head⟩
    | false => exact ⟨.cons head ih.1, ih.2⟩

/-- Tokens that are alike and come to an end are parsed alike. -/
theorem parse_alike {related : Span → Span → Prop} (joins : Joins related) (limits : Limits)
    {tokens tokens' : List Token} (same : List.Forall₂ (Token.Alike related) tokens tokens')
    (ended : ∃ token ∈ tokens, isFinish token) :
    Paired (Diagnostic.Alike related) (Expr.Alike related)
      (ofTokens limits tokens).parse.1 (ofTokens limits tokens').parse.1 := by
  have ends (token token' : Token) (alike : token.Alike related token') :
      isFinish token = isFinish token' := by
    simp only [isFinish, alike.kind]
  obtain ⟨pending, found⟩ := forall₂_pending ends same
  have place : related (ofTokens limits tokens).finish (ofTokens limits tokens').finish := by
    obtain ⟨token, member, finish⟩ := ended
    have some := List.find?_isSome.mpr ⟨token, member, finish⟩
    simp only [ofTokens]
    generalize tokens.find? isFinish = first at found some ⊢
    generalize tokens'.find? isFinish = first' at found ⊢
    cases found with
    | some alike => exact alike.span
    | none => cases some
  exact advance_alike joins limits place pending ⟨.awaiting .expression, .nil⟩ 0

end Parser

end Reckon

import Reckon.Proofs.Grammar.Acceptance
import Reckon.Proofs.Parser.Trailing

/-!
Settled phrases: outside parentheses, no conditional in a condition lacks its last alternative. They
need not be longest, and still a parser accepts their tokens: what it leaves unfinished behind a part
of such a phrase waits for no token and takes none that the phrase needs.
-/
namespace Reckon.Grammar

open Reckon.Parser Reckon.Parser.Configuration

mutual

/-- The flag tells whether the phrase stands in a condition, with no parentheses around it there. -/
def Phrase.Settled {symbol : Symbol} (inCondition : Bool) : Phrase symbol → Prop
  | .assignment _ _ _ _ value => value.Settled inCondition
  | .chain _ _ first links => first.Settled inCondition ∧ links.Settled inCondition
  | .prefixed _ _ _ operand => operand.Settled inCondition
  | .unsigned power => power.Settled inCondition
  | .number _ _ => True
  | .variable _ _ => True
  | .group _ inner _ => inner.Settled false
  | .conditional _ clause => clause.Settled inCondition

def Links.Settled {family : Family} (inCondition : Bool) : Links family → Prop
  | .nothing => True
  | .link _ _ _ operand rest => operand.Settled inCondition ∧ rest.Settled inCondition

def Clause.Settled (inCondition : Bool) : Clause → Prop
  | .mk condition _ result rest =>
    condition.Settled true ∧ result.Settled inCondition ∧ rest.Settled inCondition

def Clauses.Settled (inCondition : Bool) : Clauses → Prop
  | .nothing => inCondition = false
  | .otherwise _ result => result.Settled inCondition
  | .further _ clause => clause.Settled inCondition

end

mutual

private theorem Phrase.reads {symbol : Symbol} (phrase : Phrase symbol) (goal : Goal)
    (stack : List Frame) {inCondition : Bool} (wide : goalStrength goal ≤ symbol.strength)
    (yields : Yields symbol.strength stack) (settled : phrase.Settled inCondition) :
    Reads inCondition ⟨.awaiting goal, stack⟩ phrase.tokens stack := by
  match phrase, wide, yields, settled with
  | .assignment name opening target equals value, wide, _, settled =>
    obtain rfl := eq_expression_of_wide wide
    have inner := value.reads .expression (.assignment name target.val.span :: stack)
      (Nat.le_refl 1) (yields_loose rfl) settled
    refine .cons (Begins.assignment opening.property).step ?_
    refine .cons (step_name target.property stack) ?_
    refine .cons (step_equals equals.property name target.val.span stack) ?_
    exact inner.append_frames [_] rfl
  | .chain family own first links, wide, yields, settled =>
    rw [← own] at wide yields
    have weaker := symbol_strength_lt_operand family
    obtain ⟨left, above, trails, leads⟩ :=
      first.reads goal stack (Nat.le_of_lt (Nat.lt_of_le_of_lt wide weaker))
        (yields.mono (Nat.le_of_lt weaker)) settled.1
    obtain ⟨part, higher, all, onward⟩ := links.reads left stack trails yields settled.2
    exact ⟨part, higher, all, leads.trans onward⟩
  | .prefixed operator own sign operand, wide, _, settled =>
    have above := signed_strength own
    have inner := operand.reads operator.goal (.unary operator sign.val.span :: stack)
      (goalStrength_le_signed own) (yields_cons.mpr (Nat.lt_of_succ_le (Nat.le_of_eq above))) settled
    have wider := admits_of_signed own wide
    exact .cons (Begins.prefixed operator sign.property wider).step (inner.append_frames [_] rfl)
  | .unsigned power, wide, yields, settled => exact power.reads goal stack wide yields settled
  | .number value literal, _, _, _ =>
    exact .cons (Begins.number value literal.property).step ⟨_, [], rfl, leads_nil _⟩
  | .variable name reference, _, _, _ =>
    exact .cons (Begins.reference name reference.property).step ⟨_, [], rfl, leads_nil _⟩
  | .group opening inner closing, _, _, settled =>
    obtain ⟨part, above, trails, leads⟩ :=
      inner.reads .expression (.group :: stack) (Nat.le_refl 1) (yields_loose rfl)
        settled
    have passed (frame : Frame) (member : frame ∈ above) :=
      resumed_closing (List.all_eq_true.mp trails frame member)
    -- Nothing that the inner phrase leaves unfinished takes the parenthesis.
    obtain ⟨whole, closed⟩ := close_trailing trails passed (.group :: stack) part
    have last : step ⟨.complete part, above ++ .group :: stack⟩ closing.val =
        .ok ⟨.complete whole, stack⟩ := (step_plain closing.property rfl _ _).trans closed
    refine .cons (Begins.group opening.property).step ⟨whole, [], rfl, ?_⟩
    exact leads.trans (.cons last (leads_nil _))
  | .conditional opening clause, _, _, settled =>
    exact .cons (Begins.conditional opening.property).step
      (clause.reads opening.val.span [] stack settled)

private theorem Links.reads {family : Family} (links : Links family) (left : Expr)
    (stack : List Frame)
    {inCondition : Bool} {above : List Frame} (trails : above.all (trailing inCondition))
    (yields : Yields family.symbol.strength stack) (settled : links.Settled inCondition) :
    Reads inCondition ⟨.complete left, above ++ stack⟩ links.tokens stack := by
  match links, settled with
  | .nothing, _ => exact ⟨left, above, trails, leads_nil _⟩
  | .link operator own sign operand rest, settled =>
    have equal := strength_of_mem own
    have weaker := symbol_strength_lt_operand family
    obtain ⟨kept, whole, reduced, keeps⟩ := reduce_trailing trails (equal ▸ yields) left
    have takes : step ⟨.complete left, above ++ stack⟩ sign.val =
        .ok ⟨.awaiting operator.goal, .operation whole operator :: (kept ++ stack)⟩ := by
      simp only [step, BinaryOperator.ofKind?_eq_some.mpr sign.property, reduced]
    obtain ⟨right, higher, all, leads⟩ :=
      operand.reads operator.goal (.operation whole operator :: (kept ++ stack))
        (goalStrength_le_operand own)
        (yields_cons.mpr (Nat.lt_of_le_of_lt (Nat.le_of_eq equal) weaker)) settled.1
    have trailsHigher : (higher ++ .operation whole operator :: kept).all (trailing inCondition) := by
      simp only [List.all_append, List.all_cons, all, keeps, trailing, Bool.and_true]
    obtain ⟨part, highest, allHighest, onward⟩ :=
      rest.reads right stack trailsHigher yields settled.2
    rw [List.append_assoc] at onward
    exact .cons takes ⟨part, highest, allHighest, leads.trans onward⟩

private theorem Clause.reads (clause : Clause) (opening : Span) (clauses : List (Expr × Expr))
    (stack : List Frame) {inCondition : Bool} (settled : clause.Settled inCondition) :
    Reads inCondition ⟨.awaiting .expression, .condition opening clauses :: stack⟩ clause.tokens
      stack := by
  match clause, settled with
  | .mk condition consequence result rest, settled =>
    obtain ⟨premiseSettled, resultSettled, restSettled⟩ := settled
    obtain ⟨part, above, trails, leads⟩ :=
      condition.reads .expression (.condition opening clauses :: stack) (Nat.le_refl 1)
        (yields_loose rfl) premiseSettled
    -- Inside the condition no conditional is left that would take the word for a further clause.
    have passed (frame : Frame) (member : frame ∈ above) :=
      resumed_consequence (List.all_eq_true.mp trails frame member)
    obtain ⟨premise, closed⟩ :=
      close_trailing trails passed (.condition opening clauses :: stack) part
    have last : step ⟨.complete part, above ++ .condition opening clauses :: stack⟩ consequence.val =
        .ok ⟨.awaiting .expression, .result opening clauses premise :: stack⟩ :=
      (step_plain consequence.property rfl _ _).trans closed
    obtain ⟨chosen, higher, all, chooses⟩ :=
      result.reads .expression (.result opening clauses premise :: stack) (Nat.le_refl 1)
        (yields_loose rfl) resultSettled
    obtain ⟨final, highest, allHighest, onward⟩ :=
      rest.reads opening clauses premise chosen stack all restSettled
    exact ⟨final, highest, allHighest, leads.trans (.cons last (chooses.trans onward))⟩

private theorem Clauses.reads (rest : Clauses) (opening : Span) (clauses : List (Expr × Expr))
    (premise result : Expr) (stack : List Frame) {inCondition : Bool} {above : List Frame}
    (trails : above.all (trailing inCondition)) (settled : rest.Settled inCondition) :
    Reads inCondition ⟨.complete result, above ++ .result opening clauses premise :: stack⟩
      rest.tokens stack := by
  match rest, settled with
  | .nothing, settled =>
    subst settled
    refine ⟨result, above ++ [.result opening clauses premise], ?_, ?_⟩
    · simp only [List.all_append, trails, List.all_cons, trailing, List.all_nil, Bool.and_true,
        Bool.not_false]
    · rw [List.append_assoc]
      exact leads_nil _
  | .otherwise mark alternative, settled =>
    -- The word goes to the innermost conditional, which need not be the one that the phrase means.
    obtain ⟨opening', clauses', left, all, closed⟩ :=
      close_result (.keyword .else) (fun _ _ _ _ _ => rfl) trails opening clauses premise result stack
    have inner := alternative.reads .expression (.otherwise opening' clauses' :: (left ++ stack))
      (Nat.le_refl 1) (yields_loose rfl) settled
    have leftover : (Frame.otherwise opening' clauses' :: left).all (trailing inCondition) := by
      simp only [List.all_cons, trailing, all, Bool.and_true]
    exact .cons ((step_plain mark.property rfl _ _).trans closed) (inner.append_frames _ leftover)
  | .further mark clause, settled =>
    have plain : BinaryOperator.ofKind? mark.val.kind = none := by
      rcases mark.property with equal | equal <;> rw [equal] <;> rfl
    obtain ⟨opening', clauses', left, all, closed⟩ :=
      close_result mark.val.kind (fun _ _ _ _ _ => if_pos mark.property) trails opening clauses premise
        result stack
    have inner := clause.reads opening' clauses' (left ++ stack) settled
    exact .cons ((step_plain rfl plain _ _).trans closed) (inner.append_frames _ all)

end

/-- What comes next would go on with an expression or with a conditional. -/
def Pressed (after : List Token) : Prop :=
  ¬ (Unextended after ∧ Uncontinued after)

private theorem pressed_of_sign {operator : BinaryOperator} (sign : Terminal operator.kind)
    (rest : List Token) : Pressed (sign.val :: rest) :=
  fun ends => ends.1 sign.val rfl operator sign.property

private theorem pressed_of_mark {token : Token} (rest : List Token)
    (mark : token.kind = .keyword .then ∨ token.kind = .keyword .elif ∨
      token.kind = .keyword .else) : Pressed (token :: rest) :=
  fun ends => not_uncontinued rest mark ends.2

private theorem pressed_links {family : Family} (links : Links family) {after : List Token}
    (pressed : Pressed after) : Pressed (links.tokens ++ after) := by
  cases links with
  | nothing => exact pressed
  | link operator own sign operand rest => exact pressed_of_sign sign _

mutual

private theorem Phrase.settled_of_longest {symbol : Symbol} (phrase : Phrase symbol)
    {after : List Token}
    {inCondition : Bool} (longest : phrase.Longest after) (pressed : inCondition → Pressed after) :
    phrase.Settled inCondition := by
  match phrase, longest with
  | .assignment _ _ _ _ value, longest => exact value.settled_of_longest longest.1 pressed
  | .chain family own first links, longest =>
    refine ⟨first.settled_of_longest longest.1 fun inside => ?_,
      links.settled_of_longest longest.2.1 pressed⟩
    exact pressed_links links (pressed inside)
  | .prefixed _ _ _ operand, longest => exact operand.settled_of_longest longest pressed
  | .unsigned power, longest => exact power.settled_of_longest longest pressed
  | .number _ _, _ => trivial
  | .variable _ _, _ => trivial
  | .group _ inner _, longest => exact inner.settled_of_longest longest nofun
  | .conditional _ clause, longest => exact clause.settled_of_longest longest pressed

private theorem Links.settled_of_longest {family : Family} (links : Links family)
    {after : List Token}
    {inCondition : Bool} (longest : links.Longest after) (pressed : inCondition → Pressed after) :
    links.Settled inCondition := by
  match links, longest with
  | .nothing, _ => trivial
  | .link _ _ _ operand rest, longest =>
    refine ⟨operand.settled_of_longest longest.1 fun inside => ?_,
      rest.settled_of_longest longest.2 pressed⟩
    exact pressed_links rest (pressed inside)

private theorem Clause.settled_of_longest (clause : Clause) {after : List Token}
    {inCondition : Bool} (longest : clause.Longest after) (pressed : inCondition → Pressed after) :
    clause.Settled inCondition := by
  match clause, longest with
  | .mk condition consequence result rest, longest =>
    obtain ⟨premise, chosen, further⟩ := longest
    have marked := pressed_of_mark (result.tokens ++ (rest.tokens ++ after))
      (.inl consequence.property)
    refine ⟨condition.settled_of_longest premise fun _ => marked,
      result.settled_of_longest chosen fun inside => ?_,
      rest.settled_of_longest further chosen.unextended pressed⟩
    cases rest with
    | nothing => exact pressed inside
    | otherwise mark => exact pressed_of_mark _ (.inr (.inr mark.property))
    | further mark => exact pressed_of_mark _ (mark.property.symm.imp_right .inl)

private theorem Clauses.settled_of_longest (rest : Clauses) {after : List Token}
    {inCondition : Bool}
    (longest : rest.Longest after) (unextended : Unextended (rest.tokens ++ after))
    (pressed : inCondition → Pressed after) : rest.Settled inCondition := by
  match rest, longest, unextended with
  | .nothing, uncontinued, unextended =>
    cases inCondition with
    | false => rfl
    | true => exact absurd ⟨unextended, uncontinued⟩ (pressed rfl)
  | .otherwise _ result, longest, _ => exact result.settled_of_longest longest pressed
  | .further _ clause, longest, _ => exact clause.settled_of_longest longest pressed

end

private theorem completed_iff_settled {tokens : List Token} :
    (∃ expr, outcome .initial tokens = .ok expr) ↔
      ∃ phrase : Phrase .expression, phrase.tokens = tokens ∧ phrase.Settled false := by
  constructor
  · rintro ⟨expr, completed⟩
    obtain ⟨phrase, text, longest, _⟩ := outcome_initial_iff.mp completed
    exact ⟨phrase, text, phrase.settled_of_longest longest nofun⟩
  · rintro ⟨phrase, rfl, settled⟩
    obtain ⟨part, above, trails, leads⟩ :=
      phrase.reads .expression [] (Nat.le_refl 1) (yields_nil _) settled
    obtain ⟨expr, concluded⟩ := conclude_trailing trails part
    have reached := leads []
    rw [List.append_nil, List.append_nil] at reached
    exact ⟨expr, reached.trans concluded⟩

/-- Under limits that no parse of the tokens can reach, a text is accepted just if it has a settled
derivation. The grammar alone derives more: a conditional in a condition may lack its last alternative
there without parentheses around it. -/
theorem parse_accepts_iff_settled (limits : Limits) (tokens : List Token)
    (deep : (sentence tokens).length + 1 ≤ limits.depth)
    (many : (sentence tokens).length ≤ limits.operators) :
    (∃ expr, (Parser.ofTokens limits tokens).parse.1 = .ok expr) ↔
      ∃ phrase : Phrase .expression,
        phrase.tokens = sentence tokens ∧ phrase.Settled false := by
  rw [← completed_iff_settled]
  exact exists_congr fun expr => parse_eq_ok_iff deep many

def Phrase.ofAtom (atom : Phrase .atom) : Phrase .expression :=
  let power : Phrase .power := .chain .power rfl atom .nothing
  let term : Phrase .term := .chain .multiplicative rfl (.unsigned power) .nothing
  let arithmetic : Phrase .arithmetic := .chain .additive rfl term .nothing
  .chain .logical rfl (.chain .relational rfl arithmetic .nothing) .nothing

def Phrase.named (name : String) : Phrase .expression :=
  .ofAtom (.variable name ⟨⟨.name name, default, name⟩, rfl⟩)

def Phrase.chosen (condition result : Phrase .expression) (rest : Clauses) : Phrase .expression :=
  .ofAtom (.conditional ⟨⟨.keyword .if, default, "if"⟩, rfl⟩
    (.mk condition ⟨⟨.keyword .then, default, "then"⟩, rfl⟩ result rest))

/-- A conditional with its last alternative may stand in a condition. -/
theorem alternative_accepted :
    let inner : Phrase .expression := .chosen (.named "a") (.named "b")
      (.otherwise ⟨⟨.keyword .else, default, "else"⟩, rfl⟩ (.named "c"))
    let phrase : Phrase .expression := .chosen inner (.named "d") .nothing
    ∃ expr, (Parser.ofTokens ⟨10, 9⟩ phrase.tokens).parse.1 = .ok expr := by
  intro inner phrase
  have exact := parse_accepts_iff_settled ⟨10, 9⟩ phrase.tokens (by decide) (by decide)
  exact exact.mpr ⟨phrase, rfl, by simp [phrase, inner, Phrase.chosen, Phrase.named, Phrase.ofAtom,
    Phrase.Settled, Clause.Settled, Clauses.Settled, Links.Settled]⟩

def openCondition : Phrase .expression :=
  .chosen (.chosen (.named "a") (.named "b") .nothing) (.named "c") .nothing

/-- A derivable text is refused where the clause of the outer conditional goes to the inner one. -/
theorem derivable_refused :
    ¬ ∀ (limits : Limits) (tokens : List Token) (phrase : Phrase .expression),
      phrase.tokens = sentence tokens →
      (sentence tokens).length + 1 ≤ limits.depth →
      (sentence tokens).length ≤ limits.operators →
      ∃ expr, (Parser.ofTokens limits tokens).parse.1 = .ok expr := by
  intro complete
  obtain ⟨expr, accepted⟩ :=
    complete ⟨8, 7⟩ openCondition.tokens openCondition rfl (by decide) (by decide)
  cases accepted

end Reckon.Grammar

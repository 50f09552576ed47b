import Reckon.Proofs.Grammar.Soundness

/-! The longest phrase at the beginning of a text is the only one. -/
namespace Reckon.Grammar

open Reckon.Parser

inductive Form where
  | assignment | chain | prefixed | unsigned | number | variable | group | conditional

def Phrase.form {symbol : Symbol} : Phrase symbol → Form
  | .assignment .. => .assignment
  | .chain .. => .chain
  | .prefixed .. => .prefixed
  | .unsigned .. => .unsigned
  | .number .. => .number
  | .variable .. => .variable
  | .group .. => .group
  | .conditional .. => .conditional

/-- The form of a phrase shows in its first token. -/
def Symbol.form (kind : Token.Kind) : Symbol → Form
  | .expression => if kind = .keyword .sclr then .assignment else .chain
  | .comparison => if kind = .keyword .not then .prefixed else .chain
  | .arithmetic | .term | .power => .chain
  | .factor => if kind = .plus ∨ kind = .minus then .prefixed else .unsigned
  | .atom =>
    match kind with
    | .int _ | .float _ => .number
    | .name _ => .variable
    | .leftParen => .group
    | _ => .conditional

private theorem Phrase.head_admitted {symbol : Symbol} (phrase : Phrase symbol) :
    ∃ token rest, phrase.tokens = token :: rest ∧ symbol.Admits token.kind := by
  match phrase with
  | .assignment _ opening _ _ _ => exact ⟨opening.val, _, rfl, trivial⟩
  | .chain family own first links =>
    obtain ⟨token, rest, equal, admits⟩ := first.head_admitted
    refine ⟨token, rest ++ links.tokens, ?_, ?_⟩
    · rw [Phrase.tokens, equal, List.cons_append]
    · subst own
      cases family with
      | logical => trivial
      | relational => exact admits.1
      | additive => exact admits
      | multiplicative => exact admits
      | power => exact admits
  | .prefixed operator own sign operand =>
    refine ⟨sign.val, operand.tokens, rfl, ?_⟩
    subst own
    cases operator <;> rw [sign.property] <;> simp [signed, Symbol.Admits, UnaryOperator.kind]
  | .unsigned power =>
    obtain ⟨token, rest, equal, admits⟩ := power.head_admitted
    exact ⟨token, rest, equal, admits.1, admits.2.1⟩
  | .number value literal =>
    refine ⟨literal.val, [], rfl, ?_⟩
    rcases literal.property with kind | kind <;> simp [Symbol.Admits, kind]
  | .variable _ reference =>
    exact ⟨reference.val, [], rfl, by simp [Symbol.Admits, reference.property]⟩
  | .group opening inner closing =>
    exact ⟨opening.val, _, rfl, by simp [Symbol.Admits, opening.property]⟩
  | .conditional opening clause =>
    exact ⟨opening.val, _, rfl, by simp [Symbol.Admits, opening.property]⟩

private theorem Phrase.form_of_head {symbol : Symbol} (phrase : Phrase symbol) {token : Token}
    {rest after : List Token} (head : phrase.tokens ++ after = token :: rest) :
    phrase.form = symbol.form token.kind := by
  match phrase with
  | .assignment _ opening _ _ _ =>
    obtain rfl : opening.val = token := List.head_eq_of_cons_eq head
    simp [Phrase.form, Symbol.form, opening.property]
  | .chain family own first links =>
    obtain ⟨first, _, equal, admits⟩ := first.head_admitted
    rw [Phrase.tokens, equal] at head
    obtain rfl : first = token := List.head_eq_of_cons_eq head
    subst own
    cases family with
    | logical => exact (if_neg admits).symm
    | relational => exact (if_neg admits.2).symm
    | _ => rfl
  | .prefixed operator own sign operand =>
    obtain rfl : sign.val = token := List.head_eq_of_cons_eq head
    subst own
    cases operator <;> rw [sign.property] <;> rfl
  | .unsigned power =>
    obtain ⟨first, _, equal, admits⟩ := power.head_admitted
    rw [Phrase.tokens, equal] at head
    obtain rfl : first = token := List.head_eq_of_cons_eq head
    exact (if_neg (not_or.mpr admits.2.2)).symm
  | .number value literal =>
    obtain rfl : literal.val = token := List.head_eq_of_cons_eq head
    rcases literal.property with kind | kind <;> rw [kind] <;> rfl
  | .variable _ reference =>
    obtain rfl : reference.val = token := List.head_eq_of_cons_eq head
    rw [reference.property]
    rfl
  | .group opening inner closing =>
    obtain rfl : opening.val = token := List.head_eq_of_cons_eq head
    rw [opening.property]
    rfl
  | .conditional opening clause =>
    obtain rfl : opening.val = token := List.head_eq_of_cons_eq head
    rw [opening.property]
    rfl

private theorem symbol_injective {first second : Family} (equal : first.symbol = second.symbol) :
    first = second := by
  cases first <;> cases second <;> first | rfl | cases equal

private theorem kind_injective {first second : UnaryOperator} (equal : first.kind = second.kind) :
    first = second := by
  cases first <;> cases second <;> first | rfl | cases equal

private theorem name_unique {token : Token} {first second : String}
    (named : token.kind = .name first) (renamed : token.kind = .name second) : first = second :=
  Token.Kind.name.inj (named.symm.trans renamed)

private theorem value_unique {token : Token} {first second : Float}
    (literal : token.kind = .int first ∨ token.kind = .float first)
    (other : token.kind = .int second ∨ token.kind = .float second) : first = second := by
  rcases literal with equal | equal <;> rcases other with same | same <;>
    cases equal.symm.trans same <;> rfl

/-- A chain stops only in front of what could not go on with it. -/
private theorem not_below_sign {family : Family} {operator : BinaryOperator}
    (own : operator ∈ family.operators) (sign : Terminal operator.kind) (rest : List Token) :
    ¬ Below family.symbol.strength (sign.val :: rest) := by
  intro below
  have weaker := below_cons.mp below operator (BinaryOperator.ofKind?_eq_some.mpr sign.property)
  exact Nat.lt_irrefl _ (strength_of_mem own ▸ weaker)

theorem not_uncontinued {token : Token} (rest : List Token)
    (mark : token.kind = .keyword .then ∨ token.kind = .keyword .elif ∨
      token.kind = .keyword .else) : ¬ Uncontinued (token :: rest) := by
  intro ends
  obtain ⟨notThen, notElif, notElse⟩ := ends token rfl
  rcases mark with equal | equal | equal
  · exact notThen equal
  · exact notElif equal
  · exact notElse equal

private theorem otherwise_ne_further (mark : Terminal (.keyword .else))
    (word : { token : Token // token.kind = .keyword .elif ∨ token.kind = .keyword .then }) :
    mark.val ≠ word.val := by
  intro equal
  have kind := mark.property
  rw [equal] at kind
  rcases word.property with same | same <;> cases kind.symm.trans same

mutual

theorem Phrase.unique {symbol : Symbol} (first second : Phrase symbol) {after later : List Token}
    (text : first.tokens ++ after = second.tokens ++ later) (longest : first.Longest after)
    (other : second.Longest later) (below : Below symbol.strength after)
    (beyond : Below symbol.strength later) : first = second ∧ after = later := by
  -- Both phrases begin with the same token, and it tells their form.
  have same : first.form = second.form := by
    obtain ⟨token, rest, head, _⟩ := first.head_admitted
    rw [head] at text
    have formed := first.form_of_head (congrArg (· ++ after) head)
    exact formed.trans (second.form_of_head text.symm).symm
  match first, same, text, longest, below with
  | .assignment name opening target equals value, same, text, longest, below =>
    cases second with
    | assignment name' opening' target' equals' value' =>
      simp only [Phrase.tokens, List.cons_append, List.cons.injEq] at text
      obtain ⟨opens, named, signs, text⟩ := text
      obtain rfl : opening = opening' := Subtype.ext opens
      obtain rfl : name = name' := name_unique target.property (named ▸ target'.property)
      obtain rfl : target = target' := Subtype.ext named
      obtain rfl : equals = equals' := Subtype.ext signs
      obtain ⟨rfl, rfl⟩ := value.unique value' text longest.1 other.1 below beyond
      exact ⟨rfl, rfl⟩
    | _ => cases same
  | .chain family own leading links, same, text, longest, below =>
    cases second with
    | chain family' own' leading' links' =>
      obtain rfl : family = family' := symbol_injective (own.trans own'.symm)
      obtain ⟨longestLeading, linked, _⟩ := longest
      obtain ⟨otherLeading, otherLinked, _⟩ := other
      have weaker := symbol_strength_lt_operand family
      rw [← own] at below beyond
      rw [Phrase.tokens, Phrase.tokens, List.append_assoc, List.append_assoc] at text
      obtain ⟨rfl, tail⟩ := leading.unique leading' text longestLeading otherLeading
        ((below_links links below).mono weaker) ((below_links links' beyond).mono weaker)
      obtain ⟨rfl, rfl⟩ := links.unique links' tail linked otherLinked below beyond
      exact ⟨rfl, rfl⟩
    | _ => cases same
  | .prefixed operator own sign operand, same, text, longest, below =>
    cases second with
    | prefixed operator' own' sign' operand' =>
      obtain ⟨signs, tail⟩ := List.cons.inj text
      obtain rfl : operator = operator' :=
        kind_injective (sign.property.symm.trans (signs ▸ sign'.property))
      obtain rfl : sign = sign' := Subtype.ext signs
      obtain ⟨rfl, rfl⟩ := operand.unique operand' tail longest other below beyond
      exact ⟨rfl, rfl⟩
    | _ => cases same
  | .unsigned power, same, text, longest, below =>
    cases second with
    | unsigned power' =>
      obtain ⟨rfl, rfl⟩ := power.unique power' text longest other below beyond
      exact ⟨rfl, rfl⟩
    | _ => cases same
  | .number value literal, same, text, longest, below =>
    cases second with
    | number value' literal' =>
      obtain ⟨literals, rfl⟩ := List.cons.inj text
      obtain rfl : value = value' := value_unique literal.property (literals ▸ literal'.property)
      obtain rfl : literal = literal' := Subtype.ext literals
      exact ⟨rfl, rfl⟩
    | _ => cases same
  | .variable name reference, same, text, longest, below =>
    cases second with
    | «variable» name' reference' =>
      obtain ⟨references, rfl⟩ := List.cons.inj text
      obtain rfl : name = name' :=
        name_unique reference.property (references ▸ reference'.property)
      obtain rfl : reference = reference' := Subtype.ext references
      exact ⟨rfl, rfl⟩
    | _ => cases same
  | .group opening inner closing, same, text, longest, below =>
    cases second with
    | group opening' inner' closing' =>
      simp only [Phrase.tokens, List.cons_append, List.append_assoc, List.nil_append,
        List.cons.injEq] at text
      obtain ⟨opens, text⟩ := text
      obtain rfl : opening = opening' := Subtype.ext opens
      have closes := unextended_of_kind after closing.property rfl
      have closes' := unextended_of_kind later closing'.property rfl
      obtain ⟨rfl, tail⟩ :=
        inner.unique inner' text longest other (closes.below 1) (closes'.below 1)
      obtain ⟨ends, rfl⟩ := List.cons.inj tail
      obtain rfl : closing = closing' := Subtype.ext ends
      exact ⟨rfl, rfl⟩
    | _ => cases same
  | .conditional opening clause, same, text, longest, below =>
    cases second with
    | conditional opening' clause' =>
      obtain ⟨opens, tail⟩ := List.cons.inj text
      obtain rfl : opening = opening' := Subtype.ext opens
      obtain ⟨rfl, rfl⟩ := clause.unique clause' tail longest other
      exact ⟨rfl, rfl⟩
    | _ => cases same
termination_by structural first

theorem Links.unique {family : Family} (first second : Links family) {after later : List Token}
    (text : first.tokens ++ after = second.tokens ++ later) (longest : first.Longest after)
    (other : second.Longest later) (below : Below family.symbol.strength after)
    (beyond : Below family.symbol.strength later) : first = second ∧ after = later := by
  match first, second, text, longest, other with
  | .nothing, .nothing, text, _, _ => exact ⟨rfl, text⟩
  | .nothing, .link operator own sign operand rest, text, _, _ =>
    cases text
    exact absurd below (not_below_sign own sign _)
  | .link operator own sign operand rest, .nothing, text, _, _ =>
    cases text
    exact absurd beyond (not_below_sign own sign _)
  | .link operator own sign operand rest, .link operator' own' sign' operand' rest', text, longest,
      other =>
    simp only [Links.tokens, List.cons_append, List.append_assoc, List.cons.injEq] at text
    obtain ⟨signs, text⟩ := text
    have read := BinaryOperator.ofKind?_eq_some.mpr sign.property
    have read' := BinaryOperator.ofKind?_eq_some.mpr sign'.property
    rw [signs] at read
    obtain rfl : operator = operator' := Option.some.inj (read.symm.trans read')
    obtain rfl : sign = sign' := Subtype.ext signs
    have weaker := symbol_strength_lt_operand family
    obtain ⟨rfl, tail⟩ := operand.unique operand' text longest.1 other.1
      ((below_links rest below).mono weaker) ((below_links rest' beyond).mono weaker)
    obtain ⟨rfl, rfl⟩ := rest.unique rest' tail longest.2 other.2 below beyond
    exact ⟨rfl, rfl⟩
termination_by structural first

theorem Clause.unique (first second : Clause) {after later : List Token}
    (text : first.tokens ++ after = second.tokens ++ later) (longest : first.Longest after)
    (other : second.Longest later) : first = second ∧ after = later := by
  match first, second, text, longest, other with
  | .mk condition consequence result rest, .mk condition' consequence' result' rest', text, longest,
      other =>
    obtain ⟨premise, inner, further⟩ := longest
    obtain ⟨premise', inner', further'⟩ := other
    simp only [Clause.tokens, List.append_assoc, List.cons_append] at text
    obtain ⟨rfl, chosen⟩ := condition.unique condition' text premise premise'
      (premise.unextended.below 1) (premise'.unextended.below 1)
    obtain ⟨marks, behind⟩ := List.cons.inj chosen
    obtain rfl : consequence = consequence' := Subtype.ext marks
    obtain ⟨rfl, tail⟩ := result.unique result' behind inner inner' (inner.unextended.below 1)
      (inner'.unextended.below 1)
    obtain ⟨rfl, rfl⟩ := rest.unique rest' tail further further'
    exact ⟨rfl, rfl⟩
termination_by structural first

theorem Clauses.unique (first second : Clauses) {after later : List Token}
    (text : first.tokens ++ after = second.tokens ++ later) (longest : first.Longest after)
    (other : second.Longest later) : first = second ∧ after = later := by
  match first, second, text, longest, other with
  | .nothing, .nothing, text, _, _ => exact ⟨rfl, text⟩
  | .otherwise mark result, .otherwise mark' result', text, longest, other =>
    obtain ⟨marks, tail⟩ := List.cons.inj text
    obtain rfl : mark = mark' := Subtype.ext marks
    obtain ⟨rfl, rfl⟩ := result.unique result' tail longest other (longest.unextended.below 1)
      (other.unextended.below 1)
    exact ⟨rfl, rfl⟩
  | .further mark clause, .further mark' clause', text, longest, other =>
    obtain ⟨marks, tail⟩ := List.cons.inj text
    obtain rfl : mark = mark' := Subtype.ext marks
    obtain ⟨rfl, rfl⟩ := clause.unique clause' tail longest other
    exact ⟨rfl, rfl⟩
  | .nothing, .otherwise mark result, text, longest, _ =>
    cases text
    exact absurd longest (not_uncontinued _ (.inr (.inr mark.property)))
  | .nothing, .further mark clause, text, longest, _ =>
    cases text
    exact absurd longest (not_uncontinued _ (mark.property.symm.imp_right .inl))
  | .otherwise mark result, .nothing, text, _, other =>
    cases text
    exact absurd other (not_uncontinued _ (.inr (.inr mark.property)))
  | .further mark clause, .nothing, text, _, other =>
    cases text
    exact absurd other (not_uncontinued _ (mark.property.symm.imp_right .inl))
  | .otherwise mark result, .further mark' clause, text, _, _ =>
    exact absurd (List.head_eq_of_cons_eq text) (otherwise_ne_further mark mark')
  | .further mark clause, .otherwise mark' result, text, _, _ =>
    exact absurd (List.head_eq_of_cons_eq text).symm (otherwise_ne_further mark' mark)
termination_by structural first

end

end Reckon.Grammar

import Mathlib.Data.List.Forall2
import Reckon.Diagnostic
import Reckon.Expr
import Reckon.Value

/-!
Likeness: tokens, expressions, values and diagnostics that differ in nothing but their regions, and these
only as a relation between regions allows.
-/
namespace Reckon

/-- A relation that goes over to the region from one to another. -/
def Joins (related : Span → Span → Prop) : Prop :=
  ∀ first first' last last', related first first' → related last last' →
    related (first.through last) (first'.through last')

/-- Both fail or both succeed, alike in either case. -/
inductive Paired {α α' ε ε' : Type} (failures : ε → ε' → Prop) (successes : α → α' → Prop) :
    Except ε α → Except ε' α' → Prop
  | error {fault : ε} {fault' : ε'} (alike : failures fault fault') :
      Paired failures successes (.error fault) (.error fault')
  | ok {value : α} {value' : α'} (alike : successes value value') :
      Paired failures successes (.ok value) (.ok value')

theorem Paired.mapError {α α' ε ε' δ δ' : Type} {failures : ε → ε' → Prop} {others : δ → δ' → Prop}
    {successes : α → α' → Prop} {first : Except ε α} {second : Except ε' α'} {change : ε → δ}
    {change' : ε' → δ'} (paired : Paired failures successes first second)
    (changed : ∀ fault fault', failures fault fault' → others (change fault) (change' fault')) :
    Paired others successes (first.mapError change) (second.mapError change') := by
  cases paired with
  | error alike => exact .error (changed _ _ alike)
  | ok alike => exact .ok alike

theorem Paired.bind {α α' β β' ε ε' : Type} {failures : ε → ε' → Prop} {successes : α → α' → Prop}
    {results : β → β' → Prop} {first : Except ε α} {second : Except ε' α'} {next : α → Except ε β}
    {later : α' → Except ε' β'} (paired : Paired failures successes first second)
    (continued : ∀ value value', successes value value' →
      Paired failures results (next value) (later value')) :
    Paired failures results (first >>= next) (second >>= later) := by
  cases paired with
  | error alike => exact .error alike
  | ok alike => exact continued _ _ alike

/-- What a token says, wherever it stands. -/
def Token.reading (token : Token) : Token.Kind × String := (token.kind, token.lexeme)

structure Token.Alike (related : Span → Span → Prop) (token token' : Token) : Prop where
  kind : token.kind = token'.kind
  span : related token.span token'.span

/-- From a token of a text through a token of it, and through the tokens of the same numbers in
another text. -/
def SamePlace (tokens tokens' : List Token) (span span' : Span) : Prop :=
  ∃ (opening closing : Nat) (first last first' last' : Token),
    tokens[opening]? = some first ∧ tokens[closing]? = some last ∧
    tokens'[opening]? = some first' ∧ tokens'[closing]? = some last' ∧
    span = first.span.through last.span ∧ span' = first'.span.through last'.span

theorem samePlace_joins (tokens tokens' : List Token) : Joins (SamePlace tokens tokens') := by
  rintro _ _ _ _ ⟨opening, _, first, _, first', _, found, _, found', _, rfl, rfl⟩
    ⟨_, closing, _, last, _, last', _, found'', _, found''', rfl, rfl⟩
  exact ⟨opening, closing, first, last, first', last', found, found'', found', found''', rfl, rfl⟩

theorem alike_of_reading {tokens tokens' : List Token}
    (same : tokens.map Token.reading = tokens'.map Token.reading) :
    List.Forall₂ (Token.Alike (SamePlace tokens tokens')) tokens tokens' := by
  have length : tokens.length = tokens'.length := by simpa using congrArg List.length same
  refine List.forall₂_of_length_eq_of_get length fun index inside inside' => ?_
  have reading : tokens[index].reading = tokens'[index].reading := by
    have shown := congrArg (·[index]?) same
    simpa [inside, inside'] using shown
  have found : tokens[index]? = some tokens[index] := List.getElem?_eq_getElem inside
  have found' : tokens'[index]? = some tokens'[index] := List.getElem?_eq_getElem inside'
  exact ⟨congrArg Prod.fst reading, index, index, _, _, _, _, found, found, found', found', rfl, rfl⟩

mutual

inductive Expr.Alike (related : Span → Span → Prop) : Expr → Expr → Prop
  | number (value : Float) {span span' : Span} (place : related span span') :
      Expr.Alike related (.number value span) (.number value span')
  | variable (name : String) {span span' : Span} (place : related span span') :
      Expr.Alike related (.variable name span) (.variable name span')
  | assign (name : String) {value value' : Expr} {span span' : Span}
      (inner : Expr.Alike related value value') (place : related span span') :
      Expr.Alike related (.assign name value span) (.assign name value' span')
  | unary (operator : UnaryOperator) {operand operand' : Expr} {span span' : Span}
      (inner : Expr.Alike related operand operand') (place : related span span') :
      Expr.Alike related (.unary operator operand span) (.unary operator operand' span')
  | binary (operator : BinaryOperator) {left left' right right' : Expr} {span span' : Span}
      (first : Expr.Alike related left left') (second : Expr.Alike related right right')
      (place : related span span') :
      Expr.Alike related (.binary left operator right span) (.binary left' operator right' span')
  | conditional {branches branches' : Branches} {span span' : Span}
      (inner : Branches.Alike related branches branches') (place : related span span') :
      Expr.Alike related (.conditional branches span) (.conditional branches' span')

inductive Branches.Alike (related : Span → Span → Prop) : Branches → Branches → Prop
  | nothing : Branches.Alike related .nothing .nothing
  | otherwise {result result' : Expr} (last : Expr.Alike related result result') :
      Branches.Alike related (.otherwise result) (.otherwise result')
  | clause {condition condition' result result' : Expr} {rest rest' : Branches}
      (test : Expr.Alike related condition condition') (chosen : Expr.Alike related result result')
      (later : Branches.Alike related rest rest') :
      Branches.Alike related (.clause condition result rest) (.clause condition' result' rest')

end

section

variable {related : Span → Span → Prop}

theorem Expr.Alike.span {expr expr' : Expr} (alike : expr.Alike related expr') :
    related expr.span expr'.span := by
  cases alike with
  | number _ place | «variable» _ place | assign _ _ place | unary _ _ place | binary _ _ _ place
  | conditional _ place => exact place

theorem Expr.Alike.isBinary {expr expr' : Expr} (alike : expr.Alike related expr') :
    expr.isBinary = expr'.isBinary := by
  cases alike with
  | number | «variable» | assign | unary | binary | conditional => rfl

def ClausesAlike (related : Span → Span → Prop) : List (Expr × Expr) → List (Expr × Expr) → Prop :=
  List.Forall₂ fun clause clause' =>
    clause.1.Alike related clause'.1 ∧ clause.2.Alike related clause'.2

theorem Branches.Alike.after {clauses clauses' : List (Expr × Expr)} {rest rest' : Branches}
    (alike : ClausesAlike related clauses clauses') (later : rest.Alike related rest') :
    (Branches.after clauses rest).Alike related (Branches.after clauses' rest') := by
  induction alike generalizing rest rest' with
  | nil => exact later
  | cons head tail ih => exact ih (.clause head.1 head.2 later)

end

structure Value.Alike (related : Span → Span → Prop) (value value' : Value) : Prop where
  number : value.number = value'.number
  span : Option.Rel related value.span value'.span

structure Diagnostic.Alike (related : Span → Span → Prop) (diagnostic diagnostic' : Diagnostic) :
    Prop where
  fault : diagnostic.fault = diagnostic'.fault
  span : related diagnostic.span diagnostic'.span

end Reckon

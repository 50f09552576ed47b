import Reckon.Proofs.Grammar.Acceptance
import Reckon.Proofs.Number.Literal
import Reckon.Proofs.Parser.Joined

/-!
Printing of expressions, every compound part in parentheses. Main statement: the text that is printed for an
expression is read back as the same tree.
-/
namespace Reckon

/-- The same tree, wherever its nodes stand. -/
def Expr.SameTree (first second : Expr) : Prop :=
  first.Alike (fun _ _ => True) second

def Branches.SameTree (first second : Branches) : Prop :=
  first.Alike (fun _ _ => True) second

mutual

private theorem Expr.Alike.sameTree {related : Span → Span → Prop} {first second third : Expr}
    (alike : first.Alike related second) (same : second.SameTree third) : first.SameTree third := by
  match alike, same with
  | .number value _, .number _ _ => exact .number value trivial
  | .variable name _, .variable _ _ => exact .variable name trivial
  | .assign name inner _, .assign _ inner' _ => exact .assign name (inner.sameTree inner') trivial
  | .unary operator inner _, .unary _ inner' _ =>
    exact .unary operator (inner.sameTree inner') trivial
  | .binary operator left right _, .binary _ left' right' _ =>
    exact .binary operator (left.sameTree left') (right.sameTree right') trivial
  | .conditional inner _, .conditional inner' _ => exact .conditional (inner.sameTree inner') trivial

private theorem Branches.Alike.sameTree {related : Span → Span → Prop}
    {first second third : Branches}
    (alike : first.Alike related second) (same : second.SameTree third) : first.SameTree third := by
  match alike, same with
  | .nothing, .nothing => exact .nothing
  | .otherwise last, .otherwise last' => exact .otherwise (last.sameTree last')
  | .clause test chosen later, .clause test' chosen' later' =>
    exact .clause (test.sameTree test') (chosen.sameTree chosen') (later.sameTree later')

end

/-- Some letters that are not a reserved word. -/
structure IsName (text : String) : Prop where
  present : text.toList ≠ []
  letters : ∀ character ∈ text.toList, character.isAlpha
  free : ∀ word, (text, word) ∉ Lexer.words

private theorem IsName.lexeme {name : String} (named : IsName name) :
    Lexer.Lexeme name.toList (.name name) := by
  have lexeme := Lexer.Lexeme.name named.present named.letters
  rw [String.ofList_toList] at lexeme
  exact lexeme named.free

mutual

/-- What can be written down: names, plain numbers, and conditionals that begin with a clause. -/
inductive Expr.Writable : Expr → Prop
  | number {value : Float} {span : Span} (plain : Number.IsPlain value) :
      Expr.Writable (.number value span)
  | variable {name : String} {span : Span} (named : IsName name) : Expr.Writable (.variable name span)
  | assign {name : String} {value : Expr} {span : Span} (named : IsName name)
      (inner : Expr.Writable value) : Expr.Writable (.assign name value span)
  | unary {operator : UnaryOperator} {operand : Expr} {span : Span} (inner : Expr.Writable operand) :
      Expr.Writable (.unary operator operand span)
  | binary {left right : Expr} {operator : BinaryOperator} {span : Span}
      (first : Expr.Writable left) (second : Expr.Writable right) :
      Expr.Writable (.binary left operator right span)
  | conditional {condition result : Expr} {rest : Branches} {span : Span}
      (test : Expr.Writable condition) (chosen : Expr.Writable result)
      (later : Branches.Writable rest) :
      Expr.Writable (.conditional (.clause condition result rest) span)

inductive Branches.Writable : Branches → Prop
  | nothing : Branches.Writable .nothing
  | otherwise {result : Expr} (last : Expr.Writable result) : Branches.Writable (.otherwise result)
  | clause {condition result : Expr} {rest : Branches} (test : Expr.Writable condition)
      (chosen : Expr.Writable result) (later : Branches.Writable rest) :
      Branches.Writable (.clause condition result rest)

end

/-- The words of an expression where it is part of another: numbers and variables stand alone, all else
stands in parentheses. -/
def Expr.enclose (words : List String) : Expr → List String
  | .number _ _ | .variable _ _ => words
  | .assign .. | .unary .. | .binary .. | .conditional .. => "(" :: (words ++ [")"])

mutual

def Expr.words (spell : Float → String) : Expr → List String
  | .number value _ => [spell value]
  | .variable name _ => [name]
  | .assign name value _ => "sclr" :: name :: "=" :: value.enclose (value.words spell)
  | .unary operator operand _ => operator.kind.text :: operand.enclose (operand.words spell)
  | .binary left operator right _ =>
    left.enclose (left.words spell) ++ operator.text :: right.enclose (right.words spell)
  | .conditional branches _ => branches.words spell "if"

def Branches.words (spell : Float → String) (mark : String) : Branches → List String
  | .nothing => []
  | .otherwise result => "else" :: result.enclose (result.words spell)
  | .clause condition result rest =>
    mark :: (condition.enclose (condition.words spell) ++ "then" ::
      (result.enclose (result.words spell) ++ rest.words spell "elif"))

end

def Expr.printed (spell : Float → String) (expr : Expr) : String :=
  " ".intercalate (expr.words spell)

namespace Grammar

/-- The words are the lexemes of the tokens. -/
def Spelled : List Token → List String → Prop :=
  List.Forall₂ fun token word => token.lexeme = word ∧ Lexer.Lexeme word.toList token.kind

private theorem Spelled.append {tokens tokens' : List Token} {words words' : List String}
    (first : Spelled tokens words) (second : Spelled tokens' words') :
    Spelled (tokens ++ tokens') (words ++ words') :=
  List.rel_append first second

private theorem Spelled.map_lexeme {tokens : List Token} {words : List String}
    (spelled : Spelled tokens words) : tokens.map Token.lexeme = words := by
  induction spelled with
  | nil => rfl
  | cons head _ ih => rw [List.map_cons, head.1, ih]

private theorem Spelled.lexeme {tokens : List Token} {words : List String}
    (spelled : Spelled tokens words) :
    ∀ token ∈ tokens, Lexer.Lexeme token.lexeme.toList token.kind := by
  induction spelled with
  | nil => nofun
  | cons head _ ih => exact List.forall_mem_cons.mpr ⟨head.1.symm ▸ head.2, ih⟩

/-- No operator between operands comes next, and no word with which a conditional could go on. -/
def Ended (after : List Token) : Prop :=
  Unextended after ∧ Uncontinued after

private theorem ended_nil : Ended [] := by
  simp [Ended, Unextended, Uncontinued]

/-- A phrase with these words stands for the tree, and it is longest in front of all tokens that fit and, when
it is a whole expression, do not extend it. -/
def Derives (symbol : Symbol) (fits : List Token → Prop) (words : List String) (expr : Expr) : Prop :=
  ∃ phrase : Phrase symbol, Spelled phrase.tokens words ∧ phrase.expr.SameTree expr ∧
    ∀ after, fits after → (symbol = .expression → Unextended after) → phrase.Longest after

/-- Longest in front of all tokens. -/
def Closed (_ : List Token) : Prop := True

section

variable {symbol : Symbol} {fits : List Token → Prop} {words words' : List String} {expr : Expr}

private theorem Derives.mono {fits' : List Token → Prop} (derives : Derives symbol fits words expr)
    (weaker : ∀ after, fits' after → fits after) : Derives symbol fits' words expr := by
  obtain ⟨phrase, spelled, tree, longest⟩ := derives
  exact ⟨phrase, spelled, tree, fun after fit => longest after (weaker after fit)⟩

/-- A terminal that stands nowhere. -/
def terminal (kind : Token.Kind) (lexeme : String) : Terminal kind :=
  ⟨⟨kind, default, lexeme⟩, rfl⟩

private theorem derives_number {text : String} {value : Float}
    (literal : Number.IsLiteral text value)
    (span : Span) : Derives .atom Closed [text] (.number value span) := by
  obtain ⟨kind, lexeme, reading⟩ := literal
  exact ⟨.number value ⟨⟨kind, default, text⟩, reading⟩, .cons ⟨rfl, lexeme⟩ .nil,
    .number value trivial, fun _ _ _ => trivial⟩

private theorem derives_variable {name : String} (named : IsName name) (span : Span) :
    Derives .atom Closed [name] (.variable name span) :=
  ⟨.variable name (terminal (.name name) name), .cons ⟨rfl, named.lexeme⟩ .nil,
    .variable name trivial, fun _ _ _ => trivial⟩

/-- What needs no more than the end of its text is closed by parentheses. -/
private theorem Derives.group (inner : Derives .expression Ended words expr) :
    Derives .atom Closed ("(" :: (words ++ [")"])) expr := by
  obtain ⟨phrase, spelled, tree, longest⟩ := inner
  have opens : Lexer.Lexeme "(".toList .leftParen :=
    .sign (by simp [Lexer.signs, Lexer.symbols])
  have closes : Lexer.Lexeme ")".toList .rightParen :=
    .sign (by simp [Lexer.signs, Lexer.symbols])
  let closing := terminal .rightParen ")"
  refine ⟨.group (terminal .leftParen "(") phrase closing,
    .cons ⟨rfl, opens⟩ (spelled.append (.cons ⟨rfl, closes⟩ .nil)), tree, fun after _ _ => ?_⟩
  have unextended : Unextended (closing.val :: after) := unextended_of_kind after rfl rfl
  have uncontinued : Uncontinued (closing.val :: after) := by
    rintro token ⟨⟩
    simp [closing, terminal]
  exact longest _ ⟨unextended, uncontinued⟩ fun _ => unextended

private theorem operand_ne_expression (family : Family) : family.operand ≠ .expression := by
  cases family <;> nofun

private theorem Derives.chain (family : Family) (inner : Derives family.operand fits words expr) :
    Derives family.symbol fits words expr := by
  obtain ⟨phrase, spelled, tree, longest⟩ := inner
  refine ⟨.chain family rfl phrase .nothing, ?_, tree, fun after fit unextended => ?_⟩
  · rw [Phrase.tokens, Links.tokens, List.append_nil]
    exact spelled
  · exact ⟨longest after fit fun same => absurd same (operand_ne_expression family), trivial,
      unextended⟩

private theorem Derives.unsigned (inner : Derives .power fits words expr) :
    Derives .factor fits words expr := by
  obtain ⟨phrase, spelled, tree, longest⟩ := inner
  exact ⟨.unsigned phrase, spelled, tree, fun after fit _ => longest after fit nofun⟩

/-- What is made of a single phrase of a symbol. -/
def Symbol.wider : Symbol → Symbol
  | .atom => .power
  | .power => .factor
  | .factor => .term
  | .term => .arithmetic
  | .arithmetic => .comparison
  | .comparison | .expression => .expression

private theorem Derives.wider (inner : Derives symbol fits words expr) :
    Derives symbol.wider fits words expr := by
  cases symbol with
  | atom => exact .chain .power inner
  | power => exact inner.unsigned
  | factor => exact .chain .multiplicative inner
  | term => exact .chain .additive inner
  | arithmetic => exact .chain .relational inner
  | comparison => exact .chain .logical inner
  | expression => exact inner

private theorem Derives.operand (atom : Derives .atom fits words expr) (symbol : Symbol) :
    Derives symbol fits words expr := by
  cases symbol with
  | atom => exact atom
  | power => exact atom.wider
  | factor => exact atom.wider.wider
  | term => exact atom.wider.wider.wider
  | arithmetic => exact atom.wider.wider.wider.wider
  | comparison => exact atom.wider.wider.wider.wider.wider
  | expression => exact atom.wider.wider.wider.wider.wider.wider

private theorem Derives.whole (part : Derives symbol fits words expr) :
    Derives .expression fits words expr := by
  have widest := part.wider.wider.wider.wider.wider.wider
  cases symbol <;> exact widest

private theorem exists_family (operator : BinaryOperator) :
    ∃ family : Family, operator ∈ family.operators := by
  cases operator with
  | and | or => exact ⟨.logical, by simp [Family.operators]⟩
  | add | subtract => exact ⟨.additive, by simp [Family.operators]⟩
  | multiply | divide => exact ⟨.multiplicative, by simp [Family.operators]⟩
  | power => exact ⟨.power, by simp [Family.operators]⟩
  | _ => exact ⟨.relational, by simp [Family.operators]⟩

private theorem Derives.operation {left right : Expr} (operator : BinaryOperator) (span : Span)
    (first : Derives .atom Closed words left) (second : Derives .atom Closed words' right) :
    Derives .expression Closed (words ++ operator.text :: words')
      (.binary left operator right span) := by
  obtain ⟨family, own⟩ := exists_family operator
  obtain ⟨phrase, spelled, tree, longest⟩ := first.operand family.operand
  obtain ⟨phrase', spelled', tree', longest'⟩ := second.operand family.operand
  have narrow : ∀ after, family.operand = .expression → Unextended after :=
    fun _ same => absurd same (operand_ne_expression family)
  let sign := terminal operator.kind operator.text
  have linked : Spelled (phrase.tokens ++ sign.val :: phrase'.tokens)
      (words ++ operator.text :: words') :=
    spelled.append (.cons ⟨rfl, operator.lexeme⟩ spelled')
  have derives : Derives family.symbol Closed (words ++ operator.text :: words')
      (.binary left operator right span) := by
    refine ⟨.chain family rfl phrase (.link operator own sign phrase' .nothing), ?_,
      .binary operator tree tree' trivial, fun after _ unextended => ?_⟩
    · simpa [Phrase.tokens, Links.tokens] using linked
    · exact ⟨longest _ trivial (narrow _), ⟨longest' _ trivial (narrow _), trivial⟩, unextended⟩
  exact derives.whole

private theorem Derives.prefixed {operand : Expr} (operator : UnaryOperator) (span : Span)
    (inner : Derives .atom Closed words operand) :
    Derives .expression Closed (operator.kind.text :: words) (.unary operator operand span) := by
  obtain ⟨phrase, spelled, tree, longest⟩ := inner.operand (signed operator)
  have narrow : signed operator ≠ .expression := by cases operator <;> nofun
  have derives : Derives (signed operator) Closed (operator.kind.text :: words)
      (.unary operator operand span) :=
    ⟨.prefixed operator rfl (terminal operator.kind operator.kind.text) phrase,
      .cons ⟨rfl, operator.lexeme⟩ spelled, .unary operator tree trivial,
      fun after fit _ => longest after fit fun same => absurd same narrow⟩
  exact derives.whole

private theorem Derives.assignment {name : String} {value : Expr} (named : IsName name)
    (span : Span) (inner : Derives .atom Closed words value) :
    Derives .expression Closed ("sclr" :: name :: "=" :: words) (.assign name value span) := by
  obtain ⟨phrase, spelled, tree, longest⟩ := inner.operand .expression
  have equals : Lexer.Lexeme "=".toList .equal :=
    .sign (by simp [Lexer.signs, Lexer.comparisons])
  let opening := terminal (.keyword .sclr) "sclr"
  let target := terminal (.name name) name
  let mark := terminal .equal "="
  have all : Spelled (opening.val :: target.val :: mark.val :: phrase.tokens)
      ("sclr" :: name :: "=" :: words) :=
    .cons ⟨rfl, Lexer.lexeme_of_keyword .sclr⟩ (.cons ⟨rfl, named.lexeme⟩ (.cons ⟨rfl, equals⟩ spelled))
  refine ⟨.assignment name opening target mark phrase, all, .assign name tree trivial,
    fun after fit unextended => ?_⟩
  exact ⟨longest after fit unextended, unextended rfl⟩

/-- As `Derives`, of the clauses behind a result. None of them extends the result. -/
def DerivesRest (words : List String) (branches : Branches) : Prop :=
  ∃ rest : Clauses, Spelled rest.tokens words ∧ rest.branches.SameTree branches ∧
    (∀ after, Ended after → rest.Longest after) ∧
    ∀ after, Unextended after → Unextended (rest.tokens ++ after)

def DerivesClause (words : List String) (branches : Branches) : Prop :=
  ∃ clause : Clause, Spelled clause.tokens words ∧ clause.branches.SameTree branches ∧
    ∀ after, Ended after → clause.Longest after

variable {branches : Branches}

private theorem derivesRest_nothing : DerivesRest [] .nothing :=
  ⟨.nothing, .nil, .nothing, fun _ ended => ended.2, fun _ unextended => unextended⟩

private theorem Derives.otherwise (inner : Derives .atom Closed words expr) :
    DerivesRest ("else" :: words) (.otherwise expr) := by
  obtain ⟨phrase, spelled, tree, longest⟩ := inner.operand .expression
  exact ⟨.otherwise (terminal (.keyword .else) "else") phrase,
    .cons ⟨rfl, Lexer.lexeme_of_keyword .else⟩ spelled, .otherwise tree,
    fun after ended => longest after trivial fun _ => ended.1,
    fun after _ => unextended_of_kind _ rfl rfl⟩

private theorem DerivesClause.further (clause : DerivesClause words branches) :
    DerivesRest ("elif" :: words) branches := by
  obtain ⟨clause, spelled, tree, longest⟩ := clause
  exact ⟨.further ⟨⟨.keyword .elif, default, "elif"⟩, .inl rfl⟩ clause,
    .cons ⟨rfl, Lexer.lexeme_of_keyword .elif⟩ spelled, tree, longest, fun _ _ => unextended_of_kind _ rfl rfl⟩

private theorem Derives.clause {condition result : Expr} {others : List String}
    (test : Derives .atom Closed words condition) (chosen : Derives .atom Closed words' result)
    (later : DerivesRest others branches) :
    DerivesClause (words ++ "then" :: (words' ++ others)) (.clause condition result branches) := by
  obtain ⟨phrase, spelled, tree, longest⟩ := test.operand .expression
  obtain ⟨phrase', spelled', tree', longest'⟩ := chosen.operand .expression
  obtain ⟨rest, listed, trees, ends, plain⟩ := later
  let mark := terminal (.keyword .then) "then"
  have all : Spelled (phrase.tokens ++ mark.val :: (phrase'.tokens ++ rest.tokens))
      (words ++ "then" :: (words' ++ others)) :=
    spelled.append (.cons ⟨rfl, Lexer.lexeme_of_keyword .then⟩ (spelled'.append listed))
  refine ⟨.mk phrase mark phrase' rest, all, .clause tree tree' trees, fun after ended => ?_⟩
  -- The condition ends before `then`, the result before the next clause or where the conditional ends.
  have premise := longest (mark.val :: (phrase'.tokens ++ (rest.tokens ++ after))) trivial
    fun _ => unextended_of_kind _ rfl rfl
  have result := longest' (rest.tokens ++ after) trivial fun _ => plain after ended.1
  exact ⟨premise, result, ends after ended⟩

private theorem DerivesClause.conditional (clause : DerivesClause words branches) (span : Span) :
    Derives .expression Ended ("if" :: words) (.conditional branches span) := by
  obtain ⟨clause, spelled, tree, longest⟩ := clause
  have derives : Derives .atom Ended ("if" :: words) (.conditional branches span) :=
    ⟨.conditional (terminal (.keyword .if) "if") clause, .cons ⟨rfl, Lexer.lexeme_of_keyword .if⟩ spelled,
      .conditional tree trivial, fun after ended _ => longest after ended⟩
  exact derives.whole

/-- What is not put in parentheses is both a whole expression and a part of another. -/
private theorem Derives.alone (atom : Derives .atom Closed words expr) :
    Derives .expression Ended words expr ∧ Derives .atom Closed words expr :=
  ⟨atom.whole.mono fun _ _ => trivial, atom⟩

private theorem Derives.enclosed (whole : Derives .expression fits words expr)
    (weaker : ∀ after, Ended after → fits after) :
    Derives .expression Ended words expr ∧
      Derives .atom Closed ("(" :: (words ++ [")"])) expr :=
  ⟨whole.mono weaker, (whole.mono weaker).group⟩

end

mutual

/-- The parts of an expression stand in it as they do in parentheses, so the induction carries both forms. -/
private theorem derives_expr {spell : Float → String} (spelling : Number.IsSpelling spell)
    (expr : Expr) (writable : expr.Writable) :
    Derives .expression Ended (expr.words spell) expr ∧
      Derives .atom Closed (expr.enclose (expr.words spell)) expr := by
  have closed : ∀ after, Ended after → Closed after := fun _ _ => trivial
  match expr, writable with
  | .number value span, .number plain => exact (derives_number (spelling value plain) span).alone
  | .variable name span, .variable named => exact (derives_variable named span).alone
  | .assign name value span, .assign named inner =>
    have part := (derives_expr spelling value inner).2
    exact (part.assignment named span).enclosed closed
  | .unary operator operand span, .unary inner =>
    have part := (derives_expr spelling operand inner).2
    exact (part.prefixed operator span).enclosed closed
  | .binary left operator right span, .binary first second =>
    have part := (derives_expr spelling left first).2
    have part' := (derives_expr spelling right second).2
    exact (part.operation operator span part').enclosed closed
  | .conditional (.clause condition result rest) span, .conditional test chosen later =>
    have part := (derives_expr spelling condition test).2
    have part' := (derives_expr spelling result chosen).2
    have clause := part.clause part' (derives_branches spelling rest later)
    exact (clause.conditional span).enclosed fun _ ended => ended

private theorem derives_branches {spell : Float → String} (spelling : Number.IsSpelling spell)
    (branches : Branches) (writable : branches.Writable) :
    DerivesRest (branches.words spell "elif") branches := by
  match branches, writable with
  | .nothing, _ => exact derivesRest_nothing
  | .otherwise result, .otherwise last => exact (derives_expr spelling result last).2.otherwise
  | .clause condition result rest, .clause test chosen later =>
    have part := (derives_expr spelling condition test).2
    have part' := (derives_expr spelling result chosen).2
    exact (part.clause part' (derives_branches spelling rest later)).further

end

end Grammar

open Grammar in
/-- Parsing undoes printing. The numbers may be written in any way in which they are read again, and there is
such a way; within limits that allow as many levels and operators as the text has words, the text is parsed
as the tree that was printed. -/
theorem printed_reads_back :
    Number.IsSpelling Number.text ∧
    ∀ spell : Float → String, Number.IsSpelling spell →
      ∀ expr : Expr, expr.Writable →
        ∃ tokens, (Lexer.ofText (expr.printed spell)).tokens.1 = .ok tokens ∧
          Lexer.lexemes tokens = expr.words spell ∧
          ∀ limits : Limits, (expr.words spell).length < limits.depth →
            (expr.words spell).length ≤ limits.operators →
            ∃ parsed, (Parser.ofTokens limits tokens).parse.1 = .ok parsed ∧
              parsed.SameTree expr := by
  refine ⟨fun value plain => Number.isLiteral_text plain, fun spell spelling expr writable => ?_⟩
  obtain ⟨phrase, spelled, tree, longest⟩ := (derives_expr spelling expr writable).1
  have words : phrase.tokens.map Token.lexeme = expr.words spell := spelled.map_lexeme
  have joined : Lexer.Joined (phrase.tokens.map Token.lexeme) (expr.printed spell).toList :=
    words.symm ▸ Parser.joined_intercalate (expr.words spell)
  obtain ⟨tokens, lexed, listed, related, parsed⟩ := Parser.parse_joined spelled.lexeme joined
  refine ⟨tokens, lexed, listed.trans words, fun limits deep many => ?_⟩
  rw [← words, List.length_map] at deep many
  have pending := Parser.pending_finish limits default (Parser.visible_of_lexemes spelled.lexeme)
  have accepted := (Parser.parse_eq_ok_iff (pending.symm ▸ deep) (pending.symm ▸ many)).mpr
    (pending.symm ▸ outcome_initial_iff.mpr ⟨phrase, rfl, longest [] ended_nil fun _ => ended_nil.1, rfl⟩)
  obtain ⟨whole, read, alike⟩ := parsed limits phrase.expr accepted
  exact ⟨whole, read, alike.sameTree tree⟩

/-- An assignment and conditionals as operands, and a conditional as a result of another. -/
theorem nested_conditionals_read_back :
    let place : Span := default
    let inner : Expr := .conditional (.clause (.variable "a" place) (.variable "b" place) .nothing) place
    let value : Expr := .conditional (.clause (.unary .not (.variable "b" place) place)
      (.number 2.5 place) (.clause (.variable "b" place) inner (.otherwise (.number 0 place)))) place
    let expr : Expr := .binary (.assign "a" value place) .power (.variable "a" place) place
    expr.printed Number.text =
        "( sclr a = ( if ( not b ) then 2.5 elif b then ( if a then b ) else 0 ) ) ^ a" ∧
      expr.Writable ∧
      ∃ tokens, (Lexer.ofText (expr.printed Number.text)).tokens.1 = .ok tokens ∧
        Lexer.lexemes tokens = expr.words Number.text ∧
        ∃ parsed, (Parser.ofTokens ⟨28, 27⟩ tokens).parse.1 = .ok parsed ∧ parsed.SameTree expr := by
  intro place inner value expr
  have named (name : String) (letter : name = "a" ∨ name = "b") : IsName name := by
    rcases letter with rfl | rfl <;>
      exact ⟨by simp, by simp, by simp [Lexer.words]⟩
  have first : IsName "a" := named "a" (.inl rfl)
  have second : IsName "b" := named "b" (.inr rfl)
  have writable : expr.Writable :=
    .binary (.assign first (.conditional (.unary (.variable second)) (.number ⟨by decide, by decide⟩)
      (.clause (.variable second) (.conditional (.variable first) (.variable second) .nothing)
        (.otherwise (.number ⟨by decide, by decide⟩))))) (.variable first)
  obtain ⟨tokens, lexed, listed, parsed⟩ :=
    printed_reads_back.2 Number.text printed_reads_back.1 expr writable
  exact ⟨by decide, writable, tokens, lexed, listed, parsed ⟨28, 27⟩ (by decide) (by decide)⟩

end Reckon

import Reckon.Proofs.Lexer.Scan
import Reckon.Proofs.Parser.Regions

/-!
Regions within regions. The tokens of a text follow one another, so the region of a node holds those of its
children, and these follow one another as well.
-/
namespace Reckon

namespace Position

/-- Before another place of the same text, as bytes count and as lines and columns do. -/
structure Before (first second : Position) : Prop where
  index : first.index < second.index
  place : first.line < second.line ∨ first.line = second.line ∧ first.column < second.column

def UpTo (first second : Position) : Prop :=
  first = second ∨ first.Before second

section

variable {first second third : Position}

private theorem Before.trans (before : first.Before second) (later : second.Before third) :
    first.Before third := by
  obtain ⟨index, place⟩ := before
  obtain ⟨index', place'⟩ := later
  exact ⟨by omega, by omega⟩

private theorem Before.trans_upTo (before : first.Before second) (later : second.UpTo third) :
    first.Before third := by
  rcases later with rfl | later
  · exact before
  · exact before.trans later

private theorem UpTo.refl (position : Position) : position.UpTo position := .inl rfl

private theorem UpTo.trans (before : first.UpTo second) (later : second.UpTo third) :
    first.UpTo third := by
  rcases before with rfl | before
  · exact later
  · exact .inr (before.trans_upTo later)

private theorem before_advance (position : Position) (character : Char) :
    position.Before (position.advance character) := by
  have wide : 0 < character.utf8Size := character.utf8Size_pos
  constructor
  · simp only [advance]
    omega
  · by_cases feed : character = '\n' <;> simp [advance, feed]

private theorem upTo_advanceBy (position : Position) (text : List Char) :
    position.UpTo (position.advanceBy text) := by
  induction text generalizing position with
  | nil => exact .refl position
  | cons character text ih => exact .trans (.inr (position.before_advance character)) (ih _)

private theorem upTo_behind (before text : List Char) :
    (behind before).UpTo (behind (before ++ text)) := by
  rw [← advanceBy_behind]
  exact upTo_advanceBy _ text

private theorem before_behind (before : List Char) {text : List Char} (some : text ≠ []) :
    (behind before).Before (behind (before ++ text)) := by
  obtain ⟨character, text, rfl⟩ := List.exists_cons_of_ne_nil some
  rw [← advanceBy_behind, advanceBy_cons]
  exact (before_advance _ character).trans_upTo (upTo_advanceBy _ text)

end

end Position

/-- One behind the other, each with some text. -/
structure Ordered (tokens : List Token) : Prop where
  wide : ∀ token ∈ tokens, token.span.start.Before token.span.stop
  apart : tokens.Pairwise fun first second => first.span.stop.UpTo second.span.start

namespace Lexer

variable {before text : List Char} {tokens : List Token}

private theorem Scanned.upTo (scanned : Scanned before text tokens) :
    ∀ token ∈ tokens, (Position.behind before).UpTo token.span.start := by
  induction scanned with
  | @finish before layout =>
    intro token member
    obtain rfl := List.mem_singleton.mp member
    exact Position.upTo_behind before layout
  | @token before layout lexeme rest kind tokens _ _ _ _ ih =>
    intro token member
    rcases List.mem_cons.mp member with rfl | later
    · exact Position.upTo_behind before layout
    · have passed : (Position.behind before).UpTo (.behind (before ++ layout ++ lexeme)) := by
        rw [List.append_assoc]
        exact Position.upTo_behind before (layout ++ lexeme)
      exact passed.trans (ih token later)

/-- All tokens but the end of the text have some text of their own. -/
private theorem Scanned.wide (scanned : Scanned before text tokens) :
    ∀ token ∈ tokens, token.kind ≠ .finish → token.span.start.Before token.span.stop := by
  induction scanned with
  | finish =>
    intro token member visible
    obtain rfl := List.mem_singleton.mp member
    exact absurd rfl visible
  | @token before layout lexeme _ _ _ _ read _ _ ih =>
    intro token member visible
    rcases List.mem_cons.mp member with rfl | later
    · exact Position.before_behind (before ++ layout) read.ne_nil
    · exact ih token later visible

private theorem Scanned.apart (scanned : Scanned before text tokens) :
    tokens.Pairwise fun first second => first.span.stop.UpTo second.span.start := by
  induction scanned with
  | finish => exact List.pairwise_singleton _ _
  | token _ _ _ onward ih => exact .cons onward.upTo ih

private theorem Scanned.ordered_pending (scanned : Scanned before text tokens) (limits : Limits) :
    Ordered (Parser.ofTokens limits tokens).pending where
  wide token member := by
    have visible : token.kind ≠ .finish := by
      simpa [Parser.isFinish] using List.mem_takeWhile_imp member
    exact scanned.wide token ((List.takeWhile_prefix _).subset member) visible
  apart := scanned.apart.sublist (List.takeWhile_prefix _).sublist

end Lexer

namespace Ordered

variable {tokens : List Token} {left right : Nat} {opening closing : Token}

private theorem stop_upTo_start (ordered : Ordered tokens) (found : tokens[left]? = some opening)
    (found' : tokens[right]? = some closing) (order : left < right) :
    opening.span.stop.UpTo closing.span.start := by
  obtain ⟨inside, rfl⟩ := List.getElem?_eq_some_iff.mp found
  obtain ⟨inside', rfl⟩ := List.getElem?_eq_some_iff.mp found'
  exact List.pairwise_iff_getElem.mp ordered.apart left right inside inside' order

private theorem start_upTo (ordered : Ordered tokens) (found : tokens[left]? = some opening)
    (found' : tokens[right]? = some closing) (order : left ≤ right) :
    opening.span.start.UpTo closing.span.start := by
  rcases Nat.lt_or_eq_of_le order with less | rfl
  · have wide := ordered.wide opening (List.mem_of_getElem? found)
    exact .inr (wide.trans_upTo (ordered.stop_upTo_start found found' less))
  · cases found.symm.trans found'
    exact .refl _

private theorem stop_upTo (ordered : Ordered tokens) (found : tokens[left]? = some opening)
    (found' : tokens[right]? = some closing) (order : left ≤ right) :
    opening.span.stop.UpTo closing.span.stop := by
  rcases Nat.lt_or_eq_of_le order with less | rfl
  · have wide := ordered.wide closing (List.mem_of_getElem? found')
    exact (ordered.stop_upTo_start found found' less).trans (.inr wide)
  · cases found.symm.trans found'
    exact .refl _

end Ordered

namespace Parser

section

variable {tokens : List Token} {first last : Nat} {expr : Expr}

private theorem Stands.ends (stands : Stands tokens first last expr) :
    ∃ opening closing, tokens[first]? = some opening ∧ tokens[last]? = some closing ∧
      expr.span = opening.span.through closing.span := by
  cases stands with
  | node begins ends _ span => exact ⟨_, _, begins, ends, span⟩

private theorem Stands.row (stands : Stands tokens first last expr) :
    Row tokens first (last + 1) expr.children := by
  cases stands with
  | node _ _ _ _ row => exact row

variable (ordered : Ordered tokens)
include ordered

private theorem Stands.wide (stands : Stands tokens first last expr) :
    expr.span.start.Before expr.span.stop := by
  obtain ⟨opening, closing, begins, ends, span⟩ := stands.ends
  have wide := ordered.wide opening (List.mem_of_getElem? begins)
  rw [span]
  exact wide.trans_upTo (ordered.stop_upTo begins ends stands.order)

private theorem Stands.holds (stands : Stands tokens first last expr) :
    ∀ child ∈ expr.children,
      expr.span.start.UpTo child.span.start ∧ child.span.stop.UpTo expr.span.stop := by
  intro child member
  obtain ⟨left, right, above, below, part⟩ := stands.row.exists_of_mem member
  obtain ⟨opening, closing, begins, ends, span⟩ := stands.ends
  obtain ⟨opening', closing', begins', ends', span'⟩ := part.ends
  rw [span, span']
  exact ⟨ordered.start_upTo begins begins' above,
    ordered.stop_upTo ends' ends (Nat.lt_succ_iff.mp below)⟩

private theorem Row.apart {parts : List Expr} {stop : Nat} (row : Row tokens first stop parts) :
    parts.Pairwise fun part other => part.span.stop.UpTo other.span.start := by
  induction parts generalizing first with
  | nil => exact .nil
  | cons part parts ih =>
    cases row with
    | cons _ stands later =>
      refine .cons (fun other member => ?_) (ih later)
      obtain ⟨left, right, above, _, inner⟩ := later.exists_of_mem member
      obtain ⟨_, closing, _, ends, span⟩ := stands.ends
      obtain ⟨opening, _, begins, _, span'⟩ := inner.ends
      rw [span, span']
      exact ordered.stop_upTo_start ends begins above

end

/-- The children of a node come in the order of the text. -/
theorem spans_nest (limits : Limits) (source : String) (tokens : List Token) (expr : Expr)
    (read : (Lexer.ofText source).tokens.1 = .ok tokens)
    (parsed : (ofTokens limits tokens).parse.1 = .ok expr) :
    ∀ node, expr.Node node →
      (∃ opening ∈ tokens, ∃ closing ∈ tokens,
        node.span.start = opening.span.start ∧ node.span.stop = closing.span.stop) ∧
      node.span.start.Before node.span.stop ∧
      (∀ child ∈ node.children,
        node.span.start.UpTo child.span.start ∧ child.span.stop.UpTo node.span.stop) ∧
      node.children.Pairwise fun first second => first.span.stop.UpTo second.span.start := by
  have scanned : Lexer.Scanned [] source.toList tokens := Lexer.scanned_of_tokens read
  have ordered := scanned.ordered_pending limits
  have front : (ofTokens limits tokens).pending ⊆ tokens := (List.takeWhile_prefix _).subset
  intro node inner
  obtain ⟨_, _, whole⟩ := stands_of_parse parsed
  obtain ⟨first, last, _, _, stands⟩ := whole.of_node inner
  obtain ⟨opening, closing, begins, ends, span⟩ := stands.ends
  refine ⟨⟨opening, front (List.mem_of_getElem? begins), closing,
    front (List.mem_of_getElem? ends), ?_⟩, stands.wide ordered, stands.holds ordered,
    stands.row.apart ordered⟩
  rw [span]
  exact ⟨rfl, rfl⟩

/-- The parentheses of the condition lie outside its region, and the second operand ends on the next line. -/
theorem spans_nest_over_lines :
    ∃ tokens expr, (Lexer.ofText "y*if (x)\nthen -y").tokens.1 = .ok tokens ∧
      (ofTokens .standard tokens).parse.1 = .ok expr ∧
      ∃ choice, expr.Node choice ∧
        (∃ opening ∈ tokens, ∃ closing ∈ tokens,
          choice.span.start = opening.span.start ∧ choice.span.stop = closing.span.stop) ∧
        choice.span.start.Before choice.span.stop ∧
        (∀ child ∈ choice.children,
          choice.span.start.UpTo child.span.start ∧ child.span.stop.UpTo choice.span.stop) ∧
        choice.children.length = 2 ∧
        choice.children.Pairwise fun first second => first.span.stop.UpTo second.span.start := by
  obtain ⟨tokens, left, operator, choice, span, read, parsed, parts⟩ :
      ∃ tokens left operator choice span,
        (Lexer.ofText "y*if (x)\nthen -y").tokens.1 = .ok tokens ∧
        (ofTokens .standard tokens).parse.1 = .ok (.binary left operator choice span) ∧
        choice.children.length = 2 :=
    ⟨_, _, _, _, _, by with_unfolding_all rfl, by with_unfolding_all rfl, rfl⟩
  have inner : (Expr.binary left operator choice span).Node choice :=
    .of_child (List.mem_cons_of_mem _ (List.mem_singleton_self _))
  obtain ⟨placed, wide, holds, apart⟩ :=
    spans_nest .standard "y*if (x)\nthen -y" tokens _ read parsed choice inner
  exact ⟨tokens, _, read, parsed, choice, inner, placed, wide, holds, parts, apart⟩

end Parser

end Reckon

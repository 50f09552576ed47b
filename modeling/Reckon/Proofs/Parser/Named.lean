import Reckon.Proofs.Parser.Expected

/-!
What the descriptions in messages name. No token that a parser refuses is named by what it expected
instead, but for a sign directly behind a `^`: one description serves wherever an operand is missing, and
only there an operand begins with no sign.
-/
namespace Reckon

inductive Expectation.Item where
  | number | identifier | operator | finish
  | token (kind : Token.Kind)

namespace Expectation

def Item.text : Item → String
  | .number => "number"
  | .identifier => "identifier"
  | .operator => "operator"
  | .finish => "end of input"
  | .token kind => "'" ++ kind.text ++ "'"

def Item.admits : Item → Token.Kind → Bool
  | .number, .int _ | .number, .float _ => true
  | .identifier, .name _ => true
  | .operator, kind => (BinaryOperator.ofKind? kind).isSome
  | .finish, .finish => true
  | .token named, kind => named = kind
  | _, _ => false

def operandItems : List Item :=
  [.number, .identifier, .token .plus, .token .minus, .token .leftParen, .token (.keyword .if)]

def items : Expectation → List Item
  | .expression => .token (.keyword .sclr) :: (operandItems ++ [.token (.keyword .not)])
  | .comparison => operandItems ++ [.token (.keyword .not)]
  | .atom => operandItems
  | .name => [.identifier]
  | .equals => [.token .equal]
  | .closing => [.token .rightParen]
  | .consequence => [.token (.keyword .then)]
  | .finish => [.operator, .finish]
  | .wording _ => []

def names (what : Expectation) (kind : Token.Kind) : Bool :=
  what.items.any fun item => item.admits kind

section

variable {kind : Token.Kind}

private theorem admits_identifier : Item.admits .identifier kind ↔ ∃ text, kind = .name text := by
  cases kind <;> simp [Item.admits]

private theorem admits_operator :
    Item.admits .operator kind ↔ ∃ operator, BinaryOperator.ofKind? kind = some operator := by
  rw [Item.admits, Option.isSome_iff_exists]

private theorem admits_finish : Item.admits .finish kind ↔ kind = .finish := by
  cases kind <;> simp [Item.admits]

private theorem admits_token {named : Token.Kind} :
    Item.admits (.token named) kind ↔ kind = named := by
  simp [Item.admits, eq_comm]

@[simp] theorem names_name : name.names kind ↔ ∃ text, kind = .name text := by
  simp [names, items, admits_identifier]

@[simp] theorem names_equals : equals.names kind ↔ kind = .equal := by
  simp [names, items, admits_token]

@[simp] theorem names_closing : closing.names kind ↔ kind = .rightParen := by
  simp [names, items, admits_token]

@[simp] theorem names_consequence : consequence.names kind ↔ kind = .keyword .then := by
  simp [names, items, admits_token]

@[simp] theorem names_finish :
    finish.names kind ↔ (∃ operator, BinaryOperator.ofKind? kind = some operator) ∨ kind = .finish := by
  simp [names, items, admits_operator, admits_finish]

end

end Expectation

/-- An enumeration in words. -/
def listed : List String → String
  | [] => ""
  | [only] => only
  | [first, last] => first ++ " or " ++ last
  | first :: rest => first ++ ", " ++ listed rest

private theorem Expectation.text_eq_listed {what : Expectation}
    (described : ∀ text, what ≠ .wording text) :
    what.text = listed (what.items.map Item.text) := by
  cases what with
  | wording text => exact absurd rfl (described text)
  | _ => decide +kernel

namespace Parser

open Reckon.Parser.Configuration

private theorem names_of_starting {token : Token} {stack : List Frame} {goal : Goal}
    (refused : starting token stack goal = none) :
    goal.expectation.names token.kind ↔ goal = .atom ∧ (token.kind = .plus ∨ token.kind = .minus) := by
  obtain ⟨kind, span, lexeme⟩ := token
  change goal.expectation.names kind ↔ goal = .atom ∧ (kind = .plus ∨ kind = .minus)
  cases kind with
  | keyword word => cases word <;> cases goal <;> first | decide | cases refused
  | _ => cases goal <;> first | decide | cases refused

section

variable {kind : Token.Kind} {stack : List Frame} {part : Expr} {what : Expectation}

private theorem Blocked.unnamed (blocked : Blocked kind stack part what) :
    what = .finish ∨ ¬ what.names kind := by
  induction blocked with
  | outermost => exact .inl rfl
  | @waits frame stack part what passed missing =>
    right
    cases frame with
    | group =>
      cases missing
      rw [Expectation.names_closing]
      exact fun closes => nomatch passed.symm.trans (if_pos closes)
    | condition =>
      cases missing
      rw [Expectation.names_consequence]
      exact fun closes => nomatch passed.symm.trans (if_pos closes)
    | _ => cases missing
  | whole _ _ ih => exact ih

private theorem unnamed_of_finish {configuration : Configuration}
    (refused : configuration.finish = .error what) : ¬ what.names .finish := by
  obtain ⟨phase, stack⟩ := configuration
  cases phase with
  | awaiting goal =>
    cases refused
    cases goal <;> decide
  | complete part =>
    obtain ⟨blocked, inner⟩ := blocked_of_conclude refused
    exact blocked.unnamed.resolve_left inner
  | name | equals =>
    cases refused
    decide

private theorem unnamed_of_close {token : Token} (plain : BinaryOperator.ofKind? token.kind = none)
    (inside : isFinish token = false) (refused : close token.kind stack part = .error what) :
    ¬ what.names token.kind := by
  rcases (blocked_of_close refused).unnamed with rfl | unnamed
  · have other : token.kind ≠ .finish := of_decide_eq_false inside
    simp only [Expectation.names_finish, plain, other, reduceCtorEq, exists_false, or_self,
      not_false_eq_true]
  · exact unnamed

private theorem names_of_step {configuration : Configuration} {token : Token}
    (inside : isFinish token = false) (refused : configuration.step token = .error what) :
    what.names token.kind ↔
      configuration.phase.due = .operand .atom ∧ (token.kind = .plus ∨ token.kind = .minus) := by
  obtain ⟨phase, stack⟩ := configuration
  cases phase with
  | awaiting goal =>
    simp only [step] at refused
    split at refused
    · cases refused
    · rename_i refuses
      cases refused
      rw [names_of_starting refuses, Phase.due, Due.operand.injEq]
  | name =>
    simp only [step] at refused
    split at refused
    · cases refused
    · rename_i other
      cases refused
      simp only [Expectation.names_name, Phase.due, reduceCtorEq, false_and, iff_false]
      rintro ⟨text, named⟩
      exact other text named
  | equals name opening =>
    simp only [step] at refused
    split at refused
    · cases refused
    · rename_i other
      cases refused
      simp only [Expectation.names_equals, Phase.due, reduceCtorEq, false_and, iff_false]
      exact other
  | complete part =>
    have unnamed : ¬ what.names token.kind := by
      cases sign : BinaryOperator.ofKind? token.kind with
      | some operator =>
        simp only [step, sign] at refused
        cases refused
      | none =>
        rw [step_plain rfl sign] at refused
        exact unnamed_of_close sign inside refused
    simp [unnamed, Phase.due]

/-- A token that is refused is named only where a sign is no operand. -/
private theorem names_of_refusal {configuration : Configuration} {head : Token}
    (refuses : configuration.refusal (visible head) = some what) :
    what.names head.kind ↔
      configuration.phase.due = .operand .atom ∧ (head.kind = .plus ∨ head.kind = .minus) := by
  cases ends : isFinish head with
  | false =>
    have seen : visible head = some head := by simp [visible, Option.filter, ends]
    rw [seen] at refuses
    exact names_of_step ends (step_of_refusal refuses)
  | true =>
    have unseen : visible head = none := by simp [visible, Option.filter, ends]
    have kind : head.kind = .finish := of_decide_eq_true ends
    rw [unseen] at refuses
    simp [kind, unnamed_of_finish (finish_of_refusal refuses)]

end

/-- The parser behind so many calls. -/
def asked (parser : Parser) : Nat → Parser
  | 0 => parser
  | calls + 1 => (asked parser calls).parse.2

/-- How many tokens so many calls have taken. -/
def standing (limits : Limits) (tokens : List Token) (calls : Nat) : Nat :=
  (ofTokens limits tokens).pending.length - ((ofTokens limits tokens).asked calls).pending.length

section

variable {parser : Parser}

private theorem pending_parse (parser : Parser) :
    ∃ taken, parser.pending = taken ++ parser.parse.2.pending := by
  obtain ⟨taken, pending, last, total, answer, split, -, halts, -, left⟩ := parse_halts parser
  rw [left]
  cases halts with
  | crowded token rest => exact ⟨taken ++ [token], by rw [split, List.append_assoc]; rfl⟩
  | deep | refused | whole => exact ⟨taken, split⟩

private theorem asked_split (parser : Parser) (calls : Nat) :
    ∃ passed, parser.pending = passed ++ (parser.asked calls).pending := by
  induction calls with
  | zero => exact ⟨[], rfl⟩
  | succ calls ih =>
    obtain ⟨passed, split⟩ := ih
    obtain ⟨taken, onward⟩ := pending_parse (parser.asked calls)
    exact ⟨passed ++ taken, by rw [split, onward, List.append_assoc]; rfl⟩

private theorem asked_finish (parser : Parser) (calls : Nat) :
    (parser.asked calls).finish = parser.finish := by
  induction calls with
  | zero => rfl
  | succ calls ih => exact ih

/-- A call that expected something else stands before the token that it refused. -/
private theorem refused_of_parse {diagnostic : Diagnostic} {what : Expectation}
    (failed : parser.parse.1 = .error diagnostic) (expects : diagnostic.fault = .expected what) :
    ∃ taken last total, parser.pending = taken ++ parser.parse.2.pending ∧
      Passage parser.limits .initial parser.operators taken last total ∧
      last.refusal parser.parse.2.pending.head? = some what ∧
      diagnostic.span = place parser.finish parser.parse.2.pending.head? := by
  obtain ⟨taken, pending, last, total, answer, split, passage, halts, answered, left⟩ :=
    parse_halts parser
  rw [answered] at failed
  rw [left]
  cases halts with
  | refused _ missing within refuses =>
    cases failed
    cases expects
    exact ⟨taken, last, total, split, passage, refuses, rfl⟩
  | whole => cases failed
  | _ =>
    cases failed
    cases expects

end

private theorem initial_takes_sign {token : Token}
    (sign : token.kind = .plus ∨ token.kind = .minus) :
    ∃ next, Configuration.initial.step token = .ok next := by
  rcases sign with kind | kind
  · exact ⟨_, (Begins.prefixed .plus kind rfl).step⟩
  · exact ⟨_, (Begins.prefixed .minus kind rfl).step⟩

private theorem expectation_described {due : Due} {openings : List Opening} (text : String) :
    due.expectation openings ≠ .wording text := by
  intro same
  cases due with
  | operand goal => cases goal <;> cases same
  | continuation =>
    simp only [Due.expectation, waiting] at same
    split at same <;> cases same
  | _ => cases same

private theorem power_before {limits : Limits} {passed taken : List Token} {last : Configuration}
    {operators total : Nat} {what : Expectation} {head : Token}
    (passage : Passage limits .initial operators taken last total)
    (refuses : last.refusal (visible head) = some what) :
    what.names head.kind ↔ (head.kind = .plus ∨ head.kind = .minus) ∧
      (passed ++ taken).getLast?.map Token.kind = some .caret := by
  rw [names_of_refusal refuses, and_comm]
  refine and_congr_right fun sign => ?_
  have shown := shown_passage passage shown_initial
  rw [List.append_nil] at shown
  rw [shown.due, behind_eq_atom]
  rcases taken.eq_nil_or_concat with rfl | ⟨front, latest, rfl⟩
  · -- A call that takes nothing stands where any sign may begin.
    cases passage with
    | stay =>
      obtain ⟨next, step⟩ := initial_takes_sign sign
      have seen : visible head = some head := by
        rcases sign with kind | kind <;> simp [visible, Option.filter, isFinish, kind]
      rw [seen] at refuses
      cases step.symm.trans (step_of_refusal refuses)
  · rw [List.concat_eq_append, List.reverse_concat, List.map_cons, List.head?_cons, ← List.append_assoc,
      List.getLast?_concat, Option.map_some]

/-- What a failed call reports as expected never names the token it is reported at, but for a sign right
behind a power operator: the operand there is described with the signs it may not open with. -/
theorem refused_token_unnamed (limits : Limits) (tokens : List Token) (calls : Nat)
    (diagnostic : Diagnostic) (what : Expectation)
    (failed : ((ofTokens limits tokens).asked calls).parse.1 = .error diagnostic)
    (expects : diagnostic.fault = .expected what) :
    ∃ before token rest, supplied tokens = before ++ token :: rest ∧
      before.length = standing limits tokens (calls + 1) ∧ diagnostic.span = token.span ∧
      what.text = listed (what.items.map Expectation.Item.text) ∧
      (what.names token.kind ↔ (token.kind = .plus ∨ token.kind = .minus) ∧
        before.getLast?.map Token.kind = some .caret) := by
  obtain ⟨passed, first⟩ := asked_split (ofTokens limits tokens) calls
  obtain ⟨taken, last, total, onward, passage, refuses, spans⟩ := refused_of_parse failed expects
  have split : (ofTokens limits tokens).pending =
      (passed ++ taken) ++ ((ofTokens limits tokens).asked (calls + 1)).pending := by
    rw [first, onward, List.append_assoc]
    rfl
  obtain ⟨head, tail, text, met, placed⟩ := placed_of_split split
  refine ⟨passed ++ taken, head, tail, text, ?_, ?_, ?_, ?_⟩
  · refine (Nat.sub_eq_of_eq_add ?_).symm
    rw [split, List.length_append]
  · rw [spans, asked_finish]
    exact placed
  · rw [expectation_of_refusal refuses]
    exact Expectation.text_eq_listed expectation_described
  · have reads : last.refusal (visible head) = some what := met ▸ refuses
    exact power_before passage reads

/-- The second call takes the sign that the first one refused, and refuses the parenthesis behind it. -/
theorem refused_token_unnamed_behind_sign :
    let closing : Token := ⟨.rightParen, .point ⟨5, 1, 6⟩, ")"⟩
    let tokens : List Token := [bare (.name "x"), bare .caret, bare .minus, closing]
    let report : Diagnostic := .of (.expected .atom) closing.span []
    ((ofTokens ⟨8, 7⟩ tokens).asked 1).parse.1 = .error report ∧
      ∃ before token rest, supplied tokens = before ++ token :: rest ∧
        before.length = standing ⟨8, 7⟩ tokens 2 ∧ report.span = token.span ∧
        Expectation.atom.text = listed (Expectation.atom.items.map Expectation.Item.text) ∧
        (Expectation.atom.names token.kind ↔ (token.kind = .plus ∨ token.kind = .minus) ∧
          before.getLast?.map Token.kind = some .caret) := by
  intro closing tokens report
  have failed : ((ofTokens ⟨8, 7⟩ tokens).asked 1).parse.1 = .error report := by rfl
  exact ⟨failed, refused_token_unnamed ⟨8, 7⟩ tokens 1 report .atom failed rfl⟩

/-- The exponent must begin with no sign, and the description of what is missing names both signs. -/
theorem sign_named_behind_power :
    let sign : Token := ⟨.minus, ⟨⟨4, 1, 5⟩, ⟨5, 1, 6⟩⟩, "-"⟩
    let tokens : List Token := [bare (.int 2), bare .caret, sign, bare (.int 1)]
    (ofTokens .standard tokens).parse.1 = .error (.of (.expected .atom) sign.span []) ∧
      index .standard tokens = 2 ∧ (supplied tokens)[2]? = some sign ∧
      Expectation.atom.text = "number, identifier, '+', '-', '(' or 'if'" ∧
      Expectation.atom.names sign.kind :=
  ⟨rfl, rfl, rfl, rfl, rfl⟩

end Parser

end Reckon

import Mathlib.Data.List.TakeWhile
import Reckon.Proofs.Parser.Closing
import Reckon.Proofs.Parser.Passage

/-!
Refused tokens: a parser that expected something else stands before the first token with which no
accepted text goes on, and it has looked at no token behind that one.
-/
namespace Reckon.Parser

open Reckon.Parser.Configuration

/-- The tokens with the end that a parser puts behind them, unless the last of them is one. -/
def supplied (tokens : List Token) : List Token :=
  match tokens.getLast? with
  | none => [⟨.finish, ⟨.start, .start⟩, ""⟩]
  | some last =>
    if last.kind = .finish then tokens
    else tokens ++ [⟨.finish, ⟨last.span.stop, last.span.stop⟩, ""⟩]

/-- How many tokens a first parse takes. -/
def index (limits : Limits) (tokens : List Token) : Nat :=
  (ofTokens limits tokens).pending.length - (ofTokens limits tokens).parse.2.pending.length

theorem supplied_eq (limits : Limits) (tokens : List Token) :
    ∃ last rest, supplied tokens = (ofTokens limits tokens).pending ++ last :: rest ∧
      isFinish last ∧ last.span = (ofTokens limits tokens).finish := by
  cases found : tokens.find? isFinish with
  | some token =>
    obtain ⟨ends, before, rest, rfl, passed⟩ := List.find?_eq_some_iff_append.mp found
    have taken : (before ++ token :: rest).takeWhile (fun token => !isFinish token) = before := by
      rw [List.takeWhile_append_of_pos passed, List.takeWhile_cons_of_neg, List.append_nil]
      simpa using ends
    have reached : ∃ tail, supplied (before ++ token :: rest) = before ++ token :: tail := by
      unfold supplied
      split
      · rename_i empty
        simp at empty
      · split
        · exact ⟨rest, rfl⟩
        · exact ⟨rest ++ _, by rw [List.append_assoc, List.cons_append]⟩
    obtain ⟨tail, same⟩ := reached
    refine ⟨token, tail, ?_, ends, ?_⟩
    · rw [same, ofTokens, taken]
    · simp only [ofTokens, found]
  | none =>
    have passed := List.find?_eq_none.mp found
    have taken : tokens.takeWhile (fun token => !isFinish token) = tokens :=
      List.takeWhile_eq_self_iff.mpr (by simpa using passed)
    cases last : tokens.getLast? with
    | none =>
      obtain rfl := List.getLast?_eq_none_iff.mp last
      exact ⟨.finish .start, [], rfl, rfl, rfl⟩
    | some token =>
      have unfinished : token.kind ≠ .finish := by
        simpa [isFinish] using passed token (List.mem_of_getLast? last)
      refine ⟨.finish token.span.stop, [], ?_, rfl, ?_⟩
      · simp only [supplied, last, if_neg unfinished, ofTokens, taken]
        rfl
      · simp only [ofTokens, found, last]
        rfl

theorem pending_open (limits : Limits) (tokens : List Token) :
    ∀ token ∈ (ofTokens limits tokens).pending, isFinish token = false := by
  intro token member
  have passed := List.mem_takeWhile_imp member
  simpa using passed

/-- The next token to look at; an end is looked at as no token. -/
def visible (head : Token) : Option Token :=
  (some head).filter fun token => !isFinish token

theorem split_of_take {taken pending rest : List Token} {head last : Token}
    (agree : (pending ++ last :: rest).take (taken.length + 1) = taken ++ [head])
    (ends : isFinish last) (passed : ∀ token ∈ taken, isFinish token = false) :
    ∃ later, pending = taken ++ later ∧ (later ++ [last]).head? = some head := by
  induction taken generalizing pending with
  | nil =>
    refine ⟨pending, rfl, ?_⟩
    cases pending with
    | nil => simpa using agree
    | cons token pending => simpa using agree
  | cons token taken hyp =>
    cases pending with
    | nil =>
      obtain ⟨rfl, _⟩ : last = token ∧ _ := by simpa using agree
      exact absurd ends (by simp [passed last List.mem_cons_self])
    | cons other pending =>
      simp only [List.length_cons, List.cons_append, List.take_succ_cons, List.cons.injEq] at agree
      obtain ⟨rfl, agree⟩ := agree
      have inside (token : Token) (member : token ∈ taken) :=
        passed token (List.mem_cons_of_mem other member)
      obtain ⟨later, rfl, next⟩ := hyp agree inside
      exact ⟨later, rfl, next⟩

private theorem head?_of_append {pending : List Token} {head last : Token}
    (ends : isFinish last) (passed : ∀ token ∈ pending, isFinish token = false)
    (next : (pending ++ [last]).head? = some head) :
    pending.head? = visible head ∧ place last.span pending.head? = head.span := by
  cases pending with
  | nil =>
    obtain rfl : last = head := by simpa using next
    refine ⟨?_, rfl⟩
    simp [visible, Option.filter, ends]
  | cons token pending =>
    obtain rfl : token = head := by simpa using next
    have free := passed token List.mem_cons_self
    refine ⟨?_, rfl⟩
    simp [visible, Option.filter, free]

/-- The tokens given go on behind some that are taken as those left to the parser do. -/
theorem placed_of_split {limits : Limits} {tokens taken pending : List Token}
    (split : (ofTokens limits tokens).pending = taken ++ pending) :
    ∃ head tail, supplied tokens = taken ++ head :: tail ∧ pending.head? = visible head ∧
      place (ofTokens limits tokens).finish pending.head? = head.span := by
  obtain ⟨ending, rest, text, ends, spans⟩ := supplied_eq limits tokens
  have free (token : Token) (member : token ∈ pending) : isFinish token = false :=
    pending_open limits tokens token (split ▸ List.mem_append_right taken member)
  rw [split, List.append_assoc] at text
  rw [← spans]
  cases pending with
  | nil => exact ⟨ending, rest, text, head?_of_append ends free rfl⟩
  | cons token pending => exact ⟨token, pending ++ ending :: rest, text, head?_of_append ends free rfl⟩

private theorem supplied_of_split {limits : Limits} {tokens taken pending : List Token}
    (split : (ofTokens limits tokens).pending = taken ++ pending) :
    ∃ head tail, supplied tokens = taken ++ head :: tail ∧ pending.head? = visible head := by
  obtain ⟨head, tail, text, met, -⟩ := placed_of_split split
  exact ⟨head, tail, text, met⟩

section

variable {limits : Limits} {tokens taken pending : List Token} {last : Configuration} {total : Nat}
  {what : Expectation}

theorem parse_of_refusal (split : (ofTokens limits tokens).pending = taken ++ pending)
    (passage : Passage limits .initial 0 taken last total)
    (within : last.Within limits total pending.head?)
    (refuses : last.refusal pending.head? = some what) :
    (ofTokens limits tokens).parse.1 =
        .error (.of (.expected what) (place (ofTokens limits tokens).finish pending.head?) []) ∧
      index limits tokens = taken.length := by
  have stuck : advance limits (ofTokens limits tokens).finish .initial 0
      (ofTokens limits tokens).pending =
        (.error (.of (.expected what) (place (ofTokens limits tokens).finish pending.head?) []),
          ⟨pending, total⟩) := by
    rw [split, advance_passage passage]
    exact advance_of_refusal within refuses
  have parsed : (ofTokens limits tokens).parse =
      (.error (.of (.expected what) (place (ofTokens limits tokens).finish pending.head?) []),
        ⟨limits, pending, (ofTokens limits tokens).finish, total⟩) := by
    unfold parse
    rw [show (ofTokens limits tokens).limits = limits from rfl,
      show (ofTokens limits tokens).operators = 0 from rfl, stuck]
  refine ⟨by rw [parsed], ?_⟩
  rw [index, parsed, split, List.length_append, Nat.add_sub_cancel_right]

/-- Tokens that agree up to the refused one are refused alike. -/
private theorem parse_of_agreement {head : Token}
    (agree : (supplied tokens).take (taken.length + 1) = taken ++ [head])
    (passed : ∀ token ∈ taken, isFinish token = false)
    (passage : Passage limits .initial 0 taken last total)
    (within : last.Within limits total (visible head))
    (refuses : last.refusal (visible head) = some what) :
    (ofTokens limits tokens).parse.1 = .error (.of (.expected what) head.span []) ∧
      index limits tokens = taken.length := by
  obtain ⟨ending, rest, text, ends, spans⟩ := supplied_eq limits tokens
  rw [text] at agree
  obtain ⟨later, split, next⟩ := split_of_take agree ends passed
  have free (token : Token) (member : token ∈ later) : isFinish token = false :=
    pending_open limits tokens token (split ▸ List.mem_append_right taken member)
  obtain ⟨met, placed⟩ := head?_of_append ends free next
  rw [← met] at within refuses
  obtain ⟨reported, reached⟩ := parse_of_refusal split passage within refuses
  rw [← spans, placed] at reported
  exact ⟨reported, reached⟩

theorem refusal_of_parse {diagnostic : Diagnostic}
    (failed : (ofTokens limits tokens).parse.1 = .error diagnostic)
    (expects : diagnostic.fault = .expected what) :
    ∃ taken pending last total, (ofTokens limits tokens).pending = taken ++ pending ∧
      Passage limits .initial 0 taken last total ∧ last.Within limits total pending.head? ∧
      last.refusal pending.head? = some what := by
  obtain ⟨taken, pending, last, total, split, passage, halts⟩ :=
    advance_halts limits (ofTokens limits tokens).finish (ofTokens limits tokens).pending .initial 0
  have reported : (advance limits (ofTokens limits tokens).finish .initial 0
      (ofTokens limits tokens).pending).1 = .error diagnostic := failed
  refine ⟨taken, pending, last, total, split, passage, ?_⟩
  generalize advance limits (ofTokens limits tokens).finish .initial 0
    (ofTokens limits tokens).pending = result at halts reported
  cases halts with
  | refused _ _ within refuses =>
    cases reported
    cases expects
    exact ⟨within, refuses⟩
  | whole => cases reported
  | _ =>
    cases reported
    cases expects

private theorem viable_of_passage (passage : Passage limits .initial 0 taken last total)
    (passed : ∀ token ∈ taken, isFinish token = false) :
    ∃ continuation expr, ∀ larger : Limits,
      (taken ++ continuation).length + 1 ≤ larger.depth →
      (taken ++ continuation).length ≤ larger.operators →
      (ofTokens larger (taken ++ continuation)).parse.1 = .ok expr := by
  obtain ⟨expr, completed⟩ := outcome_closing last
  refine ⟨last.closing, expr, fun larger deep many => ?_⟩
  have whole (token : Token) (member : token ∈ taken ++ last.closing) :
      !isFinish token := by
    rcases List.mem_append.mp member with inside | inside
    · simp [passed token inside]
    · exact List.all_eq_true.mp (closing_open last) token inside
  have pending : (ofTokens larger (taken ++ last.closing)).pending = taken ++ last.closing :=
    List.takeWhile_eq_self_iff.mpr whole
  refine (parse_eq_ok_iff (by rwa [pending]) (by rwa [pending])).mpr ?_
  rw [pending, outcome_passage passage]
  exact completed

end

/-- An expectation is reported at the first token that no accepted text has there. Every text that agrees
up to and with that token fails alike, and what stands before it can be completed. -/
theorem expected_at_first_impossible (limits : Limits) (tokens : List Token)
    (diagnostic : Diagnostic) (what : Expectation)
    (failed : (ofTokens limits tokens).parse.1 = .error diagnostic)
    (expects : diagnostic.fault = .expected what) :
    (∃ token, (supplied tokens)[index limits tokens]? = some token ∧
      diagnostic.span = token.span) ∧
    (∀ others, (supplied others).take (index limits tokens + 1) =
        (supplied tokens).take (index limits tokens + 1) →
      (ofTokens limits others).parse.1 = .error diagnostic ∧
        index limits others = index limits tokens) ∧
    ∃ continuation expr, ∀ larger : Limits,
      ((supplied tokens).take (index limits tokens) ++ continuation).length + 1 ≤ larger.depth →
      ((supplied tokens).take (index limits tokens) ++ continuation).length ≤ larger.operators →
      (ofTokens larger ((supplied tokens).take (index limits tokens) ++ continuation)).parse.1 =
        .ok expr := by
  obtain ⟨taken, pending, last, total, split, passage, within, refuses⟩ :=
    refusal_of_parse failed expects
  have passed (token : Token) (member : token ∈ taken) : isFinish token = false :=
    pending_open limits tokens token (split ▸ List.mem_append_left pending member)
  obtain ⟨head, tail, text, met⟩ := supplied_of_split split
  rw [met] at within refuses
  have alike (others : List Token)
      (agree : (supplied others).take (taken.length + 1) = taken ++ [head]) :=
    parse_of_agreement agree passed passage within refuses
  have agreed : (supplied tokens).take (taken.length + 1) = taken ++ [head] := by
    rw [text, List.take_length_add_append]
    rfl
  -- The tokens agree with themselves, which tells the diagnostic and the index.
  obtain ⟨reported, reached⟩ := alike tokens agreed
  rw [failed] at reported
  cases reported
  rw [reached]
  refine ⟨⟨head, ?_, rfl⟩, fun others agree => alike others (agree.trans agreed), ?_⟩
  · rw [text, List.getElem?_append_right (Nat.le_refl _), Nat.sub_self]
    rfl
  · have kept : (supplied tokens).take taken.length = taken := by
      rw [text, List.take_left]
    rw [kept]
    exact viable_of_passage passage passed

/-- A sign without an operand behind it is refused at the parenthesis, whatever comes later. -/
theorem missing_operand_refused :
    let closing : Token := ⟨.rightParen, .point ⟨4, 1, 5⟩, ")"⟩
    let tokens : List Token := [bare .leftParen, bare (.name "x"), bare .plus, closing]
    let report : Diagnostic := .of (.expected .atom) (.point ⟨4, 1, 5⟩) []
    (ofTokens ⟨8, 7⟩ tokens).parse.1 = .error report ∧ index ⟨8, 7⟩ tokens = 3 ∧
      ∀ others, (supplied others).take 4 = tokens →
        (ofTokens ⟨8, 7⟩ others).parse.1 = .error report ∧ index ⟨8, 7⟩ others = 3 := by
  intro closing tokens report
  have failed : (ofTokens ⟨8, 7⟩ tokens).parse.1 = .error report := by rfl
  have taken : index ⟨8, 7⟩ tokens = 3 := by rfl
  have impossible := expected_at_first_impossible ⟨8, 7⟩ tokens report .atom failed rfl
  rw [taken] at impossible
  exact ⟨failed, taken, impossible.2.1⟩

end Reckon.Parser

import Reckon.Proofs.Parser.Productions

/-!
Any number of calls of one parser. The descent answers each of them as the steps do, it never looks for a token
where there is none, and behind each call, failed or not, no level is open.
-/
namespace Reckon.Parser

open Reckon.Parser.Configuration Reckon.Parser.Descent

/-- The parser of steps that stands where the cursor does. -/
def Source.parser (source : Source) (cursor : Cursor) : Parser :=
  ⟨source.limits, source.before.drop cursor.current, source.last.span, cursor.operators⟩

section

variable {source : Source} {trail later : Trail} {head : Token} {fuel : Nat}

private theorem Source.parser_parse {outcome : Except Diagnostic Expr}
    (same : source.onward .initial trail.now = (outcome, source.left later.now)) :
    (source.parser trail.now).parse = (outcome, source.parser later.now) := by
  have result : (source.parser trail.now).parse =
      ((source.onward .initial trail.now).1,
        { source.parser trail.now with
          pending := (source.onward .initial trail.now).2.pending
          operators := (source.onward .initial trail.now).2.operators }) := rfl
  rw [result, same]
  rfl

private theorem Source.onward_complete {expr : Expr} (meets : source.Meets trail head)
    (ends : isFinish head) :
    source.onward ⟨.complete expr, []⟩ trail.now = (.ok expr, source.left trail.now) := by
  have none := meets.met
  rw [visible_of_ends ends, List.head?_eq_none_iff] at none
  rw [onward, left, none]
  rfl

/-- A call comes to an expression or to a failure, and to nothing else. -/
private theorem call_eq (sound : trail.Sound source) (closed : trail.now.depth = 0)
    (enough : 8 * source.tokens.length ≤ fuel) :
    ∃ (outcome : Except Attempt Expr) (later : Trail),
      (call source.limits source.tokens fuel).run.run trail = (outcome.mapError .failed, later) ∧
      Reaches source trail later ∧
      source.onward .initial trail.now = (outcome.mapError Attempt.diagnostic, source.left later.now) := by
  have levels : trail.now.depth + 1 = level [] := by rw [closed]; rfl
  have fits : need source .expression trail ≤ fuel := by
    have most : Grammar.Symbol.expression.rank = 7 := rfl
    have inside := source.ends_inside
    unfold need
    omega
  have parses := parses_nested (capable_reading source fuel) sound levels (yields_nil _) fits
  unfold call
  generalize ran : (nested source.limits source.tokens
    (reading source.limits source.tokens fuel .expression)).run.run trail = ended at parses
  cases parses with
  | failed reaches _ same =>
    rw [run_bind_error _ ran]
    exact ⟨.error _, _, rfl, reaches, same⟩
  | @whole expr later reaches _ below same =>
    obtain ⟨head, meets⟩ := Source.meets reaches.sound
    rw [run_bind_ok _ ran, run_bind_ok _ (run_peek meets.found)]
    by_cases ends : isFinish head
    · rw [if_pos ends]
      exact ⟨.ok expr, later, rfl, reaches, same.trans (Source.onward_complete meets ends)⟩
    · have inside := Bool.eq_false_iff.mpr ends
      have refuses : Configuration.refusal ⟨.complete expr, []⟩ (visible head) = some .finish := by
        have plain := plain_of_below below meets.met inside
        rw [visible_of_inside inside]
        simp only [refusal, step_plain rfl plain, close]
      rw [if_neg ends, run_refuse .finish meets.found]
      exact ⟨.error _, later, rfl, reaches,
        same.trans (Source.onward_refused meets reaches.sound (Nat.zero_le _) refuses)⟩

private theorem sound_start (source : Source) : Trail.start.Sound source := by
  refine ⟨fun cursor member => ?_, List.pairwise_singleton _ _⟩
  obtain rfl := List.mem_singleton.mp member
  exact ⟨Nat.zero_le _, Nat.zero_le _, Nat.zero_le _⟩

/-- Behind so many calls no level is open, and the parser of steps stands where the cursor does. -/
structure Rests (source : Source) (calls : Nat) (trail : Trail) : Prop where
  sound : trail.Sound source
  closed : trail.now.depth = 0
  asked : (source.parser Trail.start.now).asked calls = source.parser trail.now

/-- What a further call does from there. -/
structure Answers (source : Source) (fuel calls : Nat) (outcome : Except Attempt Expr) : Prop where
  descent : answer source.limits source.tokens fuel calls = outcome.mapError .failed
  steps : ((source.parser Trail.start.now).asked calls).parse.1 = outcome.mapError Attempt.diagnostic
  grown : (Descent.trail source.limits source.tokens fuel calls).all <:+
    (Descent.trail source.limits source.tokens fuel (calls + 1)).all
  rests : Rests source (calls + 1) (Descent.trail source.limits source.tokens fuel (calls + 1))

private theorem Rests.answers {calls : Nat} (enough : 8 * source.tokens.length ≤ fuel)
    (rests : Rests source calls (Descent.trail source.limits source.tokens fuel calls)) :
    ∃ outcome, Answers source fuel calls outcome := by
  obtain ⟨outcome, later, ran, reaches, same⟩ := call_eq rests.sound rests.closed enough
  have parsed := Source.parser_parse same
  have reached : Descent.trail source.limits source.tokens fuel (calls + 1) = later := by
    rw [Descent.trail, ran]
  refine ⟨outcome, ?_, ?_, ?_, ?_⟩
  · rw [answer, ran]
  · rw [rests.asked, parsed]
  · rw [reached]
    exact reaches.grown
  · rw [reached]
    refine ⟨reaches.sound, reaches.depth.trans rests.closed, ?_⟩
    rw [Parser.asked, rests.asked, parsed]

private theorem rests_trail (enough : 8 * source.tokens.length ≤ fuel) (calls : Nat) :
    Rests source calls (Descent.trail source.limits source.tokens fuel calls) := by
  induction calls with
  | zero => exact ⟨sound_start source, rfl, rfl⟩
  | succ calls ih =>
    obtain ⟨_, answers⟩ := ih.answers enough
    exact answers.rests

end

section

variable {limits : Limits} {tokens others : List Token}

private theorem exists_source (limits : Limits) (tokens : List Token) :
    ∃ source : Source, source.limits = limits ∧ source.tokens = supplied tokens ∧
      source.parser Trail.start.now = ofTokens limits tokens := by
  obtain ⟨last, rest, text, ends, spans⟩ := supplied_eq limits tokens
  refine ⟨⟨limits, (ofTokens limits tokens).pending, last, rest, ends, pending_open limits tokens⟩,
    rfl, text.symm, ?_⟩
  rw [Source.parser, spans]
  rfl

private theorem Source.findIdx_tokens (source : Source) :
    source.tokens.findIdx isFinish = source.before.length := by
  refine (List.findIdx_eq source.ends_inside).mpr ⟨?_, fun index before => ?_⟩
  · simpa [Source.tokens] using source.ends
  · simpa [Source.tokens, List.getElem_append_left before] using
      source.free _ (List.getElem_mem before)

/-- Tokens that agree up to the first end make the same parser. -/
private theorem ofTokens_of_agreement
    (agree : (supplied others).take ((supplied tokens).findIdx isFinish + 1) =
      (supplied tokens).take ((supplied tokens).findIdx isFinish + 1)) :
    ofTokens limits others = ofTokens limits tokens := by
  obtain ⟨source, rfl, text, made⟩ := exists_source limits tokens
  obtain ⟨source', same, text', made'⟩ := exists_source source.limits others
  rw [← text, ← text', source.findIdx_tokens] at agree
  have taken : source.tokens.take (source.before.length + 1) = source.before ++ [source.last] := by
    rw [Source.tokens, List.take_length_add_append]
    rfl
  obtain ⟨later, split, next⟩ := split_of_take (agree.trans taken) source'.ends source.free
  -- What is left over would begin with the end, which none of the tokens before the end is.
  cases later with
  | cons token later =>
    obtain rfl : token = source.last := by simpa using next
    have free := source'.free source.last (by simp [split])
    rw [source.ends] at free
    cases free
  | nil =>
    obtain last : source'.last = source.last := by simpa using next
    rw [List.append_nil] at split
    rw [← made, ← made', Source.parser, Source.parser, same, split, last]

private theorem standing_of_asked {source : Source} {trail : Trail} {calls : Nat}
    (made : source.parser Trail.start.now = ofTokens limits tokens) (rests : Rests source calls trail) :
    trail.now.current = standing limits tokens calls ∧
      trail.now.operators = ((ofTokens limits tokens).asked calls).operators := by
  have bound := rests.sound.now.current
  rw [standing, ← made, rests.asked]
  refine ⟨?_, rfl⟩
  simp only [Source.parser, Trail.start, List.drop_zero, List.length_drop]
  omega

end

/-- Any number of calls of one parser, whatever tokens it is given. The descent never looks for a token where
there is none and always ends, with the answers of the parser; the index and the count of operators never go
back, and with the depth they keep their bounds throughout; behind each call no level is open. What stands
behind the first end of the text makes no difference. -/
theorem calls_keep_bounds (limits : Limits) (tokens : List Token) (fuel : Nat)
    (enough : 8 * (supplied tokens).length ≤ fuel) :
    let first := (supplied tokens).findIdx isFinish
    first < (supplied tokens).length ∧
    (∀ calls,
      let trail := Descent.trail limits (supplied tokens) fuel calls
      (∃ outcome : Except Attempt Expr,
        answer limits (supplied tokens) fuel calls = outcome.mapError .failed ∧
        ((ofTokens limits tokens).asked calls).parse.1 = outcome.mapError Attempt.diagnostic) ∧
      trail.now.depth = 0 ∧
      trail.now.current = standing limits tokens calls ∧
      trail.now.operators = ((ofTokens limits tokens).asked calls).operators ∧
      (∀ cursor ∈ trail.all, cursor.current ≤ first ∧ cursor.depth ≤ limits.depth ∧
        cursor.operators ≤ limits.operators) ∧
      (trail.all.Pairwise fun later earlier =>
        earlier.current ≤ later.current ∧ earlier.operators ≤ later.operators) ∧
      trail.all <:+ (Descent.trail limits (supplied tokens) fuel (calls + 1)).all) ∧
    ∀ others, (supplied others).take (first + 1) = (supplied tokens).take (first + 1) →
      ∀ calls, ((ofTokens limits others).asked calls).parse.1 =
        ((ofTokens limits tokens).asked calls).parse.1 := by
  intro first
  obtain ⟨source, rfl, text, made⟩ := exists_source limits tokens
  have ended : first = source.before.length := by rw [← source.findIdx_tokens, text]
  rw [← text] at enough
  refine ⟨?_, fun calls => ?_, fun others agree calls => ?_⟩
  · rw [ended, ← text]
    exact source.ends_inside
  · have rests := rests_trail enough calls
    obtain ⟨outcome, answers⟩ := rests.answers enough
    obtain ⟨current, operators⟩ := standing_of_asked made rests
    have steps := answers.steps
    rw [made] at steps
    rw [ended, ← text]
    refine ⟨⟨outcome, answers.descent, steps⟩, rests.closed, current, operators, fun cursor member => ?_,
      rests.sound.ordered.imp fun precedes => ⟨precedes.current, precedes.operators⟩, answers.grown⟩
    have within := rests.sound.within cursor member
    exact ⟨within.current, within.depth, within.operators⟩
  · rw [ofTokens_of_agreement agree]

/-- The first call fails at an operator too many, one level inside parentheses, and the second one reads what
is left there. -/
theorem calls_behind_failure_keep_bounds :
    let limits : Limits := ⟨2, 1⟩
    let tokens : List Token := [bare .leftParen, bare (.name "x"), bare .plus, bare (.name "y"), bare .plus,
      bare (.name "z")]
    8 * (supplied tokens).length ≤ 56 ∧
      ((ofTokens limits tokens).asked 0).parse.1 = .error (.of (.tooManyOperators 1) default []) ∧
      ((ofTokens limits tokens).asked 1).parse.1 = .ok (.variable "z" default) ∧
      (Descent.trail limits (supplied tokens) 56 2).now.depth = 0 ∧
      ∀ cursor ∈ (Descent.trail limits (supplied tokens) 56 2).all,
        cursor.current ≤ 6 ∧ cursor.depth ≤ 2 ∧ cursor.operators ≤ 1 := by
  intro limits tokens
  have enough : 8 * (supplied tokens).length ≤ 56 := by decide
  obtain ⟨-, closed, -, -, within, -⟩ := (calls_keep_bounds limits tokens 56 enough).2.1 2
  exact ⟨enough, rfl, rfl, closed, within⟩

end Reckon.Parser

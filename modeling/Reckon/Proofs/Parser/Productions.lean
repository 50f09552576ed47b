import Reckon.Proofs.Parser.Attempts

/-!
The productions, one lemma for each. The operators of a family are read in rounds, and so are the clauses of a
conditional; every production that begins behind a token may call all the others again.
-/
namespace Reckon

open Grammar

namespace Parser

open Reckon.Parser.Configuration Reckon.Parser.Descent

section

variable {source : Source} {stack : List Frame} {trail : Trail} {head : Token} {fuel : Nat}
  {reader : Symbol → Descent Expr} {symbol : Symbol} {goal : Goal} {family : Family}

private theorem goal_of_mem {operator : BinaryOperator} (own : operator ∈ family.operators) :
    operator.goal = family.operand.goal := by
  cases family <;> cases operator <;> simp_all [Family.operators] <;> rfl

/-- What may follow an operand does not keep an operation before it from being whole. -/
private theorem below_of_mem {operator : BinaryOperator} {rest : List Token}
    (own : operator ∈ family.operators)
    (below : Below family.operand.strength rest) : Below (operator.strength + 1) rest := by
  intro token member other sign
  rw [strength_of_mem own]
  exact Nat.lt_succ_of_le (strength_le_of_lt_operand (below token member other sign))

private theorem below_of_not_mem {rest : List Token} (met : rest.head? = visible head)
    (foreign : ∀ operator ∈ BinaryOperator.ofKind? head.kind, operator ∉ family.operators)
    (below : Below family.operand.strength rest) : Below family.symbol.strength rest := by
  intro token member operator sign
  have same := visible_eq_some (met.symm.trans member)
  exact strength_lt_of_not_mem (foreign operator (same ▸ sign)) (below token member operator sign)

/-- An operator is taken and counted, then its right operand is read. -/
private theorem parses_right (capable : Capable source fuel reader)
    (meets : source.Meets trail head)
    {operator : BinaryOperator} (sign : BinaryOperator.ofKind? head.kind = some operator)
    (own : operator ∈ family.operators) (left : Expr) (yields : Yields family.symbol.strength stack)
    (sound : trail.Sound source) (opened : trail.now.depth = level stack)
    (room : trail.now.operators < source.limits.operators)
    (enough : 8 * (source.before.length - trail.now.current) ≤ fuel) :
    Parses source ⟨.complete left, stack⟩ (.operation left operator :: stack) family.operand.strength
      trail (trail.now.current + 1) ((reader family.operand).run.run trail.taken.counted) := by
  have inside := inside_of_sign sign
  have taken := meets.reaches inside sound
  have counted := taken.trans (taken.sound.counted room)
  have equal := strength_of_mem own
  have same : source.onward ⟨.complete left, stack⟩ trail.now =
      source.onward ⟨.awaiting operator.goal, .operation left operator :: stack⟩
        trail.taken.counted.now :=
    Source.onward_operator meets sign (equal ▸ yields) room
  rw [goal_of_mem own] at same
  have holds : Yields family.operand.strength (.operation left operator :: stack) :=
    yields_cons.mpr (Nat.lt_of_le_of_lt (Nat.le_of_eq equal) (symbol_strength_lt_operand family))
  have levels : trail.taken.counted.now.depth = level (.operation left operator :: stack) := by
    rw [level_operation]
    exact counted.depth.trans opened
  have fits : need source family.operand trail.taken.counted ≤ fuel :=
    Nat.le_trans (need_le _)
      (need_of_room (meets.before_end inside) (Nat.lt_succ_self _) enough)
  have tries := capable _ _ _ _ ⟨counted.sound, levels, holds, fun _ _ => rfl⟩ fits
  exact (tries.exact counted.sound levels).behind counted same (Nat.le_refl _)

private theorem parses_operations (capable : Capable source fuel reader)
    (yields : Yields family.symbol.strength stack) (rounds : Nat) (left : Expr)
    (sound : trail.Sound source) (opened : trail.now.depth = level stack)
    (below : Below family.operand.strength (source.before.drop trail.now.current))
    (short : source.before.length - trail.now.current < rounds)
    (enough : 8 * (source.before.length - trail.now.current) ≤ fuel) :
    Parses source ⟨.complete left, stack⟩ stack family.symbol.strength trail trail.now.current
      ((operations source.limits source.tokens family (reader family.operand) rounds left).run.run
        trail) := by
  induction rounds generalizing left trail with
  | zero => exact absurd short (Nat.not_lt_zero _)
  | succ rounds ih =>
    obtain ⟨head, meets⟩ := Source.meets sound
    rw [operations]
    by_cases own : ∃ operator ∈ BinaryOperator.ofKind? head.kind, operator ∈ family.operators
    · obtain ⟨operator, sign, own⟩ := own
      have inside := inside_of_sign sign
      have ended := meets.before_end inside
      rw [run_bind_ok _ (run_operator?_some meets.found sign own inside)]
      by_cases full : source.limits.operators ≤ trail.now.operators
      · dsimp only
        rw [run_bind_error _ (run_count_full meets.found full)]
        exact .failed (meets.reaches inside sound) (Nat.le_succ _)
          (Source.onward_crowded meets sign full)
      · have room := Nat.not_le.mp full
        have counts : (count source.limits source.tokens).run.run trail.taken =
            (.ok (), trail.taken.counted) := run_count room
        have right := parses_right capable meets sign own left yields sound opened room enough
        dsimp only
        rw [run_bind_ok _ counts]
        refine (right.bind fun right later reaches far tight => ?_).weaken sound (Nat.le_succ _)
        -- The right operand leaves no operator that binds more strongly, so the operation is whole.
        have whole : source.onward ⟨.complete right, .operation left operator :: stack⟩ later.now =
            source.onward ⟨.complete (left.joined operator right), stack⟩ later.now :=
          Source.onward_whole _ rfl (below_of_mem own tight) fun _ _ => rfl
        exact (ih (left.joined operator right) reaches.sound (reaches.depth.trans opened) tight
          (by omega) (by omega)).behind (.refl reaches.sound) whole far
    · have foreign : ∀ operator ∈ BinaryOperator.ofKind? head.kind, operator ∉ family.operators :=
        fun operator sign member => own ⟨operator, sign, member⟩
      rw [run_bind_ok _ (run_operator?_none meets.found foreign)]
      exact .whole (.refl sound) (Nat.le_refl _) (below_of_not_mem meets.met foreign below) rfl

private theorem tries_chain (family : Family) (capable : Capable source fuel reader)
    (ready : Ready source family.operand goal stack trail)
    (yields : Yields family.symbol.strength stack) (enough : need source family.operand trail ≤ fuel) :
    Tries source goal stack family.symbol.strength family.operand.goal.expectation trail
      ((chain source.limits source.tokens family (reader family.operand)).run.run trail) := by
  have first := capable family.operand goal stack trail ready enough
  generalize ran : (reader family.operand).run.run trail = ended at first
  cases first with
  | parses parses =>
    rw [← ran] at parses
    refine .parses (parses.bind fun left later reaches far below => ?_)
    have short : source.before.length - later.now.current < source.tokens.length :=
      Nat.lt_of_le_of_lt (Nat.sub_le _ _) source.ends_inside
    have fits : 8 * (source.before.length - later.now.current) ≤ fuel := by
      have room := room_of_need (Nat.le_succ_of_le enough)
      omega
    exact (parses_operations capable yields source.tokens.length left reaches.sound
      (reaches.depth.trans ready.opened) below short fits).behind (.refl reaches.sound) rfl far
  | stuck meets refuses =>
    unfold chain
    rw [run_bind_error _ ran]
    exact .stuck meets refuses

private theorem tries_widened {strength : Nat} {what : Expectation} {piece : Descent Expr}
    (tries : Tries source goal stack strength what trail (piece.run.run trail)) (wider : Expectation)
    (sound : trail.Sound source) :
    Tries source goal stack strength wider trail
      ((widened source.tokens wider piece).run.run trail) := by
  generalize ran : piece.run.run trail = ended at tries
  cases tries with
  | parses parses =>
    cases parses with
    | whole reaches far below same =>
      rw [run_widened_ok wider ran]
      exact .parses (.whole reaches far below same)
    | failed reaches far same =>
      obtain ⟨head, meets⟩ := Source.meets sound
      rw [run_widened_failed wider meets.found ran, Attempt.furthest, if_neg (Nat.not_le.mpr far)]
      exact .parses (.failed reaches far same)
  | stuck meets refuses =>
    rw [run_widened_failed wider meets.found ran, Attempt.furthest, if_pos (Nat.le_refl _)]
    exact .stuck meets refuses

private theorem goal_of_signed {operator : UnaryOperator} (own : signed operator = symbol) :
    operator.goal = symbol.goal ∧ symbol.goal.admits operator := by
  subst own
  cases operator <;> exact ⟨rfl, rfl⟩

private theorem parses_prefixed (capable : Capable source fuel reader)
    (ready : Ready source symbol goal stack trail) (meets : source.Meets trail head)
    {operator : UnaryOperator} (own : signed operator = symbol) (sign : head.kind = operator.kind)
    (enough : need source symbol trail ≤ fuel + 1) :
    Parses source ⟨.awaiting goal, stack⟩ stack symbol.strength trail (trail.now.current + 1)
      ((prefixed source.tokens operator
        (nested source.limits source.tokens (reader symbol))).run.run trail) := by
  obtain ⟨begins, wide⟩ := goal_of_signed own
  have above := signed_strength own
  have inside : isFinish head = false := inside_of_kind sign (by cases operator <;> nofun)
  have taken := meets.reaches inside ready.sound
  have levels : trail.taken.now.depth + 1 = level (.unary operator head.span :: stack) := by
    rw [level_opening (by rfl), taken.depth, ready.opened]
  have holds : Yields symbol.strength (.unary operator head.span :: stack) :=
    yields_cons.mpr (Nat.lt_of_succ_le (Nat.le_of_eq above))
  have fits : need source symbol trail.taken ≤ fuel :=
    Nat.le_trans (need_le _)
      (need_behind (meets.before_end inside) (Nat.lt_succ_self _) enough)
  have operand := parses_nested capable taken.sound levels holds fits
  rw [← begins] at operand
  unfold prefixed
  rw [run_bind_ok _ (run_take meets.found inside)]
  refine ready.begins meets inside (.prefixed operator sign wide)
    (operand.bind fun inner later reaches far below => ?_)
  exact parses_whole (.unary operator head.span) reaches.sound rfl far below
    (below.mono (Nat.le_of_eq above.symm)) fun _ _ => rfl

private theorem refusal_name {token : Token} (stack : List Frame)
    (unnamed : ∀ name, token.kind ≠ .name name) :
    Configuration.refusal ⟨.name, stack⟩ (visible token) = some .name := by
  refine refusal_of_step rfl fun _ => ?_
  simp only [Configuration.step]

private theorem refusal_equals {token : Token} (name : String) (opening : Span) (stack : List Frame)
    (other : token.kind ≠ .equal) :
    Configuration.refusal ⟨.equals name opening, stack⟩ (visible token) = some .equals := by
  refine refusal_of_step rfl fun _ => ?_
  simp only [Configuration.step]

/-- A construct that waits for a token refuses any other that is no operator. -/
private theorem refusal_waiting {frame : Frame} {part : Expr} {what : Expectation} {token : Token}
    (missing : frame.whole part = .error what)
    (plain : isFinish token = false → BinaryOperator.ofKind? token.kind = none)
    (passed : frame.resumed part token.kind stack = none) :
    Configuration.refusal ⟨.complete part, frame :: stack⟩ (visible token) = some what := by
  refine refusal_of_step ?_ fun inside => ?_
  · simp only [Configuration.finish, conclude, missing]
    rfl
  · simp only [step_plain rfl (plain inside), close, passed, missing]
    rfl

theorem plain_of_below {rest : List Token} (below : Below 1 rest)
    (met : rest.head? = visible head) (inside : isFinish head = false) :
    BinaryOperator.ofKind? head.kind = none :=
  (unextended_of_below below).plain (met.trans (visible_of_inside inside))

private theorem parses_assignment (capable : Capable source fuel reader)
    (ready : Ready source .expression goal stack trail) (meets : source.Meets trail head)
    (opening : head.kind = .keyword .sclr) (enough : need source .expression trail ≤ fuel + 1) :
    Parses source ⟨.awaiting goal, stack⟩ stack Symbol.expression.strength trail
      (trail.now.current + 1)
      ((assignment source.tokens
        (nested source.limits source.tokens (reader .expression))).run.run trail) := by
  have inside : isFinish head = false := inside_of_kind opening nofun
  have first := meets.reaches inside ready.sound
  obtain ⟨target, meets'⟩ := Source.meets first.sound
  unfold assignment
  rw [run_bind_ok _ (run_take meets.found inside), run_bind_ok _ (run_peek meets'.found)]
  refine ready.begins meets inside (.assignment opening) ?_
  split
  · rename_i name named
    have inside' : isFinish target = false := inside_of_kind named nofun
    have second := first.trans (meets'.reaches inside' first.sound)
    obtain ⟨mark, meets''⟩ := Source.meets second.sound
    rw [run_bind_ok _ (run_take meets'.found inside')]
    refine Parses.taken ?_ meets' inside' first.sound (Nat.zero_le _) rfl (step_name named stack)
    refine parses_expect meets'' second.sound (Nat.zero_le _) (Nat.le_succ _) nofun (fun equal => ?_)
      (refusal_equals name target.span stack)
    have inside'' : isFinish mark = false := inside_of_kind equal nofun
    have third := second.trans (meets''.reaches inside'' second.sound)
    have far : trail.now.current + 1 ≤ trail.taken.taken.taken.now.current :=
      Nat.le_succ_of_le (Nat.le_succ _)
    have value := parses_inner capable (.assignment name target.span) rfl rfl third.sound
      (third.depth.trans ready.opened) (need_behind (meets.before_end inside) far enough)
    refine Parses.taken ?_ meets'' inside'' second.sound (Nat.zero_le _) rfl
      (step_equals equal name target.span stack)
    refine (value.weaken third.sound far).bind fun inner later reaches far below => ?_
    exact parses_whole (.assignment name target.span) reaches.sound rfl far below below fun _ _ => rfl
  · rename_i unnamed
    exact parses_refuse meets' first.sound (Nat.zero_le _) (refusal_name stack unnamed) (Nat.le_refl _)

private theorem parses_group (capable : Capable source fuel reader)
    (ready : Ready source .atom goal stack trail) (meets : source.Meets trail head)
    (opening : head.kind = .leftParen) (enough : need source .atom trail ≤ fuel + 1) :
    Parses source ⟨.awaiting goal, stack⟩ stack Symbol.atom.strength trail (trail.now.current + 1)
      ((group source.tokens
        (nested source.limits source.tokens (reader .expression))).run.run trail) := by
  have inside : isFinish head = false := inside_of_kind opening nofun
  have first := meets.reaches inside ready.sound
  have part := parses_inner capable .group rfl rfl first.sound
    (first.depth.trans ready.opened)
    (need_behind (meets.before_end inside) (Nat.lt_succ_self _) enough)
  unfold group
  rw [run_bind_ok _ (run_take meets.found inside)]
  refine ready.begins meets inside (.group opening) (part.bind fun expr later reaches far below => ?_)
  obtain ⟨closing, meets'⟩ := Source.meets reaches.sound
  refine parses_expect meets' reaches.sound (Nat.zero_le _) far nofun (fun closes => ?_)
    fun other => refusal_waiting rfl (plain_of_below below meets'.met) (if_neg other)
  have inside' : isFinish closing = false := inside_of_kind closes nofun
  have second := meets'.reaches inside' reaches.sound
  have whole : Parses source ⟨.complete expr, stack⟩ stack Symbol.atom.strength later.taken
      (trail.now.current + 1) (.ok expr, later.taken) :=
    .whole (.refl second.sound) (Nat.le_trans far second.current) (below_atom _) rfl
  exact whole.resumed meets' inside' reaches.sound (.group closes)

private theorem parses_continued (capable : Capable source fuel reader) (opening : Span)
    (clauses : List (Expr × Expr)) (premise result : Expr) {further : Descent Expr}
    (sound : trail.Sound source) (opened : trail.now.depth = level stack)
    (below : Below 1 (source.before.drop trail.now.current))
    (enough : need source .expression trail ≤ fuel)
    (again : trail.now.current < source.before.length → Reaches source trail trail.taken →
      Parses source ⟨.awaiting .expression, .condition opening ((premise, result) :: clauses) :: stack⟩
        stack Symbol.atom.strength trail.taken trail.now.current (further.run.run trail.taken)) :
    Parses source ⟨.complete result, .result opening clauses premise :: stack⟩ stack
      Symbol.atom.strength trail trail.now.current
      ((continued source.tokens (nested source.limits source.tokens (reader .expression)) further
        opening ((premise, result) :: clauses) result).run.run trail) := by
  obtain ⟨head, meets⟩ := Source.meets sound
  have another (mark : head.kind = .keyword .elif ∨ head.kind = .keyword .then)
      (inside : isFinish head = false) :=
    (again (meets.before_end inside) (meets.reaches inside sound)).resumed meets inside sound
      (.further opening clauses premise mark)
  unfold continued
  by_cases elif : head.kind = .keyword .elif
  · have inside : isFinish head = false := inside_of_kind elif nofun
    rw [run_bind_ok _ (run_accept .elif meets.found elif inside)]
    exact another (.inl elif) inside
  rw [run_bind_ok _ (run_accept_other meets.found elif)]
  by_cases repeated : head.kind = .keyword .then
  · have inside : isFinish head = false := inside_of_kind repeated nofun
    rw [if_neg Bool.false_ne_true, run_bind_ok _ (run_accept .then meets.found repeated inside)]
    exact another (.inr repeated) inside
  rw [if_neg Bool.false_ne_true, run_bind_ok _ (run_accept_other meets.found repeated)]
  by_cases otherwise : head.kind = .keyword .else
  · have inside : isFinish head = false := inside_of_kind otherwise nofun
    have taken := meets.reaches inside sound
    have last := parses_inner capable (.otherwise opening ((premise, result) :: clauses)) rfl
      rfl taken.sound (taken.depth.trans opened) (Nat.le_trans (need_mono _ taken.current) enough)
    rw [if_neg Bool.false_ne_true, run_bind_ok _ (run_accept .else meets.found otherwise inside)]
    refine Parses.resumed ?_ meets inside sound (.otherwise opening clauses premise otherwise)
    refine (last.weaken taken.sound (Nat.le_succ _)).bind fun expr later reaches far tight => ?_
    exact parses_whole (.otherwise opening ((premise, result) :: clauses)) reaches.sound rfl far
      (below_atom _) tight fun _ _ => rfl
  · rw [if_neg Bool.false_ne_true, run_bind_ok _ (run_accept_other meets.found otherwise)]
    refine parses_whole (.result opening clauses premise) sound rfl (Nat.le_refl _) (below_atom _) below
      fun token member => resumed_result_eq_none.mpr ?_
    obtain rfl := visible_eq_some (meets.met.symm.trans member)
    exact ⟨repeated, elif, otherwise⟩

private theorem parses_clauses (capable : Capable source fuel reader) (opening : Span)
    (rounds : Nat) (clauses : List (Expr × Expr)) (sound : trail.Sound source)
    (opened : trail.now.depth = level stack)
    (short : source.before.length - trail.now.current < rounds)
    (enough : need source .expression trail ≤ fuel) :
    Parses source ⟨.awaiting .expression, .condition opening clauses :: stack⟩ stack
      Symbol.atom.strength trail trail.now.current
      ((Descent.clauses source.tokens (nested source.limits source.tokens (reader .expression))
        opening rounds clauses).run.run trail) := by
  induction rounds generalizing clauses trail with
  | zero => exact absurd short (Nat.not_lt_zero _)
  | succ rounds ih =>
    have test := parses_inner capable (.condition opening clauses) rfl rfl sound opened enough
    rw [Descent.clauses]
    refine test.bind fun condition later first far below => ?_
    obtain ⟨mark, meets⟩ := Source.meets first.sound
    refine parses_expect meets first.sound (Nat.zero_le _) far nofun (fun follows => ?_)
      fun other => refusal_waiting rfl (plain_of_below below meets.met) (if_neg other)
    have inside : isFinish mark = false := inside_of_kind follows nofun
    have second := meets.reaches inside first.sound
    have reached := first.trans second
    refine Parses.resumed ?_ meets inside first.sound (.condition opening clauses follows)
    have chosen := parses_inner capable (.result opening clauses condition) rfl rfl
      second.sound (reached.depth.trans opened) (Nat.le_trans (need_mono _ reached.current) enough)
    refine (chosen.weaken second.sound reached.current).bind fun result last third far' below' => ?_
    have all := reached.trans third
    have fits := Nat.le_trans (need_mono _ all.current) enough
    refine (parses_continued capable opening clauses condition result third.sound
      (all.depth.trans opened) below' fits fun before further => ?_).weaken third.sound far'
    refine (ih ((condition, result) :: clauses) further.sound ((all.trans further).depth.trans opened)
      ?_ (Nat.le_trans (need_mono _ further.current) fits)).weaken further.sound further.current
    have ahead : last.taken.now.current = last.now.current + 1 := rfl
    have onward := all.current
    omega

private theorem parses_conditional (capable : Capable source fuel reader)
    (ready : Ready source .atom goal stack trail) (meets : source.Meets trail head)
    (opening : head.kind = .keyword .if) (enough : need source .atom trail ≤ fuel + 1) :
    Parses source ⟨.awaiting goal, stack⟩ stack Symbol.atom.strength trail (trail.now.current + 1)
      ((conditional source.tokens
        (nested source.limits source.tokens (reader .expression))).run.run trail) := by
  have inside : isFinish head = false := inside_of_kind opening nofun
  have first := meets.reaches inside ready.sound
  unfold conditional
  rw [run_bind_ok _ (run_take meets.found inside)]
  refine ready.begins meets inside (.conditional opening) ?_
  exact parses_clauses capable head.span source.tokens.length [] first.sound
    (first.depth.trans ready.opened) (Nat.lt_of_le_of_lt (Nat.sub_le _ _) source.ends_inside)
    (need_behind (meets.before_end inside) (Nat.lt_succ_self _) enough)

private theorem parses_leaf (ready : Ready source .atom goal stack trail)
    (meets : source.Meets trail head) (inside : isFinish head = false) {expr : Expr}
    (begins : Begins head stack Symbol.atom.goal ⟨.complete expr, stack⟩) :
    Parses source ⟨.awaiting goal, stack⟩ stack Symbol.atom.strength trail (trail.now.current + 1)
      ((do let _ ← take source.tokens; pure expr : Descent Expr).run.run trail) := by
  rw [run_bind_ok _ (run_take meets.found inside)]
  refine ready.begins meets inside begins ?_
  exact .whole (.refl (meets.reaches inside ready.sound).sound) (Nat.le_refl _) (below_atom _) rfl

private theorem tries_atom (capable : Capable source fuel reader)
    (ready : Ready source .atom goal stack trail) (enough : need source .atom trail ≤ fuel + 1) :
    Tries source goal stack Symbol.atom.strength .atom trail
      ((Descent.atom source.tokens
        (nested source.limits source.tokens (reader .expression))).run.run trail) := by
  obtain ⟨head, meets⟩ := Source.meets ready.sound
  unfold Descent.atom
  rw [run_bind_ok _ (run_peek meets.found)]
  split
  · rename_i value literal
    exact .parses (parses_leaf ready meets (inside_of_kind literal nofun) (.number value (.inl literal)))
  · rename_i value literal
    exact .parses (parses_leaf ready meets (inside_of_kind literal nofun) (.number value (.inr literal)))
  · rename_i name named
    exact .parses (parses_leaf ready meets (inside_of_kind named nofun) (.reference name named))
  · rename_i opening
    exact .parses (parses_group capable ready meets opening enough)
  · rename_i opening
    exact .parses (parses_conditional capable ready meets opening enough)
  · rename_i notInt notFloat notName notOpening notIf
    rw [run_refuse .atom meets.found]
    refine .stuck meets (ready.refuses meets ?_)
    obtain ⟨kind, span, lexeme⟩ := head
    cases kind with
    | int value => exact absurd rfl (notInt value)
    | float value => exact absurd rfl (notFloat value)
    | name text => exact absurd rfl (notName text)
    | leftParen => exact absurd rfl notOpening
    | keyword word => cases word <;> first | rfl | exact absurd rfl notIf
    | _ => rfl

private theorem sign?_eq_some {kind : Token.Kind} {operator : UnaryOperator}
    (sign : sign? kind = some operator) : kind = operator.kind ∧ signed operator = .factor := by
  cases kind <;> cases sign <;> exact ⟨rfl, rfl⟩

private theorem starting_expression {token : Token} (stack : List Frame)
    (other : token.kind ≠ .keyword .sclr) :
    starting token stack .expression = starting token stack .comparison := by
  obtain ⟨kind, span, lexeme⟩ := token
  cases kind with
  | keyword word => cases word <;> first | rfl | exact absurd rfl other
  | _ => rfl

private theorem starting_comparison {token : Token} (stack : List Frame)
    (other : token.kind ≠ .keyword .not) :
    starting token stack .comparison = starting token stack .factor := by
  obtain ⟨kind, span, lexeme⟩ := token
  cases kind with
  | keyword word => cases word <;> first | rfl | exact absurd rfl other
  | _ => rfl

private theorem starting_factor {token : Token} (stack : List Frame)
    (unsigned : sign? token.kind = none) :
    starting token stack .factor = starting token stack .atom := by
  obtain ⟨kind, span, lexeme⟩ := token
  cases kind with
  | plus | minus => cases unsigned
  | keyword word => cases word <;> rfl
  | _ => rfl

/-- Where its own beginnings are ruled out, a symbol is read as a narrower one. -/
private theorem Ready.narrower {other : Symbol} (ready : Ready source symbol goal stack trail)
    (meets : source.Meets trail head) (wide : symbol.strength ≤ other.strength)
    (same : starting head stack symbol.goal = starting head stack other.goal) :
    Ready source other goal stack trail := by
  refine ⟨ready.sound, ready.opened, ready.yields.mono wide, fun token member => ?_⟩
  obtain rfl := visible_eq_some (meets.met.symm.trans member)
  exact (ready.agrees head member).trans same

private theorem tries_production (capable : Capable source fuel reader)
    (ready : Ready source symbol goal stack trail) (enough : need source symbol trail ≤ fuel + 1) :
    Tries source goal stack symbol.strength symbol.goal.expectation trail
      ((production source.limits source.tokens reader symbol).run.run trail) := by
  obtain ⟨head, meets⟩ := Source.meets ready.sound
  have fewer {other : Symbol} (inner : other.rank + 1 = symbol.rank) :
      need source other trail ≤ fuel := by
    unfold need at enough ⊢
    omega
  cases symbol with
  | expression =>
    unfold production
    rw [run_bind_ok _ (run_peek meets.found)]
    by_cases opening : head.kind = .keyword .sclr
    · rw [if_pos opening]
      exact .parses (parses_assignment capable ready meets opening enough)
    · rw [if_neg opening]
      have inner : Ready source .comparison goal stack trail :=
        ready.narrower meets (by decide) (starting_expression stack opening)
      exact tries_widened (tries_chain .logical capable inner ready.yields (fewer rfl))
        .expression ready.sound
  | comparison =>
    unfold production
    rw [run_bind_ok _ (run_peek meets.found)]
    by_cases negated : head.kind = .keyword .not
    · rw [if_pos negated]
      exact .parses (parses_prefixed capable ready meets rfl negated enough)
    · rw [if_neg negated]
      have inner : Ready source .arithmetic goal stack trail :=
        ready.narrower meets (by decide) (starting_comparison stack negated)
      exact tries_widened (tries_chain .relational capable inner ready.yields (fewer rfl))
        .comparison ready.sound
  | arithmetic =>
    have inner : Ready source .term goal stack trail := ready.narrower meets (by decide) rfl
    exact tries_chain .additive capable inner ready.yields (fewer rfl)
  | term =>
    have inner : Ready source .factor goal stack trail := ready.narrower meets (by decide) rfl
    exact tries_chain .multiplicative capable inner ready.yields (fewer rfl)
  | factor =>
    unfold production
    rw [run_bind_ok _ (run_peek meets.found)]
    split
    · rename_i operator sign
      obtain ⟨same, own⟩ := sign?_eq_some sign
      exact .parses (parses_prefixed capable ready meets own same enough)
    · rename_i unsigned
      have inner : Ready source .power goal stack trail :=
        ready.narrower meets (by decide) (starting_factor stack unsigned)
      exact capable .power goal stack trail inner (fewer rfl)
  | power =>
    have inner : Ready source .atom goal stack trail := ready.narrower meets (by decide) rfl
    exact tries_chain .power capable inner ready.yields (fewer rfl)
  | atom => exact tries_atom capable ready enough

theorem capable_reading (source : Source) (fuel : Nat) :
    Capable source fuel (reading source.limits source.tokens fuel) := by
  induction fuel with
  | zero =>
    intro symbol goal stack trail _ enough
    have positive : 1 ≤ symbol.rank := by cases symbol <;> decide
    unfold need at enough
    omega
  | succ fuel ih =>
    intro symbol goal stack trail ready enough
    exact tries_production ih ready enough

end

end Parser

end Reckon

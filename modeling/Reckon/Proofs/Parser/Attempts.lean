import Reckon.Proofs.Parser.Cursor
import Reckon.Proofs.Parser.Nesting

/-!
Attempts at a part, against the steps of the parser. A piece of the descent either completes its part, as the
steps do over the same tokens, or fails as they do; only a failure at the very first token may be described
more narrowly.
-/
namespace Reckon

open Grammar

namespace Grammar.Symbol

/-- What is due where a symbol begins. -/
def goal : Symbol → Parser.Goal
  | .expression => .expression
  | .comparison => .comparison
  | .arithmetic | .term | .factor => .factor
  | .power | .atom => .atom

/-- How many productions may begin at one token, each inside the one before. -/
def rank : Symbol → Nat
  | .expression => 7
  | .comparison => 6
  | .arithmetic => 5
  | .term => 4
  | .factor => 3
  | .power => 2
  | .atom => 1

end Grammar.Symbol

namespace Parser

open Reckon.Parser.Configuration Reckon.Parser.Descent

/-- The part is completed, or the descent fails, at an index that is not below the least one, and the steps
from the configuration come to the same. -/
inductive Parses (source : Source) (begun : Configuration) (stack : List Frame) (strength : Nat)
    (trail : Trail) (least : Nat) : Except Halt Expr × Trail → Prop
  | whole {expr : Expr} {later : Trail} (reaches : Reaches source trail later)
      (far : least ≤ later.now.current)
      (below : Below strength (source.before.drop later.now.current))
      (same : source.onward begun trail.now = source.onward ⟨.complete expr, stack⟩ later.now) :
      Parses source begun stack strength trail least (.ok expr, later)
  | failed {attempt : Attempt} {later : Trail} (reaches : Reaches source trail later)
      (far : least ≤ attempt.reached)
      (same : source.onward begun trail.now = (.error attempt.diagnostic, source.left later.now)) :
      Parses source begun stack strength trail least (.error (.failed attempt), later)

/-- As `Parses` behind the first token; at the first token itself the two descriptions may differ. -/
inductive Tries (source : Source) (goal : Goal) (stack : List Frame) (strength : Nat)
    (what : Expectation) (trail : Trail) : Except Halt Expr × Trail → Prop
  | parses {result : Except Halt Expr × Trail}
      (parses : Parses source ⟨.awaiting goal, stack⟩ stack strength trail (trail.now.current + 1) result) :
      Tries source goal stack strength what trail result
  | stuck {head : Token} (meets : source.Meets trail head)
      (refuses : Configuration.refusal ⟨.awaiting goal, stack⟩ (visible head) = some goal.expectation) :
      Tries source goal stack strength what trail
        (.error (.failed ⟨.of (.expected what) head.span [], trail.now.current⟩), trail)

/-- A symbol may be read here, and the wider goal makes no difference to the next token. -/
structure Ready (source : Source) (symbol : Symbol) (goal : Goal) (stack : List Frame)
    (trail : Trail) : Prop where
  sound : trail.Sound source
  opened : trail.now.depth = level stack
  yields : Yields symbol.strength stack
  agrees : ∀ token ∈ (source.before.drop trail.now.current).head?,
    starting token stack goal = starting token stack symbol.goal

/-- How deep productions may have to call each other. -/
def need (source : Source) (symbol : Symbol) (trail : Trail) : Nat :=
  8 * (source.before.length - trail.now.current) + symbol.rank

def Capable (source : Source) (fuel : Nat) (reader : Symbol → Descent Expr) : Prop :=
  ∀ symbol goal stack trail, Ready source symbol goal stack trail → need source symbol trail ≤ fuel →
    Tries source goal stack symbol.strength symbol.goal.expectation trail
      ((reader symbol).run.run trail)

section

variable {source : Source} {begun next : Configuration} {stack inner : List Frame}
  {strength strength' least least' : Nat} {trail later : Trail} {head : Token}
  {result : Except Halt Expr × Trail} {what : Expectation}

theorem Parses.behind {begun' : Configuration} {earlier : Trail}
    (parses : Parses source begun stack strength trail least result)
    (reaches : Reaches source earlier trail)
    (same : source.onward begun' earlier.now = source.onward begun trail.now) (fewer : least' ≤ least) :
    Parses source begun' stack strength earlier least' result := by
  cases parses with
  | whole onward far below equal =>
    exact .whole (reaches.trans onward) (Nat.le_trans fewer far) below (same.trans equal)
  | failed onward far equal =>
    exact .failed (reaches.trans onward) (Nat.le_trans fewer far) (same.trans equal)

theorem Parses.taken (parses : Parses source next stack strength trail.taken least result)
    (meets : source.Meets trail head) (inside : isFinish head = false) (sound : trail.Sound source)
    (shallow : begun.depth ≤ source.limits.depth) (plain : begun.takesOperator head.kind = false)
    (step : begun.step head = .ok next) : Parses source begun stack strength trail least result :=
  parses.behind (meets.reaches inside sound)
    (Source.onward_taken meets inside sound shallow plain step) (Nat.le_refl _)

theorem Parses.resumed {part : Expr} {frame : Frame} {rest : List Frame}
    (parses : Parses source next stack strength trail.taken least result)
    (meets : source.Meets trail head) (inside : isFinish head = false) (sound : trail.Sound source)
    (resumes : Resumes part rest head.kind frame next) :
    Parses source ⟨.complete part, frame :: rest⟩ stack strength trail least result := by
  have plain : takesOperator ⟨.complete part, frame :: rest⟩ head.kind = false := by
    simp [takesOperator, resumes.plain]
  exact parses.taken meets inside sound (Nat.zero_le _) plain resumes.step

theorem Parses.bind {piece : Descent Expr} {resume : Expr → Descent Expr} {between : Trail}
    (first : Parses source begun inner strength' trail least (piece.run.run between))
    (onward : ∀ expr later, Reaches source trail later → least ≤ later.now.current →
      Below strength' (source.before.drop later.now.current) →
      Parses source ⟨.complete expr, inner⟩ stack strength later least
        ((resume expr).run.run later)) :
    Parses source begun stack strength trail least ((piece >>= resume).run.run between) := by
  generalize ran : piece.run.run between = ended at first
  cases first with
  | whole reaches far below same =>
    rw [run_bind_ok resume ran]
    exact (onward _ _ reaches far below).behind reaches same (Nat.le_refl _)
  | failed reaches far same =>
    rw [run_bind_error resume ran]
    exact .failed reaches far same

theorem Parses.weaken (parses : Parses source begun stack strength trail least result)
    (sound : trail.Sound source) (fewer : least' ≤ least) :
    Parses source begun stack strength trail least' result :=
  parses.behind (.refl sound) rfl fewer

theorem parses_whole (frame : Frame) {part expr : Expr} (sound : trail.Sound source)
    (whole : frame.whole part = .ok expr) (far : least ≤ trail.now.current)
    (below : Below strength (source.before.drop trail.now.current))
    (held : Below (frame.strength + 1) (source.before.drop trail.now.current))
    (passed : ∀ token ∈ (source.before.drop trail.now.current).head?,
      frame.resumed part token.kind stack = none) :
    Parses source ⟨.complete part, frame :: stack⟩ stack strength trail least (.ok expr, trail) :=
  .whole (.refl sound) far below (Source.onward_whole frame whole held passed)

theorem parses_refuse (meets : source.Meets trail head) (sound : trail.Sound source)
    (shallow : begun.depth ≤ source.limits.depth)
    (refuses : begun.refusal (visible head) = some what) (far : least ≤ trail.now.current) :
    Parses source begun stack strength trail least
      ((refuse source.tokens what : Descent Expr).run.run trail) := by
  rw [run_refuse what meets.found]
  exact .failed (.refl sound) far (Source.onward_refused meets sound shallow refuses)

/-- Where the goal is what the production begins with, both descriptions are the same. -/
theorem Tries.exact {goal : Goal} (tries : Tries source goal stack strength goal.expectation trail result)
    (sound : trail.Sound source) (opened : trail.now.depth = level stack) :
    Parses source ⟨.awaiting goal, stack⟩ stack strength trail trail.now.current result := by
  cases tries with
  | parses parses => exact parses.weaken sound (Nat.le_succ _)
  | stuck meets refuses =>
    have shallow : Configuration.depth ⟨.awaiting goal, stack⟩ ≤ source.limits.depth :=
      Nat.le_trans (Nat.le_of_eq opened.symm) sound.now.depth
    exact .failed (.refl sound) (Nat.le_refl _) (Source.onward_refused meets sound shallow refuses)

end

section

variable {source : Source} {stack : List Frame} {trail later : Trail}
  {fuel : Nat} {reader : Symbol → Descent Expr} {symbol : Symbol} {goal : Goal} {head : Token}

private theorem Trail.Sound.opened (sound : trail.Sound source)
    (room : trail.now.depth < source.limits.depth) :
    trail.opened.Sound source := by
  have within := sound.now
  exact sound.move ⟨within.current, room, within.operators⟩ ⟨Nat.le_refl _, Nat.le_refl _⟩

theorem Trail.Sound.counted (sound : trail.Sound source)
    (room : trail.now.operators < source.limits.operators) : Reaches source trail trail.counted := by
  have within := sound.now
  exact ⟨sound.move ⟨within.current, within.depth, room⟩ ⟨Nat.le_refl _, Nat.le_succ _⟩,
    List.suffix_cons _ _, rfl, Nat.le_refl _⟩

private theorem Reaches.closed (reaches : Reaches source trail.opened later) :
    Reaches source trail later.closed := by
  have within := reaches.sound.now
  have depth : later.now.depth = trail.now.depth + 1 := reaches.depth
  refine ⟨reaches.sound.move ⟨within.current, ?_, within.operators⟩ ⟨Nat.le_refl _, Nat.le_refl _⟩, ?_,
    ?_, reaches.current⟩
  · exact Nat.le_trans (Nat.sub_le _ _) within.depth
  · exact (List.suffix_cons _ _).trans (reaches.grown.trans (List.suffix_cons _ _))
  · exact Nat.sub_eq_of_eq_add depth

theorem parses_nested (capable : Capable source fuel reader) (sound : trail.Sound source)
    (opened : trail.now.depth + 1 = level stack) (yields : Yields symbol.strength stack)
    (enough : need source symbol trail ≤ fuel) :
    Parses source ⟨.awaiting symbol.goal, stack⟩ stack symbol.strength trail trail.now.current
      ((nested source.limits source.tokens (reader symbol)).run.run trail) := by
  by_cases deep : source.limits.depth ≤ trail.now.depth
  · obtain ⟨head, meets⟩ := Source.meets sound
    rw [run_nested_deep _ meets.found deep]
    refine .failed (.refl sound) (Nat.le_refl _) (Source.onward_deep meets ?_)
    exact Nat.lt_of_lt_of_le (Nat.lt_succ_of_le deep) (Nat.le_of_eq opened)
  · have room := sound.opened (Nat.not_le.mp deep)
    have parses := (capable symbol symbol.goal stack trail.opened ⟨room, opened, yields, fun _ _ => rfl⟩
      enough).exact room opened
    generalize ran : (reader symbol).run.run trail.opened = ended at parses
    rw [run_nested deep ran]
    cases parses with
    | whole reaches far below same => exact .whole reaches.closed far below same
    | failed reaches far same => exact .failed reaches.closed far same

theorem parses_inner (capable : Capable source fuel reader) (frame : Frame) (opens : frame.opensLevel)
    (loose : frame.strength = 0) (sound : trail.Sound source) (opened : trail.now.depth = level stack)
    (enough : need source .expression trail ≤ fuel) :
    Parses source ⟨.awaiting .expression, frame :: stack⟩ (frame :: stack) Symbol.expression.strength
      trail trail.now.current
      ((nested source.limits source.tokens (reader .expression)).run.run trail) := by
  have levels : trail.now.depth + 1 = level (frame :: stack) := by rw [level_opening opens, opened]
  exact parses_nested capable sound levels (yields_loose loose) enough

theorem need_le (symbol : Symbol) : need source symbol trail ≤ need source .expression trail := by
  refine Nat.add_le_add_left ?_ _
  cases symbol <;> decide

theorem need_mono (symbol : Symbol) (onward : trail.now.current ≤ later.now.current) :
    need source symbol later ≤ need source symbol trail := by
  unfold need
  omega

/-- Where a token has been taken, all productions may begin again. -/
theorem need_of_room (before : trail.now.current < source.before.length)
    (onward : trail.now.current < later.now.current)
    (enough : 8 * (source.before.length - trail.now.current) ≤ fuel) :
    need source .expression later ≤ fuel := by
  have most : Symbol.expression.rank = 7 := rfl
  unfold need
  omega

theorem room_of_need (enough : need source symbol trail ≤ fuel + 1) :
    8 * (source.before.length - trail.now.current) ≤ fuel := by
  have first : 1 ≤ symbol.rank := by cases symbol <;> decide
  unfold need at enough
  omega

theorem need_behind (before : trail.now.current < source.before.length)
    (onward : trail.now.current < later.now.current) (enough : need source symbol trail ≤ fuel + 1) :
    need source .expression later ≤ fuel :=
  need_of_room before onward (room_of_need enough)

theorem inside_of_kind {kind : Token.Kind} (same : head.kind = kind) (other : kind ≠ .finish) :
    isFinish head = false :=
  decide_eq_false (same ▸ other)

end

section

variable {source : Source} {begun next : Configuration} {stack inner : List Frame}
  {strength least : Nat} {trail : Trail} {head : Token} {result : Except Halt Expr × Trail}
  {symbol : Symbol} {goal : Goal}

theorem refusal_of_step {configuration : Configuration} {token : Token} {what : Expectation}
    (finished : configuration.finish = .error what)
    (refused : isFinish token = false → configuration.step token = .error what) :
    configuration.refusal (visible token) = some what := by
  cases inside : isFinish token with
  | true =>
    rw [visible_of_ends inside]
    simp only [refusal, finished]
  | false =>
    rw [visible_of_inside inside]
    simp only [refusal, refused inside]

private theorem Ready.shallow (ready : Ready source symbol goal stack trail) :
    Configuration.depth ⟨.awaiting goal, stack⟩ ≤ source.limits.depth :=
  Nat.le_trans (Nat.le_of_eq ready.opened.symm) ready.sound.now.depth

theorem Ready.begins (ready : Ready source symbol goal stack trail) (meets : source.Meets trail head)
    (inside : isFinish head = false) (begins : Begins head stack symbol.goal next)
    (parses : Parses source next inner strength trail.taken least result) :
    Parses source ⟨.awaiting goal, stack⟩ inner strength trail least result := by
  have starts : starting head stack goal = some next := by
    rw [ready.agrees head (by rw [meets.dropped inside]; rfl), begins.starting]
  have step : Configuration.step ⟨.awaiting goal, stack⟩ head = .ok next := by
    simp only [Configuration.step, starts]
  exact parses.taken meets inside ready.sound ready.shallow rfl step

theorem Ready.refuses (ready : Ready source symbol goal stack trail) (meets : source.Meets trail head)
    (refused : starting head stack symbol.goal = none) :
    Configuration.refusal ⟨.awaiting goal, stack⟩ (visible head) = some goal.expectation := by
  refine refusal_of_step rfl fun inside => ?_
  have starts := ready.agrees head (by rw [meets.dropped inside]; rfl)
  simp only [Configuration.step, starts.trans refused]

theorem parses_expect {kind : Token.Kind} {what : Expectation} {resume : Token → Descent Expr}
    (meets : source.Meets trail head) (sound : trail.Sound source)
    (shallow : begun.depth ≤ source.limits.depth) (far : least ≤ trail.now.current)
    (other : kind ≠ .finish)
    (accepted : head.kind = kind →
      Parses source begun stack strength trail least ((resume head).run.run trail.taken))
    (refused : head.kind ≠ kind → begun.refusal (visible head) = some what) :
    Parses source begun stack strength trail least
      ((expect source.tokens kind what >>= resume).run.run trail) := by
  have expected := run_expect kind what meets.found
  by_cases same : head.kind = kind
  · rw [if_pos same, run_take meets.found (inside_of_kind same other)] at expected
    rw [run_bind_ok resume expected]
    exact accepted same
  · rw [if_neg same, run_refuse what meets.found] at expected
    rw [run_bind_error resume expected]
    exact .failed (.refl sound) far (Source.onward_refused meets sound shallow (refused same))

end

end Parser

end Reckon

import Reckon.Proofs.Parser.Descent
import Reckon.Proofs.Parser.Named

/-!
Cursors within bounds. The index stays at or before the first end of the text, so there always is a token to
look at, and what is left from there on is what the parser of single steps has left.
-/
namespace Reckon

namespace Parser

open Reckon.Parser.Configuration

/-- The tokens of a descent, taken apart at the first end of the text. -/
structure Source where
  limits : Limits
  before : List Token
  last : Token
  rest : List Token
  ends : isFinish last
  free : ∀ token ∈ before, isFinish token = false

def Source.tokens (source : Source) : List Token := source.before ++ source.last :: source.rest

theorem Source.ends_inside (source : Source) : source.before.length < source.tokens.length := by
  simp only [Source.tokens, List.length_append, List.length_cons]
  omega

structure Cursor.Within (source : Source) (cursor : Cursor) : Prop where
  current : cursor.current ≤ source.before.length
  depth : cursor.depth ≤ source.limits.depth
  operators : cursor.operators ≤ source.limits.operators

/-- Neither the index nor the count of operators has gone back. -/
structure Cursor.Precedes (earlier later : Cursor) : Prop where
  current : earlier.current ≤ later.current
  operators : earlier.operators ≤ later.operators

structure Trail.Sound (source : Source) (trail : Trail) : Prop where
  within : ∀ cursor ∈ trail.all, cursor.Within source
  ordered : trail.all.Pairwise fun later earlier => earlier.Precedes later

/-- From one point to another, with as many levels open as before. -/
structure Reaches (source : Source) (trail later : Trail) : Prop where
  sound : later.Sound source
  grown : trail.all <:+ later.all
  depth : later.now.depth = trail.now.depth
  current : trail.now.current ≤ later.now.current

namespace Source

/-- What the steps from a configuration come to where the cursor stands. -/
def onward (source : Source) (configuration : Configuration) (cursor : Cursor) :
    Except Diagnostic Expr × Progress :=
  advance source.limits source.last.span configuration cursor.operators
    (source.before.drop cursor.current)

def left (source : Source) (cursor : Cursor) : Progress :=
  ⟨source.before.drop cursor.current, cursor.operators⟩

/-- The next token, as the cursor finds it and as the steps do. -/
structure Meets (source : Source) (trail : Trail) (head : Token) : Prop where
  found : source.tokens[trail.now.current]? = some head
  met : (source.before.drop trail.now.current).head? = visible head
  placed : place source.last.span (source.before.drop trail.now.current).head? = head.span

end Source

section

variable {source : Source} {trail later last : Trail} {head : Token}

theorem Trail.Sound.now (sound : trail.Sound source) : trail.now.Within source :=
  sound.within trail.now List.mem_cons_self

theorem Trail.Sound.move (sound : trail.Sound source) {cursor : Cursor}
    (within : cursor.Within source) (precedes : trail.now.Precedes cursor) :
    (trail.move cursor).Sound source := by
  refine ⟨List.forall_mem_cons.mpr ⟨within, sound.within⟩,
    List.pairwise_cons.mpr ⟨fun earlier member => ?_, sound.ordered⟩⟩
  rcases List.mem_cons.mp member with rfl | past
  · exact precedes
  · have before := (List.pairwise_cons.mp sound.ordered).1 earlier past
    exact ⟨Nat.le_trans before.current precedes.current,
      Nat.le_trans before.operators precedes.operators⟩

theorem Reaches.refl (sound : trail.Sound source) : Reaches source trail trail :=
  ⟨sound, List.suffix_rfl, rfl, Nat.le_refl _⟩

theorem Reaches.trans (first : Reaches source trail later) (second : Reaches source later last) :
    Reaches source trail last :=
  ⟨second.sound, first.grown.trans second.grown, second.depth.trans first.depth,
    Nat.le_trans first.current second.current⟩

theorem visible_of_inside (inside : isFinish head = false) : visible head = some head := by
  simp [visible, Option.filter, inside]

theorem visible_eq_some {token : Token} (seen : visible head = some token) : head = token :=
  Option.some.inj (Option.filter_eq_some_iff.mp seen).1

theorem visible_of_ends (ends : isFinish head) : visible head = none := by
  simp [visible, Option.filter, ends]

theorem Source.meets (sound : trail.Sound source) : ∃ head, source.Meets trail head := by
  have bound := sound.now.current
  rcases Nat.lt_or_eq_of_le bound with inside | ended
  · have dropped := List.drop_eq_getElem_cons inside
    have free := source.free _ (List.getElem_mem inside)
    refine ⟨source.before[trail.now.current], ?_, ?_, ?_⟩
    · rw [tokens, List.getElem?_append_left inside, List.getElem?_eq_getElem inside]
    · rw [dropped]
      exact (visible_of_inside free).symm
    · rw [dropped]
      rfl
  · have dropped : source.before.drop trail.now.current = [] := by rw [ended, List.drop_length]
    refine ⟨source.last, ?_, ?_, ?_⟩
    · rw [tokens, ended, List.getElem?_append_right (Nat.le_refl _), Nat.sub_self]
      rfl
    · rw [dropped]
      exact (visible_of_ends source.ends).symm
    · rw [dropped]
      rfl

namespace Source.Meets

theorem dropped (meets : source.Meets trail head) (inside : isFinish head = false) :
    source.before.drop trail.now.current = head :: source.before.drop (trail.now.current + 1) := by
  have next := meets.met
  rw [visible_of_inside inside, List.head?_eq_some_iff] at next
  obtain ⟨tail, split⟩ := next
  rw [← List.tail_drop, split]
  rfl

theorem before_end (meets : source.Meets trail head) (inside : isFinish head = false) :
    trail.now.current < source.before.length := by
  have dropped := congrArg List.length (meets.dropped inside)
  rw [List.length_drop, List.length_cons] at dropped
  omega

theorem reaches (meets : source.Meets trail head) (inside : isFinish head = false)
    (sound : trail.Sound source) : Reaches source trail trail.taken := by
  have within := sound.now
  exact ⟨sound.move ⟨meets.before_end inside, within.depth, within.operators⟩
    ⟨Nat.le_succ _, Nat.le_refl _⟩, List.suffix_cons _ _, rfl, Nat.le_succ _⟩

end Source.Meets

section

variable {configuration next : Configuration} {what : Expectation}

theorem Source.onward_taken (meets : source.Meets trail head) (inside : isFinish head = false)
    (sound : trail.Sound source) (shallow : configuration.depth ≤ source.limits.depth)
    (plain : configuration.takesOperator head.kind = false)
    (step : configuration.step head = .ok next) :
    source.onward configuration trail.now = source.onward next trail.taken.now := by
  have same : configuration.counted trail.now.operators head = trail.now.operators := by
    simp [counted, plain]
  have few : configuration.counted trail.now.operators head ≤ source.limits.operators := by
    rw [same]
    exact sound.now.operators
  have within : configuration.Within source.limits trail.now.operators (some head) :=
    within_some.mpr ⟨shallow, few⟩
  rw [onward, meets.dropped inside, advance_of_step within step, same]
  rfl

private theorem takesOperator_of_refused {token : Token}
    (refused : configuration.step token = .error what) :
    configuration.takesOperator token.kind = false := by
  obtain ⟨phase, stack⟩ := configuration
  cases phase with
  | complete part =>
    cases sign : BinaryOperator.ofKind? token.kind with
    | none => simp [takesOperator, sign]
    | some operator =>
      simp only [step, sign] at refused
      cases refused
  | _ => rfl

theorem Source.onward_refused (meets : source.Meets trail head) (sound : trail.Sound source)
    (shallow : configuration.depth ≤ source.limits.depth)
    (refuses : configuration.refusal (visible head) = some what) :
    source.onward configuration trail.now =
      (.error (.of (.expected what) head.span []), source.left trail.now) := by
  rw [← meets.met] at refuses
  rw [onward, advance_of_refusal ⟨shallow, fun token member => ?_⟩ refuses, meets.placed]
  · rfl
  · rw [Option.mem_def.mp member] at refuses
    have plain := takesOperator_of_refused (step_of_refusal refuses)
    simp only [counted, plain, Bool.false_eq_true, if_false]
    exact sound.now.operators

theorem Source.onward_deep (meets : source.Meets trail head)
    (deep : source.limits.depth < configuration.depth) :
    source.onward configuration trail.now =
      (.error (.of (.nestingTooDeep source.limits.depth) head.span []), source.left trail.now) := by
  rw [onward, left, ← meets.placed]
  cases source.before.drop trail.now.current with
  | nil => simp only [advance, if_pos deep, place, List.head?_nil, Option.map_none, Option.getD_none]
  | cons token rest =>
    rw [advance_cons, if_pos deep]
    rfl

end

section

variable {left part expr : Expr} {stack : List Frame} {operator : BinaryOperator}

theorem inside_of_sign (sign : BinaryOperator.ofKind? head.kind = some operator) :
    isFinish head = false := by
  refine decide_eq_false fun ends => ?_
  rw [ends] at sign
  cases sign

private theorem counted_of_sign (left : Expr) (stack : List Frame) (operators : Nat)
    (sign : BinaryOperator.ofKind? head.kind = some operator) :
    counted ⟨.complete left, stack⟩ operators head = operators + 1 := by
  simp [counted, takesOperator, sign]

theorem Source.onward_operator (meets : source.Meets trail head)
    (sign : BinaryOperator.ofKind? head.kind = some operator) (yields : Yields operator.strength stack)
    (room : trail.now.operators < source.limits.operators) :
    source.onward ⟨.complete left, stack⟩ trail.now =
      source.onward ⟨.awaiting operator.goal, .operation left operator :: stack⟩
        trail.taken.counted.now := by
  have more := counted_of_sign left stack trail.now.operators sign
  have within : Configuration.Within source.limits ⟨.complete left, stack⟩ trail.now.operators
      (some head) :=
    within_some.mpr ⟨Nat.zero_le _, more ▸ room⟩
  rw [onward, meets.dropped (inside_of_sign sign), advance_of_step within (step_operator sign yields),
    more]
  rfl

theorem Source.onward_crowded (meets : source.Meets trail head)
    (sign : BinaryOperator.ofKind? head.kind = some operator)
    (full : source.limits.operators ≤ trail.now.operators) :
    source.onward ⟨.complete left, stack⟩ trail.now =
      (.error (.of (.tooManyOperators source.limits.operators) head.span []),
        source.left trail.taken.now) := by
  have more := counted_of_sign left stack trail.now.operators sign
  have shallow : ¬ source.limits.depth < Configuration.depth ⟨.complete left, stack⟩ :=
    Nat.not_lt_zero _
  rw [onward, meets.dropped (inside_of_sign sign), advance_cons, more, if_neg shallow,
    if_pos (Nat.lt_succ_of_le full)]
  rfl

theorem Source.onward_whole (frame : Frame) {cursor : Cursor} (whole : frame.whole part = .ok expr)
    (below : Below (frame.strength + 1) (source.before.drop cursor.current))
    (passed : ∀ token ∈ (source.before.drop cursor.current).head?,
      frame.resumed part token.kind stack = none) :
    source.onward ⟨.complete part, frame :: stack⟩ cursor =
      source.onward ⟨.complete expr, stack⟩ cursor := by
  unfold onward
  generalize source.before.drop cursor.current = after at below passed
  cases after with
  | nil =>
    simp only [advance, finish_whole stack whole]
    rfl
  | cons token rest =>
    simp only [advance_cons, step_whole frame whole (below_cons.mp below) (passed token rfl)]
    rfl

end

end

end Parser

end Reckon

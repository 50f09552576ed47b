import Reckon.Proofs.Grammar.Longest
import Reckon.Proofs.Parser.Refusal

/-!
Descent through the grammar. A cursor is moved over the tokens, one production calls another, and what a call
leaves behind is where the next one starts. Tokens are looked at by their index, which may be out of range.
-/
namespace Reckon

open Grammar

namespace Parser

structure Cursor where
  current : Nat
  depth : Nat
  operators : Nat
deriving DecidableEq, Repr

/-- All that a cursor has been, the latest apart from those before it. -/
structure Trail where
  now : Cursor
  past : List Cursor

namespace Trail

def start : Trail := ⟨⟨0, 0, 0⟩, []⟩

def all (trail : Trail) : List Cursor := trail.now :: trail.past

def move (trail : Trail) (cursor : Cursor) : Trail := ⟨cursor, trail.all⟩

/-- Behind the next token. -/
def taken (trail : Trail) : Trail :=
  trail.move { trail.now with current := trail.now.current + 1 }

def counted (trail : Trail) : Trail :=
  trail.move { trail.now with operators := trail.now.operators + 1 }

def opened (trail : Trail) : Trail := trail.move { trail.now with depth := trail.now.depth + 1 }

def closed (trail : Trail) : Trail := trail.move { trail.now with depth := trail.now.depth - 1 }

end Trail

/-- Besides a failure, a descent may end at an index that has no token, or below as many productions as it
may go through. -/
inductive Halt where
  | failed (attempt : Attempt)
  | outside
  | exhausted

abbrev Descent (α : Type) := ExceptT Halt (StateM Trail) α

namespace Descent

variable {α : Type} (limits : Limits) (tokens : List Token)

def cursor : Descent Cursor := do return (← get).now

def look (index : Nat) : Descent Token :=
  match tokens[index]? with
  | some token => pure token
  | none => throw .outside

def peek : Descent Token := do
  look tokens (← cursor).current

/-- The end of the text is never passed. -/
def take : Descent Token := do
  let token ← peek tokens
  if isFinish token then pure token
  else do
    modify Trail.taken
    pure token

def expectedAt (index : Nat) (what : Expectation) : Descent Attempt := do
  let token ← look tokens index
  pure ⟨⟨.expected what, token.span, [], none, none⟩, index⟩

def refuse (what : Expectation) : Descent α := do
  let attempt ← expectedAt tokens (← cursor).current what
  throw (.failed attempt)

def expect (kind : Token.Kind) (what : Expectation) : Descent Token := do
  let head ← peek tokens
  if head.kind = kind then take tokens else refuse tokens what

/-- A failure that has taken nothing is described by what may stand at the beginning. -/
def widened (what : Expectation) (piece : Descent α) : Descent α := do
  let start ← cursor
  tryCatch piece fun halt =>
    match halt with
    | .failed attempt => do
      let wider ← expectedAt tokens start.current what
      throw (.failed (attempt.furthest wider))
    | other => throw other

/-- The level is closed again behind a failure as well. -/
def nested (piece : Descent α) : Descent α := do
  let now ← cursor
  if limits.depth ≤ now.depth then do
    let token ← peek tokens
    throw (.failed ⟨⟨.nestingTooDeep limits.depth, token.span, [], none, none⟩, now.current⟩)
  else
    ExceptT.mk fun trail =>
      let (outcome, later) := piece.run.run trail.opened
      (outcome, later.closed)

/-- An operator too many is reported where it stands, one token back. -/
def count : Descent Unit := do
  let now ← cursor
  if limits.operators ≤ now.operators then
    match now.current with
    | 0 => throw .outside
    | back + 1 => do
      let token ← look tokens back
      throw (.failed
        ⟨⟨.tooManyOperators limits.operators, token.span, [], none, none⟩, now.current⟩)
  else modify Trail.counted

def operator? (family : Family) : Descent (Option BinaryOperator) := do
  let head ← peek tokens
  match (BinaryOperator.ofKind? head.kind).filter fun operator => operator ∈ family.operators with
  | none => pure none
  | some operator => do
    let _ ← take tokens
    pure (some operator)

/-- The operators of one family behind an operand. -/
def operations (family : Family) (operand : Descent Expr) : Nat → Expr → Descent Expr
  | 0, _ => throw .exhausted
  | rounds + 1, left => do
    match ← operator? tokens family with
    | none => pure left
    | some operator => do
      count limits tokens
      let right ← operand
      operations family operand rounds
        (.binary left operator right ⟨left.span.start, right.span.stop⟩)

/-- As many rounds as there are tokens. -/
def chain (family : Family) (operand : Descent Expr) : Descent Expr := do
  let first ← operand
  operations limits tokens family operand tokens.length first

def prefixed (operator : UnaryOperator) (operand : Descent Expr) : Descent Expr := do
  let sign ← take tokens
  let inner ← operand
  pure (.unary operator inner ⟨sign.span.start, inner.span.stop⟩)

def assignment (value : Descent Expr) : Descent Expr := do
  let _ ← take tokens
  let target ← peek tokens
  match target.kind with
  | .name name => do
    let _ ← take tokens
    let _ ← expect tokens .equal .equals
    let inner ← value
    pure (.assign name inner ⟨target.span.start, inner.span.stop⟩)
  | _ => refuse tokens .name

def group (inner : Descent Expr) : Descent Expr := do
  let _ ← take tokens
  let expr ← inner
  let _ ← expect tokens .rightParen .closing
  pure expr

def accept (word : Keyword) : Descent Bool := do
  let head ← peek tokens
  if head.kind = .keyword word then do
    let _ ← take tokens
    pure true
  else pure false

/-- What follows a condition and its result, which are the last of the clauses. -/
def continued (part : Descent Expr) (further : Descent Expr) (opening : Span)
    (clauses : List (Expr × Expr)) (result : Expr) : Descent Expr := do
  if ← accept tokens .elif then further
  else if ← accept tokens .then then further
  else if ← accept tokens .else then do
    let last ← part
    pure (.conditional (.after clauses (.otherwise last)) ⟨opening.start, last.span.stop⟩)
  else pure (.conditional (.after clauses .nothing) ⟨opening.start, result.span.stop⟩)

def clauses (part : Descent Expr) (opening : Span) :
    Nat → List (Expr × Expr) → Descent Expr
  | 0, _ => throw .exhausted
  | rounds + 1, before => do
    let condition ← part
    let _ ← expect tokens (.keyword .then) .consequence
    let result ← part
    let all := (condition, result) :: before
    continued tokens part (clauses part opening rounds all) opening all result

def conditional (part : Descent Expr) : Descent Expr := do
  let opening ← take tokens
  clauses tokens part opening.span tokens.length []

def sign? : Token.Kind → Option UnaryOperator
  | .plus => some .plus
  | .minus => some .minus
  | _ => none

def atom (part : Descent Expr) : Descent Expr := do
  let head ← peek tokens
  match head.kind with
  | .int value | .float value => do
    let _ ← take tokens
    pure (.number value head.span)
  | .name name => do
    let _ ← take tokens
    pure (.variable name head.span)
  | .leftParen => group tokens part
  | .keyword .if => conditional tokens part
  | _ => refuse tokens .atom

/-- The production of a symbol; an expression is what is inside its own level. -/
def production (reader : Symbol → Descent Expr) : Symbol → Descent Expr
  | .expression => do
    let head ← peek tokens
    if head.kind = .keyword .sclr then
      assignment tokens (nested limits tokens (reader .expression))
    else widened tokens .expression (chain limits tokens .logical (reader .comparison))
  | .comparison => do
    let head ← peek tokens
    if head.kind = .keyword .not then
      prefixed tokens .not (nested limits tokens (reader .comparison))
    else widened tokens .comparison (chain limits tokens .relational (reader .arithmetic))
  | .arithmetic => chain limits tokens .additive (reader .term)
  | .term => chain limits tokens .multiplicative (reader .factor)
  | .factor => do
    let head ← peek tokens
    match sign? head.kind with
    | some operator => prefixed tokens operator (nested limits tokens (reader .factor))
    | none => reader .power
  | .power => chain limits tokens .power (reader .atom)
  | .atom => atom tokens (nested limits tokens (reader .expression))

/-- Productions call each other, at most so deep. -/
def reading : Nat → Symbol → Descent Expr
  | 0, _ => throw .exhausted
  | fuel + 1, symbol => production limits tokens (reading fuel) symbol

/-- One call of a parser. -/
def call (fuel : Nat) : Descent Expr := do
  let expr ← nested limits tokens (reading limits tokens fuel .expression)
  let head ← peek tokens
  if isFinish head then pure expr else refuse tokens .finish

/-- The trail behind so many calls. -/
def trail (fuel : Nat) : Nat → Trail
  | 0 => .start
  | calls + 1 => ((call limits tokens fuel).run.run (trail fuel calls)).2

/-- What a call answers behind so many others. -/
def answer (fuel calls : Nat) : Except Halt Expr :=
  ((call limits tokens fuel).run.run (trail limits tokens fuel calls)).1

section

variable {α β : Type} {limits : Limits} {tokens : List Token} {trail later : Trail} {head : Token}

theorem run_bind_ok {first : Descent α} {value : α} (next : α → Descent β)
    (ran : first.run.run trail = (.ok value, later)) :
    (first >>= next).run.run trail = (next value).run.run later := by
  rw [ExceptT.run_bind, StateT.run_bind, ran]
  rfl

theorem run_bind_error {first : Descent α} {halt : Halt} (next : α → Descent β)
    (ran : first.run.run trail = (.error halt, later)) :
    (first >>= next).run.run trail = (.error halt, later) := by
  rw [ExceptT.run_bind, StateT.run_bind, ran]
  rfl

private theorem run_cursor : cursor.run.run trail = (.ok trail.now, trail) := rfl

private theorem run_look {index : Nat} (found : tokens[index]? = some head) :
    (look tokens index).run.run trail = (.ok head, trail) := by
  unfold look
  rw [found]
  rfl

theorem run_peek (found : tokens[trail.now.current]? = some head) :
    (peek tokens).run.run trail = (.ok head, trail) := by
  unfold peek
  rw [run_bind_ok _ run_cursor]
  exact run_look found

theorem run_take (found : tokens[trail.now.current]? = some head) (inside : isFinish head = false) :
    (take tokens).run.run trail = (.ok head, trail.taken) := by
  unfold take
  rw [run_bind_ok _ (run_peek found), inside]
  rfl

private theorem run_expectedAt {index : Nat} (what : Expectation)
    (found : tokens[index]? = some head) :
    (expectedAt tokens index what).run.run trail =
      (.ok ⟨.of (.expected what) head.span [], index⟩, trail) := by
  unfold expectedAt
  rw [run_bind_ok _ (run_look found)]
  rfl

theorem run_refuse (what : Expectation) (found : tokens[trail.now.current]? = some head) :
    (refuse tokens what : Descent α).run.run trail =
      (.error (.failed ⟨.of (.expected what) head.span [], trail.now.current⟩), trail) := by
  unfold refuse
  rw [run_bind_ok _ run_cursor, run_bind_ok _ (run_expectedAt what found)]
  rfl

theorem run_expect (kind : Token.Kind) (what : Expectation)
    (found : tokens[trail.now.current]? = some head) :
    (expect tokens kind what).run.run trail =
      if head.kind = kind then (take tokens).run.run trail
      else (refuse tokens what).run.run trail := by
  unfold expect
  rw [run_bind_ok _ (run_peek found)]
  split
  · rfl
  · rfl

theorem run_nested_deep (piece : Descent α) (found : tokens[trail.now.current]? = some head)
    (deep : limits.depth ≤ trail.now.depth) :
    (nested limits tokens piece).run.run trail =
      (.error (.failed ⟨.of (.nestingTooDeep limits.depth) head.span [], trail.now.current⟩),
        trail) := by
  unfold nested
  rw [run_bind_ok _ run_cursor, if_pos deep, run_bind_ok _ (run_peek found)]
  rfl

theorem run_nested {piece : Descent α} {ended : Except Halt α × Trail}
    (shallow : ¬ limits.depth ≤ trail.now.depth) (ran : piece.run.run trail.opened = ended) :
    (nested limits tokens piece).run.run trail = (ended.1, ended.2.closed) := by
  subst ran
  unfold nested
  rw [run_bind_ok _ run_cursor, if_neg shallow]
  rfl

private theorem run_tryCatch (piece : Descent α) (handle : Halt → Descent α) (trail : Trail) :
    (tryCatch piece handle).run.run trail =
      match piece.run.run trail with
      | (.ok value, later) => (.ok value, later)
      | (.error halt, later) => (handle halt).run.run later := by
  change StateT.run (ExceptT.run (ExceptT.tryCatch piece handle)) trail = _
  rw [ExceptT.tryCatch, ExceptT.run_mk, StateT.run_bind]
  change (piece.run.run trail >>= _) = _
  cases piece.run.run trail with
  | mk outcome later => cases outcome <;> rfl

theorem run_widened_ok {piece : Descent α} {value : α} (what : Expectation)
    (ran : piece.run.run trail = (.ok value, later)) :
    (widened tokens what piece).run.run trail = (.ok value, later) := by
  unfold widened
  rw [run_bind_ok _ run_cursor, run_tryCatch, ran]

theorem run_widened_failed {piece : Descent α} {attempt : Attempt} (what : Expectation)
    (found : tokens[trail.now.current]? = some head)
    (ran : piece.run.run trail = (.error (.failed attempt), later)) :
    (widened tokens what piece).run.run trail =
      (.error (.failed (attempt.furthest ⟨.of (.expected what) head.span [], trail.now.current⟩)),
        later) := by
  unfold widened
  rw [run_bind_ok _ run_cursor, run_tryCatch, ran]
  exact run_bind_ok _ (run_expectedAt what found)

theorem run_count (room : trail.now.operators < limits.operators) :
    (count limits tokens).run.run trail = (.ok (), trail.counted) := by
  unfold count
  rw [run_bind_ok _ run_cursor, if_neg (Nat.not_le.mpr room)]
  rfl

/-- The operator that is one too many stands right before the cursor. -/
theorem run_count_full (found : tokens[trail.now.current]? = some head)
    (full : limits.operators ≤ trail.now.operators) :
    (count limits tokens).run.run trail.taken =
      (.error (.failed ⟨.of (.tooManyOperators limits.operators) head.span [],
        trail.taken.now.current⟩), trail.taken) := by
  have full' : limits.operators ≤ trail.taken.now.operators := full
  unfold count
  rw [run_bind_ok _ run_cursor, if_pos full']
  exact run_bind_ok _ (run_look found)

theorem run_operator?_none {family : Family} (found : tokens[trail.now.current]? = some head)
    (foreign : ∀ operator ∈ BinaryOperator.ofKind? head.kind, operator ∉ family.operators) :
    (operator? tokens family).run.run trail = (.ok none, trail) := by
  have absent : ((BinaryOperator.ofKind? head.kind).filter fun operator =>
      operator ∈ family.operators) = .none := by
    simpa [Option.filter_eq_none_iff] using foreign
  unfold operator?
  rw [run_bind_ok _ (run_peek found), absent]
  rfl

theorem run_operator?_some {family : Family} {operator : BinaryOperator}
    (found : tokens[trail.now.current]? = some head)
    (sign : BinaryOperator.ofKind? head.kind = some operator) (own : operator ∈ family.operators)
    (inside : isFinish head = false) :
    (operator? tokens family).run.run trail = (.ok (some operator), trail.taken) := by
  have present : ((BinaryOperator.ofKind? head.kind).filter fun operator =>
      operator ∈ family.operators) = some operator := by
    simp [sign, own]
  unfold operator?
  rw [run_bind_ok _ (run_peek found), present]
  exact run_bind_ok _ (run_take found inside)

theorem run_accept (word : Keyword) (found : tokens[trail.now.current]? = some head)
    (same : head.kind = .keyword word) (inside : isFinish head = false) :
    (accept tokens word).run.run trail = (.ok true, trail.taken) := by
  unfold accept
  rw [run_bind_ok _ (run_peek found), if_pos same]
  exact run_bind_ok _ (run_take found inside)

theorem run_accept_other {word : Keyword} (found : tokens[trail.now.current]? = some head)
    (other : head.kind ≠ .keyword word) :
    (accept tokens word).run.run trail = (.ok false, trail) := by
  unfold accept
  rw [run_bind_ok _ (run_peek found), if_neg other]
  rfl

end

end Descent

end Parser

end Reckon

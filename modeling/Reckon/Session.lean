import Reckon.Evaluation
import Reckon.Token.Lexer
import Reckon.Parser

/-!
Sessions keep the names of one root context from text to text. Reading, parsing and evaluating
follow each other, and the first of them that fails gives the answer.
-/
namespace Reckon

def Expr.ofText (limits : Limits) (text : String) : Except Diagnostic Expr := do
  let tokens ← (Lexer.ofText text).tokens.1
  (Parser.ofTokens limits tokens).parse.1

/-- The outcome of an expression in a context, and the store it leaves. -/
def Expr.run (expr : Expr) (context : Context) (limit : Nat) (store : Store) :
    Except Diagnostic (Option Value) × Store :=
  (expr.evaluate context limit 1).run.run store

namespace Evaluation

def standardLimit : Nat := 128

end Evaluation

structure Settings where
  sourceName : String
  limits : Limits
  evaluationLimit : Nat
deriving DecidableEq, Repr

def Settings.standard : Settings := ⟨"<stdin>", .standard, Evaluation.standardLimit⟩

structure Session where
  settings : Settings
  root : Context
  store : Store
deriving DecidableEq

namespace Session

inductive Event where
  | lexed (count : Nat)
  | evaluated (value : Option Value)
  | resetting

def Event.text : Event → String
  | .lexed count => s!"lexed {count} tokens"
  | .evaluated (some value) => s!"evaluated to {value.text}"
  | .evaluated none => "evaluated to no value"
  | .resetting => "resetting session"

structure Report where
  outcome : Except Diagnostic (Option Value)
  events : List Event

def constants : List (String × Float) := [("null", 0), ("true", 1), ("false", 0)]

/-- A root context that has the constants and nothing else. -/
def seeded : Context × Store :=
  let (root, store) := Context.openRoot .empty "<program>"
  (root, constants.foldl (fun store entry => root.assign store entry.1 (.ofNumber entry.2)) store)

def ofSettings (settings : Settings) : Session := ⟨settings, seeded.1, seeded.2⟩

def get? (session : Session) (name : String) : Option Value :=
  session.root.lookup session.store name

def assign (session : Session) (name : String) (number : Float) : Session :=
  { session with store := session.root.assign session.store name (.ofNumber number) }

def reset (session : Session) : Session := ofSettings session.settings

/-- A text that is not read or not parsed leaves the store alone. -/
def run (session : Session) (source : String) : Report × Session :=
  match (Lexer.ofText source).tokens.1 with
  | .error fault => (⟨.error fault, []⟩, session)
  | .ok tokens =>
    let lexed := Event.lexed tokens.length
    match (Parser.ofTokens session.settings.limits tokens).parse.1 with
    | .error fault => (⟨.error fault, [lexed]⟩, session)
    | .ok expr =>
      let (outcome, store) := expr.run session.root session.settings.evaluationLimit session.store
      let events :=
        match outcome with
        | .ok value => [lexed, .evaluated value]
        | .error _ => [lexed]
      (⟨outcome, events⟩, { session with store := store })

/-- Diagnostics name the source of the session and show the line at fault. -/
def evaluate (session : Session) (source : String) : Report × Session :=
  let (report, next) := session.run source
  let outcome := report.outcome.mapError (·.withSource session.settings.sourceName source)
  ({ report with outcome := outcome }, next)

end Session

end Reckon

import Reckon.Fault
import Reckon.Position
import Reckon.Text.Lines

/-!
Reports of faults: where in a text one lies, the calls that led there, and the source line to show.
-/
namespace Reckon

/-- One call under way, and the place in it if that is known. -/
structure Call where
  label : String
  position : Option Position
deriving DecidableEq, Repr

def Call.text (source : String) (call : Call) : String :=
  match call.position with
  | some position => s!"  File {source}, line {position.line}, in {call.label}\n"
  | none => s!"  File {source}, in {call.label}\n"

/-- The outermost call comes first; faults found before evaluation have no calls. -/
structure Diagnostic where
  fault : Fault
  span : Span
  traceback : List Call
  sourceName : Option String
  sourceLine : Option String
deriving DecidableEq, Repr

namespace Diagnostic

def of (fault : Fault) (span : Span) (traceback : List Call) : Diagnostic :=
  ⟨fault, span, traceback, none, none⟩

def category (diagnostic : Diagnostic) : Fault.Category :=
  diagnostic.fault.category

def isRuntime (diagnostic : Diagnostic) : Bool :=
  diagnostic.category = .runtime

/-- Names the source and keeps the line the region starts on. A region on line nought has no place
in any source and leaves the line alone. -/
def withSource (diagnostic : Diagnostic) (name source : String) : Diagnostic :=
  let line := diagnostic.span.start.line
  { diagnostic with
    sourceName := some name
    sourceLine := if line = 0 then diagnostic.sourceLine else Text.line? source line }

def excerpt (diagnostic : Diagnostic) : Option String :=
  diagnostic.sourceLine.map fun line =>
    let indent := "".pushn ' ' (diagnostic.span.start.column - 1)
    s!"  | {line}\n  | {indent}^"

def summary (diagnostic : Diagnostic) : String :=
  s!"{diagnostic.category.text}: {diagnostic.fault.message} ({diagnostic.span.start.text})"

/-- Only a runtime error shows its calls, and it shows the heading even without any. -/
def message (diagnostic : Diagnostic) : String :=
  if diagnostic.isRuntime then
    let source := diagnostic.sourceName.getD "<unknown>"
    let calls := String.join (diagnostic.traceback.map (Call.text source))
    "Traceback (most recent call last):\n" ++ calls ++ diagnostic.summary
  else diagnostic.summary

end Diagnostic

/-- A diagnostic and the number of tokens that had been taken when it was made. -/
structure Attempt where
  diagnostic : Diagnostic
  reached : Nat
deriving DecidableEq, Repr

/-- Of two attempts the one that got further; of two that got equally far, the second. -/
def Attempt.furthest (first second : Attempt) : Attempt :=
  if first.reached ≤ second.reached then second else first

end Reckon

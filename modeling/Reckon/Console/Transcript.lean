import Reckon.Console.Terminal
import Reckon.Session

/-! What goes to the two output streams, and how values and diagnostics are shown there. -/
namespace Reckon.Console

structure Transcript where
  output : String
  errors : String
deriving DecidableEq, Repr

namespace Transcript

def empty : Transcript := ⟨"", ""⟩

def ofOutput (text : String) : Transcript := ⟨text, ""⟩

def ofErrors (text : String) : Transcript := ⟨"", text⟩

instance : Append Transcript :=
  ⟨fun first second => ⟨first.output ++ second.output, first.errors ++ second.errors⟩⟩

/-- No value shows nothing. -/
def ofValue (terminal : Terminal) : Option Value → Transcript
  | none => empty
  | some value =>
    ofOutput (terminal.paint .dimmed "=>" ++ " " ++ terminal.paint .cyan value.text ++ "\n")

def ofDiagnostic (terminal : Terminal) (diagnostic : Diagnostic) : Transcript :=
  let message := terminal.paint .red diagnostic.message ++ "\n"
  match diagnostic.excerpt with
  | some excerpt => ofErrors (message ++ terminal.paint .dimmed excerpt ++ "\n")
  | none => ofErrors message

def ofOutcome (terminal : Terminal) : Except Diagnostic (Option Value) → Transcript
  | .ok value => ofValue terminal value
  | .error diagnostic => ofDiagnostic terminal diagnostic

end Transcript

end Reckon.Console

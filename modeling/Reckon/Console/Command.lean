import Reckon.Console.Dialogue

/-! Commands: what the arguments ask for, and what is printed for them. -/
namespace Reckon.Console

inductive Command where
  | dialogue
  | evaluate (sources : List String)
  | help
  | version
  | unknown (word : String)
deriving DecidableEq, Repr

namespace Command

def ofArguments : List String → Command
  | [] => .dialogue
  | word :: rest =>
    if word = "repl" then .dialogue
    else if word = "eval" then .evaluate rest
    else if word ∈ ["help", "--help", "-h"] then .help
    else if word ∈ ["version", "--version", "-v"] then .version
    else .unknown word

/-- Sources share one session, and the first that fails ends the run. -/
def evaluateAll (terminal : Terminal) (session : Session) : List String → Transcript × UInt32
  | [] => (.empty, 0)
  | source :: rest =>
    let (report, next) := session.evaluate source
    let transcript := Transcript.ofOutcome terminal report.outcome
    match report.outcome with
    | .error _ => (transcript, 1)
    | .ok _ =>
      let (later, code) := evaluateAll terminal next rest
      (transcript ++ later, code)

/-- Everything printed and the exit code, for the whole of the standard input. -/
def execute (terminal : Terminal) (input : String) : Command → Transcript × UInt32
  | .dialogue =>
    (.ofOutput (Help.banner terminal) ++
      Dialogue.run terminal (.ofSettings .standard) (Text.lines input), 0)
  | .evaluate [] => (.ofErrors (Help.missingExpression terminal), 1)
  | .evaluate sources => evaluateAll terminal (.ofSettings .standard) sources
  | .help => (.ofOutput (Help.usage terminal), 0)
  | .version => (.ofOutput Help.versionLine, 0)
  | .unknown word => (⟨Help.usage terminal, Help.unknownCommand terminal word⟩, 1)

/-- With the usual terminal, coloured or not. -/
def run (coloured : Bool) (input : String) (command : Command) : Transcript × UInt32 :=
  command.execute (.standard coloured) input

end Command

end Reckon.Console

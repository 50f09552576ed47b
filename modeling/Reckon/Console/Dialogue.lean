import Reckon.Console.Help
import Reckon.Console.Transcript
import Reckon.Text.Blank

/-!
Dialogues: a session that answers line by line. A few lines are commands; every other line is
evaluated, and names stay bound from line to line.
-/
namespace Reckon.Console.Dialogue

/-- What a line asks for, without the blanks around it. -/
def request (terminal : Terminal) (line : String) : String :=
  String.ofList (Text.trimmed (terminal.read line).toList)

/-- The answer to a request, and the session for the next one unless the dialogue is over. -/
def answer (terminal : Terminal) (session : Session) (request : String) :
    Transcript × Option Session :=
  if request = "" then (.empty, some session)
  else if request = "exit" ∨ request = "quit" then (.ofOutput (Help.goodbye terminal), none)
  else if request = "help" then (.ofOutput (Help.commands terminal), some session)
  else if request = "clear" then (.ofOutput (Help.cleared terminal), some session.reset)
  else
    let (report, next) := session.evaluate request
    (.ofOutcome terminal report.outcome, some next)

def run (terminal : Terminal) (session : Session) : List String → Transcript
  | [] => .ofOutput (Help.goodbye terminal)
  | line :: rest =>
    match answer terminal session (request terminal line) with
    | (transcript, none) => transcript
    | (transcript, some next) => transcript ++ run terminal next rest

end Reckon.Console.Dialogue

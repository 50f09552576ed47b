import Reckon.Console.Command

/-! The command line program. A dialogue is answered line by line as its input arrives. -/
namespace Reckon.Console

def Transcript.print (transcript : Transcript) : IO Unit := do
  let output ← IO.getStdout
  output.putStr transcript.output
  output.flush
  (← IO.getStderr).putStr transcript.errors

/-- Forcing comes before forbidding, and without either only a terminal is coloured. -/
def wantsColour : IO Bool := do
  let forced ← IO.getEnv "CLICOLOR_FORCE"
  let forbidden ← IO.getEnv "NO_COLOR"
  let allowed ← IO.getEnv "CLICOLOR"
  if forced.any (· ≠ "0") then return true
  else if forbidden.isSome then return false
  else return allowed.all (· ≠ "0") && (← (← IO.getStdout).isTty)

partial def converse (terminal : Terminal) (session : Session) : IO Unit := do
  let line ← (← IO.getStdin).getLine
  if line.isEmpty then (Transcript.ofOutput (Help.goodbye terminal)).print
  else
    let (transcript, next) := Dialogue.answer terminal session (Dialogue.request terminal line)
    transcript.print
    match next with
    | some session => converse terminal session
    | none => return

def start (arguments : List String) : IO UInt32 := do
  let terminal := Terminal.standard (← wantsColour)
  match Command.ofArguments arguments with
  | .dialogue =>
    (Transcript.ofOutput (Help.banner terminal)).print
    converse terminal (.ofSettings .standard)
    return 0
  | command =>
    let (transcript, code) := command.execute terminal ""
    transcript.print
    return code

end Reckon.Console

def main (arguments : List String) : IO UInt32 := Reckon.Console.start arguments

import Reckon.Console.Terminal

/-! The fixed texts of the command line. -/
namespace Reckon.Console.Help

variable (terminal : Terminal)

def name : String := "Blanket"

def version : String := "0.1.0"

def tagline : String := "A tiny expression language"

def features : String :=
  terminal.paint .yellow "LANGUAGE FEATURES:" ++ "\n" ++
  "  1 + 2 * 3                Arithmetic, ^ for powers\n" ++
  "  sclr x = 10              Variable binding\n" ++
  "  x >= 5 and not x == 7    Comparison and logic\n" ++
  "  if x > 5 then 1 elif x > 0 then 2 else 3\n" ++
  "                           Conditional expression\n"

def usage : String :=
  terminal.paint .boldCyan name ++ "\n" ++
  tagline ++ "\n" ++
  terminal.paint .cyan "Version" ++ " " ++ version ++ "\n\n" ++
  terminal.paint .yellow "USAGE:" ++ "\n" ++
  "  blanket                  Start interactive REPL\n" ++
  "  blanket repl             Start interactive REPL\n" ++
  "  blanket eval <expr>...   Evaluate expressions in one session\n" ++
  "  blanket help             Show this help message\n" ++
  "  blanket version          Show version\n\n" ++
  terminal.paint .yellow "EXAMPLES:" ++ "\n" ++
  "  blanket eval \"sclr x = 4\" \"x ^ 2\"\n" ++
  "  RUST_LOG=blanket=debug blanket repl\n\n" ++
  features terminal

def commands : String :=
  terminal.paint .yellow "REPL Commands:" ++ "\n" ++
  "  exit, quit   Exit the REPL\n" ++
  "  clear        Forget all variables\n" ++
  "  help         Show this help\n\n" ++
  features terminal

def banner : String :=
  terminal.paint .boldCyan name ++ " " ++ terminal.paint .cyan version ++ " - " ++
  terminal.paint .dimmed tagline ++ "\n" ++
  "Type " ++ terminal.paint .yellow "exit" ++ " to exit, " ++
  terminal.paint .yellow "help" ++ " for help\n\n"

def versionLine : String := name ++ " " ++ version ++ "\n"

def goodbye : String :=
  terminal.paint .cyan "Goodbye!" ++ "\n"

def cleared : String :=
  terminal.paint .dimmed "State cleared." ++ "\n"

def missingExpression : String :=
  terminal.paint .red "error" ++ ": missing expression\nUsage: blanket eval <expr>...\n"

def unknownCommand (command : String) : String :=
  terminal.paint .red "error" ++ ": unknown command '" ++ command ++ "'\n"

end Reckon.Console.Help

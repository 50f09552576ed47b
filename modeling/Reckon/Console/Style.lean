/-! Coloured pieces of terminal output. -/
namespace Reckon.Console

inductive Style where
  | red | yellow | cyan | dimmed | boldCyan
deriving DecidableEq, Repr

namespace Style

def code : Style → String
  | .red => "31"
  | .yellow => "33"
  | .cyan => "36"
  | .dimmed => "2"
  | .boldCyan => "1;36"

def opening (style : Style) : String := s!"\x1b[{style.code}m"

def reset : String := "\x1b[0m"

/-- A reset inside the text would end the style early, so the style opens again behind it. -/
def paint (style : Style) (coloured : Bool) (text : String) : String :=
  if coloured then style.opening ++ text.replace reset (reset ++ style.opening) ++ reset else text

end Style

end Reckon.Console

import Reckon.Console.Style
import Reckon.Text.Typed

/-!
What the command line leaves to the terminal: how a line of input is read, and how a piece of output is
painted. Nothing else of a terminal reaches a dialogue.
-/
namespace Reckon.Console

structure Terminal where
  read : String → String
  paint : Style → String → String

namespace Terminal

/-- A line without a backspace is read as it stands. -/
def ReadsAsItStands (terminal : Terminal) : Prop :=
  ∀ line : String, '\x08' ∉ line.toList → terminal.read line = line

/-- Every text is left as it stands, whatever its style. -/
def IsPlain (terminal : Terminal) : Prop :=
  ∀ style text, terminal.paint style text = text

/-- The usual terminal: backspaces are carried out, and colour is an escape sequence around a text. -/
def standard (coloured : Bool) : Terminal where
  read line := String.ofList (Text.typed line.toList)
  paint style := style.paint coloured

theorem standard_readsAsItStands (coloured : Bool) : (standard coloured).ReadsAsItStands := by
  intro line absent
  change String.ofList (Text.typed line.toList) = line
  rw [Text.typed_of_not_mem absent, String.ofList_toList]

theorem standard_isPlain : (standard false).IsPlain :=
  fun _ _ => rfl

end Terminal

end Reckon.Console

import Reckon.Context
import Reckon.Number

/-! Values: a number, the region it came from and the context it was made in, when there are any. -/
namespace Reckon

structure Value where
  number : Float
  span : Option Span
  context : Option Context
deriving DecidableEq

namespace Value

def ofNumber (number : Float) : Value := ⟨number, none, none⟩

def withSpan (value : Value) (span : Span) : Value := { value with span := some span }

def withContext (value : Value) (context : Context) : Value :=
  { value with context := some context }

/-- The number alone, which is what a table keeps of an assigned value. -/
def detached (value : Value) : Value := ofNumber value.number

def isTruthy (value : Value) : Bool := Number.isTruthy value.number

/-- Equality of numbers, whatever their origin. -/
def sameNumber (first second : Value) : Bool := first.number == second.number

/-- The sign of a zero is not shown. -/
def text (value : Value) : String :=
  if value.number == 0.0 then "0" else Number.text value.number

end Value

end Reckon

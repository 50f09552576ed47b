import Reckon.Diagnostic

/-!
Execution contexts. A context knows the context it was entered from and the place of entry, so it
is the whole chain of calls under way; its names live in a table of a store.
-/
namespace Reckon

/-- The table of a name, and the tables asked when that one does not have it, nearest first. -/
abbrev Scope := List Nat

inductive Context where
  | root (label : String) (table : Nat)
  | child (parent : Context) (label : String) (entry : Position) (table : Nat)
deriving DecidableEq, Repr

namespace Context

def label : Context → String
  | .root label _ => label
  | .child _ label _ _ => label

def table : Context → Nat
  | .root _ table => table
  | .child _ _ _ table => table

def scope : Context → Scope
  | .root _ table => [table]
  | .child parent _ _ table => table :: parent.scope

/-- The calls from the outermost context down to this one, at the given place in it. Every other
call stands where the next context was entered. -/
def traceback (position : Position) : Context → List Call
  | .root label _ => [⟨label, some position⟩]
  | .child parent label entry _ => parent.traceback entry ++ [⟨label, some position⟩]

end Context

end Reckon

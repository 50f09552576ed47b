import Reckon.Value

/-! Tables of names and values. A scope falls back from table to table, a write stays in one. -/
namespace Reckon

/-- What one table holds, every name once. -/
structure Bindings where
  entries : List (String × Value)
deriving DecidableEq

namespace Bindings

def empty : Bindings := ⟨[]⟩

def get? (bindings : Bindings) (name : String) : Option Value :=
  bindings.entries.lookup name

def set (bindings : Bindings) (name : String) (value : Value) : Bindings :=
  ⟨(name, value) :: bindings.entries.filter fun entry => entry.1 != name⟩

@[simp] theorem get?_empty (name : String) : empty.get? name = none := rfl

private theorem lookup_filter_bne (entries : List (String × Value)) {name other : String}
    (different : other ≠ name) :
    (entries.filter fun entry => entry.1 != name).lookup other = entries.lookup other := by
  induction entries with
  | nil => rfl
  | cons entry rest ih =>
    obtain ⟨key, value⟩ := entry
    by_cases same : key = name
    · subst same
      have absent : (other == key) = false := beq_false_of_ne different
      simp only [List.filter_cons, bne_self_eq_false, Bool.false_eq_true, if_false, ih,
        List.lookup_cons, absent]
    · have kept : (key != name) = true := bne_iff_ne.mpr same
      simp only [List.filter_cons, kept, if_true, List.lookup_cons, ih]

theorem get?_set (bindings : Bindings) (name other : String) (value : Value) :
    (bindings.set name value).get? other =
      if other = name then some value else bindings.get? other := by
  simp only [get?, set, List.lookup_cons]
  by_cases same : other = name
  · simp only [same, beq_self_eq_true, if_true]
  · have absent : (other == name) = false := beq_false_of_ne same
    simp only [absent, same, if_false]
    exact lookup_filter_bne bindings.entries same

end Bindings

/-- Tables are numbered from nought in the order they were made. -/
structure Store where
  tables : List Bindings
deriving DecidableEq

namespace Store

def empty : Store := ⟨[]⟩

def table (store : Store) (number : Nat) : Bindings :=
  store.tables.getD number .empty

def enter (store : Store) (outer : Scope) : Scope × Store :=
  (store.tables.length :: outer, ⟨store.tables ++ [.empty]⟩)

def set (store : Store) (number : Nat) (name : String) (value : Value) : Store :=
  ⟨store.tables.modify number fun bindings => bindings.set name value⟩

theorem table_set (store : Store) (number other : Nat) (name : String) (value : Value)
    (present : number < store.tables.length) :
    (store.set number name value).table other =
      if other = number then (store.table number).set name value else store.table other := by
  simp only [table, set, List.getD_eq_getElem?_getD, List.getElem?_modify]
  by_cases same : other = number
  · subst same
    simp only [if_true, List.getElem?_eq_getElem present, Option.map_eq_map, Option.map_some,
      Option.getD_some]
  · have apart : ¬ number = other := fun equal => same equal.symm
    simp only [same, apart, if_false, Option.map_eq_map, Option.map_id']

/-- A table that is not there yet is as empty as a new one. -/
theorem table_enter (store : Store) (outer : Scope) (number : Nat) :
    (store.enter outer).2.table number = store.table number := by
  simp only [table, enter, List.getD_eq_getElem?_getD]
  by_cases inside : number < store.tables.length
  · rw [List.getElem?_append_left inside]
  · rw [List.getElem?_append_right (Nat.le_of_not_lt inside),
      List.getElem?_eq_none (Nat.le_of_not_lt inside)]
    cases number - store.tables.length with
    | zero => rfl
    | succ _ => rfl

def find? (store : Store) (scope : Scope) (name : String) : Option Value :=
  scope.findSome? fun number => (store.table number).get? name

end Store

namespace Context

def openRoot (store : Store) (label : String) : Context × Store :=
  (.root label store.tables.length, (store.enter []).2)

def openChild (store : Store) (parent : Context) (label : String) (entry : Position) :
    Context × Store :=
  (.child parent label entry store.tables.length, (store.enter parent.scope).2)

def lookup (context : Context) (store : Store) (name : String) : Option Value :=
  store.find? context.scope name

/-- The value is stored detached, so no table holds a context. -/
def assign (context : Context) (store : Store) (name : String) (value : Value) : Store :=
  store.set context.table name value.detached

end Context

end Reckon

import Reckon.Store

/-!
Forests of contexts: root contexts and contexts entered from earlier ones, each with a table of its own
that may hold anything. A sequence of writes reaches one table only.
-/
namespace Reckon

structure Write where
  name : String
  number : Float
deriving DecidableEq

def Bindings.overwrite (bindings : Bindings) (writes : List Write) : Bindings :=
  writes.foldl (fun table write => table.set write.name (.ofNumber write.number)) bindings

theorem Bindings.get?_overwrite {bindings : Bindings} {writes : List Write} {name : String}
    (absent : name ∉ writes.map Write.name) :
    (bindings.overwrite writes).get? name = bindings.get? name := by
  induction writes generalizing bindings with
  | nil => rfl
  | cons write writes ih =>
    simp only [List.map_cons, List.mem_cons, not_or] at absent
    have rest : ((bindings.set write.name (.ofNumber write.number)).overwrite writes).get? name =
        (bindings.set write.name (.ofNumber write.number)).get? name := ih absent.2
    change ((bindings.set write.name (.ofNumber write.number)).overwrite writes).get? name = _
    rw [rest, get?_set, if_neg absent.1]

namespace Store

def overwrite (store : Store) (number : Nat) (writes : List Write) : Store :=
  writes.foldl (fun store write => store.set number write.name (.ofNumber write.number)) store

theorem overwrite_append (store : Store) (number : Nat) (first second : List Write) :
    store.overwrite number (first ++ second) =
      (store.overwrite number first).overwrite number second :=
  List.foldl_append

@[simp] theorem length_set (store : Store) (number : Nat) (name : String) (value : Value) :
    (store.set number name value).tables.length = store.tables.length := by
  simp [set]

theorem table_overwrite (store : Store) {number : Nat} (other : Nat) (writes : List Write)
    (present : number < store.tables.length) :
    (store.overwrite number writes).table other =
      if other = number then (store.table number).overwrite writes else store.table other := by
  induction writes generalizing store with
  | nil =>
    split
    · rename_i same
      rw [same]
      rfl
    · rfl
  | cons write writes ih =>
    have rest := ih (store.set number write.name (.ofNumber write.number)) (by simpa using present)
    rw [table_set _ _ _ _ _ present, table_set _ _ _ _ _ present, if_pos rfl] at rest
    refine rest.trans ?_
    split
    · rfl
    · rfl

theorem find?_congr {first second : Store} {scope : Scope} {name : String}
    (same : ∀ number, (first.table number).get? name = (second.table number).get? name) :
    first.find? scope name = second.find? scope name := by
  simp only [find?, same]

end Store

/-- A name is looked up in the table it is assigned in before it is looked up anywhere else. -/
theorem Context.lookup_assign (context : Context) {store : Store} (name other : String)
    (value : Value) (present : context.table < store.tables.length) :
    context.lookup (context.assign store name value) other =
      if other = name then some value.detached else context.lookup store other := by
  obtain ⟨outer, scope⟩ : ∃ outer, context.scope = context.table :: outer := by
    cases context with
    | root label table => exact ⟨[], rfl⟩
    | child parent label entry table => exact ⟨parent.scope, rfl⟩
  split
  · rename_i same
    simp only [lookup, assign, Store.find?, scope, List.findSome?_cons,
      Store.table_set _ _ _ _ _ present, Bindings.get?_set, same, if_true]
  · rename_i different
    refine Store.find?_congr fun number => ?_
    rw [assign, Store.table_set _ _ _ _ _ present]
    split
    · rename_i same
      rw [Bindings.get?_set, if_neg different, same]
    · rfl

/-- Contexts in the order in which they were entered, the last one first. -/
inductive Forest : List Context → Store → Prop
  | empty : Forest [] .empty
  | root {contexts : List Context} {store : Store} (forest : Forest contexts store)
      (label : String) :
      Forest ((Context.openRoot store label).1 :: contexts) (Context.openRoot store label).2
  | child {contexts : List Context} {store : Store} {parent : Context}
      (forest : Forest contexts store) (member : parent ∈ contexts) (label : String)
      (entry : Position) :
      Forest ((Context.openChild store parent label entry).1 :: contexts)
        (Context.openChild store parent label entry).2
  | bind {contexts : List Context} {store : Store} {context : Context}
      (forest : Forest contexts store) (member : context ∈ contexts) (name : String)
      (value : Value) : Forest contexts (store.set context.table name value)

namespace Forest

variable {contexts : List Context} {store : Store}

theorem table_lt (forest : Forest contexts store) :
    ∀ context ∈ contexts, context.table < store.tables.length := by
  induction forest with
  | empty => nofun
  | root forest label ih | child forest member label entry ih =>
    intro context inside
    rcases List.mem_cons.mp inside with rfl | earlier
    · simp [Context.openRoot, Context.openChild, Context.table, Store.enter]
    · have bound := ih context earlier
      simp only [Context.openRoot, Context.openChild, Store.enter, List.length_append]
      omega
  | bind forest member name value ih =>
    intro context inside
    rw [Store.length_set]
    exact ih context inside

theorem eq_of_table (forest : Forest contexts store) :
    ∀ first ∈ contexts, ∀ second ∈ contexts, first.table = second.table → first = second := by
  induction forest with
  | empty => nofun
  | root forest label ih | child forest member label entry ih =>
    -- The table of the new context is numbered behind those of all earlier ones.
    intro first inside second inside' same
    rcases List.mem_cons.mp inside with rfl | earlier
    · rcases List.mem_cons.mp inside' with rfl | earlier'
      · rfl
      · exact absurd same (Nat.ne_of_gt (forest.table_lt second earlier'))
    · rcases List.mem_cons.mp inside' with rfl | earlier'
      · exact absurd same (Nat.ne_of_lt (forest.table_lt first earlier))
      · exact ih first earlier second earlier' same
  | bind forest member name value ih => exact ih

theorem overwrite (forest : Forest contexts store) {context : Context} (member : context ∈ contexts)
    (writes : List Write) : Forest contexts (store.overwrite context.table writes) := by
  induction writes generalizing store with
  | nil => exact forest
  | cons write writes ih => exact ih (forest.bind member write.name (.ofNumber write.number))

end Forest

end Reckon

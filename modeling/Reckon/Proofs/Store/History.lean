import Mathlib.Data.List.Induction
import Mathlib.Data.List.Nodup
import Reckon.Proofs.Evaluation.Effect

/-!
Histories of forests. Contexts are opened, assigned in and evaluated in, in any order; what a name is looked
up to afterwards is read off the writes that were made, without the tables.
-/
namespace Reckon

/-- The number of the last write to a name. -/
def Write.latest? (name : String) (writes : List Write) : Option Float :=
  (writes.reverse.find? fun write => write.name = name).map Write.number

theorem Write.latest?_append (name : String) (first second : List Write) :
    latest? name (first ++ second) = (latest? name second).or (latest? name first) := by
  simp only [latest?, List.reverse_append, List.find?_append, Option.map_or]

namespace Bindings

private theorem overwrite_concat (bindings : Bindings) (writes : List Write) (write : Write) :
    bindings.overwrite (writes ++ [write]) =
      (bindings.overwrite writes).set write.name (.ofNumber write.number) := by
  simp [overwrite]

/-- A table that was overwritten has the last write to a name, or else what it had before. -/
theorem get?_overwrite_latest (bindings : Bindings) (writes : List Write) (name : String) :
    (bindings.overwrite writes).get? name =
      ((Write.latest? name writes).map .ofNumber).or (bindings.get? name) := by
  induction writes using List.reverseRecOn with
  | nil => rfl
  | append_singleton writes write ih =>
    rw [overwrite_concat, get?_set, Write.latest?_append, ih]
    by_cases same : name = write.name
    · simp [Write.latest?, same]
    · simp [Write.latest?, same, Ne.symm same]

/-- No value of the table tells where it was made. -/
def Detached (bindings : Bindings) : Prop :=
  ∀ entry ∈ bindings.entries, entry.2.span = none ∧ entry.2.context = none

private theorem detached_empty : empty.Detached :=
  fun _ member => absurd member List.not_mem_nil

private theorem Detached.overwrite {bindings : Bindings} (detached : bindings.Detached)
    (writes : List Write) : (bindings.overwrite writes).Detached := by
  induction writes using List.reverseRecOn with
  | nil => exact detached
  | append_singleton writes write ih =>
    rw [overwrite_concat]
    intro entry member
    rcases List.mem_cons.mp member with rfl | earlier
    · exact ⟨rfl, rfl⟩
    · exact ih entry (List.mem_filter.mp earlier).1

end Bindings

namespace Context

def parent? : Context → Option Context
  | .root _ _ => none
  | .child parent _ _ _ => some parent

/-- The context, the one it was entered from, and so on up to a root. -/
def lineage : Context → List Context
  | .root label table => [.root label table]
  | .child parent label entry table => .child parent label entry table :: parent.lineage

private theorem scope_eq_lineage (context : Context) :
    context.scope = context.lineage.map table := by
  induction context with
  | root label table => rfl
  | child parent label entry table ih => simp [scope, lineage, ih, Context.table]

/-- Contexts further up are smaller. -/
private theorem lineage_smaller {context ancestor : Context} (above : ancestor ∈ context.lineage) :
    ancestor = context ∨ sizeOf ancestor < sizeOf context := by
  induction context with
  | root label table => exact .inl (List.mem_singleton.mp above)
  | child parent label entry table ih =>
    rcases List.mem_cons.mp above with same | further
    · exact .inl same
    · right
      rcases ih further with rfl | smaller
      · simp
        omega
      · simp
        omega

private theorem eq_of_mem_lineage {first second : Context} (above : first ∈ second.lineage)
    (below : second ∈ first.lineage) : first = second := by
  rcases lineage_smaller above with same | smaller
  · exact same
  · rcases lineage_smaller below with same | smaller'
    · exact same.symm
    · omega

/-- Neither a context entered from here or further down, nor another one with the same parent. -/
private theorem not_mem_lineage {context other : Context} (different : other ≠ context)
    (related : context ∈ other.lineage ∨ other.parent? = context.parent?) :
    other ∉ context.lineage := by
  intro above
  rcases related with below | siblings
  · exact different (eq_of_mem_lineage above below)
  · cases context with
    | root label table => exact different (List.mem_singleton.mp above)
    | child parent label entry table =>
      cases other with
      | root label' table' => cases siblings
      | child parent' label' entry' table' =>
        obtain rfl : parent' = parent := Option.some.inj siblings
        rcases List.mem_cons.mp above with same | further
        · exact different same
        · rcases lineage_smaller further with same | smaller
          · have equal := congrArg sizeOf same
            simp at equal
            omega
          · simp at smaller
            omega

/-- The writes of a log that were made in the context. -/
def writesIn (context : Context) (log : List (Context × Write)) : List Write :=
  (log.filter fun entry => entry.1 = context).map Prod.snd

/-- The number of the last write to a name that was made in the context. -/
def latest? (context : Context) (log : List (Context × Write)) (name : String) : Option Float :=
  Write.latest? name (context.writesIn log)

private theorem writesIn_append (context other : Context) (log : List (Context × Write))
    (writes : List Write) :
    context.writesIn (log ++ writes.map fun write => (other, write)) =
      context.writesIn log ++ if context = other then writes else [] := by
  by_cases same : context = other
  · simp [writesIn, same, List.filter_map, Function.comp_def]
  · simp [writesIn, same, Ne.symm same, List.filter_map, Function.comp_def]

private theorem latest?_self (context : Context) (log : List (Context × Write))
    (writes : List Write) (name : String) :
    context.latest? (log ++ writes.map fun write => (context, write)) name =
      (Write.latest? name writes).or (context.latest? log name) := by
  rw [latest?, writesIn_append, if_pos rfl, Write.latest?_append]
  rfl

private theorem latest?_other {context other : Context} (different : context ≠ other)
    (log : List (Context × Write)) (writes : List Write) (name : String) :
    context.latest? (log ++ writes.map fun write => (other, write)) name =
      context.latest? log name := by
  rw [latest?, writesIn_append, if_neg different, List.append_nil]
  rfl

/-- From the context upwards, the first that a name was ever written in gives its last number there. -/
def nearest? (context : Context) (log : List (Context × Write)) (name : String) : Option Float :=
  context.lineage.findSome? fun owner => owner.latest? log name

private theorem findSome?_congr {α : Type} {lineage : List Context}
    {first second : Context → Option α} (same : ∀ owner ∈ lineage, first owner = second owner) :
    lineage.findSome? first = lineage.findSome? second := by
  rw [← List.head?_filterMap, ← List.head?_filterMap, List.filterMap_congr same]

private theorem nearest?_outside {context other : Context} (outside : other ∉ context.lineage)
    (log : List (Context × Write)) (writes : List Write) (name : String) :
    context.nearest? (log ++ writes.map fun write => (other, write)) name =
      context.nearest? log name := by
  apply findSome?_congr
  intro owner above
  apply latest?_other
  rintro rfl
  exact outside above

private theorem nearest?_above {context ancestor : Context} {nearer outer : List Context}
    (split : context.lineage = nearer ++ ancestor :: outer)
    (distinct : context.lineage.Nodup) (log : List (Context × Write)) (writes : List Write)
    (name : String) :
    context.nearest? (log ++ writes.map fun write => (ancestor, write)) name =
      if nearer.any fun closer => (closer.latest? log name).isSome then context.nearest? log name
      else (Write.latest? name writes).or (context.nearest? log name) := by
  rw [split] at distinct
  have apart := (List.nodup_cons.mp (List.nodup_middle.mp distinct)).1
  have kept : ∀ owner ∈ nearer ++ outer, owner.latest?
      (log ++ writes.map fun write => (ancestor, write)) name = owner.latest? log name := by
    intro owner inside
    apply latest?_other
    rintro rfl
    exact apart inside
  have before := findSome?_congr fun owner inside => kept owner (List.mem_append_left outer inside)
  have behind := findSome?_congr fun owner inside => kept owner (List.mem_append_right nearer inside)
  rw [← List.isSome_findSome?]
  simp only [nearest?, split, List.findSome?_append, List.findSome?_cons, before, behind, latest?_self]
  cases nearer.findSome? fun owner => owner.latest? log name with
  | some number => rfl
  | none =>
    -- No nearer context has the name, so the ancestor is asked, and what it was given last comes first.
    cases Write.latest? name writes with
    | none => rfl
    | some number => rfl

end Context

/-- Contexts in the order in which they were opened, the last one first, and the tables of all of them. -/
structure World where
  contexts : List Context
  store : Store

inductive Action where
  | openRoot (label : String)
  | openChild (parent : Context) (label : String) (entry : Position)
  | assign (context : Context) (name : String) (value : Value)
  | evaluate (context : Context) (expr : Expr) (limit : Nat)

/-- The context that an action is done in. -/
def Action.context? : Action → Option Context
  | .openRoot _ => none
  | .openChild context _ _ | .assign context _ _ | .evaluate context _ _ => some context

namespace World

def empty : World := ⟨[], .empty⟩

def act (world : World) : Action → World
  | .openRoot label =>
    let (context, store) := Context.openRoot world.store label
    ⟨context :: world.contexts, store⟩
  | .openChild parent label entry =>
    let (context, store) := Context.openChild world.store parent label entry
    ⟨context :: world.contexts, store⟩
  | .assign context name value => ⟨world.contexts, context.assign world.store name value⟩
  | .evaluate context expr limit => ⟨world.contexts, (expr.run context limit world.store).2⟩

/-- What an action writes, in order. A failed evaluation has written what it completed. -/
def writes (world : World) : Action → List Write
  | .openRoot _ | .openChild _ _ _ => []
  | .assign _ name value => [⟨name, value.number⟩]
  | .evaluate context expr limit => expr.writes context limit 1 world.store

def entries (world : World) (action : Action) : List (Context × Write) :=
  match action.context? with
  | some context => (world.writes action).map fun write => (context, write)
  | none => []

end World

/-- Worlds that actions lead to, with a log of the writes. An action is done in a context that has been
opened. -/
inductive History : World → List (Context × Write) → Prop
  | start : History .empty []
  | act {world : World} {log : List (Context × Write)} (history : History world log)
      (action : Action) (known : ∀ context ∈ action.context?, context ∈ world.contexts) :
      History (world.act action) (log ++ world.entries action)

namespace Forest

variable {contexts : List Context} {store : Store}

private theorem lineage_subset (forest : Forest contexts store) :
    ∀ context ∈ contexts, ∀ ancestor ∈ context.lineage, ancestor ∈ contexts := by
  induction forest with
  | empty => nofun
  | root forest label ih =>
    intro context inside ancestor above
    rcases List.mem_cons.mp inside with rfl | earlier
    · exact List.mem_singleton.mp above ▸ List.mem_cons_self
    · exact List.mem_cons_of_mem _ (ih context earlier ancestor above)
  | child forest member label entry ih =>
    intro context inside ancestor above
    rcases List.mem_cons.mp inside with rfl | earlier
    · rcases List.mem_cons.mp above with rfl | further
      · exact List.mem_cons_self
      · exact List.mem_cons_of_mem _ (ih _ member ancestor further)
    · exact List.mem_cons_of_mem _ (ih context earlier ancestor above)
  | bind forest member name value ih => exact ih

/-- A table falls back to tables that were made before it. -/
private theorem scope_descending (forest : Forest contexts store) :
    ∀ context ∈ contexts, context.scope.Pairwise (· > ·) := by
  induction forest with
  | empty => nofun
  | root forest label ih =>
    intro context inside
    rcases List.mem_cons.mp inside with rfl | earlier
    · exact List.pairwise_singleton _ _
    · exact ih context earlier
  | child forest member label entry ih =>
    intro context inside
    rcases List.mem_cons.mp inside with rfl | earlier
    · refine List.pairwise_cons.mpr ⟨?_, ih _ member⟩
      intro number outer
      rw [Context.scope_eq_lineage] at outer
      obtain ⟨ancestor, above, rfl⟩ := List.mem_map.mp outer
      exact forest.table_lt ancestor (forest.lineage_subset _ member ancestor above)
    · exact ih context earlier
  | bind forest member name value ih => exact ih

end Forest

/-- Tables and log tell the same: every table holds what was written in its context, in order. -/
structure Recorded (world : World) (log : List (Context × Write)) : Prop where
  forest : Forest world.contexts world.store
  known : ∀ entry ∈ log, entry.1 ∈ world.contexts
  table : ∀ context ∈ world.contexts,
    world.store.table context.table = Bindings.empty.overwrite (context.writesIn log)

namespace Recorded

variable {world : World} {log : List (Context × Write)}

private theorem openContext (recorded : Recorded world log) {context : Context} {store : Store}
    (forest : Forest (context :: world.contexts) store)
    (fresh : context.table = world.store.tables.length)
    (kept : ∀ number, store.table number = world.store.table number) :
    Recorded ⟨context :: world.contexts, store⟩ log where
  forest := forest
  known entry member := List.mem_cons_of_mem _ (recorded.known entry member)
  table other inside := by
    rw [kept]
    rcases List.mem_cons.mp inside with rfl | earlier
    · -- Nothing can have been written in a context that had no table.
      have unwritten : other.writesIn log = [] := by
        rw [Context.writesIn, List.map_eq_nil_iff, List.filter_eq_nil_iff]
        intro entry member same
        have bound := recorded.forest.table_lt entry.1 (recorded.known entry member)
        rw [of_decide_eq_true same, fresh] at bound
        exact Nat.lt_irrefl _ bound
      rw [unwritten, Store.table, fresh, List.getD_eq_getElem?_getD,
        List.getElem?_eq_none (Nat.le_refl _)]
      rfl
    · exact recorded.table other earlier

private theorem overwrite (recorded : Recorded world log) {context : Context}
    (member : context ∈ world.contexts) (writes : List Write) :
    Recorded ⟨world.contexts, world.store.overwrite context.table writes⟩
      (log ++ writes.map fun write => (context, write)) where
  forest := recorded.forest.overwrite member writes
  known entry inside := by
    rcases List.mem_append.mp inside with earlier | written
    · exact recorded.known entry earlier
    · obtain ⟨write, _, rfl⟩ := List.mem_map.mp written
      exact member
  table other inside := by
    have present := recorded.forest.table_lt context member
    rw [Store.table_overwrite world.store other.table writes present, Context.writesIn_append]
    by_cases same : other = context
    · rw [same, if_pos rfl, if_pos rfl, recorded.table context member]
      exact (List.foldl_append).symm
    · have apart : other.table ≠ context.table := fun equal =>
        same (recorded.forest.eq_of_table other inside context member equal)
      rw [if_neg apart, if_neg same, List.append_nil, recorded.table other inside]

private theorem act (recorded : Recorded world log) (action : Action)
    (known : ∀ context ∈ action.context?, context ∈ world.contexts) :
    Recorded (world.act action) (log ++ world.entries action) := by
  cases action with
  | openRoot label =>
    rw [World.entries, Action.context?, List.append_nil]
    exact recorded.openContext (recorded.forest.root label) rfl (world.store.table_enter [])
  | openChild parent label entry =>
    have member := known parent rfl
    change Recorded _ (log ++ [])
    rw [List.append_nil]
    exact recorded.openContext (recorded.forest.child member label entry) rfl
      (world.store.table_enter parent.scope)
  | assign context name value =>
    exact recorded.overwrite (known context rfl) [⟨name, value.number⟩]
  | evaluate context expr limit =>
    have left : (expr.run context limit world.store).2 =
        world.store.overwrite context.table (expr.writes context limit 1 world.store) :=
      expr.after_eq_overwrite context limit 1 world.store
    have recorded := recorded.overwrite (known context rfl)
      (expr.writes context limit 1 world.store)
    rw [← left] at recorded
    exact recorded

private theorem lookup (recorded : Recorded world log) {context : Context}
    (member : context ∈ world.contexts) (name : String) :
    context.lookup world.store name = (context.nearest? log name).map .ofNumber := by
  have owned : ∀ owner ∈ context.lineage, (world.store.table owner.table).get? name =
      (owner.latest? log name).map Value.ofNumber := by
    intro owner above
    have inside := recorded.forest.lineage_subset context member owner above
    rw [recorded.table owner inside, Bindings.get?_overwrite_latest, Bindings.get?_empty,
      Option.or_none]
    rfl
  rw [Context.lookup, Store.find?, Context.scope_eq_lineage, List.findSome?_map,
    Context.nearest?, List.map_findSome?]
  exact Context.findSome?_congr owned

end Recorded

private theorem History.recorded {world : World} {log : List (Context × Write)}
    (history : History world log) : Recorded world log := by
  induction history with
  | start => exact ⟨.empty, nofun, nofun⟩
  | act history action known ih => exact ih.act action known

private theorem World.mem_act {world : World} {context : Context}
    (member : context ∈ world.contexts)
    (action : Action) : context ∈ (world.act action).contexts := by
  cases action with
  | openRoot label => exact List.mem_cons_of_mem _ member
  | openChild parent label entry => exact List.mem_cons_of_mem _ member
  | assign other name value => exact member
  | evaluate other expr limit => exact member

private theorem Recorded.lookup_act {world : World} {log : List (Context × Write)}
    (recorded : Recorded world log) {context : Context} (member : context ∈ world.contexts)
    {other : Context} (inside : other ∈ world.contexts) {action : Action}
    (done : action.context? = some other) (name : String) :
    context.lookup (world.act action).store name =
      (context.nearest? (log ++ (world.writes action).map fun write => (other, write)) name).map
        .ofNumber := by
  have known : ∀ context ∈ action.context?, context ∈ world.contexts := by
    intro context equal
    rw [done] at equal
    exact Option.some.inj equal ▸ inside
  have entries : world.entries action = (world.writes action).map fun write => (other, write) := by
    rw [World.entries, done]
  rw [← entries]
  exact (recorded.act action known).lookup (World.mem_act member action) name

/-- Scoping at any point of a history. A name is looked up to its last write in the nearest context that was
ever written it. What is done further up is seen unless a nearer context has the name, what is done in
siblings, descendants and all other contexts is not. Tables fall back to older ones, and hold numbers only. -/
theorem scoping_of_history {world : World} {log : List (Context × Write)}
    (history : History world log) {context : Context} (member : context ∈ world.contexts) :
    (∀ name, context.lookup world.store name = (context.nearest? log name).map .ofNumber) ∧
      (∀ nearer ancestor outer, context.lineage = nearer ++ ancestor :: outer →
        ∀ action, action.context? = some ancestor → ∀ name,
          context.lookup (world.act action).store name =
            if nearer.any fun closer => (closer.latest? log name).isSome then
              context.lookup world.store name
            else ((Write.latest? name (world.writes action)).map .ofNumber).or
              (context.lookup world.store name)) ∧
      (∀ other ∈ world.contexts, other ∉ context.lineage →
        ∀ action, action.context? = some other → ∀ name,
          context.lookup (world.act action).store name = context.lookup world.store name) ∧
      (∀ other, other ≠ context → context ∈ other.lineage ∨ other.parent? = context.parent? →
        other ∉ context.lineage) ∧
      (∀ ancestor ∈ context.lineage, ancestor ∈ world.contexts) ∧
      context.scope = context.lineage.map Context.table ∧ context.scope.Pairwise (· > ·) ∧
      (world.store.table context.table).Detached := by
  have recorded := history.recorded
  have reached := recorded.forest.lineage_subset context member
  have descending := recorded.forest.scope_descending context member
  have distinct : context.lineage.Nodup := by
    have tables := descending.imp fun {_ _} above => Nat.ne_of_gt above
    rw [context.scope_eq_lineage] at tables
    exact List.Nodup.of_map Context.table tables
  refine ⟨recorded.lookup member, ?_, ?_, ?_, reached, context.scope_eq_lineage, descending, ?_⟩
  · intro nearer ancestor outer split action done name
    have above : ancestor ∈ context.lineage := by simp [split]
    rw [recorded.lookup_act member (reached ancestor above) done, recorded.lookup member,
      Context.nearest?_above split distinct, apply_ite (Option.map Value.ofNumber), Option.map_or]
  · intro other inside outside action done name
    rw [recorded.lookup_act member inside done, recorded.lookup member,
      Context.nearest?_outside outside]
  · intro other different related
    exact Context.not_mem_lineage different related
  · rw [recorded.table context member]
    exact Bindings.detached_empty.overwrite _

/-- The root is assigned in after the inner context was entered from it. There `y` comes to the number of `x`,
and so does `x` for itself before the sum fails; the root keeps its own. -/
theorem scoping_of_shadowed_root :
    let root : Context := .root "program" 0
    let inner : Context := .child root "inner" .start 1
    let copied : Expr := .assign "y" (.variable "x" default) default
    let moved : Expr := .assign "x" (.number 2.0 default) default
    let sum : Expr := .binary moved .add (.variable "q" default) default
    let world := ((((World.empty.act (.openRoot "program")).act (.openChild root "inner" .start)).act
      (.assign root "x" (.ofNumber 1.0))).act (.evaluate inner copied 5)).act (.evaluate inner sum 5)
    let log : List (Context × Write) :=
      [(root, ⟨"x", 1.0⟩), (inner, ⟨"y", 1.0⟩), (inner, ⟨"x", 2.0⟩)]
    History world log ∧ inner ∈ world.contexts ∧ root ∈ world.contexts ∧
      inner.lookup world.store "y" = some (.ofNumber 1.0) ∧
      inner.lookup world.store "x" = some (.ofNumber 2.0) ∧
      root.lookup world.store "x" = some (.ofNumber 1.0) ∧
      root.lookup world.store "y" = none := by
  intro root inner copied moved sum world log
  have opened : History _ _ := History.start.act (.openRoot "program") nofun
  have entered : History _ _ := opened.act (.openChild root "inner" .start) (by decide)
  have bound : History _ _ := entered.act (.assign root "x" (.ofNumber 1.0)) (by decide)
  have read : History _ _ := bound.act (.evaluate inner copied 5) (by decide)
  have history : History world log := read.act (.evaluate inner sum 5) (by decide)
  have within : inner ∈ world.contexts := List.mem_cons_self
  have without : root ∈ world.contexts := List.mem_cons_of_mem _ List.mem_cons_self
  exact ⟨history, within, without, (scoping_of_history history within).1 "y",
    (scoping_of_history history within).1 "x", (scoping_of_history history without).1 "x",
    (scoping_of_history history without).1 "y"⟩

end Reckon

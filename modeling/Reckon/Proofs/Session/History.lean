import Mathlib.Data.List.DropRight
import Reckon.Proofs.Session.Stages
import Reckon.Proofs.Store.History

/-!
Histories of a session. A reset forgets all that was asked before it, and a name is bound to the last number
that it was given since, whether directly or by an evaluation, a failed one included.
-/
namespace Reckon.Session

inductive Request where
  | evaluate (source : String)
  | assign (name : String) (value : Value)
  | get (name : String)
  | reset

inductive Answer where
  | evaluated (report : Report)
  | assigned
  | found (value : Option Value)
  | cleared

def Request.isReset : Request → Bool
  | .reset => true
  | _ => false

/-- A value is assigned in the root context, which keeps its number alone. -/
def respond (session : Session) : Request → Answer × Session
  | .evaluate source =>
    let (report, next) := session.evaluate source
    (.evaluated report, next)
  | .assign name value =>
    (.assigned, { session with store := session.root.assign session.store name value })
  | .get name => (.found (session.get? name), session)
  | .reset => (.cleared, session.reset)

def answers (session : Session) : List Request → List Answer
  | [] => []
  | request :: rest => (session.respond request).1 :: (session.respond request).2.answers rest

def after (session : Session) (requests : List Request) : Session :=
  requests.foldl (fun session request => (session.respond request).2) session

/-- What is written for a request, in order. A text that is not read or not parsed writes nothing. -/
def written (session : Session) : Request → List Write
  | .evaluate source =>
    match Expr.ofText session.settings.limits source with
    | .ok expr => expr.writes session.root session.settings.evaluationLimit 1 session.store
    | .error _ => []
  | .assign name value => [⟨name, value.number⟩]
  | .get _ | .reset => []

def record (session : Session) : List Request → List Write
  | [] => []
  | request :: rest => session.written request ++ (session.respond request).2.record rest

def sinceReset (requests : List Request) : List Request :=
  requests.rtakeWhile fun request => !request.isReset

theorem after_append (session : Session) (first second : List Request) :
    session.after (first ++ second) = (session.after first).after second := by
  simp [after]

private theorem answers_append (session : Session) (first second : List Request) :
    session.answers (first ++ second) =
      session.answers first ++ (session.after first).answers second := by
  induction first generalizing session with
  | nil => rfl
  | cons request rest ih => simp [answers, after, ih]

private theorem evaluate_next (session : Session) (source : String) :
    (session.evaluate source).2 = { session with
      store := session.store.overwrite session.root.table (session.written (.evaluate source)) } := by
  cases read : (Lexer.ofText source).tokens.1 with
  | error diagnostic =>
    have nothing : session.written (.evaluate source) = [] := by
      simp only [written, Expr.ofText, read]
      rfl
    rw [session.evaluate_unread read, nothing]
    rfl
  | ok tokens =>
    cases parsed : (Parser.ofTokens session.settings.limits tokens).parse.1 with
    | error diagnostic =>
      have nothing : session.written (.evaluate source) = [] := by
        simp only [written, Expr.ofText, read, bind, Except.bind, parsed]
      rw [session.evaluate_unparsed read parsed, nothing]
      rfl
    | ok expr =>
      have writes : session.written (.evaluate source) =
          expr.writes session.root session.settings.evaluationLimit 1 session.store := by
        simp only [written, Expr.ofText, read, bind, Except.bind, parsed]
      have left := expr.after_eq_overwrite session.root session.settings.evaluationLimit 1
        session.store
      rw [(session.evaluate_parsed read parsed).2, writes, ← left]
      rfl

private theorem respond_next (session : Session) (request : Request)
    (kept : request.isReset = false) :
    (session.respond request).2 = { session with
      store := session.store.overwrite session.root.table (session.written request) } := by
  cases request with
  | evaluate source => exact session.evaluate_next source
  | assign name value => rfl
  | get name => rfl
  | reset => cases kept

private theorem respond_settings (session : Session) (request : Request) :
    (session.respond request).2.settings = session.settings := by
  cases kept : request.isReset with
  | false => rw [session.respond_next request kept]
  | true =>
    cases request with
    | reset => rfl
    | _ => cases kept

theorem after_settings (session : Session) (requests : List Request) :
    (session.after requests).settings = session.settings := by
  induction requests generalizing session with
  | nil => rfl
  | cons request rest ih => exact (ih _).trans (session.respond_settings request)

theorem reset_after (settings : Settings) (requests : List Request) :
    ((ofSettings settings).after requests).reset = ofSettings settings := by
  rw [reset, after_settings]
  rfl

/-- Without a reset, what is left is the store at the beginning, overwritten by the record. -/
private theorem after_eq_overwrite (session : Session) (requests : List Request)
    (kept : ∀ request ∈ requests, request.isReset = false) :
    session.after requests = { session with
      store := session.store.overwrite session.root.table (session.record requests) } := by
  induction requests generalizing session with
  | nil => rfl
  | cons request rest ih =>
    have next := session.respond_next request (kept request List.mem_cons_self)
    have later := ih (session.respond request).2 fun other member =>
      kept other (List.mem_cons_of_mem _ member)
    change (session.respond request).2.after rest = _
    rw [later, record, Store.overwrite_append, next]

private theorem after_sinceReset (settings : Settings) (requests : List Request) :
    (ofSettings settings).after requests = (ofSettings settings).after (sinceReset requests) := by
  induction requests using List.reverseRecOn with
  | nil => rfl
  | append_singleton requests request ih =>
    rw [sinceReset, List.rtakeWhile_concat, after_append]
    split
    · rw [after_append, ih]
      rfl
    · rename_i ended
      have last : request = .reset := by
        cases request with
        | reset => rfl
        | _ => exact absurd rfl ended
      rw [last]
      exact reset_after settings requests

/-- The names that are bound from the beginning. -/
def givens : List (String × Float) := [("null", 0.0), ("true", 1.0), ("false", 0.0)]

def seeds : List Write := givens.map fun entry => ⟨entry.1, entry.2⟩

/-- Where no name comes twice, the last write to a name is the only one. -/
private theorem latest?_of_distinct {entries : List (String × Float)}
    (distinct : (entries.map Prod.fst).Nodup) (name : String) :
    Write.latest? name (entries.map fun entry => ⟨entry.1, entry.2⟩) = entries.lookup name := by
  induction entries with
  | nil => rfl
  | cons entry rest ih =>
    obtain ⟨absent, apart⟩ := List.nodup_cons.mp distinct
    rw [List.map_cons, ← List.singleton_append, Write.latest?_append, ih apart, List.lookup_cons]
    by_cases same : entry.1 = name
    · have nowhere : rest.lookup name = none := by
        rw [List.lookup_eq_none_iff]
        intro other member
        have different : name ≠ other.1 := fun equal =>
          absent (List.mem_map.mpr ⟨other, member, (same.trans equal).symm⟩)
        exact bne_iff_ne.mpr different
      rw [nowhere]
      simp [Write.latest?, same]
    · simp [Write.latest?, same, beq_false_of_ne (Ne.symm same)]

/-- A name that was not written in the root context since it was seeded has its constant. -/
private theorem get?_overwrite (settings : Settings) (writes : List Write) (name : String) :
    let fresh := ofSettings settings
    ({ fresh with store := fresh.store.overwrite fresh.root.table writes } : Session).get? name =
      ((Write.latest? name writes).or (givens.lookup name)).map .ofNumber := by
  intro fresh
  have present : fresh.root.table < fresh.store.tables.length := Nat.zero_lt_one
  have seeded : fresh.store.table fresh.root.table = Bindings.empty.overwrite seeds := rfl
  have found : ∀ store : Store,
      fresh.root.lookup store name = (store.table fresh.root.table).get? name := by
    intro store
    change [0].findSome? (fun number => (store.table number).get? name) = (store.table 0).get? name
    simp
  change fresh.root.lookup (fresh.store.overwrite fresh.root.table writes) name = _
  rw [found, Store.table_overwrite _ _ _ present, if_pos rfl, seeded, Bindings.get?_overwrite_latest,
    Bindings.get?_overwrite_latest, Bindings.get?_empty, Option.or_none, seeds,
    latest?_of_distinct (by decide), Option.map_or]

/-- Since a reset the answers are those of a new session with the same settings, and at any time a name has
the number that was last written since, or else the constant of that name, or nothing. -/
theorem answers_since_reset (settings : Settings) :
    let fresh := ofSettings settings
    (∀ earlier later, fresh.answers (earlier ++ .reset :: later) =
        fresh.answers earlier ++ .cleared :: fresh.answers later) ∧
      ∀ requests name, (fresh.after requests).get? name =
        ((Write.latest? name (fresh.record (sinceReset requests))).or
          (givens.lookup name)).map .ofNumber := by
  intro fresh
  refine ⟨?_, ?_⟩
  · intro earlier later
    rw [answers_append, answers, respond, reset_after]
  · intro requests name
    have kept : ∀ request ∈ sinceReset requests, request.isReset = false := by
      intro request member
      have taken := List.mem_rtakeWhile_imp member
      simpa using taken
    rw [after_sinceReset, after_eq_overwrite _ _ kept]
    exact get?_overwrite settings _ name

end Reckon.Session

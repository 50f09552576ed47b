import Reckon.Session
import Reckon.Proofs.Evaluation.Origin
import Reckon.Proofs.Parser.Passage

/-!
Stages of a session: reading, parsing, evaluating. Each has faults of a family of its own, and only a text
that came through the first two can change what is bound.
-/
namespace Reckon

namespace Lexer

private theorem number_fault {characters : List Char} {fault : Fault}
    (refused : (number characters).verdict = .error fault) : fault.category = .invalidToken := by
  unfold number at refused
  split at refused
  · split at refused
    · cases refused
      rfl
    · cases refused
  · cases refused

private theorem comparator_fault {first : Char} {behind : List Char} {fault : Fault}
    (refused : (comparator first behind).verdict = .error fault) :
    fault.category = .invalidToken := by
  simp only [comparator] at refused
  split at refused
  · cases refused
  · cases refused
    rfl

private theorem piece_fault {first : Char} {behind : List Char} {fault : Fault}
    (refused : (piece first behind).verdict = .error fault) : fault.category = .invalidToken := by
  unfold piece at refused
  split at refused
  · cases refused
  · split at refused
    · exact number_fault refused
    · split at refused
      · cases refused
      · split at refused
        · exact comparator_fault refused
        · cases refused
          rfl

private theorem category_of_tokens {lexer : Lexer} {diagnostic : Diagnostic}
    (failed : lexer.tokens.1 = .error diagnostic) :
    diagnostic.category = .invalidToken ∧ diagnostic.traceback = [] := by
  fun_induction tokens lexer with
  | case1 => cases failed
  | case2 _ _ first behind _ _ _ _ _ fault refused =>
    cases failed
    exact ⟨piece_fault refused, rfl⟩
  | case3 _ _ _ _ _ _ _ _ _ _ _ outcome last equal ih =>
    rw [equal] at ih
    cases outcome with
    | ok tokens => cases failed
    | error other =>
      cases failed
      exact ih rfl

end Lexer

private theorem Parser.category_of_parse {parser : Parser} {diagnostic : Diagnostic}
    (failed : parser.parse.1 = .error diagnostic) :
    diagnostic.category = .syntactic ∧ diagnostic.traceback = [] := by
  obtain ⟨_, _, last, total, _, _, halts⟩ :=
    advance_halts parser.limits parser.finish parser.pending .initial parser.operators
  change (advance parser.limits parser.finish .initial parser.operators parser.pending).1 = _ at failed
  generalize advance parser.limits parser.finish .initial parser.operators parser.pending = result
    at halts failed
  cases halts with
  | deep | crowded | refused =>
    cases failed
    exact ⟨rfl, rfl⟩
  | whole => cases failed

namespace Session

section

variable (session : Session) {source : String} {tokens : List Token}

theorem evaluate_unread {diagnostic : Diagnostic}
    (failed : (Lexer.ofText source).tokens.1 = .error diagnostic) :
    session.evaluate source =
      (⟨.error (diagnostic.withSource session.settings.sourceName source), []⟩, session) := by
  simp only [evaluate, run, failed]
  rfl

theorem evaluate_unparsed {diagnostic : Diagnostic}
    (read : (Lexer.ofText source).tokens.1 = .ok tokens)
    (failed : (Parser.ofTokens session.settings.limits tokens).parse.1 = .error diagnostic) :
    session.evaluate source =
      (⟨.error (diagnostic.withSource session.settings.sourceName source), [.lexed tokens.length]⟩,
        session) := by
  simp only [evaluate, run, read, failed]
  rfl

theorem evaluate_parsed {expr : Expr} (read : (Lexer.ofText source).tokens.1 = .ok tokens)
    (parsed : (Parser.ofTokens session.settings.limits tokens).parse.1 = .ok expr) :
    let reached := expr.run session.root session.settings.evaluationLimit session.store
    (session.evaluate source).1.outcome =
        reached.1.mapError (·.withSource session.settings.sourceName source) ∧
      (session.evaluate source).2 = { session with store := reached.2 } := by
  simp only [evaluate, run, read, parsed]
  exact ⟨trivial, trivial⟩

end

/-- The stage at which a text fails, and what its diagnostic says there. -/
inductive Stage (session : Session) (source : String) (diagnostic : Diagnostic) : Prop
  | reading {first : Diagnostic} (failed : (Lexer.ofText source).tokens.1 = .error first)
      (family : diagnostic.category = .invalidToken) (calls : diagnostic.traceback = [])
      (kept : (session.evaluate source).2 = session)
  | parsing {tokens : List Token} {first : Diagnostic}
      (read : (Lexer.ofText source).tokens.1 = .ok tokens)
      (failed : (Parser.ofTokens session.settings.limits tokens).parse.1 = .error first)
      (family : diagnostic.category = .syntactic) (calls : diagnostic.traceback = [])
      (kept : (session.evaluate source).2 = session)
  | evaluating {tokens : List Token} {expr : Expr}
      (read : (Lexer.ofText source).tokens.1 = .ok tokens)
      (parsed : (Parser.ofTokens session.settings.limits tokens).parse.1 = .ok expr)
      (raised : diagnostic.RaisedIn session.root)

private theorem stage_of_failure {session : Session} {source : String} {diagnostic : Diagnostic}
    (failure : (session.evaluate source).1.outcome = .error diagnostic) :
    session.Stage source diagnostic := by
  cases read : (Lexer.ofText source).tokens.1 with
  | error first =>
    have answer := session.evaluate_unread read
    rw [answer] at failure
    cases failure
    obtain ⟨family, calls⟩ := Lexer.category_of_tokens read
    exact .reading read family calls (congrArg Prod.snd answer)
  | ok tokens =>
    cases parsed : (Parser.ofTokens session.settings.limits tokens).parse.1 with
    | error first =>
      have answer := session.evaluate_unparsed read parsed
      rw [answer] at failure
      cases failure
      obtain ⟨family, calls⟩ := Parser.category_of_parse parsed
      exact .parsing read parsed family calls (congrArg Prod.snd answer)
    | ok expr =>
      have answer := (session.evaluate_parsed read parsed).1
      rw [failure] at answer
      cases run : (expr.run session.root session.settings.evaluationLimit session.store).1 with
      | ok value =>
        rw [run] at answer
        cases answer
      | error first =>
        rw [run] at answer
        cases answer
        have raised := Expr.raised_of_run run
        exact .evaluating read parsed ⟨raised.runtime, raised.traceback⟩

private theorem Stage.early {session : Session} {source : String} {diagnostic : Diagnostic}
    (stage : session.Stage source diagnostic) (family : diagnostic.category ≠ .runtime) :
    (session.evaluate source).2 = session ∧ diagnostic.traceback = [] := by
  cases stage with
  | reading _ _ calls kept => exact ⟨kept, calls⟩
  | parsing _ _ _ calls kept => exact ⟨kept, calls⟩
  | evaluating _ _ raised => exact absurd raised.runtime family

private theorem Stage.late {session : Session} {source : String} {diagnostic : Diagnostic}
    (stage : session.Stage source diagnostic) (family : diagnostic.category = .runtime) :
    diagnostic.RaisedIn session.root := by
  cases stage with
  | reading _ other => cases other.symm.trans family
  | parsing _ _ other => cases other.symm.trans family
  | evaluating _ _ raised => exact raised

section

variable (session : Session) {source : String} {tokens : List Token}

private theorem unread_iff :
    (∃ diagnostic, (session.evaluate source).1.outcome = .error diagnostic ∧
        diagnostic.category = .invalidToken) ↔
      ∃ diagnostic, (Lexer.ofText source).tokens.1 = .error diagnostic := by
  constructor
  · rintro ⟨diagnostic, failure, family⟩
    cases stage_of_failure failure with
    | reading failed => exact ⟨_, failed⟩
    | parsing _ _ other => cases other.symm.trans family
    | evaluating _ _ raised => cases raised.runtime.symm.trans family
  · rintro ⟨diagnostic, failed⟩
    refine ⟨diagnostic.withSource session.settings.sourceName source, ?_,
      (Lexer.category_of_tokens failed).1⟩
    rw [session.evaluate_unread failed]

private theorem unparsed_iff (read : (Lexer.ofText source).tokens.1 = .ok tokens) :
    (∃ diagnostic, (session.evaluate source).1.outcome = .error diagnostic ∧
        diagnostic.category = .syntactic) ↔
      ∃ diagnostic, (Parser.ofTokens session.settings.limits tokens).parse.1 =
        .error diagnostic := by
  constructor
  · rintro ⟨diagnostic, failure, family⟩
    cases stage_of_failure failure with
    | reading _ other => cases other.symm.trans family
    | parsing same failed =>
      cases same.symm.trans read
      exact ⟨_, failed⟩
    | evaluating _ _ raised => cases raised.runtime.symm.trans family
  · rintro ⟨diagnostic, failed⟩
    refine ⟨diagnostic.withSource session.settings.sourceName source, ?_,
      (Parser.category_of_parse failed).1⟩
    rw [session.evaluate_unparsed read failed]

private theorem value_or_runtime {expr : Expr} (read : (Lexer.ofText source).tokens.1 = .ok tokens)
    (parsed : (Parser.ofTokens session.settings.limits tokens).parse.1 = .ok expr) :
    (∃ value, (session.evaluate source).1.outcome = .ok value) ∨
      ∃ diagnostic, (session.evaluate source).1.outcome = .error diagnostic ∧
        diagnostic.category = .runtime := by
  cases answer : (session.evaluate source).1.outcome with
  | ok value => exact .inl ⟨value, rfl⟩
  | error diagnostic =>
    cases stage_of_failure answer with
    | reading failed => cases failed.symm.trans read
    | parsing same failed =>
      cases same.symm.trans read
      cases failed.symm.trans parsed
    | evaluating _ _ raised => exact .inr ⟨diagnostic, rfl, raised.runtime⟩

end

/-- A text fails to be read, else to be parsed, else it has a value, none, or a runtime error, whatever is
bound. The first two keep all that is bound and have no calls; the last has the call of the program. Every
stage has faults of its own family only. -/
theorem evaluate_by_stages (settings : Settings) (table : Nat) (store : Store) (source : String) :
    let session : Session := ⟨settings, .root "<program>" table, store⟩
    let outcome := (session.evaluate source).1.outcome
    let next := (session.evaluate source).2
    let read := (Lexer.ofText source).tokens.1
    let parsed := fun tokens => (Parser.ofTokens settings.limits tokens).parse.1
    let failsIn := fun category =>
      ∃ diagnostic, outcome = .error diagnostic ∧ diagnostic.category = category
    (failsIn .invalidToken ↔ ∃ diagnostic, read = .error diagnostic) ∧
      (∀ tokens, read = .ok tokens →
        (failsIn .syntactic ↔ ∃ diagnostic, parsed tokens = .error diagnostic)) ∧
      (∀ tokens expr, read = .ok tokens → parsed tokens = .ok expr →
        (∃ value, outcome = .ok value) ∨ failsIn .runtime) ∧
      (∀ diagnostic, outcome = .error diagnostic → diagnostic.category ≠ .runtime →
        next = session ∧ diagnostic.traceback = []) ∧
      (∀ diagnostic, outcome = .error diagnostic → diagnostic.category = .runtime →
        diagnostic.traceback = [⟨"<program>", some diagnostic.span.start⟩]) ∧
      (∀ (lexer : Lexer) diagnostic, lexer.tokens.1 = .error diagnostic →
        diagnostic.category = .invalidToken) ∧
      (∀ (parser : Parser) diagnostic, parser.parse.1 = .error diagnostic →
        diagnostic.category = .syntactic) ∧
      ∀ (expr : Expr) context limit store diagnostic,
        (expr.run context limit store).1 = .error diagnostic → diagnostic.category = .runtime := by
  intro session outcome next read parsed failsIn
  refine ⟨session.unread_iff, ?_, ?_, ?_, ?_, ?_, ?_, ?_⟩
  · intro tokens text
    exact session.unparsed_iff text
  · intro tokens expr text tree
    exact session.value_or_runtime text tree
  · intro diagnostic failure family
    exact (stage_of_failure failure).early family
  · intro diagnostic failure family
    exact ((stage_of_failure failure).late family).traceback
  · intro lexer diagnostic failed
    exact (Lexer.category_of_tokens failed).1
  · intro parser diagnostic failed
    exact (Parser.category_of_parse failed).1
  · intro expr context limit store diagnostic failed
    exact (Expr.raised_of_run failed).runtime

end Session

end Reckon

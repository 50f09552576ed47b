import Reckon.Session
import Reckon.Proofs.Evaluation.Alike
import Reckon.Proofs.Evaluation.Effect
import Reckon.Proofs.Lexer.Layout
import Reckon.Proofs.Parser.Alike

/-!
Meaning without layout. Two texts with the same lexemes mean the same in sessions that bind the same
numbers: only the places in the answers differ, and they are places of the same tokens.
-/
namespace Reckon

namespace Session

/-- The root context stands in a forest, whatever contexts were entered from it and whatever was
assigned in them. -/
def Rooted (session : Session) : Prop :=
  ∃ contexts, Forest contexts session.store ∧ session.root ∈ contexts

/-- The same limits, and for every name the same number or none. -/
structure Matches (session session' : Session) : Prop where
  limits : session.settings.limits = session'.settings.limits
  levels : session.settings.evaluationLimit = session'.settings.evaluationLimit
  number : ∀ name, (session.get? name).map Value.number = (session'.get? name).map Value.number

theorem rooted_ofSettings (settings : Settings) : (ofSettings settings).Rooted :=
  ⟨_, (Forest.empty.root "<program>").overwrite List.mem_cons_self
    (constants.map fun entry => ⟨entry.1, entry.2⟩), List.mem_cons_self⟩

theorem Rooted.assign {session : Session} (rooted : session.Rooted) (name : String)
    (number : Float) : (session.assign name number).Rooted := by
  obtain ⟨contexts, forest, member⟩ := rooted
  exact ⟨contexts, forest.bind member name _, member⟩

private theorem run_next (session : Session) (source : String) :
    ∃ writes, (session.run source).2 =
      { session with store := session.store.overwrite session.root.table writes } := by
  unfold run
  split
  · exact ⟨[], rfl⟩
  · dsimp only
    split
    · exact ⟨[], rfl⟩
    · rename_i expr _
      have left := expr.after_eq_overwrite session.root session.settings.evaluationLimit 1
        session.store
      exact ⟨_, congrArg (fun store => { session with store := store }) left⟩

private theorem evaluate_settings (session : Session) (source : String) :
    (session.evaluate source).2.settings = session.settings := by
  obtain ⟨writes, next⟩ := session.run_next source
  change (session.run source).2.settings = session.settings
  rw [next]

theorem Rooted.evaluate {session : Session} (rooted : session.Rooted) (source : String) :
    (session.evaluate source).2.Rooted := by
  obtain ⟨contexts, forest, member⟩ := rooted
  obtain ⟨writes, next⟩ := session.run_next source
  have rooted : (session.run source).2.Rooted := by
    rw [next]
    exact ⟨contexts, forest.overwrite member writes, member⟩
  exact rooted

variable {session session' : Session} {source source' : String} {tokens tokens' : List Token}

theorem Matches.agree (same : session.Matches session') (rooted : session.Rooted)
    (rooted' : session'.Rooted) :
    Agree session.root session'.root session.store session'.store := by
  obtain ⟨contexts, forest, member⟩ := rooted
  obtain ⟨contexts', forest', member'⟩ := rooted'
  exact ⟨forest.table_lt _ member, forest'.table_lt _ member', same.number⟩

theorem run_alike (read : (Lexer.ofText source).tokens.1 = .ok tokens)
    (read' : (Lexer.ofText source').tokens.1 = .ok tokens')
    (same : tokens.map Token.reading = tokens'.map Token.reading)
    (begun : session.Matches session')
    (agree : Agree session.root session'.root session.store session'.store) :
    let related := SamePlace tokens tokens'
    let next := (session.run source).2
    let next' := (session'.run source').2
    Paired (Diagnostic.Alike related) (Option.Rel (Value.Alike related))
        (session.run source).1.outcome (session'.run source').1.outcome ∧
      Agree next.root next'.root next.store next'.store := by
  have alike := alike_of_reading same
  have scanned : Lexer.Scanned [] source.toList tokens := Lexer.scanned_of_tokens read
  have ended := scanned.finished
  have parsed := Parser.parse_alike (samePlace_joins tokens tokens') session'.settings.limits alike
    (by simpa [Parser.isFinish] using ended)
  simp only [run, read, read', begun.limits, begun.levels]
  generalize (Parser.ofTokens session'.settings.limits tokens).parse.1 = outcome at parsed ⊢
  generalize (Parser.ofTokens session'.settings.limits tokens').parse.1 = outcome' at parsed ⊢
  cases parsed with
  | error alike => exact ⟨.error alike, agree⟩
  | ok alike =>
    exact alike.evaluate session'.settings.evaluationLimit 1 session.store session'.store agree

/-- Layout has no part in what a text means: where two texts have the same lexemes, sessions that match
answer with the same number, with no value, or with the same fault at the same tokens, and match again.
Layout between the lexemes of a text leaves it the same lexemes. -/
theorem evaluate_of_same_lexemes :
    (∀ (session session' : Session) (source source' : String) (tokens tokens' : List Token),
      session.Rooted → session'.Rooted → session.Matches session' →
      (Lexer.ofText source).tokens.1 = .ok tokens →
      (Lexer.ofText source').tokens.1 = .ok tokens' →
      tokens.map Token.reading = tokens'.map Token.reading →
      let related := SamePlace tokens tokens'
      Paired (Diagnostic.Alike related) (Option.Rel (Value.Alike related))
          (session.evaluate source).1.outcome (session'.evaluate source').1.outcome ∧
        (session.evaluate source).2.Matches (session'.evaluate source').2) ∧
      ∀ (source text : String) (tokens : List Token),
        (Lexer.ofText source).tokens.1 = .ok tokens →
        Lexer.Joined (Lexer.lexemes tokens) text.toList →
        ∃ tokens', (Lexer.ofText text).tokens.1 = .ok tokens' ∧
          tokens'.map Token.reading = tokens.map Token.reading := by
  refine ⟨?_, ?_⟩
  · intro session session' source source' tokens tokens' rooted rooted' begun read read' same
    obtain ⟨outcomes, agree⟩ := run_alike read read' same begun (begun.agree rooted rooted')
    refine ⟨outcomes.mapError fun _ _ alike => ⟨alike.fault, alike.span⟩, ?_, ?_, agree.number⟩
    · rw [evaluate_settings, evaluate_settings]
      exact begun.limits
    · rw [evaluate_settings, evaluate_settings]
      exact begun.levels
  · intro source text tokens read joined
    have scanned : Lexer.Scanned [] source.toList tokens := Lexer.scanned_of_tokens read
    obtain ⟨readings, all, listed, same⟩ := scanned.readings
    obtain ⟨tokens', scanned', same'⟩ := Lexer.scanned_of_joined all [] (listed ▸ joined)
    exact ⟨tokens', Lexer.tokens_of_scanned scanned', same'.trans same.symm⟩

/-- Both texts divide by a name that is not bound, the one on its first line and the other on its second;
a third has more layout between the same lexemes. -/
theorem same_fault_on_other_line :
    let settings : Settings := ⟨"first", ⟨1, 1⟩, 2⟩
    let session := ofSettings settings
    let session' := ofSettings { settings with sourceName := "second" }
    let token (kind : Token.Kind) (start stop : Position) : Token := ⟨kind, ⟨start, stop⟩, kind.text⟩
    let tokens := [token (.name "true") ⟨0, 1, 1⟩ ⟨4, 1, 5⟩, token .slash ⟨4, 1, 5⟩ ⟨5, 1, 6⟩,
      token (.name "q") ⟨5, 1, 6⟩ ⟨6, 1, 7⟩, .finish ⟨6, 1, 7⟩]
    let tokens' := [token (.name "true") ⟨0, 1, 1⟩ ⟨4, 1, 5⟩, token .slash ⟨5, 2, 1⟩ ⟨6, 2, 2⟩,
      token (.name "q") ⟨7, 2, 3⟩ ⟨8, 2, 4⟩, .finish ⟨9, 2, 5⟩]
    session.Rooted ∧ session'.Rooted ∧ session.Matches session' ∧
      (Lexer.ofText "true/q").tokens.1 = .ok tokens ∧
      (Lexer.ofText "true\n/ q ").tokens.1 = .ok tokens' ∧
      tokens.map Token.reading = tokens'.map Token.reading ∧
      Paired (Diagnostic.Alike (SamePlace tokens tokens'))
        (Option.Rel (Value.Alike (SamePlace tokens tokens')))
        (session.evaluate "true/q").1.outcome (session'.evaluate "true\n/ q ").1.outcome ∧
      Lexer.Joined (Lexer.lexemes tokens) "true \t/ q".toList ∧
      ∃ others, (Lexer.ofText "true \t/ q").tokens.1 = .ok others ∧
        others.map Token.reading = tokens.map Token.reading := by
  intro settings session session' token tokens tokens'
  have rooted := rooted_ofSettings settings
  have rooted' := rooted_ofSettings { settings with sourceName := "second" }
  have matching : session.Matches session' := ⟨rfl, rfl, fun _ => rfl⟩
  have read : (Lexer.ofText "true/q").tokens.1 = .ok tokens := by with_unfolding_all rfl
  have read' : (Lexer.ofText "true\n/ q ").tokens.1 = .ok tokens' := by with_unfolding_all rfl
  have same : tokens.map Token.reading = tokens'.map Token.reading := rfl
  have alike := evaluate_of_same_lexemes.1 session session' "true/q" "true\n/ q " tokens tokens'
    rooted rooted' matching read read' same
  have blank : ∀ character ∈ [' ', '\t'], character ∈ Lexer.blanks := by simp [Lexer.blanks]
  have blank' : ∀ character ∈ [' '], character ∈ Lexer.blanks := by simp [Lexer.blanks]
  have joined : Lexer.Joined ["true", "/", "q"] "true \t/ q".toList :=
    .apart "true" "/" (List.cons_ne_nil _ _) blank
      (.apart "/" "q" (List.cons_ne_nil _ _) blank' (.single "q"))
  exact ⟨rooted, rooted', matching, read, read', same, alike.1, joined,
    evaluate_of_same_lexemes.2 "true/q" "true \t/ q" tokens read joined⟩

end Session

end Reckon

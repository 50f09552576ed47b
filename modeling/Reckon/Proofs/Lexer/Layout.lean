import Reckon.Proofs.Alike
import Reckon.Proofs.Lexer.Scan

/-!
Layout between lexemes. However much of it is put between the lexemes of a text, as long as it is some,
the new text has the same lexemes with the same kinds.
-/
namespace Reckon

namespace Lexer

/-- Lexemes in order, with layout between any two of them. -/
inductive Joined : List String → List Char → Prop
  | nothing : Joined [] []
  | single (lexeme : String) : Joined [lexeme] lexeme.toList
  | apart (lexeme next : String) {lexemes : List String} {layout text : List Char}
      (gap : layout ≠ []) (blank : ∀ character ∈ layout, character ∈ blanks)
      (onward : Joined (next :: lexemes) text) :
      Joined (lexeme :: next :: lexemes) (lexeme.toList ++ (layout ++ text))

/-- The lexemes of all tokens but the end of the text. -/
def lexemes (tokens : List Token) : List String :=
  (tokens.filter fun token => token.kind ≠ .finish).map Token.lexeme

private theorem lexemes_cons {kind : Token.Kind} (visible : kind ≠ .finish) (span : Span)
    (lexeme : String)
    (tokens : List Token) : lexemes (⟨kind, span, lexeme⟩ :: tokens) = lexeme :: lexemes tokens := by
  simp only [lexemes, List.filter_cons, visible, ne_eq, not_false_eq_true, decide_true, if_true,
    List.map_cons]

section

variable {before text rest : List Char} {tokens : List Token}

theorem Lexeme.kind_ne_finish {kind : Token.Kind} (lexeme : Lexeme text kind) : kind ≠ .finish := by
  cases lexeme with
  | sign listed =>
    rintro rfl
    simp [signs, symbols, comparisons] at listed
  | int | float | keyword | name =>
    intro equal
    cases equal

/-- No lexeme goes on over layout, so nothing longer is there to be taken. -/
theorem longest_of_gap (text : List Char) (gap : ∀ character ∈ rest.head?, character ∈ blanks) :
    Longest text rest where
  whole more later other split some longer := by
    obtain ⟨first, more, rfl⟩ := List.exists_cons_of_ne_nil some
    have layout := isLayout_iff.mpr (gap first (by rw [split]; rfl))
    rw [longer.plain first (List.mem_append_right text List.mem_cons_self)] at layout
    cases layout
  paired first second _ next _ := by
    intro compares
    have layout := isLayout_iff.mpr (gap second next)
    rw [not_layout_of_comparator compares] at layout
    cases layout

/-- Layout in front of a text is passed with the layout that the text begins with. -/
private theorem Scanned.after_layout {layout : List Char}
    (blank : ∀ character ∈ layout, character ∈ blanks)
    (scanned : Scanned (before ++ layout) text tokens) : Scanned before (layout ++ text) tokens := by
  cases scanned with
  | @finish _ more blank' =>
    rw [List.append_assoc]
    exact .finish fun character member => (List.mem_append.mp member).elim (blank _) (blank' _)
  | @token _ more lexeme rest kind tokens blank' read longest onward =>
    rw [List.append_assoc before, ← List.append_assoc layout]
    refine .token (fun character member => ?_) read longest ?_
    · exact (List.mem_append.mp member).elim (blank _) (blank' _)
    · rw [← List.append_assoc before]
      exact onward

theorem Scanned.lexeme {lexeme : List Char} {kind : Token.Kind} (read : Lexeme lexeme kind)
    (gap : ∀ character ∈ rest.head?, character ∈ blanks)
    (onward : Scanned (before ++ lexeme) rest tokens) :
    ∃ span, Scanned before (lexeme ++ rest) (⟨kind, span, String.ofList lexeme⟩ :: tokens) := by
  have bare : before ++ [] ++ lexeme = before ++ lexeme := by rw [List.append_nil]
  have blank : ∀ character ∈ ([] : List Char), character ∈ blanks := nofun
  exact ⟨_, .token blank read (longest_of_gap lexeme gap) (bare ▸ onward)⟩

theorem Scanned.readings (scanned : Scanned before text tokens) :
    ∃ readings : List (Token.Kind × String),
      (∀ reading ∈ readings, Lexeme reading.2.toList reading.1) ∧
      lexemes tokens = readings.map Prod.snd ∧
      tokens.map Token.reading = readings ++ [(.finish, "")] := by
  induction scanned with
  | finish => exact ⟨[], nofun, rfl, rfl⟩
  | @token _ _ lexeme _ kind tokens _ read _ _ ih =>
    obtain ⟨readings, all, listed, same⟩ := ih
    refine ⟨(kind, String.ofList lexeme) :: readings, fun reading member => ?_, ?_, ?_⟩
    · rcases List.mem_cons.mp member with rfl | later
      · exact (String.toList_ofList (l := lexeme)).symm ▸ read
      · exact all reading later
    · rw [lexemes_cons read.kind_ne_finish, listed]
      rfl
    · exact congrArg ((kind, String.ofList lexeme) :: ·) same

theorem scanned_of_joined {readings : List (Token.Kind × String)}
    (all : ∀ reading ∈ readings, Lexeme reading.2.toList reading.1) (before : List Char)
    {text : List Char} (joined : Joined (readings.map Prod.snd) text) :
    ∃ tokens, Scanned before text tokens ∧
      tokens.map Token.reading = readings ++ [(.finish, "")] := by
  induction readings generalizing before text with
  | nil =>
    cases joined
    have blank : ∀ character ∈ ([] : List Char), character ∈ blanks := nofun
    exact ⟨_, .finish blank, rfl⟩
  | cons reading readings ih =>
    obtain ⟨kind, lexeme⟩ := reading
    have read : Lexeme lexeme.toList kind := all _ List.mem_cons_self
    have rest := fun before text joined =>
      @ih (fun reading member => all reading (List.mem_cons_of_mem _ member)) before text joined
    have shown (span : Span) :
        Token.reading ⟨kind, span, String.ofList lexeme.toList⟩ = (kind, lexeme) := by
      rw [Token.reading, String.ofList_toList]
    rw [List.map_cons] at joined
    generalize readings.map Prod.snd = others at rest joined
    cases joined with
    | single =>
      obtain ⟨tokens, scanned, same⟩ := rest (before ++ lexeme.toList) [] .nothing
      have ends : ∀ character ∈ ([] : List Char).head?, character ∈ blanks := nofun
      obtain ⟨span, whole⟩ := scanned.lexeme read ends
      rw [List.append_nil] at whole
      exact ⟨_, whole, by rw [List.map_cons, shown, same]; rfl⟩
    | @apart _ _ _ layout text gap blank onward =>
      obtain ⟨tokens, scanned, same⟩ := rest (before ++ lexeme.toList ++ layout) text onward
      -- The gap begins with layout, which keeps the lexeme from going on into what is behind it.
      obtain ⟨first, later, rfl⟩ := List.exists_cons_of_ne_nil gap
      have begins : ∀ character ∈ (first :: later ++ text).head?, character ∈ blanks := by
        rintro character ⟨⟩
        exact blank first List.mem_cons_self
      obtain ⟨span, whole⟩ := (scanned.after_layout blank).lexeme read begins
      exact ⟨_, whole, by rw [List.map_cons, shown, same]; rfl⟩

theorem Scanned.finished (scanned : Scanned before text tokens) :
    ∃ token ∈ tokens, token.kind = .finish := by
  induction scanned with
  | finish => exact ⟨_, List.mem_cons_self, rfl⟩
  | token _ _ _ _ ih =>
    obtain ⟨token, member, finish⟩ := ih
    exact ⟨token, List.mem_cons_of_mem _ member, finish⟩

end

end Lexer

end Reckon

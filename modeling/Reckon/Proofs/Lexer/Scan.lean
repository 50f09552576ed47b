import Reckon.Proofs.Lexer.Piece

/-!
Scans: a text as layout and lexemes in turn, each lexeme as long as possible. A lexer returns the tokens
of the scan that a text has, or the first offence that keeps it from having one.
-/
namespace Reckon.Lexer

/-- The first argument holds all that stands before the text. -/
inductive Scanned : List Char → List Char → List Token → Prop
  | finish {before layout : List Char} (blank : ∀ character ∈ layout, character ∈ blanks) :
      Scanned before layout
        [⟨.finish, ⟨.behind (before ++ layout), .behind (before ++ layout)⟩, ""⟩]
  | token {before layout lexeme rest : List Char} {kind : Token.Kind} {tokens : List Token}
      (blank : ∀ character ∈ layout, character ∈ blanks) (read : Lexeme lexeme kind)
      (longest : Longest lexeme rest) (onward : Scanned (before ++ layout ++ lexeme) rest tokens) :
      Scanned before (layout ++ (lexeme ++ rest))
        (⟨kind, ⟨.behind (before ++ layout), .behind (before ++ layout ++ lexeme)⟩,
          String.ofList lexeme⟩ :: tokens)

/-- Lexemes up to the first offence; none of them is a float with a further point behind it. -/
inductive Refused : List Char → List Char → Diagnostic → Prop
  | here {before layout rest : List Char} {diagnostic : Diagnostic}
      (blank : ∀ character ∈ layout, character ∈ blanks)
      (offence : Offence (before ++ layout) rest diagnostic) :
      Refused before (layout ++ rest) diagnostic
  | later {before layout lexeme rest : List Char} {kind : Token.Kind} {diagnostic : Diagnostic}
      (blank : ∀ character ∈ layout, character ∈ blanks) (read : Lexeme lexeme kind)
      (longest : Longest lexeme rest) (single : Unpointed kind rest)
      (onward : Refused (before ++ layout ++ lexeme) rest diagnostic) :
      Refused before (layout ++ (lexeme ++ rest)) diagnostic

/-- Behind a text, with another one still to be read. -/
def standing (before rest : List Char) : Lexer := ⟨.behind before, rest⟩

section

variable (before : List Char) {layout text rest : List Char}

private theorem past_standing (text rest : List Char) :
    (standing before (text ++ rest)).past text.length = standing (before ++ text) rest := by
  simp only [standing, past, List.take_left, List.drop_left, Position.advanceBy_behind]

theorem pastLayout_standing (blank : ∀ character ∈ layout, character ∈ blanks)
    (ends : Ends isLayout rest) :
    (standing before (layout ++ rest)).pastLayout = standing (before ++ layout) rest := by
  have taken : (standing before (layout ++ rest)).rest.takeWhile isLayout = layout :=
    takeWhile_of_ends (fun character member => isLayout_iff.mpr (blank character member)) ends
  rw [pastLayout, taken, past_standing]

private theorem tokens_blank (blank : ∀ character ∈ layout, character ∈ blanks) :
    (standing before layout).tokens.1 =
      .ok [⟨.finish, ⟨.behind (before ++ layout), .behind (before ++ layout)⟩, ""⟩] := by
  have ends : Ends isLayout [] := nofun
  have passed := pastLayout_standing before blank ends
  rw [List.append_nil] at passed
  rw [tokens]
  split
  · rw [passed]
    rfl
  · rename_i equal
    rw [passed] at equal
    cases equal

/-- What is taken behind layout decides how the lexer goes on, and from where. -/
private theorem tokens_piece {first : Char} {behind passed : List Char}
    {verdict : Except Fault Token.Kind}
    (blank : ∀ character ∈ layout, character ∈ blanks) (plain : isLayout first = false)
    (taken : piece first behind = ⟨passed, text, verdict⟩)
    (split : first :: behind = passed ++ (text ++ rest)) :
    (standing before (layout ++ first :: behind)).tokens.1 =
      let start := before ++ layout ++ passed
      let span : Span := ⟨.behind start, .behind (start ++ text)⟩
      match verdict with
      | .error fault => .error (.of fault span [])
      | .ok kind =>
        (standing (start ++ text) rest).tokens.1.map (⟨kind, span, String.ofList text⟩ :: ·) := by
  have ends : Ends isLayout (first :: behind) := by
    intro character member
    cases member
    exact plain
  have passedLayout := pastLayout_standing before blank ends
  have start : (standing (before ++ layout) (first :: behind)).past passed.length =
      standing (before ++ layout ++ passed) (text ++ rest) := by
    rw [split]
    exact past_standing (before ++ layout) passed (text ++ rest)
  have next := past_standing (before ++ layout ++ passed) text rest
  rw [tokens]
  split
  · rename_i equal
    rw [passedLayout] at equal
    cases equal
  · rename_i equal
    rw [passedLayout] at equal
    cases equal
    simp only [passedLayout, taken, start, next]
    cases verdict with
    | error fault => rfl
    | ok kind => rfl

theorem tokens_lexeme {lexeme : List Char} {kind : Token.Kind}
    (blank : ∀ character ∈ layout, character ∈ blanks) (read : Lexeme lexeme kind)
    (longest : Longest lexeme rest) (single : Unpointed kind rest) :
    (standing before (layout ++ (lexeme ++ rest))).tokens.1 =
      (standing (before ++ layout ++ lexeme) rest).tokens.1.map
        (⟨kind, ⟨.behind (before ++ layout), .behind (before ++ layout ++ lexeme)⟩,
          String.ofList lexeme⟩ :: ·) := by
  obtain ⟨first, tail, rfl⟩ := List.exists_cons_of_ne_nil read.ne_nil
  have plain := read.plain first List.mem_cons_self
  have step := tokens_piece before blank plain (piece_of_lexeme read longest single) rfl
  rw [List.append_nil] at step
  exact step

end

theorem not_scanned_point {before rest : List Char} {tokens : List Token} :
    ¬ Scanned before ('.' :: rest) tokens := by
  intro scanned
  generalize same : '.' :: rest = text at scanned
  cases scanned with
  | finish blank =>
    subst same
    exact absurd (blank '.' List.mem_cons_self) (by decide)
  | @token _ layout lexeme _ kind _ blank read =>
    cases layout with
    | nil =>
      obtain ⟨first, tail, rfl⟩ := List.exists_cons_of_ne_nil read.ne_nil
      obtain ⟨rfl, -⟩ := List.cons.inj same
      exact absurd read.begins (by decide)
    | cons character layout =>
      obtain ⟨rfl, -⟩ := List.cons.inj same
      exact absurd (blank '.' List.mem_cons_self) (by decide)

theorem tokens_of_scanned {before text : List Char} {tokens : List Token}
    (scanned : Scanned before text tokens) : (standing before text).tokens.1 = .ok tokens := by
  induction scanned with
  | finish blank => exact tokens_blank _ blank
  | @token before layout lexeme rest kind tokens blank read longest onward ih =>
    -- A point behind the lexeme would begin no lexeme, so the scan could not go on there.
    have single : Unpointed kind rest := by
      rintro - point
      obtain ⟨later, rfl⟩ := List.head?_eq_some_iff.mp point
      exact not_scanned_point onward
    rw [tokens_lexeme before blank read longest single, ih]
    rfl

private theorem tokens_of_offence {before layout rest : List Char} {diagnostic : Diagnostic}
    (blank : ∀ character ∈ layout, character ∈ blanks)
    (offence : Offence (before ++ layout) rest diagnostic) :
    (standing before (layout ++ rest)).tokens.1 = .error diagnostic := by
  cases offence with
  | illegal rest plain alien =>
    have step := tokens_piece before blank (isLayout_eq_false_iff.mpr plain)
      (piece_of_alien alien rest) rfl
    rw [List.append_nil] at step
    exact step
  | secondPoint rest decimal =>
    obtain ⟨first, tail, rfl⟩ := List.exists_cons_of_ne_nil decimal.ne_nil
    have plain := decimal.plain first List.mem_cons_self
    exact tokens_piece before blank plain (piece_of_second_point decimal rest) rfl
  | comparator run unknown =>
    obtain ⟨first, tail, rfl⟩ := List.exists_cons_of_ne_nil run.ne_nil
    have plain := not_layout_of_comparator run.head
    have step := tokens_piece before blank plain (piece_of_compared run unknown) rfl
    rw [List.append_nil] at step
    exact step

private theorem tokens_of_refused {before text : List Char} {diagnostic : Diagnostic}
    (refused : Refused before text diagnostic) :
    (standing before text).tokens.1 = .error diagnostic := by
  induction refused with
  | here blank offence => exact tokens_of_offence blank offence
  | @later before layout lexeme rest kind diagnostic blank read longest single onward ih =>
    rw [tokens_lexeme before blank read longest single, ih]
    rfl

private theorem scanned_or_refused (before text : List Char) :
    (∃ tokens, Scanned before text tokens) ∨ ∃ diagnostic, Refused before text diagnostic := by
  obtain ⟨layout, rest, split, blank, ends⟩ : ∃ layout rest, text = layout ++ rest ∧
      (∀ character ∈ layout, character ∈ blanks) ∧ Ends isLayout rest :=
    ⟨_, _, List.takeWhile_append_dropWhile.symm,
      fun _ member => isLayout_iff.mp (List.mem_takeWhile_imp member), ends_dropWhile isLayout text⟩
  cases rest with
  | nil =>
    rw [split, List.append_nil]
    exact .inl ⟨_, .finish blank⟩
  | cons first behind =>
    have plain := isLayout_eq_false_iff.mp (ends first rfl)
    rcases lexeme_or_offence (before ++ layout) behind plain with
      ⟨tail, rest, kind, rfl, lexeme, longest, single⟩ | ⟨diagnostic, offence⟩
    · have shorter : rest.length < text.length := by
        simp only [split, List.length_append, List.length_cons]
        omega
      rw [split, ← List.cons_append]
      rcases scanned_or_refused (before ++ layout ++ first :: tail) rest with
        ⟨tokens, scanned⟩ | ⟨diagnostic, refused⟩
      · exact .inl ⟨_, .token blank lexeme longest scanned⟩
      · exact .inr ⟨_, .later blank lexeme longest single refused⟩
    · rw [split]
      exact .inr ⟨diagnostic, .here blank offence⟩
termination_by text.length

theorem scanned_of_tokens {before text : List Char} {tokens : List Token}
    (read : (standing before text).tokens.1 = .ok tokens) : Scanned before text tokens := by
  rcases scanned_or_refused before text with ⟨others, scanned⟩ | ⟨diagnostic, refused⟩
  · obtain rfl : others = tokens := Except.ok.inj ((tokens_of_scanned scanned).symm.trans read)
    exact scanned
  · cases (tokens_of_refused refused).symm.trans read

theorem refused_of_tokens {before text : List Char} {diagnostic : Diagnostic}
    (failed : (standing before text).tokens.1 = .error diagnostic) :
    Refused before text diagnostic := by
  rcases scanned_or_refused before text with ⟨tokens, scanned⟩ | ⟨other, refused⟩
  · cases (tokens_of_scanned scanned).symm.trans failed
  · obtain rfl : other = diagnostic :=
      Except.error.inj ((tokens_of_refused refused).symm.trans failed)
    exact refused

theorem ofText_standing (text : String) : ofText text = standing [] text.toList := rfl

end Reckon.Lexer

import Reckon.Proofs.Lexer.Lexeme

/-!
What a lexer takes where it stands: the longest lexeme there with its kind, or one of the three offences
that keep it from taking one.
-/
namespace Reckon.Lexer

/-- One comparator character, or two where another one follows. -/
inductive Compared : List Char → List Char → Prop
  | alone {first : Char} {rest : List Char} (compares : first ∈ comparing)
      (ends : ∀ second ∈ rest.head?, second ∉ comparing) : Compared [first] rest
  | pair {first second : Char} (rest : List Char) (compares : first ∈ comparing)
      (compares' : second ∈ comparing) : Compared [first, second] rest

theorem Compared.ne_nil {text rest : List Char} (run : Compared text rest) : text ≠ [] := by
  cases run with
  | alone | pair => exact List.cons_ne_nil _ _

theorem Compared.head {first : Char} {tail rest : List Char} (run : Compared (first :: tail) rest) :
    first ∈ comparing := by
  cases run with
  | alone compares => exact compares
  | pair _ compares => exact compares

/-- What is wrong where no lexeme can be taken. The first argument holds all that stands before. -/
inductive Offence (before : List Char) : List Char → Diagnostic → Prop
  | illegal {first : Char} (rest : List Char) (plain : first ∉ blanks)
      (alien : ∀ tail kind, ¬ Lexeme (first :: tail) kind) :
      Offence before (first :: rest)
        ⟨.illegalCharacter first, ⟨.behind before, .behind (before ++ [first])⟩, [], none, none⟩
  | secondPoint {numeral : List Char} {value : Float} (rest : List Char)
      (decimal : Lexeme numeral (.float value)) :
      Offence before (numeral ++ '.' :: rest)
        ⟨.badFloat, ⟨.behind (before ++ numeral), .behind (before ++ numeral ++ ['.'])⟩, [], none, none⟩
  | comparator {text rest : List Char} (compared : Compared text rest)
      (unknown : ∀ kind, ¬ Lexeme text kind) :
      Offence before (text ++ rest)
        ⟨.badComparator (String.ofList text), ⟨.behind before, .behind (before ++ text)⟩, [], none, none⟩

/-- A point behind a float is an offence of its own. -/
def Unpointed (kind : Token.Kind) (rest : List Char) : Prop :=
  (∃ value, kind = .float value) → rest.head? ≠ some '.'

section

variable {among : Char → Bool} {text rest : List Char}

theorem takeWhile_of_ends (all : ∀ character ∈ text, among character) (ends : Ends among rest) :
    (text ++ rest).takeWhile among = text := by
  rw [List.takeWhile_append_of_pos all]
  cases rest with
  | nil => simp
  | cons next rest => simp [ends next rfl]

private theorem dropWhile_of_ends (all : ∀ character ∈ text, among character)
    (ends : Ends among rest) :
    (text ++ rest).dropWhile among = rest := by
  rw [List.dropWhile_append_of_pos all]
  cases rest with
  | nil => rfl
  | cons next rest => simp [ends next rfl]

theorem ends_dropWhile (among : Char → Bool) (text : List Char) :
    Ends among (text.dropWhile among) := by
  intro character member
  have stops := List.head?_dropWhile_not among text
  rw [member] at stops
  exact stops

end

private theorem symbol?_eq_none {character : Char} (word : character.isDigit ∨ character.isAlpha) :
    symbol? character = none := by
  unfold symbol?
  split <;> first | rfl | exact absurd word (by decide)

private theorem piece_of_digit {first : Char} (digit : first.isDigit) (rest : List Char) :
    piece first rest = number (first :: rest) := by
  simp only [piece, symbol?_eq_none (.inl digit), digit, if_true]

private theorem piece_of_letter {first : Char} (letter : first.isAlpha) (rest : List Char) :
    piece first rest = word (first :: rest) := by
  simp only [piece, symbol?_eq_none (.inr letter), not_digit_of_letter letter, letter,
    Bool.false_eq_true, if_false, if_true]

section

variable {digits whole fraction letters rest : List Char}

private theorem ends_digit_point (rest : List Char) : Ends Char.isDigit ('.' :: rest) := by
  intro character member
  cases member
  rfl

private theorem number_of_digits (all : ∀ character ∈ digits, character.isDigit)
    (ends : Ends inNumeral rest) :
    number (digits ++ rest) =
      ⟨[], digits, .ok (.int (Number.ofDecimal (.ofDigits digits [])))⟩ := by
  have noDigit : Ends Char.isDigit rest := fun character member =>
    (Bool.or_eq_false_iff.mp (ends character member)).1
  simp only [number, takeWhile_of_ends all noDigit, dropWhile_of_ends all noDigit]
  cases rest with
  | nil => rfl
  | cons next rest =>
    have noPoint := (Bool.or_eq_false_iff.mp (ends next rfl)).2
    split
    · rename_i same
      cases same
      cases noPoint
    · rfl

private theorem number_of_decimal (all : ∀ character ∈ whole, character.isDigit)
    (all' : ∀ character ∈ fraction, character.isDigit) (ends : Ends Char.isDigit rest)
    (noPoint : rest.head? ≠ some '.') :
    number (whole ++ '.' :: fraction ++ rest) =
      ⟨[], whole ++ '.' :: fraction, .ok (.float (Number.ofDecimal (.ofDigits whole fraction)))⟩ := by
  simp only [number, List.append_assoc, List.cons_append,
    takeWhile_of_ends all (ends_digit_point _), dropWhile_of_ends all (ends_digit_point _),
    takeWhile_of_ends all' ends, dropWhile_of_ends all' ends]
  split
  · exact absurd rfl noPoint
  · rfl

private theorem number_of_points (all : ∀ character ∈ whole, character.isDigit)
    (all' : ∀ character ∈ fraction, character.isDigit) :
    number (whole ++ '.' :: fraction ++ '.' :: rest) =
      ⟨whole ++ '.' :: fraction, ['.'], .error .badFloat⟩ := by
  simp only [number, List.append_assoc, List.cons_append,
    takeWhile_of_ends all (ends_digit_point _), dropWhile_of_ends all (ends_digit_point _),
    takeWhile_of_ends all' (ends_digit_point rest), dropWhile_of_ends all' (ends_digit_point rest)]

private theorem word_of_letters (all : ∀ character ∈ letters, character.isAlpha)
    (ends : Ends Char.isAlpha rest) :
    word (letters ++ rest) = ⟨[], letters, .ok (((Keyword.ofText? (String.ofList letters)).map
      .keyword).getD (.name (String.ofList letters)))⟩ := by
  simp only [word, takeWhile_of_ends all ends]

end

private theorem keyword_ofText?_eq_none {text : String} (free : ∀ word, (text, word) ∉ words) :
    Keyword.ofText? text = none :=
  List.find?_eq_none.mpr fun word _ same =>
    free word (word_listed.mpr (of_decide_eq_true same).symm)

def compared (text : List Char) : Piece :=
  match Token.comparator? (String.ofList text) with
  | some kind => ⟨[], text, .ok kind⟩
  | none => ⟨[], text, .error (.badComparator (String.ofList text))⟩

private theorem comparator_of_compared {first : Char} {tail rest : List Char}
    (run : Compared (first :: tail) rest) : comparator first (tail ++ rest) = compared (first :: tail) := by
  cases run with
  | alone compares ends =>
    have lone : (rest.take 1).filter isComparatorCharacter = [] := by
      cases rest with
      | nil => rfl
      | cons next rest => simpa [isComparatorCharacter_iff] using ends next rfl
    change compared (first :: (rest.take 1).filter isComparatorCharacter) = _
    rw [lone]
  | @pair _ second _ compares compares' =>
    change compared (first :: ((second :: rest).take 1).filter isComparatorCharacter) = _
    simp [isComparatorCharacter_iff.mpr compares']

section

variable {first : Char} {tail rest : List Char} {text : String} {kind : Token.Kind}

private theorem comparator?_of_listed (listed : (text, kind) ∈ comparisons) :
    Token.comparator? text = some kind := by
  simp only [comparisons, List.mem_cons, Prod.mk.injEq, List.not_mem_nil, or_false] at listed
  rcases listed with ⟨rfl, rfl⟩ | ⟨rfl, rfl⟩ | ⟨rfl, rfl⟩ | ⟨rfl, rfl⟩ | ⟨rfl, rfl⟩ | ⟨rfl, rfl⟩ |
    ⟨rfl, rfl⟩ <;> decide

private theorem comparison_listed (member : kind ∈ Token.comparators) :
    (kind.text, kind) ∈ comparisons := by
  simp only [Token.comparators, List.mem_cons, List.not_mem_nil, or_false] at member
  rcases member with rfl | rfl | rfl | rfl | rfl | rfl | rfl <;> simp [comparisons, Token.Kind.text]

private theorem compared_of_kind (listed : (text, kind) ∈ comparisons) :
    compared text.toList = ⟨[], text.toList, .ok kind⟩ := by
  simp only [compared, String.ofList_toList, comparator?_of_listed listed]

private theorem compared_of_unknown {text : List Char} (unknown : ∀ kind, ¬ Lexeme text kind) :
    compared text = ⟨[], text, .error (.badComparator (String.ofList text))⟩ := by
  have missing : Token.comparator? (String.ofList text) = none := by
    refine List.find?_eq_none.mpr fun kind member same => unknown kind ?_
    have text : kind.text.toList = text := by rw [of_decide_eq_true same, String.toList_ofList]
    exact text ▸ .sign (List.mem_append_right symbols (comparison_listed member))
  simp only [compared, missing]

private theorem piece_of_comparator (compares : first ∈ comparing) (rest : List Char) :
    piece first rest = comparator first rest := by
  simp only [comparing, List.mem_cons, List.not_mem_nil, or_false] at compares
  rcases compares with rfl | rfl | rfl | rfl <;> rfl

private theorem symbol_text (listed : (text, kind) ∈ symbols) :
    ∃ character, text.toList = [character] ∧ symbol? character = some kind := by
  simp only [symbols, List.mem_cons, Prod.mk.injEq, List.not_mem_nil, or_false] at listed
  rcases listed with ⟨rfl, rfl⟩ | ⟨rfl, rfl⟩ | ⟨rfl, rfl⟩ | ⟨rfl, rfl⟩ | ⟨rfl, rfl⟩ | ⟨rfl, rfl⟩ |
    ⟨rfl, rfl⟩ <;> exact ⟨_, rfl, rfl⟩

private theorem comparator_characters (listed : (text, kind) ∈ comparisons) :
    ∀ character ∈ text.toList, character ∈ comparing := by
  have all : comparisons.all (fun sign => sign.1.toList.all fun character =>
      decide (character ∈ comparing)) = true := by decide
  intro character inside
  exact of_decide_eq_true (List.all_eq_true.mp (List.all_eq_true.mp all _ listed) character inside)

private theorem compared_text (listed : (text, kind) ∈ comparisons)
    (longest : Longest text.toList rest) :
    Compared text.toList rest := by
  have characters := comparator_characters listed
  rcases sign_text (List.mem_append_right symbols listed) with
    ⟨character, alone⟩ | ⟨character, pair, compares⟩
  · rw [alone] at characters ⊢
    have compares := characters character List.mem_cons_self
    exact .alone compares fun second next => longest.paired character second alone next compares
  · rw [pair]
    exact .pair rest compares (by decide)

theorem piece_of_lexeme (lexeme : Lexeme (first :: tail) kind) (longest : Longest (first :: tail) rest)
    (single : Unpointed kind rest) :
    piece first (tail ++ rest) = ⟨[], first :: tail, .ok kind⟩ := by
  generalize same : first :: tail = text at lexeme longest
  have whole : first :: (tail ++ rest) = text ++ rest := by rw [← same, List.cons_append]
  have head : first ∈ text.head? := by rw [← same, List.head?_cons, Option.mem_some]
  have inside := List.mem_of_mem_head? head
  cases lexeme with
  | int present all =>
    rw [piece_of_digit (all first inside), whole,
      number_of_digits all ((longest_digits present all).mp longest)]
  | float present all all' =>
    have ends := (longest_decimal present all all').mp longest
    rw [piece_of_digit ((numeral_of_point present all all').head first head), whole,
      number_of_decimal all all' ends (single ⟨_, rfl⟩)]
  | @keyword _ word listed =>
    obtain rfl := word_listed.mp listed
    have all := keyword_letters word
    have ends := (longest_letters (List.ne_nil_of_mem inside) all).mp longest
    rw [piece_of_letter (all first inside), whole, word_of_letters all ends, String.ofList_toList,
      Keyword.ofText?_text]
    rfl
  | name present all free =>
    have ends := (longest_letters present all).mp longest
    rw [piece_of_letter (all first inside), whole, word_of_letters all ends,
      keyword_ofText?_eq_none free]
    rfl
  | sign listed =>
    rcases List.mem_append.mp listed with symbol | comparison
    · obtain ⟨character, alone, found⟩ := symbol_text symbol
      obtain ⟨rfl, rfl⟩ := List.cons.inj (same.trans alone)
      simp only [piece, found, alone]
    · have run := compared_text comparison longest
      rw [← same] at run
      rw [piece_of_comparator run.head, comparator_of_compared run, same,
        compared_of_kind comparison]

private theorem symbol_listed (found : symbol? first = some kind) :
    ∃ text : String, (text, kind) ∈ signs ∧ text.toList = [first] := by
  refine ⟨kind.text, ?_⟩
  unfold symbol? at found
  split at found <;> cases found <;>
    exact ⟨List.mem_append_left comparisons (by simp [symbols, Token.Kind.text]), rfl⟩

private theorem lexeme_of_symbol (found : symbol? first = some kind) : Lexeme [first] kind :=
  have ⟨_, listed, alone⟩ := symbol_listed found
  alone ▸ .sign listed

private theorem lexeme_of_comparator (compares : first ∈ comparing) :
    ∃ tail kind, Lexeme (first :: tail) kind := by
  simp only [comparing, List.mem_cons, List.not_mem_nil, or_false] at compares
  have sign (text : String) (kind : Token.Kind) (listed : (text, kind) ∈ comparisons) :
      Lexeme text.toList kind :=
    .sign (List.mem_append_right symbols listed)
  rcases compares with rfl | rfl | rfl | rfl
  · exact ⟨[], .greater, sign ">" .greater (by simp [comparisons])⟩
  · exact ⟨[], .less, sign "<" .less (by simp [comparisons])⟩
  · exact ⟨[], .equal, sign "=" .equal (by simp [comparisons])⟩
  · exact ⟨['='], .bangEqual, sign "!=" .bangEqual (by simp [comparisons])⟩

theorem Lexeme.begins (lexeme : Lexeme (first :: tail) kind) :
    first.isDigit ∨ first.isAlpha ∨ first ∈ comparing ∨ (symbol? first).isSome := by
  cases digit : first.isDigit with
  | true => exact .inl rfl
  | false =>
    cases letter : first.isAlpha with
    | true => exact .inr (.inl rfl)
    | false =>
      obtain ⟨text, listed, split⟩ := lexeme.text digit letter
      rcases List.mem_append.mp listed with symbol | comparison
      · obtain ⟨character, alone, found⟩ := symbol_text symbol
        obtain rfl : first = character := by simpa [alone] using congrArg List.head? split
        exact .inr (.inr (.inr (Option.isSome_of_eq_some found)))
      · exact .inr (.inr (.inl (comparator_characters comparison first (split ▸ List.mem_cons_self))))

theorem piece_of_alien (alien : ∀ tail kind, ¬ Lexeme (first :: tail) kind) (rest : List Char) :
    piece first rest = ⟨[], [first], .error (.illegalCharacter first)⟩ := by
  have present := List.cons_ne_nil first []
  have noDigit : ¬ first.isDigit := fun digit =>
    alien [] _ (.int present (List.forall_mem_singleton.mpr digit))
  have noLetter : ¬ first.isAlpha := fun letter =>
    have ⟨kind, lexeme⟩ := lexeme_of_letters present (List.forall_mem_singleton.mpr letter)
    alien [] kind lexeme
  have noComparator : ¬ isComparatorCharacter first := fun compares =>
    have ⟨tail, kind, lexeme⟩ := lexeme_of_comparator (isComparatorCharacter_iff.mp compares)
    alien tail kind lexeme
  have noSymbol : symbol? first = none :=
    Option.eq_none_iff_forall_not_mem.mpr fun kind found => alien [] kind (lexeme_of_symbol found)
  simp only [piece, noSymbol, noDigit, noLetter, noComparator, if_false, Bool.false_eq_true]

private theorem float_text {text : List Char} {value : Float}
    (decimal : Lexeme text (.float value)) :
    ∃ whole fraction, text = whole ++ '.' :: fraction ∧ whole ≠ [] ∧
      (∀ character ∈ whole, character.isDigit) ∧ ∀ character ∈ fraction, character.isDigit := by
  cases decimal with
  | float present all all' => exact ⟨_, _, rfl, present, all, all'⟩
  | sign listed => simp [signs, symbols, comparisons] at listed

private theorem digit_of_float {value : Float} (decimal : Lexeme (first :: tail) (.float value)) :
    first.isDigit := by
  obtain ⟨whole, fraction, text, present, all, all'⟩ := float_text decimal
  exact (text ▸ numeral_of_point present all all').head first rfl

private theorem unpointed_of_not_digit (lexeme : Lexeme (first :: tail) kind)
    (other : first.isDigit = false) :
    Unpointed kind rest := by
  rintro ⟨value, rfl⟩
  rw [digit_of_float lexeme] at other
  cases other

theorem piece_of_second_point {value : Float} (decimal : Lexeme (first :: tail) (.float value))
    (rest : List Char) :
    piece first (tail ++ '.' :: rest) = ⟨first :: tail, ['.'], .error .badFloat⟩ := by
  have digit := digit_of_float decimal
  obtain ⟨whole, fraction, text, present, all, all'⟩ := float_text decimal
  rw [piece_of_digit digit, ← List.cons_append, text, number_of_points all all']

theorem piece_of_compared (run : Compared (first :: tail) rest)
    (unknown : ∀ kind, ¬ Lexeme (first :: tail) kind) :
    piece first (tail ++ rest) =
      ⟨[], first :: tail, .error (.badComparator (String.ofList (first :: tail)))⟩ := by
  rw [piece_of_comparator run.head, comparator_of_compared run, compared_of_unknown unknown]

end

/-- The text goes on with a lexeme that is the longest one there. -/
def Readable (first : Char) (behind : List Char) : Prop :=
  ∃ tail rest kind, behind = tail ++ rest ∧ Lexeme (first :: tail) kind ∧
    Longest (first :: tail) rest ∧ Unpointed kind rest

section

variable (before : List Char) {first : Char} (behind : List Char)

private theorem readable_or_second_point (digit : first.isDigit) :
    Readable first behind ∨ ∃ diagnostic, Offence before (first :: behind) diagnostic := by
  obtain ⟨tail, rest, split, all, ends⟩ : ∃ tail rest, behind = tail ++ rest ∧
      (∀ character ∈ first :: tail, character.isDigit) ∧ Ends Char.isDigit rest := by
    refine ⟨_, _, List.takeWhile_append_dropWhile.symm, ?_, ends_dropWhile Char.isDigit behind⟩
    exact List.forall_mem_cons.mpr ⟨digit, fun _ member => List.mem_takeWhile_imp member⟩
  have present := List.cons_ne_nil first tail
  by_cases point : rest.head? = some '.'
  · obtain ⟨later, rfl⟩ := List.head?_eq_some_iff.mp point
    obtain ⟨fraction, last, split', all', ends'⟩ : ∃ fraction last, later = fraction ++ last ∧
        (∀ character ∈ fraction, character.isDigit) ∧ Ends Char.isDigit last :=
      ⟨_, _, List.takeWhile_append_dropWhile.symm, fun _ member => List.mem_takeWhile_imp member,
        ends_dropWhile Char.isDigit later⟩
    have decimal := Lexeme.float present all all'
    by_cases second : last.head? = some '.'
    · obtain ⟨final, rfl⟩ := List.head?_eq_some_iff.mp second
      have text : first :: behind = first :: tail ++ '.' :: fraction ++ '.' :: final := by
        simp [split, split']
      rw [text]
      exact .inr ⟨_, .secondPoint final decimal⟩
    · refine .inl ⟨tail ++ '.' :: fraction, last, _, ?_, decimal,
        (longest_decimal present all all').mpr ends', fun _ => second⟩
      rw [split, split', List.append_assoc, List.cons_append]
  · refine .inl ⟨tail, rest, _, split, .int present all, (longest_digits present all).mpr ?_, nofun⟩
    intro character member
    refine Bool.or_eq_false_iff.mpr ⟨ends character member, decide_eq_false fun same => ?_⟩
    exact point (same ▸ member)

private theorem readable_of_letter (letter : first.isAlpha) : Readable first behind := by
  have all : ∀ character ∈ first :: behind.takeWhile Char.isAlpha, character.isAlpha :=
    List.forall_mem_cons.mpr ⟨letter, fun _ member => List.mem_takeWhile_imp member⟩
  have present := List.cons_ne_nil first (behind.takeWhile Char.isAlpha)
  obtain ⟨kind, lexeme⟩ := lexeme_of_letters present all
  exact ⟨_, _, kind, List.takeWhile_append_dropWhile.symm, lexeme,
    (longest_letters present all).mpr (ends_dropWhile Char.isAlpha behind),
    unpointed_of_not_digit lexeme (not_digit_of_letter letter)⟩

private theorem compared_run (compares : first ∈ comparing) :
    ∃ tail rest, behind = tail ++ rest ∧ Compared (first :: tail) rest := by
  cases behind with
  | nil => exact ⟨[], [], rfl, .alone compares nofun⟩
  | cons second later =>
    by_cases pair : second ∈ comparing
    · exact ⟨[second], later, rfl, .pair later compares pair⟩
    · refine ⟨[], second :: later, rfl, .alone compares fun character member => ?_⟩
      cases member
      exact pair

private theorem readable_or_comparator (compares : first ∈ comparing)
    (noDigit : first.isDigit = false) (noLetter : first.isAlpha = false) :
    Readable first behind ∨ ∃ diagnostic, Offence before (first :: behind) diagnostic := by
  obtain ⟨tail, rest, rfl, run⟩ := compared_run behind compares
  by_cases known : ∃ kind, Lexeme (first :: tail) kind
  · obtain ⟨kind, lexeme⟩ := known
    obtain ⟨text, listed, split⟩ := lexeme.text noDigit noLetter
    have longest : Longest text.toList rest := by
      refine longest_sign listed fun character second alone next _ => ?_
      rw [← split] at alone
      cases run with
      | alone _ ends => exact ends second next
      | pair => cases alone
    exact .inl ⟨tail, rest, kind, rfl, lexeme, split ▸ longest, unpointed_of_not_digit lexeme noDigit⟩
  · exact .inr ⟨_, .comparator run fun kind lexeme => known ⟨kind, lexeme⟩⟩

private theorem readable_of_symbol {kind : Token.Kind} (found : symbol? first = some kind)
    (noDigit : first.isDigit = false) (single : first ∉ comparing) :
    Readable first behind := by
  have lexeme := lexeme_of_symbol found
  obtain ⟨text, listed, lone⟩ := symbol_listed found
  have longest : Longest text.toList behind := by
    refine longest_sign listed fun character second alone _ compares => ?_
    obtain rfl : first = character := by simpa [lone] using alone
    exact absurd compares single
  exact ⟨[], behind, kind, rfl, lexeme, lone ▸ longest, unpointed_of_not_digit lexeme noDigit⟩

end

/-- A character that is no layout begins a lexeme that is the longest there, or an offence. -/
theorem lexeme_or_offence (before : List Char) {first : Char} (behind : List Char)
    (plain : first ∉ blanks) :
    Readable first behind ∨ ∃ diagnostic, Offence before (first :: behind) diagnostic := by
  by_cases digit : first.isDigit
  · exact readable_or_second_point before behind digit
  by_cases letter : first.isAlpha
  · exact .inl (readable_of_letter behind letter)
  have noDigit := Bool.eq_false_iff.mpr digit
  have noLetter := Bool.eq_false_iff.mpr letter
  by_cases compares : first ∈ comparing
  · exact readable_or_comparator before behind compares noDigit noLetter
  cases found : symbol? first with
  | some kind => exact .inl (readable_of_symbol behind found noDigit compares)
  | none =>
    refine .inr ⟨_, .illegal behind plain fun tail kind lexeme => ?_⟩
    rcases lexeme.begins with isDigit | isLetter | isComparator | isSymbol
    · exact digit isDigit
    · exact letter isLetter
    · exact compares isComparator
    · rw [found] at isSymbol
      cases isSymbol

end Reckon.Lexer

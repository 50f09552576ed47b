import Mathlib.Data.List.TakeWhile
import Reckon.Token.Lexer

/-!
Lexemes, the texts that tokens are read from, each with its kind. A lexer takes the longest that begins
where it stands, but of two comparator characters in a row it always takes both.
-/
namespace Reckon

namespace Position

/-- The place behind a text: its bytes in UTF-8, its line feeds and the characters of its last line. -/
def behind (before : List Char) : Position where
  index := (String.ofList before).utf8ByteSize
  line := 1 + before.count '\n'
  column := 1 + (before.reverse.takeWhile (· ≠ '\n')).length

private theorem behind_concat (before : List Char) (character : Char) :
    behind (before ++ [character]) = (behind before).advance character := by
  have bytes : (String.ofList (before ++ [character])).utf8ByteSize =
      (String.ofList before).utf8ByteSize + character.utf8Size := by
    rw [String.ofList_append, String.utf8ByteSize_append, ← String.singleton_eq_ofList,
      String.utf8ByteSize_singleton]
  unfold behind advance
  rw [bytes]
  by_cases feed : character = '\n'
  · simp [feed, Nat.add_assoc]
  · simp [feed, Nat.add_comm]

theorem advanceBy_behind (before text : List Char) :
    (behind before).advanceBy text = behind (before ++ text) := by
  induction text generalizing before with
  | nil => rw [advanceBy_nil, List.append_nil]
  | cons character text ih =>
    rw [advanceBy_cons, ← behind_concat, ih, List.append_assoc]
    rfl

end Position

namespace Lexer

def blanks : List Char := [' ', '\t', '\r', '\n']

def comparing : List Char := ['>', '<', '=', '!']

def words : List (String × Keyword) :=
  [("sclr", .sclr), ("and", .and), ("or", .or), ("not", .not), ("if", .if), ("then", .then),
    ("elif", .elif), ("else", .else)]

def symbols : List (String × Token.Kind) :=
  [("+", .plus), ("-", .minus), ("*", .star), ("/", .slash), ("^", .caret), ("(", .leftParen),
    (")", .rightParen)]

def comparisons : List (String × Token.Kind) :=
  [("=", .equal), ("==", .equalEqual), ("!=", .bangEqual), ("<", .less), ("<=", .lessEqual),
    (">", .greater), (">=", .greaterEqual)]

/-- The texts that are no words and have a kind each. -/
def signs : List (String × Token.Kind) := symbols ++ comparisons

inductive Lexeme : List Char → Token.Kind → Prop
  | int {digits : List Char} (present : digits ≠ [])
      (all : ∀ character ∈ digits, character.isDigit) :
      Lexeme digits (.int (Number.ofDecimal (.ofDigits digits [])))
  | float {whole fraction : List Char} (present : whole ≠ [])
      (all : ∀ character ∈ whole, character.isDigit)
      (all' : ∀ character ∈ fraction, character.isDigit) :
      Lexeme (whole ++ '.' :: fraction) (.float (Number.ofDecimal (.ofDigits whole fraction)))
  | keyword {text : String} {word : Keyword} (listed : (text, word) ∈ words) :
      Lexeme text.toList (.keyword word)
  | name {letters : List Char} (present : letters ≠ [])
      (all : ∀ character ∈ letters, character.isAlpha)
      (free : ∀ word, (String.ofList letters, word) ∉ words) :
      Lexeme letters (.name (String.ofList letters))
  | sign {text : String} {kind : Token.Kind} (listed : (text, kind) ∈ signs) :
      Lexeme text.toList kind

/-- No lexeme begins with the text and goes on, and a comparator character does not stand alone before
another one. -/
structure Longest (lexeme rest : List Char) : Prop where
  whole : ∀ more later kind, rest = more ++ later → more ≠ [] → ¬ Lexeme (lexeme ++ more) kind
  paired : ∀ first second, lexeme = [first] → rest.head? = some second →
    first ∈ comparing → second ∉ comparing

theorem isLayout_iff {character : Char} : isLayout character ↔ character ∈ blanks := by
  simp [isLayout, blanks, or_assoc]

theorem isLayout_eq_false_iff {character : Char} : isLayout character = false ↔ character ∉ blanks := by
  rw [← isLayout_iff, Bool.not_eq_true]

theorem isComparatorCharacter_iff {character : Char} :
    isComparatorCharacter character ↔ character ∈ comparing := by
  simp [isComparatorCharacter, comparing, or_assoc]

theorem word_listed {text : String} {word : Keyword} : (text, word) ∈ words ↔ text = word.text := by
  constructor
  · intro listed
    simp only [words, List.mem_cons, Prod.mk.injEq, List.not_mem_nil, or_false] at listed
    rcases listed with ⟨rfl, rfl⟩ | ⟨rfl, rfl⟩ | ⟨rfl, rfl⟩ | ⟨rfl, rfl⟩ | ⟨rfl, rfl⟩ | ⟨rfl, rfl⟩ |
      ⟨rfl, rfl⟩ | ⟨rfl, rfl⟩ <;> rfl
  · rintro rfl
    cases word <;> decide

theorem lexeme_of_keyword (word : Keyword) : Lexeme word.text.toList (.keyword word) :=
  .keyword (word_listed.mpr rfl)

section

variable {first : Char} {tail : List Char} {kind : Token.Kind}

private theorem not_comparator_of_word {character : Char}
    (word : character.isDigit ∨ character.isAlpha) :
    character ∉ comparing := by
  intro compares
  simp only [comparing, List.mem_cons, List.not_mem_nil, or_false] at compares
  rcases compares with rfl | rfl | rfl | rfl <;> exact absurd word (by decide)

theorem not_digit_of_letter {character : Char} (letter : character.isAlpha) :
    character.isDigit = false := by
  by_contra digit
  rw [Bool.not_eq_false] at digit
  have high : character.val ≤ 57 := of_decide_eq_true ((Bool.and_eq_true _ _).mp digit).2
  rcases (Bool.or_eq_true _ _).mp letter with upper | lower
  · have low : 65 ≤ character.val := (of_decide_eq_true upper).1
    exact absurd (UInt32.le_trans low high) (by decide)
  · have low : 97 ≤ character.val := of_decide_eq_true ((Bool.and_eq_true _ _).mp lower).1
    exact absurd (UInt32.le_trans low high) (by decide)

private theorem not_layout_of_word {character : Char}
    (word : character.isDigit ∨ character.isAlpha) :
    isLayout character = false := by
  by_contra layout
  simp only [isLayout, Bool.not_eq_false, Bool.or_eq_true, decide_eq_true_eq] at layout
  rcases layout with ((rfl | rfl) | rfl) | rfl <;> exact absurd word (by decide)

theorem not_layout_of_comparator {character : Char} (compares : character ∈ comparing) :
    isLayout character = false := by
  simp only [comparing, List.mem_cons, List.not_mem_nil, or_false] at compares
  rcases compares with rfl | rfl | rfl | rfl <;> rfl

theorem keyword_letters (word : Keyword) : ∀ character ∈ word.text.toList, character.isAlpha := by
  have all : word.text.toList.all Char.isAlpha = true := by cases word <;> decide
  exact List.all_eq_true.mp all

private theorem sign_characters {text : String} (listed : (text, kind) ∈ signs) :
    ∀ character ∈ text.toList,
      character.isDigit = false ∧ character.isAlpha = false ∧ isLayout character = false := by
  intro character inside
  have all : signs.all (fun sign => sign.1.toList.all fun character =>
      !character.isDigit && (!character.isAlpha && !isLayout character)) = true := by decide
  have plain := List.all_eq_true.mp (List.all_eq_true.mp all _ listed) character inside
  simpa only [Bool.and_eq_true, Bool.not_eq_true'] using plain

theorem Lexeme.ne_nil {text : List Char} (lexeme : Lexeme text kind) : text ≠ [] := by
  cases lexeme with
  | int present => exact present
  | float => exact List.append_ne_nil_of_right_ne_nil _ (List.cons_ne_nil _ _)
  | keyword listed =>
    have all : words.all (fun word => !word.1.toList.isEmpty) = true := by decide
    simpa using List.all_eq_true.mp all _ listed
  | name present => exact present
  | sign listed =>
    have all : signs.all (fun sign => !sign.1.toList.isEmpty) = true := by decide
    simpa using List.all_eq_true.mp all _ listed

structure Numeral (text : List Char) : Prop where
  head : ∀ character ∈ text.head?, character.isDigit
  all : ∀ character ∈ text, character.isDigit ∨ character = '.'
  single : text.count '.' ≤ 1

private theorem no_point {digits : List Char} (all : ∀ character ∈ digits, character.isDigit) :
    digits.count '.' = 0 :=
  List.count_eq_zero_of_not_mem fun point => absurd (all _ point) (by decide)

private theorem numeral_of_digits {digits : List Char}
    (all : ∀ character ∈ digits, character.isDigit) :
    Numeral digits where
  head character member := all character (List.mem_of_mem_head? member)
  all character member := .inl (all character member)
  single := by simp [no_point all]

theorem numeral_of_point {whole fraction : List Char} (present : whole ≠ [])
    (all : ∀ character ∈ whole, character.isDigit)
    (all' : ∀ character ∈ fraction, character.isDigit) : Numeral (whole ++ '.' :: fraction) where
  head character member := by
    cases whole with
    | nil => exact absurd rfl present
    | cons digit whole =>
      cases member
      exact all _ List.mem_cons_self
  all character member := by
    rcases List.mem_append.mp member with inside | inside
    · exact .inl (all character inside)
    · rcases List.mem_cons.mp inside with same | behind
      · exact .inr same
      · exact .inl (all' character behind)
  single := by simp [no_point all, no_point all']

private theorem Lexeme.sort {text : List Char} (lexeme : Lexeme text kind) :
    Numeral text ∨ (∀ character ∈ text, character.isAlpha) ∨
      ∃ sign : String, (sign, kind) ∈ signs ∧ text = sign.toList := by
  cases lexeme with
  | int present all => exact .inl (numeral_of_digits all)
  | float present all all' => exact .inl (numeral_of_point present all all')
  | keyword listed =>
    obtain rfl := word_listed.mp listed
    exact .inr (.inl (keyword_letters _))
  | name present all => exact .inr (.inl all)
  | sign listed => exact .inr (.inr ⟨_, listed, rfl⟩)

theorem Lexeme.plain {text : List Char} (lexeme : Lexeme text kind) :
    ∀ character ∈ text, isLayout character = false := by
  intro character member
  rcases lexeme.sort with numeral | letters | ⟨sign, listed, rfl⟩
  · rcases numeral.all character member with digit | rfl
    · exact not_layout_of_word (.inl digit)
    · rfl
  · exact not_layout_of_word (.inr (letters character member))
  · exact (sign_characters listed character member).2.2

private theorem Lexeme.numeral (lexeme : Lexeme (first :: tail) kind) (digit : first.isDigit) :
    Numeral (first :: tail) := by
  rcases lexeme.sort with numeral | letters | ⟨sign, listed, text⟩
  · exact numeral
  · rw [not_digit_of_letter (letters first List.mem_cons_self)] at digit
    cases digit
  · have plain := sign_characters listed first (text ▸ List.mem_cons_self)
    rw [plain.1] at digit
    cases digit

private theorem Lexeme.letters (lexeme : Lexeme (first :: tail) kind) (letter : first.isAlpha) :
    ∀ character ∈ first :: tail, character.isAlpha := by
  rcases lexeme.sort with numeral | letters | ⟨sign, listed, text⟩
  · have digit := numeral.head first rfl
    rw [not_digit_of_letter letter] at digit
    cases digit
  · exact letters
  · have plain := sign_characters listed first (text ▸ List.mem_cons_self)
    rw [plain.2.1] at letter
    cases letter

theorem Lexeme.text (lexeme : Lexeme (first :: tail) kind) (notDigit : first.isDigit = false)
    (notLetter : first.isAlpha = false) :
    ∃ sign : String, (sign, kind) ∈ signs ∧ first :: tail = sign.toList := by
  rcases lexeme.sort with numeral | letters | sign
  · have digit := numeral.head first rfl
    rw [notDigit] at digit
    cases digit
  · have letter := letters first List.mem_cons_self
    rw [notLetter] at letter
    cases letter
  · exact sign

end

/-- No character of a sort comes next. -/
def Ends (among : Char → Bool) (rest : List Char) : Prop :=
  ∀ character ∈ rest.head?, among character = false

def inNumeral (character : Char) : Bool :=
  character.isDigit || character = '.'

section

variable {rest : List Char} {text : String} {kind : Token.Kind}

theorem lexeme_of_letters {letters : List Char} (present : letters ≠ [])
    (all : ∀ character ∈ letters, character.isAlpha) : ∃ kind, Lexeme letters kind := by
  by_cases reserved : ∃ word, (String.ofList letters, word) ∈ words
  · obtain ⟨word, listed⟩ := reserved
    have lexeme := Lexeme.keyword listed
    rw [String.toList_ofList] at lexeme
    exact ⟨.keyword word, lexeme⟩
  · exact ⟨_, .name present all fun word listed => reserved ⟨word, listed⟩⟩

private theorem ends_of_longest {among : Char → Bool} {text : List Char}
    (longest : Longest text rest)
    (grows : ∀ character, among character → ∃ kind, Lexeme (text ++ [character]) kind) :
    Ends among rest := by
  intro character member
  cases rest with
  | nil => cases member
  | cons next rest =>
    cases member
    refine Bool.eq_false_iff.mpr fun inside => ?_
    obtain ⟨kind, longer⟩ := grows character inside
    exact longest.whole [character] rest kind rfl (List.cons_ne_nil _ _) longer

private theorem longest_of_ends {among : Char → Bool} {text : List Char} (ends : Ends among rest)
    (grows : ∀ more kind, Lexeme (text ++ more) kind → ∀ character ∈ more, among character)
    (plain : ∀ character ∈ text, character ∉ comparing) : Longest text rest where
  whole more later kind split some longer := by
    cases more with
    | nil => exact some rfl
    | cons next more =>
      have inside := grows (next :: more) kind longer next List.mem_cons_self
      rw [ends next (by rw [split]; rfl)] at inside
      cases inside
  paired first second alone _ compares := absurd compares (plain first (alone ▸ List.mem_cons_self))

theorem longest_digits {digits : List Char} (present : digits ≠ [])
    (all : ∀ character ∈ digits, character.isDigit) :
    Longest digits rest ↔ Ends inNumeral rest := by
  constructor
  · intro longest
    refine ends_of_longest longest fun character inside => ?_
    simp only [inNumeral, Bool.or_eq_true, decide_eq_true_eq] at inside
    rcases inside with digit | rfl
    · refine ⟨_, .int (List.append_ne_nil_of_left_ne_nil present _) fun other member => ?_⟩
      rcases List.mem_append.mp member with member | member
      · exact all other member
      · rw [List.mem_singleton.mp member]
        exact digit
    · exact ⟨_, .float present all nofun⟩
  · intro ends
    refine longest_of_ends ends (fun more kind longer character member => ?_) fun character member =>
      not_comparator_of_word (.inl (all character member))
    cases digits with
    | nil => exact absurd rfl present
    | cons first digits =>
      have numeral := longer.numeral (all first List.mem_cons_self)
      have inside := numeral.all character (List.mem_append_right (first :: digits) member)
      simpa [inNumeral] using inside

theorem longest_decimal {whole fraction : List Char} (present : whole ≠ [])
    (all : ∀ character ∈ whole, character.isDigit)
    (all' : ∀ character ∈ fraction, character.isDigit) :
    Longest (whole ++ '.' :: fraction) rest ↔ Ends Char.isDigit rest := by
  constructor
  · intro longest
    refine ends_of_longest longest fun character digit => ?_
    rw [List.append_assoc, List.cons_append]
    refine ⟨_, .float present all fun other member => ?_⟩
    rcases List.mem_append.mp member with member | member
    · exact all' other member
    · rw [List.mem_singleton.mp member]
      exact digit
  · intro ends
    refine longest_of_ends ends (fun more kind longer character member => ?_) fun character member => ?_
    · cases whole with
      | nil => exact absurd rfl present
      | cons first whole =>
        have numeral := longer.numeral (all first List.mem_cons_self)
        have inside := numeral.all character
          (List.mem_append_right (first :: whole ++ '.' :: fraction) member)
        have single : ((first :: whole ++ '.' :: fraction) ++ more).count '.' ≤ 1 := numeral.single
        rw [List.count_append, List.count_append, List.count_cons_self] at single
        rcases inside with digit | rfl
        · exact digit
        -- A further point would be the second one of the numeral.
        · have again := List.count_pos_iff.mpr member
          omega
    · rcases (numeral_of_point present all all').all character member with digit | rfl
      · exact not_comparator_of_word (.inl digit)
      · decide

theorem longest_letters {letters : List Char} (present : letters ≠ [])
    (all : ∀ character ∈ letters, character.isAlpha) :
    Longest letters rest ↔ Ends Char.isAlpha rest := by
  constructor
  · intro longest
    refine ends_of_longest longest fun character letter => ?_
    refine lexeme_of_letters (List.append_ne_nil_of_left_ne_nil present _) fun other member => ?_
    rcases List.mem_append.mp member with member | member
    · exact all other member
    · rw [List.mem_singleton.mp member]
      exact letter
  · intro ends
    refine longest_of_ends ends (fun more kind longer character member => ?_) fun character member =>
      not_comparator_of_word (.inr (all character member))
    cases letters with
    | nil => exact absurd rfl present
    | cons first letters =>
      exact longer.letters (all first List.mem_cons_self) character
        (List.mem_append_right (first :: letters) member)

theorem sign_text (listed : (text, kind) ∈ signs) :
    (∃ character, text.toList = [character]) ∨
      ∃ character, text.toList = [character, '='] ∧ character ∈ comparing := by
  simp only [signs, symbols, comparisons, List.cons_append, List.nil_append, List.mem_cons,
    Prod.mk.injEq, List.not_mem_nil, or_false] at listed
  rcases listed with ⟨rfl, -⟩ | ⟨rfl, -⟩ | ⟨rfl, -⟩ | ⟨rfl, -⟩ | ⟨rfl, -⟩ | ⟨rfl, -⟩ | ⟨rfl, -⟩ |
    ⟨rfl, -⟩ | ⟨rfl, -⟩ | ⟨rfl, -⟩ | ⟨rfl, -⟩ | ⟨rfl, -⟩ | ⟨rfl, -⟩ | ⟨rfl, -⟩ <;>
    first
    | exact .inl ⟨_, rfl⟩
    | exact .inr ⟨_, rfl, by decide⟩

/-- A sign goes on with another character only as a comparator of two. -/
private theorem sign_extended {other : Token.Kind} {more : List Char}
    (listed : (text, kind) ∈ signs)
    (some : more ≠ []) (longer : Lexeme (text.toList ++ more) other) :
    ∃ character, text.toList = [character] ∧ character ∈ comparing ∧ more = ['='] := by
  have plain := sign_characters listed
  obtain ⟨first, tail, split⟩ := List.exists_cons_of_ne_nil (Lexeme.sign listed).ne_nil
  rw [split] at plain longer
  have head := plain first List.mem_cons_self
  obtain ⟨sign, listed', same⟩ := Lexeme.text longer head.1 head.2.1
  have present := List.length_pos_iff.mpr some
  rcases sign_text listed' with ⟨character, short⟩ | ⟨character, pair, compares⟩
  · rw [short] at same
    have size : (first :: tail ++ more).length = 1 := congrArg List.length same
    simp only [List.length_append, List.length_cons] at size
    omega
  · rw [pair] at same
    cases tail with
    | nil =>
      obtain ⟨rfl, rfl⟩ := List.cons.inj same
      exact ⟨first, split, compares, rfl⟩
    | cons second tail =>
      have size : (first :: second :: tail ++ more).length = 2 := congrArg List.length same
      simp only [List.length_append, List.length_cons] at size
      omega

theorem longest_sign (listed : (text, kind) ∈ signs)
    (paired : ∀ first second, text.toList = [first] → rest.head? = some second →
      first ∈ comparing → second ∉ comparing) : Longest text.toList rest where
  whole more later other split some longer := by
    obtain ⟨character, alone, compares, rfl⟩ := sign_extended listed some longer
    exact paired character '=' alone (by rw [split]; rfl) compares (by decide)
  paired := paired

end

end Lexer

end Reckon

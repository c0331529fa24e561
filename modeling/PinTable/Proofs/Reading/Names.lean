import PinTable.Proofs.Reading.Declarations
import PinTable.Proofs.Reading.Table
import PinTable.Proofs.Symbol

set_option autoImplicit false

/- The symbols in C code. A line is cut into words at blanks, brackets and operators; a word is a
symbol unless it is a number, a text in quotes or a directive, and a reference names a symbol at
each of its steps. Comments hold no symbols, and neither does the reference in a row that its signal
gives. -/
namespace PinTable.Reading

/-- The characters that stand between the words of C code. -/
def isPunctuation (c : Char) : Bool :=
  isSeparator c || c == '(' || c == ')' || c == '[' || c == ']' || c == '=' || c == '*' ||
    c == '/' || c == '|'

def codeWords (text : String) : List (List Char) :=
  (text.toList.splitOnP isPunctuation).filter fun word => !word.isEmpty

/-- The symbols in a word: the steps of a reference, or the word, unless it is no symbol at all. -/
def wordSymbols (word : List Char) : List String :=
  match word with
  | [] => []
  | '&' :: path => (path.splitOn '.').map String.ofList
  | first :: _ =>
      if first = '"' ∨ first = '#' ∨ (readInt? word).isSome = true then [] else [String.ofList word]

def symbolsIn (text : String) : List String := (codeWords text).flatMap wordSymbols

/-- Every symbol in the text is an identifier. -/
def Spelled (text : String) : Prop := ∀ symbol ∈ symbolsIn text, isIdentifier symbol = true

instance (text : String) : Decidable (Spelled text) :=
  List.decidableBAll (fun symbol => isIdentifier symbol = true) (symbolsIn text)

def startsApart (text : String) : Bool := text.toList.head?.any isPunctuation

def endsApart (text : String) : Bool := text.toList.getLast?.any isPunctuation

/-- Where two texts meet at a blank, a bracket or an operator, no word goes on. -/
theorem symbolsIn_append (front rest : String)
    (apart : endsApart front = true ∨ startsApart rest = true) :
    symbolsIn (front ++ rest) = symbolsIn front ++ symbolsIn rest := by
  have words : codeWords (front ++ rest) = codeWords front ++ codeWords rest := by
    unfold codeWords
    rw [String.toList_append, ← List.filter_append]
    rcases apart with ends | starts
    · obtain ⟨c, last, punctuates⟩ := (Option.any_eq_true _ _).1 ends
      obtain ⟨others, listed⟩ := List.getLast?_eq_some_iff.1 last
      rw [listed, List.append_assoc, List.singleton_append, List.splitOnP_append_cons _ _ punctuates,
        List.splitOnP_append_cons _ _ punctuates]
      simp
    · obtain ⟨c, first, punctuates⟩ := (Option.any_eq_true _ _).1 starts
      obtain ⟨others, listed⟩ := List.head?_eq_some_iff.1 first
      have nothing := List.splitOnP_append_cons [] others punctuates
      rw [List.nil_append] at nothing
      rw [listed, List.splitOnP_append_cons _ _ punctuates, nothing]
      simp
  rw [symbolsIn, words, List.flatMap_append, symbolsIn, symbolsIn]

theorem spelled_append (front rest : String)
    (apart : endsApart front = true ∨ startsApart rest = true) :
    Spelled (front ++ rest) ↔ Spelled front ∧ Spelled rest := by
  rw [Spelled, symbolsIn_append front rest apart, List.forall_mem_append, Spelled, Spelled]

theorem startsApart_append (front rest : String) (starts : startsApart front = true) :
    startsApart (front ++ rest) = true := by
  obtain ⟨c, first, punctuates⟩ := (Option.any_eq_true _ _).1 starts
  rw [startsApart, String.toList_append, List.head?_append, first, Option.some_or, Option.any_some,
    punctuates]

/-- Text that stands in front of a word. -/
def Opens (text : String) : Prop := endsApart text = true ∧ Spelled text

/-- Text that stands behind a word. -/
def Closes (text : String) : Prop := startsApart text = true ∧ Spelled text

instance (text : String) : Decidable (Opens text) :=
  inferInstanceAs (Decidable (endsApart text = true ∧ Spelled text))

instance (text : String) : Decidable (Closes text) :=
  inferInstanceAs (Decidable (startsApart text = true ∧ Spelled text))

theorem Opens.append {front rest : String} (opens : Opens front) (spelled : Spelled rest) :
    Spelled (front ++ rest) :=
  (spelled_append front rest (.inl opens.1)).2 ⟨opens.2, spelled⟩

theorem Spelled.append {front rest : String} (spelled : Spelled front) (closes : Closes rest) :
    Spelled (front ++ rest) :=
  (spelled_append front rest (.inr closes.1)).2 ⟨spelled, closes.2⟩

/-- Text between two words closes the first and opens the second. -/
theorem Closes.append {front rest : String} (closes : Closes front) (opens : Opens front)
    (spelled : Spelled rest) : Closes (front ++ rest) :=
  ⟨startsApart_append front rest closes.1, opens.append spelled⟩

theorem symbolsIn_word (text : String) (nonempty : text.toList ≠ [])
    (plain : ∀ c ∈ text.toList, isPunctuation c = false) :
    symbolsIn text = wordSymbols text.toList := by
  have alone : codeWords text = [text.toList] := by
    rw [codeWords, List.splitOnP_eq_singleton plain]
    simpa using nonempty
  rw [symbolsIn, alone, List.flatMap_singleton]

theorem isPunctuation_of_isIdentifierChar (c : Char) (plain : isIdentifierChar c = true) :
    isPunctuation c = false := by
  have separates := isSeparator_of_isIdentifierChar c plain
  by_contra punctuates
  simp only [Bool.not_eq_false, isPunctuation, separates, Bool.false_or, Bool.or_eq_true,
    beq_iff_eq] at punctuates
  rcases punctuates with ((((((rfl | rfl) | rfl) | rfl) | rfl) | rfl) | rfl) | rfl <;> cases plain

theorem readInt?_eq_none (first : Char) (rest : List Char) (letter : isIdentifierChar first = true)
    (digit : first.isDigit = false) : readInt? (first :: rest) = none := by
  have minus : first ≠ '-' := by rintro rfl; cases letter
  have plus : first ≠ '+' := by rintro rfl; cases letter
  simp [readInt?, readNat?, minus, plus, digit]

/-- A word that starts as identifiers do is a symbol, whatever follows. -/
theorem wordSymbols_of_start (first : Char) (rest : List Char)
    (letter : isIdentifierChar first = true) (digit : first.isDigit = false) :
    wordSymbols (first :: rest) = [String.ofList (first :: rest)] := by
  have others : ¬ (first = '"' ∨ first = '#' ∨ (readInt? (first :: rest)).isSome = true) := by
    rw [readInt?_eq_none first rest letter digit]
    rintro (rfl | rfl | number)
    · cases letter
    · cases letter
    · cases number
  unfold wordSymbols
  split
  · next empty => cases empty
  · next same =>
      obtain ⟨rfl, -⟩ := List.cons.inj same
      cases letter
  · next same =>
      obtain ⟨rfl, rfl⟩ := List.cons.inj same
      rw [if_neg others]

theorem symbolsIn_of_start (text : String) (plain : ∀ c ∈ text.toList, isPunctuation c = false)
    (start : ∃ c ∈ text.toList.head?, isIdentifierChar c = true ∧ c.isDigit = false) :
    symbolsIn text = [text] := by
  obtain ⟨first, isFirst, letter, digit⟩ := start
  obtain ⟨rest, listed⟩ := List.head?_eq_some_iff.1 isFirst
  rw [symbolsIn_word text (by rw [listed]; exact List.cons_ne_nil _ _) plain, listed,
    wordSymbols_of_start first rest letter digit, ← listed, String.ofList_toList]

theorem start_of_isIdentifier (text : String) (identifier : isIdentifier text = true) :
    ∃ c ∈ text.toList.head?, isIdentifierChar c = true ∧ c.isDigit = false := by
  unfold isIdentifier at identifier
  cases listed : text.toList with
  | nil => rw [listed] at identifier; cases identifier
  | cons first rest =>
      simp only [listed, Bool.and_eq_true, Bool.not_eq_true'] at identifier
      exact ⟨first, rfl, identifier.1.2, identifier.1.1⟩

theorem symbolsIn_identifier (text : String) (identifier : isIdentifier text = true) :
    symbolsIn text = [text] :=
  symbolsIn_of_start text
    (fun c member =>
      isPunctuation_of_isIdentifierChar c (isIdentifierChar_of_mem text identifier c member))
    (start_of_isIdentifier text identifier)

theorem spelled_identifier (text : String) (identifier : isIdentifier text = true) :
    Spelled text := by
  rw [Spelled, symbolsIn_identifier text identifier, List.forall_mem_singleton]
  exact identifier

theorem wordSymbols_of_readInt? (first : Char) (rest : List Char) (value : Int)
    (number : readInt? (first :: rest) = some value) : wordSymbols (first :: rest) = [] := by
  unfold wordSymbols
  split
  · rfl
  · next same =>
      obtain ⟨rfl, rfl⟩ := List.cons.inj same
      simp [readInt?, readNat?] at number
  · next same =>
      obtain ⟨rfl, rfl⟩ := List.cons.inj same
      rw [number, if_pos (.inr (.inr rfl))]

theorem readInt?_intText (n : Int) : readInt? (intText n).toList = some n := by
  unfold intText
  split
  · next negative =>
      have value : -((n.natAbs : Nat) : Int) = n := by omega
      have digits := readNat?_decimalDigits n.natAbs
      have listed : ("-" ++ natText n.natAbs).toList = '-' :: decimalDigits n.natAbs := by
        simp [natText, String.toList_append]
      rw [listed, readInt?, digits]
      exact congrArg some value
  · next positive =>
      have value : ((n.natAbs : Nat) : Int) = n := by omega
      obtain ⟨first, rest, listed⟩ := List.exists_cons_of_ne_nil (decimalDigits_ne_nil n.natAbs)
      have digit := decimalDigits_isDigit n.natAbs first (by rw [listed]; exact List.mem_cons_self)
      have minus : first ≠ '-' := by rintro rfl; cases digit
      have plus : first ≠ '+' := by rintro rfl; cases digit
      have digits := readNat?_decimalDigits n.natAbs
      rw [listed] at digits
      rw [natText, String.toList_ofList, listed, readInt?, digits]
      · exact congrArg some value
      · exact fun _ same => minus (List.cons.inj same).1
      · exact fun _ same => plus (List.cons.inj same).1

theorem isPunctuation_of_mem_intText (n : Int) (c : Char) (member : c ∈ (intText n).toList) :
    isPunctuation c = false := by
  by_cases digit : c.isDigit = true
  · exact isPunctuation_of_isIdentifierChar c (by simp [isIdentifierChar, Char.isAlphanum, digit])
  · by_cases sign : c = '-'
    · rw [sign]; rfl
    · exact absurd member (not_mem_intText n c (Bool.eq_false_iff.2 digit) sign)

theorem spelled_intText (n : Int) : Spelled (intText n) := by
  have number := readInt?_intText n
  obtain ⟨first, rest, listed⟩ : ∃ first rest, (intText n).toList = first :: rest := by
    apply List.exists_cons_of_ne_nil
    intro empty
    rw [empty] at number
    cases number
  rw [listed] at number
  have nothing : symbolsIn (intText n) = [] := by
    rw [symbolsIn_word _ (by rw [listed]; exact List.cons_ne_nil _ _)
      (isPunctuation_of_mem_intText n), listed, wordSymbols_of_readInt? first rest n number]
  rw [Spelled, nothing]
  exact fun _ member => absurd member List.not_mem_nil

/-- Identifiers with points between them, as in the name of a member. -/
structure Steps (path : String) : Prop where
  plain : ∀ c ∈ path.toList, isPunctuation c = false
  each : ∀ step ∈ path.toList.splitOn '.', isIdentifier (String.ofList step) = true

theorem steps_identifier (text : String) (identifier : isIdentifier text = true) : Steps text := by
  have alone := List.splitOn_eq_singleton (not_mem_of_isIdentifier text identifier '.' rfl)
  refine ⟨fun c member =>
    isPunctuation_of_isIdentifierChar c (isIdentifierChar_of_mem text identifier c member), ?_⟩
  rw [alone, List.forall_mem_singleton, String.ofList_toList]
  exact identifier

theorem Steps.cons {path : String} (steps : Steps path) (first : String)
    (identifier : isIdentifier first = true) : Steps (first ++ ("." ++ path)) := by
  have listed : (first ++ ("." ++ path)).toList = first.toList ++ '.' :: path.toList := by
    simp [String.toList_append]
  obtain ⟨plain, each⟩ := steps_identifier first identifier
  refine ⟨?_, ?_⟩ <;> rw [listed]
  · simp only [List.forall_mem_append, List.forall_mem_cons]
    exact ⟨plain, rfl, steps.plain⟩
  · rw [List.splitOn_append_cons_self_of_not_mem (not_mem_of_isIdentifier first identifier '.' rfl),
      List.forall_mem_cons, String.ofList_toList]
    exact ⟨identifier, steps.each⟩

theorem spelled_addressOf (path : String) (steps : Steps path) : Spelled (addressOf path) := by
  have listed : (addressOf path).toList = '&' :: path.toList := by
    simp [addressOf, String.toList_append]
  have plain : ∀ c ∈ (addressOf path).toList, isPunctuation c = false := by
    rw [listed, List.forall_mem_cons]
    exact ⟨rfl, steps.plain⟩
  rw [Spelled, symbolsIn_word _ (by rw [listed]; exact List.cons_ne_nil _ _) plain, listed,
    wordSymbols]
  exact List.forall_mem_map.2 steps.each

theorem spelled_referenceTo (path : Option String) (steps : ∀ found ∈ path, Steps found) :
    Spelled (referenceTo path) := by
  cases path with
  | none => exact (by decide : Spelled nullReference)
  | some found => exact spelled_addressOf found (steps found rfl)

/-- A text in quotes is no symbol. -/
theorem spelled_quoted (text : String) (identifier : isIdentifier text = true) :
    Spelled ("\"" ++ (text ++ "\"")) := by
  have listed : ("\"" ++ (text ++ "\"")).toList = '"' :: (text.toList ++ ['"']) := by
    simp [String.toList_append]
  have plain : ∀ c ∈ ("\"" ++ (text ++ "\"")).toList, isPunctuation c = false := by
    rw [listed]
    simp only [List.forall_mem_cons, List.forall_mem_append, List.not_mem_nil, false_implies,
      implies_true, and_true]
    exact ⟨rfl, (steps_identifier text identifier).plain, rfl⟩
  have nothing : wordSymbols ('"' :: (text.toList ++ ['"'])) = [] := rfl
  rw [Spelled, symbolsIn_word _ (by rw [listed]; exact List.cons_ne_nil _ _) plain, listed, nothing]
  exact fun _ member => absurd member List.not_mem_nil

theorem spelled_spaced (words : List String) (each : ∀ word ∈ words, Spelled word) (rest : String)
    (spelled : Spelled rest) : Spelled (spaced words rest) := by
  have blank : Closes " " ∧ Opens " " := by decide
  induction words with
  | nil => exact spelled
  | cons first others ih =>
      obtain ⟨word, later⟩ := List.forall_mem_cons.1 each
      rw [spaced, List.foldr_cons, ← spaced]
      exact word.append (blank.1.append blank.2 (ih later))

theorem spelled_commaList (words : List String) (each : ∀ word ∈ words, Spelled word) :
    Spelled (commaList words) := by
  have glue : Closes ", " ∧ Opens ", " := by decide
  induction words with
  | nil => exact (by decide : Spelled "")
  | cons first rest ih =>
      obtain ⟨word, later⟩ := List.forall_mem_cons.1 each
      cases rest with
      | nil => exact word
      | cons second others =>
          rw [commaList_cons]
          exact word.append (glue.1.append glue.2 (ih later))

/-- The upper case of an identifier is one, since digits stay as they are. -/
theorem isIdentifier_uppercase (text : String) (identifier : isIdentifier text = true) :
    isIdentifier (uppercase text) = true := by
  have all : ∀ n < 128, isIdentifierChar (Char.ofNat n) = true →
      ∃ upper, charUppercase (Char.ofNat n) = [upper] ∧ isIdentifierChar upper = true ∧
        upper.isDigit = (Char.ofNat n).isDigit := by
    intro n small plain
    refine ⟨(Char.ofNat n).toUpper, ?_⟩
    revert n
    decide
  have each : ∀ c, isIdentifierChar c = true → ∃ upper, charUppercase c = [upper] ∧
      isIdentifierChar upper = true ∧ upper.isDigit = c.isDigit := by
    intro c plain
    have here := all c.toNat (toNat_lt_of_isIdentifierChar c plain)
    rw [Char.ofNat_toNat] at here
    exact here plain
  unfold isIdentifier at identifier ⊢
  rw [toList_uppercase]
  cases listed : text.toList with
  | nil => rw [listed] at identifier; cases identifier
  | cons first rest =>
      simp only [listed, Bool.and_eq_true, Bool.not_eq_true', List.all_eq_true] at identifier
      obtain ⟨upper, single, letter, digit⟩ := each first identifier.1.2
      simp only [List.flatMap_cons, single, List.singleton_append, Bool.and_eq_true,
        Bool.not_eq_true', List.all_eq_true, List.mem_flatMap]
      refine ⟨⟨digit.trans identifier.1.1, letter⟩, ?_⟩
      rintro c ⟨lower, member, isUpper⟩
      obtain ⟨other, alone, plain, -⟩ := each lower (identifier.2 lower member)
      rw [alone, List.mem_singleton] at isUpper
      rw [isUpper]
      exact plain

/-- The pieces of a line that are code and not a comment or a quotation: nothing of a comment, and of
a row the six entries in front of its signal and the last words, which stand behind it. -/
def codeOf (line : String) : List String :=
  if line.toList.head? = some '/' then []
  else
    match after? rowStart line with
    | some rest => (entriesIn rest).take 6 ++ (wordsIn line).reverse.take 5
    | none => [line]

def symbolsAmong (lines : List String) : List String :=
  lines.flatMap fun line => (codeOf line).flatMap symbolsIn

/-- Every symbol in the line is an identifier. -/
def SpelledLine (line : String) : Prop := ∀ code ∈ codeOf line, Spelled code

instance (line : String) : Decidable (SpelledLine line) :=
  List.decidableBAll Spelled (codeOf line)

theorem forall_mem_symbolsAmong (lines : List String) :
    (∀ symbol ∈ symbolsAmong lines, isIdentifier symbol = true) ↔
      ∀ line ∈ lines, SpelledLine line := by
  simp only [symbolsAmong, List.mem_flatMap, SpelledLine, Spelled]
  constructor
  · intro each line isLine code isCode symbol member
    exact each symbol ⟨line, isLine, code, isCode, member⟩
  · rintro each symbol ⟨line, isLine, code, isCode, member⟩
    exact each line isLine code isCode symbol member

/-- A symbol that stands alone in a line is among those of the lines. -/
theorem mem_symbolsAmong (lines : List String) (front symbol rest : String)
    (member : front ++ (symbol ++ rest) ∈ lines) (alone : symbolsIn symbol = [symbol])
    (opens : endsApart front = true) (closes : startsApart rest = true)
    (starts : ∃ c ∈ front.toList.head?, c ∉ ['/', ' ']) : symbol ∈ symbolsAmong lines := by
  obtain ⟨c, first, other⟩ := starts
  have head : (front ++ (symbol ++ rest)).toList.head? = some c := by
    rw [String.toList_append, List.head?_append, first, Option.some_or]
  simp only [List.mem_cons, List.not_mem_nil, or_false, not_or] at other
  have code : codeOf (front ++ (symbol ++ rest)) = [front ++ (symbol ++ rest)] := by
    rw [codeOf, head, if_neg fun same => other.1 (Option.some.inj same),
      after?_eq_none _ _ ' ' rfl (by rw [head]; exact fun same => other.2 (Option.some.inj same))]
  refine List.mem_flatMap.2 ⟨_, member, ?_⟩
  rw [code, List.flatMap_singleton, symbolsIn_append _ _ (.inl opens),
    symbolsIn_append _ _ (.inr closes), alone]
  exact List.mem_append_right _ (List.mem_append_left _ (List.mem_singleton_self symbol))

theorem identifier_mem_symbolsAmong (lines : List String) (front symbol rest : String)
    (member : front ++ (symbol ++ rest) ∈ lines) (identifier : isIdentifier symbol = true)
    (opens : endsApart front = true) (closes : startsApart rest = true)
    (starts : ∃ c ∈ front.toList.head?, c ∉ ['/', ' ']) : symbol ∈ symbolsAmong lines :=
  mem_symbolsAmong lines front symbol rest member (symbolsIn_identifier symbol identifier) opens
    closes starts

theorem symbolsAmong_subset {lines more : List String} (inside : lines ⊆ more) :
    symbolsAmong lines ⊆ symbolsAmong more := by
  intro symbol member
  obtain ⟨line, isLine, isSymbol⟩ := List.mem_flatMap.1 member
  exact List.mem_flatMap.2 ⟨line, inside isLine, isSymbol⟩

theorem spelledLine_comment (line : String) (comment : line.toList.head? = some '/') :
    SpelledLine line := by
  rw [SpelledLine, codeOf, if_pos comment]
  exact fun _ member => absurd member List.not_mem_nil

theorem Spelled.line {line : String} (spelled : Spelled line)
    (other : after? rowStart line = none) : SpelledLine line := by
  rw [SpelledLine, codeOf, other]
  split
  · exact fun _ member => absurd member List.not_mem_nil
  · exact List.forall_mem_singleton.2 spelled

theorem wordsIn_append_blank (front rest : String) :
    wordsIn (front ++ (" " ++ rest)) = wordsIn front ++ wordsIn rest := by
  have listed : (front ++ (" " ++ rest)).toList = front.toList ++ ' ' :: rest.toList := by
    simp [String.toList_append]
  rw [wordsIn, listed, List.splitOn_append_cons_self, List.map_append]
  rfl

theorem wordsIn_intercalate (words : List String) (nonempty : words ≠ [])
    (whole : ∀ word ∈ words, ' ' ∉ word.toList) :
    wordsIn (String.intercalate " " words) = words := by
  have alone : ∀ word : String, ' ' ∉ word.toList → wordsIn word = [word] := by
    intro word free
    rw [wordsIn, List.splitOn_eq_singleton free, List.map_singleton, String.ofList_toList]
  induction words with
  | nil => exact absurd rfl nonempty
  | cons first rest ih =>
      obtain ⟨free, later⟩ := List.forall_mem_cons.1 whole
      cases rest with
      | nil => rw [String.intercalate_singleton, alone first free]
      | cons second others =>
          rw [String.intercalate_cons_cons, String.append_assoc, wordsIn_append_blank,
            alone first free, ih (List.cons_ne_nil _ _) later]
          rfl

/-- What stands in a row behind its sixth entry does not matter, up to the last five words. -/
theorem spelledLine_row (entries : List String) (six : entries.length = 6)
    (words : ∀ entry ∈ entries, Word entry) (each : ∀ entry ∈ entries, Spelled entry)
    (quoted : String) (last : List String) (five : last.length = 5)
    (whole : ∀ word ∈ last, ' ' ∉ word.toList) (also : ∀ word ∈ last, Spelled word) :
    SpelledLine (rowStart ++ (commaList entries ++ (", " ++ (quoted ++ (" " ++
      String.intercalate " " last))))) := by
  have nonempty : entries ≠ [] := by rintro rfl; cases six
  have filled : last ≠ [] := by rintro rfl; cases five
  have code : (rowStart ++ (commaList entries ++ (", " ++ (quoted ++ (" " ++
      String.intercalate " " last))))).toList.head? ≠ some '/' := by
    rw [String.toList_append]
    exact fun same => by cases same
  have regrouped : rowStart ++ (commaList entries ++ (", " ++ (quoted ++ (" " ++
      String.intercalate " " last)))) = rowStart ++ (commaList entries ++ (", " ++ quoted)) ++
        (" " ++ String.intercalate " " last) := by
    simp only [String.append_assoc]
  have front := entriesIn_commaList_append entries nonempty words
    (quoted ++ (" " ++ String.intercalate " " last))
  rw [SpelledLine, codeOf, if_neg code, after?_append]
  simp only [front]
  rw [← six, List.take_left, regrouped, wordsIn_append_blank, wordsIn_intercalate last filled whole,
    List.reverse_append, ← five, ← List.length_reverse, List.take_left, List.forall_mem_append]
  exact ⟨each, fun word member => also word (List.mem_reverse.1 member)⟩

end PinTable.Reading

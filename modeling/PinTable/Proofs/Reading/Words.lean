import Mathlib.Data.List.Basic
import PinTable.Listing.Line
import PinTable.Parameter
import PinTable.Symbol

set_option autoImplicit false

namespace PinTable.Reading

/-- The characters that separate the parts of a line. -/
def isSeparator (c : Char) : Bool :=
  c == ' ' || c == ',' || c == ';' || c == '\x7b' || c == '\x7d' || c == '\n'

def Word (text : String) : Prop := ∀ c ∈ text.toList, isSeparator c = false

-- Characters are finitely many, but only those of the text are to be tried.
instance (text : String) : Decidable (Word text) :=
  List.decidableBAll (fun c => isSeparator c = false) text.toList

def Unbroken (text : String) : Prop := '\n' ∉ text.toList

instance (text : String) : Decidable (Unbroken text) :=
  inferInstanceAs (Decidable ('\n' ∉ text.toList))

@[simp] theorem word_append (first second : String) :
    Word (first ++ second) ↔ Word first ∧ Word second := by
  simp only [Word, String.toList_append, List.mem_append, or_imp, forall_and]

@[simp] theorem unbroken_append (first second : String) :
    Unbroken (first ++ second) ↔ Unbroken first ∧ Unbroken second := by
  simp only [Unbroken, String.toList_append, List.mem_append, not_or]

theorem Word.not_mem {text : String} (word : Word text) (separator : Char)
    (separates : isSeparator separator = true) : separator ∉ text.toList := by
  intro member
  rw [word separator member] at separates
  cases separates

theorem Word.unbroken {text : String} (word : Word text) : Unbroken text :=
  word.not_mem '\n' rfl

def isIdentifierChar (c : Char) : Bool := c.isAlphanum || c == '_'

/-- A C identifier: letters, digits and underscores, with no digit in front. -/
def isIdentifier (text : String) : Bool :=
  match text.toList with
  | [] => false
  | first :: rest => !first.isDigit && isIdentifierChar first && rest.all isIdentifierChar

theorem isIdentifierChar_of_mem (text : String) (identifier : isIdentifier text = true) (c : Char)
    (member : c ∈ text.toList) : isIdentifierChar c = true := by
  unfold isIdentifier at identifier
  cases listed : text.toList with
  | nil => rw [listed] at member; cases member
  | cons first rest =>
      simp only [listed, Bool.and_eq_true, List.all_eq_true] at identifier
      rw [listed] at member
      rcases List.mem_cons.1 member with rfl | later
      · exact identifier.1.2
      · exact identifier.2 c later

theorem not_mem_of_isIdentifier (text : String) (identifier : isIdentifier text = true) (c : Char)
    (other : isIdentifierChar c = false) : c ∉ text.toList := by
  intro member
  rw [isIdentifierChar_of_mem text identifier c member] at other
  cases other

theorem all_isIdentifierChar (text : String) (identifier : isIdentifier text = true) :
    text.toList.all isIdentifierChar = true :=
  List.all_eq_true.2 (isIdentifierChar_of_mem text identifier)

theorem isIdentifier_append (first rest : String) (identifier : isIdentifier first = true)
    (others : rest.toList.all isIdentifierChar = true) : isIdentifier (first ++ rest) = true := by
  unfold isIdentifier at identifier ⊢
  rw [String.toList_append]
  cases listed : first.toList with
  | nil => rw [listed] at identifier; cases identifier
  | cons start behind =>
      simp only [listed, List.cons_append, List.all_append, Bool.and_eq_true] at identifier ⊢
      exact ⟨identifier.1, identifier.2, others⟩

theorem isSeparator_of_isIdentifierChar (c : Char) (plain : isIdentifierChar c = true) :
    isSeparator c = false := by
  by_contra separates
  simp only [Bool.not_eq_false, isSeparator, Bool.or_eq_true, beq_iff_eq] at separates
  rcases separates with ((((rfl | rfl) | rfl) | rfl) | rfl) | rfl <;> cases plain

theorem word_of_isIdentifier (text : String) (identifier : isIdentifier text = true) :
    Word text :=
  fun c member =>
    isSeparator_of_isIdentifierChar c (isIdentifierChar_of_mem text identifier c member)

theorem word_natText (n : Nat) : Word (natText n) := by
  intro c member
  rw [natText, String.toList_ofList] at member
  have digit := decimalDigits_isDigit n c member
  exact isSeparator_of_isIdentifierChar c (by simp [isIdentifierChar, Char.isAlphanum, digit])

theorem word_intText (n : Int) : Word (intText n) := by
  unfold intText
  split
  · rw [word_append]
    exact ⟨by decide, word_natText _⟩
  · exact word_natText _

theorem word_kindName (kind : PinKind) : Word kind.name := by
  cases kind <;> decide

theorem word_typeSymbol (kind : PinKind) : Word kind.typeSymbol := by
  cases kind <;> decide

theorem word_parameterSymbol (parameter : Parameter) : Word parameter.symbol := by
  cases parameter <;> decide

theorem word_busSymbol (kind : BusKind) : Word kind.symbol := by
  cases kind <;> decide

theorem word_busIdSymbol (id : BusId) (base : Word id.base) : Word id.symbol := by
  simp only [BusId.symbol, word_append]
  exact ⟨⟨⟨⟨base, by decide⟩, word_kindName _⟩, by decide⟩, word_intText _⟩

theorem word_busDeviceSymbol (pin : QualifiedPin) (base : Word pin.base) (name : Word pin.name) :
    Word pin.busDeviceSymbol := by
  simp only [QualifiedPin.busDeviceSymbol, word_append]
  exact ⟨⟨⟨⟨base, by decide⟩, word_kindName _⟩, by decide⟩, name⟩

theorem word_member (pin : QualifiedPin) (base : Word pin.base) (name : Word pin.name) :
    Word pin.member := by
  simp only [QualifiedPin.member, word_append]
  exact ⟨⟨⟨⟨base, by decide⟩, word_kindName _⟩, by decide⟩, name⟩

theorem word_addressOf (symbol : String) (word : Word symbol) : Word (addressOf symbol) := by
  rw [addressOf, word_append]
  exact ⟨by decide, word⟩

theorem word_referenceTo (symbol : Option String) (word : ∀ name ∈ symbol, Word name) :
    Word (referenceTo symbol) := by
  cases symbol with
  | none => decide
  | some name => exact word_addressOf name (word name rfl)

theorem toNat_lt_of_isIdentifierChar (c : Char) (plain : isIdentifierChar c = true) :
    c.toNat < 128 := by
  unfold isIdentifierChar Char.isAlphanum Char.isAlpha Char.isUpper Char.isLower Char.isDigit
    at plain
  simp only [Bool.or_eq_true, Bool.and_eq_true, decide_eq_true_eq, UInt32.le_iff_toNat_le,
    ge_iff_le, beq_iff_eq] at plain
  rcases plain with ((upper | lower) | digit) | rfl
  · exact Nat.lt_of_le_of_lt upper.2 (by decide)
  · exact Nat.lt_of_le_of_lt lower.2 (by decide)
  · exact Nat.lt_of_le_of_lt digit.2 (by decide)
  · decide

/-- The upper case of a character of identifiers is no line feed. -/
theorem not_mem_charUppercase (c : Char) (plain : isIdentifierChar c = true) :
    '\n' ∉ charUppercase c := by
  have all : ∀ n < 128, isIdentifierChar (Char.ofNat n) = true →
      '\n' ∉ charUppercase (Char.ofNat n) := by
    decide
  have here := all c.toNat (toNat_lt_of_isIdentifierChar c plain)
  rw [Char.ofNat_toNat] at here
  exact here plain

theorem unbroken_uppercase (text : String) (identifier : isIdentifier text = true) :
    Unbroken (uppercase text) := by
  rw [Unbroken, toList_uppercase, List.mem_flatMap]
  rintro ⟨c, member, feed⟩
  exact not_mem_charUppercase c (isIdentifierChar_of_mem text identifier c member) feed

def linesIn (text : String) : List String := (text.toList.splitOn '\n').map String.ofList

/-- Lines that are written are read, whatever text stands behind them. -/
theorem linesIn_textOf_append (lines : List String) (unbroken : ∀ line ∈ lines, Unbroken line)
    (text : String) : linesIn (Listing.textOf lines ++ text) = lines ++ linesIn text := by
  induction lines with
  | nil => rw [Listing.textOf, List.map_nil, String.join_nil, String.empty_append, List.nil_append]
  | cons line rest ih =>
      have first := unbroken line (List.mem_cons_self ..)
      have others := ih fun other member => unbroken other (List.mem_cons_of_mem _ member)
      have split : (Listing.textOf (line :: rest) ++ text).toList =
          line.toList ++ '\n' :: (Listing.textOf rest ++ text).toList := by
        rw [← List.singleton_append, Listing.textOf_append, String.append_assoc,
          String.toList_append]
        simp [Listing.textOf]
      rw [linesIn, split, List.splitOn_append_cons_self_of_not_mem first, List.map_cons,
        String.ofList_toList, ← linesIn, others, List.cons_append]

/-- A text of lines ends after the last. -/
theorem linesIn_textOf (lines : List String) (unbroken : ∀ line ∈ lines, Unbroken line) :
    linesIn (Listing.textOf lines) = lines ++ [""] := by
  rw [← String.append_empty (s := Listing.textOf lines), linesIn_textOf_append lines unbroken]
  rfl

/-- What follows the start of a line. -/
def after? (start line : String) : Option String :=
  (line.toList.dropPrefix? start.toList).map String.ofList

@[simp] theorem after?_append (start rest : String) : after? start (start ++ rest) = some rest := by
  rw [after?, String.toList_append, List.dropPrefix?_append_of_beq _ (beq_self_eq_true _),
    Option.map_some, String.ofList_toList]

theorem eq_append_of_after? (start line rest : String) (found : after? start line = some rest) :
    line = start ++ rest := by
  obtain ⟨others, dropped, rfl⟩ := Option.map_eq_some_iff.1 found
  obtain ⟨front, split, same⟩ := List.dropPrefix?_eq_some_iff.1 dropped
  apply String.toList_inj.1
  rw [String.toList_append, String.toList_ofList, split, eq_of_beq same]

/-- A line with another first character does not start so. -/
theorem after?_eq_none (start line : String) (first : Char)
    (starts : start.toList.head? = some first) (different : line.toList.head? ≠ some first) :
    after? start line = none := by
  cases found : after? start line with
  | none => rfl
  | some rest =>
      rw [eq_append_of_after? start line rest found, String.toList_append, List.head?_append,
        starts] at different
      exact absurd rfl different

/-- A line that starts in another way does not start so. -/
theorem after?_append_eq_none (start front rest : String)
    (shorter : ¬ start.toList <+: front.toList) (longer : ¬ front.toList <+: start.toList) :
    after? start (front ++ rest) = none := by
  cases found : after? start (front ++ rest) with
  | none => rfl
  | some others =>
      have same := congrArg String.toList (eq_append_of_after? _ _ _ found)
      rw [String.toList_append, String.toList_append] at same
      have one : start.toList <+: front.toList ++ rest.toList := ⟨others.toList, same.symm⟩
      rcases List.prefix_or_prefix_of_prefix one (List.prefix_append _ _) with short | long
      · exact absurd short shorter
      · exact absurd long longer

theorem takeWhile_ne_append {α : Type} [BEq α] [LawfulBEq α] (stop : α) (first rest : List α)
    (free : stop ∉ first) : (first ++ stop :: rest).takeWhile (· != stop) = first := by
  rw [List.takeWhile_append_of_pos, List.takeWhile_cons_of_neg, List.append_nil]
  · simp
  · intro item member
    rw [bne_iff_ne]
    rintro rfl
    exact free member

theorem dropWhile_ne_append {α : Type} [BEq α] [LawfulBEq α] (stop : α) (first rest : List α)
    (free : stop ∉ first) :
    (first ++ stop :: rest).dropWhile (· != stop) = stop :: rest := by
  rw [List.dropWhile_append_of_pos, List.dropWhile_cons_of_neg]
  · simp
  · intro item member
    rw [bne_iff_ne]
    rintro rfl
    exact free member

def upTo (stop : Char) (text : String) : String :=
  String.ofList (text.toList.takeWhile (· != stop))

theorem upTo_append (stop : Char) (first rest : String) (free : stop ∉ first.toList)
    (stopped : rest.toList.head? = some stop) : upTo stop (first ++ rest) = first := by
  obtain ⟨others, listed⟩ := List.head?_eq_some_iff.1 stopped
  rw [upTo, String.toList_append, listed, takeWhile_ne_append stop _ _ free, String.ofList_toList]

def entriesIn (text : String) : List String :=
  (text.toList.splitOn ',').map fun entry => String.ofList (entry.dropWhile (· == ' '))

/-- Blanks in front of a list do not count. -/
theorem entriesIn_blank (text : String) : entriesIn (" " ++ text) = entriesIn text := by
  have blank : (" " ++ text).toList = ' ' :: text.toList := by
    rw [String.toList_append]
    rfl
  rw [entriesIn, entriesIn, blank, List.splitOn_cons_eq_if_modifyHead]
  cases text.toList.splitOn ',' <;> simp

theorem trim_word (text : String) (word : Word text) :
    String.ofList (text.toList.dropWhile (· == ' ')) = text := by
  cases listed : text.toList with
  | nil => rw [List.dropWhile_nil, ← listed, String.ofList_toList]
  | cons first rest =>
      have plain : (first == ' ') = false := by
        rw [beq_eq_false_iff_ne]
        rintro rfl
        exact word.not_mem ' ' rfl (by rw [listed]; exact List.mem_cons_self ..)
      rw [List.dropWhile_cons, plain, if_neg Bool.false_ne_true, ← listed, String.ofList_toList]

theorem entriesIn_comma (first rest : String) (word : Word first) :
    entriesIn (first ++ ("," ++ rest)) = first :: entriesIn rest := by
  have text : (first ++ ("," ++ rest)).toList = first.toList ++ ',' :: rest.toList := by
    simp [String.toList_append]
  rw [entriesIn, text, List.splitOn_append_cons_self_of_not_mem (word.not_mem ',' rfl),
    List.map_cons, trim_word first word]
  rfl

theorem entriesIn_append (first rest : String) (word : Word first) :
    entriesIn (first ++ (", " ++ rest)) = first :: entriesIn rest := by
  have comma : ", " = "," ++ " " := rfl
  rw [comma, String.append_assoc, entriesIn_comma first _ word, entriesIn_blank]

theorem entriesIn_word (text : String) (word : Word text) : entriesIn text = [text] := by
  rw [entriesIn, List.splitOn_eq_singleton (word.not_mem ',' rfl), List.map_singleton,
    trim_word text word]

def commaList (words : List String) : String := String.intercalate ", " words

theorem commaList_cons (first second : String) (rest : List String) :
    commaList (first :: second :: rest) = first ++ (", " ++ commaList (second :: rest)) := by
  rw [commaList, String.intercalate_cons_cons, ← commaList, String.append_assoc]

theorem entriesIn_commaList (words : List String) (nonempty : words ≠ [])
    (each : ∀ word ∈ words, Word word) : entriesIn (commaList words) = words := by
  induction words with
  | nil => exact absurd rfl nonempty
  | cons first rest ih =>
      obtain ⟨word, later⟩ := List.forall_mem_cons.1 each
      cases rest with
      | nil => exact entriesIn_word first word
      | cons second others =>
          rw [commaList_cons, entriesIn_append first _ word, ih (List.cons_ne_nil _ _) later]

/-- Between words stand commas and blanks, no other separators. -/
theorem not_mem_commaList (words : List String) (each : ∀ word ∈ words, Word word)
    (separator : Char) (separates : isSeparator separator = true)
    (others : separator ∉ ", ".toList) : separator ∉ (commaList words).toList := by
  induction words with
  | nil => exact List.not_mem_nil
  | cons first rest ih =>
      have free := (each first (List.mem_cons_self ..)).not_mem separator separates
      cases rest with
      | nil => rwa [commaList, String.intercalate_singleton]
      | cons second more =>
          have later := ih fun other member => each other (List.mem_cons_of_mem _ member)
          simp only [commaList_cons, String.toList_append, List.mem_append, not_or]
          exact ⟨free, others, later⟩

theorem entriesIn_commaList_append (words : List String) (nonempty : words ≠ [])
    (each : ∀ word ∈ words, Word word) (rest : String) :
    entriesIn (commaList words ++ (", " ++ rest)) = words ++ entriesIn rest := by
  induction words with
  | nil => exact absurd rfl nonempty
  | cons first others ih =>
      obtain ⟨word, later⟩ := List.forall_mem_cons.1 each
      cases others with
      | nil =>
          rw [commaList, String.intercalate_singleton, entriesIn_append first rest word]
          rfl
      | cons second more =>
          rw [commaList_cons, String.append_assoc, String.append_assoc,
            entriesIn_append first _ word, ih (List.cons_ne_nil _ _) later]
          rfl

def closingComment? (line : String) : Option String :=
  (line.toList.reverse.dropPrefix? " */".toList.reverse).map fun backward =>
    String.ofList (backward.takeWhile (· != ' ')).reverse

theorem closingComment?_append (line name : String) (word : Word name) :
    closingComment? (line ++ (" /* " ++ (name ++ " */"))) = some name := by
  have backward : (line ++ (" /* " ++ (name ++ " */"))).toList.reverse =
      " */".toList.reverse ++
        (name.toList.reverse ++ ' ' :: ("/*".toList.reverse ++ (' ' :: line.toList.reverse))) := by
    simp [String.toList_append]
  have free : ' ' ∉ name.toList.reverse := by
    rw [List.mem_reverse]
    exact word.not_mem ' ' rfl
  rw [closingComment?, backward, List.dropPrefix?_append_of_beq _ (beq_self_eq_true _),
    Option.map_some, takeWhile_ne_append ' ' _ _ free, List.reverse_reverse, String.ofList_toList]

end PinTable.Reading

import PinTable.Proofs.Reading.Records

set_option autoImplicit false

/- The objects and functions that C code declares and defines. A header declares an object with
`extern` and a function by its prototype. A source defines an object where it is given a value, and
a function where its parameters are not followed by a semicolon. What is `static` is known to its
source alone, and is left out. -/
namespace PinTable.Reading

def wordsIn (text : String) : List String := (text.toList.splitOn ' ').map String.ofList

/-- Words with a blank behind each, and what follows them. -/
def spaced (words : List String) (rest : String) : String :=
  words.foldr (fun word text => word ++ (" " ++ text)) rest

theorem wordsIn_word (text : String) (word : Word text) : wordsIn text = [text] := by
  rw [wordsIn, List.splitOn_eq_singleton (word.not_mem ' ' rfl), List.map_singleton,
    String.ofList_toList]

theorem wordsIn_append (first rest : String) (word : Word first) :
    wordsIn (first ++ (" " ++ rest)) = first :: wordsIn rest := by
  have text : (first ++ (" " ++ rest)).toList = first.toList ++ ' ' :: rest.toList := by
    simp [String.toList_append]
  rw [wordsIn, text, List.splitOn_append_cons_self_of_not_mem (word.not_mem ' ' rfl),
    List.map_cons, String.ofList_toList]
  rfl

theorem wordsIn_spaced (words : List String) (each : ∀ word ∈ words, Word word) (rest : String) :
    wordsIn (spaced words rest) = words ++ wordsIn rest := by
  induction words with
  | nil => rfl
  | cons first others ih =>
      obtain ⟨word, later⟩ := List.forall_mem_cons.1 each
      rw [spaced, List.foldr_cons, ← spaced, wordsIn_append first _ word, ih later]
      rfl

theorem not_mem_spaced (words : List String) (rest : String) (c : Char) (blank : c ≠ ' ')
    (each : ∀ word ∈ words, c ∉ word.toList) (free : c ∉ rest.toList) :
    c ∉ (spaced words rest).toList := by
  induction words with
  | nil => exact free
  | cons first others ih =>
      obtain ⟨here, later⟩ := List.forall_mem_cons.1 each
      simp only [spaced, List.foldr_cons, String.toList_append, List.mem_append, not_or]
      exact ⟨here, by simpa using blank, ih later⟩

/-- What stands in front of the end of a text. -/
def before? (ending text : String) : Option String :=
  (text.toList.reverse.dropPrefix? ending.toList.reverse).map fun backward =>
    String.ofList backward.reverse

@[simp] theorem before?_append (front ending : String) :
    before? ending (front ++ ending) = some front := by
  rw [before?, String.toList_append, List.reverse_append,
    List.dropPrefix?_append_of_beq _ (beq_self_eq_true _), Option.map_some, List.reverse_reverse,
    String.ofList_toList]

theorem eq_append_of_before? (ending text front : String)
    (found : before? ending text = some front) : text = front ++ ending := by
  obtain ⟨backward, dropped, rfl⟩ := Option.map_eq_some_iff.1 found
  obtain ⟨back, split, same⟩ := List.dropPrefix?_eq_some_iff.1 dropped
  apply String.toList_inj.1
  have turned := congrArg List.reverse split
  rw [List.reverse_reverse, List.reverse_append, eq_of_beq same, List.reverse_reverse] at turned
  rw [String.toList_append, String.toList_ofList, turned]

/-- A text that ends in another way does not end so. -/
theorem before?_append_eq_none (ending front back : String)
    (shorter : ¬ ending.toList <:+ back.toList) (longer : ¬ back.toList <:+ ending.toList) :
    before? ending (front ++ back) = none := by
  cases found : before? ending (front ++ back) with
  | none => rfl
  | some others =>
      have same := congrArg String.toList (eq_append_of_before? _ _ _ found)
      rw [String.toList_append, String.toList_append] at same
      have one : ending.toList <:+ front.toList ++ back.toList := ⟨others.toList, same.symm⟩
      rcases List.suffix_or_suffix_of_suffix one (List.suffix_append _ _) with short | long
      · exact absurd short shorter
      · exact absurd long longer

/-- What a line of C declares or defines. The declarator of a pointer has its star. -/
inductive Declaration where
  | object (type : List String) (declarator : String)
  | function (result : List String) (name parameters : String)
  deriving DecidableEq, Repr

namespace Declaration

def isObject : Declaration → Bool
  | object .. => true
  | function .. => false

def functionName? : Declaration → Option String
  | object .. => none
  | function _ name _ => some name

end Declaration

/-- The line stands at file scope: it starts with a word, and is neither indented, nor a brace, a
comment or a directive. -/
def atFileScope (line : String) : Bool := line.toList.head?.any isIdentifierChar

/-- The words that say where an object is kept, and not what it is. -/
def storageWords : List String := ["OS_FLASH_MEM", "OS_FLASH_MEM_H"]

/-- The object that words declare, of which the last is its declarator. -/
def objectOf (words : List String) : Declaration :=
  .object (words.dropLast.filter fun word => !storageWords.contains word) (words.getLastD "")

/-- The function whose result, name and parameters a line gives in front of its ending. -/
def function? (ending line : String) : Option Declaration := do
  let text ← before? (")" ++ ending) line
  let front := upTo '(' text
  let parameters ← after? (front ++ "(") text
  match (wordsIn front).reverse with
  | name :: word :: others => some (.function (word :: others).reverse name parameters)
  | _ => none

theorem function?_eq_none (ending line : String) (other : before? (")" ++ ending) line = none) :
    function? ending line = none := by
  rw [function?, other]
  rfl

/-- What a line of a header declares. -/
def declaredBy? (line : String) : Option Declaration :=
  if atFileScope line then
    match after? "extern " line with
    | some rest => some (objectOf (wordsIn (upTo ';' rest)))
    | none => function? ";" line
  else none

/-- What a line of a source defines for other files. -/
def definedBy? (line : String) : Option Declaration :=
  if atFileScope line ∧ (wordsIn line).head? ≠ some "static" then
    if "=" ∈ wordsIn line then some (objectOf ((wordsIn line).takeWhile (· != "=")))
    else function? "" line
  else none

def declarationsIn (header : String) : List Declaration := (linesIn header).filterMap declaredBy?

def definitionsIn (source : String) : List Declaration := (linesIn source).filterMap definedBy?

theorem filterMap_declaredBy?_eq_nil (lines : List String)
    (inner : ∀ line ∈ lines, atFileScope line = false) : lines.filterMap declaredBy? = [] := by
  rw [List.filterMap_eq_nil_iff]
  intro line member
  rw [declaredBy?, inner line member, if_neg Bool.false_ne_true]

theorem filterMap_definedBy?_eq_nil (lines : List String)
    (inner : ∀ line ∈ lines, atFileScope line = false) : lines.filterMap definedBy? = [] := by
  rw [List.filterMap_eq_nil_iff]
  intro line member
  rw [definedBy?, inner line member, if_neg fun both => Bool.false_ne_true both.1]

theorem atFileScope_eq_false (line : String) (c : Char) (starts : line.toList.head? = some c)
    (other : isIdentifierChar c = false) : atFileScope line = false := by
  rw [atFileScope, starts, Option.any_some, other]

theorem atFileScope_append (c : Char) (front rest : String) (starts : front.toList.head? = some c) :
    atFileScope (front ++ rest) = isIdentifierChar c := by
  rw [atFileScope, String.toList_append, List.head?_append, starts, Option.some_or]
  rfl

/-- An object that is declared is read with the words in front of its declarator. -/
theorem declaredBy?_extern (words : List String) (declarator : String)
    (each : ∀ word ∈ words, Word word) (word : Word declarator) :
    declaredBy? ("extern " ++ (spaced words declarator ++ ";")) =
      some (objectOf (words ++ [declarator])) := by
  have free : ';' ∉ (spaced words declarator).toList :=
    not_mem_spaced words declarator ';' (by decide)
      (fun other member => (each other member).not_mem ';' rfl) (word.not_mem ';' rfl)
  have inner : upTo ';' (spaced words declarator ++ ";") = spaced words declarator :=
    upTo_append ';' _ _ free rfl
  rw [declaredBy?, atFileScope_append 'e' _ _ rfl, after?_append]
  simp only [inner, wordsIn_spaced words each, wordsIn_word declarator word]
  rfl

/-- An object that is given a value is read with the words in front of that. -/
theorem definedBy?_spaced (words : List String) (rest : String)
    (outer : atFileScope (spaced words rest) = true) (shared : words.head? ≠ some "static")
    (each : ∀ word ∈ words, Word word ∧ word ≠ "=") (value : (wordsIn rest).head? = some "=") :
    definedBy? (spaced words rest) = some (objectOf words) := by
  obtain ⟨others, listed⟩ := List.head?_eq_some_iff.1 value
  have split : wordsIn (spaced words rest) = words ++ "=" :: others := by
    rw [wordsIn_spaced _ (fun word member => (each word member).1), listed]
  have global : (wordsIn (spaced words rest)).head? ≠ some "static" := by
    rw [split]
    cases words with
    | nil => exact fun same => absurd (Option.some.inj same) (by decide)
    | cons first _ => exact shared
  have free : "=" ∉ words := fun member => (each _ member).2 rfl
  rw [definedBy?, if_pos ⟨outer, global⟩, split,
    if_pos (List.mem_append_right _ (List.mem_cons_self ..)), takeWhile_ne_append _ _ _ free]

/-- The object that words of storage, a type and a declarator declare. -/
theorem objectOf_stored (storage : List String) (stored : ∀ word ∈ storage, word ∈ storageWords)
    (type declarator : String) (isType : type ∉ storageWords) :
    objectOf (storage ++ [type, declarator]) = .object [type] declarator := by
  have parts : storage ++ [type, declarator] = storage ++ [type] ++ [declarator] := by
    rw [List.append_assoc, List.singleton_append]
  have dropped : storage.filter (fun word => !storageWords.contains word) = [] := by
    rw [List.filter_eq_nil_iff]
    intro word member
    simpa using stored word member
  have kept : [type].filter (fun word => !storageWords.contains word) = [type] := by
    rw [List.filter_eq_self, List.forall_mem_singleton]
    simpa using isType
  rw [objectOf, parts, List.dropLast_concat, List.filter_append, dropped, kept, List.nil_append,
    List.getLastD_concat]

/-- A function is read with its result, its name and its parameters. -/
theorem function?_line (ending result name parameters : String) (isResult : Word result)
    (isName : Word name) (unopened : '(' ∉ result.toList) (alsoUnopened : '(' ∉ name.toList) :
    function? ending (result ++ (" " ++ (name ++ ("(" ++ (parameters ++ (")" ++ ending)))))) =
      some (.function [result] name parameters) := by
  have text : result ++ (" " ++ (name ++ ("(" ++ (parameters ++ (")" ++ ending))))) =
      result ++ (" " ++ name) ++ ("(" ++ parameters) ++ (")" ++ ending) := by
    simp only [String.append_assoc]
  have front : upTo '(' (result ++ (" " ++ name) ++ ("(" ++ parameters)) =
      result ++ (" " ++ name) := by
    apply upTo_append
    · simp only [String.toList_append, List.mem_append, not_or]
      exact ⟨unopened, by decide, alsoUnopened⟩
    · rw [String.toList_append]
      rfl
  have behind : after? (result ++ (" " ++ name) ++ "(")
      (result ++ (" " ++ name) ++ ("(" ++ parameters)) = some parameters := by
    have opened : result ++ (" " ++ name) ++ ("(" ++ parameters) =
        result ++ (" " ++ name) ++ "(" ++ parameters := String.append_assoc.symm
    rw [opened, after?_append]
  rw [text]
  simp only [function?, before?_append, Option.bind_eq_bind, Option.bind_some, front, behind,
    wordsIn_append result name isResult, wordsIn_word name isName]
  rfl

end PinTable.Reading

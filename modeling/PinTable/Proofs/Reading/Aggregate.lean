import PinTable.Proofs.Listing.Lines
import PinTable.Proofs.Reading.Table

set_option autoImplicit false

/- C aggregates in a text: a structure type with its members, the initializer of a table, and an
array of references. The readers are strict. They know every line between the braces or read nothing
at all, so no line is passed over. -/
namespace PinTable.Reading

/-- The lines behind the first one that is the given line. -/
def linesAfter (line text : String) : List String :=
  ((linesIn text).dropWhile (· != line)).tail

theorem linesAfter_eq (line text : String) (front behind : List String)
    (lines : linesIn text = front ++ line :: behind) (fresh : line ∉ front) :
    linesAfter line text = behind := by
  rw [linesAfter, lines, dropWhile_ne_append line front behind fresh, List.tail_cons]

/-- An aggregate that lines begin with, and the lines behind it. -/
structure Aggregate where
  parts : List (List String)
  rest : List String
  deriving DecidableEq, Repr

/-- The aggregate that lines begin with. Empty lines separate its parts. -/
def aggregate? (closing : String) : List String → Option Aggregate
  | [] => none
  | first :: rest =>
      if first = "\x7b" ++ closing then some ⟨[], rest⟩
      else if first = "\x7b" ∧ closing ∈ rest then
        some ⟨(rest.takeWhile (· != closing)).splitOn "", (rest.dropWhile (· != closing)).tail⟩
      else none

/-- An aggregate that is written is read, whatever lines stand behind it. Its parts are indented, so
no line of theirs separates two parts or closes the aggregate. -/
theorem aggregate?_aggregate (parts : List (List String)) (closing : String) (rest : List String)
    (closes : closing.toList.head? = some '\x7d')
    (indented : ∀ part ∈ parts, ∀ line ∈ part, line.toList.head? = some ' ') :
    aggregate? closing (Listing.aggregate parts closing ++ rest) = some ⟨parts, rest⟩ := by
  have unseparated : ∀ part ∈ parts, "" ∉ part := by
    intro part isPart member
    have start := indented part isPart "" member
    cases start
  have nonempty : closing ≠ "" := by
    rintro rfl
    cases closes
  have unclosed : ∀ line ∈ List.intercalate [""] parts, line ≠ closing := by
    apply Listing.forall_mem_intercalate
    · exact nonempty.symm
    · rintro part isPart line isLine rfl
      have start := indented part isPart line isLine
      rw [closes] at start
      cases start
  cases parts with
  | nil => rw [Listing.aggregate, List.singleton_append, aggregate?, if_pos rfl]
  | cons first others =>
      have lines : Listing.aggregate (first :: others) closing ++ rest =
          "\x7b" :: (List.intercalate [""] (first :: others) ++ closing :: rest) := by
        rw [Listing.aggregate, List.append_assoc, List.append_assoc]
        · rfl
        · exact List.cons_ne_nil _ _
      have opening : "\x7b" ≠ "\x7b" ++ closing :=
        fun same => nonempty (String.append_eq_left_iff.1 same.symm)
      have free : closing ∉ List.intercalate [""] (first :: others) :=
        fun inside => unclosed closing inside rfl
      have found : closing ∈ List.intercalate [""] (first :: others) ++ closing :: rest :=
        List.mem_append_right _ (List.mem_cons_self ..)
      rw [lines, aggregate?, if_neg opening, if_pos ⟨rfl, found⟩,
        takeWhile_ne_append closing _ rest free, dropWhile_ne_append closing _ rest free,
        List.splitOn_intercalate "" unseparated (List.cons_ne_nil _ _), List.tail_cons]

/-- The aggregate behind the first line of its definition is read from a text. -/
theorem aggregate?_linesAfter {line text closing : String} {front behind : List String}
    {parts : List (List String)}
    (lines : linesIn text = front ++ line :: (Listing.aggregate parts closing ++ behind))
    (fresh : line ∉ front) (closes : closing.toList.head? = some '\x7d')
    (indented : ∀ part ∈ parts, ∀ line ∈ part, line.toList.head? = some ' ') :
    aggregate? closing (linesAfter line text) = some ⟨parts, behind⟩ := by
  rw [linesAfter_eq _ _ _ _ lines fresh]
  exact aggregate?_aggregate parts closing behind closes indented

/-- A structure type: its name, and the names of its groups with those of their members. -/
structure StructType where
  name : String
  groups : List (String × List String)
  deriving DecidableEq, Repr

/-- The name in a line that declares a member of a type. -/
def declared? (type line : String) : Option String := do
  let rest ← after? type line
  let name := upTo ';' rest
  if rest = name ++ ";" then return name else none

theorem declared?_line (type name : String) (word : Word name) :
    declared? type (type ++ (name ++ ";")) = some name := by
  have inner : upTo ';' (name ++ ";") = name := upTo_append ';' _ _ (word.not_mem ';' rfl) rfl
  simp only [declared?, after?_append, Option.bind_eq_bind, Option.bind_some, inner, if_true]
  rfl

/-- The lines in front of the pins of a group. -/
def groupOpening : List String := ["  struct", "  \x7b", "    PinGroupHdr hdr;"]

/-- A group of a structure type: its name, and those of its pins. -/
def memberGroup? (lines : List String) : Option (String × List String) := do
  let inside ← lines.dropPrefix? groupOpening
  let pins ← (inside.takeWhile (· != "  \x7d")).mapM (declared? "    Pin ")
  match inside.dropWhile (· != "  \x7d") with
  | [_, last] => return (← declared? "  " last, pins)
  | _ => none

/-- The structure type that a text defines first. -/
def structTypeIn? (text : String) : Option StructType := do
  let body ← aggregate? "\x7d" (linesAfter "typedef struct" text)
  let groups ← body.parts.mapM memberGroup?
  let last ← body.rest.head?
  return ⟨← declared? "" last, groups⟩

/-- Something that is read, with the number of commas behind it. -/
structure Punctuated (α : Type) where
  item : α
  commas : Nat
  deriving DecidableEq, Repr

/-- Between two items stands one comma, and behind the last one stands none. -/
def Separated : List Nat → Prop
  | [] => True
  | [last] => last = 0
  | commas :: next :: rest => commas = 1 ∧ Separated (next :: rest)

/-- The number of commas that a text consists of. -/
def commas? (text : String) : Option Nat :=
  if text.toList.all (· == ',') then some text.length else none

/-- The number of commas behind the last brace of a text, if nothing else stands there. -/
def commasBehind? (text : String) : Option Nat :=
  commas? (String.ofList (text.toList.reverse.takeWhile (· != '\x7d')))

/-- What stands in front of the comment at the end of a line. -/
def beforeComment? (line : String) : Option String := do
  let backward ← line.toList.reverse.dropPrefix? " */".toList.reverse
  let front ← (backward.dropWhile (· != ' ')).dropPrefix? " /* ".toList.reverse
  return String.ofList front.reverse

def punctuated? {α : Type} (read : String → Option α) (line : String) :
    Option (Punctuated α) := do
  let item ← read line
  let front ← beforeComment? line
  return ⟨item, ← commasBehind? front⟩

theorem beforeComment?_append (front name : String) (word : Word name) :
    beforeComment? (front ++ (" /* " ++ (name ++ " */"))) = some front := by
  have backward : (front ++ (" /* " ++ (name ++ " */"))).toList.reverse =
      " */".toList.reverse ++
        (name.toList.reverse ++ ' ' :: (" /*".toList.reverse ++ front.toList.reverse)) := by
    simp [String.toList_append]
  have free : ' ' ∉ name.toList.reverse := by
    rw [List.mem_reverse]
    exact word.not_mem ' ' rfl
  have opening : ' ' :: (" /*".toList.reverse ++ front.toList.reverse) =
      " /* ".toList.reverse ++ front.toList.reverse := rfl
  rw [beforeComment?, backward, List.dropPrefix?_append_of_beq _ (beq_self_eq_true _),
    Option.bind_eq_bind, Option.bind_some, dropWhile_ne_append ' ' _ _ free, opening,
    List.dropPrefix?_append_of_beq _ (beq_self_eq_true _), Option.bind_some, List.reverse_reverse,
    String.ofList_toList]
  rfl

/-- The number of commas that are written behind an item. -/
def commasUnless (last : Bool) : Nat := if last then 0 else 1

theorem commas?_commaUnless (last : Bool) :
    commas? (Listing.commaUnless last) = some (commasUnless last) := by
  cases last <;> decide

theorem commasBehind?_append (front : String) (last : Bool) :
    commasBehind? (front ++ ("\x7d" ++ Listing.commaUnless last)) = some (commasUnless last) := by
  have backward : (front ++ ("\x7d" ++ Listing.commaUnless last)).toList.reverse =
      (Listing.commaUnless last).toList.reverse ++ '\x7d' :: front.toList.reverse := by
    simp [String.toList_append]
  have free : '\x7d' ∉ (Listing.commaUnless last).toList.reverse := by
    cases last <;> decide
  have same : String.ofList (Listing.commaUnless last).toList.reverse =
      Listing.commaUnless last := by
    cases last <;> rfl
  rw [commasBehind?, backward, takeWhile_ne_append '\x7d' _ _ free, same, commas?_commaUnless]

/-- An item that is written with a brace and a comma in front of its comment is read with both. -/
theorem punctuated?_eq_some {α : Type} (read : String → Option α) (line : String) (item : α)
    (found : read line = some item) (front name : String) (word : Word name) (last : Bool)
    (written : line = front ++ ("\x7d" ++ Listing.commaUnless last) ++
      (" /* " ++ (name ++ " */"))) :
    punctuated? read line = some ⟨item, commasUnless last⟩ := by
  have before : beforeComment? line = some (front ++ ("\x7d" ++ Listing.commaUnless last)) := by
    rw [written]
    exact beforeComment?_append _ name word
  rw [punctuated?, found, before, Option.bind_eq_bind, Option.bind_some, Option.bind_eq_bind,
    Option.bind_some, commasBehind?_append]
  rfl

theorem separated_cons (commas : Nat) (rest : List Nat) (nonempty : rest ≠ []) :
    Separated (commas :: rest) ↔ commas = 1 ∧ Separated rest := by
  cases rest with
  | nil => exact absurd rfl nonempty
  | cons next others => rfl

/-- Items that tell the last one are separated. -/
theorem separated_mapLast {α β : Type} (f : Bool → α → β) (commas : β → Nat)
    (each : ∀ last item, commas (f last item) = commasUnless last) (items : List α) :
    Separated ((Listing.mapLast f items).map commas) := by
  fun_induction Listing.mapLast f items with
  | case1 => trivial
  | case2 item => exact each true item
  | case3 item next rest ih =>
      have nonempty : (Listing.mapLast f (next :: rest)).map commas ≠ [] := by
        rw [← List.length_pos_iff, List.length_map, Listing.length_mapLast]
        exact Nat.succ_pos _
      rw [List.map_cons, separated_cons _ _ nonempty]
      exact ⟨each false item, ih⟩

/-- A group in the initializer of a table. -/
structure InitialGroup where
  heading : Punctuated TableHeading
  rows : List (Punctuated TableRow)
  deriving DecidableEq, Repr

def initialGroup? : List String → Option (Punctuated InitialGroup)
  | [] => none
  | first :: rest => do
      let heading ← punctuated? heading? first
      let rows ← rest.dropLast.mapM (punctuated? row?)
      let closing ← rest.getLast?
      let behind ← after? "  \x7d" closing
      return ⟨⟨heading, rows⟩, ← commas? behind⟩

/-- The groups of the table whose initializer stands behind a line. -/
def initialGroupsAfter? (line text : String) : Option (List (Punctuated InitialGroup)) := do
  let body ← aggregate? "\x7d;" (linesAfter line text)
  body.parts.mapM initialGroup?

/-- The entries of the array whose initializer stands behind a line. -/
def arrayAfter? (line text : String) : Option (List String) := do
  let body ← aggregate? "\x7d;" (linesAfter line text)
  let lines := body.parts.flatten
  return if lines.isEmpty then [] else entriesIn (String.join lines)

end PinTable.Reading

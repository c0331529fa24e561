set_option autoImplicit false

namespace PinTable.Listing

/-- The text of some lines, each of which it ends. -/
def textOf (lines : List String) : String :=
  String.join (lines.map fun line => line ++ "\n")

theorem textOf_append (first second : List String) :
    textOf (first ++ second) = textOf first ++ textOf second := by
  simp only [textOf, List.map_append, String.join_append]

/-- A comment that opens a section, after an empty line. -/
def sectionComment (title : String) : List String := ["", "/* " ++ title ++ " */"]

def braced (text : String) : String := "\x7b" ++ text ++ "\x7d"

/-- A comma between two items, none after the last. -/
def commaUnless (last : Bool) : String := if last then "" else ","

/-- Treats the items in order, telling the last one. -/
def mapLast {α β : Type} (f : Bool → α → β) : List α → List β
  | [] => []
  | [item] => [f true item]
  | item :: next :: rest => f false item :: mapLast f (next :: rest)

/-- The body of a C aggregate: an opening brace on a line of its own, the parts with an empty line
between two of them, and the closing text. Without parts both braces share a line. -/
def aggregate (parts : List (List String)) (closing : String) : List String :=
  match parts with
  | [] => ["\x7b" ++ closing]
  | parts => ["\x7b"] ++ List.intercalate [""] parts ++ [closing]

theorem length_mapLast {α β : Type} (f : Bool → α → β) (items : List α) :
    (mapLast f items).length = items.length := by
  fun_induction mapLast f items <;> simp_all

end PinTable.Listing

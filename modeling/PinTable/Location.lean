import PinTable.Text.Decimal

set_option autoImplicit false

namespace PinTable

/-- A step from a value into a part of it. -/
inductive Step where
  | key (name : String)
  | index (position : Nat)
  deriving DecidableEq, Repr

/-- A place in a document: the steps that lead to it from the root. -/
structure Location where
  document : String
  steps : List Step
  deriving DecidableEq, Repr

namespace Location

def root (document : String) : Location := ⟨document, []⟩

def key (place : Location) (name : String) : Location :=
  ⟨place.document, place.steps ++ [.key name]⟩

def index (place : Location) (position : Nat) : Location :=
  ⟨place.document, place.steps ++ [.index position]⟩

end Location

namespace Step

/-- A step after the first: a key is set off by a point. -/
def text : Step → String
  | key name => "." ++ name
  | index position => "[" ++ natText position ++ "]"

def firstText : Step → String
  | key name => name
  | index position => "[" ++ natText position ++ "]"

/-- The steps of a path, as messages show them. -/
def pathText : List Step → String
  | [] => ""
  | first :: rest => first.firstText ++ String.join (rest.map text)

end Step

namespace Location

/-- The place as messages show it: the document alone is its root. -/
def text (place : Location) : String :=
  match place.steps with
  | [] => place.document
  | steps => place.document ++ ":" ++ Step.pathText steps

/-- A message about a place. -/
def annotate (place : Location) (message : String) : String := place.text ++ ": " ++ message

end Location

end PinTable

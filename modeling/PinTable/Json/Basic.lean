import PinTable.Entries
import PinTable.Json.Number

set_option autoImplicit false

namespace PinTable

inductive Json where
  | null
  | bool (value : Bool)
  | number (value : Number)
  | string (value : String)
  | array (items : List Json)
  | object (entries : List (String × Json))

/-- The types of values that messages tell apart. -/
inductive JsonType where
  | null
  | boolean
  | integer
  | number
  | string
  | array
  | object
  deriving DecidableEq, Repr

namespace JsonType

def name : JsonType → String
  | null => "null"
  | boolean => "boolean"
  | integer => "integer"
  | number => "number"
  | string => "string"
  | array => "array"
  | object => "object"

end JsonType

namespace Json

/-- The type of a value. An integer is a number without point and exponent in the text, if a word
of 64 bits holds it. -/
def type : Json → JsonType
  | null => .null
  | bool _ => .boolean
  | number (.integer ..) => .integer
  | number (.real _) => .number
  | string _ => .string
  | array _ => .array
  | object _ => .object

/-- The object whose entries a text lists: a repeated key keeps its first place and takes its last
value. -/
def ofEntries (entries : Entries Json) : Json :=
  .object (entries.foldl (fun known entry => Entries.put entry.1 entry.2 known) [])

end Json

end PinTable

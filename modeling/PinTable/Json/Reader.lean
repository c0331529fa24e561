import PinTable.Json.Basic
import PinTable.Json.Literal
import PinTable.Json.Quoted

set_option autoImplicit false

namespace PinTable

/-- A part of a text as a value, with the text after it. -/
abbrev Reader (α : Type) := List Char → Option (α × List Char)

namespace Json

def isSpace (c : Char) : Bool := c = ' ' || c = '\t' || c = '\n' || c = '\r'

def skipSpace (text : List Char) : List Char := text.dropWhile isSpace

/-- Reads the items of an array after its opening bracket or a comma. The fuel bounds the number
of items, which the length of the text does. -/
def readItems (item : Reader Json) : Nat → Reader (List Json)
  | 0, _ => none
  | fuel + 1, text => do
      let (first, rest) ← item text
      match skipSpace rest with
      | ']' :: rest => some ([first], rest)
      | ',' :: rest => do
          let (others, rest) ← readItems item fuel rest
          some (first :: others, rest)
      | _ => none

def readEntry (item : Reader Json) : Reader (String × Json) := fun text =>
  match skipSpace text with
  | '"' :: rest => do
      let (key, rest) ← Quoted.read rest
      match skipSpace rest with
      | ':' :: rest => do
          let (value, rest) ← item rest
          some ((String.ofList key, value), rest)
      | _ => none
  | _ => none

/-- Reads the entries of an object after its opening brace or a comma, as many as the fuel. -/
def readEntries (item : Reader Json) : Nat → Reader (Entries Json)
  | 0, _ => none
  | fuel + 1, text => do
      let (first, rest) ← readEntry item text
      match skipSpace rest with
      | '}' :: rest => some ([first], rest)
      | ',' :: rest => do
          let (others, rest) ← readEntries item fuel rest
          some (first :: others, rest)
      | _ => none

def readArray (item : Reader Json) : Reader Json := fun text =>
  match skipSpace text with
  | ']' :: rest => some (.array [], rest)
  | _ => (readItems item text.length text).map fun (items, rest) => (.array items, rest)

def readObject (item : Reader Json) : Reader Json := fun text =>
  match skipSpace text with
  | '}' :: rest => some (.object [], rest)
  | _ => (readEntries item text.length text).map fun (entries, rest) => (ofEntries entries, rest)

/-- Reads a value that is neither an array nor an object. -/
def readScalar : Reader Json
  | 'n' :: 'u' :: 'l' :: 'l' :: rest => some (.null, rest)
  | 't' :: 'r' :: 'u' :: 'e' :: rest => some (.bool true, rest)
  | 'f' :: 'a' :: 'l' :: 's' :: 'e' :: rest => some (.bool false, rest)
  | '"' :: rest => (Quoted.read rest).map fun (chars, rest) => (.string (String.ofList chars), rest)
  | text => do
      let (literal, rest) ← Literal.read text
      let number ← literal.number?
      some (.number number, rest)

/-- Reads a value in which arrays and objects nest at most as deep as given. -/
def readValue : Nat → Reader Json
  | 0, text =>
      match skipSpace text with
      | '[' :: _ => none
      | '{' :: _ => none
      | text => readScalar text
  | depth + 1, text =>
      match skipSpace text with
      | '[' :: rest => readArray (readValue depth) rest
      | '{' :: rest => readObject (readValue depth) rest
      | text => readScalar text

/-- Arrays and objects nest at most this deep in a document. -/
def greatestDepth : Nat := 127

/-- Reads a document: one value, with white space around it. -/
def read? (text : List Char) : Option Json := do
  let (value, rest) ← readValue greatestDepth text
  if (skipSpace rest).isEmpty then some value else none

/-- Reads a document from its bytes, which are to be UTF-8. -/
def ofBytes? (bytes : ByteArray) : Option Json := do
  let text ← String.fromUTF8? bytes
  read? text.toList

end Json

end PinTable

import PinTable.Text.CaseRuns

set_option autoImplicit false

namespace PinTable

def wideUppercase (c : Char) : List Char :=
  match caseExpansions.find? (fun expansion => expansion.1 == c.toNat) with
  | some expansion => expansion.2.map Char.ofNat
  | none =>
      match caseRuns.find? (fun run => run.covers c.toNat) with
      | some run => [Char.ofNat (c.toNat + run.shift).toNat]
      | none => [c]

/-- The upper case of a character, which is the character itself if it has none. -/
def charUppercase (c : Char) : List Char :=
  if c.toNat < 128 then [c.toUpper] else wideUppercase c

def uppercase (text : String) : String :=
  String.ofList (text.toList.flatMap charUppercase)

theorem toList_uppercase (text : String) :
    (uppercase text).toList = text.toList.flatMap charUppercase :=
  String.toList_ofList

theorem uppercase_append (first second : String) :
    uppercase (first ++ second) = uppercase first ++ uppercase second := by
  apply String.toList_inj.1
  simp [toList_uppercase]

end PinTable

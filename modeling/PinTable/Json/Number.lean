import PinTable.Binary64

set_option autoImplicit false

namespace PinTable

/-- Least integer that a signed word of 64 bits holds. -/
def minInt64 : Int := -0x8000000000000000

/-- Greatest integer that a signed word of 64 bits holds. -/
def maxInt64 : Int := 0x7FFFFFFFFFFFFFFF

/-- Greatest integer that an unsigned word of 64 bits holds. -/
def maxNat64 : Nat := 0xFFFFFFFFFFFFFFFF

/-- Moves a number outside the signed 64-bit range to the nearer end of the range. -/
def saturate (value : Int) : Int := max minInt64 (min value maxInt64)

theorem minInt64_le_saturate (value : Int) : minInt64 ≤ saturate value :=
  Int.le_max_left ..

theorem saturate_le_maxInt64 (value : Int) : saturate value ≤ maxInt64 := by
  simp only [saturate, minInt64, maxInt64]
  omega

theorem saturate_of_mem (value : Int) (lower : minInt64 ≤ value) (upper : value ≤ maxInt64) :
    saturate value = value := by
  simp only [saturate]
  omega

/-- A number of a document. An integer fits a signed or an unsigned word of 64 bits. -/
inductive Number where
  | integer (value : Int) (lower : minInt64 ≤ value) (upper : value ≤ maxNat64)
  | real (value : Binary64)

namespace Number

/-- The integer as a number, if one of the two 64-bit words holds it. -/
def ofInt? (value : Int) : Option Number :=
  if h : minInt64 ≤ value ∧ value ≤ maxNat64 then some (.integer value h.1 h.2) else none

/-- The number as a signed 64-bit integer: a real loses its fraction, and a number beyond an end
of the range becomes that end. -/
def toInt64 : Number → Int
  | integer value _ _ => saturate value
  | real value => saturate value.truncate

end Number

end PinTable

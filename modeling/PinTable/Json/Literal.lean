import PinTable.Json.Number
import PinTable.Text.Decimal

set_option autoImplicit false

namespace PinTable

/-- Splits a text after its leading decimal digits. -/
def splitDigits (text : List Char) : List Char × List Char :=
  (text.takeWhile Char.isDigit, text.dropWhile Char.isDigit)

/-- Takes digits into a significand while it fits an unsigned word of 64 bits, and counts them.
The first digit that does not fit ends the significand. -/
def absorb (significand : Nat) : List Char → Nat × Nat
  | [] => (significand, 0)
  | c :: rest =>
      let longer := digitValue c + 10 * significand
      if longer ≤ maxNat64 then
        let result := absorb longer rest
        (result.1, result.2 + 1)
      else (significand, 0)

/-- A number literal by its parts. -/
structure Literal where
  negative : Bool
  whole : List Char
  /-- The digits after the point, none if there is no point. -/
  fraction : List Char
  /-- The power of ten, if it is written. -/
  exponent : Option Int

namespace Literal

/-- Reads the digits of a whole part: a zero stands alone. -/
def readWhole (text : List Char) : Option (List Char × List Char) :=
  match splitDigits text with
  | ([], _) => none
  | ('0' :: _ :: _, _) => none
  | (digits, rest) => some (digits, rest)

/-- Reads a point and the digits after it, of which there is at least one. -/
def readFraction (text : List Char) : Option (List Char × List Char) :=
  match text with
  | '.' :: rest =>
      match splitDigits rest with
      | ([], _) => none
      | (digits, rest) => some (digits, rest)
  | _ => some ([], text)

/-- Reads the digits of an exponent, of which there is at least one. -/
def readPower (negative : Bool) (text : List Char) : Option (Option Int × List Char) :=
  match splitDigits text with
  | ([], _) => none
  | (digits, rest) =>
      let power : Int := decimalValue 0 digits
      some (some (if negative then -power else power), rest)

/-- Reads an exponent, if one is written. -/
def readExponent (text : List Char) : Option (Option Int × List Char) :=
  match text with
  | c :: rest =>
      if c = 'e' ∨ c = 'E' then
        match rest with
        | '+' :: rest => readPower false rest
        | '-' :: rest => readPower true rest
        | _ => readPower false rest
      else some (none, text)
  | [] => some (none, [])

/-- Reads a literal from the front of a text, the sign being read already. -/
def readUnsigned (negative : Bool) (text : List Char) : Option (Literal × List Char) := do
  let (whole, rest) ← readWhole text
  let (fraction, rest) ← readFraction rest
  let (exponent, rest) ← readExponent rest
  some (⟨negative, whole, fraction, exponent⟩, rest)

def read (text : List Char) : Option (Literal × List Char) :=
  match text with
  | '-' :: rest => readUnsigned true rest
  | _ => readUnsigned false text

/-- The real number of a literal: the digits that fit the significand, scaled by the power of
ten that the exponent, the point and the digits left out amount to. -/
def real? (literal : Literal) : Option Number := do
  let whole := absorb 0 literal.whole
  let all := absorb whole.1 literal.fraction
  let dropped : Int := (literal.whole.length - whole.2 : Nat)
  let magnitude ← Magnitude.ofNat? all.1
  let scaled ← magnitude.scaleTen? (dropped - all.2 + literal.exponent.getD 0)
  some (.real ⟨literal.negative, scaled⟩)

/-- The number of a literal. A literal without point and exponent is an integer where a word of
64 bits holds it, save that a negative zero is a real. There is no number for a literal beyond
the finite reals. -/
def number? (literal : Literal) : Option Number :=
  if literal.fraction = [] ∧ literal.exponent = none then
    let value := decimalValue 0 literal.whole
    if literal.negative then
      if value = 0 then literal.real? else (Number.ofInt? (-value)).or literal.real?
    else (Number.ofInt? value).or literal.real?
  else literal.real?

end Literal

end PinTable

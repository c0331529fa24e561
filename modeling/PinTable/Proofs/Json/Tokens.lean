import PinTable.Json.Literal
import PinTable.Json.Reader
import PinTable.Proofs.Json.Written

set_option autoImplicit false

namespace PinTable

namespace Quoted

theorem hexValue?_of_hexDigit {value : Nat} {c : Char} (digit : HexDigit value c) :
    hexValue? c = some value := by
  have lower : ∀ value < 16, ("0123456789abcdef".toList[value]?).bind hexValue? = some value := by
    decide
  have upper : ∀ value < 16, ("0123456789ABCDEF".toList[value]?).bind hexValue? = some value := by
    decide
  rcases digit with found | found
  · have read := lower value (List.getElem?_eq_some_iff.1 found).1
    rwa [found, Option.bind_some] at read
  · have read := upper value (List.getElem?_eq_some_iff.1 found).1
    rwa [found, Option.bind_some] at read

theorem unit?_of_unitText {unit : Nat} {digits : List Char} (written : UnitText unit digits) :
    ∃ a b c d, digits = [a, b, c, d] ∧ unit? a b c d = some unit := by
  obtain ⟨first, second, third, fourth⟩ := written
  refine ⟨_, _, _, _, rfl, ?_⟩
  simp only [unit?, hexValue?_of_hexDigit first, hexValue?_of_hexDigit second,
    hexValue?_of_hexDigit third, hexValue?_of_hexDigit fourth, Option.bind_eq_bind,
    Option.bind_some]

/-- The code of a character is none of a surrogate. -/
theorem toNat_cases (c : Char) : c.toNat < 0xD800 ∨ 0xDFFF < c.toNat ∧ c.toNat < 0x110000 :=
  c.valid

theorem not_surrogate (c : Char) : isLeading c.toNat = false ∧ isTrailing c.toNat = false := by
  have valid := toNat_cases c
  simp only [isLeading, isTrailing, Bool.and_eq_false_iff, decide_eq_false_iff_not]
  omega

/-- The surrogates of a character beyond the units, and the character that they make up. -/
theorem pair_of_toNat (c : Char) (beyond : 0x10000 ≤ c.toNat) :
    let leading := 0xD800 + (c.toNat - 0x10000) / 0x400
    let trailing := 0xDC00 + (c.toNat - 0x10000) % 0x400
    isLeading leading = true ∧ isTrailing leading = false ∧ isTrailing trailing = true ∧
      ofPair leading trailing = c := by
  have valid := toNat_cases c
  refine ⟨?_, ?_, ?_, ?_⟩
  · simp only [isLeading, Bool.and_eq_true, decide_eq_true_eq]
    omega
  · simp only [isTrailing, Bool.and_eq_false_iff, decide_eq_false_iff_not]
    omega
  · simp only [isTrailing, Bool.and_eq_true, decide_eq_true_eq]
    omega
  · have code : 0x10000 + (0xD800 + (c.toNat - 0x10000) / 0x400 - 0xD800) * 0x400 +
        (0xDC00 + (c.toNat - 0x10000) % 0x400 - 0xDC00) = c.toNat := by
      omega
    rw [ofPair, code, Char.ofNat_toNat]

/-- A character is read off each of its texts. -/
theorem read_of_charText {c : Char} {text : List Char} (written : CharText c text)
    (rest : List Char) : read (text ++ rest) = push c (read rest) := by
  cases written with
  | plain visible noQuote noBackslash =>
      have shown : ¬ c < ' ' := Char.not_lt.2 visible
      simp [read, noBackslash, shown]
  | @short letter _ escape =>
      simp only [shortEscapes, List.mem_cons, Prod.mk.injEq, List.not_mem_nil, or_false] at escape
      rcases escape with ⟨rfl, rfl⟩ | ⟨rfl, rfl⟩ | ⟨rfl, rfl⟩ | ⟨rfl, rfl⟩ | ⟨rfl, rfl⟩ |
        ⟨rfl, rfl⟩ | ⟨rfl, rfl⟩ | ⟨rfl, rfl⟩ <;> simp [read, escaped?]
  | unit written =>
      obtain ⟨a, b, d, e, rfl, isUnit⟩ := unit?_of_unitText written
      obtain ⟨noLeading, noTrailing⟩ := not_surrogate c
      simp [read, isUnit, noLeading, noTrailing]
  | pair beyond first second =>
      obtain ⟨a, b, d, e, rfl, isLead⟩ := unit?_of_unitText first
      obtain ⟨f, g, h, i, rfl, isTrail⟩ := unit?_of_unitText second
      obtain ⟨isFirst, notLast, isSecond, whole⟩ := pair_of_toNat c beyond
      simp [read, isLead, isTrail, isFirst, notLast, isSecond, whole]

theorem read_of_charsText {chars text : List Char} (written : CharsText chars text)
    (rest : List Char) : read (text ++ '"' :: rest) = some (chars, rest) := by
  induction written with
  | nil => rfl
  | cons first _ ih =>
      rw [List.append_assoc, read_of_charText first, ih]
      rfl

end Quoted

/-- The digits of a number start with a zero only if there is no other digit. -/
theorem decimalDigits_of_zero {n : Nat} {rest : List Char}
    (zero : decimalDigits n = '0' :: rest) : rest = [] := by
  induction n using Nat.strongRecOn generalizing rest with
  | _ n ih =>
      rw [decimalDigits] at zero
      split at zero
      · exact (List.cons.inj zero).2.symm
      · next large =>
          cases front : decimalDigits (n / 10) with
          | nil => exact absurd front (decimalDigits_ne_nil _)
          | cons first others =>
              rw [front, List.cons_append, List.cons.injEq] at zero
              obtain ⟨rfl, rfl⟩ := zero
              have alone := ih (n / 10) (by omega) front
              -- Then the number has one digit, against the case.
              have value := decimalValue_decimalDigits (n / 10)
              rw [front, alone] at value
              have none : decimalValue 0 ['0'] = 0 := rfl
              omega

namespace Json

theorem isSpace_of_spaces {space : List Char} (spaces : Spaces space) :
    ∀ c ∈ space, isSpace c = true := by
  intro c member
  have listed := spaces c member
  simp only [List.mem_cons, List.not_mem_nil, or_false] at listed
  rcases listed with rfl | rfl | rfl | rfl <;> rfl

/-- What may follow a value: white space, a comma, a closing bracket, or nothing. -/
def Ends (rest : List Char) : Prop :=
  ∀ c ∈ rest.head?, isSpace c = true ∨ c = ',' ∨ c = ']' ∨ c = '}'

theorem ends_of_spaces {space rest : List Char} (spaces : Spaces space) (ends : Ends rest) :
    Ends (space ++ rest) := by
  cases space with
  | nil => exact ends
  | cons c space =>
      rintro _ ⟨⟩
      exact .inl (isSpace_of_spaces spaces c List.mem_cons_self)

end Json

namespace Literal

open Json (Ends)

/-- What may follow a value goes on no number. -/
theorem apart_of_ends {rest : List Char} (ends : Ends rest) :
    ∀ c ∈ rest.head?, c.isDigit = false ∧ c ≠ '.' ∧ c ≠ 'e' ∧ c ≠ 'E' := by
  intro c isFirst
  have cases := ends c isFirst
  simp only [Json.isSpace, Bool.or_eq_true, decide_eq_true_eq, or_assoc] at cases
  rcases cases with rfl | rfl | rfl | rfl | rfl | rfl | rfl <;> decide

theorem splitDigits_of_ends {digits rest : List Char} (areDigits : ∀ c ∈ digits, c.isDigit = true)
    (ends : Ends rest) : splitDigits (digits ++ rest) = (digits, rest) := by
  have stops : rest.takeWhile Char.isDigit = [] ∧ rest.dropWhile Char.isDigit = rest := by
    cases rest with
    | nil => exact ⟨rfl, rfl⟩
    | cons c rest =>
        obtain ⟨noDigit, -⟩ := apart_of_ends ends c rfl
        simp [noDigit]
  rw [splitDigits, List.takeWhile_append_of_pos areDigits, List.dropWhile_append_of_pos areDigits,
    stops.1, stops.2, List.append_nil]

theorem readUnsigned_digits (negative : Bool) (n : Nat) {rest : List Char} (ends : Ends rest) :
    readUnsigned negative (decimalDigits n ++ rest) =
      some (⟨negative, decimalDigits n, [], none⟩, rest) := by
  have split := splitDigits_of_ends (decimalDigits_isDigit n) ends
  have whole : readWhole (decimalDigits n ++ rest) = some (decimalDigits n, rest) := by
    unfold readWhole
    rw [split]
    split
    · next empty => exact absurd (Prod.mk.inj empty).1 (decimalDigits_ne_nil n)
    · next zero => cases decimalDigits_of_zero (Prod.mk.inj zero).1
    · next same => rw [same]
  have fraction : readFraction rest = some ([], rest) := by
    unfold readFraction
    split
    · exact absurd rfl (apart_of_ends ends '.' rfl).2.1
    · rfl
  have exponent : readExponent rest = some (none, rest) := by
    cases rest with
    | nil => rfl
    | cons c rest =>
        obtain ⟨-, -, noLower, noUpper⟩ := apart_of_ends ends c rfl
        simp only [readExponent, noLower, noUpper, or_self, if_false]
  simp only [readUnsigned, whole, fraction, exponent, Option.bind_eq_bind, Option.bind_some]

/-- The literal of an integer. -/
def ofInt (value : Int) : Literal := ⟨value < 0, decimalDigits value.natAbs, [], none⟩

theorem read_intText (value : Int) {rest : List Char} (ends : Ends rest) :
    read ((intText value).toList ++ rest) = some (ofInt value, rest) := by
  have unsigned := fun negative => readUnsigned_digits negative value.natAbs ends
  by_cases negative : value < 0
  · have text : (intText value).toList = '-' :: decimalDigits value.natAbs := by
      simp [intText, natText, negative]
    rw [text, List.cons_append, read, unsigned, ofInt, decide_eq_true negative]
  · have text : (intText value).toList = decimalDigits value.natAbs := by
      simp [intText, natText, negative]
    rw [text, ofInt, decide_eq_false negative, ← unsigned]
    unfold read
    split
    · next digits sign =>
        -- The first character is a digit.
        cases found : decimalDigits value.natAbs with
        | nil => exact absurd found (decimalDigits_ne_nil _)
        | cons c others =>
            have isDigit := decimalDigits_isDigit value.natAbs c (by rw [found]; exact .head _)
            rw [found, List.cons_append, List.cons.injEq] at sign
            rw [sign.1] at isDigit
            cases isDigit
    · rfl

theorem number?_ofInt (value : Int) (lower : minInt64 ≤ value) (upper : value ≤ maxNat64) :
    (ofInt value).number? = some (.integer value lower upper) := by
  have fits : Number.ofInt? value = some (.integer value lower upper) := dif_pos ⟨lower, upper⟩
  simp only [number?, ofInt, decimalValue_decimalDigits, decide_eq_true_eq, and_self, if_true]
  split
  · next negative =>
      have nonzero : value.natAbs ≠ 0 := by omega
      have same : -(value.natAbs : Int) = value := by omega
      rw [if_neg nonzero, same, fits, Option.some_or]
  · next natural =>
      have same : (value.natAbs : Int) = value := by omega
      rw [same, fits, Option.some_or]

/-- A literal begins with a sign or a digit. -/
theorem intText_begins (value : Int) :
    ∃ c rest, (intText value).toList = c :: rest ∧ (c = '-' ∨ c.isDigit = true) := by
  by_cases negative : value < 0
  · exact ⟨'-', decimalDigits value.natAbs, by simp [intText, natText, negative], .inl rfl⟩
  · cases found : decimalDigits value.natAbs with
    | nil => exact absurd found (decimalDigits_ne_nil _)
    | cons c rest =>
        refine ⟨c, rest, by simp [intText, natText, negative, found], .inr ?_⟩
        exact decimalDigits_isDigit value.natAbs c (by rw [found]; exact .head _)

end Literal

namespace Json

/-- The text of a value begins with a character that is no white space and closes nothing. -/
def Opens (text : List Char) : Prop :=
  ∃ c rest, text = c :: rest ∧ isSpace c = false ∧ c ≠ ']' ∧ c ≠ '}'

theorem scalar_begins {value : Json} {text : List Char} (written : ScalarText value text) :
    Opens text ∧ text.head? ≠ some '[' ∧ text.head? ≠ some '{' := by
  cases written with
  | integer value lower upper =>
      obtain ⟨c, rest, begins, sign | digit⟩ := Literal.intText_begins value
      · subst sign
        rw [begins]
        exact ⟨⟨_, rest, rfl, rfl, by decide, by decide⟩, by simp, by simp⟩
      · have apart : ∀ other : Char, other.isDigit = false → c ≠ other := by
          rintro other noDigit rfl
          rw [digit] at noDigit
          cases noDigit
        rw [begins]
        refine ⟨⟨c, rest, rfl, ?_, apart _ rfl, apart _ rfl⟩, ?_, ?_⟩
        · simp [isSpace, apart]
        · simpa using apart '[' rfl
        · simpa using apart '{' rfl
  | string written =>
      obtain ⟨_⟩ := written
      exact ⟨⟨_, _, rfl, rfl, by decide, by decide⟩, by simp, by simp⟩
  | _ => exact ⟨⟨_, _, rfl, rfl, by decide, by decide⟩, by simp, by simp⟩

/-- A value without parts is read off its text. -/
theorem readScalar_of_scalarText {value : Json} {text rest : List Char}
    (written : ScalarText value text) (ends : Ends rest) :
    readScalar (text ++ rest) = some (value, rest) := by
  cases written with
  | integer value lower upper =>
      obtain ⟨c, more, begins, first⟩ := Literal.intText_begins value
      have reads : (Literal.read ((intText value).toList ++ rest)).bind (fun found =>
          found.1.number?.bind fun number => some (Json.number number, found.2)) =
          some (.number (.integer value lower upper), rest) := by
        rw [Literal.read_intText value ends, Option.bind_some,
          Literal.number?_ofInt value lower upper, Option.bind_some]
      rw [begins] at reads ⊢
      unfold readScalar
      -- No other value begins with a sign or a digit.
      split
      case h_5 => exact reads
      all_goals
        next same =>
          rw [List.cons_append, List.cons.injEq] at same
          rw [same.1] at first
          rcases first with sign | digit
          · cases sign
          · cases digit
  | string written =>
      obtain ⟨chars⟩ := written
      rw [List.cons_append, List.append_assoc, List.singleton_append, readScalar,
        Quoted.read_of_charsText chars, Option.map_some]
      dsimp only
      rw [String.ofList_toList]
  | _ => rfl

end Json

end PinTable

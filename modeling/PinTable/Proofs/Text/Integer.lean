import Mathlib.Data.List.TakeWhile
import Mathlib.Data.Nat.Digits.Defs
import PinTable.IntegerLike
import PinTable.Proofs.Reading.Names

set_option autoImplicit false

namespace PinTable

/-- The first and the last code of each run of characters with the property `White_Space`. -/
def whiteSpaceRuns : List (Nat × Nat) :=
  [(0x0009, 0x000D), (0x0020, 0x0020), (0x0085, 0x0085), (0x00A0, 0x00A0), (0x1680, 0x1680),
    (0x2000, 0x200A), (0x2028, 0x2029), (0x202F, 0x202F), (0x205F, 0x205F), (0x3000, 0x3000)]

def WhiteSpace (c : Char) : Prop := ∃ run ∈ whiteSpaceRuns, run.1 ≤ c.toNat ∧ c.toNat ≤ run.2

theorem isBlank_iff (c : Char) : isBlank c = true ↔ WhiteSpace c := by
  simp only [isBlank, WhiteSpace, whiteSpaceRuns, Bool.or_eq_true, Bool.and_eq_true,
    decide_eq_true_eq, beq_iff_eq, List.exists_mem_cons_iff, List.not_mem_nil, false_and,
    exists_false, or_false]
  omega

/-- What is cut off at either end is white space. -/
theorem trimBlank_split (text : List Char) :
    ∃ before after, text = before ++ trimBlank text ++ after ∧
      (∀ c ∈ before, WhiteSpace c) ∧ ∀ c ∈ after, WhiteSpace c := by
  have front := List.takeWhile_append_dropWhile (p := isBlank) (l := text)
  have behind := List.takeWhile_append_dropWhile (p := isBlank)
    (l := (text.dropWhile isBlank).reverse)
  refine ⟨text.takeWhile isBlank, ((text.dropWhile isBlank).reverse.takeWhile isBlank).reverse,
    ?_, fun c member => ?_, fun c member => ?_⟩
  · rw [List.append_assoc, trimBlank, ← List.reverse_append, behind, List.reverse_reverse, front]
  · exact (isBlank_iff c).1 (List.mem_takeWhile_imp member)
  · exact (isBlank_iff c).1 (List.mem_takeWhile_imp (List.mem_reverse.1 member))

/-- White space around a text without any is cut off, and nothing else. -/
theorem trimBlank_append {before body after : List Char} (front : ∀ c ∈ before, isBlank c = true)
    (inner : ∀ c ∈ body, isBlank c = false) (behind : ∀ c ∈ after, isBlank c = true) :
    trimBlank (before ++ body ++ after) = body := by
  have settled : ∀ text : List Char, (∀ c ∈ text, isBlank c = false) →
      text.dropWhile isBlank = text := by
    intro text plain
    rw [List.dropWhile_eq_self_iff]
    intro filled
    rw [plain _ (List.getElem_mem filled)]
    exact Bool.false_ne_true
  rw [trimBlank, List.append_assoc, List.dropWhile_append_of_pos front]
  cases body with
  | nil =>
      rw [List.nil_append, List.dropWhile_eq_nil_iff.2 behind]
      rfl
  | cons c rest =>
      have first : ¬ isBlank c = true := by
        rw [inner c List.mem_cons_self]
        exact Bool.false_ne_true
      rw [List.cons_append, List.dropWhile_cons_of_neg first, ← List.cons_append,
        List.reverse_append, List.dropWhile_append_of_pos (by simpa using behind),
        settled _ fun other member => inner other (List.mem_reverse.1 member),
        List.reverse_reverse]

/-- A decimal digit, with its value. -/
def DigitOf (value : Nat) (c : Char) : Prop := "0123456789".toList[value]? = some c

theorem toNat_of_isDigit (c : Char) (digit : c.isDigit = true) :
    48 ≤ c.toNat ∧ c.toNat ≤ 57 := by
  simpa [Char.isDigit, UInt32.le_iff_toNat_le] using digit

theorem digitOf_iff (value : Nat) (c : Char) :
    DigitOf value c ↔ c.isDigit = true ∧ digitValue c = value := by
  have listed : ∀ value < 10, "0123456789".toList[value]? = some (digitChar value) := by decide
  constructor
  · intro digit
    have small : value < 10 := (List.getElem?_eq_some_iff.1 digit).1
    cases (listed value small).symm.trans digit
    exact ⟨isDigit_digitChar value small, digitValue_digitChar value small⟩
  · rintro ⟨digit, rfl⟩
    obtain ⟨lower, upper⟩ := toNat_of_isDigit c digit
    have same : digitChar (digitValue c) = c := by
      rw [digitChar, digitValue, Nat.add_sub_cancel' lower, Char.ofNat_toNat]
    rw [DigitOf, listed _ (by simp only [digitValue]; omega), same]

/-- One or more digits, with the number that they write: each counts by the power of ten of its
place. -/
def DigitsText (text : List Char) (n : Nat) : Prop :=
  text ≠ [] ∧ ∃ digits, List.Forall₂ DigitOf digits text ∧ Nat.ofDigits 10 digits.reverse = n

/-- Reading on from a number moves it up by as many places as there are digits. -/
theorem decimalValue_eq (before : Nat) {digits : List Nat} {text : List Char}
    (written : List.Forall₂ DigitOf digits text) :
    decimalValue before text =
      before * 10 ^ digits.length + Nat.ofDigits 10 digits.reverse := by
  induction written generalizing before with
  | nil => simp [decimalValue]
  | @cons digit c digits text first _ ih =>
      have value := ((digitOf_iff digit c).1 first).2
      rw [decimalValue, ih, value, List.length_cons, List.reverse_cons, Nat.ofDigits_append,
        Nat.ofDigits_singleton, List.length_reverse, Nat.pow_succ]
      ring

theorem forall₂_digitOf_iff (digits : List Nat) (text : List Char) :
    List.Forall₂ DigitOf digits text ↔
      (∀ c ∈ text, c.isDigit = true) ∧ text.map digitValue = digits := by
  induction text generalizing digits with
  | nil =>
      rw [List.forall₂_nil_right_iff]
      exact ⟨fun same => ⟨fun c member => absurd member List.not_mem_nil, same.symm⟩,
        fun both => both.2.symm⟩
  | cons c text ih =>
      simp only [List.forall₂_cons_right_iff, ih, digitOf_iff, List.forall_mem_cons, List.map_cons]
      constructor
      · rintro ⟨_, _, ⟨digit, rfl⟩, ⟨others, rfl⟩, rfl⟩
        exact ⟨⟨digit, others⟩, rfl⟩
      · rintro ⟨⟨digit, others⟩, rfl⟩
        exact ⟨_, _, ⟨digit, rfl⟩, ⟨others, rfl⟩, rfl⟩

theorem readNat?_eq_some_iff (text : List Char) (n : Nat) :
    readNat? text = some n ↔ DigitsText text n := by
  have value : ∀ digits, List.Forall₂ DigitOf digits text →
      decimalValue 0 text = Nat.ofDigits 10 digits.reverse := by
    intro digits written
    rw [decimalValue_eq 0 written, Nat.zero_mul, Nat.zero_add]
  unfold readNat? DigitsText
  constructor
  · intro read
    split at read
    · next both =>
        have written := (forall₂_digitOf_iff _ text).2 ⟨List.all_eq_true.1 both.2, rfl⟩
        refine ⟨both.1, _, written, ?_⟩
        rw [← value _ written]
        exact Option.some.inj read
    · cases read
  · rintro ⟨filled, digits, written, rfl⟩
    have each := ((forall₂_digitOf_iff _ text).1 written).1
    rw [if_pos ⟨filled, List.all_eq_true.2 each⟩, value digits written]

/-- A sign or none, with the number of that sign whose size is one. -/
inductive SignText : List Char → Int → Prop
  | none : SignText [] 1
  | plus : SignText ['+'] 1
  | minus : SignText ['-'] (-1)

theorem readInt?_eq_some_iff (text : List Char) (n : Int) :
    readInt? text = some n ↔
      ∃ sign digits unit size, text = sign ++ digits ∧ SignText sign unit ∧
        DigitsText digits size ∧ n = unit * size := by
  constructor
  · have sized : ∀ (turn : Int → Int) (digits : List Char),
        ((readNat? digits).bind fun size => some (size : Int)).map turn = some n →
          ∃ size, DigitsText digits size ∧ turn size = n := by
      intro turn digits read
      obtain ⟨_, found, turned⟩ := Option.map_eq_some_iff.1 read
      obtain ⟨size, isSize, same⟩ := Option.bind_eq_some_iff.1 found
      cases same
      exact ⟨size, (readNat?_eq_some_iff ..).1 isSize, turned⟩
    intro read
    unfold readInt? at read
    split at read <;> obtain ⟨size, value, rfl⟩ := sized _ _ read
    · exact ⟨_, _, _, size, rfl, .minus, value, by omega⟩
    · exact ⟨_, _, _, size, rfl, .plus, value, by omega⟩
    · exact ⟨_, _, _, size, rfl, .none, value, by omega⟩
  · rintro ⟨sign, digits, unit, size, rfl, signed, written, rfl⟩
    have isSize := (readNat?_eq_some_iff ..).2 written
    cases signed with
    | plus => simp [readInt?, isSize]
    | minus => simp [readInt?, isSize]
    | none =>
        obtain ⟨filled, values, each, -⟩ := written
        obtain ⟨c, rest, rfl⟩ := List.exists_cons_of_ne_nil filled
        -- The first digit is no sign.
        have digit := ((forall₂_digitOf_iff ..).1 each).1 c List.mem_cons_self
        have minus : c ≠ '-' := by rintro rfl; cases digit
        have plus : c ≠ '+' := by rintro rfl; cases digit
        simp [readInt?, minus, plus, isSize]

theorem SignText.inner {sign : List Char} {unit : Int} (signed : SignText sign unit) :
    ∀ c ∈ sign, isBlank c = false := by
  cases signed with
  | none => exact List.forall_mem_nil _
  | plus => exact List.forall_mem_singleton.2 rfl
  | minus => exact List.forall_mem_singleton.2 rfl

theorem DigitsText.inner {text : List Char} {n : Nat} (written : DigitsText text n) :
    ∀ c ∈ text, isBlank c = false := by
  obtain ⟨-, digits, each, -⟩ := written
  intro c member
  obtain ⟨lower, upper⟩ := toNat_of_isDigit c (((forall₂_digitOf_iff ..).1 each).1 c member)
  rw [← Bool.not_eq_true, isBlank_iff]
  simp only [WhiteSpace, whiteSpaceRuns, List.exists_mem_cons_iff, List.not_mem_nil, false_and,
    exists_false, or_false]
  omega

/-- The ways to write an integer as the value of an attribute. -/
inductive IntegerText : List Char → Int → Prop
  | written {before sign digits after : List Char} {unit : Int} {size : Nat}
      (front : ∀ c ∈ before, WhiteSpace c) (signed : SignText sign unit)
      (value : DigitsText digits size) (behind : ∀ c ∈ after, WhiteSpace c) :
      IntegerText (before ++ (sign ++ digits) ++ after) (unit * size)

theorem readInt?_trimBlank_eq_some_iff (text : List Char) (n : Int) :
    readInt? (trimBlank text) = some n ↔ IntegerText text n := by
  constructor
  · intro read
    obtain ⟨before, after, split, front, behind⟩ := trimBlank_split text
    obtain ⟨sign, digits, unit, size, body, signed, value, rfl⟩ :=
      (readInt?_eq_some_iff ..).1 read
    rw [split, body]
    exact .written front signed value behind
  · rintro ⟨front, signed, value, behind⟩
    have inner := List.forall_mem_append.2 ⟨signed.inner, value.inner⟩
    rw [trimBlank_append (fun c member => (isBlank_iff c).2 (front c member)) inner
      fun c member => (isBlank_iff c).2 (behind c member)]
    exact (readInt?_eq_some_iff ..).2 ⟨_, _, _, _, rfl, signed, value, rfl⟩

/-- The decimal text of an integer is one of its texts. -/
theorem integerText_intText (n : Int) : IntegerText (intText n).toList n := by
  obtain ⟨sign, digits, unit, size, same, signed, value, rfl⟩ :=
    (readInt?_eq_some_iff ..).1 (Reading.readInt?_intText n)
  have none : ∀ c ∈ ([] : List Char), WhiteSpace c := List.forall_mem_nil _
  have written := IntegerText.written none signed value none
  rwa [List.nil_append, List.append_nil, ← same] at written

/-- A text stands for an integer of the signed 64-bit range just if it is a text of that integer,
and for none if it is no text of any. So the decimal text of each integer of the range stands for
that integer, from the least to the greatest. -/
theorem integer_of_text (text : String) :
    (∀ n, (Json.string text).integerLike? = some n ↔
      IntegerText text.toList n ∧ minInt64 ≤ n ∧ n ≤ maxInt64) ∧
    ((Json.string text).integerLike? = none ↔
      ¬ ∃ n, IntegerText text.toList n ∧ minInt64 ≤ n ∧ n ≤ maxInt64) ∧
    ∀ n, (Json.string (intText n)).integerLike? =
      if minInt64 ≤ n ∧ n ≤ maxInt64 then some n else none := by
  have stands : ∀ (text : String) n, (Json.string text).integerLike? = some n ↔
      IntegerText text.toList n ∧ minInt64 ≤ n ∧ n ≤ maxInt64 := by
    intro text n
    simp only [Json.integerLike?, Option.bind_eq_some_iff, readInt?_trimBlank_eq_some_iff,
      toInt64?_eq_some_iff]
    constructor
    · rintro ⟨_, written, rfl, range⟩
      exact ⟨written, range⟩
    · rintro ⟨written, range⟩
      exact ⟨n, written, rfl, range⟩
  refine ⟨stands text, ?_, fun n => ?_⟩
  · rw [Option.eq_none_iff_forall_ne_some, not_exists]
    exact forall_congr' fun n => not_congr (stands text n)
  · have read := (readInt?_trimBlank_eq_some_iff ..).2 (integerText_intText n)
    rw [Json.integerLike?, read, Option.bind_some, toInt64?]

/-- The least integer, with a zero in front of its digits and two sorts of white space around. -/
example : (Json.string "\u2003-09223372036854775808\n").integerLike? = some minInt64 := by
  decide +kernel

end PinTable

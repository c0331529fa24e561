import PinTable.Json.Basic
import PinTable.Text.Decimal

set_option autoImplicit false

/- How values are written. A value has many texts: white space may stand around each of its parts,
and a character of a string may stand for itself or as an escape. Integers stand in plain decimal,
and no text is given for reals. An object is written with entries as they stand in it, whether or
not they repeat a key. -/
namespace PinTable

namespace Quoted

/-- A hexadecimal digit of either case, with its value. -/
def HexDigit (value : Nat) (c : Char) : Prop :=
  "0123456789abcdef".toList[value]? = some c ∨ "0123456789ABCDEF".toList[value]? = some c

/-- A unit of 16 bits as four hexadecimal digits. -/
inductive UnitText : Nat → List Char → Prop
  | digits {w x y z : Nat} {a b c d : Char} (first : HexDigit w a) (second : HexDigit x b)
      (third : HexDigit y c) (fourth : HexDigit z d) :
      UnitText (((w * 16 + x) * 16 + y) * 16 + z) [a, b, c, d]

/-- The letters after a backslash, with the characters that they stand for. -/
def shortEscapes : List (Char × Char) :=
  [('"', '"'), ('\\', '\\'), ('/', '/'), ('b', '\x08'), ('f', '\x0C'), ('n', '\n'), ('r', '\r'),
    ('t', '\t')]

/-- The ways to write one character of a string: as it is, unless it is a control character, a quote
or a backslash; as a short escape; as its unit; or, beyond the units, as a pair of surrogates. -/
inductive CharText : Char → List Char → Prop
  | plain {c : Char} (visible : ' ' ≤ c) (noQuote : c ≠ '"') (noBackslash : c ≠ '\\') :
      CharText c [c]
  | short {letter c : Char} (escape : (letter, c) ∈ shortEscapes) : CharText c ['\\', letter]
  | unit {c : Char} {digits : List Char} (written : UnitText c.toNat digits) :
      CharText c ('\\' :: 'u' :: digits)
  | pair {c : Char} {leading trailing : List Char} (beyond : 0x10000 ≤ c.toNat)
      (first : UnitText (0xD800 + (c.toNat - 0x10000) / 0x400) leading)
      (second : UnitText (0xDC00 + (c.toNat - 0x10000) % 0x400) trailing) :
      CharText c ('\\' :: 'u' :: (leading ++ '\\' :: 'u' :: trailing))

inductive CharsText : List Char → List Char → Prop
  | nil : CharsText [] []
  | cons {c : Char} {chars text rest : List Char} (first : CharText c text)
      (others : CharsText chars rest) : CharsText (c :: chars) (text ++ rest)

/-- A string between its quotes. -/
inductive StringText : String → List Char → Prop
  | quoted {content : String} {text : List Char} (written : CharsText content.toList text) :
      StringText content ('"' :: (text ++ ['"']))

end Quoted

namespace Json

open Quoted (StringText)

/-- White space, or nothing. -/
def Spaces (text : List Char) : Prop := ∀ c ∈ text, c ∈ [' ', '\t', '\n', '\r']

section Parts

variable {α : Type} (writes : α → List Char → Prop)

/-- A part with white space around it. -/
inductive Spaced : α → List Char → Prop
  | around {part : α} {before text after : List Char} (spaceBefore : Spaces before)
      (written : writes part text) (spaceAfter : Spaces after) :
      Spaced part (before ++ text ++ after)

/-- One or more parts with commas between them. -/
inductive Series : List α → List Char → Prop
  | last {part : α} {text : List Char} (written : writes part text) : Series [part] text
  | more {part : α} {others : List α} {text rest : List Char} (written : writes part text)
      (series : Series others rest) : Series (part :: others) (text ++ ',' :: rest)

end Parts

/-- The texts of values that have no parts. -/
inductive ScalarText : Json → List Char → Prop
  | null : ScalarText null ['n', 'u', 'l', 'l']
  | true : ScalarText (bool true) ['t', 'r', 'u', 'e']
  | false : ScalarText (bool false) ['f', 'a', 'l', 's', 'e']
  | integer (value : Int) (lower : minInt64 ≤ value) (upper : value ≤ maxNat64) :
      ScalarText (number (.integer value lower upper)) (intText value).toList
  | string {content : String} {text : List Char} (written : StringText content text) :
      ScalarText (string content) text

section Nested

variable (writes : Json → List Char → Prop)

/-- A key, a colon and a value, with white space around the colon. -/
inductive EntryText : String × Json → List Char → Prop
  | entry {key : String} {value : Json} {keyText before after text : List Char}
      (isKey : StringText key keyText) (spaceBefore : Spaces before) (spaceAfter : Spaces after)
      (isValue : writes value text) :
      EntryText (key, value) (keyText ++ before ++ ':' :: (after ++ text))

/-- The texts of arrays and objects, given those of their parts. -/
inductive NestedText : Json → List Char → Prop
  | emptyArray {space : List Char} (isSpace : Spaces space) :
      NestedText (array []) ('[' :: (space ++ [']']))
  | array {items : List Json} {text : List Char} (written : Series (Spaced writes) items text) :
      NestedText (array items) ('[' :: (text ++ [']']))
  | emptyObject {space : List Char} (isSpace : Spaces space) :
      NestedText (object []) ('{' :: (space ++ ['}']))
  | object {entries : Entries Json} {text : List Char}
      (written : Series (Spaced (EntryText writes)) entries text) :
      NestedText (object entries) ('{' :: (text ++ ['}']))

end Nested

/-- The texts of a value in which arrays and objects nest at most as deep as given. -/
def Written : Nat → Json → List Char → Prop
  | 0, value, text => ScalarText value text
  | depth + 1, value, text => ScalarText value text ∨ NestedText (Written depth) value text

/-- The texts of a document: a value that nests at most 127 deep, with white space around it. -/
def WrittenDocument : Json → List Char → Prop := Spaced (Written 127)

/-- A value made of nulls, flags, integers, strings, arrays and objects, the last two nested at most
as deep as given. -/
inductive NestsWithin : Nat → Json → Prop
  | null (depth : Nat) : NestsWithin depth null
  | bool (depth : Nat) (flag : Bool) : NestsWithin depth (bool flag)
  | integer (depth : Nat) (value : Int) (lower : minInt64 ≤ value) (upper : value ≤ maxNat64) :
      NestsWithin depth (number (.integer value lower upper))
  | string (depth : Nat) (content : String) : NestsWithin depth (string content)
  | array {depth : Nat} {items : List Json} (each : ∀ item ∈ items, NestsWithin depth item) :
      NestsWithin (depth + 1) (array items)
  | object {depth : Nat} {entries : Entries Json}
      (each : ∀ entry ∈ entries, NestsWithin depth entry.2) :
      NestsWithin (depth + 1) (object entries)

end Json

namespace Quoted

theorem exists_unitText {unit : Nat} (small : unit < 0x10000) : ∃ digits, UnitText unit digits := by
  have digit : ∀ value < 16, ∃ c, HexDigit value c := by
    intro value below
    have inside : value < "0123456789abcdef".toList.length := below
    exact ⟨_, .inl (List.getElem?_eq_getElem inside)⟩
  obtain ⟨a, first⟩ := digit (unit / 0x1000) (by omega)
  obtain ⟨b, second⟩ := digit (unit / 0x100 % 16) (by omega)
  obtain ⟨c, third⟩ := digit (unit / 16 % 16) (by omega)
  obtain ⟨d, fourth⟩ := digit (unit % 16) (by omega)
  have same : ((unit / 0x1000 * 16 + unit / 0x100 % 16) * 16 + unit / 16 % 16) * 16 + unit % 16 =
      unit := by
    omega
  have written := UnitText.digits first second third fourth
  rw [same] at written
  exact ⟨_, written⟩

theorem stringText_ofList {chars text : List Char} (written : CharsText chars text) :
    StringText (String.ofList chars) ('"' :: (text ++ ['"'])) :=
  .quoted (by rwa [String.toList_ofList])

/-- Every character can be written: as a unit, or beyond the units as it is. -/
theorem exists_charText (c : Char) : ∃ text, CharText c text := by
  by_cases small : c.toNat < 0x10000
  · obtain ⟨digits, written⟩ := exists_unitText small
    exact ⟨_, .unit written⟩
  · have apart : ∀ other : Char, other.toNat < 0x10000 → c ≠ other := by
      rintro other below rfl
      exact small below
    have visible : ' ' ≤ c := by
      have code : ' '.val.toNat ≤ c.val.toNat := by
        have blank : ' '.val.toNat = 32 := rfl
        have same : c.toNat = c.val.toNat := rfl
        omega
      exact UInt32.le_iff_toNat_le.2 code
    exact ⟨[c], .plain visible (apart '"' (by decide)) (apart '\\' (by decide))⟩

theorem exists_stringText (content : String) : ∃ text, StringText content text := by
  have each : ∀ chars : List Char, ∃ text, CharsText chars text := by
    intro chars
    induction chars with
    | nil => exact ⟨[], .nil⟩
    | cons c rest ih =>
        obtain ⟨first, isFirst⟩ := exists_charText c
        obtain ⟨others, areOthers⟩ := ih
        exact ⟨first ++ others, .cons isFirst areOthers⟩
  obtain ⟨text, written⟩ := each content.toList
  exact ⟨_, .quoted written⟩

end Quoted

namespace Json

theorem spaces_nil : Spaces [] := fun _ member => absurd member List.not_mem_nil

section Series

variable {α : Type} (writes : α → List Char → Prop)

theorem exists_spaced_iff (part : α) :
    (∃ text, Spaced writes part text) ↔ ∃ text, writes part text := by
  constructor
  · rintro ⟨_, @⟨before, text, after, _, written, _⟩⟩
    exact ⟨text, written⟩
  · rintro ⟨text, written⟩
    exact ⟨_, .around spaces_nil written spaces_nil⟩

theorem exists_series_iff (parts : List α) :
    (∃ text, Series writes parts text) ↔
      parts ≠ [] ∧ ∀ part ∈ parts, ∃ text, writes part text := by
  constructor
  · rintro ⟨text, series⟩
    induction series with
    | last written => exact ⟨List.cons_ne_nil _ _, List.forall_mem_singleton.2 ⟨_, written⟩⟩
    | more written _ ih =>
        exact ⟨List.cons_ne_nil _ _, List.forall_mem_cons.2 ⟨⟨_, written⟩, ih.2⟩⟩
  · rintro ⟨some, each⟩
    induction parts with
    | nil => exact absurd rfl some
    | cons part rest ih =>
        obtain ⟨⟨text, written⟩, others⟩ := List.forall_mem_cons.1 each
        cases rest with
        | nil => exact ⟨text, .last written⟩
        | cons next later =>
            obtain ⟨more, series⟩ := ih (List.cons_ne_nil _ _) others
            exact ⟨_, .more written series⟩

theorem exists_spacedSeries_iff (parts : List α) :
    (∃ text, Series (Spaced writes) parts text) ↔
      parts ≠ [] ∧ ∀ part ∈ parts, ∃ text, writes part text := by
  simp only [exists_series_iff, exists_spaced_iff]

end Series

theorem exists_entryText_iff (writes : Json → List Char → Prop) (entry : String × Json) :
    (∃ text, EntryText writes entry text) ↔ ∃ text, writes entry.2 text := by
  constructor
  · rintro ⟨_, @⟨key, value, _, _, _, text, _, _, _, isValue⟩⟩
    exact ⟨text, isValue⟩
  · rintro ⟨text, isValue⟩
    obtain ⟨keyText, isKey⟩ := Quoted.exists_stringText entry.1
    exact ⟨_, .entry isKey spaces_nil spaces_nil isValue⟩

theorem written_of_scalarText (depth : Nat) {value : Json} {text : List Char}
    (written : ScalarText value text) : Written depth value text := by
  cases depth with
  | zero => exact written
  | succ depth => exact .inl written

theorem nestsWithin_of_scalarText (depth : Nat) {value : Json} {text : List Char}
    (written : ScalarText value text) : NestsWithin depth value := by
  cases written with
  | null => exact .null depth
  | true => exact .bool depth _
  | false => exact .bool depth _
  | integer value lower upper => exact .integer depth value lower upper
  | string => exact .string depth _

/-- The values that have a text are those that nest within the depth. -/
theorem exists_written_iff (depth : Nat) (value : Json) :
    (∃ text, Written depth value text) ↔ NestsWithin depth value := by
  constructor
  · rintro ⟨text, written⟩
    induction depth generalizing value text with
    | zero => exact nestsWithin_of_scalarText 0 written
    | succ depth ih =>
        rcases written with scalar | nested
        · exact nestsWithin_of_scalarText (depth + 1) scalar
        · cases nested with
          | emptyArray => exact .array fun _ member => absurd member List.not_mem_nil
          | emptyObject => exact .object fun _ member => absurd member List.not_mem_nil
          | array series =>
              refine .array fun item member => ?_
              obtain ⟨text, written⟩ :=
                ((exists_spacedSeries_iff _ _).1 ⟨_, series⟩).2 item member
              exact ih item text written
          | object series =>
              refine .object fun entry member => ?_
              obtain ⟨text, written⟩ := (exists_entryText_iff _ entry).1
                (((exists_spacedSeries_iff _ _).1 ⟨_, series⟩).2 entry member)
              exact ih entry.2 text written
  · intro nests
    induction nests with
    | null depth => exact ⟨_, written_of_scalarText depth .null⟩
    | bool depth flag =>
        cases flag with
        | false => exact ⟨_, written_of_scalarText depth .false⟩
        | true => exact ⟨_, written_of_scalarText depth .true⟩
    | integer depth value lower upper =>
        exact ⟨_, written_of_scalarText depth (.integer value lower upper)⟩
    | string depth content =>
        obtain ⟨text, written⟩ := Quoted.exists_stringText content
        exact ⟨_, written_of_scalarText depth (.string written)⟩
    | @array depth items _ ih =>
        by_cases empty : items = []
        · subst empty
          exact ⟨_, .inr (.emptyArray spaces_nil)⟩
        · obtain ⟨text, series⟩ := (exists_spacedSeries_iff (Written depth) items).2 ⟨empty, ih⟩
          exact ⟨_, .inr (.array series)⟩
    | @object depth entries _ ih =>
        by_cases empty : entries = []
        · subst empty
          exact ⟨_, .inr (.emptyObject spaces_nil)⟩
        · obtain ⟨text, series⟩ := (exists_spacedSeries_iff (EntryText (Written depth)) entries).2
            ⟨empty, fun entry member => (exists_entryText_iff _ entry).2 (ih entry member)⟩
          exact ⟨_, .inr (.object series)⟩

end Json

end PinTable

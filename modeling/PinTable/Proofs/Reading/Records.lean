import Mathlib.Data.List.Nodup
import PinTable.Chain
import PinTable.Proofs.Reading.Words

set_option autoImplicit false

namespace PinTable.Reading

/-- A defined symbol with the text of its value. -/
structure Definition where
  symbol : String
  value : String
  deriving DecidableEq, Repr

/-- The definition in a line that starts with the type of the object. -/
def definition? (start line : String) : Option Definition := do
  let rest ← after? start line
  let symbol := upTo ' ' rest
  let value ← after? (symbol ++ " = ") rest
  return ⟨symbol, upTo ';' value⟩

theorem definition?_line (start symbol value : String) (word : Word symbol)
    (closed : ';' ∉ value.toList) :
    definition? start (start ++ (symbol ++ (" = " ++ (value ++ ";")))) =
      some ⟨symbol, value⟩ := by
  have name : upTo ' ' (symbol ++ (" = " ++ (value ++ ";"))) = symbol := by
    apply upTo_append ' ' _ _ (word.not_mem ' ' rfl)
    rw [String.toList_append]
    rfl
  have ended : upTo ';' (value ++ ";") = value := upTo_append ';' _ _ closed rfl
  simp only [definition?, after?_append, Option.bind_eq_bind, Option.bind_some, name]
  rw [← String.append_assoc, after?_append, Option.bind_some, ended]
  rfl

theorem definition?_eq_none (start line : String) (other : after? start line = none) :
    definition? start line = none := by
  rw [definition?, other]
  rfl

/-- A defined record: its symbol, and its entries in order. -/
structure SourceRecord where
  symbol : String
  entries : List String
  deriving DecidableEq, Repr

def record? (type line : String) : Option SourceRecord := do
  let definition ← definition? (type ++ " ") line
  let inside ← after? "\x7b" definition.value
  return ⟨definition.symbol, entriesIn (upTo '\x7d' inside)⟩

/-- The records of a type that a text defines, in order. -/
def recordsIn (type text : String) : List SourceRecord := (linesIn text).filterMap (record? type)

def recordLine (type : String) (record : SourceRecord) : String :=
  type ++ " " ++ (record.symbol ++ (" = " ++ (Listing.braced (commaList record.entries) ++ ";")))

/-- A record of words, at least one of them an entry. -/
structure Legible (record : SourceRecord) : Prop where
  symbol : Word record.symbol
  nonempty : record.entries ≠ []
  entries : ∀ entry ∈ record.entries, Word entry

theorem Legible.not_mem_braced {record : SourceRecord} (legible : Legible record)
    (separator : Char) (separates : isSeparator separator = true)
    (others : separator ∉ "\x7b, \x7d".toList) :
    separator ∉ (Listing.braced (commaList record.entries)).toList := by
  have parts : "\x7b, \x7d".toList = "\x7b".toList ++ ", ".toList ++ "\x7d".toList := rfl
  rw [parts, List.mem_append, List.mem_append, not_or, not_or] at others
  have inside := not_mem_commaList record.entries legible.entries separator separates others.1.2
  simp only [Listing.braced, String.toList_append, List.mem_append, not_or]
  exact ⟨⟨others.1.1, inside⟩, others.2⟩

theorem Legible.unbroken {record : SourceRecord} (legible : Legible record) (type : String)
    (word : Word type) : Unbroken (recordLine type record) := by
  have inside := legible.not_mem_braced '\n' rfl (by decide)
  simp only [recordLine, unbroken_append]
  exact ⟨⟨word.unbroken, by decide⟩, legible.symbol.unbroken, by decide, inside, by decide⟩

/-- A record that is written as one line is read with all of its entries. -/
theorem record?_recordLine (type : String) (record : SourceRecord) (legible : Legible record) :
    record? type (recordLine type record) = some record := by
  have closed := legible.not_mem_braced ';' rfl (by decide)
  have inner : upTo '\x7d' (commaList record.entries ++ "\x7d") = commaList record.entries :=
    upTo_append '\x7d' _ _
      (not_mem_commaList record.entries legible.entries '\x7d' rfl (by decide)) rfl
  rw [record?, recordLine, definition?_line _ _ _ legible.symbol closed, Option.bind_eq_bind,
    Option.bind_some, Listing.braced, String.append_assoc, after?_append, Option.bind_eq_bind,
    Option.bind_some, inner, entriesIn_commaList record.entries legible.nonempty legible.entries]
  rfl

theorem record?_eq_none (type line : String) (other : after? (type ++ " ") line = none) :
    record? type line = none := by
  rw [record?, definition?_eq_none _ _ other]
  rfl

theorem filterMap_recordLine (type : String) (records : List SourceRecord)
    (legible : ∀ record ∈ records, Legible record) :
    (records.map (recordLine type)).filterMap (record? type) = records := by
  induction records with
  | nil => rfl
  | cons record rest ih =>
      have first := record?_recordLine type record (legible record (List.mem_cons_self ..))
      rw [List.map_cons, List.filterMap_cons_some first,
        ih fun other member => legible other (List.mem_cons_of_mem _ member)]

theorem filterMap_recordLine_other (type other : String) (records : List SourceRecord)
    (shorter : ¬ (type ++ " ").toList <+: (other ++ " ").toList)
    (longer : ¬ (other ++ " ").toList <+: (type ++ " ").toList) :
    (records.map (recordLine other)).filterMap (record? type) = [] := by
  rw [List.filterMap_eq_nil_iff]
  intro line member
  obtain ⟨record, _, rfl⟩ := List.mem_map.1 member
  exact record?_eq_none type _ (after?_append_eq_none _ _ _ shorter longer)

theorem filterMap_record?_eq_nil (type : String) (lines : List String) (first : Char)
    (starts : (type ++ " ").toList.head? = some first)
    (different : ∀ line ∈ lines, line.toList.head? ≠ some first) :
    lines.filterMap (record? type) = [] := by
  rw [List.filterMap_eq_nil_iff]
  intro line member
  exact record?_eq_none type line (after?_eq_none _ line first starts (different line member))

/-- Items that hold references to each other by symbol. -/
def symbolLinks {α : Type} (symbol : α → String) (next : α → Option String) (items : List α) :
    Links String α :=
  fun reference => do
    let item ← items.find? fun item => addressOf (symbol item) = reference
    let following ← next item
    return (item, following)

theorem addressOf_inj {first second : String} (same : addressOf first = addressOf second) :
    first = second := by
  have found := congrArg (after? "&") same
  rwa [addressOf, addressOf, after?_append, after?_append, Option.some_inj] at found

theorem addressOf_ne_null (symbol : String) : addressOf symbol ≠ nullReference := by
  intro same
  have found := congrArg (after? "&") same
  rw [addressOf, after?_append, after?_eq_none "&" nullReference '&' rfl (by decide)] at found
  cases found

theorem symbolLinks_null {α : Type} (symbol : α → String) (next : α → Option String)
    (items : List α) : symbolLinks symbol next items nullReference = none := by
  have absent : items.find? (fun item => addressOf (symbol item) = nullReference) = none := by
    rw [List.find?_eq_none]
    intro item _ same
    exact addressOf_ne_null (symbol item) (of_decide_eq_true same)
  rw [symbolLinks, absent]
  rfl

/-- A reference leads to the item of its symbol, if no other item has the symbol. -/
theorem symbolLinks_of_mem {α : Type} (symbol : α → String) (next : α → Option String)
    (items : List α) (distinct : (items.map symbol).Nodup) (item : α) (member : item ∈ items)
    (following : String) (linked : next item = some following) :
    symbolLinks symbol next items (addressOf (symbol item)) = some (item, following) := by
  have found : items.find? (fun other => addressOf (symbol other) = addressOf (symbol item)) =
      some item := by
    cases result : items.find? fun other => addressOf (symbol other) = addressOf (symbol item) with
    | none =>
        rw [List.find?_eq_none] at result
        exact absurd (decide_eq_true rfl) (result item member)
    | some other =>
        have matching := List.find?_some result
        have same := addressOf_inj (of_decide_eq_true matching)
        have inside := List.mem_of_find?_eq_some result
        rw [List.inj_on_of_nodup_map distinct inside member same]
  rw [symbolLinks, found, Option.bind_eq_bind, Option.bind_some, linked]
  rfl

end PinTable.Reading

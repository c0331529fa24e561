import Mathlib.Data.List.TakeWhile
import PinTable.Proofs.Json.Settled
import PinTable.Proofs.Json.Tokens

set_option autoImplicit false

namespace PinTable.Json

open Quoted (StringText)

theorem skipSpace_of_opens {space text : List Char} (spaces : Spaces space) (opens : Opens text)
    (rest : List Char) : skipSpace (space ++ text ++ rest) = text ++ rest := by
  obtain ⟨c, more, rfl, visible, -⟩ := opens
  rw [skipSpace, List.append_assoc, List.dropWhile_append_of_pos (isSpace_of_spaces spaces),
    List.cons_append, List.dropWhile_cons_of_neg (by simp [visible])]

theorem skipSpace_of_closing {space : List Char} (spaces : Spaces space) (c : Char)
    (visible : isSpace c = false) (rest : List Char) :
    skipSpace (space ++ c :: rest) = c :: rest := by
  rw [skipSpace, List.dropWhile_append_of_pos (isSpace_of_spaces spaces),
    List.dropWhile_cons_of_neg (by simp [visible])]

/-- A reader takes a result off a text, with white space in front of it, and leaves what stands
behind it. -/
def TakesOff {α : Type} (reader : Reader α) (text : List Char) (result : α) : Prop :=
  ∀ space rest, Spaces space → Ends rest → reader (space ++ text ++ rest) = some (result, rest)

/-- A reader takes off every text of a kind of parts what is told of the part. -/
def Recovers {α β : Type} (writes : α → List Char → Prop) (tells : α → β → Prop)
    (reader : Reader β) : Prop :=
  ∀ part text, writes part text → Opens text ∧ ∃ result, tells part result ∧
    TakesOff reader text result

section Series

variable {α β : Type}

/-- Reads parts with commas between them, up to a closing bracket. -/
def readSeries (close : Char) (item : Reader β) : Nat → Reader (List β)
  | 0, _ => none
  | fuel + 1, text => do
      let (first, rest) ← item text
      match skipSpace rest with
      | [] => none
      | c :: rest =>
          if c = close then some ([first], rest)
          else if c = ',' then do
            let (others, rest) ← readSeries close item fuel rest
            some (first :: others, rest)
          else none

/-- Behind a part there is nothing to read but a closing bracket or a comma. -/
theorem stops_of_others {close : Char} {text : List Char} {atEnd goesOn : Reader α}
    (noClose : ∀ more, text = close :: more → False) (noComma : ∀ more, text = ',' :: more → False) :
    (match text with
      | [] => none
      | c :: rest => if c = close then atEnd rest else if c = ',' then goesOn rest else none) =
      none := by
  cases text with
  | nil => rfl
  | cons c more =>
      have isNoClose : c ≠ close := by
        rintro rfl
        exact noClose more rfl
      have isNoComma : c ≠ ',' := by
        rintro rfl
        exact noComma more rfl
      simp only [isNoClose, isNoComma, if_false]

theorem readItems_eq (item : Reader Json) (fuel : Nat) :
    readItems item fuel = readSeries ']' item fuel := by
  induction fuel with
  | zero => rfl
  | succ fuel ih =>
      funext text
      rw [readItems, readSeries, ih]
      refine congrArg (Option.bind _) (funext fun ⟨first, rest⟩ => ?_)
      dsimp only
      split
      · next found => rw [found]; rfl
      · next found => rw [found]; rfl
      · next noClose noComma => exact (stops_of_others noClose noComma).symm

theorem readEntries_eq (item : Reader Json) (fuel : Nat) :
    readEntries item fuel = readSeries '}' (readEntry item) fuel := by
  induction fuel with
  | zero => rfl
  | succ fuel ih =>
      funext text
      rw [readEntries, readSeries, ih]
      refine congrArg (Option.bind _) (funext fun ⟨first, rest⟩ => ?_)
      dsimp only
      split
      · next found => rw [found]; rfl
      · next found => rw [found]; rfl
      · next noClose noComma => exact (stops_of_others noClose noComma).symm

variable {writes : α → List Char → Prop} {tells : α → β → Prop} {reader : Reader β}
  (recovers : Recovers writes tells reader)

section Spaced

variable {part : α} {text : List Char} (spaced : Spaced writes part text)

include recovers spaced

/-- A part is taken off with the white space in front of it, and left is that behind it. -/
theorem takesOff_spaced : ∃ result, tells part result ∧ ∀ c rest, c = ',' ∨ c = ']' ∨ c = '}' →
    ∃ left, reader (text ++ c :: rest) = some (result, left) ∧ skipSpace left = c :: rest := by
  obtain @⟨before, body, after, spaceBefore, written, spaceAfter⟩ := spaced
  obtain ⟨-, result, told, takes⟩ := recovers part body written
  refine ⟨result, told, fun c rest stops => ⟨after ++ c :: rest, ?_, ?_⟩⟩
  · rw [List.append_assoc]
    refine takes before _ spaceBefore (ends_of_spaces spaceAfter ?_)
    rintro _ ⟨⟩
    exact .inr stops
  · refine skipSpace_of_closing spaceAfter c ?_ rest
    rcases stops with rfl | rfl | rfl <;> rfl

theorem begins_of_spaced (rest : List Char) :
    ∃ c more, skipSpace (text ++ rest) = c :: more ∧ c ≠ ']' ∧ c ≠ '}' := by
  obtain @⟨before, body, after, spaceBefore, written, spaceAfter⟩ := spaced
  have opens := (recovers part body written).1
  rw [List.append_assoc, skipSpace_of_opens spaceBefore opens]
  obtain ⟨c, more, rfl, -, noBracket, noBrace⟩ := opens
  exact ⟨c, _, rfl, noBracket, noBrace⟩

end Spaced

variable {parts : List α} {text : List Char} (series : Series (Spaced writes) parts text)

include recovers series

theorem begins_of_series (rest : List Char) :
    ∃ c more, skipSpace (text ++ rest) = c :: more ∧ c ≠ ']' ∧ c ≠ '}' := by
  cases series with
  | last spaced => exact begins_of_spaced recovers spaced rest
  | more spaced _ =>
      rw [List.append_assoc]
      exact begins_of_spaced recovers spaced _

/-- A text is longer than the number of its parts, so it bounds how many are read. -/
theorem length_le_of_series : parts.length ≤ text.length := by
  induction series with
  | @last part text spaced =>
      obtain ⟨c, more, begins, -⟩ := begins_of_spaced recovers spaced []
      cases text with
      | nil => cases begins
      | cons => simp
  | more _ _ ih =>
      simp only [List.length_cons, List.length_append]
      omega

theorem readSeries_of_series {close : Char} (closes : close = ']' ∨ close = '}') :
    ∃ results, List.Forall₂ tells parts results ∧ ∀ fuel rest, parts.length ≤ fuel →
      readSeries close reader fuel (text ++ close :: rest) = some (results, rest) := by
  induction series with
  | last spaced =>
      obtain ⟨result, told, takes⟩ := takesOff_spaced recovers spaced
      refine ⟨[result], .cons told .nil, fun fuel rest enough => ?_⟩
      obtain ⟨left, taken, skipped⟩ := takes close rest (.inr closes)
      obtain ⟨fuel, rfl⟩ := Nat.exists_eq_add_one.2 enough
      simp only [readSeries, taken, Option.bind_eq_bind, Option.bind_some, skipped, if_true]
  | @more part others text later spaced _ ih =>
      obtain ⟨result, told, takes⟩ := takesOff_spaced recovers spaced
      obtain ⟨results, tolds, reads⟩ := ih
      refine ⟨result :: results, .cons told tolds, fun fuel rest enough => ?_⟩
      rw [List.length_cons] at enough
      obtain ⟨fuel, rfl⟩ := Nat.exists_eq_add_one.2 (Nat.zero_lt_of_lt enough)
      obtain ⟨left, taken, skipped⟩ := takes ',' (later ++ close :: rest) (.inl rfl)
      have noComma : ',' ≠ close := by rcases closes with rfl | rfl <;> decide
      rw [List.append_assoc, List.cons_append]
      simp only [readSeries, taken, Option.bind_eq_bind, Option.bind_some, skipped, noComma,
        if_false, if_true, reads fuel rest (Nat.le_of_succ_le_succ enough)]

/-- What stands between two brackets does not begin with the closing one, and is read with as much
fuel as what is left of the text is long. -/
theorem readSeries_of_brackets {close : Char} (closes : close = ']' ∨ close = '}') :
    ∃ results, List.Forall₂ tells parts results ∧ ∀ rest,
      (∃ c more, skipSpace (text ++ close :: rest) = c :: more ∧ c ≠ close) ∧
      readSeries close reader (text ++ close :: rest).length (text ++ close :: rest) =
        some (results, rest) := by
  obtain ⟨results, told, reads⟩ := readSeries_of_series recovers series closes
  refine ⟨results, told, fun rest => ⟨?_, reads _ rest ?_⟩⟩
  · obtain ⟨c, more, begins, noBracket, noBrace⟩ := begins_of_series recovers series (close :: rest)
    rcases closes with rfl | rfl
    · exact ⟨c, more, begins, noBracket⟩
    · exact ⟨c, more, begins, noBrace⟩
  · rw [List.length_append]
    exact (length_le_of_series recovers series).trans (Nat.le_add_right ..)

end Series

section Nested

variable {writes : Json → List Char → Prop} {reader : Reader Json}

theorem recovers_readEntry (recovers : Recovers writes Settles reader) :
    Recovers (EntryText writes)
      (fun entry result => entry.1 = result.1 ∧ Settles entry.2 result.2) (readEntry reader) := by
  rintro _ _ @⟨key, value, _, before, after, text, @⟨chars, isKey⟩, spaceBefore, spaceAfter,
    isValue⟩
  obtain ⟨-, result, settles, takes⟩ := recovers value text isValue
  have opens : Opens ('"' :: (chars ++ ['"']) ++ before ++ ':' :: (after ++ text)) :=
    ⟨'"', _, rfl, rfl, by decide, by decide⟩
  refine ⟨opens, (key, result), ⟨rfl, settles⟩, fun space rest spaces ends => ?_⟩
  have quoted : '"' :: (chars ++ ['"']) ++ before ++ ':' :: (after ++ text) ++ rest =
      '"' :: (chars ++ '"' :: (before ++ ':' :: (after ++ text ++ rest))) := by
    simp only [List.cons_append, List.append_assoc, List.nil_append]
  have colon := skipSpace_of_closing spaceBefore ':' rfl (after ++ text ++ rest)
  rw [readEntry, skipSpace_of_opens spaces opens, quoted]
  simp only [Quoted.read_of_charsText isKey, Option.bind_eq_bind, Option.bind_some, colon,
    takes after rest spaceAfter ends, String.ofList_toList]

theorem readArray_of_empty (reader : Reader Json) {space : List Char} (spaces : Spaces space)
    (rest : List Char) :
    readArray reader (space ++ ']' :: rest) = some (.array [], rest) := by
  rw [readArray, skipSpace_of_closing spaces ']' rfl]
  rfl

theorem readObject_of_empty (reader : Reader Json) {space : List Char} (spaces : Spaces space)
    (rest : List Char) :
    readObject reader (space ++ '}' :: rest) = some (.object [], rest) := by
  rw [readObject, skipSpace_of_closing spaces '}' rfl]
  rfl

theorem readArray_of_begins {c : Char} {text more : List Char} (begins : skipSpace text = c :: more)
    (noBracket : c ≠ ']') :
    readArray reader text =
      (readSeries ']' reader text.length text).map fun (items, rest) => (.array items, rest) := by
  rw [readArray, begins, readItems_eq]
  split
  · next same => exact absurd (List.cons.inj same).1 noBracket
  · rfl

theorem readObject_of_begins {c : Char} {text more : List Char}
    (begins : skipSpace text = c :: more) (noBrace : c ≠ '}') :
    readObject reader text = (readSeries '}' (readEntry reader) text.length text).map
      fun (entries, rest) => (ofEntries entries, rest) := by
  rw [readObject, begins, readEntries_eq]
  split
  · next same => exact absurd (List.cons.inj same).1 noBrace
  · rfl

theorem readArray_of_series (recovers : Recovers writes Settles reader) {items : List Json}
    {text : List Char} (series : Series (Spaced writes) items text) :
    ∃ result, Settles (array items) result ∧
      ∀ rest, readArray reader (text ++ ']' :: rest) = some (result, rest) := by
  obtain ⟨results, settle, reads⟩ := readSeries_of_brackets recovers series (.inl rfl)
  refine ⟨.array results, .array settle, fun rest => ?_⟩
  obtain ⟨⟨c, more, begins, noBracket⟩, read⟩ := reads rest
  rw [readArray_of_begins begins noBracket, read, Option.map_some]

theorem readObject_of_series (recovers : Recovers writes Settles reader) {entries : Entries Json}
    {text : List Char} (series : Series (Spaced (EntryText writes)) entries text) :
    ∃ result, Settles (object entries) result ∧
      ∀ rest, readObject reader (text ++ '}' :: rest) = some (result, rest) := by
  obtain ⟨results, settle, reads⟩ :=
    readSeries_of_brackets (recovers_readEntry recovers) series (.inr rfl)
  refine ⟨ofEntries results, settles_ofEntries settle, fun rest => ?_⟩
  obtain ⟨⟨c, more, begins, noBrace⟩, read⟩ := reads rest
  rw [readObject_of_begins begins noBrace, read, Option.map_some]

end Nested

theorem readValue_of_scalar (depth : Nat) {value : Json} {text : List Char}
    (written : ScalarText value text) : TakesOff (readValue depth) text value := by
  intro space rest spaces ends
  obtain ⟨opens, noArray, noObject⟩ := scalar_begins written
  have scalar := readScalar_of_scalarText written ends
  have skipped := skipSpace_of_opens spaces opens rest
  obtain ⟨c, more, rfl, -⟩ := opens
  cases depth <;>
  · rw [readValue, skipped]
    split
    · next same => exact absurd (congrArg List.head? same) noArray
    · next same => exact absurd (congrArg List.head? same) noObject
    · exact scalar

theorem settles_of_scalar {value : Json} {text : List Char} (written : ScalarText value text) :
    Settles value value := by
  cases written with
  | null => exact .null
  | true => exact .bool _
  | false => exact .bool _
  | integer => exact .number _
  | string => exact .string _

/-- A value in brackets is read by what reads the text behind the opening one. -/
theorem takesOff_brackets {depth : Nat} {opening closing : Char} {text : List Char} {result : Json}
    {inner : Reader Json}
    (begins : isSpace opening = false ∧ opening ≠ ']' ∧ opening ≠ '}')
    (opens : ∀ text rest, skipSpace text = opening :: rest →
      readValue (depth + 1) text = inner rest)
    (reads : ∀ rest, inner (text ++ closing :: rest) = some (result, rest)) :
    Opens (opening :: (text ++ [closing])) ∧
      TakesOff (readValue (depth + 1)) (opening :: (text ++ [closing])) result := by
  have isOpen : Opens (opening :: (text ++ [closing])) := ⟨opening, _, rfl, begins⟩
  refine ⟨isOpen, fun space rest spaces _ => ?_⟩
  have skipped := skipSpace_of_opens spaces isOpen rest
  rw [List.cons_append, List.append_assoc text, List.singleton_append] at skipped
  rw [opens _ _ skipped]
  exact reads rest

theorem takesOff_array {depth : Nat} {text : List Char} {result : Json}
    (reads : ∀ rest, readArray (readValue depth) (text ++ ']' :: rest) = some (result, rest)) :
    Opens ('[' :: (text ++ [']'])) ∧
      TakesOff (readValue (depth + 1)) ('[' :: (text ++ [']'])) result := by
  refine takesOff_brackets (by decide) (fun text rest skipped => ?_) reads
  rw [readValue, skipped]
  rfl

theorem takesOff_object {depth : Nat} {text : List Char} {result : Json}
    (reads : ∀ rest, readObject (readValue depth) (text ++ '}' :: rest) = some (result, rest)) :
    Opens ('{' :: (text ++ ['}'])) ∧
      TakesOff (readValue (depth + 1)) ('{' :: (text ++ ['}'])) result := by
  refine takesOff_brackets (by decide) (fun text rest skipped => ?_) reads
  rw [readValue, skipped]
  rfl

/-- A value is taken off each of its texts. What nests in it is read one level down. -/
theorem recovers_readValue (depth : Nat) :
    Recovers (Written depth) Settles (readValue depth) := by
  have scalars (depth : Nat) {value : Json} {text : List Char} (written : ScalarText value text) :
      Opens text ∧ ∃ result, Settles value result ∧ TakesOff (readValue depth) text result :=
    ⟨(scalar_begins written).1, value, settles_of_scalar written, readValue_of_scalar depth written⟩
  induction depth with
  | zero => exact fun value text written => scalars 0 written
  | succ depth ih =>
      rintro value text (scalar | nested)
      · exact scalars (depth + 1) scalar
      · cases nested with
        | emptyArray spaces =>
            obtain ⟨opens, takes⟩ := takesOff_array (readArray_of_empty (readValue depth) spaces)
            exact ⟨opens, _, .array .nil, takes⟩
        | array series =>
            obtain ⟨result, settles, reads⟩ := readArray_of_series ih series
            obtain ⟨opens, takes⟩ := takesOff_array reads
            exact ⟨opens, result, settles, takes⟩
        | emptyObject spaces =>
            obtain ⟨opens, takes⟩ := takesOff_object (readObject_of_empty (readValue depth) spaces)
            refine ⟨opens, _, .object rfl fun key last value found => ?_, takes⟩
            cases found
        | object series =>
            obtain ⟨result, settles, reads⟩ := readObject_of_series ih series
            obtain ⟨opens, takes⟩ := takesOff_object reads
            exact ⟨opens, result, settles, takes⟩

theorem read?_of_written {value : Json} {text : List Char} (written : WrittenDocument value text) :
    ∃ result, Settles value result ∧ read? text = some result := by
  obtain @⟨before, body, after, spaceBefore, isValue, spaceAfter⟩ := written
  obtain ⟨-, result, settles, takes⟩ := recovers_readValue 127 value body isValue
  have ends : Ends after := by
    have nothing : Ends [] := fun _ none => by cases none
    simpa using ends_of_spaces spaceAfter nothing
  have taken : readValue greatestDepth (before ++ body ++ after) = some (result, after) :=
    takes before after spaceBefore ends
  have skipped : skipSpace after = [] :=
    List.dropWhile_eq_nil_iff.2 (isSpace_of_spaces spaceAfter)
  refine ⟨result, settles, ?_⟩
  simp only [read?, taken, Option.bind_eq_bind, Option.bind_some, skipped, List.isEmpty_nil,
    if_true]

theorem ofBytes?_toUTF8 (text : List Char) : ofBytes? (String.ofList text).toUTF8 = read? text := by
  have decoded : String.fromUTF8? (String.ofList text).toUTF8 = some (String.ofList text) :=
    dif_pos (String.ofList text).isValidUTF8
  rw [ofBytes?, decoded, Option.bind_eq_bind, Option.bind_some, String.toList_ofList]

end PinTable.Json

import Mathlib.Data.List.Nodup
import PinTable.Proofs.Reading.Words

set_option autoImplicit false

namespace PinTable

theorem natText_inj {first second : Nat} (same : natText first = natText second) :
    first = second := by
  have digits := congrArg String.toList same
  rw [natText, natText, String.toList_ofList, String.toList_ofList] at digits
  rw [← decimalValue_decimalDigits first, digits, decimalValue_decimalDigits]

theorem natText_isDigit (n : Nat) (c : Char) (member : c ∈ (natText n).toList) :
    c.isDigit = true := by
  rw [natText, String.toList_ofList] at member
  exact decimalDigits_isDigit n c member

theorem natText_ne_minus (first second : Nat) : natText first ≠ "-" ++ natText second := by
  intro same
  have member : '-' ∈ (natText first).toList := by
    rw [same, String.toList_append]
    exact List.mem_append_left _ (by decide)
  cases natText_isDigit first '-' member

theorem intText_inj {first second : Int} (same : intText first = intText second) :
    first = second := by
  unfold intText at same
  split at same <;> split at same
  · have digits := natText_inj ((String.append_right_inj "-").1 same)
    omega
  · exact absurd same.symm (natText_ne_minus _ _)
  · exact absurd same (natText_ne_minus _ _)
  · have digits := natText_inj same
    omega

theorem not_mem_intText (n : Int) (c : Char) (plain : c.isDigit = false) (sign : c ≠ '-') :
    c ∉ (intText n).toList := by
  intro member
  unfold intText at member
  split at member
  · rw [String.toList_append, List.mem_append] at member
    rcases member with minus | digit
    · exact sign (List.mem_singleton.1 minus)
    · rw [natText_isDigit _ c digit] at plain
      cases plain
  · rw [natText_isDigit _ c member] at plain
    cases plain

/-- Texts that are split where a character of a sort first occurs, or at the end if none does, are
equal only if their parts are. -/
theorem eq_of_split_before (stops : Char → Bool) (first second one other : List Char)
    (free : ∀ c ∈ first, stops c = false) (alsoFree : ∀ c ∈ second, stops c = false)
    (stopped : ∀ c ∈ one.head?, stops c = true) (alsoStopped : ∀ c ∈ other.head?, stops c = true)
    (same : first ++ one = second ++ other) : first = second ∧ one = other := by
  have front : ∀ text rest : List Char, (∀ c ∈ text, stops c = false) →
      (∀ c ∈ rest.head?, stops c = true) → (text ++ rest).takeWhile (!stops ·) = text := by
    intro text rest free stopped
    have goesOn : ∀ c ∈ text, (!stops c) = true := by simpa using free
    rw [List.takeWhile_append_of_pos goesOn]
    cases rest with
    | nil => exact List.append_nil text
    | cons c rest => rw [List.takeWhile_cons_of_neg (by simp [stopped c rfl]), List.append_nil]
  have fronts : first = second := by
    rw [← front first one free stopped, same, front second other alsoFree alsoStopped]
  subst fronts
  exact ⟨rfl, List.append_cancel_left same⟩

/-- Texts that are split where a character first occurs are equal only if their parts are. -/
theorem eq_of_split_first (separator : Char) (first second one other : List Char)
    (free : separator ∉ first) (alsoFree : separator ∉ second)
    (same : first ++ separator :: one = second ++ separator :: other) :
    first = second ∧ one = other := by
  have others : ∀ text : List Char, separator ∉ text → ∀ c ∈ text, (c == separator) = false := by
    intro text free c member
    rw [beq_eq_false_iff_ne]
    rintro rfl
    exact free member
  obtain ⟨fronts, rests⟩ := eq_of_split_before (· == separator) first second _ _ (others _ free)
    (others _ alsoFree) (by simp) (by simp) same
  exact ⟨fronts, List.tail_eq_of_cons_eq rests⟩

/-- Texts that are split where a character last occurs are equal only if their parts are. -/
theorem eq_of_split_last (separator : Char) (first second one other : List Char)
    (free : separator ∉ one) (alsoFree : separator ∉ other)
    (same : first ++ separator :: one = second ++ separator :: other) :
    first = second ∧ one = other := by
  have backward : one.reverse ++ separator :: first.reverse =
      other.reverse ++ separator :: second.reverse := by
    have turned := congrArg List.reverse same
    simpa using turned
  obtain ⟨ends, fronts⟩ := eq_of_split_first separator _ _ _ _ (by rwa [List.mem_reverse])
    (by rwa [List.mem_reverse]) backward
  exact ⟨List.reverse_inj.1 fronts, List.reverse_inj.1 ends⟩

theorem Parameter.symbol_inj {one other : Parameter} (same : one.symbol = other.symbol) :
    one = other := by
  have distinct : (all.map symbol).Nodup := by decide +kernel
  exact List.inj_on_of_nodup_map distinct (mem_all one) (mem_all other) same

namespace PinKind

/-- The name of no kind ends in that of another behind an underscore, in a bus symbol. -/
theorem eq_of_suffix : ∀ one ∈ all, ∀ other ∈ all,
    ("_bus_" ++ one.name).toList <:+ ("_bus_" ++ other.name).toList → one = other := by
  decide

theorem name_inj {one other : PinKind} (same : one.name = other.name) : one = other := by
  have found := congrArg ofName? same
  rwa [ofName?_name, ofName?_name, Option.some_inj] at found

end PinKind

namespace BusId

/-- Buses have different symbols, whatever their base names are. -/
theorem symbol_inj {first second : BusId} (same : first.symbol = second.symbol) :
    first = second := by
  obtain ⟨base, kind, clock⟩ := first
  obtain ⟨base', kind', clock'⟩ := second
  have text : ∀ id : BusId, id.symbol.toList =
      (id.base.toList ++ ("_bus_" ++ id.kind.name).toList) ++ '_' :: (intText id.clock).toList := by
    intro id
    simp [symbol, String.toList_append]
  have listed := congrArg String.toList same
  rw [text, text] at listed
  -- The clock stands behind the last underscore.
  have free : ∀ n, '_' ∉ (intText n).toList := fun n => not_mem_intText n '_' rfl (by decide)
  obtain ⟨front, ending⟩ := eq_of_split_last '_' _ _ _ _ (free _) (free _) listed
  have clocks : clock = clock' := intText_inj (String.toList_inj.1 ending)
  have suffix : ("_bus_" ++ kind.name).toList <:+
      base'.toList ++ ("_bus_" ++ kind'.name).toList := ⟨base.toList, front⟩
  have kinds : kind = kind' := by
    rcases List.suffix_or_suffix_of_suffix suffix (List.suffix_append _ _) with shorter | longer
    · exact PinKind.eq_of_suffix _ (PinKind.mem_all _) _ (PinKind.mem_all _) shorter
    · exact (PinKind.eq_of_suffix _ (PinKind.mem_all _) _ (PinKind.mem_all _) longer).symm
  subst clocks kinds
  have bases : base = base' := String.toList_inj.1 (List.append_cancel_right front)
  rw [bases]

end BusId

namespace QualifiedPin

/-- Pins of base names without dots have different members. -/
theorem member_inj {first second : QualifiedPin} (plain : '.' ∉ first.base.toList)
    (alsoPlain : '.' ∉ second.base.toList) (same : first.member = second.member) :
    first = second := by
  obtain ⟨base, kind, name⟩ := first
  obtain ⟨base', kind', name'⟩ := second
  have text : ∀ pin : QualifiedPin, pin.member.toList =
      pin.base.toList ++ '.' :: (pin.kind.name.toList ++ '.' :: pin.name.toList) := by
    intro pin
    simp [member, String.toList_append]
  have free : ∀ kind : PinKind, '.' ∉ kind.name.toList := by
    intro kind
    cases kind <;> decide
  have listed := congrArg String.toList same
  rw [text, text] at listed
  obtain ⟨bases, members⟩ := eq_of_split_first '.' _ _ _ _ plain alsoPlain listed
  obtain ⟨kinds, names⟩ := eq_of_split_first '.' _ _ _ _ (free _) (free _) members
  have sameKind : kind = kind' := PinKind.name_inj (String.toList_inj.1 kinds)
  have sameBase : base = base' := String.toList_inj.1 bases
  have sameName : name = name' := String.toList_inj.1 names
  rw [sameBase, sameKind, sameName]

end QualifiedPin

end PinTable

import PinTable.Location
import PinTable.Proofs.Symbol

set_option autoImplicit false

namespace PinTable

namespace Step

/-- The characters that begin a step behind another. -/
def isOpening (c : Char) : Bool := c == '.' || c == '['

/-- A step whose key is filled and has no character that begins another step. -/
def Plain : Step → Prop
  | key name => name ≠ "" ∧ '.' ∉ name.toList ∧ '[' ∉ name.toList
  | index _ => True

instance : DecidablePred Plain
  | key name => inferInstanceAs (Decidable (name ≠ "" ∧ '.' ∉ name.toList ∧ '[' ∉ name.toList))
  | index _ => inferInstanceAs (Decidable True)

theorem Plain.isOpening_eq_false {name : String} (plain : (key name).Plain) (c : Char)
    (member : c ∈ name.toList) : isOpening c = false := by
  simp only [isOpening, Bool.or_eq_false_iff, beq_eq_false_iff_ne]
  constructor
  · rintro rfl
    exact plain.2.1 member
  · rintro rfl
    exact plain.2.2 member

theorem toList_text_key (name : String) : (key name).text.toList = '.' :: name.toList := by
  rw [text, String.toList_append]
  rfl

theorem toList_text_index (position : Nat) :
    (index position).text.toList = '[' :: ((natText position).toList ++ [']']) := by
  simp [text, String.toList_append]

theorem exists_head_text (step : Step) :
    ∃ c rest, step.text.toList = c :: rest ∧ isOpening c = true := by
  cases step with
  | key name => exact ⟨'.', _, toList_text_key name, rfl⟩
  | index position => exact ⟨'[', _, toList_text_index position, rfl⟩

/-- The steps of a path, each written as behind another. -/
def texts (steps : List Step) : List Char := steps.flatMap fun step => step.text.toList

theorem texts_cons (step : Step) (rest : List Step) :
    texts (step :: rest) = step.text.toList ++ texts rest := List.flatMap_cons

theorem texts_cons_ne_nil (step : Step) (rest : List Step) : texts (step :: rest) ≠ [] := by
  obtain ⟨c, others, begins, -⟩ := step.exists_head_text
  rw [texts_cons, begins]
  exact List.cons_ne_nil c _

theorem isOpening_head_texts (steps : List Step) :
    ∀ c ∈ (texts steps).head?, isOpening c = true := by
  cases steps with
  | nil => simp [texts]
  | cons step rest =>
      obtain ⟨c, others, begins, opens⟩ := step.exists_head_text
      rw [texts_cons, begins]
      simpa using opens

/-- A step is told by the front of a text, and so is where it ends. -/
theorem text_append_inj {first second : Step} (plain : first.Plain) (alsoPlain : second.Plain)
    {one other : List Char} (ends : ∀ c ∈ one.head?, isOpening c = true)
    (alsoEnds : ∀ c ∈ other.head?, isOpening c = true)
    (same : first.text.toList ++ one = second.text.toList ++ other) :
    first = second ∧ one = other := by
  -- Steps of two sorts begin with two characters, a point and a bracket.
  cases first with
  | key name =>
      cases second with
      | key name' =>
          rw [toList_text_key, toList_text_key] at same
          have behind := (List.cons.inj same).2
          obtain ⟨names, rests⟩ := eq_of_split_before isOpening _ _ _ _ plain.isOpening_eq_false
            alsoPlain.isOpening_eq_false ends alsoEnds behind
          exact ⟨congrArg key (String.toList_inj.1 names), rests⟩
      | index position =>
          rw [toList_text_key, toList_text_index] at same
          exact absurd (List.cons.inj same).1 (by decide)
  | index position =>
      cases second with
      | key name =>
          rw [toList_text_key, toList_text_index] at same
          exact absurd (List.cons.inj same).1 (by decide)
      | index position' =>
          rw [toList_text_index, toList_text_index, List.cons_append, List.cons_append,
            List.append_assoc, List.append_assoc] at same
          have free : ∀ n, ']' ∉ (natText n).toList := by
            intro n member
            cases natText_isDigit n ']' member
          have behind := (List.cons.inj same).2
          obtain ⟨positions, rests⟩ := eq_of_split_first ']' _ _ _ _ (free _) (free _) behind
          exact ⟨congrArg index (natText_inj (String.toList_inj.1 positions)), rests⟩

theorem texts_inj {first second : List Step} (plain : ∀ step ∈ first, step.Plain)
    (alsoPlain : ∀ step ∈ second, step.Plain) (same : texts first = texts second) :
    first = second := by
  induction first generalizing second with
  | nil =>
      cases second with
      | nil => rfl
      | cons step rest => exact absurd same.symm (texts_cons_ne_nil step rest)
  | cons step rest ih =>
      cases second with
      | nil => exact absurd same (texts_cons_ne_nil step rest)
      | cons step' rest' =>
          rw [texts_cons, texts_cons] at same
          rw [List.forall_mem_cons] at plain alsoPlain
          obtain ⟨rfl, rests⟩ := text_append_inj plain.1 alsoPlain.1 (isOpening_head_texts rest)
            (isOpening_head_texts rest') same
          rw [ih plain.2 alsoPlain.2 rests]

/-- Puts the point back that a key goes without in the first step. -/
def pointed : List Char → List Char
  | '[' :: rest => '[' :: rest
  | text => '.' :: text

theorem pointed_pathText {steps : List Step} (filled : steps ≠ [])
    (plain : ∀ step ∈ steps, step.Plain) : pointed (pathText steps).toList = texts steps := by
  obtain ⟨first, rest, rfl⟩ := List.exists_cons_of_ne_nil filled
  have joined : (String.join (rest.map text)).toList = texts rest := by
    simp [texts, List.flatMap_map]
  rw [pathText, String.toList_append, joined, texts_cons]
  cases first with
  | index position =>
      have same : (index position).firstText = (index position).text := rfl
      rw [same, toList_text_index]
      rfl
  | key name =>
      have filledName : name.toList ≠ [] := by
        rw [ne_eq, String.toList_eq_nil_iff]
        exact (plain _ List.mem_cons_self).1
      obtain ⟨c, others, listed⟩ := List.exists_cons_of_ne_nil filledName
      have noBracket : c ≠ '[' := by
        rintro rfl
        exact (plain _ List.mem_cons_self).2.2 (listed ▸ List.mem_cons_self)
      rw [toList_text_key, firstText, listed]
      simp [pointed, noBracket]

end Step

namespace Location

def enter (place : Location) : Step → Location
  | .key name => place.key name
  | .index position => place.index position

/-- The place that steps lead to from another, one after the other. -/
def descend (place : Location) (steps : List Step) : Location := steps.foldl enter place

theorem enter_eq (place : Location) (step : Step) :
    place.enter step = ⟨place.document, place.steps ++ [step]⟩ := by
  cases step <;> rfl

theorem descend_eq (place : Location) (steps : List Step) :
    place.descend steps = ⟨place.document, place.steps ++ steps⟩ := by
  induction steps generalizing place with
  | nil => rw [List.append_nil, descend, List.foldl_nil]
  | cons step rest ih =>
      rw [descend, List.foldl_cons, ← descend, ih, enter_eq, List.append_assoc]
      rfl

theorem text_descend_root (document : String) {steps : List Step} (filled : steps ≠ []) :
    ((root document).descend steps).text = document ++ (":" ++ Step.pathText steps) := by
  obtain ⟨first, rest, rfl⟩ := List.exists_cons_of_ne_nil filled
  rw [descend_eq, ← String.append_assoc]
  rfl

/-- The root has no colon behind its document, so its text is shorter than that of a place in it. -/
theorem text_descend_root_ne (document : String) {steps : List Step} (filled : steps ≠ []) :
    ((root document).descend steps).text ≠ (root document).text := by
  rw [text_descend_root document filled]
  intro same
  have listed := congrArg String.toList same
  rw [String.toList_append] at listed
  have nothing := List.append_right_eq_self.1 listed
  rw [String.toList_append] at nothing
  exact absurd nothing (List.append_ne_nil_of_left_ne_nil (by decide) _)

/-- Plain steps from the root of a document are the same if the texts of the places are. -/
theorem steps_eq_of_text_eq (document : String) {first second : List Step}
    (plain : ∀ step ∈ first, step.Plain) (alsoPlain : ∀ step ∈ second, step.Plain)
    (same : ((root document).descend first).text = ((root document).descend second).text) :
    first = second := by
  by_cases atRoot : first = []
  · subst atRoot
    by_contra elsewhere
    exact text_descend_root_ne document (Ne.symm elsewhere) same.symm
  by_cases alsoAtRoot : second = []
  · subst alsoAtRoot
    exact absurd same (text_descend_root_ne document atRoot)
  rw [text_descend_root document atRoot, text_descend_root document alsoAtRoot,
    String.append_right_inj, String.append_right_inj] at same
  apply Step.texts_inj plain alsoPlain
  rw [← Step.pointed_pathText atRoot plain, ← Step.pointed_pathText alsoAtRoot alsoPlain, same]

/-- A key with a point has the text of two keys. -/
example : ((root "io.json").descend [.key "a.b"]).text =
    ((root "io.json").descend [.key "a", .key "b"]).text := by
  decide

/-- A place that plain steps lead to from the root of a document. -/
def PlainIn (document : String) (place : Location) : Prop :=
  ∃ steps, (∀ step ∈ steps, step.Plain) ∧ (root document).descend steps = place

namespace PlainIn

variable {document : String} {place : Location}

theorem root (document : String) : (Location.root document).PlainIn document :=
  ⟨[], List.forall_mem_nil _, rfl⟩

theorem enter (plain : place.PlainIn document) {step : Step} (alsoPlain : step.Plain) :
    (place.enter step).PlainIn document := by
  obtain ⟨steps, each, rfl⟩ := plain
  have both := List.forall_mem_append.2 ⟨each, List.forall_mem_singleton.2 alsoPlain⟩
  refine ⟨steps ++ [step], both, ?_⟩
  rw [descend, List.foldl_append, List.foldl_cons, List.foldl_nil, descend]

theorem key (plain : place.PlainIn document) {name : String} (alsoPlain : (Step.key name).Plain) :
    (place.key name).PlainIn document :=
  plain.enter alsoPlain

theorem index (plain : place.PlainIn document) (position : Nat) :
    (place.index position).PlainIn document := by
  have alsoPlain : (Step.index position).Plain := trivial
  exact plain.enter alsoPlain

end PlainIn

end Location

end PinTable

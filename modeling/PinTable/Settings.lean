import PinTable.Event
import PinTable.IntegerLike
import PinTable.Manifest.Basic
import PinTable.Parameter

set_option autoImplicit false

namespace PinTable

abbrev Setting : Type := Parameter × Int

/-- The firmware counts speed in units that are this many times those of manifests. -/
def speedUnit : Int := 100

namespace Parameter

/-- The value of a parameter for the integer of its attribute: a speed is rounded down to the unit
of the firmware. -/
def scale (parameter : Parameter) (value : Int) : Int :=
  if parameter = speed then value / speedUnit else value

theorem scale_of_ne_speed (parameter : Parameter) (value : Int) (other : parameter ≠ speed) :
    parameter.scale value = value := by
  simp only [scale, other, if_false]

end Parameter

namespace Attribute

/-- The setting that an attribute of a pin stands for, or what is wrong with it. -/
def setting (pin : String) (entry : Attribute) : Except Warning Setting :=
  match Parameter.ofKey? entry.key with
  | none => .error (.unknownAttribute pin entry.key)
  | some parameter =>
      match entry.value.integerLike? with
      | none => .error (.badValue pin entry.key)
      | some value => .ok (parameter, parameter.scale value)

end Attribute

namespace Pin

def setting? (pin : Pin) (entry : Attribute) : Option Setting :=
  match entry.setting pin.name with
  | .ok setting => some setting
  | .error _ => none

/-- The warning that an attribute deserves, if any. -/
def complaint? (pin : Pin) (entry : Attribute) : Option Warning :=
  match entry.setting pin.name with
  | .ok _ => none
  | .error warning => some warning

/-- Each attribute gives either a setting or a warning. -/
theorem setting?_isSome_eq_complaint?_isNone (pin : Pin) (entry : Attribute) :
    (pin.setting? entry).isSome = (pin.complaint? entry).isNone := by
  unfold setting? complaint?
  cases entry.setting pin.name <;> rfl

/-- The warnings about the attributes of a pin, in order. -/
def warnings (pin : Pin) : List Warning := pin.attributes.filterMap pin.complaint?

end Pin

structure Settings where
  list : List Setting
  deriving DecidableEq, Repr

namespace Settings

/-- The pin interrupts, whatever the value. -/
def interrupts (settings : Settings) : Bool :=
  settings.list.any fun setting => setting.1 == .interrupt

def ofAttributes (pin : Pin) : Settings := ⟨pin.attributes.filterMap pin.setting?⟩

/-- The settings of a pin. A timer that does not say whether it interrupts does. -/
def ofPin (kind : PinKind) (pin : Pin) : Settings :=
  let given := ofAttributes pin
  if kind = .timers ∧ given.interrupts = false then ⟨given.list ++ [(.interrupt, 1)]⟩ else given

/-- A timer always interrupts. -/
theorem interrupts_ofPin_timers (pin : Pin) : (ofPin .timers pin).interrupts = true := by
  unfold ofPin
  by_cases silent : (ofAttributes pin).interrupts = false
  · rw [if_pos ⟨rfl, silent⟩, interrupts, List.any_append]
    simp only [List.any_cons, beq_self_eq_true, Bool.true_or, Bool.or_true]
  · rw [if_neg fun both => silent both.2]
    exact Bool.of_not_eq_false silent

/-- A place of the array that the firmware fills in. -/
def reservedEntry : String := "PIN_RV"

def entries (settings : Settings) : List String :=
  [reservedEntry, reservedEntry] ++
    settings.list.flatMap fun setting => [setting.1.symbol, intText setting.2]

/-- The initializer of the array in C. -/
def text (settings : Settings) : String := String.intercalate ", " settings.entries

theorem length_entries (settings : Settings) :
    settings.entries.length = 2 + 2 * settings.list.length := by
  simp only [entries, List.length_append, List.length_cons, List.length_nil, List.length_flatMap]
  induction settings.list with
  | nil => rfl
  | cons setting rest ih =>
      simp only [List.map_cons, List.sum_cons, List.length_cons]
      omega

end Settings

end PinTable

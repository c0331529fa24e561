import PinTable.Proofs.Json.Number
import PinTable.Proofs.Settings

set_option autoImplicit false

namespace PinTable

namespace Parameter

theorem symbol_eq_iff (one other : Parameter) : one.symbol = other.symbol ↔ one = other :=
  ⟨symbol_inj, congrArg symbol⟩

theorem scale_speed (n : Int) : speed.scale n = n / 100 := rfl

end Parameter

namespace Number

/-- The number as a speed, in the unit of the firmware. -/
def speed (x : Number) : Int := Parameter.speed.scale x.toInt64

variable {x y : Number}

theorem speed_mono (le : x.value ≤ y.value) : x.speed ≤ y.speed := by
  have counted := toInt64_mono le
  rw [speed, speed, Parameter.scale_speed, Parameter.scale_speed]
  exact Int.ediv_le_ediv (by decide) counted

theorem speed_eq_iff (x : Number) (q : Int) :
    x.speed = q ↔ 100 * q ≤ x.toInt64 ∧ x.toInt64 < 100 * q + 100 := by
  rw [speed, Parameter.scale_speed]
  omega

theorem speed_mem (x : Number) : minInt64 ≤ x.speed ∧ x.speed ≤ maxInt64 := by
  have counts := x.countsAs_toInt64
  have lower := counts.lower
  have upper := counts.upper
  rw [speed, Parameter.scale_speed]
  simp only [minInt64, maxInt64] at *
  omega

end Number

/-- What an entry holds, if it stands under a key. -/
def under? {κ α : Type} [DecidableEq κ] (key : κ) (entry : κ × α) : Option α :=
  if entry.1 = key then some entry.2 else none

theorem under?_eq_some_iff {κ α : Type} [DecidableEq κ] (key : κ) (entry : κ × α) (value : α) :
    under? key entry = some value ↔ entry = (key, value) := by
  obtain ⟨known, held⟩ := entry
  by_cases same : known = key <;> simp [under?, same]

/-- What the attributes of a pin say of its speed. -/
def Pin.speedValues (pin : Pin) : List Json :=
  pin.attributes.filterMap fun entry => under? "speed" (entry.key, entry.value)

/-- The speeds that the entries of an array show. -/
def Reading.speedsIn? (text : String) : Option (List Int) :=
  (settingsIn? text).map (List.filterMap (under? "PIN_SPEED"))

/-- A setting is shown under the symbol of speed just if it sets the speed. -/
theorem under?_shown (setting : Setting) :
    under? "PIN_SPEED" (setting.1.symbol, setting.2) = under? Parameter.speed setting := by
  have symbol : "PIN_SPEED" = Parameter.speed.symbol := rfl
  simp only [under?, symbol, Parameter.symbol_eq_iff]

/-- An attribute gives a speed just if it has the key of speed and a value for an integer. -/
theorem Pin.bind_setting?_under? (pin : Pin) (entry : Attribute) :
    (pin.setting? entry).bind (under? .speed) =
      ((under? "speed" (entry.key, entry.value)).bind Json.integerLike?).map
        Parameter.speed.scale := by
  ext value
  simp only [Option.bind_eq_some_iff, Option.map_eq_some_iff, Prod.exists, under?_eq_some_iff,
    Prod.mk.injEq, pin.setting?_eq_some_iff]
  constructor
  · rintro ⟨_, _, ⟨key, number, counts, scaled⟩, rfl, rfl⟩
    exact ⟨number, ⟨entry.value, ⟨key.symm, rfl⟩, counts⟩, scaled⟩
  · rintro ⟨number, ⟨_, ⟨key, rfl⟩, counts⟩, scaled⟩
    exact ⟨.speed, value, ⟨key.symm, number, counts, scaled⟩, rfl, rfl⟩

theorem Settings.filterMap_under?_ofPin (kind : PinKind) (pin : Pin) :
    (ofPin kind pin).list.filterMap (under? .speed) =
      (pin.speedValues.filterMap Json.integerLike?).map Parameter.speed.scale := by
  have silent : (implied kind pin).filterMap (under? .speed) = [] := by
    unfold implied
    split <;> rfl
  rw [list_ofPin, List.filterMap_append, silent, List.append_nil, ofAttributes, Pin.speedValues,
    List.filterMap_filterMap, List.filterMap_filterMap, List.map_filterMap]
  exact congrArg (List.filterMap · pin.attributes) (funext pin.bind_setting?_under?)

/-- The array shows each speed that stands for an integer, rounded down, and no other. -/
theorem Reading.speedsIn?_ofPin (kind : PinKind) (pin : Pin) :
    speedsIn? (Settings.ofPin kind pin).text =
      some ((pin.speedValues.filterMap Json.integerLike?).map Parameter.speed.scale) := by
  rw [speedsIn?, settingsIn?_text, Option.map_some, List.filterMap_map,
    ← Settings.filterMap_under?_ofPin kind pin]
  exact congrArg (fun speed => some (List.filterMap speed _)) (funext under?_shown)

open Reading in
/-- A number counts as an integer that is less than one away, and as an end of the signed range
beyond it, whether it is held as an integer or as a real; both this integer and the speed that the
array shows keep the order of numbers. -/
theorem number_counts_as_integer (x : Number) :
    (Json.number x).integerLike? = some x.toInt64 ∧
    x.CountsAs x.toInt64 ∧
    (∀ n : Int, x.value = n → minInt64 ≤ n → n ≤ maxInt64 → x.toInt64 = n) ∧
    (∀ (n : Nat) (lower : minInt64 ≤ n) (upper : n ≤ (maxNat64 : Int)), maxInt64 < n →
      x = .integer n lower upper →
        ∃ nearest, Magnitude.ofNat? n = some nearest ∧
          x.toInt64 = (Number.real ⟨false, nearest⟩).toInt64) ∧
    (∀ y : Number, x.value ≤ y.value → x.toInt64 ≤ y.toInt64 ∧ x.speed ≤ y.speed) ∧
    (∀ (kind : PinKind) (pin : Pin), pin.speedValues = [.number x] →
      speedsIn? (Settings.ofPin kind pin).text = some [x.speed]) ∧
    (∀ q, x.speed = q ↔ 100 * q ≤ x.toInt64 ∧ x.toInt64 < 100 * q + 100) ∧
    minInt64 ≤ x.speed ∧ x.speed ≤ maxInt64 := by
  refine ⟨rfl, x.countsAs_toInt64, ?whole, ?large, ?order, ?shown, x.speed_eq_iff, x.speed_mem⟩
  case whole =>
    intro n same lower upper
    rw [x.toInt64_eq, same, towardZero_intCast, saturate_of_mem n lower upper]
  case large =>
    rintro n lower upper beyond rfl
    exact Number.toInt64_nearest_real n lower upper beyond
  case order => exact fun y le => ⟨Number.toInt64_mono le, Number.speed_mono le⟩
  case shown =>
    intro kind pin only
    rw [speedsIn?_ofPin, only]
    rfl

/-- The least number as a speed, against the real one half, and the greatest number, which only an
unsigned word holds. -/
theorem extreme_numbers_count_as_integers :
    let least := Number.integer minInt64 (Int.le_refl _) (by decide)
    let greatest := Number.integer maxNat64 (by decide) (Int.le_refl _)
    let half := Number.real ⟨false, 1, -1⟩
    let pin : Pin :=
      ⟨"fan", 0, 0, none, none, none, [⟨"speed", .number least⟩], .root "io.json"⟩
    least.toInt64 = minInt64 ∧ least.toInt64 ≤ half.toInt64 ∧
    Reading.speedsIn? (Settings.ofPin .pwm pin).text = some [-92233720368547759] ∧
    ∃ nearest, Magnitude.ofNat? maxNat64 = some nearest ∧
      greatest.toInt64 = (Number.real ⟨false, nearest⟩).toInt64 := by
  intro least greatest half pin
  obtain ⟨-, -, whole, -, order, shown, -⟩ := number_counts_as_integer least
  obtain ⟨-, -, -, large, -⟩ := number_counts_as_integer greatest
  have below : least.value ≤ half.value := by
    simp only [least, half, Number.value, Binary64.value, Magnitude.value, minInt64]
    norm_num
  exact ⟨whole minInt64 rfl (Int.le_refl _) (by decide), (order half below).1, shown .pwm pin rfl,
    large maxNat64 _ _ (by decide) rfl⟩

end PinTable

import Mathlib.Data.Rat.Floor
import Mathlib.Tactic.Linarith
import PinTable.Json.Number

set_option autoImplicit false

namespace PinTable

/-- The number without its fraction. -/
def towardZero (x : ℚ) : Int := if x < 0 then ⌈x⌉ else ⌊x⌋

theorem towardZero_of_nonneg {x : ℚ} (natural : 0 ≤ x) : towardZero x = ⌊x⌋ :=
  if_neg (not_lt.2 natural)

theorem towardZero_of_nonpos {x : ℚ} (negative : x ≤ 0) : towardZero x = ⌈x⌉ := by
  rcases negative.lt_or_eq with below | rfl
  · exact if_pos below
  · rfl

theorem towardZero_intCast (n : Int) : towardZero n = n := by
  unfold towardZero
  split
  · exact Int.ceil_intCast n
  · exact Int.floor_intCast n

theorem towardZero_mono {x y : ℚ} (le : x ≤ y) : towardZero x ≤ towardZero y := by
  rcases le_total 0 x with natural | negative
  · rw [towardZero_of_nonneg natural, towardZero_of_nonneg (natural.trans le)]
    exact Int.floor_mono le
  rcases le_total y 0 with alsoNegative | natural
  · rw [towardZero_of_nonpos negative, towardZero_of_nonpos alsoNegative]
    exact Int.ceil_mono le
  · rw [towardZero_of_nonpos negative, towardZero_of_nonneg natural]
    exact (Int.ceil_le.2 (by simpa using negative)).trans (Int.floor_nonneg.2 natural)

theorem abs_towardZero_sub_lt (x : ℚ) : |(towardZero x : ℚ) - x| < 1 := by
  rw [abs_lt]
  rcases le_total 0 x with natural | negative
  · rw [towardZero_of_nonneg natural]
    constructor <;> linarith [Int.floor_le x, Int.lt_floor_add_one x]
  · rw [towardZero_of_nonpos negative]
    constructor <;> linarith [Int.le_ceil x, Int.ceil_lt_add_one x]

theorem abs_towardZero_le (x : ℚ) : |(towardZero x : ℚ)| ≤ |x| := by
  rcases le_total 0 x with natural | negative
  · have floor : (0 : ℚ) ≤ ⌊x⌋ := Int.cast_nonneg (Int.floor_nonneg.2 natural)
    rw [towardZero_of_nonneg natural, abs_of_nonneg floor, abs_of_nonneg natural]
    exact Int.floor_le x
  · have ceil : (⌈x⌉ : ℚ) ≤ 0 := Int.cast_nonpos.2 (Int.ceil_le.2 (by simpa using negative))
    rw [towardZero_of_nonpos negative, abs_of_nonpos ceil, abs_of_nonpos negative]
    exact neg_le_neg (Int.le_ceil x)

namespace Magnitude

def value (x : Magnitude) : ℚ := x.significand * 2 ^ x.exponent

theorem value_nonneg (x : Magnitude) : 0 ≤ x.value :=
  mul_nonneg (Nat.cast_nonneg _) (zpow_nonneg (by norm_num) _)

theorem floor_eq (x : Magnitude) : (x.floor : Int) = ⌊x.value⌋ := by
  -- One of the two powers is that of zero.
  have fraction : x.value =
      ((x.significand * 2 ^ x.exponent.toNat : Nat) : ℚ) / ((2 ^ (-x.exponent).toNat : Nat) : ℚ) := by
    rcases le_total 0 x.exponent with natural | negative
    · have whole : x.exponent = (x.exponent.toNat : Int) := (Int.toNat_of_nonneg natural).symm
      have none : (-x.exponent).toNat = 0 := by omega
      rw [value, whole, zpow_natCast, ← whole, none]
      simp
    · have part : x.exponent = -((-x.exponent).toNat : Int) := by omega
      have none : x.exponent.toNat = 0 := by omega
      rw [value, none, part, zpow_neg, zpow_natCast, ← part]
      simp [div_eq_mul_inv]
  rw [fraction, Rat.floor_natCast_div_natCast]
  rfl

end Magnitude

namespace Binary64

def value (x : Binary64) : ℚ := if x.negative then -x.magnitude.value else x.magnitude.value

theorem truncate_eq (x : Binary64) : x.truncate = towardZero x.value := by
  have natural := x.magnitude.value_nonneg
  unfold truncate value
  split
  · rw [towardZero_of_nonpos (neg_nonpos.2 natural), Int.ceil_neg, x.magnitude.floor_eq]
  · rw [towardZero_of_nonneg natural, x.magnitude.floor_eq]

end Binary64

theorem saturate_mono {m n : Int} (le : m ≤ n) : saturate m ≤ saturate n := by
  simp only [saturate]
  omega

theorem saturate_of_le {n : Int} (above : maxInt64 ≤ n) : saturate n = maxInt64 := by
  simp only [saturate, minInt64, maxInt64] at *
  omega

theorem saturate_of_ge {n : Int} (below : n ≤ minInt64) : saturate n = minInt64 := by
  simp only [saturate, minInt64, maxInt64] at *
  omega

namespace Number

/-- The number that is held, exactly. -/
def value : Number → ℚ
  | integer n _ _ => n
  | real x => x.value

theorem toInt64_eq (x : Number) : x.toInt64 = saturate (towardZero x.value) := by
  cases x with
  | integer n lower upper => rw [value, towardZero_intCast, toInt64]
  | real x => rw [value, ← x.truncate_eq, toInt64]

theorem toInt64_mono {x y : Number} (le : x.value ≤ y.value) : x.toInt64 ≤ y.toInt64 := by
  rw [toInt64_eq, toInt64_eq]
  exact saturate_mono (towardZero_mono le)

/-- The integer of the signed range that a number counts as: less than one away and no larger in
size within the range, and the nearer end of the range beyond it. -/
structure CountsAs (x : Number) (n : Int) : Prop where
  lower : minInt64 ≤ n
  upper : n ≤ maxInt64
  near : minInt64 ≤ x.value → x.value ≤ maxInt64 → |(n : ℚ) - x.value| < 1 ∧ |(n : ℚ)| ≤ |x.value|
  above : maxInt64 < x.value → n = maxInt64
  below : x.value < minInt64 → n = minInt64

theorem countsAs_toInt64 (x : Number) : x.CountsAs x.toInt64 := by
  rw [toInt64_eq]
  constructor
  case lower => exact minInt64_le_saturate _
  case upper => exact saturate_le_maxInt64 _
  case near =>
    intro lower upper
    have least := towardZero_mono lower
    have greatest := towardZero_mono upper
    rw [towardZero_intCast] at least greatest
    rw [saturate_of_mem _ least greatest]
    exact ⟨abs_towardZero_sub_lt _, abs_towardZero_le _⟩
  case above =>
    intro above
    have least := towardZero_mono above.le
    rw [towardZero_intCast] at least
    exact saturate_of_le least
  case below =>
    intro below
    have greatest := towardZero_mono below.le
    rw [towardZero_intCast] at greatest
    exact saturate_of_ge greatest

end Number

theorem div_le_roundDiv (a b : Nat) : a / b ≤ roundDiv a b := by
  unfold roundDiv
  dsimp only
  split <;> omega

/-- An integer of 64 bits, of which the first is set, has a nearest real, which is as large. -/
theorem Magnitude.ofNat?_of_large (n : Nat) (large : 2 ^ 63 ≤ n) (fits : n < 2 ^ 64) :
    ∃ x, ofNat? n = some x ∧ 2 ^ 63 ≤ x.floor := by
  have nonzero : n ≠ 0 := by omega
  have bits : n.log2 = 63 := (Nat.log2_eq_iff nonzero).2 ⟨large, fits⟩
  have rounded := div_le_roundDiv n (2 ^ 11)
  refine ⟨⟨roundDiv n (2 ^ 11), 11⟩, ?_, ?_⟩
  · have guess : (0 : Int) + n.log2 - Nat.log2 1 - 53 = 10 := by
      rw [bits]
      rfl
    have first : fractionAt n 1 0 10 = (n, 2 ^ 10) := by simp [fractionAt]
    have second : fractionAt n 1 0 11 = (n, 2 ^ 11) := by simp [fractionAt]
    -- The significand at the guessed exponent has one bit too many.
    have long : ¬ n / 2 ^ 10 < Nat.pow 2 53 := by
      show ¬ n / 2 ^ 10 < 2 ^ 53
      omega
    have inside : ¬ (greatestExponent < 11 ∨
        ((11 : Int) = greatestExponent ∧ Nat.pow 2 53 ≤ roundDiv n (2 ^ 11))) := by
      rintro (beyond | ⟨last, -⟩)
      · cases beyond
      · cases last
    have least : max (10 + 1 : Int) leastExponent = 11 := rfl
    simp only [ofNat?, round?, if_neg nonzero, guess, first, if_neg long, least, second,
      if_neg inside]
  · have whole : floor ⟨roundDiv n (2 ^ 11), 11⟩ = roundDiv n (2 ^ 11) * 2 ^ 11 := by
      simp [floor]
    omega

/-- An integer beyond the signed range counts as its nearest real does. -/
theorem Number.toInt64_nearest_real (n : Nat) (lower : minInt64 ≤ n) (upper : n ≤ (maxNat64 : Int))
    (beyond : maxInt64 < n) :
    ∃ x, Magnitude.ofNat? n = some x ∧
      (integer n lower upper).toInt64 = (real ⟨false, x⟩).toInt64 := by
  simp only [maxNat64, maxInt64] at upper beyond
  obtain ⟨x, nearest, large⟩ := Magnitude.ofNat?_of_large n (by omega) (by omega)
  refine ⟨x, nearest, ?_⟩
  have floor : (⟨false, x⟩ : Binary64).truncate = x.floor := rfl
  show saturate n = saturate (⟨false, x⟩ : Binary64).truncate
  rw [floor, saturate_of_le (by simp only [maxInt64]; omega),
    saturate_of_le (by simp only [maxInt64]; omega)]

end PinTable

/-
**Binary floating point.**

The result of an operation is the exact value rounded to the nearest number with a significand of
`digits` bits, to the even one of two that are equally near. `least` is the place below which no
bit is kept; that a value may be too large for the format is left out.

* `nearest` rounds to an integer and `place` is the last place a value keeps, so that `round`
  rounds at that place;
* `round_natCast` says that small natural numbers are kept, and `round_mono` that the order is.
-/

import Mathlib.Data.Int.Log
import Mathlib.Data.Rat.Floor
import Mathlib.Tactic.Linarith
import Mathlib.Tactic.Positivity
import Mathlib.Tactic.FieldSimp

set_option linter.unusedSectionVars false

namespace WaAutomation.Library.Floating

/-! ### The nearest integer -/

/-- The nearest integer, the even one of two. -/
def nearest (value : ℚ) : ℤ :=
  if Int.fract value < 1 / 2 then ⌊value⌋
  else if 1 / 2 < Int.fract value then ⌊value⌋ + 1
  else if ⌊value⌋ % 2 = 0 then ⌊value⌋
  else ⌊value⌋ + 1

theorem floor_le_nearest (value : ℚ) : ⌊value⌋ ≤ nearest value := by
  unfold nearest
  split_ifs <;> omega

theorem nearest_le_floor (value : ℚ) : nearest value ≤ ⌊value⌋ + 1 := by
  unfold nearest
  split_ifs <;> omega

@[simp] theorem nearest_intCast (number : ℤ) : nearest number = number := by
  unfold nearest
  rw [Int.fract_intCast, if_pos (by norm_num), Int.floor_intCast]

theorem nearest_mono {first second : ℚ} (le : first ≤ second) : nearest first ≤ nearest second := by
  have floors : ⌊first⌋ ≤ ⌊second⌋ := Int.floor_mono le
  rcases floors.lt_or_eq with below | same
  · have upper := nearest_le_floor first
    have lower := floor_le_nearest second
    omega
  · -- within one unit only the fractions count
    have fracts : Int.fract first ≤ Int.fract second := by
      unfold Int.fract
      rw [same]
      linarith
    unfold nearest
    rw [same]
    split_ifs <;> first | omega | linarith

/-! ### Rounding at a place -/

/-- The last place the value keeps. -/
def place (digits : ℕ) (least : ℤ) (value : ℚ) : ℤ := max (Int.log 2 |value| + 1 - digits) least

def round (digits : ℕ) (least : ℤ) (value : ℚ) : ℚ :=
  nearest (value / 2 ^ place digits least value) * 2 ^ place digits least value

/-- The format binary64 of IEEE 754. -/
def double (value : ℚ) : ℚ := round 53 (-1074) value

variable {digits : ℕ} {least : ℤ} {value bound : ℚ}

/-- The value is a multiple of the unit of a place. -/
def OnGrid (exponent : ℤ) (value : ℚ) : Prop := ∃ number : ℤ, value = number * 2 ^ exponent

theorem onGrid_pow {exponent power : ℤ} (le : exponent ≤ power) : OnGrid exponent (2 ^ power) := by
  refine ⟨2 ^ (power - exponent).toNat, ?_⟩
  have steps : ((power - exponent).toNat : ℤ) = power - exponent := Int.toNat_of_nonneg (by omega)
  push_cast
  rw [← zpow_natCast, steps, ← zpow_add₀ (by norm_num), sub_add_cancel]

theorem onGrid_natCast {exponent : ℤ} (le : exponent ≤ 0) (number : ℕ) :
    OnGrid exponent (number : ℚ) := by
  obtain ⟨unit, same⟩ := onGrid_pow le
  refine ⟨number * unit, ?_⟩
  push_cast
  rw [mul_assoc, ← same, zpow_zero, mul_one]

theorem unit_pos (exponent : ℤ) : (0 : ℚ) < 2 ^ exponent :=
  zpow_pos (by norm_num) exponent

theorem round_eq (grid : OnGrid (place digits least value) value) :
    round digits least value = value := by
  obtain ⟨number, same⟩ := grid
  have whole : value / 2 ^ place digits least value = (number : ℚ) :=
    (div_eq_iff (unit_pos _).ne').mpr same
  rw [round, whole, nearest_intCast, ← same]

theorem round_le (grid : OnGrid (place digits least value) bound) (le : value ≤ bound) :
    round digits least value ≤ bound := by
  obtain ⟨number, rfl⟩ := grid
  refine mul_le_mul_of_nonneg_right ?_ (unit_pos _).le
  have below : nearest (value / 2 ^ place digits least value) ≤ nearest (number : ℚ) :=
    nearest_mono ((div_le_iff₀ (unit_pos _)).mpr le)
  rw [nearest_intCast] at below
  exact_mod_cast below

theorem le_round (grid : OnGrid (place digits least value) bound) (le : bound ≤ value) :
    bound ≤ round digits least value := by
  obtain ⟨number, rfl⟩ := grid
  refine mul_le_mul_of_nonneg_right ?_ (unit_pos _).le
  have below : nearest (number : ℚ) ≤ nearest (value / 2 ^ place digits least value) :=
    nearest_mono ((le_div_iff₀ (unit_pos _)).mpr le)
  rw [nearest_intCast] at below
  exact_mod_cast below

/-! ### What rounding keeps -/

/-- A natural number that the significand has room for. -/
theorem round_natCast (small : least ≤ 0) {number : ℕ} (fits : number < 2 ^ digits) :
    round digits least number = number := by
  rcases Nat.eq_zero_or_pos number with rfl | positive
  · exact round_eq ⟨0, by simp⟩
  have below : Nat.log 2 number < digits := Nat.log_lt_of_lt_pow positive.ne' fits
  refine round_eq (onGrid_natCast (max_le ?_ small) number)
  rw [Nat.abs_cast, Int.log_natCast]
  omega

theorem round_nonneg (nonneg : 0 ≤ value) : 0 ≤ round digits least value :=
  le_round ⟨0, by simp⟩ nonneg

/-- **The order is kept.** -/
theorem round_mono {first second : ℚ} (some_digit : digits ≠ 0) (nonneg : 0 ≤ first)
    (le : first ≤ second) : round digits least first ≤ round digits least second := by
  rcases nonneg.eq_or_lt with rfl | positive
  · have zero : round digits least 0 = 0 := round_eq ⟨0, by simp⟩
    rw [zero]
    exact round_nonneg le
  have later : 0 < second := positive.trans_le le
  have logs : Int.log 2 |first| ≤ Int.log 2 |second| := by
    rw [abs_of_pos positive, abs_of_pos later]
    exact Int.log_mono_right positive le
  by_cases same : place digits least first = place digits least second
  · unfold round
    rw [same]
    refine mul_le_mul_of_nonneg_right ?_ (unit_pos _).le
    exact_mod_cast nearest_mono ((div_le_div_iff_of_pos_right (unit_pos _)).mpr le)
  · -- a power of two lies between the two values, on the grids of both
    have apart : Int.log 2 |first| + 1 ≤ Int.log 2 |second| ∧
        place digits least first ≤ Int.log 2 |second| ∧
        place digits least second ≤ Int.log 2 |second| := by
      unfold place at same ⊢
      omega
    obtain ⟨above, on_first, on_second⟩ := apart
    calc round digits least first ≤ 2 ^ Int.log 2 |second| := by
          refine round_le (onGrid_pow on_first) ?_
          have below := Int.lt_zpow_succ_log_self (b := 2) (by norm_num) first
          rw [abs_of_pos positive] at above
          exact below.le.trans (zpow_le_zpow_right₀ (by norm_num) above)
      _ ≤ round digits least second := by
          refine le_round (onGrid_pow on_second) ?_
          have lower := Int.zpow_log_le_self (b := 2) (by norm_num) later
          rw [abs_of_pos later]
          exact_mod_cast lower

end WaAutomation.Library.Floating

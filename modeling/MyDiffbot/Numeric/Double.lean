import Mathlib.Data.Rat.Floor
import Mathlib.Tactic.Linarith

/-!
# Doubles in exact arithmetic

A `double` is a rational number, an infinity or NaN, and arithmetic on the finite ones is exact.
Conversions to an integer type truncate towards zero. They are undefined on values whose truncation
does not fit, and this is kept visible: `Double.castTo` returns nothing there. `clampCast` maps every
value into the range first.
-/

namespace MyDiffbot.Numeric

inductive Double
  | nan
  | posInf
  | negInf
  | finite (value : ℚ)
  deriving DecidableEq, Repr

/-- The range of an integer type; zero fits into every one of them. -/
structure IntRange where
  lowest : ℤ
  max : ℤ
  lowest_le : lowest ≤ 0
  le_max : 0 ≤ max

def int32 : IntRange := ⟨-2 ^ 31, 2 ^ 31 - 1, by decide, by decide⟩

def int64 : IntRange := ⟨-2 ^ 63, 2 ^ 63 - 1, by decide, by decide⟩

def uint16 : IntRange := ⟨0, 2 ^ 16 - 1, by decide, by decide⟩

def uint32 : IntRange := ⟨0, 2 ^ 32 - 1, by decide, by decide⟩

/-- `M_PI`, as the decimal it is written as. -/
def mPi : ℚ := 3.14159265358979323846

/-- Rounding towards zero. -/
def truncate (value : ℚ) : ℤ := value.num.tdiv value.den

theorem truncate_intCast (n : ℤ) : truncate n = n := by
  simp [truncate]

theorem truncate_of_nonneg {value : ℚ} (h : 0 ≤ value) : truncate value = ⌊value⌋ := by
  rw [truncate, Rat.floor_def', Int.tdiv_eq_ediv_of_nonneg (Rat.num_nonneg.mpr h)]

theorem truncate_neg (value : ℚ) : truncate (-value) = -truncate value := by
  rw [truncate, truncate, Rat.neg_num, Rat.neg_den, Int.neg_tdiv]

theorem truncate_of_nonpos {value : ℚ} (h : value ≤ 0) : truncate value = ⌈value⌉ := by
  have hfloor := truncate_of_nonneg (neg_nonneg.mpr h)
  rw [truncate_neg, Int.floor_neg] at hfloor
  exact neg_injective hfloor

theorem intCast_le_truncate {n : ℤ} {value : ℚ} (h : (n : ℚ) ≤ value) : n ≤ truncate value := by
  rcases le_total 0 value with hsign | hsign
  · rw [truncate_of_nonneg hsign]
    exact Int.le_floor.mpr h
  · rw [truncate_of_nonpos hsign]
    exact_mod_cast h.trans (Int.le_ceil value)

theorem truncate_le_intCast {n : ℤ} {value : ℚ} (h : value ≤ (n : ℚ)) : truncate value ≤ n := by
  rcases le_total 0 value with hsign | hsign
  · rw [truncate_of_nonneg hsign]
    exact_mod_cast (Int.floor_le value).trans h
  · rw [truncate_of_nonpos hsign]
    exact Int.ceil_le.mpr h

namespace Double

/-- The value of a finite double. -/
def finite? : Double → Option ℚ
  | finite value => some value
  | _ => none

/-- `value == 0.0`, which is false of NaN. -/
def isZero (value : Double) : Bool := decide (value = finite 0)

/-- Multiplication by a positive number. -/
def scale (factor : ℚ) : Double → Double
  | finite value => finite (value * factor)
  | value => value

/-- `static_cast` to an integer type; `none` where the conversion is undefined. -/
def castTo (range : IntRange) : Double → Option ℤ
  | finite value =>
    if range.lowest ≤ truncate value ∧ truncate value ≤ range.max then some (truncate value)
    else none
  | _ => none

/-- `std::clamp`. -/
def clamp (value lowest max : ℚ) : ℚ :=
  if value < lowest then lowest else if max < value then max else value

/-- `ClampCast`: NaN and the infinities become 0, everything else is clamped to the range. -/
def clampCast (range : IntRange) : Double → ℤ
  | finite value => truncate (clamp value range.lowest range.max)
  | _ => 0

theorem isZero_iff {value : Double} : value.isZero = true ↔ value = finite 0 := by
  simp [isZero]

theorem castTo_zero (range : IntRange) : castTo range (finite 0) = some 0 :=
  if_pos ⟨range.lowest_le, range.le_max⟩

theorem castTo_of_nonneg {range : IntRange} {value : ℚ} (h : 0 ≤ value) :
    castTo range (finite value) = if value < range.max + 1 then some ⌊value⌋ else none := by
  have hlowest : range.lowest ≤ ⌊value⌋ := range.lowest_le.trans (Int.floor_nonneg.mpr h)
  have hmax : ⌊value⌋ ≤ range.max ↔ value < range.max + 1 := by
    rw [← Int.lt_add_one_iff, Int.floor_lt, Int.cast_add, Int.cast_one]
  simp only [castTo, truncate_of_nonneg h, hlowest, hmax, true_and]

/-- Where a conversion is defined, clamping first makes no difference. -/
theorem clampCast_of_castTo {range : IntRange} {value : Double} {n : ℤ}
    (h : castTo range value = some n) : clampCast range value = n := by
  cases value with
  | finite value =>
    rw [castTo] at h
    split_ifs at h with hrange
    · obtain rfl := Option.some.inj h
      unfold clampCast clamp
      dsimp only
      split_ifs with hlow hhigh
      · rw [truncate_intCast]
        exact le_antisymm hrange.1 (truncate_le_intCast hlow.le)
      · rw [truncate_intCast]
        exact le_antisymm (intCast_le_truncate hhigh.le) hrange.2
      · rfl
  | nan | posInf | negInf => cases h

end Double

/-! ## Clock readings -/

/-- `rclcpp::Time` in nanoseconds. -/
abbrev Time := ℤ

/-- `.seconds()` of a time or of a difference of times. -/
def seconds (nanoseconds : ℤ) : ℚ := nanoseconds / 10 ^ 9

theorem seconds_sub (first second : ℤ) :
    seconds (first - second) = seconds first - seconds second := by
  unfold seconds
  rw [Int.cast_sub, sub_div]

end MyDiffbot.Numeric

import EquationText.Numeric.Rounding
import Mathlib.Algebra.Order.Field.Power
import Mathlib.Tactic.FieldSimp
import Mathlib.Tactic.Linarith
import Mathlib.Tactic.Positivity
import Mathlib.Tactic.Ring

/-! # How rounding behaves

The number of units that a rational is rounded to is the nearest one, it lies between the same whole numbers of
units as the rational (`EquationText.le_unitCount`, `EquationText.unitCount_le`), and it is the only one that the
rational is closer to than half a unit (`EquationText.unitCount_eq`). The exponent of a rational is that of its
leading digit (`EquationText.binaryExponent_spec`).
-/

namespace EquationText

/-! ## Quotients -/

section Quotients

variable {n d k : Nat}

theorem le_roundDiv (positive : 0 < d) (below : k * d ≤ n) : k ≤ roundDiv n d := by
  have floor : k ≤ n / d := (Nat.le_div_iff_mul_le positive).mpr below
  unfold roundDiv
  dsimp only
  split
  · exact floor
  · split <;> omega

/-- Rounding a quotient does not go above an integer that is not below the quotient. -/
theorem roundDiv_le (positive : 0 < d) (above : n ≤ k * d) : roundDiv n d ≤ k := by
  have parts := Nat.div_add_mod n d
  have small := Nat.mod_lt n positive
  have floor : n / d ≤ k := Nat.div_le_of_le_mul (by rwa [Nat.mul_comm])
  -- a quotient that is rounded up lies strictly below the whole number
  have strict : n / d = k → n % d = 0 := by
    rintro rfl
    rw [Nat.mul_comm] at above
    omega
  unfold roundDiv
  dsimp only
  split
  · exact floor
  · split <;> omega

/-- A quotient is rounded to a whole number that it differs from by a half at most. -/
theorem roundDiv_error (positive : 0 < d) :
    2 * (roundDiv n d * d) ≤ 2 * n + d ∧ 2 * n ≤ 2 * (roundDiv n d * d) + d := by
  have parts := Nat.div_add_mod n d
  have small := Nat.mod_lt n positive
  have next : (n / d + 1) * d = d * (n / d) + d := by rw [Nat.add_mul, Nat.mul_comm, Nat.one_mul]
  have same : n / d * d = d * (n / d) := Nat.mul_comm ..
  unfold roundDiv
  dsimp only
  split
  · omega
  · split
    · omega
    · rcases Nat.mod_two_eq_zero_or_one (n / d) with even | odd
      · rw [even, Nat.add_zero]
        omega
      · rw [odd]
        omega

end Quotients

/-! ## Rationals in units -/

/-- The number of units `base ^ exponent` that the magnitude of a rational is rounded to. -/
def unitCount (base : Nat) (q : Rat) (exponent : Int) : Nat :=
  roundDiv (q.num.natAbs * base ^ (-exponent).toNat) (q.den * base ^ exponent.toNat)

section Units

variable {base count : Nat} {q : Rat} {exponent : Int}

theorem natAbs_num_eq (q : Rat) : (q.num.natAbs : Rat) = |q| * q.den := by
  have positive : (0 : Rat) < q.den := Nat.cast_pos.mpr q.den_pos
  have quotient : (q.num : Rat) = q * q.den := by rw [Rat.mul_den_eq_num]
  rw [Nat.cast_natAbs, Int.cast_abs, quotient, abs_mul, abs_of_pos positive]

/-- A power with an exponent of either sign as a quotient of powers. -/
theorem zpow_mul_pow_toNat (positive : 0 < base) (exponent : Int) :
    (base : Rat) ^ exponent * (base : Rat) ^ (-exponent).toNat = (base : Rat) ^ exponent.toNat := by
  have nonzero : (base : Rat) ≠ 0 := Nat.cast_ne_zero.mpr (Nat.ne_of_gt positive)
  rw [← zpow_natCast, ← zpow_natCast, ← zpow_add₀ nonzero]
  congr 1
  omega

/-- Numbers of units are compared with a magnitude by multiplying with its denominator. -/
theorem units_le_iff (positive : 0 < base) (a b c : Nat) :
    (a : Rat) * (base : Rat) ^ exponent ≤ b * |q| + c * (base : Rat) ^ exponent ↔
      a * (q.den * base ^ exponent.toNat) ≤
        b * (q.num.natAbs * base ^ (-exponent).toNat) + c * (q.den * base ^ exponent.toNat) := by
  have scale : (0 : Rat) < q.den * (base : Rat) ^ (-exponent).toNat := by
    have := q.den_pos
    positivity
  rw [← mul_le_mul_iff_of_pos_right scale, ← Nat.cast_le (α := Rat)]
  push_cast
  rw [natAbs_num_eq, ← zpow_mul_pow_toNat positive exponent]
  constructor <;> intro le <;> linarith

theorem le_units_iff (positive : 0 < base) (a b : Nat) :
    b * |q| ≤ (a : Rat) * (base : Rat) ^ exponent ↔
      b * (q.num.natAbs * base ^ (-exponent).toNat) ≤ a * (q.den * base ^ exponent.toNat) := by
  have scale : (0 : Rat) < q.den * (base : Rat) ^ (-exponent).toNat := by
    have := q.den_pos
    positivity
  rw [← mul_le_mul_iff_of_pos_right scale, ← Nat.cast_le (α := Rat)]
  push_cast
  rw [natAbs_num_eq, ← zpow_mul_pow_toNat positive exponent]
  constructor <;> intro le <;> linarith

variable (positive : 0 < base)
include positive

theorem unit_pos (q : Rat) (exponent : Int) : 0 < q.den * base ^ exponent.toNat :=
  Nat.mul_pos q.den_pos (Nat.pow_pos positive)

/-- A magnitude of so many units at least is rounded to so many units at least. -/
theorem le_unitCount (below : (count : Rat) * (base : Rat) ^ exponent ≤ |q|) :
    count ≤ unitCount base q exponent := by
  refine le_roundDiv (unit_pos positive q exponent) ?_
  simpa using (units_le_iff positive count 1 0).mp (by simpa using below)

/-- A magnitude of so many units at most is rounded to so many units at most. -/
theorem unitCount_le (above : |q| ≤ (count : Rat) * (base : Rat) ^ exponent) :
    unitCount base q exponent ≤ count := by
  refine roundDiv_le (unit_pos positive q exponent) ?_
  simpa using (le_units_iff positive count 1).mp (by simpa using above)

/-- A magnitude is rounded to a number of units that it differs from by half a unit at most. -/
theorem unitCount_error (q : Rat) (exponent : Int) :
    abs ((unitCount base q exponent : Rat) * (base : Rat) ^ exponent - |q|) ≤ (base : Rat) ^ exponent / 2 := by
  obtain ⟨high, low⟩ := roundDiv_error (unit_pos positive q exponent)
    (n := q.num.natAbs * base ^ (-exponent).toNat)
  have above := (units_le_iff positive (2 * unitCount base q exponent) 2 1).mpr (by
    simpa [unitCount, Nat.mul_assoc] using high)
  have below := (le_units_iff positive (2 * unitCount base q exponent + 1) 2).mpr (by
    simpa [unitCount, Nat.mul_assoc, Nat.add_mul] using low)
  push_cast at above below
  rw [abs_sub_le_iff]
  constructor <;> linarith

/-- A magnitude is rounded to the number of units that it differs from by less than half a unit. -/
theorem unitCount_eq (close : abs ((count : Rat) * (base : Rat) ^ exponent - |q|) < (base : Rat) ^ exponent / 2) :
    unitCount base q exponent = count := by
  have unit : (0 : Rat) < (base : Rat) ^ exponent := zpow_pos (Nat.cast_pos.mpr positive) exponent
  have error := unitCount_error positive q exponent
  rw [abs_sub_le_iff] at error
  rw [abs_sub_lt_iff] at close
  have high : (unitCount base q exponent : Rat) < count + 1 := by
    refine lt_of_mul_lt_mul_right ?_ unit.le
    linarith
  have low : (count : Rat) < unitCount base q exponent + 1 := by
    refine lt_of_mul_lt_mul_right ?_ unit.le
    linarith
  have high : unitCount base q exponent < count + 1 := by exact_mod_cast high
  have low : count < unitCount base q exponent + 1 := by exact_mod_cast low
  omega

end Units

/-! ## Leading digits -/

section Leading

variable {base n d above below : Nat}

/-- A quotient has its leading digit at the difference of those of its terms, or at the place after it. -/
theorem quotient_bounds (large : 1 < base) (positive : 0 < d)
    (numerator : base ^ above ≤ n ∧ n < base ^ (above + 1))
    (denominator : base ^ below ≤ d ∧ d < base ^ (below + 1)) :
    (base : Rat) ^ ((above : Int) - below - 1) ≤ n / d ∧
      (n / d : Rat) < (base : Rat) ^ ((above : Int) - below + 1) := by
  have pos : (0 : Rat) < base := Nat.cast_pos.mpr (by omega)
  have nonzero : (base : Rat) ≠ 0 := pos.ne'
  have divisor : (0 : Rat) < d := Nat.cast_pos.mpr positive
  have denominatorHigh : (d : Rat) ≤ (base : Rat) ^ ((below : Int) + 1) := by exact_mod_cast denominator.2.le
  have denominatorLow : (base : Rat) ^ (below : Int) ≤ d := by exact_mod_cast denominator.1
  rw [le_div_iff₀ divisor, div_lt_iff₀ divisor]
  constructor
  · calc (base : Rat) ^ ((above : Int) - below - 1) * d
        ≤ (base : Rat) ^ ((above : Int) - below - 1) * (base : Rat) ^ ((below : Int) + 1) := by gcongr
      _ = (base : Rat) ^ (above : Int) := by
          rw [← zpow_add₀ nonzero]
          congr 1
          omega
      _ ≤ n := by exact_mod_cast numerator.1
  · calc (n : Rat) < (base : Rat) ^ ((above : Int) + 1) := by exact_mod_cast numerator.2
      _ = (base : Rat) ^ ((above : Int) - below + 1) * (base : Rat) ^ (below : Int) := by
          rw [← zpow_add₀ nonzero]
          congr 1
          omega
      _ ≤ (base : Rat) ^ ((above : Int) - below + 1) * d := by gcongr

/-- The exponent of the leading digit of a quotient. -/
theorem leadingExponent_spec (large : 1 < base) (positive : 0 < d)
    (numerator : base ^ above ≤ n ∧ n < base ^ (above + 1))
    (denominator : base ^ below ≤ d ∧ d < base ^ (below + 1)) :
    (base : Rat) ^ leadingExponent base n d above below ≤ n / d ∧
      (n / d : Rat) < (base : Rat) ^ (leadingExponent base n d above below + 1) := by
  obtain ⟨low, high⟩ := quotient_bounds large positive numerator denominator
  have divisor : (0 : Rat) < d := Nat.cast_pos.mpr positive
  have reached : d * base ^ ((above : Int) - below).toNat ≤ n * base ^ (-((above : Int) - below)).toNat ↔
      (base : Rat) ^ ((above : Int) - below) ≤ n / d := by
    have scale : (0 : Rat) < (base : Rat) ^ (-((above : Int) - below)).toNat := by positivity
    rw [le_div_iff₀ divisor, ← mul_le_mul_iff_of_pos_right scale, ← Nat.cast_le (α := Rat)]
    push_cast
    rw [← zpow_mul_pow_toNat (by omega) ((above : Int) - below)]
    constructor <;> intro le <;> linarith
  unfold leadingExponent
  dsimp only
  split
  · rename_i guessed
    exact ⟨reached.mp guessed, high⟩
  · rename_i missed
    refine ⟨low, ?_⟩
    rw [Int.sub_add_cancel]
    exact lt_of_not_ge fun le => missed (reached.mpr le)

end Leading

theorem num_div_den_eq (q : Rat) : (q.num.natAbs : Rat) / q.den = |q| := by
  rw [natAbs_num_eq, mul_div_assoc, div_self (Nat.cast_ne_zero.mpr q.den_nz), mul_one]

/-- The binary exponent of a rational is that of its leading binary digit. -/
theorem binaryExponent_spec {q : Rat} (nonzero : q ≠ 0) :
    (2 : Rat) ^ binaryExponent q ≤ |q| ∧ |q| < (2 : Rat) ^ (binaryExponent q + 1) := by
  have numerator : q.num.natAbs ≠ 0 := Int.natAbs_ne_zero.mpr (Rat.num_ne_zero.mpr nonzero)
  have bounds := leadingExponent_spec (n := q.num.natAbs) (by decide : 1 < 2) q.den_pos
    ⟨Nat.log2_self_le numerator, Nat.lt_log2_self⟩ ⟨Nat.log2_self_le q.den_nz, Nat.lt_log2_self⟩
  rw [num_div_den_eq] at bounds
  exact_mod_cast bounds

theorem binaryExponent_neg (q : Rat) : binaryExponent (-q) = binaryExponent q := by
  simp [binaryExponent, Rat.neg_num, Rat.neg_den]

/-! ## Multiples of powers of two -/

/-- Powers with a possibly negative exponent are those of the rationals. -/
theorem basePow_eq (base : Nat) (exponent : Int) : basePow base exponent = (base : Rat) ^ exponent := by
  unfold basePow
  split
  · rename_i nonneg
    obtain ⟨n, rfl⟩ := Int.eq_ofNat_of_zero_le nonneg
    simp
  · rename_i negative
    obtain ⟨n, rfl⟩ := Int.exists_eq_neg_ofNat (by omega : exponent ≤ 0)
    simp [Rat.mkRat_eq_div]

theorem basePow_two (exponent : Int) : basePow 2 exponent = (2 : Rat) ^ exponent := basePow_eq 2 exponent

theorem two_zpow_add (exponent : Int) (n : Nat) :
    (2 : Rat) ^ (exponent + n) = ((2 ^ n : Nat) : Rat) * (2 : Rat) ^ exponent := by
  rw [zpow_add₀ (by decide), zpow_natCast, Nat.cast_pow, mul_comm]
  rfl

/-- A rational is rounded to its number of units, with its sign. -/
theorem roundToUnit_eq (q : Rat) (exponent : Int) :
    roundToUnit q exponent =
      (if q < 0 then -(unitCount 2 q exponent : Rat) else unitCount 2 q exponent) * (2 : Rat) ^ exponent := by
  have power := zpow_mul_pow_toNat (by decide : 0 < 2) exponent
  have down : (2 : Rat) ^ (-exponent).toNat ≠ 0 := by positivity
  have quotient : ∀ signed : Int, mkRat (signed * (2 ^ exponent.toNat : Nat)) (2 ^ (-exponent).toNat) =
      (signed : Rat) * (2 : Rat) ^ exponent := by
    intro signed
    push_cast at power
    rw [Rat.mkRat_eq_div, div_eq_iff (by exact_mod_cast down)]
    push_cast
    rw [mul_assoc, power]
  refine (quotient _).trans ?_
  simp only [Rat.num_neg]
  split <;> simp [unitCount]

section Round

variable {q : Rat} {exponent : Int}

theorem abs_roundToUnit (q : Rat) (exponent : Int) :
    |roundToUnit q exponent| = (unitCount 2 q exponent : Rat) * (2 : Rat) ^ exponent := by
  have unit : (0 : Rat) < (2 : Rat) ^ exponent := by positivity
  rw [roundToUnit_eq, abs_mul, abs_of_pos unit]
  split
  · rw [abs_neg, Nat.abs_cast]
  · rw [Nat.abs_cast]

/-- Rounding keeps signs apart. -/
theorem roundToUnit_neg (q : Rat) (exponent : Int) : roundToUnit (-q) exponent = -roundToUnit q exponent := by
  have same : unitCount 2 (-q) exponent = unitCount 2 q exponent := by
    simp [unitCount, Rat.neg_num, Rat.neg_den]
  rw [roundToUnit_eq, roundToUnit_eq, same]
  rcases lt_trichotomy q 0 with negative | rfl | positive
  · rw [if_pos negative, if_neg (by linarith)]
    ring
  · have zero : unitCount 2 0 exponent = 0 := by simp [unitCount, roundDiv]
    simp [zero]
  · rw [if_pos (by linarith), if_neg (by linarith)]
    ring

/-- A rational is rounded to the multiple of the unit that is closer than half a unit. -/
theorem roundToUnit_eq_of_close {units : Int} (close : |units * (2 : Rat) ^ exponent - q| < (2 : Rat) ^ exponent / 2) :
    roundToUnit q exponent = units * (2 : Rat) ^ exponent := by
  have unit : (0 : Rat) < (2 : Rat) ^ exponent := by positivity
  have nonneg : ∀ {units : Int} {q : Rat}, |units * (2 : Rat) ^ exponent - q| < (2 : Rat) ^ exponent / 2 → 0 ≤ q →
      roundToUnit q exponent = units * (2 : Rat) ^ exponent := by
    intro units q close positive
    have lower : (-1 : Rat) < units := by
      rw [abs_sub_lt_iff] at close
      refine lt_of_mul_lt_mul_right ?_ unit.le
      linarith
    have lower : -1 < units := by exact_mod_cast lower
    obtain ⟨count, rfl⟩ := Int.eq_ofNat_of_zero_le (by omega : 0 ≤ units)
    rw [Int.cast_natCast] at close ⊢
    have counted : unitCount 2 q exponent = count := by
      refine unitCount_eq (by decide) ?_
      rwa [abs_of_nonneg positive]
    rw [roundToUnit_eq, if_neg (not_lt.mpr positive), counted]
  rcases le_total 0 q with positive | negative
  · exact nonneg close positive
  · have opposite : |((-units : Int) : Rat) * (2 : Rat) ^ exponent - -q| < (2 : Rat) ^ exponent / 2 := by
      rw [abs_sub_comm]
      push_cast
      convert close using 2
      ring
    have rounded := nonneg opposite (neg_nonneg.mpr negative)
    rw [roundToUnit_neg] at rounded
    push_cast at rounded
    linarith

/-- Rounding takes no magnitude across a multiple of the unit. -/
theorem units_le_abs_roundToUnit {units : Nat} {k : Int} (fine : exponent ≤ k) (low : units * (2 : Rat) ^ k ≤ |q|) :
    units * (2 : Rat) ^ k ≤ |roundToUnit q exponent| := by
  obtain ⟨n, rfl⟩ := Int.le.dest fine
  rw [two_zpow_add, ← mul_assoc, ← Nat.cast_mul] at low ⊢
  have counted : units * 2 ^ n ≤ unitCount 2 q exponent := le_unitCount (by decide) low
  rw [abs_roundToUnit]
  gcongr

theorem le_abs_roundToUnit {k : Int} (fine : exponent ≤ k) (low : (2 : Rat) ^ k ≤ |q|) :
    (2 : Rat) ^ k ≤ |roundToUnit q exponent| := by
  have single : ((1 : Nat) : Rat) * (2 : Rat) ^ k = (2 : Rat) ^ k := by rw [Nat.cast_one, one_mul]
  rw [← single] at low ⊢
  exact units_le_abs_roundToUnit fine low

theorem abs_roundToUnit_le {k : Int} (fine : exponent ≤ k) (high : |q| ≤ (2 : Rat) ^ k) :
    |roundToUnit q exponent| ≤ (2 : Rat) ^ k := by
  obtain ⟨n, rfl⟩ := Int.le.dest fine
  rw [two_zpow_add] at high ⊢
  have counted : unitCount 2 q exponent ≤ 2 ^ n := unitCount_le (by decide) high
  rw [abs_roundToUnit]
  gcongr

end Round

end EquationText

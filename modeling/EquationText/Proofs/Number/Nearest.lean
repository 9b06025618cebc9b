import EquationText.Numeric.Double
import EquationText.Proofs.Number.Rounding

/-! # The double nearest to a rational

Every double has 53 binary digits at most, the last at a place that doubles have
(`EquationText.Double.isRepresented_nearest`), and what lies so close to a double that its first 54 digits are the
same is rounded to it (`EquationText.Double.nearest_eq_of_close`). Opposite rationals have opposite doubles.
-/

namespace EquationText

namespace Double

/-- What a rational is rounded to if it is in the range of doubles. -/
def nearest (q : Rat) : Rat := roundToUnit q (unitExponent q)

theorem ratAbs_eq (q : Rat) : q.abs = |q| := by
  rw [Rat.abs]
  split
  · rename_i nonneg
    rw [abs_of_nonneg nonneg]
  · rename_i negative
    rw [abs_of_neg (not_le.mp negative)]

@[simp]
theorem nearest_zero : nearest 0 = 0 := by
  have zero : unitCount 2 0 (unitExponent 0) = 0 := by simp [unitCount, roundDiv]
  rw [nearest, roundToUnit_eq, zero]
  simp

theorem overflow_eq : overflow = (2 : Rat) ^ (1024 : Int) := basePow_two 1024

/-- The value of the double that is nearest to a rational. -/
theorem value?_ofRat (q : Rat) :
    (ofRat q).value? = if (2 : Rat) ^ (1024 : Int) ≤ |nearest q| then none else some (nearest q) := by
  by_cases zero : q = 0
  · subst zero
    have small : ¬ (2 : Rat) ^ (1024 : Int) ≤ |nearest 0| := by
      rw [nearest_zero, abs_zero]
      exact not_le.mpr (by positivity)
    rw [if_neg small, nearest_zero]
    rfl
  · rw [ofRat, if_neg (Rat.num_ne_zero.mpr zero)]
    simp only [ratAbs_eq, overflow_eq]
    change (if _ ≤ |nearest q| then _ else _ : Double).value? = _
    split
    · rfl
    · change (if (nearest q).num = 0 then _ else Double.finite (nearest q) : Double).value? = _
      split
      · rename_i vanishes
        rw [Rat.num_eq_zero.mp vanishes]
        split <;> rfl
      · rfl

theorem value?_ofRat_eq_some_iff {q value : Rat} :
    (ofRat q).value? = some value ↔ nearest q = value ∧ |value| < (2 : Rat) ^ (1024 : Int) := by
  rw [value?_ofRat]
  split
  · rename_i beyond
    refine iff_of_false nofun ?_
    rintro ⟨rfl, within⟩
    exact absurd beyond (not_le.mpr within)
  · rename_i within
    rw [Option.some_inj]
    exact ⟨fun same => ⟨same, same ▸ not_le.mp within⟩, And.left⟩

/-- Whether what a rational is rounded to counts as zero. -/
theorem isBelow_ofRat_iff {q bound : Rat} :
    (ofRat q).isBelow bound = true ↔ |nearest q| < (2 : Rat) ^ (1024 : Int) ∧ |nearest q| < bound := by
  rw [isBelow, value?_ofRat]
  split
  · rename_i value found
    split at found
    · cases found
    · rename_i within
      cases found
      rw [decide_eq_true_iff, ratAbs_eq, and_iff_right (not_le.mp within)]
  · rename_i none
    split at none
    · rename_i beyond
      exact iff_of_false nofun fun within => absurd within.1 (not_lt.mpr beyond)
    · cases none

theorem unitExponent_neg (q : Rat) : unitExponent (-q) = unitExponent q := by
  rw [unitExponent, binaryExponent_neg, unitExponent]

/-- Opposite rationals are rounded to opposite ones. -/
theorem nearest_neg (q : Rat) : nearest (-q) = -nearest q := by
  rw [nearest, unitExponent_neg, roundToUnit_neg, nearest]

/-! ## Doubles -/

/-- Whether a rational has 53 binary digits at most, the last at a place that doubles have, and no fewer digits
than that unless the last is at the lowest place. -/
def IsRepresented (q : Rat) : Prop :=
  ∃ units exponent : Int, q = units * (2 : Rat) ^ exponent ∧ -1074 ≤ exponent ∧ |units| < 2 ^ 53 ∧
    (exponent = -1074 ∨ 2 ^ 52 ≤ |units|)

theorem unitExponent_ge (q : Rat) : -1074 ≤ unitExponent q := Int.le_max_right ..

theorem binaryExponent_le (q : Rat) : binaryExponent q - 52 ≤ unitExponent q := Int.le_max_left ..

/-- What a rational is rounded to is represented. -/
theorem isRepresented_nearest (q : Rat) : IsRepresented (nearest q) := by
  by_cases zero : q = 0
  · subst zero
    exact ⟨0, -1074, by simp, Int.le_refl _, by decide, .inl rfl⟩
  obtain ⟨low, high⟩ := binaryExponent_spec zero
  set exponent := unitExponent q with same
  have lowest := unitExponent_ge q
  have fine := binaryExponent_le q
  have above : unitCount 2 q exponent ≤ 2 ^ 53 := by
    refine unitCount_le (by decide) (high.le.trans (le_of_le_of_eq ?_ (two_zpow_add exponent 53)))
    exact zpow_le_zpow_right₀ (by decide) (by omega)
  have below : exponent = -1074 ∨ 2 ^ 52 ≤ unitCount 2 q exponent := by
    rcases Int.le_total (binaryExponent q - 52) (-1074) with small | large
    · exact .inl (by rw [same, unitExponent]; omega)
    · refine .inr (le_unitCount (by decide) (le_trans (le_of_eq_of_le (two_zpow_add exponent 52).symm ?_) low))
      exact zpow_le_zpow_right₀ (by decide) (by rw [same, unitExponent]; omega)
  have counted : ∃ units : Int, nearest q = units * (2 : Rat) ^ exponent ∧
      |units| = unitCount 2 q exponent := by
    rw [nearest, ← same, roundToUnit_eq]
    split
    · exact ⟨-(unitCount 2 q exponent : Int), by push_cast; rfl, by rw [abs_neg, Nat.abs_cast]⟩
    · exact ⟨unitCount 2 q exponent, by push_cast; rfl, Nat.abs_cast _⟩
  obtain ⟨units, value, magnitude⟩ := counted
  have above : |units| ≤ 2 ^ 53 := by
    rw [magnitude]
    exact_mod_cast above
  have below : exponent = -1074 ∨ 2 ^ 52 ≤ |units| := by
    rw [magnitude]
    exact_mod_cast below
  rcases lt_or_eq_of_le above with fewer | carried
  · exact ⟨units, exponent, value, lowest, fewer, below⟩
  · -- a carry to the next power of two, which has a larger unit
    obtain ⟨half, rfl⟩ : ∃ half, units = 2 * half := by
      rcases (abs_eq (by decide : (0 : Int) ≤ 2 ^ 53)).mp carried with rfl | rfl
      · exact ⟨2 ^ 52, by decide⟩
      · exact ⟨-2 ^ 52, by decide⟩
    have halved : |half| = 2 ^ 52 := by
      rw [abs_mul] at carried
      norm_num at carried ⊢
      omega
    refine ⟨half, exponent + 1, ?_, by omega, by rw [halved]; decide, .inr halved.ge⟩
    rw [value, zpow_add₀ (by decide)]
    push_cast
    ring

theorem IsRepresented.neg {q : Rat} (represented : IsRepresented q) : IsRepresented (-q) := by
  obtain ⟨units, exponent, value, lowest, fewer, digits⟩ := represented
  refine ⟨-units, exponent, ?_, lowest, by rwa [abs_neg], by rwa [abs_neg]⟩
  rw [value]
  push_cast
  ring

section Close

variable {q x : Rat}

/-- The unit of a double is the only one for which the number has 53 binary digits, or the least one. -/
theorem unitExponent_eq {exponent : Int} (positive : 0 < x) (lowest : -1074 ≤ exponent)
    (high : x < 2 ^ 53 * (2 : Rat) ^ exponent) (low : exponent = -1074 ∨ 2 ^ 52 * (2 : Rat) ^ exponent ≤ x) :
    unitExponent x = exponent := by
  obtain ⟨below, above⟩ := binaryExponent_spec positive.ne'
  rw [abs_of_pos positive] at below above
  have power (n : Nat) : (2 : Rat) ^ n * (2 : Rat) ^ exponent = (2 : Rat) ^ (exponent + n) := by
    rw [two_zpow_add, Nat.cast_pow]
    rfl
  rw [power] at high low
  have first := (zpow_lt_zpow_iff_right₀ (by decide : (1 : Rat) < 2)).mp (below.trans_lt high)
  unfold unitExponent
  rcases low with rfl | low
  · omega
  · have second := (zpow_lt_zpow_iff_right₀ (by decide : (1 : Rat) < 2)).mp (low.trans_lt above)
    omega

/-- What is closer to a multiple of its unit than half the unit is rounded to it. -/
theorem nearest_eq_of_unit {units exponent : Int} (unit : unitExponent x = exponent)
    (close : |units * (2 : Rat) ^ exponent - x| < (2 : Rat) ^ exponent / 2) :
    nearest x = units * (2 : Rat) ^ exponent := by
  rw [nearest, unit]
  exact roundToUnit_eq_of_close close

/-- Just below a power of two the unit is only half as large. -/
theorem nearest_eq_of_below_power {exponent : Int} (lowest : -1074 < exponent)
    (below : x < 2 ^ 52 * (2 : Rat) ^ exponent)
    (close : 2 ^ 52 * (2 : Rat) ^ exponent - x < (2 : Rat) ^ exponent / 4) :
    nearest x = 2 ^ 52 * (2 : Rat) ^ exponent := by
  have unit : (0 : Rat) < (2 : Rat) ^ exponent := by positivity
  have half : (2 : Rat) ^ (exponent - 1) = (2 : Rat) ^ exponent / 2 := by rw [zpow_sub₀ (by decide), zpow_one]
  have same : unitExponent x = exponent - 1 := by
    refine unitExponent_eq (by linarith) (by omega) ?_ (.inr ?_)
    all_goals
      rw [half]
      linarith
  have value : ((2 ^ 53 : Int) : Rat) * (2 : Rat) ^ (exponent - 1) = 2 ^ 52 * (2 : Rat) ^ exponent := by
    rw [half]
    push_cast
    ring
  rw [← value]
  refine nearest_eq_of_unit same ?_
  rw [value, half, abs_of_pos (by linarith)]
  linarith

/-- What is so close to a positive double that the first 54 digits are the same is rounded to it. -/
theorem nearest_eq_of_close_of_pos (represented : IsRepresented q) (positive : 0 < q)
    (close : |x - q| < q / 2 ^ 54) : nearest x = q := by
  obtain ⟨units, exponent, rfl, lowest, fewer, digits⟩ := represented
  have unit : (0 : Rat) < (2 : Rat) ^ exponent := by positivity
  have counted : (0 : Rat) < units := (pos_iff_pos_of_mul_pos positive).mpr unit
  have counted : 0 < units := by exact_mod_cast counted
  rw [abs_of_pos counted] at fewer digits
  have most : (units : Rat) ≤ 2 ^ 53 - 1 := by
    have := Int.le_sub_one_of_lt fewer
    exact_mod_cast this
  have most := mul_le_mul_of_nonneg_right most unit.le
  rw [abs_sub_lt_iff] at close
  obtain ⟨above, below⟩ := close
  by_cases regular : units * (2 : Rat) ^ exponent ≤ x ∨ 2 ^ 52 < units ∨ exponent = -1074
  · have low : exponent = -1074 ∨ 2 ^ 52 * (2 : Rat) ^ exponent ≤ x := by
      rcases regular with more | more | lowest
      · refine digits.imp_right fun full => le_trans ?_ more
        gcongr
        exact_mod_cast full
      · refine .inr ?_
        have more : (2 ^ 52 + 1 : Rat) ≤ units := by exact_mod_cast more
        have := mul_le_mul_of_nonneg_right more unit.le
        linarith
      · exact .inl lowest
    refine nearest_eq_of_unit (unitExponent_eq (by linarith) lowest (by linarith) low) ?_
    rw [abs_sub_lt_iff]
    constructor <;> linarith
  · obtain ⟨less, least, notLowest⟩ : ¬ units * (2 : Rat) ^ exponent ≤ x ∧ ¬ 2 ^ 52 < units ∧ exponent ≠ -1074 := by
      simpa only [not_or] using regular
    have exact : units = 2 ^ 52 := le_antisymm (not_lt.mp least) (digits.resolve_left notLowest)
    have value : (units : Rat) = 2 ^ 52 := by
      rw [exact]
      norm_num
    rw [value] at less below ⊢
    exact nearest_eq_of_below_power (by omega) (not_le.mp less) (by linarith)

/-- What is so close to a double that the first 54 digits are the same is rounded to it. -/
theorem nearest_eq_of_close (represented : IsRepresented q) (close : |x - q| < |q| / 2 ^ 54) : nearest x = q := by
  rcases lt_trichotomy q 0 with negative | rfl | positive
  · have opposite : |-x - -q| < -q / 2 ^ 54 := by
      rw [abs_of_neg negative] at close
      rwa [neg_sub_neg, abs_sub_comm]
    have rounded := nearest_eq_of_close_of_pos represented.neg (by linarith) opposite
    rw [nearest_neg] at rounded
    linarith
  · rw [abs_zero, zero_div] at close
    exact absurd close (not_lt.mpr (abs_nonneg _))
  · rw [abs_of_pos positive] at close
    exact nearest_eq_of_close_of_pos represented positive close

/-- A double is rounded to itself. -/
theorem IsRepresented.nearest_eq (represented : IsRepresented q) : nearest q = q := by
  by_cases zero : q = 0
  · rw [zero, nearest_zero]
  · refine nearest_eq_of_close represented ?_
    rw [sub_self, abs_zero]
    have := abs_pos.mpr zero
    positivity

/-- A magnitude that reaches a power of two is rounded to one that does. -/
theorem le_abs_nearest {k : Int} (lowest : -1074 ≤ k) (low : (2 : Rat) ^ k ≤ |q|) : (2 : Rat) ^ k ≤ |nearest q| := by
  have nonzero : q ≠ 0 := by
    rintro rfl
    rw [abs_zero] at low
    exact absurd (zpow_pos (by decide : (0 : Rat) < 2) k) (not_lt.mpr low)
  obtain ⟨below, above⟩ := binaryExponent_spec nonzero
  have reached := (zpow_lt_zpow_iff_right₀ (by decide : (1 : Rat) < 2)).mp (low.trans_lt above)
  have fine : unitExponent q ≤ binaryExponent q := by
    unfold unitExponent
    omega
  exact (zpow_le_zpow_right₀ (by decide) (by omega)).trans (le_abs_roundToUnit fine below)

/-- A magnitude within a power of two is rounded to one that is. -/
theorem abs_nearest_le {k : Int} (lowest : -1074 ≤ k) (high : |q| ≤ (2 : Rat) ^ k) : |nearest q| ≤ (2 : Rat) ^ k := by
  by_cases zero : q = 0
  · rw [zero, nearest_zero, abs_zero]
    positivity
  · have below := (zpow_le_zpow_iff_right₀ (by decide : (1 : Rat) < 2)).mp ((binaryExponent_spec zero).1.trans high)
    refine abs_roundToUnit_le ?_ high
    unfold unitExponent
    omega

end Close

end Double

end EquationText

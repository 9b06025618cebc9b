import EquationText.Numeric.Scalar
import EquationText.Numeric.Shortest
import EquationText.Proofs.Number.Nearest
import Mathlib.Data.Nat.Digits.Defs

/-! # Shortest decimals read back

A decimal of some digits differs from the number that it is made from by half a unit of the last digit at most
(`EquationText.Decimal.round_error`), so seventeen digits tell every double from the others, and the shortest
decimal of a double is read back as this double (`EquationText.Double.value?_ofRat_shortest`). The decimals of
doubles are in the range of doubles.
-/

namespace EquationText

/-! ## Numbers of digits -/

theorem lt_pow_length_decimalDigits (n : Nat) : n < 10 ^ (decimalDigits n).length :=
  (Nat.length_toDigits_le_iff (by decide) Nat.length_toDigits_pos).mp (Nat.le_refl _)

theorem pow_length_decimalDigits_le {n : Nat} (nonzero : n ≠ 0) : 10 ^ ((decimalDigits n).length - 1) ≤ n := by
  rcases Nat.eq_zero_or_pos ((decimalDigits n).length - 1) with one | more
  · rw [one]
    omega
  · by_contra less
    have fewer := (Nat.length_toDigits_le_iff (by decide) more).mpr (not_le.mp less)
    unfold decimalDigits at *
    omega

theorem length_decimalDigits {n count : Nat} (low : 10 ^ count ≤ n) (high : n < 10 ^ (count + 1)) :
    (decimalDigits n).length = count + 1 := by
  have above := (Nat.length_toDigits_le_iff (by decide) (Nat.succ_pos count)).mpr high
  refine le_antisymm above (not_lt.mp fun fewer => ?_)
  have less := (lt_pow_length_decimalDigits n).trans_le (Nat.pow_le_pow_right (by decide) (Nat.le_of_lt_succ fewer))
  omega

/-- The decimal exponent of a positive rational is that of its leading digit. -/
theorem decimalExponent_spec {q : Rat} (positive : 0 < q) :
    (10 : Rat) ^ decimalExponent q ≤ q ∧ q < (10 : Rat) ^ (decimalExponent q + 1) := by
  have numerator : q.num.natAbs ≠ 0 := Int.natAbs_ne_zero.mpr (Rat.num_ne_zero.mpr positive.ne')
  have digits : ∀ {n : Nat}, n ≠ 0 → 10 ^ ((decimalDigits n).length - 1) ≤ n ∧
      n < 10 ^ ((decimalDigits n).length - 1 + 1) := by
    intro n nonzero
    have some : 0 < (decimalDigits n).length := Nat.length_toDigits_pos
    rw [Nat.sub_add_cancel some]
    exact ⟨pow_length_decimalDigits_le nonzero, lt_pow_length_decimalDigits n⟩
  have bounds := leadingExponent_spec (by decide : 1 < 10) q.den_pos (digits numerator) (digits q.den_nz)
  rw [num_div_den_eq, abs_of_pos positive] at bounds
  exact_mod_cast bounds

namespace Decimal

variable {q : Rat} {multiple count : Nat} {exponent : Int}

/-- What a decimal of some digits stands for. -/
theorem value_ofMultiple (low : 10 ^ count ≤ multiple) (high : multiple ≤ 10 ^ (count + 1)) (exponent : Int) :
    (ofMultiple multiple (count + 1) exponent).value = (multiple : Rat) * (10 : Rat) ^ (exponent - count) := by
  unfold ofMultiple
  split
  · rename_i carried
    have exact : multiple = 10 ^ count * 10 := le_antisymm high carried
    have length : (decimalDigits (10 ^ count)).length = count + 1 :=
      length_decimalDigits le_rfl (Nat.pow_lt_pow_right (by decide) (Nat.lt_succ_self count))
    rw [value, exact, Nat.mul_div_cancel _ (by decide), length, basePow_eq]
    push_cast
    rw [mul_assoc, ← zpow_one_add₀ (by decide)]
    congr 2
    ring
  · rename_i fewer
    have length : (decimalDigits multiple).length = count + 1 := length_decimalDigits low (not_le.mp fewer)
    rw [value, length, basePow_eq]
    congr 2
    push_cast
    ring

theorem round_eq (q : Rat) (count : Nat) :
    round q (count + 1) =
      ofMultiple (unitCount 10 q (decimalExponent q - count)) (count + 1) (decimalExponent q) := by
  have shift : ((count + 1 : Nat) : Int) - 1 - decimalExponent q = -(decimalExponent q - count) := by
    push_cast
    ring
  unfold round scaled
  dsimp only
  rw [shift, neg_neg]
  rfl

/-- A positive rational differs from its decimal of some digits by half a unit of the last digit at most. -/
theorem round_error (positive : 0 < q) (count : Nat) :
    |(round q (count + 1)).value - q| ≤ (10 : Rat) ^ (decimalExponent q - count) / 2 := by
  obtain ⟨low, high⟩ := decimalExponent_spec positive
  have magnitude : |q| = q := abs_of_pos positive
  have power : ∀ n : Nat, ((10 ^ n : Nat) : Rat) * (10 : Nat) ^ (decimalExponent q - count) =
      (10 : Rat) ^ (decimalExponent q - count + n) := by
    intro n
    rw [zpow_add₀ (by decide), zpow_natCast, mul_comm]
    norm_cast
  have least : 10 ^ count ≤ unitCount 10 q (decimalExponent q - count) := by
    refine le_unitCount (by decide) ?_
    rw [power, magnitude, Int.sub_add_cancel]
    exact low
  have most : unitCount 10 q (decimalExponent q - count) ≤ 10 ^ (count + 1) := by
    refine unitCount_le (by decide) ?_
    rw [power, magnitude]
    refine high.le.trans_eq ?_
    congr 1
    push_cast
    ring
  have error := unitCount_error (by decide : 0 < 10) q (decimalExponent q - count)
  rw [magnitude] at error
  rw [round_eq, value_ofMultiple least most]
  exact_mod_cast error

end Decimal

namespace Double

variable {q value : Rat}

/-- Seventeen digits tell a double from the others. -/
theorem nearest_round (positive : 0 < q) (represented : IsRepresented q) :
    nearest (Decimal.round q 17).value = q := by
  refine nearest_eq_of_close represented ((Decimal.round_error positive 16).trans_lt ?_)
  have low := (decimalExponent_spec positive).1
  have unit : (10 : Rat) ^ (decimalExponent q - (16 : Nat)) = (10 : Rat) ^ decimalExponent q / 10 ^ 16 := by
    rw [zpow_sub₀ (by decide)]
    norm_cast
  rw [abs_of_pos positive, unit]
  linarith

/-- The shortest decimal of a positive double is read back as this double. -/
theorem value?_ofRat_shortest (positive : 0 < q) (represented : IsRepresented q)
    (inRange : |q| < (2 : Rat) ^ (1024 : Int)) : (ofRat (Decimal.shortest q).value).value? = some q := by
  have fewer : ∀ attempts count, attempts + count = 17 →
      (ofRat (Decimal.shortestFrom q count attempts).value).value? = some q := by
    intro attempts
    induction attempts with
    | zero =>
        rintro count total
        obtain rfl : count = 17 := by omega
        exact value?_ofRat_eq_some_iff.mpr ⟨nearest_round positive represented, inRange⟩
    | succ attempts ih =>
        intro count total
        unfold Decimal.shortestFrom
        split
        · rename_i decimal found
          have reads := List.find?_some found
          rw [of_decide_eq_true reads]
          rfl
        · exact ih (count + 1) (by omega)
  exact fewer 16 1 rfl

/-- What a double is written as by its shortest text is read back as this double. -/
theorem value?_ofRat_shortestValue {d : Double} (double : d.value? = some q) (represented : IsRepresented q)
    (inRange : |q| < (2 : Rat) ^ (1024 : Int)) :
    ∃ shortest, d.shortestValue? = some shortest ∧ (ofRat shortest).value? = some q := by
  cases d with
  | finite found =>
      cases double
      refine ⟨_, rfl, ?_⟩
      split
      · rename_i zero
        rw [Rat.num_eq_zero.mp zero]
        rfl
      · rename_i nonzero
        split
        · rename_i negative
          have reads := value?_ofRat_shortest (neg_pos.mpr negative) represented.neg (by rwa [abs_neg])
          rw [value?_ofRat_eq_some_iff] at reads ⊢
          exact ⟨by rw [nearest_neg, reads.1, neg_neg], inRange⟩
        · rename_i nonneg
          have positive : 0 < q := lt_of_le_of_ne (not_lt.mp nonneg) (Ne.symm (Rat.num_ne_zero.mp nonzero))
          exact value?_ofRat_shortest positive represented inRange
  | negativeZero =>
      cases double
      exact ⟨0, rfl, rfl⟩
  | infinite negative => cases double
  | nan => cases double

end Double

namespace Scalar

/-- The digits that a scalar keeps do not lead out of the range of doubles. -/
theorem isFinite_exact {q value : Rat} (inRange : (Double.ofRat q).value? = some value) :
    (exact q).isFinite = true := by
  obtain ⟨nearest, within⟩ := Double.value?_ofRat_eq_some_iff.mp inRange
  have finite : ∀ {other : Rat}, |Double.nearest other| < (2 : Rat) ^ (1024 : Int) →
      (Double.ofRat other).isFinite = true := fun bound => by
    rw [Double.isFinite, Double.value?_ofRat_eq_some_iff.mpr ⟨rfl, bound⟩]
    rfl
  refine finite ?_
  change |Double.nearest (round53 q)| < _
  by_cases zero : q = 0
  · subst zero
    rw [round53, roundToBits, if_pos (Rat.num_eq_zero.mpr rfl), Double.nearest_zero, abs_zero]
    positivity
  obtain ⟨_, high⟩ := binaryExponent_spec zero
  have rounded : round53 q = roundToUnit q (binaryExponent q - 52) := by
    rw [round53, roundToBits, if_neg (Rat.num_ne_zero.mpr zero)]
    congr 1
    push_cast
    ring
  rcases Int.le_total (-1074) (binaryExponent q - 52) with normal | subnormal
  · have same : round53 q = value := by
      rw [rounded, ← nearest, Double.nearest, Double.unitExponent, Int.max_eq_left normal]
    have represented : Double.IsRepresented value := nearest ▸ Double.isRepresented_nearest q
    rw [same, represented.nearest_eq]
    exact within
  · have small : |q| ≤ (2 : Rat) ^ (0 : Int) := high.le.trans (zpow_le_zpow_right₀ (by decide) (by omega))
    have bounded : |round53 q| ≤ (2 : Rat) ^ (0 : Int) := by
      rw [rounded]
      exact abs_roundToUnit_le (by omega) small
    exact (Double.abs_nearest_le (by decide) bounded).trans_lt (zpow_lt_zpow_right₀ (by decide) (by decide))

/-- Opposite numbers are in the range of doubles together. -/
theorem isFinite_neg {q : Rat} (finite : (exact q).isFinite = true) :
    (exact (-q)).isFinite = true := by
  have opposite : Double.nearest (round53 (-q)) = -Double.nearest (round53 q) := by
    rw [← Double.nearest_neg]
    congr 1
    by_cases zero : q = 0
    · subst zero
      simp [round53, roundToBits]
    · rw [round53, round53, roundToBits, roundToBits, if_neg (Rat.num_ne_zero.mpr zero),
        if_neg (Rat.num_ne_zero.mpr (neg_ne_zero.mpr zero)), ← roundToUnit_neg, binaryExponent_neg]
  obtain ⟨value, double⟩ := Option.isSome_iff_exists.mp finite
  obtain ⟨rfl, within⟩ := Double.value?_ofRat_eq_some_iff.mp double
  refine Option.isSome_iff_exists.mpr ⟨_, Double.value?_ofRat_eq_some_iff.mpr ⟨rfl, ?_⟩⟩
  change |Double.nearest (round53 (-q))| < _
  rwa [opposite, abs_neg]

end Scalar

end EquationText

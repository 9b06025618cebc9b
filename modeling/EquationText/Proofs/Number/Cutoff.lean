import EquationText.Proofs.Number.Nearest
import EquationText.Proofs.Number.Tolerance
import Mathlib.Order.WithBot

/-! # Comparing with the tolerance

A number is compared with the tolerance as the nearest double. The cutoff tells the doubles below a positive
tolerance from the others (`EquationText.Double.isBelow_cutoff_iff`), and rounding to a double takes no magnitude
below a double that it reaches (`EquationText.Scalar.le_size_toDouble`). So whatever counts as zero is below the
tolerance itself (`EquationText.Scalar.size_lt_of_isBelow`).
-/

namespace EquationText

namespace Double

/-- The magnitude of a double; that of an infinite one is larger than every rational. -/
def size (d : Double) : WithTop Rat :=
  match d.value? with
  | some value => ((|value| : Rat) : WithTop Rat)
  | none => ⊤

/-- Whether a double is above zero, and one of the values that doubles have. -/
inductive IsPositive : Double → Prop
  | finite {value : Rat} (positive : 0 < value) (double : ofRat value = finite value) : IsPositive (finite value)
  | infinite : IsPositive (infinite false)

instance : (d : Double) → Decidable d.IsPositive
  | finite value => decidable_of_iff (0 < value ∧ ofRat value = finite value)
      ⟨fun both => .finite both.1 both.2, fun | .finite positive double => ⟨positive, double⟩⟩
  | infinite false => .isTrue .infinite
  | infinite true | negativeZero | nan => .isFalse nofun

theorem size_ofRat_eq {q : Rat} (within : |nearest q| < (2 : Rat) ^ (1024 : Int)) :
    (ofRat q).size = ((|nearest q| : Rat) : WithTop Rat) := by
  rw [size, value?_ofRat_eq_some_iff.mpr ⟨rfl, within⟩]

theorem size_ofRat_eq_top {q : Rat} (beyond : (2 : Rat) ^ (1024 : Int) ≤ |nearest q|) : (ofRat q).size = ⊤ := by
  rw [size, value?_ofRat, if_pos beyond]

theorem le_size_ofRat (q : Rat) : ((|nearest q| : Rat) : WithTop Rat) ≤ (ofRat q).size := by
  rcases lt_or_ge |nearest q| ((2 : Rat) ^ (1024 : Int)) with within | beyond
  · rw [size_ofRat_eq within]
  · rw [size_ofRat_eq_top beyond]
    exact le_top

theorem size_finite_of_pos {value : Rat} (positive : 0 < value) : (finite value).size = (value : WithTop Rat) := by
  rw [size, ← abs_of_pos positive]
  simp [value?]

theorem isRepresented_of_ofRat_eq {value : Rat} (double : ofRat value = finite value) : IsRepresented value := by
  have found : (ofRat value).value? = some value := by rw [double, value?]
  exact (value?_ofRat_eq_some_iff.mp found).1 ▸ isRepresented_nearest value

/-! ## The doubles below a double -/

/-- The exponent of the distance from a positive double to the next one below. -/
def gapExponent (q : Rat) : Int :=
  if q = basePow 2 (unitExponent q + 52) && -1074 < unitExponent q then unitExponent q - 1 else unitExponent q

theorem cutoff_finite {value : Rat} (positive : 0 < value) :
    (finite value).cutoff = value - (2 : Rat) ^ (gapExponent value - 1) := by
  rw [← basePow_two]
  exact if_neg (not_le.mpr positive)

theorem two_zpow_sub_one (exponent : Int) : (2 : Rat) ^ (exponent - 1) = (2 : Rat) ^ exponent / 2 := by
  rw [zpow_sub₀ (by decide), zpow_one]

section Gap

variable {v t : Rat}

/-- A positive double as a multiple of its distance to the next one below: the multiple takes 53 digits, and is
not the least of these, unless the distance is the smallest one. -/
theorem IsRepresented.exists_gap_units (represented : IsRepresented t) (positive : 0 < t) :
    ∃ units : Int, t = units * (2 : Rat) ^ gapExponent t ∧ (gapExponent t = -1074 ∨ 2 ^ 52 < units) := by
  obtain ⟨n, e, rfl, lowest, fewer, digits⟩ := represented
  have unit : (0 : Rat) < (2 : Rat) ^ e := by positivity
  have counted : (0 : Rat) < n := (pos_iff_pos_of_mul_pos positive).mpr unit
  have counted : 0 < n := by exact_mod_cast counted
  rw [abs_of_pos counted] at fewer digits
  have high : (n : Rat) * (2 : Rat) ^ e < 2 ^ 53 * (2 : Rat) ^ e := by
    gcongr
    exact_mod_cast fewer
  have low : e = -1074 ∨ 2 ^ 52 * (2 : Rat) ^ e ≤ n * (2 : Rat) ^ e := by
    refine digits.imp_right fun full => ?_
    gcongr
    exact_mod_cast full
  have exponent : unitExponent (n * (2 : Rat) ^ e) = e := unitExponent_eq positive lowest high low
  have power : (n : Rat) * (2 : Rat) ^ e = basePow 2 (e + 52) ↔ n = 2 ^ 52 := by
    rw [basePow_two, show (2 : Rat) ^ (e + 52) = _ from two_zpow_add e 52, mul_left_inj' unit.ne']
    norm_cast
  simp only [gapExponent, exponent, power]
  by_cases atPower : n = 2 ^ 52 ∧ -1074 < e
  · rw [if_pos (by simp [atPower])]
    refine ⟨2 ^ 53, ?_, .inr (by decide)⟩
    rw [two_zpow_sub_one, atPower.1]
    push_cast
    ring
  · rw [if_neg (by simpa using atPower)]
    exact ⟨n, rfl, by omega⟩

/-- Two multiples of a unit are a unit apart. -/
theorem add_unit_le {a b exponent : Int} (less : (a : Rat) * (2 : Rat) ^ exponent < b * (2 : Rat) ^ exponent) :
    (a : Rat) * (2 : Rat) ^ exponent + (2 : Rat) ^ exponent ≤ b * (2 : Rat) ^ exponent := by
  have unit : (0 : Rat) < (2 : Rat) ^ exponent := by positivity
  have fewer : a < b := by exact_mod_cast lt_of_mul_lt_mul_right less unit.le
  have next : (a : Rat) + 1 ≤ b := by exact_mod_cast fewer
  calc (a : Rat) * (2 : Rat) ^ exponent + (2 : Rat) ^ exponent = (a + 1) * (2 : Rat) ^ exponent := by ring
    _ ≤ b * (2 : Rat) ^ exponent := by gcongr

/-- A double that is below a positive one is below it by the distance to the next one. -/
theorem IsRepresented.add_gap_le (represented : IsRepresented v) (bound : IsRepresented t) (less : |v| < t) :
    |v| + (2 : Rat) ^ gapExponent t ≤ t := by
  obtain ⟨units, multiple, digits⟩ := bound.exists_gap_units ((abs_nonneg v).trans_lt less)
  obtain ⟨m, f, rfl, lowest, fewer, _⟩ := represented
  generalize gapExponent t = g at *
  subst multiple
  have unit : (0 : Rat) < (2 : Rat) ^ f := by positivity
  have magnitude : |(m : Rat) * (2 : Rat) ^ f| = (|m| : Int) * (2 : Rat) ^ f := by
    rw [abs_mul, abs_of_pos unit, Int.cast_abs]
  rw [magnitude] at less ⊢
  rcases le_or_gt g f with coarse | fine
  · -- both are multiples of the distance
    obtain ⟨k, rfl⟩ := Int.le.dest coarse
    have multiple : ((|m| : Int) : Rat) * (2 : Rat) ^ (g + k) = ((|m| * 2 ^ k : Int) : Rat) * (2 : Rat) ^ g := by
      rw [two_zpow_add]
      push_cast
      ring
    rw [multiple] at less ⊢
    exact add_unit_le less
  · -- a finer double has too few digits to come close
    have more : (2 : Rat) ^ 52 + 1 ≤ units := by exact_mod_cast digits.resolve_left (by omega)
    calc ((|m| : Int) : Rat) * (2 : Rat) ^ f + (2 : Rat) ^ g
        ≤ 2 ^ 53 * (2 : Rat) ^ (g - 1) + (2 : Rat) ^ g := by
          gcongr
          · exact_mod_cast fewer.le
          · decide
          · omega
      _ = (2 ^ 52 + 1) * (2 : Rat) ^ g := by
          rw [two_zpow_sub_one]
          ring
      _ ≤ units * (2 : Rat) ^ g := by gcongr

/-- The cutoff lies between a positive double and those below it. -/
theorem IsRepresented.lt_cutoff_iff (represented : IsRepresented v) (bound : IsRepresented t) (positive : 0 < t) :
    |v| < (finite t).cutoff ↔ |v| < t := by
  have gap : (0 : Rat) < (2 : Rat) ^ gapExponent t := by positivity
  rw [cutoff_finite positive, two_zpow_sub_one]
  constructor
  · intro below
    linarith
  · intro less
    have := represented.add_gap_le bound less
    linarith

/-- What no double reaches is a power of two that the doubles below keep a distance from. -/
theorem IsRepresented.lt_rangeBound (represented : IsRepresented v) (within : |v| < (2 : Rat) ^ (1024 : Int)) :
    |v| < rangeBound := by
  have bound : IsRepresented (2 ^ (1024 : Int)) :=
    ⟨2 ^ 52, 972, (two_zpow_add 972 52).trans (by norm_num), by decide, by decide, .inr (by decide)⟩
  have same : rangeBound = (finite ((2 : Rat) ^ (1024 : Int))).cutoff := by decide +kernel
  rw [same, represented.lt_cutoff_iff bound (by positivity)]
  exact within

end Gap

/-! ## Positive tolerances -/

section Tolerance

variable {tolerance : Double} (positive : tolerance.IsPositive)
include positive

theorem IsPositive.cutoff_pos : 0 < tolerance.cutoff := by
  cases positive with
  | finite above double =>
      have zero : IsRepresented 0 := nearest_zero ▸ isRepresented_nearest 0
      have below := (zero.lt_cutoff_iff (isRepresented_of_ofRat_eq double) above).mpr
      rw [abs_zero] at below
      exact below above
  | infinite => decide +kernel

/-- A double counts as zero exactly if its magnitude is below the tolerance. -/
theorem IsPositive.isBelow_cutoff_iff {q : Rat} :
    (ofRat q).isBelow tolerance.cutoff = true ↔ (ofRat q).size < tolerance.size := by
  rw [isBelow_ofRat_iff]
  rcases le_or_gt ((2 : Rat) ^ (1024 : Int)) |nearest q| with beyond | within
  · rw [size_ofRat_eq_top beyond]
    exact iff_of_false (fun below => absurd below.1 (not_lt.mpr beyond)) not_top_lt
  · have represented := isRepresented_nearest q
    rw [size_ofRat_eq within, and_iff_right within]
    cases positive with
    | finite above double =>
        rw [represented.lt_cutoff_iff (isRepresented_of_ofRat_eq double) above, size_finite_of_pos above,
          WithTop.coe_lt_coe]
    | infinite => exact iff_of_true (represented.lt_rangeBound within) (WithTop.coe_lt_top _)

end Tolerance

/-! ## Rounding keeps what is reached -/

/-- A magnitude that reaches a double, rounded to so many digits or to the lowest place, reaches it still. -/
theorem IsRepresented.le_abs_roundToUnit {t q : Rat} {exponent : Int} (represented : IsRepresented t)
    (nonzero : q ≠ 0) (place : exponent = binaryExponent q - 52 ∨ exponent = -1074) (reached : |t| ≤ |q|) :
    |t| ≤ |roundToUnit q exponent| := by
  obtain ⟨m, e, rfl, lowest, fewer, _⟩ := represented
  have unit : (0 : Rat) < (2 : Rat) ^ e := by positivity
  have magnitude : |(m : Rat) * (2 : Rat) ^ e| = (m.natAbs : Rat) * (2 : Rat) ^ e := by
    rw [abs_mul, abs_of_pos unit, ← Int.cast_abs, Int.abs_eq_natAbs, Int.cast_natCast]
  rw [magnitude] at reached ⊢
  rcases le_or_gt exponent e with fine | coarse
  · exact units_le_abs_roundToUnit fine reached
  · -- with so large a unit the leading digit is beyond the digits of the double
    obtain rfl : exponent = binaryExponent q - 52 := place.resolve_right (by omega)
    have digits : m.natAbs ≤ 2 ^ 53 := by
      rw [Int.abs_eq_natAbs] at fewer
      omega
    refine le_trans ?_ (EquationText.le_abs_roundToUnit (by omega) (binaryExponent_spec nonzero).1)
    calc (m.natAbs : Rat) * (2 : Rat) ^ e ≤ ((2 ^ 53 : Nat) : Rat) * (2 : Rat) ^ e := by gcongr
      _ = (2 : Rat) ^ (e + (53 : Nat)) := (two_zpow_add e 53).symm
      _ ≤ (2 : Rat) ^ binaryExponent q := zpow_le_zpow_right₀ (by decide) (by omega)

theorem IsRepresented.le_abs_nearest {t q : Rat} (represented : IsRepresented t) (reached : |t| ≤ |q|) :
    |t| ≤ |nearest q| := by
  by_cases zero : q = 0
  · rwa [zero, nearest_zero, ← zero]
  · exact represented.le_abs_roundToUnit zero (by unfold unitExponent; omega) reached

theorem IsRepresented.le_abs_round53 {t q : Rat} (represented : IsRepresented t) (reached : |t| ≤ |q|) :
    |t| ≤ |Scalar.round53 q| := by
  by_cases zero : q = 0
  · rwa [zero, Scalar.round53, roundToBits, if_pos (Rat.num_eq_zero.mpr rfl), ← zero]
  · rw [Scalar.round53, roundToBits, if_neg (Rat.num_ne_zero.mpr zero)]
    exact represented.le_abs_roundToUnit zero (.inl (by push_cast; ring)) reached

end Double

/-! ## Scalars that count as zero -/

namespace Scalar

/-- The magnitude of what a scalar holds. -/
def size (a : Scalar) : WithTop Rat := ((|a.value| : Rat) : WithTop Rat)

/-- Whether the double that a scalar is compared as is below the tolerance only if the scalar is. -/
def IsComparedExactly (tolerance : Double) (a : Scalar) : Prop :=
  a.toDouble.size < tolerance.size ↔ a.size < tolerance.size

variable {tolerance : Double} {a : Scalar} (positive : tolerance.IsPositive)
include positive

theorem isBelow_cutoff_iff : a.toDouble.isBelow tolerance.cutoff = true ↔ a.toDouble.size < tolerance.size :=
  positive.isBelow_cutoff_iff

/-- A scalar that reaches the tolerance reaches it as a double. -/
theorem le_size_toDouble (reached : tolerance.size ≤ a.size) : tolerance.size ≤ a.toDouble.size := by
  cases positive with
  | @finite t above double =>
      have represented := Double.isRepresented_of_ofRat_eq double
      rw [Double.size_finite_of_pos above] at reached ⊢
      have reached : t ≤ |a.value| := WithTop.coe_le_coe.mp reached
      have rounded : t ≤ |Double.nearest (round53 a.value)| := by
        rw [← abs_of_pos above] at reached ⊢
        exact represented.le_abs_nearest (represented.le_abs_round53 reached)
      exact (WithTop.coe_le_coe.mpr rounded).trans (Double.le_size_ofRat _)
  | infinite => exact absurd reached (not_le.mpr (WithTop.coe_lt_top _))

/-- Whatever counts as zero is below the tolerance. -/
theorem size_lt_of_isBelow (below : a.toDouble.isBelow tolerance.cutoff = true) : a.size < tolerance.size :=
  not_le.mp fun reached =>
    absurd (le_size_toDouble positive reached) (not_le.mpr ((isBelow_cutoff_iff positive).mp below))

end Scalar

end EquationText

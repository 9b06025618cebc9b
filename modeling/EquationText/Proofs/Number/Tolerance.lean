import EquationText.Proofs.Number.Exact
import EquationText.Proofs.Number.Nearest

/-! # Numbers and the tolerance

A scalar is *clear* of the tolerance when it is zero or does not count as zero. Dropping what counts
as zero does not change a clear number (`EquationText.Number.toComplex_chop`), and the only clear
number that counts as zero is zero (`EquationText.Number.toComplex_eq_zero_of_isNegligible`). What is
left of a number after dropping has a positive magnitude unless it is zero
(`EquationText.Number.magnitude_chop_pos`), and nothing is left of one whose modulus counts as zero
(`EquationText.Number.chop_of_isNegligible`).
-/

namespace EquationText

namespace Double

theorem isBelow_of_square_lt {bound value rest : Rat} {d : Double} (positive : 0 < bound)
    (finite : d.value? = some value) (nonneg : 0 ≤ rest) (small : value * value + rest < bound * bound) :
    d.isBelow bound = true := by
  have square : value ^ 2 < bound ^ 2 := by
    rw [pow_two, pow_two]
    linarith
  rw [isBelow, finite]
  exact decide_eq_true (ratAbs_eq value ▸ abs_lt_of_sq_lt_sq square positive.le)

theorem le_abs_of_not_isBelow {bound value : Rat} {d : Double} (finite : d.value? = some value)
    (above : d.isBelow bound = false) : bound ≤ value.abs := by
  simpa [isBelow, finite] using above

theorem isBelow_of_value?_eq_none {bound : Rat} {d : Double} (beyond : d.value? = none) :
    d.isBelow bound = false := by
  simp [isBelow, beyond]

end Double

namespace Scalar

/-- Whether the scalar is zero or does not count as zero. -/
def IsClear (cutoff : Rat) (a : Scalar) : Prop :=
  a.value ≠ 0 → a.toDouble.isBelow cutoff = false

instance (cutoff : Rat) (a : Scalar) : Decidable (a.IsClear cutoff) :=
  inferInstanceAs (Decidable (_ → _))

theorem toDouble_of_value_eq_zero {a : Scalar} (vanishes : a.value = 0) :
    a.toDouble = .finite 0 := by
  simp [toDouble, vanishes, round53, roundToBits, Double.ofRat]

theorem chop_eq_self {cutoff : Rat} {a : Scalar} (above : a.toDouble.isBelow cutoff = false) :
    a.chop cutoff = a := by
  simp [chop, above]

theorem chop_eq_zero {cutoff : Rat} {a : Scalar} (below : a.toDouble.isBelow cutoff = true) :
    a.chop cutoff = zero := by
  simp [chop, below]

theorem value_chop {cutoff : Rat} {a : Scalar} (clear : a.IsClear cutoff) :
    (a.chop cutoff).value = a.value := by
  by_cases below : a.toDouble.isBelow cutoff = true
  · have vanishes : a.value = 0 := by
      by_contra nonzero
      rw [clear nonzero] at below
      cases below
    rw [chop_eq_zero below, value_zero, vanishes]
  · rw [chop_eq_self (Bool.eq_false_iff.mpr below)]

theorem isExact_chop {cutoff : Rat} {a : Scalar} (exact : a.isExact = true) :
    (a.chop cutoff).isExact = true := by
  by_cases below : a.toDouble.isBelow cutoff = true
  · rw [chop_eq_zero below]
    rfl
  · rw [chop_eq_self (Bool.eq_false_iff.mpr below)]
    exact exact

/-- Dropping makes no part of a number larger. -/
theorem square_chop_le {cutoff y : Rat} {a : Scalar}
    (found : (a.chop cutoff).toDouble.value? = some y) :
    ∃ x, a.toDouble.value? = some x ∧ y * y ≤ x * x := by
  by_cases below : a.toDouble.isBelow cutoff = true
  · rw [chop_eq_zero below, toDouble_of_value_eq_zero value_zero] at found
    cases found
    cases inside : a.toDouble.value? with
    | some x => exact ⟨x, rfl, by simpa using mul_self_nonneg x⟩
    | none =>
        rw [Double.isBelow_of_value?_eq_none inside] at below
        cases below
  · rw [chop_eq_self (Bool.eq_false_iff.mpr below)] at found
    exact ⟨y, found, le_rfl⟩

theorem isFinite_zero : zero.isFinite = true := by
  rw [isFinite, toDouble_of_value_eq_zero value_zero]
  rfl

theorem isFinite_chop {cutoff : Rat} {a : Scalar} (finite : a.isFinite = true) :
    (a.chop cutoff).isFinite = true := by
  by_cases below : a.toDouble.isBelow cutoff = true
  · rw [chop_eq_zero below]
    exact isFinite_zero
  · rw [chop_eq_self (Bool.eq_false_iff.mpr below)]
    exact finite

/-- What dropping leaves of a scalar is zero or has a positive magnitude. -/
theorem magnitude_chop_pos {cutoff : Rat} (positive : 0 < cutoff) {a : Scalar}
    (nonzero : (a.chop cutoff).value ≠ 0) : 0 < (a.chop cutoff).magnitude := by
  have above : a.toDouble.isBelow cutoff = false := by
    by_contra below
    exact nonzero (by rw [chop_eq_zero (Bool.not_eq_false _ ▸ below), value_zero])
  rw [chop_eq_self above]
  unfold magnitude
  split
  · rename_i value finite
    exact lt_of_lt_of_le positive (Double.le_abs_of_not_isBelow finite above)
  · decide +kernel

end Scalar

namespace Number

/-- Whether neither part of the number counts as zero without being zero. -/
def IsClear (cutoff : Rat) (a : Number) : Prop := a.re.IsClear cutoff ∧ a.im.IsClear cutoff

instance (cutoff : Rat) (a : Number) : Decidable (a.IsClear cutoff) :=
  inferInstanceAs (Decidable (_ ∧ _))

/-- Whether the parts of the number and its modulus are within the range of doubles. -/
def IsInRange (a : Number) : Prop := a.isFinite = true ∧ a.modulusOverflows = false

instance (a : Number) : Decidable a.IsInRange := inferInstanceAs (Decidable (_ ∧ _))

theorem toComplex_chop {cutoff : Rat} {a : Number} (clear : a.IsClear cutoff) :
    (a.chop cutoff).toComplex = a.toComplex := by
  simp only [toComplex, chop, Scalar.value_chop clear.1, Scalar.value_chop clear.2]

theorem isExact_chop {cutoff : Rat} {a : Number} (exact : a.isExact = true) :
    (a.chop cutoff).isExact = true := by
  obtain ⟨real, imaginary⟩ := (isExact_iff a).mp exact
  exact (isExact_iff _).mpr ⟨Scalar.isExact_chop real, Scalar.isExact_chop imaginary⟩

theorem doubleNormSq?_eq_some_iff {a : Number} {square : Rat} :
    a.doubleNormSq? = some square ↔ ∃ x y, a.re.toDouble.value? = some x ∧
      a.im.toDouble.value? = some y ∧ x * x + y * y = square := by
  unfold doubleNormSq?
  constructor
  · intro found
    split at found
    · rename_i x y real imaginary
      exact ⟨x, y, real, imaginary, Option.some.inj found⟩
    · cases found
  · rintro ⟨x, y, real, imaginary, rfl⟩
    rw [real, imaginary]

/-- A number whose modulus counts as zero has two parts that do. -/
theorem chop_of_isNegligible {cutoff : Rat} {a : Number} (negligible : a.isNegligible cutoff = true) :
    a.chop cutoff = zero := by
  simp only [isNegligible, Bool.and_eq_true, decide_eq_true_eq, Option.any_eq_true] at negligible
  obtain ⟨positive, square, found, small⟩ := negligible
  obtain ⟨x, y, real, imaginary, rfl⟩ := doubleNormSq?_eq_some_iff.mp found
  have first := Double.isBelow_of_square_lt positive real (mul_self_nonneg y) small
  have second := Double.isBelow_of_square_lt positive imaginary (mul_self_nonneg x) (by rwa [add_comm] at small)
  rw [chop, Scalar.chop_eq_zero first, Scalar.chop_eq_zero second]
  rfl

/-- The only clear number that counts as zero is zero. -/
theorem toComplex_eq_zero_of_isNegligible {cutoff : Rat} {a : Number} (clear : a.IsClear cutoff)
    (negligible : a.isNegligible cutoff = true) : a.toComplex = 0 := by
  rw [← toComplex_chop clear, chop_of_isNegligible negligible, toComplex_zero]

theorem doubleNormSq?_of_toComplex_eq_zero {a : Number} (vanishes : a.toComplex = 0) :
    a.doubleNormSq? = some 0 := by
  obtain ⟨real, imaginary⟩ := (toComplex_eq_zero_iff a).mp vanishes
  simp [doubleNormSq?, Scalar.toDouble_of_value_eq_zero real,
    Scalar.toDouble_of_value_eq_zero imaginary, Double.value?]

theorem isNegligible_of_toComplex_eq_zero {cutoff : Rat} (positive : 0 < cutoff) {a : Number}
    (vanishes : a.toComplex = 0) : a.isNegligible cutoff = true := by
  simp [isNegligible, doubleNormSq?_of_toComplex_eq_zero vanishes, positive,
    mul_pos positive positive]

theorem modulusOverflows_of_toComplex_eq_zero {a : Number} (vanishes : a.toComplex = 0) :
    a.modulusOverflows = false := by
  rw [modulusOverflows, doubleNormSq?_of_toComplex_eq_zero vanishes]
  decide +kernel

theorem isFinite_chop {cutoff : Rat} {a : Number} (finite : a.isFinite = true) :
    (a.chop cutoff).isFinite = true := by
  simp only [isFinite, Bool.and_eq_true] at finite ⊢
  exact ⟨Scalar.isFinite_chop finite.1, Scalar.isFinite_chop finite.2⟩

/-- The larger magnitude of the parts of what dropping leaves is positive, unless it is zero. -/
theorem magnitude_chop_pos {cutoff : Rat} (positive : 0 < cutoff) {a : Number}
    (nonzero : (a.chop cutoff).isZero = false) : 0 < (a.chop cutoff).magnitude := by
  have part : (a.re.chop cutoff).value ≠ 0 ∨ (a.im.chop cutoff).value ≠ 0 := by
    by_contra none
    push Not at none
    rw [(isZero_iff _).mpr ((toComplex_eq_zero_iff _).mpr none)] at nonzero
    cases nonzero
  unfold magnitude
  rcases part with real | imaginary
  · have large : 0 < (a.chop cutoff).re.magnitude := Scalar.magnitude_chop_pos positive real
    split
    · exact large.trans_le ‹_›
    · exact large
  · have large : 0 < (a.chop cutoff).im.magnitude := Scalar.magnitude_chop_pos positive imaginary
    split
    · exact large
    · exact large.trans (not_le.mp ‹_›)

/-- Dropping what counts as zero brings no modulus beyond the range of doubles. -/
theorem modulusOverflows_chop {cutoff : Rat} {a : Number} (within : a.modulusOverflows = false) :
    (a.chop cutoff).modulusOverflows = false := by
  by_contra beyond
  rw [Bool.not_eq_false, modulusOverflows, Option.any_eq_true] at beyond
  obtain ⟨square, found, large⟩ := beyond
  obtain ⟨x, y, real, imaginary, rfl⟩ := doubleNormSq?_eq_some_iff.mp found
  obtain ⟨u, realBefore, realSquare⟩ := Scalar.square_chop_le real
  obtain ⟨v, imaginaryBefore, imaginarySquare⟩ := Scalar.square_chop_le imaginary
  have before : a.modulusOverflows = true := by
    rw [modulusOverflows, Option.any_eq_true]
    refine ⟨u * u + v * v,
      doubleNormSq?_eq_some_iff.mpr ⟨u, v, realBefore, imaginaryBefore, rfl⟩, ?_⟩
    have bound := of_decide_eq_true large
    exact decide_eq_true (by linarith)
  rw [within] at before
  cases before

/-- What dropping leaves of a clear exact number is the number. -/
theorem chop_eq_self_of_isClear {cutoff : Rat} {a : Number} (exact : a.isExact = true)
    (clear : a.IsClear cutoff) : a.chop cutoff = a :=
  eq_of_toComplex_eq (isExact_chop exact) exact (toComplex_chop clear)

end Number

end EquationText

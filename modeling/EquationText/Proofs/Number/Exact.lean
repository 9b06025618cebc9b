import EquationText.Numeric.Number
import Mathlib.Analysis.Complex.Basic

/-! # Exact numbers as complex numbers

A number stands for the complex number whose parts are the rationals that its scalars hold
(`EquationText.Number.toComplex`). On exact numbers the four operations of arithmetic are those of
the complex numbers, and their results are exact again.
-/

namespace EquationText

namespace Scalar

theorem exact_of_isExact {a : Scalar} (exact : a.isExact = true) : a = .exact a.value := by
  cases a with
  | exact value => rfl
  | rounded value => cases exact

theorem isZero_iff (a : Scalar) : a.isZero = true ↔ a.value = 0 := by
  simp [isZero, Rat.num_eq_zero]

@[simp]
theorem value_zero : zero.value = 0 := rfl

@[simp]
theorem value_neg (a : Scalar) : a.neg.value = -a.value := by cases a <;> rfl

@[simp]
theorem isZero_neg (a : Scalar) : a.neg.isZero = a.isZero := by
  rw [Bool.eq_iff_iff, isZero_iff, isZero_iff, value_neg, neg_eq_zero]

@[simp]
theorem isExact_neg (a : Scalar) : a.neg.isExact = a.isExact := by cases a <;> rfl

section Exact

variable {a b : Scalar} (first : a.isExact = true) (second : b.isExact = true)
include first second

theorem isExact_add : (a.add b).isExact = true := by
  rw [exact_of_isExact first, exact_of_isExact second]
  rfl

theorem value_add : (a.add b).value = a.value + b.value := by
  rw [exact_of_isExact first, exact_of_isExact second]
  rfl

theorem isExact_mul : (a.mul b).isExact = true := by
  rw [exact_of_isExact first, exact_of_isExact second]
  rfl

theorem value_mul : (a.mul b).value = a.value * b.value := by
  rw [exact_of_isExact first, exact_of_isExact second]
  rfl

theorem isExact_sub : (a.sub b).isExact = true :=
  isExact_add first ((isExact_neg b).trans second)

theorem value_sub : (a.sub b).value = a.value - b.value := by
  rw [sub, value_add first ((isExact_neg b).trans second), value_neg, sub_eq_add_neg]

end Exact

theorem isExact_inv {a : Scalar} (exact : a.isExact = true) : a.inv.isExact = true := by
  rw [exact_of_isExact exact]
  rfl

theorem value_inv {a : Scalar} (exact : a.isExact = true) : a.inv.value = a.value⁻¹ := by
  rw [exact_of_isExact exact]
  rfl

section Quotient

variable {a b : Scalar} (first : a.isExact = true) (second : b.isExact = true)
include first second

theorem isExact_div : (a.div b).isExact = true := by
  rw [exact_of_isExact first]
  exact isExact_mul rfl (isExact_inv second)

theorem value_div : (a.div b).value = a.value / b.value := by
  rw [exact_of_isExact first, div, value_mul rfl (isExact_inv second), value_inv second, div_eq_mul_inv]

end Quotient

end Scalar

namespace Number

/-- The complex number that a number stands for. -/
noncomputable def toComplex (a : Number) : ℂ := ⟨(a.re.value : ℝ), (a.im.value : ℝ)⟩

theorem isExact_iff (a : Number) :
    a.isExact = true ↔ a.re.isExact = true ∧ a.im.isExact = true := by
  simp [isExact]

theorem toComplex_eq_zero_iff (a : Number) :
    a.toComplex = 0 ↔ a.re.value = 0 ∧ a.im.value = 0 := by
  simp [toComplex, Complex.ext_iff]

theorem isZero_iff (a : Number) : a.isZero = true ↔ a.toComplex = 0 := by
  rw [toComplex_eq_zero_iff, isZero, Bool.and_eq_true, Scalar.isZero_iff, Scalar.isZero_iff]

@[simp]
theorem toComplex_zero : zero.toComplex = 0 := (toComplex_eq_zero_iff zero).mpr ⟨rfl, rfl⟩

@[simp]
theorem toComplex_one : one.toComplex = 1 := by
  simp [toComplex, one, Scalar.one, Scalar.zero, Scalar.value, Complex.ext_iff]

@[simp]
theorem toComplex_imaginaryUnit : imaginaryUnit.toComplex = Complex.I := by
  simp [toComplex, imaginaryUnit, Scalar.one, Scalar.zero, Scalar.value, Complex.ext_iff]

@[simp]
theorem toComplex_ofRat (q : Rat) : (ofRat q).toComplex = (q : ℂ) := by
  simp [toComplex, ofRat, ofScalar, Scalar.zero, Scalar.value, Complex.ext_iff]

@[simp]
theorem toComplex_neg (a : Number) : a.neg.toComplex = -a.toComplex := by
  simp [toComplex, neg, Complex.ext_iff]

@[simp]
theorem isExact_neg (a : Number) : a.neg.isExact = a.isExact := by simp [isExact, neg]

@[simp]
theorem isZero_neg (a : Number) : a.neg.isZero = a.isZero := by
  rw [Bool.eq_iff_iff, isZero_iff, isZero_iff, toComplex_neg, neg_eq_zero]

/-- Two exact numbers that stand for the same complex number are equal. -/
theorem eq_of_toComplex_eq {a b : Number} (first : a.isExact = true) (second : b.isExact = true)
    (same : a.toComplex = b.toComplex) : a = b := by
  obtain ⟨firstRe, firstIm⟩ := (isExact_iff a).mp first
  obtain ⟨secondRe, secondIm⟩ := (isExact_iff b).mp second
  have reals : a.re.value = b.re.value := by
    have parts := congrArg Complex.re same
    simpa [toComplex] using parts
  have imaginaries : a.im.value = b.im.value := by
    have parts := congrArg Complex.im same
    simpa [toComplex] using parts
  cases a
  cases b
  simp only at *
  rw [Scalar.exact_of_isExact firstRe, Scalar.exact_of_isExact firstIm, reals, imaginaries,
    ← Scalar.exact_of_isExact secondRe, ← Scalar.exact_of_isExact secondIm]

section Exact

variable {a b : Number} (first : a.isExact = true) (second : b.isExact = true)
include first second

theorem isExact_add : (a.add b).isExact = true := by
  obtain ⟨firstRe, firstIm⟩ := (isExact_iff a).mp first
  obtain ⟨secondRe, secondIm⟩ := (isExact_iff b).mp second
  exact (isExact_iff _).mpr ⟨Scalar.isExact_add firstRe secondRe, Scalar.isExact_add firstIm secondIm⟩

theorem toComplex_add : (a.add b).toComplex = a.toComplex + b.toComplex := by
  obtain ⟨firstRe, firstIm⟩ := (isExact_iff a).mp first
  obtain ⟨secondRe, secondIm⟩ := (isExact_iff b).mp second
  simp [toComplex, add, Complex.ext_iff, Scalar.value_add firstRe secondRe,
    Scalar.value_add firstIm secondIm]

theorem isExact_mul : (a.mul b).isExact = true := by
  obtain ⟨firstRe, firstIm⟩ := (isExact_iff a).mp first
  obtain ⟨secondRe, secondIm⟩ := (isExact_iff b).mp second
  exact (isExact_iff _).mpr
    ⟨Scalar.isExact_sub (Scalar.isExact_mul firstRe secondRe) (Scalar.isExact_mul firstIm secondIm),
      Scalar.isExact_add (Scalar.isExact_mul firstRe secondIm)
        (Scalar.isExact_mul firstIm secondRe)⟩

theorem toComplex_mul : (a.mul b).toComplex = a.toComplex * b.toComplex := by
  obtain ⟨firstRe, firstIm⟩ := (isExact_iff a).mp first
  obtain ⟨secondRe, secondIm⟩ := (isExact_iff b).mp second
  have real : (a.mul b).re.value = a.re.value * b.re.value - a.im.value * b.im.value := by
    rw [mul, Scalar.value_sub (Scalar.isExact_mul firstRe secondRe)
      (Scalar.isExact_mul firstIm secondIm), Scalar.value_mul firstRe secondRe,
      Scalar.value_mul firstIm secondIm]
  have imaginary : (a.mul b).im.value = a.re.value * b.im.value + a.im.value * b.re.value := by
    rw [mul, Scalar.value_add (Scalar.isExact_mul firstRe secondIm)
      (Scalar.isExact_mul firstIm secondRe), Scalar.value_mul firstRe secondIm,
      Scalar.value_mul firstIm secondRe]
  simp [toComplex, Complex.ext_iff, real, imaginary]

end Exact

/-! ## Quotients -/

theorem inv_of_real {a : Number} (real : a.im.isZero = true) : a.inv = ofScalar a.re.inv := if_pos real

theorem inv_of_imaginary {a : Number} (nonreal : ¬ a.im.isZero = true) (imaginary : a.re.isZero = true) :
    a.inv = ⟨.zero, a.im.inv.neg⟩ := by
  rw [inv, if_neg nonreal, if_pos imaginary]

/-- The scale of a reciprocal: the reciprocal of the square of the modulus. -/
theorem scale_exact {a : Number} (exact : a.isExact = true) :
    (((a.re.mul a.re).add (a.im.mul a.im)).inv).isExact = true ∧
      (((a.re.mul a.re).add (a.im.mul a.im)).inv).value =
        (a.re.value * a.re.value + a.im.value * a.im.value)⁻¹ := by
  obtain ⟨real, imaginary⟩ := (isExact_iff a).mp exact
  have sum := Scalar.isExact_add (Scalar.isExact_mul real real)
    (Scalar.isExact_mul imaginary imaginary)
  refine ⟨Scalar.isExact_inv sum, ?_⟩
  rw [Scalar.value_inv sum, Scalar.value_add (Scalar.isExact_mul real real)
    (Scalar.isExact_mul imaginary imaginary), Scalar.value_mul real real,
    Scalar.value_mul imaginary imaginary]

theorem isExact_inv {a : Number} (exact : a.isExact = true) : a.inv.isExact = true := by
  obtain ⟨real, imaginary⟩ := (isExact_iff a).mp exact
  rw [isExact_iff, inv]
  split
  · exact ⟨Scalar.isExact_inv real, rfl⟩
  split
  · exact ⟨rfl, (Scalar.isExact_neg _).trans (Scalar.isExact_inv imaginary)⟩
  · have scale := (scale_exact exact).1
    exact ⟨Scalar.isExact_mul real scale,
      (Scalar.isExact_neg _).trans (Scalar.isExact_mul imaginary scale)⟩

/-- The real and the imaginary part of the reciprocal of an exact number, in whichever way it is found. -/
theorem value_inv {a : Number} (exact : a.isExact = true) :
    a.inv.re.value = a.re.value / (a.re.value * a.re.value + a.im.value * a.im.value) ∧
      a.inv.im.value = -a.im.value / (a.re.value * a.re.value + a.im.value * a.im.value) := by
  obtain ⟨re, im⟩ := (isExact_iff a).mp exact
  by_cases real : a.im.isZero = true
  · rw [inv_of_real real, (Scalar.isZero_iff _).mp real]
    simp [ofScalar, Scalar.value_inv re, div_self_mul_self']
  by_cases imaginary : a.re.isZero = true
  · rw [inv_of_imaginary real imaginary, (Scalar.isZero_iff _).mp imaginary]
    simp [Scalar.value_inv im, div_self_mul_self', neg_div]
  · obtain ⟨scaleExact, scaleValue⟩ := scale_exact exact
    rw [inv, if_neg real, if_neg imaginary, div_eq_mul_inv, div_eq_mul_inv, Scalar.value_neg,
      Scalar.value_mul re scaleExact, Scalar.value_mul im scaleExact, scaleValue, neg_mul]
    exact ⟨rfl, rfl⟩

theorem toComplex_inv {a : Number} (exact : a.isExact = true) :
    a.inv.toComplex = a.toComplex⁻¹ := by
  obtain ⟨real, imaginary⟩ := value_inv exact
  simp [toComplex, Complex.ext_iff, Complex.inv_re, Complex.inv_im, Complex.normSq_apply, real, imaginary]

section Quotient

variable {a b : Number} (first : a.isExact = true) (second : b.isExact = true)
include first second

theorem isExact_div : (a.div b).isExact = true := by
  obtain ⟨dividend, _⟩ := (isExact_iff a).mp first
  obtain ⟨divisor, _⟩ := (isExact_iff b).mp second
  rw [div]
  split
  · exact (isExact_iff _).mpr ⟨Scalar.isExact_div dividend divisor, rfl⟩
  · exact isExact_mul first (isExact_inv second)

theorem toComplex_div : (a.div b).toComplex = a.toComplex / b.toComplex := by
  obtain ⟨dividend, _⟩ := (isExact_iff a).mp first
  obtain ⟨divisor, _⟩ := (isExact_iff b).mp second
  rw [div]
  split
  · rename_i real
    rw [Bool.and_eq_true, Scalar.isZero_iff, Scalar.isZero_iff] at real
    have asReal : ∀ {c : Number}, c.im.value = 0 → c.toComplex = ((c.re.value : ℝ) : ℂ) := fun vanishes => by
      simp [toComplex, vanishes, Complex.ext_iff]
    rw [asReal real.1, asReal real.2, asReal rfl, ← Complex.ofReal_div, ofScalar,
      Scalar.value_div dividend divisor, Rat.cast_div]
  · rw [toComplex_mul first (isExact_inv second), toComplex_inv second, div_eq_mul_inv]

/-- The quotient of exact numbers is the product with the reciprocal, in whichever way it is found. -/
theorem div_eq_mul_inv_of_exact : a.div b = a.mul b.inv := by
  refine eq_of_toComplex_eq (isExact_div first second) (isExact_mul first (isExact_inv second)) ?_
  rw [toComplex_div first second, toComplex_mul first (isExact_inv second), toComplex_inv second, div_eq_mul_inv]

end Quotient

end Number

end EquationText

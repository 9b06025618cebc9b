import EquationText.Proofs.Number.Shortest
import EquationText.Proofs.Token.Figures

/-! # What printed numbers are read as

The text of a number is a numeral, with a sign in front for a negative number
(`EquationText.Double.exists_figures`). It is read as the shortest decimal of the double that is nearest to the
numeral, if this double is in range (`EquationText.exists_reading`).
-/

namespace EquationText

/-- The double that a printed number is read as: a sign changes the double of the numeral behind it. -/
def printedDouble (text : String) : Double :=
  if (splitSign text.toList).1 then (numeralValue (splitSign text.toList).2).neg
  else numeralValue (splitSign text.toList).2

/-- Whether a printed number is in the range of doubles when it is read. -/
def IsReadable (text : String) : Prop := (numeralValue (splitSign text.toList).2).isFinite = true

instance (text : String) : Decidable (IsReadable text) := inferInstanceAs (Decidable (_ = _))

/-- The rational that a printed number stands for: the shortest decimal of the double that it is read as. -/
def printedValue (text : String) : Rat :=
  let value := (numeralValue (splitSign text.toList).2).shortestValue?.getD 0
  if (splitSign text.toList).1 then -value else value

/-- Changing the sign of a double changes that of its value. -/
theorem Double.value?_neg {d : Double} {value : Rat} (double : d.value? = some value) :
    d.neg.value? = some (-value) := by
  cases d with
  | finite found =>
      cases double
      rw [Double.neg]
      split
      · rename_i zero
        rw [Rat.num_eq_zero.mp zero]
        rfl
      · rfl
  | negativeZero =>
      cases double
      rfl
  | infinite negative => cases double
  | nan => cases double

section Numerals

variable {figures : List Char} {text : String} {value : Rat}

/-- A numeral has no sign of its own, and a minus sign in front of it is found. -/
theorem IsNumeral.splitSign_eq (numeral : IsNumeral figures) :
    splitSign figures = (false, figures) ∧ splitSign ('-' :: figures) = (true, figures) := by
  obtain ⟨whole, fraction, exponent, rfl, nonempty, digits, _⟩ := numeral
  obtain ⟨first, rest, rfl⟩ := List.exists_cons_of_ne_nil nonempty
  have digit : isDecimalDigit first = true := digits first (List.mem_cons_self ..)
  refine ⟨?_, rfl⟩
  rw [List.cons_append]
  unfold splitSign
  split
  · rename_i same
    obtain ⟨rfl, _⟩ := List.cons.inj same
    exact absurd digit (by decide)
  · rename_i same
    obtain ⟨rfl, _⟩ := List.cons.inj same
    exact absurd digit (by decide)
  · rfl

/-- A double that digits with an exponent are read as, if it is in range, is the nearest to some rational. -/
theorem exists_ofDecimal_eq {digits : Nat} {exponent : Int}
    (finite : (Double.ofDecimal digits exponent).isFinite = true) :
    ∃ q, Double.ofDecimal digits exponent = Double.ofRat q := by
  unfold Double.ofDecimal at finite ⊢
  dsimp only at finite ⊢
  split
  · exact ⟨0, rfl⟩
  · rename_i nonzero
    rw [if_neg nonzero] at finite
    split
    · rename_i beyond
      rw [if_pos beyond] at finite
      cases finite
    · split
      · exact ⟨0, rfl⟩
      · exact ⟨_, rfl⟩

theorem exists_ofDecimal_of_readMagnitude? {d : Double} (read : readMagnitude? figures = some d) :
    ∃ digits exponent, d = Double.ofDecimal digits exponent := by
  unfold readMagnitude? at read
  dsimp only at read
  split at read <;>
    · split at read
      · cases read
      · obtain ⟨exponent, _, rfl⟩ := Option.map_eq_some_iff.mp read
        exact ⟨_, _, rfl⟩

/-- The double that a numeral is read as, if it is in range, is the nearest to some rational. -/
theorem exists_numeralValue_eq (finite : (numeralValue figures).isFinite = true) :
    ∃ q, numeralValue figures = Double.ofRat q := by
  unfold numeralValue at finite ⊢
  cases read : readMagnitude? (figures.map toAsciiDigit) with
  | none =>
      rw [read] at finite
      cases finite
  | some d =>
      obtain ⟨digits, exponent, rfl⟩ := exists_ofDecimal_of_readMagnitude? read
      rw [read] at finite
      exact exists_ofDecimal_eq finite

/-- A numeral is read as the shortest decimal of its double, which has the same nearest double. -/
theorem exists_reading (finite : (numeralValue figures).isFinite = true) :
    ∃ q, (numeralValue figures).shortestValue? = some q ∧ (Scalar.exact q).isFinite = true ∧
      (Double.ofRat q).value? = (numeralValue figures).value? := by
  obtain ⟨x, same⟩ := exists_numeralValue_eq finite
  rw [same] at finite ⊢
  obtain ⟨value, double⟩ := Option.isSome_iff_exists.mp finite
  obtain ⟨rfl, within⟩ := Double.value?_ofRat_eq_some_iff.mp double
  obtain ⟨q, shortest, reads⟩ :=
    Double.value?_ofRat_shortestValue double (Double.isRepresented_nearest x) within
  exact ⟨q, shortest, Scalar.isFinite_exact reads, reads.trans double.symm⟩

/-- The double nearest to the rational that a printed number stands for is the double that it is read as. -/
theorem value?_ofRat_printedValue (readable : IsReadable text) :
    (Double.ofRat (printedValue text)).value? = (printedDouble text).value? := by
  obtain ⟨q, shortest, _, reads⟩ := exists_reading readable
  obtain ⟨value, double⟩ := Option.isSome_iff_exists.mp (show (numeralValue _).value?.isSome = true from readable)
  rw [double] at reads
  rw [printedDouble, printedValue, shortest]
  cases (splitSign text.toList).1 with
  | false => exact reads.trans double.symm
  | true =>
      obtain ⟨nearest, within⟩ := Double.value?_ofRat_eq_some_iff.mp reads
      refine .trans ?_ (Double.value?_neg double).symm
      exact Double.value?_ofRat_eq_some_iff.mpr ⟨by rw [← nearest, ← Double.nearest_neg]; rfl, by rwa [abs_neg]⟩

end Numerals

namespace Double

/-- The text of a number other than zero is a numeral, with a sign in front if the number is negative. -/
theorem exists_figures (precision : Nat) {value : Rat} (positive : 0 < value) :
    ∃ figures, IsNumeral figures ∧ ((finite value).toGeneral precision).toList = figures ∧
      ((finite (-value)).toGeneral precision).toList = '-' :: figures := by
  let count : Nat := max precision 1
  refine ⟨_, Decimal.isNumeral_render ⟨count, false⟩ (.round value (min count maxSignificantDigits)), ?_, ?_⟩
  · rw [toGeneral, renderWith, if_neg (Rat.num_ne_zero.mpr positive.ne'), if_neg (not_lt.mpr positive.le),
      String.toList_ofList]
  · have negative : -value < 0 := neg_neg_of_pos positive
    rw [toGeneral, renderWith, if_neg (Rat.num_ne_zero.mpr negative.ne), if_pos negative, neg_neg,
      String.toList_ofList]

end Double

end EquationText

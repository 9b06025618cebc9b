import EquationText.Proofs.Form.Printing
import EquationText.Proofs.Number.Reading

/-! # What printed forms stand for

A printed number stands for the number with the values of its numerals as parts; a part that counts as zero prints
as zero, and an imaginary part that counts as the imaginary unit or its opposite prints without a numeral
(`EquationText.Style.printed`). A printed form stands for the form of its printed numbers
(`EquationText.Style.printedForm`).
-/

namespace EquationText

/-- The exact number with two rationals as parts. -/
def Number.ofParts (re im : Rat) : Number := ⟨.exact re, .exact im⟩

namespace Style

variable (style : Style)

/-- The text of a double that does not count as zero. -/
def figures (d : Double) : String := d.toGeneral style.precision.toNat

/-- What a real part is read as. -/
def realValue (d : Double) : Rat := if d.isBelow style.cutoff then 0 else printedValue (style.figures d)

/-- What an imaginary part is read as. -/
def imaginaryValue (d : Double) : Rat :=
  if d.isBelow style.cutoff then 0
  else if style.isNear 1 d then 1
  else if style.isNear (-1) d then -1
  else printedValue (style.figures d)

/-- The number that the text of a number is read as. -/
def printed (a : Number) : Number := .ofParts (style.realValue a.re.toDouble) (style.imaginaryValue a.im.toDouble)

/-- The numbers that are written in the text of a number. -/
def numerals (a : Number) : List String :=
  (if a.re.toDouble.isBelow style.cutoff then [] else [style.figures a.re.toDouble]) ++
    (if a.im.toDouble.isBelow style.cutoff || style.isNear 1 a.im.toDouble || style.isNear (-1) a.im.toDouble then []
      else [style.figures a.im.toDouble])

/-- Whether the numbers that are written in the text of a number are in the range of doubles when they are read. -/
def IsReadable (a : Number) : Prop := ∀ text ∈ style.numerals a, EquationText.IsReadable text

instance (a : Number) : Decidable (style.IsReadable a) :=
  inferInstanceAs (Decidable (∀ text ∈ style.numerals a, EquationText.IsReadable text))

/-- The unknowns and coefficients that are read from the texts of some terms. -/
def printedTerms : List (Unknown × Number) → List (Unknown × Number)
  | [] => []
  | (unknown, a) :: rest =>
    if a.isNegligible style.cutoff then printedTerms rest
    else (unknown, if a.isNearOne style.cutoff then .one else style.printed a) :: printedTerms rest

/-- The form that the text of a form is read as. -/
def printedForm (form : Form) : Form :=
  ⟨if form.constant.isNegligible style.cutoff then .zero else style.printed form.constant,
    (style.printedTerms form.terms).filter fun term => !term.2.isZero⟩

/-- Whether the numbers that are written in the text of a form are in range when they are read. -/
structure Reads (form : Form) : Prop where
  constant : form.constant.isNegligible style.cutoff = false → style.IsReadable form.constant
  terms : ∀ term ∈ form.terms, term.2.isNegligible style.cutoff = false → term.2.isNearOne style.cutoff = false →
    style.IsReadable term.2

/-- Printing keeps the order of the terms. -/
theorem printedTerms_ordered {terms : List (Unknown × Number)}
    (ordered : terms.Pairwise fun first second => first.1.before second.1 = true) :
    (style.printedTerms terms).Pairwise fun first second => first.1.before second.1 = true := by
  have kept : ((style.printedTerms terms).map Prod.fst).Sublist (terms.map Prod.fst) := by
    induction terms with
    | nil => exact .slnil
    | cons term rest ih =>
        have later := ih (List.pairwise_cons.mp ordered).2
        rw [printedTerms]
        split
        · exact later.cons _
        · exact later.cons_cons _
  rw [← List.pairwise_map (f := Prod.fst) (R := fun first second => Unknown.before first second = true)] at ordered ⊢
  exact ordered.sublist kept

variable {style} {d : Double} {value target : Rat}

theorem double_eq (printable : style.IsPrintable) (d : Double) :
    style.double d = .ok (if d.isBelow style.cutoff then "0" else style.figures d) := by
  unfold double
  split
  · rfl
  · rw [digits_of_isPrintable printable]
    rfl

theorem isNear_iff (double : d.value? = some value) : style.isNear target d = true ↔
    |Double.nearest (value - target)| < (2 : Rat) ^ (1024 : Int) ∧
      |Double.nearest (value - target)| < style.cutoff := by
  rw [isNear, double]
  exact Double.isBelow_ofRat_iff

theorem isNear_neg (double : d.value? = some value) : style.isNear 1 d.neg = style.isNear (-1) d := by
  have opposite : Double.nearest (-value - 1) = -Double.nearest (value - -1) := by
    rw [← Double.nearest_neg]
    congr 1
    ring
  rw [Bool.eq_iff_iff, isNear_iff (Double.value?_neg double), isNear_iff double, opposite, abs_neg]

/-- A double that differs from a rational by one at least is not near it. -/
theorem isNear_eq_false (small : style.cutoff ≤ 1) (double : d.value? = some value) (far : 1 ≤ |value - target|) :
    style.isNear target d = false := by
  rw [Bool.eq_false_iff, ne_eq, isNear_iff double]
  rintro ⟨_, close⟩
  have reached : (2 : Rat) ^ (0 : Int) ≤ |Double.nearest (value - target)| :=
    Double.le_abs_nearest (by decide) (by rwa [zpow_zero])
  rw [zpow_zero] at reached
  linarith

theorem isNear_one_of_neg (small : style.cutoff ≤ 1) (double : d.value? = some value) (negative : value < 0) :
    style.isNear 1 d = false := by
  refine isNear_eq_false small double ?_
  rw [abs_of_neg (by linarith)]
  linarith

theorem isNear_neg_one_of_nonneg (small : style.cutoff ≤ 1) (double : d.value? = some value) (nonneg : 0 ≤ value) :
    style.isNear (-1) d = false := by
  refine isNear_eq_false small double ?_
  rw [abs_of_nonneg (by linarith)]
  linarith

variable (style) in
theorem toList_figures_neg (positive : 0 < value) :
    (style.figures (.finite (-value))).toList = '-' :: (style.figures (.finite value)).toList := by
  obtain ⟨figures, _, text, opposite⟩ := Double.exists_figures style.precision.toNat positive
  exact opposite.trans (congrArg (List.cons '-') text.symm)

variable (style) in
/-- The texts of opposite numbers stand for opposite numbers. -/
theorem printedValue_neg (positive : 0 < value) :
    printedValue (style.figures (.finite (-value))) = -printedValue (style.figures (.finite value)) ∧
      (EquationText.IsReadable (style.figures (.finite (-value))) ↔
        EquationText.IsReadable (style.figures (.finite value))) := by
  obtain ⟨figures, numeral, text, _⟩ := Double.exists_figures style.precision.toNat positive
  have text : (style.figures (.finite value)).toList = figures := text
  have opposite := style.toList_figures_neg positive
  rw [text] at opposite
  constructor
  · simp only [printedValue, text, opposite, numeral.splitSign_eq]
    rfl
  · rw [EquationText.IsReadable, EquationText.IsReadable, text, opposite, numeral.splitSign_eq.1,
      numeral.splitSign_eq.2]

theorem isBelow_neg_finite {cutoff : Rat} (value : Rat) :
    (Double.finite (-value)).isBelow cutoff = (Double.finite value).isBelow cutoff := by
  simp [Double.isBelow, Double.value?, Double.ratAbs_eq]

theorem isNear_neg_finite (positive : 0 < value) :
    style.isNear (-1) (.finite (-value)) = style.isNear 1 (.finite value) := by
  have opposite : (Double.finite (-value)).neg = .finite value := by
    rw [Double.neg, if_neg (Rat.num_ne_zero.mpr (neg_ne_zero.mpr positive.ne')), neg_neg]
  rw [← isNear_neg rfl, opposite]

/-- Opposite imaginary parts are read as opposite numbers. -/
theorem imaginaryValue_neg (small : style.cutoff ≤ 1) (positive : 0 < value) :
    style.imaginaryValue (.finite (-value)) = -style.imaginaryValue (.finite value) := by
  have negative : -value < 0 := neg_neg_of_pos positive
  have first := isNear_one_of_neg (d := .finite (-value)) small rfl negative
  have second := isNear_neg_one_of_nonneg (d := .finite value) small rfl positive.le
  simp only [imaginaryValue, isBelow_neg_finite, first, second, isNear_neg_finite positive,
    (style.printedValue_neg positive).1, Bool.false_eq_true, ↓reduceIte]
  split
  · exact neg_zero.symm
  · cases style.isNear 1 (.finite value) <;> rfl

end Style

end EquationText

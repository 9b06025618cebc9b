import EquationText.Proofs.Form.Exact
import EquationText.Proofs.Form.Printed
import EquationText.Proofs.Solver.Stating

/-! # Reading printed forms

The text of a form is an expression again, and its value in a fresh solver is the form of the printed numbers
(`EquationText.Solver.states_form`).
-/

namespace EquationText

/-- The form of a number with two rationals as parts. -/
abbrev Form.ofParts (re im : Rat) : Form := .ofNumber (.ofParts re im)

namespace Form

variable {a b x y : Rat}

theorem isFinite_ofParts : (ofParts x y).isFinite = true ↔
    (Scalar.exact x).isFinite = true ∧ (Scalar.exact y).isFinite = true := by
  simp [isFinite, ofNumber, Number.ofParts, Number.isFinite]

theorem neg_ofParts : (ofParts x y).neg = ofParts (-x) (-y) := rfl

theorem add_ofParts : (ofParts a b).add (ofParts x y) = ofParts (a + x) (b + y) := by
  simp [add, addTerms, Number.ofParts, Number.add, Scalar.add, ofNumber]

theorem sub_ofParts : (ofParts a b).sub (ofParts x y) = ofParts (a - x) (b - y) := by
  rw [sub, neg_ofParts, add_ofParts, sub_eq_add_neg, sub_eq_add_neg]

/-- A real multiple of the imaginary unit. -/
theorem scale_imaginaryUnit : (ofParts 0 1).scale (.ofParts x 0) = ofParts 0 x := by
  simp [scale, scaleTerms, Number.ofParts, Number.mul, Scalar.mul, Scalar.sub, Scalar.add, Scalar.neg, ofNumber]

/-- A form with one term or none. -/
def single (unknown : Unknown) (a : Number) : Form := ⟨.zero, consTerm unknown a []⟩

theorem isFinite_single {unknown : Unknown} {a : Number} (finite : a.isFinite = true) :
    (single unknown a).isFinite = true := by
  have zero : Number.zero.isFinite = true := by decide +kernel
  unfold single consTerm
  split <;> simp [isFinite, zero, finite]

theorem consTerm_nil (unknown : Unknown) (a : Number) :
    consTerm unknown a [] = [(unknown, a)].filter fun term => !term.2.isZero := by
  cases zero : a.isZero <;> simp [consTerm, zero]

/-- A term after all others is added at the end. -/
theorem add_single {terms : List (Unknown × Number)} {unknown : Unknown}
    (least : ∀ term ∈ terms, term.1.before unknown = true) (a : Number) :
    (⟨.ofParts x y, terms⟩ : Form).add (single unknown a) =
      ⟨.ofParts x y, terms ++ [(unknown, a)].filter fun term => !term.2.isZero⟩ := by
  have constant : (Number.ofParts x y).add .zero = .ofParts x y := by
    simp [Number.ofParts, Number.add, Number.zero, Scalar.add, Scalar.zero]
  have appended : ∀ {rest : List (Unknown × Number)}, (∀ term ∈ rest, term.1.before unknown = true) →
      addTerms rest [(unknown, a)] = rest ++ [(unknown, a)] := by
    intro rest
    induction rest with
    | nil =>
        intro _
        rw [addTerms]
        rfl
    | cons term rest ih =>
        intro least
        obtain ⟨first, later⟩ := List.forall_mem_cons.mp least
        rw [addTerms, if_neg (Unknown.ne_of_before first), if_pos first, ih later]
        rfl
  have nothing : addTerms terms [] = terms := by cases terms <;> simp [addTerms]
  unfold single consTerm
  cases zero : a.isZero with
  | true => simp [add, constant, nothing, zero]
  | false => simp [add, constant, appended least, zero]

/-- A multiple of an unknown. -/
theorem scale_ofUnknown (unknown : Unknown) :
    (ofUnknown unknown).scale (.ofParts x y) = single unknown (.ofParts x y) := by
  simp [single, scale, scaleTerms, ofUnknown, Number.ofParts, Number.mul, Number.zero, Number.one, Scalar.zero,
    Scalar.one, Scalar.mul, Scalar.sub, Scalar.add, Scalar.neg]

end Form

/-- The parts of a text that are joined follow the first, each behind a plus sign. -/
theorem toList_intercalate (first : String) (others : List String) :
    (" + ".intercalate (first :: others)).toList =
      first.toList ++ others.flatMap fun text => ' ' :: '+' :: ' ' :: text.toList := by
  induction others generalizing first with
  | nil => simp
  | cons second rest ih =>
      rw [String.intercalate_cons_cons, String.toList_append, String.toList_append, ih, List.flatMap_cons,
        List.append_assoc]
      rfl

namespace Solver

open Form (ofParts)
open Style (double_eq)

variable {settings : Settings} {solver : Solver} {style : Style} {d re im : Double} {value x y : Rat}

section Parts

variable (usual : settings.HasUsualMarks) (printable : style.IsPrintable) (positive : 0 < style.cutoff)

include positive in
/-- A double that does not count as zero is a number other than zero. -/
theorem eq_finite_of_not_isBelow (double : d.value? = some value) (above : d.isBelow style.cutoff = false) :
    d = .finite value ∧ value ≠ 0 := by
  have nonzero : value ≠ 0 := by
    rintro rfl
    rw [Double.isBelow, double] at above
    exact absurd positive (by simpa using above)
  cases d with
  | finite found =>
      cases double
      exact ⟨rfl, nonzero⟩
  | negativeZero =>
      cases double
      exact absurd rfl nonzero
  | infinite negative => cases double
  | nan => cases double

include usual

theorem states_figures_of_pos (above : 0 < value) (readable : IsReadable (style.figures (.finite value))) :
    States settings solver .signed 1 (style.figures (.finite value)).toList
      (ofParts (printedValue (style.figures (.finite value))) 0) := by
  obtain ⟨figures, numeral, text, _⟩ := Double.exists_figures style.precision.toNat above
  change (style.figures (.finite value)).toList = _ at text
  rw [IsReadable, text, numeral.splitSign_eq.1] at readable
  obtain ⟨q, shortest, finite, _⟩ := exists_reading readable
  have printed : printedValue (style.figures (.finite value)) = q := by
    simp [printedValue, text, numeral.splitSign_eq.1, shortest]
  rw [text, printed]
  exact (States.number usual numeral.taken shortest finite).signed

/-- A printed real number states what it is read as. -/
theorem states_figures (nonzero : value ≠ 0) (readable : IsReadable (style.figures (.finite value))) :
    States settings solver .signed 2 (style.figures (.finite value)).toList
      (ofParts (printedValue (style.figures (.finite value))) 0) := by
  rcases lt_or_gt_of_ne nonzero with negative | above
  · obtain ⟨z, above, rfl⟩ : ∃ z, 0 < z ∧ value = -z := ⟨-value, neg_pos.mpr negative, (neg_neg value).symm⟩
    obtain ⟨printed, readableIff⟩ := style.printedValue_neg above
    have states : States settings solver .signed 1 _ _ := states_figures_of_pos usual above (readableIff.mp readable)
    have inRange : (ofParts (printedValue (style.figures (.finite z))) 0).neg.isFinite = true := by
      rw [Form.neg_ofParts, neg_zero, Form.isFinite_ofParts]
      exact ⟨Scalar.isFinite_neg (Form.isFinite_ofParts.mp states.1).1, Scalar.isFinite_zero⟩
    have opposite := states.minus usual inRange
    rwa [Form.neg_ofParts, neg_zero, ← printed, ← style.toList_figures_neg above] at opposite
  · exact (states_figures_of_pos usual above readable).mono (by decide)

section Parts

variable {left right : List Char} (real : States settings solver .signed 2 left (ofParts x 0))
  (imaginary : States settings solver .term 2 right (ofParts 0 y))
include real imaginary

omit usual in
/-- A number is in range if each of its parts is. -/
theorem isFinite_of_parts : (ofParts x y).isFinite = true :=
  Form.isFinite_ofParts.mpr ⟨(Form.isFinite_ofParts.mp real.1).1, (Form.isFinite_ofParts.mp imaginary.1).2⟩

/-- A real and an imaginary part are put together by a plus sign. -/
theorem states_sum_of_parts :
    States settings solver .expression 2 (left ++ ' ' :: '+' :: ' ' :: right) (ofParts x y) := by
  have whole : (ofParts x 0).add (ofParts 0 y) = ofParts x y := by rw [Form.add_ofParts, add_zero, zero_add]
  have finite := isFinite_of_parts real imaginary
  rw [← whole] at finite ⊢
  exact real.term.expression.sum usual imaginary finite

/-- Before the opposite of an imaginary part there is a minus sign. -/
theorem states_difference_of_parts :
    States settings solver .expression 2 (left ++ ' ' :: '-' :: ' ' :: right) (ofParts x (-y)) := by
  have whole : (ofParts x 0).sub (ofParts 0 y) = ofParts x (-y) := by rw [Form.sub_ofParts, sub_zero, zero_sub]
  have finite := Form.isFinite_ofParts.mp (isFinite_of_parts real imaginary)
  rw [← whole]
  refine real.term.expression.difference usual imaginary ?_
  rw [whole, Form.isFinite_ofParts]
  exact ⟨finite.1, Scalar.isFinite_neg finite.2⟩

end Parts

include printable positive

/-- A printed real part states what it is read as. -/
theorem states_double (double : d.value? = some value)
    (readable : d.isBelow style.cutoff = false → IsReadable (style.figures d)) :
    ∃ text, style.double d = .ok text ∧
      States settings solver .signed 2 text.toList (ofParts (style.realValue d) 0) := by
  refine ⟨_, double_eq printable d, ?_⟩
  rw [Style.realValue]
  cases below : d.isBelow style.cutoff with
  | true =>
      have states : States settings solver .signed 1 ['0'] (ofParts 0 0) :=
        (States.number usual (by decide) (by decide +kernel) Scalar.isFinite_zero).signed
      rw [if_pos rfl, if_pos rfl]
      exact states.mono (by decide)
  | false =>
      obtain ⟨rfl, nonzero⟩ := eq_finite_of_not_isBelow positive double below
      exact states_figures usual nonzero (readable below)

variable (unit : solver.formOf (.named imaginaryName) = .ofNumber .imaginaryUnit)
  (other : settings.anonymousWord ≠ imaginaryName)

omit printable positive in
include unit other in
/-- The imaginary unit is stated by its name. -/
theorem states_imaginaryUnit : States settings solver .primary 0 ['i'] (ofParts 0 1) := by
  have finite : (ofParts 0 1).isFinite = true := by decide +kernel
  exact .named usual (by decide) (Ne.symm other) unit finite

include unit other

/-- A printed multiple of the imaginary unit states what it is read as. -/
theorem states_imaginary (double : d.value? = some value)
    (readable : d.isBelow style.cutoff = false → style.isNear 1 d = false → IsReadable (style.figures d)) :
    ∃ text, style.imaginary d = .ok text ∧ States settings solver .term 2 text.toList
      (ofParts 0 (if style.isNear 1 d then 1 else style.realValue d)) := by
  have named := states_imaginaryUnit usual unit other
  unfold Style.imaginary
  cases near : style.isNear 1 d with
  | true =>
      refine ⟨"i", rfl, ?_⟩
      rw [if_pos rfl]
      exact (named.signed.mono (by decide)).term
  | false =>
      obtain ⟨text, ok, states⟩ := states_double usual printable positive double
        fun above => readable above near
      refine ⟨text ++ "*i", by rw [ok]; rfl, ?_⟩
      have finite : ((ofParts 0 1).scale (.ofParts (style.realValue d) 0)).isFinite = true := by
        rw [Form.scale_imaginaryUnit, Form.isFinite_ofParts]
        exact (Form.isFinite_ofParts.mp states.1).symm
      have product := states.term.times usual (named.signed.mono (by decide)) rfl finite
      rw [if_neg (by decide), ← Form.scale_imaginaryUnit, String.toList_append]
      exact product

/-- A printed imaginary part that stands alone states what it is read as. -/
theorem states_imaginary_alone (small : style.cutoff ≤ 1) (double : d.value? = some value)
    (above : d.isBelow style.cutoff = false)
    (readable : style.isNear 1 d = false → style.isNear (-1) d = false → IsReadable (style.figures d)) :
    ∃ text, (if style.isNear (-1) d then .ok "-i" else style.imaginary d) = .ok text ∧
      States settings solver .term 2 text.toList (ofParts 0 (style.imaginaryValue d)) := by
  cases opposite : style.isNear (-1) d with
  | true =>
      have negative : value < 0 := by
        by_contra nonneg
        rw [Style.isNear_neg_one_of_nonneg small double (not_lt.mp nonneg)] at opposite
        cases opposite
      have read : style.imaginaryValue d = -1 := by
        simp [Style.imaginaryValue, above, opposite, Style.isNear_one_of_neg small double negative]
      have finite : (ofParts 0 1).neg.isFinite = true := by decide +kernel
      have states := (states_imaginaryUnit usual unit other).signed.minus usual finite
      refine ⟨"-i", rfl, ?_⟩
      rw [read]
      exact states.term
  | false =>
      obtain ⟨text, ok, states⟩ := states_imaginary usual printable positive unit other double
        fun _ notOne => readable notOne opposite
      have read : style.imaginaryValue d = if style.isNear 1 d then 1 else style.realValue d := by
        simp [Style.imaginaryValue, Style.realValue, above, opposite]
      refine ⟨text, ok, ?_⟩
      rw [read]
      exact states

/-- A printed imaginary part above zero states what it is read as. -/
theorem states_imaginary_of_pos (small : style.cutoff ≤ 1) (above : 0 < y)
    (notBelow : (Double.finite y).isBelow style.cutoff = false)
    (readable : style.isNear 1 (.finite y) = false → IsReadable (style.figures (.finite y))) :
    ∃ text, style.imaginary (.finite y) = .ok text ∧
      States settings solver .term 2 text.toList (ofParts 0 (style.imaginaryValue (.finite y))) := by
  have notOpposite := Style.isNear_neg_one_of_nonneg (d := .finite y) small rfl above.le
  have alone := states_imaginary_alone usual printable positive unit other small (d := .finite y) rfl notBelow
    fun notOne _ => readable notOne
  rwa [if_neg (by rw [notOpposite]; decide)] at alone

/-- A printed number with two parts states what it is read as. -/
theorem states_parts (small : style.cutoff ≤ 1) (real : re.value? = some x) (imaginary : im.value? = some y)
    (notBelow : im.isBelow style.cutoff = false)
    (readableReal : re.isBelow style.cutoff = false → IsReadable (style.figures re))
    (readableImaginary : style.isNear 1 im = false → style.isNear (-1) im = false → IsReadable (style.figures im)) :
    ∃ text, (do
        let real ← style.double re
        if im.isNegative then
          let text ← style.imaginary im.neg
          return s!"{real} - {text}"
        else
          let text ← style.imaginary im
          return s!"{real} + {text}") = .ok text ∧
      States settings solver .expression 2 text.toList
        (ofParts (style.realValue re) (style.imaginaryValue im)) := by
  obtain ⟨first, realOk, realStates⟩ : ∃ text, style.double re = .ok text ∧
      States settings solver .signed 2 text.toList (ofParts (style.realValue re) 0) :=
    states_double usual printable positive real readableReal
  obtain ⟨rfl, nonzero⟩ := eq_finite_of_not_isBelow positive imaginary notBelow
  rw [realOk]
  rcases lt_or_gt_of_ne nonzero with negative | above
  · obtain ⟨z, above, rfl⟩ : ∃ z, 0 < z ∧ y = -z := ⟨-y, neg_pos.mpr negative, (neg_neg y).symm⟩
    have opposite : (Double.finite (-z)).neg = .finite z := by
      rw [Double.neg, if_neg (Rat.num_ne_zero.mpr (neg_ne_zero.mpr above.ne')), neg_neg]
    have isNegative : (Double.finite (-z)).isNegative = true := decide_eq_true negative
    rw [Style.isBelow_neg_finite] at notBelow
    rw [Style.isNear_neg_finite above, (style.printedValue_neg above).2] at readableImaginary
    obtain ⟨second, ok, states⟩ : ∃ text, style.imaginary (.finite z) = .ok text ∧
        States settings solver .term 2 text.toList (ofParts 0 (style.imaginaryValue (.finite z))) :=
      states_imaginary_of_pos usual printable positive unit other small above notBelow
        (readableImaginary (Style.isNear_one_of_neg small rfl negative))
    have difference := states_difference_of_parts usual realStates states
    rw [← Style.imaginaryValue_neg small above] at difference
    refine ⟨first ++ " - " ++ second, ?_, ?_⟩
    · simp only [isNegative, opposite, ok]
      rfl
    · rw [String.toList_append, String.toList_append, List.append_assoc]
      exact difference
  · obtain ⟨second, ok, states⟩ : ∃ text, style.imaginary (.finite y) = .ok text ∧
        States settings solver .term 2 text.toList (ofParts 0 (style.imaginaryValue (.finite y))) :=
      states_imaginary_of_pos usual printable positive unit other small above notBelow
        fun notOne => readableImaginary notOne (Style.isNear_neg_one_of_nonneg small rfl above.le)
    have notNegative : (Double.finite y).isNegative = false := decide_eq_false (not_lt.mpr above.le)
    refine ⟨first ++ " + " ++ second, ?_, ?_⟩
    · simp only [notNegative, ok]
      rfl
    · rw [String.toList_append, String.toList_append, List.append_assoc]
      exact states_sum_of_parts usual realStates states

/-- A printed number states what it is read as; with one part only it is a term. -/
theorem states_complex (small : style.cutoff ≤ 1) (real : re.value? = some x) (imaginary : im.value? = some y)
    (readableReal : re.isBelow style.cutoff = false → IsReadable (style.figures re))
    (readableImaginary : im.isBelow style.cutoff = false → style.isNear 1 im = false →
      style.isNear (-1) im = false → IsReadable (style.figures im)) :
    ∃ text, style.complex re im = .ok text ∧
      States settings solver (if re.isBelow style.cutoff || im.isBelow style.cutoff then .term else .expression) 2
        text.toList (ofParts (style.realValue re) (style.imaginaryValue im)) := by
  unfold Style.complex
  cases flat : im.isBelow style.cutoff with
  | true =>
      obtain ⟨text, ok, states⟩ := states_double usual printable positive real readableReal
      refine ⟨text, ok, ?_⟩
      rw [Bool.or_true, if_pos rfl, Style.imaginaryValue, if_pos flat]
      exact states.term
  | false =>
      rw [if_neg (by decide)]
      cases steep : re.isBelow style.cutoff with
      | true =>
          have vanishes : style.realValue re = 0 := if_pos steep
          rw [Bool.true_or, if_pos rfl, if_pos rfl, vanishes]
          exact states_imaginary_alone usual printable positive unit other small imaginary flat (readableImaginary flat)
      | false =>
          exact states_parts usual printable positive unit other small real imaginary flat readableReal
            (readableImaginary flat)

/-! ## Numbers and terms -/

variable {a : Number} {name : String}

theorem states_number (small : style.cutoff ≤ 1) (finite : a.isFinite = true) (readable : style.IsReadable a) :
    ∃ text, style.number a = .ok text ∧
      States settings solver
        (if a.re.toDouble.isBelow style.cutoff || a.im.toDouble.isBelow style.cutoff then .term else .expression) 2
        text.toList (.ofNumber (style.printed a)) := by
  obtain ⟨realFinite, imaginaryFinite⟩ := Bool.and_eq_true_iff.mp finite
  obtain ⟨x, real⟩ := Option.isSome_iff_exists.mp realFinite
  obtain ⟨y, imaginary⟩ := Option.isSome_iff_exists.mp imaginaryFinite
  refine states_complex usual printable positive unit other small real imaginary (fun above => ?_)
    fun above notOne notOpposite => ?_
  · exact readable _ (List.mem_append_left _ (by simp [above]))
  · exact readable _ (List.mem_append_right _ (by simp [above, notOne, notOpposite]))

/-- A printed number is an expression that states what it is read as. -/
theorem states_number_expression (small : style.cutoff ≤ 1) (finite : a.isFinite = true)
    (readable : style.IsReadable a) :
    ∃ text, style.number a = .ok text ∧
      States settings solver .expression 3 text.toList (.ofNumber (style.printed a)) := by
  obtain ⟨text, ok, states⟩ := states_number usual printable positive unit other small finite readable
  refine ⟨text, ok, ?_⟩
  split at states
  · exact states.expression.mono (by decide)
  · exact states.mono (by decide)

/-- A coefficient states what it is read as, and can be multiplied. -/
theorem states_coefficient (small : style.cutoff ≤ 1) (finite : a.isFinite = true)
    (readable : style.IsReadable a) :
    ∃ text, style.coefficient a = .ok text ∧
      States settings solver .term 3 text.toList (.ofNumber (style.printed a)) := by
  obtain ⟨text, ok, states⟩ : ∃ text, style.number a = .ok text ∧
      States settings solver
        (if a.re.toDouble.isBelow style.cutoff || a.im.toDouble.isBelow style.cutoff then .term else .expression) 2
        text.toList (.ofNumber (style.printed a)) :=
    states_number usual printable positive unit other small finite readable
  rw [Style.coefficient, ok]
  cases onePart : a.re.toDouble.isBelow style.cutoff || a.im.toDouble.isBelow style.cutoff with
  | true =>
      rw [onePart, if_pos rfl] at states
      exact ⟨text, rfl, states.mono (by decide)⟩
  | false =>
      rw [onePart, if_neg (by decide)] at states
      refine ⟨"(" ++ text ++ ")", rfl, ?_⟩
      rw [String.toList_append, String.toList_append]
      exact (states.parenthesised usual).signed.term

/-- A term that is printed states the multiple of its unknown by what its coefficient is read as. -/
theorem states_term (small : style.cutoff ≤ 1) (isName : isName name.toList = true)
    (notAnonymous : name ≠ settings.anonymousWord)
    (free : solver.formOf (.named name) = .ofUnknown (.named name)) (inRange : a.IsInRange)
    (shown : a.isNegligible style.cutoff = false)
    (readable : a.isNearOne style.cutoff = false → style.IsReadable a) :
    ∃ text, style.term name a = .ok (some text) ∧
      States settings solver .term 3 text.toList
        (.single (.named name) (if a.isNearOne style.cutoff then .one else style.printed a)) := by
  have oneFinite : Number.one.isFinite = true := by decide +kernel
  have named : States settings solver .primary 0 name.toList (.ofUnknown (.named name)) := by
    refine .named usual isName ?_ ?_ (Form.isFinite_single oneFinite)
    · rwa [String.ofList_toList]
    · rw [String.ofList_toList, free]
  rw [Style.term, if_neg (by rw [inRange.2]; decide), if_neg (by rw [shown]; decide)]
  cases near : a.isNearOne style.cutoff with
  | true =>
      refine ⟨name, rfl, ?_⟩
      exact (named.signed.mono (by decide)).term
  | false =>
      obtain ⟨text, ok, states⟩ : ∃ text, style.coefficient a = .ok text ∧
          States settings solver .term 3 text.toList (.ofNumber (style.printed a)) :=
        states_coefficient usual printable positive unit other small inRange.1 (readable near)
      refine ⟨text ++ "*" ++ name, by rw [ok]; rfl, ?_⟩
      have scaled : (Form.ofUnknown (.named name)).scale (style.printed a) =
          .single (.named name) (style.printed a) := Form.scale_ofUnknown _
      have finite : ((Form.ofUnknown (.named name)).scale (style.printed a)).isFinite = true := by
        rw [scaled]
        exact Form.isFinite_single (by simpa [Form.ofNumber, Form.isFinite] using states.1)
      have product := states.times usual (named.signed.mono (by decide)) rfl finite
      rw [String.toList_append, String.toList_append, List.append_assoc, if_neg (by decide), ← scaled]
      exact product

/-! ## Forms -/

variable {form : Form} {terms : List (Unknown × Number)}

/-- The terms of a form state the multiples that they are read as. -/
theorem states_terms (small : style.cutoff ≤ 1)
    (names : ∀ term ∈ terms, ∃ name, term.1 = .named name ∧ isName name.toList = true ∧
      name ≠ settings.anonymousWord ∧ solver.formOf (.named name) = .ofUnknown (.named name))
    (inRange : ∀ term ∈ terms, term.2.IsInRange)
    (readable : ∀ term ∈ terms, term.2.isNegligible style.cutoff = false → term.2.isNearOne style.cutoff = false →
      style.IsReadable term.2) :
    ∃ texts, style.terms settings.anonymousWord terms = .ok texts ∧
      List.Forall₂ (fun text entry => States settings solver .term 3 text.toList (.single entry.1 entry.2)) texts
        (style.printedTerms terms) := by
  induction terms with
  | nil => exact ⟨[], rfl, .nil⟩
  | cons term rest ih =>
      obtain ⟨unknown, a⟩ := term
      obtain ⟨⟨name, same, isName, notAnonymous, free⟩, laterNames⟩ := List.forall_mem_cons.mp names
      obtain ⟨firstInRange, laterInRange⟩ := List.forall_mem_cons.mp inRange
      obtain ⟨firstReadable, laterReadable⟩ := List.forall_mem_cons.mp readable
      obtain ⟨texts, ok, states⟩ := ih laterNames laterInRange laterReadable
      cases same
      rw [Style.terms, Style.printedTerms, ok]
      cases shown : a.isNegligible style.cutoff with
      | true =>
          have nothing : style.term name a = .ok none := by
            rw [Style.term, if_neg (by rw [firstInRange.2]; decide), if_pos shown]
          refine ⟨texts, ?_, states⟩
          rw [Unknown.text, nothing]
          rfl
      | false =>
          obtain ⟨text, termOk, termStates⟩ := states_term usual printable positive unit other small isName
            notAnonymous free firstInRange shown (firstReadable shown)
          refine ⟨text :: texts, ?_, .cons termStates states⟩
          rw [Unknown.text, termOk]
          rfl

omit printable positive unit other in
/-- Forms with one term each add up to their terms in order. -/
theorem states_joined {cs : List Char} {texts : List String} {entries before : List (Unknown × Number)} {x y : Rat}
    (first : States settings solver .expression 3 cs ⟨.ofParts x y, before⟩)
    (others : List.Forall₂ (fun text entry => States settings solver .term 3 text.toList (.single entry.1 entry.2))
      texts entries)
    (ordered : (before ++ entries).Pairwise fun first second => first.1.before second.1 = true) :
    States settings solver .expression 3 (cs ++ texts.flatMap fun text => ' ' :: '+' :: ' ' :: text.toList)
      ⟨.ofParts x y, before ++ entries.filter fun term => !term.2.isZero⟩ := by
  induction others generalizing cs before with
  | nil => simpa using first
  | @cons text entry texts entries states _ ih =>
      obtain ⟨unknown, a⟩ := entry
      have least : ∀ term ∈ before, term.1.before unknown = true := fun term member =>
        (List.pairwise_append.mp ordered).2.2 term member _ (List.mem_cons_self ..)
      have added := Form.add_single (x := x) (y := y) least a
      have finite : ((⟨.ofParts x y, before⟩ : Form).add (.single unknown a)).isFinite = true := by
        rw [added]
        have firstFinite := first.1
        have singleFinite := states.1
        simp only [Form.isFinite, Bool.and_eq_true, List.all_append] at firstFinite ⊢
        refine ⟨firstFinite.1, firstFinite.2, ?_⟩
        cases zero : a.isZero with
        | true => simp [zero]
        | false =>
            simp only [Form.single, Form.consTerm, zero, Form.isFinite, Bool.and_eq_true] at singleFinite
            simpa [zero] using singleFinite.2
      have sum := first.sum usual states finite
      rw [added] at sum
      have kept : (before ++ [(unknown, a)].filter (fun term => !term.2.isZero) ++ entries).Sublist
          (before ++ (unknown, a) :: entries) := by
        rw [List.append_assoc]
        exact ((List.filter_sublist (l := [(unknown, a)])).append (List.Sublist.refl entries)).append_left before
      have rest := ih sum (ordered.sublist kept)
      have entriesKept : ((unknown, a) :: entries).filter (fun term => !term.2.isZero) =
          [(unknown, a)].filter (fun term => !term.2.isZero) ++ entries.filter fun term => !term.2.isZero :=
        List.filter_append [(unknown, a)] entries
      rw [List.flatMap_cons, ← List.append_assoc, entriesKept, ← List.append_assoc]
      exact rest

end Parts

end Solver

/-- Whether a form has numbers in the range of doubles only and terms of named unknowns, in order, that expressions
can mention. -/
structure Form.IsPlain (settings : Settings) (form : Form) : Prop where
  constant : form.constant.IsInRange
  coefficients : ∀ term ∈ form.terms, term.2.IsInRange
  names : ∀ term ∈ form.terms, ∃ name, term.1 = .named name ∧ isName name.toList = true ∧
    name ≠ Solver.imaginaryName ∧ name ≠ settings.anonymousWord
  ordered : form.terms.Pairwise fun first second => first.1.before second.1 = true

namespace Solver

section Forms

variable {settings : Settings} {solver : Solver} {style : Style} {form : Form}
  (usual : settings.HasUsualMarks) (printable : style.IsPrintable) (positive : 0 < style.cutoff)
  (unit : solver.formOf (.named imaginaryName) = .ofNumber .imaginaryUnit)
  (other : settings.anonymousWord ≠ imaginaryName)
include usual printable positive unit other

/-- The text of a form states what it is read as. -/
theorem states_form (small : style.cutoff ≤ 1) (plain : form.IsPlain settings)
    (free : ∀ name, name ≠ imaginaryName → solver.formOf (.named name) = .ofUnknown (.named name))
    (reads : style.Reads form) :
    ∃ text, style.form settings.anonymousWord form = .ok text ∧
      States settings solver .expression 3 text.toList (style.printedForm form) := by
  have names : ∀ term ∈ form.terms, ∃ name, term.1 = .named name ∧ isName name.toList = true ∧
      name ≠ settings.anonymousWord ∧ solver.formOf (.named name) = .ofUnknown (.named name) := by
    intro term member
    obtain ⟨name, same, isName, notUnit, notAnonymous⟩ := plain.names term member
    exact ⟨name, same, isName, notAnonymous, free name notUnit⟩
  obtain ⟨texts, ok, states⟩ := states_terms usual printable positive unit other small names plain.coefficients
    reads.terms
  have ordered := style.printedTerms_ordered plain.ordered
  rw [Style.form, ok, Style.printedForm]
  cases shown : form.constant.isNegligible style.cutoff with
  | true =>
      have nothing : style.constant form.constant = .ok none := by
        rw [Style.constant, if_neg (by rw [plain.constant.2]; decide), if_pos shown]
      rw [nothing, if_pos rfl]
      generalize style.printedTerms form.terms = entries at states ordered
      cases states with
      | nil =>
          have zero : States settings solver .expression 1 ['0'] (Form.ofParts 0 0) :=
            (States.number usual (by decide) (by decide +kernel) Scalar.isFinite_zero).signed.term.expression
          exact ⟨"0", rfl, zero.mono (by decide)⟩
      | @cons first entry rest entries firstStates restStates =>
          refine ⟨_, rfl, ?_⟩
          have start : States settings solver .expression 3 first.toList
              ⟨.ofParts 0 0, [entry].filter fun term => !term.2.isZero⟩ := by
            rw [← Form.consTerm_nil]
            exact firstStates.expression
          have kept : ([entry].filter (fun term => !term.2.isZero) ++ entries).Sublist (entry :: entries) :=
            (List.filter_sublist (l := [entry])).append (List.Sublist.refl entries)
          have joined := states_joined usual start restStates (ordered.sublist kept)
          rw [← List.filter_append] at joined
          change States settings solver .expression 3 (" + ".intercalate (first :: rest)).toList _
          rw [toList_intercalate]
          exact joined
  | false =>
      obtain ⟨text, numberOk, start⟩ := states_number_expression usual printable positive unit other small
        plain.constant.1 (reads.constant shown)
      have written : style.constant form.constant = .ok (some text) := by
        rw [Style.constant, if_neg (by rw [plain.constant.2]; decide), if_neg (by rw [shown]; decide), numberOk]
        rfl
      have joined := states_joined usual start states ordered
      refine ⟨_, by rw [written]; rfl, ?_⟩
      rw [if_neg (by decide)]
      change States settings solver .expression 3 (" + ".intercalate (text :: texts)).toList _
      rw [toList_intercalate]
      exact joined

end Forms

end Solver

end EquationText

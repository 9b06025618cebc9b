import EquationText.Numeric.Decimal
import EquationText.Token.Numeral
import Mathlib.Data.List.TakeWhile

/-! # The texts of decimals are numerals

Digits with an optional point and further digits and an optional exponent are a numeral as a whole
(`EquationText.IsNumeral.taken`), and decimals are laid out in this way
(`EquationText.Decimal.isNumeral_render`).
-/

namespace EquationText

/-- Whether all of some characters are decimal digits. -/
def AreDigits (cs : List Char) : Prop := ∀ c ∈ cs, isDecimalDigit c = true

/-- Whether a text consists of digits, with a point and more digits or without, and with an exponent or without. -/
def IsNumeral (cs : List Char) : Prop :=
  ∃ whole fraction exponent, cs = whole ++ (fraction ++ exponent) ∧ whole ≠ [] ∧ AreDigits whole ∧
    (fraction = [] ∨ ∃ digits, fraction = '.' :: digits ∧ AreDigits digits) ∧
    (exponent = [] ∨ ∃ sign digits, exponent = 'e' :: sign :: digits ∧ (sign = '+' ∨ sign = '-') ∧ digits ≠ [] ∧
      AreDigits digits)

section Taking

variable {digits rest : List Char}

theorem AreDigits.takeWhile_append (areDigits : AreDigits digits)
    (stops : rest.head?.all fun c => !isDecimalDigit c) :
    (digits ++ rest).takeWhile isDecimalDigit = digits ∧ (digits ++ rest).dropWhile isDecimalDigit = rest := by
  have nothing : rest.takeWhile isDecimalDigit = [] ∧ rest.dropWhile isDecimalDigit = rest := by
    cases rest with
    | nil => exact ⟨rfl, rfl⟩
    | cons c tail =>
        have other : ¬ isDecimalDigit c = true := by simpa using stops
        exact ⟨List.takeWhile_cons_of_neg other, List.dropWhile_cons_of_neg other⟩
  rw [List.takeWhile_append_of_pos areDigits, List.dropWhile_append_of_pos areDigits, nothing.1, nothing.2,
    List.append_nil]
  exact ⟨rfl, rfl⟩

/-- A text of this form is a numeral as a whole. -/
theorem IsNumeral.taken {cs : List Char} (numeral : IsNumeral cs) : takeNumeral cs = some (cs, []) := by
  obtain ⟨whole, fraction, exponent, rfl, nonempty, wholeDigits, fractions, exponents⟩ := numeral
  have stops : exponent.head?.all fun c => !isDecimalDigit c := by
    rcases exponents with rfl | ⟨sign, digits, rfl, _⟩ <;> rfl
  have mantissa : takeMantissa (whole ++ (fraction ++ exponent)) = some (whole ++ fraction, exponent) := by
    obtain ⟨digit, digits, rfl⟩ := List.exists_cons_of_ne_nil nonempty
    rcases fractions with rfl | ⟨others, rfl, fractionDigits⟩
    · obtain ⟨taken, dropped⟩ := wholeDigits.takeWhile_append stops
      rw [List.nil_append, List.append_nil, takeMantissa, taken, dropped]
      rcases exponents with rfl | ⟨sign, digits, rfl, _⟩ <;> rfl
    · obtain ⟨taken, dropped⟩ := wholeDigits.takeWhile_append (show ('.' :: (others ++ exponent)).head?.all _ from rfl)
      obtain ⟨tailTaken, tailDropped⟩ := fractionDigits.takeWhile_append stops
      have text : '.' :: others ++ exponent = '.' :: (others ++ exponent) := rfl
      rw [text, takeMantissa, taken, dropped]
      simp only [tailTaken, tailDropped]
  have ending : takeExponent exponent = (exponent, []) := by
    rcases exponents with rfl | ⟨sign, digits, rfl, sign, some, exponentDigits⟩
    · rfl
    · obtain ⟨taken, dropped⟩ := exponentDigits.takeWhile_append (show [].head?.all _ from rfl)
      obtain ⟨first, others, rfl⟩ := List.exists_cons_of_ne_nil some
      have digit : isDecimalDigit first = true := exponentDigits first (List.mem_cons_self ..)
      rw [List.append_nil] at taken dropped
      rcases sign with rfl | rfl <;> simp [takeExponent, takeSign, digit, taken, dropped]
  rw [takeNumeral, mantissa]
  dsimp only
  rw [ending, List.append_assoc]

end Taking

/-! ## The layout of decimals -/

theorem isDecimalDigit_of_isDigit {c : Char} (digit : c.isDigit = true) : isDecimalDigit c = true := by
  have ascii : isAscii c = true := by
    simp only [Char.isDigit, Bool.and_eq_true, decide_eq_true_eq, UInt32.le_iff_toNat_le] at digit
    exact decide_eq_true (Nat.lt_of_le_of_lt digit.2 (by decide))
  rw [isDecimalDigit, decimalDigit?, if_pos ascii, if_pos digit]
  rfl

theorem areDigits_decimalDigits (n : Nat) : AreDigits (decimalDigits n) := fun _ member =>
  isDecimalDigit_of_isDigit (Nat.isDigit_of_mem_toDigits (by decide) (by decide) member)

theorem areDigits_replicate (count : Nat) : AreDigits (List.replicate count '0') := by
  intro c member
  rw [List.eq_of_mem_replicate member]
  decide

theorem AreDigits.append {first second : List Char} (left : AreDigits first) (right : AreDigits second) :
    AreDigits (first ++ second) := List.forall_mem_append.mpr ⟨left, right⟩

namespace Decimal

theorem areDigits_significant (d : Decimal) : d.significant ≠ [] ∧ AreDigits d.significant := by
  unfold significant
  split
  · exact ⟨List.cons_ne_nil _ _, areDigits_replicate 1⟩
  · rename_i kept some
    refine ⟨some, fun c member => areDigits_decimalDigits d.digits c ?_⟩
    have inside := (List.dropWhile_sublist _).subset (List.mem_reverse.mp member)
    exact List.mem_reverse.mp inside

theorem exists_exponentText (exponent : Int) :
    ∃ sign digits, exponentText exponent = sign :: digits ∧ (sign = '+' ∨ sign = '-') ∧ digits ≠ [] ∧
      AreDigits digits := by
  refine ⟨_, _, rfl, ?_, ?_, (areDigits_replicate _).append (areDigits_decimalDigits _)⟩
  · split
    · exact .inr rfl
    · exact .inl rfl
  · exact fun empty => Nat.toDigits_ne_nil (List.append_eq_nil_iff.mp empty).2

/-- The text of a decimal is a numeral. -/
theorem isNumeral_render (layout : Layout) (d : Decimal) : IsNumeral (d.render layout) := by
  obtain ⟨some, digits⟩ := d.areDigits_significant
  obtain ⟨sign, exponentDigits, text, signs⟩ := exists_exponentText d.exponent
  have one : AreDigits ['0'] := areDigits_replicate 1
  unfold render
  dsimp only
  split
  · split
    · exact ⟨['0'], _, [], by rw [List.append_nil]; rfl, List.cons_ne_nil _ _, one,
        .inr ⟨_, rfl, (areDigits_replicate _).append digits⟩, .inl rfl⟩
    · split
      · refine ⟨_, _, [], by rw [List.append_nil], by simp [some], digits.append (areDigits_replicate _), ?_, .inl rfl⟩
        split
        · exact .inr ⟨_, rfl, one⟩
        · exact .inl rfl
      · refine ⟨_, _, [], by rw [List.append_nil], by simp [some], ?_, .inr ⟨_, rfl, ?_⟩, .inl rfl⟩
        · exact fun c member => digits c (List.mem_of_mem_take member)
        · exact fun c member => digits c (List.mem_of_mem_drop member)
  · rw [text]
    cases kept : d.significant with
    | nil => exact (some kept).elim
    | cons digit rest =>
        rw [kept] at digits
        have first : AreDigits [digit] := List.forall_mem_singleton.mpr (digits digit (List.mem_cons_self ..))
        cases rest with
        | nil => exact ⟨[digit], [], _, rfl, List.cons_ne_nil _ _, first, .inl rfl, .inr ⟨_, _, rfl, signs⟩⟩
        | cons next others =>
            exact ⟨[digit], _, _, rfl, List.cons_ne_nil _ _, first,
              .inr ⟨_, rfl, fun c member => digits c (List.mem_cons_of_mem _ member)⟩, .inr ⟨_, _, rfl, signs⟩⟩

end Decimal

end EquationText

import EquationText.Proofs.Token.Region
import Mathlib.Data.List.Basic

/-! # The references of a literal text

A reference stands in a literal text wherever a longest name continues no word and follows no number sign, and
it has a suffix for a part of the value exactly when one comes next (`EquationText.IsReference`). The pieces of
the text are its references, in their order, and the words between them (`EquationText.pieces_reads`): there is
a piece for each reference, and for nothing else (`EquationText.mem_pieces_iff`).
-/

namespace EquationText

/-! ## What a reference is -/

/-- Whether a reference may stand after a text. -/
def AllowsReference (before : List Char) : Prop := ∀ c ∈ before.getLast?, isNameChar c = false ∧ c ≠ '#'

/-- Whether a text goes on with no character of names. -/
def EndsName (after : List Char) : Prop := ∀ c ∈ after.head?, isNameChar c = false

/-- Whether a text starts with a suffix for the real or the imaginary part that no name character follows. -/
def StartsPart (after : List Char) : Prop :=
  ∃ part rest, after = '#' :: part :: rest ∧ (part = 'r' ∨ part = 'i') ∧ EndsName rest

/-- Whether what stands between two texts is a reference: a longest name, and the suffix for a part of the
value if there is one. -/
inductive IsReference (before : List Char) : List Char → List Char → Prop
  | whole {name after : List Char} (allowed : AllowsReference before) (holds : isName name = true)
    (ends : EndsName after) (noPart : ¬ StartsPart after) : IsReference before name after
  | part {name after : List Char} {part : Char} (allowed : AllowsReference before) (holds : isName name = true)
    (isPart : part = 'r' ∨ part = 'i') (ends : EndsName after) :
    IsReference before (name ++ ['#', part]) after

variable {before name other after later rest cs : List Char} {c : Char}

theorem allowsReference_iff : allowsReference before.getLast? = true ↔ AllowsReference before := by
  unfold AllowsReference allowsReference
  cases before.getLast? with
  | none => simp
  | some c => simp

/-! ## Taking a reference -/

theorem takePartSuffix_of_startsPart {part : Char} (isPart : part = 'r' ∨ part = 'i') (ends : EndsName rest) :
    takePartSuffix ('#' :: part :: rest) = (['#', part], rest) := by
  have plain : rest.head?.any isNameChar = false := by
    cases rest with
    | nil => rfl
    | cons c tail => exact ends c rfl
  have suffix : (decide (part = 'r') || decide (part = 'i')) = true := by simpa using isPart
  simp [takePartSuffix, plain, suffix]

theorem takePartSuffix_of_not_startsPart (noPart : ¬ StartsPart cs) : takePartSuffix cs = ([], cs) := by
  unfold takePartSuffix
  split
  · rename_i part rest
    split
    · rename_i suffix
      simp only [Bool.and_eq_true, Bool.or_eq_true, decide_eq_true_eq, Bool.not_eq_true',
        Option.any_eq_false] at suffix
      exact (noPart ⟨part, rest, rfl, suffix.1, fun c head => by simpa using suffix.2 c head⟩).elim
    · rfl
  · rfl

theorem endsName_dropWhile (cs : List Char) : EndsName (cs.dropWhile isNameChar) := by
  intro c head
  have stops := List.head?_dropWhile_not isNameChar cs
  rw [Option.mem_def.mp head] at stops
  exact stops

/-- What is taken at a place that allows it is a reference. -/
theorem takeReference_isReference (allowed : AllowsReference before) (begins : isNameStart c = true)
    (rest : List Char) : IsReference before (takeReference c rest).1 (takeReference c rest).2 := by
  have holds : isName (c :: rest.takeWhile isNameChar) = true := by
    simp only [isName, begins, Bool.true_and, List.all_eq_true]
    exact fun d member => List.mem_takeWhile_imp member
  have ends := endsName_dropWhile rest
  unfold takeReference
  by_cases startsPart : StartsPart (rest.dropWhile isNameChar)
  · obtain ⟨part, more, same, isPart, endsAfter⟩ := startsPart
    rw [same, takePartSuffix_of_startsPart isPart endsAfter]
    exact .part allowed holds isPart endsAfter
  · simp only [takePartSuffix_of_not_startsPart startsPart, List.append_nil]
    exact .whole allowed holds ends startsPart

/-- A name before other characters is taken as a whole. -/
theorem takeWhile_name (chars : ∀ d ∈ name, isNameChar d = true) (ends : EndsName after) :
    (name ++ after).takeWhile isNameChar = name ∧ (name ++ after).dropWhile isNameChar = after := by
  have stops : after.takeWhile isNameChar = [] ∧ after.dropWhile isNameChar = after := by
    cases after with
    | nil => exact ⟨rfl, rfl⟩
    | cons d tail =>
        have plain : ¬ isNameChar d = true := by simp [ends d rfl]
        exact ⟨List.takeWhile_cons_of_neg plain, List.dropWhile_cons_of_neg plain⟩
  rw [List.takeWhile_append_of_pos chars, List.dropWhile_append_of_pos chars, stops.1, stops.2, List.append_nil]
  exact ⟨rfl, rfl⟩

namespace IsReference

/-- A reference is what is taken where it stands. -/
theorem exists_takeReference (isReference : IsReference before name after) :
    AllowsReference before ∧ ∃ c rest, name ++ after = c :: rest ∧ isNameStart c = true ∧
      takeReference c rest = (name, after) := by
  have taken : ∀ {word follows : List Char}, isName word = true → EndsName follows →
      ∃ c tail, word = c :: tail ∧ isNameStart c = true ∧ takeReference c (tail ++ follows) =
        (word ++ (takePartSuffix follows).1, (takePartSuffix follows).2) := by
    intro word follows holds ends
    cases word with
    | nil => cases holds
    | cons c tail =>
        simp only [isName, Bool.and_eq_true, List.all_eq_true] at holds
        obtain ⟨takes, leaves⟩ := takeWhile_name holds.2 ends
        exact ⟨c, tail, rfl, holds.1, by rw [takeReference, takes, leaves]⟩
  cases isReference with
  | whole allowed holds ends noPart =>
      obtain ⟨c, tail, rfl, begins, same⟩ := taken holds ends
      rw [takePartSuffix_of_not_startsPart noPart, List.append_nil] at same
      exact ⟨allowed, c, tail ++ after, rfl, begins, same⟩
  | @part word _ part allowed holds isPart ends =>
      have stops : EndsName ('#' :: part :: after) := by
        intro d head
        cases head
        rfl
      obtain ⟨c, tail, rfl, begins, same⟩ := taken holds stops
      rw [takePartSuffix_of_startsPart isPart ends] at same
      exact ⟨allowed, c, tail ++ '#' :: part :: after, by simp, begins, same⟩

theorem ne_nil (isReference : IsReference before name after) : name ≠ [] := by
  cases isReference with
  | whole _ holds =>
      intro none
      rw [none] at holds
      cases holds
  | part => simp

/-- There is one reference at a place at most. -/
theorem unique (isReference : IsReference before name after) (another : IsReference before other later)
    (same : name ++ after = other ++ later) : name = other ∧ after = later := by
  obtain ⟨_, c, rest, whole, _, taken⟩ := isReference.exists_takeReference
  obtain ⟨_, d, tail, same', _, taken'⟩ := another.exists_takeReference
  rw [same, same'] at whole
  cases whole
  exact Prod.mk.inj (taken.symm.trans taken')

/-- No reference stands behind a character of a reference. -/
theorem not_allows (isReference : IsReference before name after) {first second : List Char}
    (split : name = first ++ second) (some : first ≠ []) : ¬ AllowsReference (before ++ first) := by
  have chars : ∀ d ∈ name, isNameChar d = true ∨ d = '#' := by
    cases isReference with
    | whole _ holds => exact fun d member => .inl (isNameChar_of_isName holds d member)
    | part _ holds isPart =>
        intro d member
        simp only [List.mem_append, List.mem_cons, List.not_mem_nil, or_false] at member
        rcases member with word | sign | suffix
        · exact .inl (isNameChar_of_isName holds d word)
        · exact .inr sign
        · subst suffix
          rcases isPart with rfl | rfl <;> exact .inl rfl
  obtain ⟨front, last, rfl⟩ : ∃ front last, first = front ++ [last] :=
    ⟨_, _, (List.dropLast_append_getLast some).symm⟩
  intro allowed
  obtain ⟨noChar, noSign⟩ := allowed last (by simp)
  rcases chars last (by simp [split]) with char | sign
  · rw [noChar] at char
    cases char
  · exact noSign sign

end IsReference

/-! ## Reading pieces -/

/-- The characters of some pieces. -/
def charsOf (pieces : List Piece) : List Char := pieces.flatMap Piece.chars

/-- Whether a piece is one of words. -/
def Piece.isWords : Piece → Bool
  | words _ => true
  | reference _ => false

/-- Whether no reference starts at a character of some words, with a text after them. -/
def NoneStarts (before words rest : List Char) : Prop :=
  ∀ passed name later, words ++ rest = passed ++ (name ++ later) → passed.length < words.length →
    ¬ IsReference (before ++ passed) name later

/-- Whether some pieces are those of a text that comes after the text `before`: its references, and between
them words at whose characters no reference starts. -/
inductive Reads : List Char → List Piece → Prop
  | done (before : List Char) : Reads before []
  | words {before raw : List Char} {pieces : List Piece} (some : raw ≠ [])
    (none : NoneStarts before raw (charsOf pieces))
    (alone : ∀ piece ∈ pieces.head?, piece.isWords = false)
    (others : Reads (before ++ raw) pieces) : Reads before (.words raw :: pieces)
  | reference {before name : List Char} {pieces : List Piece}
    (isReference : IsReference before name (charsOf pieces)) (others : Reads (before ++ name) pieces) :
    Reads before (.reference name :: pieces)

theorem charsOf_cons (piece : Piece) (pieces : List Piece) :
    charsOf (piece :: pieces) = piece.chars ++ charsOf pieces := rfl

theorem NoneStarts.nil (before rest : List Char) : NoneStarts before [] rest :=
  fun passed _ _ _ shorter => (Nat.not_lt_zero passed.length shorter).elim

/-- Words may grow by a character that starts no reference. -/
theorem NoneStarts.snoc {words : List Char} (none : NoneStarts before words (c :: rest))
    (other : ¬ (isNameStart c && allowsReference (before ++ words).getLast?) = true) :
    NoneStarts before (words ++ [c]) rest := by
  intro passed name later whole shorter isReference
  have same : words ++ c :: rest = passed ++ (name ++ later) := by simpa using whole
  rcases Nat.lt_or_ge passed.length words.length with inside | further
  · exact none passed name later same inside isReference
  · have length : words.length = passed.length := by simp at shorter; omega
    obtain ⟨rfl, next⟩ := List.append_inj same length
    obtain ⟨allowed, d, tail, starts, begins, _⟩ := isReference.exists_takeReference
    cases next.trans starts
    exact other (Bool.and_eq_true_iff.mpr ⟨begins, allowsReference_iff.mpr allowed⟩)

theorem collectWords_reverse (pending : List Char) (found : List Piece) :
    (collectWords pending found).reverse =
      found.reverse ++ (if pending = [] then [] else [.words pending.reverse]) := by
  unfold collectWords
  by_cases none : pending = []
  · simp [none]
  · simp [none]

/-- Collected words are read before pieces that start with none. -/
theorem reads_collected {pending : List Char} {pieces : List Piece}
    (none : NoneStarts before pending.reverse (charsOf pieces))
    (alone : ∀ piece ∈ pieces.head?, piece.isWords = false) (others : Reads (before ++ pending.reverse) pieces) :
    Reads before ((if pending = [] then [] else [.words pending.reverse]) ++ pieces) ∧
      charsOf ((if pending = [] then [] else [.words pending.reverse]) ++ pieces) =
        pending.reverse ++ charsOf pieces := by
  by_cases empty : pending = []
  · subst empty
    exact ⟨by simpa using others, by simp⟩
  · rw [if_neg empty]
    exact ⟨.words (by simpa using empty) none alone others, rfl⟩

/-- The search for references reads the text from any character on, if no reference starts in what is pending there.
The induction follows the search. -/
theorem piecesFrom_reads (previous : Option Char) (pending : List Char) (found : List Piece)
    (cs before : List Char) (place : previous = (before ++ pending.reverse).getLast?)
    (none : NoneStarts before pending.reverse cs) :
    ∃ pieces, piecesFrom previous pending found cs = found.reverse ++ pieces ∧
      charsOf pieces = pending.reverse ++ cs ∧ Reads before pieces := by
  fun_induction piecesFrom previous pending found cs generalizing before with
  | case1 previous pending found =>
      obtain ⟨reads, chars⟩ := reads_collected none (by simp) (.done _)
      exact ⟨_, by rw [collectWords_reverse, List.append_nil], chars, reads⟩
  | case2 previous pending found c rest begins reference ih =>
      obtain ⟨starts, allows⟩ := Bool.and_eq_true_iff.mp begins
      rw [place] at allows
      have isReference := takeReference_isReference (allowsReference_iff.mp allows) starts rest
      have whole := (takeReference_append starts rest).1
      obtain ⟨pieces, same, chars, reads⟩ := ih (before ++ pending.reverse ++ reference.1)
        (by rw [List.reverse_nil, List.append_nil, List.getLast?_append_of_ne_nil _ isReference.ne_nil])
        (.nil _ _)
      rw [List.reverse_nil, List.nil_append] at chars
      have next : charsOf (.reference reference.1 :: pieces) = c :: rest := by
        rw [charsOf_cons, chars]
        exact whole
      rw [← chars] at isReference
      obtain ⟨all, together⟩ := reads_collected (next ▸ none) (by simp [Piece.isWords])
        (.reference isReference reads)
      refine ⟨_, ?_, together.trans (by rw [next]), all⟩
      rw [same, List.reverse_cons, collectWords_reverse, List.append_assoc, List.append_assoc]
      rfl
  | case3 previous pending found c rest other ih =>
      obtain ⟨pieces, same, chars, reads⟩ := ih before (by simp) (by
        rw [List.reverse_cons]
        rw [place] at other
        exact none.snoc other)
      exact ⟨pieces, same, by rw [chars, List.reverse_cons, List.append_assoc]; rfl, reads⟩

/-- The pieces of a literal text are its references and the words between them. -/
theorem pieces_reads (cs : List Char) : charsOf (pieces cs) = cs ∧ Reads [] (pieces cs) := by
  obtain ⟨found, same, chars, reads⟩ := piecesFrom_reads none [] [] cs [] rfl (.nil _ _)
  rw [List.reverse_nil, List.nil_append] at same chars
  rw [pieces, same]
  exact ⟨chars, reads⟩

namespace Reads

variable {pieces : List Piece}

/-- No words are read directly after others. -/
theorem not_adjacent (reads : Reads before pieces) (earlier later : List Piece) (raw other : List Char) :
    pieces ≠ earlier ++ .words raw :: .words other :: later := by
  intro split
  induction reads generalizing earlier with
  | done => simp at split
  | words _ _ alone _ ih =>
      cases earlier with
      | nil =>
          cases split
          cases alone _ rfl
      | cons piece earlier =>
          cases split
          exact ih earlier rfl
  | reference _ _ ih =>
      cases earlier with
      | nil => cases split
      | cons piece earlier =>
          cases split
          exact ih earlier rfl

/-- What is read as a reference is one. -/
theorem isReference (reads : Reads before pieces) {earlier others : List Piece}
    (split : pieces = earlier ++ .reference name :: others) :
    IsReference (before ++ charsOf earlier) name (charsOf others) := by
  induction reads generalizing earlier with
  | done => simp at split
  | @words before raw pieces some none alone _ ih =>
      cases earlier with
      | nil => cases split
      | cons piece earlier =>
          cases split
          rw [charsOf_cons, ← List.append_assoc]
          exact ih rfl
  | @reference before found pieces isReference _ ih =>
      cases earlier with
      | nil =>
          cases split
          simpa [charsOf] using isReference
      | cons piece earlier =>
          cases split
          rw [charsOf_cons, ← List.append_assoc]
          exact ih rfl

/-- Every reference is read as one. -/
theorem exists_reference (reads : Reads before pieces) {passed : List Char}
    (whole : charsOf pieces = passed ++ (name ++ later))
    (isReference : IsReference (before ++ passed) name later) :
    ∃ earlier others, pieces = earlier ++ .reference name :: others ∧ charsOf earlier = passed ∧
      charsOf others = later := by
  -- A reference behind the first piece is one of the others.
  have behind : ∀ {before first : List Char} {piece : Piece} {pieces : List Piece} {passed : List Char},
      piece.chars = first →
      (∀ {passed : List Char}, charsOf pieces = passed ++ (name ++ later) →
        IsReference (before ++ first ++ passed) name later → ∃ earlier others,
          pieces = earlier ++ .reference name :: others ∧ charsOf earlier = passed ∧ charsOf others = later) →
      first ++ charsOf pieces = passed ++ (name ++ later) → IsReference (before ++ passed) name later →
      first.length ≤ passed.length → ∃ earlier others,
        piece :: pieces = earlier ++ .reference name :: others ∧ charsOf earlier = passed ∧
          charsOf others = later := by
    intro before first piece pieces passed chars further whole isReference longer
    obtain ⟨rest, rfl⟩ := List.prefix_of_prefix_length_le (List.prefix_append first (charsOf pieces))
      (whole ▸ List.prefix_append passed (name ++ later)) longer
    rw [List.append_assoc, List.append_cancel_left_eq] at whole
    rw [← List.append_assoc] at isReference
    obtain ⟨earlier, others, rfl, same, after⟩ := further whole isReference
    exact ⟨piece :: earlier, others, rfl, by rw [charsOf_cons, chars, same], after⟩
  induction reads generalizing passed with
  | done =>
      have empty := (List.append_eq_nil_iff.mp (List.append_eq_nil_iff.mp whole.symm).2).1
      exact (isReference.ne_nil empty).elim
  | @words before raw pieces some none alone _ ih =>
      rcases Nat.lt_or_ge passed.length raw.length with inside | further
      · exact (none passed name later whole inside isReference).elim
      · exact behind rfl (fun whole isReference => ih whole isReference) whole isReference further
  | @reference before found pieces reference _ ih =>
      rcases Nat.lt_or_ge passed.length found.length with inside | further
      · by_cases empty : passed = []
        · subst empty
          rw [List.append_nil] at isReference
          obtain ⟨rfl, rfl⟩ := reference.unique isReference whole
          exact ⟨[], pieces, rfl, rfl, rfl⟩
        · have starts : passed <+: found ++ charsOf pieces := ⟨name ++ later, whole.symm⟩
          obtain ⟨second, split⟩ := List.prefix_of_prefix_length_le starts
            (List.prefix_append found (charsOf pieces)) (Nat.le_of_lt inside)
          obtain ⟨allowed, _⟩ := isReference.exists_takeReference
          exact (reference.not_allows split.symm empty allowed).elim
      · exact behind rfl (fun whole isReference => ih whole isReference) whole isReference further

end Reads

/-- There is a piece for each reference in a literal text, at its place, and for nothing else. -/
theorem mem_pieces_iff (before name after cs : List Char) :
    (∃ earlier later, pieces cs = earlier ++ .reference name :: later ∧ charsOf earlier = before ∧
        charsOf later = after) ↔
      cs = before ++ name ++ after ∧ IsReference before name after := by
  obtain ⟨chars, reads⟩ := pieces_reads cs
  constructor
  · intro found
    obtain ⟨earlier, later, split, rfl, rfl⟩ := found
    refine ⟨?_, by simpa using reads.isReference split⟩
    rw [← chars, split, List.append_assoc]
    exact List.flatMap_append
  · intro found
    obtain ⟨rfl, isReference⟩ := found
    exact reads.exists_reference (by rw [chars, List.append_assoc]) isReference

end EquationText

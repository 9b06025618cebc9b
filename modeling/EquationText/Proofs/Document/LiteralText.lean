import EquationText.Proofs.Document.Failure
import EquationText.Proofs.Token.References

/-! # Literal text

The literal tokens of a document with the usual marks are what it has outside of its blocks. Without an opening
mark they are its references, each in its place, and the words between them, and carrying the document out
writes its text with every reference replaced by its value, if it has one, and changes nothing else
(`EquationText.literal_text`).
-/

namespace EquationText

variable {settings : Settings} {text : String} {line : Nat} {found tokens : List Token} {cs : List Char}
  {parts : List Piece}

/-! ## The texts of tokens -/

/-- The texts of some tokens, one after another. -/
def shownTogether (settings : Settings) (tokens : List Token) : String :=
  String.join (tokens.map (·.lexeme.shown settings))

/-- The texts of the tokens of literal text among some tokens, one after another. -/
def literalShown (settings : Settings) (tokens : List Token) : String :=
  shownTogether settings (tokens.filter (·.lexeme.isLiteral))

theorem shownTogether_append (settings : Settings) (tokens others : List Token) :
    shownTogether settings (tokens ++ others) =
      shownTogether settings tokens ++ shownTogether settings others := by
  rw [shownTogether, List.map_append, String.join_append]
  rfl

theorem literalShown_append (settings : Settings) (tokens others : List Token) :
    literalShown settings (tokens ++ others) =
      literalShown settings tokens ++ literalShown settings others := by
  rw [literalShown, List.filter_append, shownTogether_append]
  rfl

theorem literalShown_of_literal (literal : ∀ token ∈ tokens, token.lexeme.isLiteral = true) :
    literalShown settings tokens = shownTogether settings tokens := by
  rw [literalShown, List.filter_eq_self.mpr literal]

theorem literalShown_of_not_literal (others : ∀ token ∈ tokens, token.lexeme.isLiteral = false) :
    literalShown settings tokens = "" := by
  have none : tokens.filter (·.lexeme.isLiteral) = [] :=
    List.filter_eq_nil_iff.mpr fun token member => by simp [others token member]
  rw [literalShown, none]
  rfl

theorem shownTogether_of_pieces (lexemes : tokens.map Token.lexeme = parts.map Piece.lexeme) :
    shownTogether settings tokens = String.ofList (charsOf parts) := by
  have shown : ∀ piece : Piece, (piece.lexeme.shown settings).toList = piece.chars := by
    intro piece
    cases piece <;> exact String.toList_ofList
  have texts : tokens.map (·.lexeme.shown settings) = (tokens.map Token.lexeme).map (Lexeme.shown settings) := by
    rw [List.map_map]
    rfl
  rw [← String.toList_inj, shownTogether, texts, lexemes, String.toList_join, String.toList_ofList,
    List.map_map, List.flatMap_map, charsOf]
  exact congrArg (List.flatMap · parts) (funext shown)

/-! ## References and words -/

/-- Whether some tokens are those of a literal text: its references, each in its place, and between them words
that are not empty and of which no two come after one another. -/
structure IsLiteralReading (settings : Settings) (text : String) (tokens : List Token) : Prop where
  references : ∀ before name after : String,
    (∃ (earlier : List Token) (line : Nat) (later : List Token),
        tokens = earlier ++ ⟨.reference name, line⟩ :: later ∧
          shownTogether settings earlier = before ∧ shownTogether settings later = after) ↔
      text = before ++ name ++ after ∧ IsReference before.toList name.toList after.toList
  words : ∀ token ∈ tokens,
    (∃ name, token.lexeme = .reference name) ∨ ∃ raw, token.lexeme = .text raw ∧ raw ≠ ""
  apart : ∀ earlier later raw other line lineAfter,
    tokens ≠ earlier ++ ⟨.text raw, line⟩ :: ⟨.text other, lineAfter⟩ :: later
  whole : shownTogether settings tokens = text

/-- Two lists that agree under some functions agree before and after an element of one of them. -/
theorem exists_split_of_map_eq {α β γ : Type} {f : α → γ} {g : β → γ} {before after : List α} {a : α}
    {others : List β} (same : (before ++ a :: after).map f = others.map g) :
    ∃ (earlier : List β) (b : β) (later : List β), others = earlier ++ b :: later ∧
      before.map f = earlier.map g ∧ f a = g b ∧ after.map f = later.map g := by
  rw [List.map_append, List.map_cons] at same
  obtain ⟨earlier, rest, rfl, first, second⟩ := List.map_eq_append_iff.mp same.symm
  obtain ⟨b, later, rfl, head, tail⟩ := List.map_eq_cons_iff.mp second
  exact ⟨earlier, b, later, rfl, first.symm, head.symm, tail.symm⟩

theorem Piece.lexeme_eq_reference {piece : Piece} {name : String} (same : piece.lexeme = .reference name) :
    piece = .reference name.toList := by
  cases piece with
  | words raw => cases same
  | reference chars =>
      cases same
      rw [String.toList_ofList]

theorem Piece.lexeme_eq_text {piece : Piece} {raw : String} (same : piece.lexeme = .text raw) :
    piece = .words raw.toList := by
  cases piece with
  | words chars =>
      cases same
      rw [String.toList_ofList]
  | reference name => cases same

/-- Tokens that are the pieces of a literal text are those of the text. -/
theorem isLiteralReading_of_pieces
    (lexemes : tokens.map Token.lexeme = (pieces text.toList).map Piece.lexeme) :
    IsLiteralReading settings text tokens where
  references before name after := by
    have placed := mem_pieces_iff before.toList name.toList after.toList text.toList
    have split : text = before ++ name ++ after ↔
        text.toList = before.toList ++ name.toList ++ after.toList := by
      rw [← String.toList_inj, String.toList_append, String.toList_append]
    rw [split, ← placed]
    constructor
    · intro found
      obtain ⟨earlier, line, later, rfl, rfl, rfl⟩ := found
      obtain ⟨first, piece, second, whole, ahead, here, behind⟩ := exists_split_of_map_eq lexemes
      refine ⟨first, second, by rw [whole, Piece.lexeme_eq_reference here.symm], ?_, ?_⟩
      · rw [shownTogether_of_pieces ahead, String.toList_ofList]
      · rw [shownTogether_of_pieces behind, String.toList_ofList]
    · intro found
      obtain ⟨first, second, whole, ahead, behind⟩ := found
      rw [whole] at lexemes
      obtain ⟨earlier, ⟨lexeme, line⟩, later, rfl, before_eq, here, after_eq⟩ :=
        exists_split_of_map_eq lexemes.symm
      have reference : lexeme = .reference name := by
        rw [← show Piece.lexeme (.reference name.toList) = lexeme from here, Piece.lexeme, String.ofList_toList]
      refine ⟨earlier, line, later, by rw [reference], ?_, ?_⟩
      · rw [shownTogether_of_pieces before_eq.symm, ahead, String.ofList_toList]
      · rw [shownTogether_of_pieces after_eq.symm, behind, String.ofList_toList]
  words token member := by
    have lexeme : token.lexeme ∈ (pieces text.toList).map Piece.lexeme :=
      lexemes ▸ List.mem_map_of_mem member
    obtain ⟨piece, inside, same⟩ := List.mem_map.mp lexeme
    cases piece with
    | words raw =>
        have some := (piecesFrom_plain none [] [] text.toList (List.forall_mem_nil _) _ inside).1
        exact .inr ⟨String.ofList raw, same.symm, fun none => some (String.ofList_eq_empty_iff.mp none)⟩
    | reference name => exact .inl ⟨_, same.symm⟩
  apart earlier later raw other line lineAfter := by
    intro split
    rw [split] at lexemes
    obtain ⟨first, piece, rest, whole, _, here, behind⟩ := exists_split_of_map_eq lexemes
    obtain ⟨next, second, rfl, following, _⟩ := List.map_eq_cons_iff.mp behind.symm
    rw [Piece.lexeme_eq_text here.symm, Piece.lexeme_eq_text following] at whole
    exact (pieces_reads text.toList).2.not_adjacent _ _ _ _ whole
  whole := by rw [shownTogether_of_pieces lexemes, (pieces_reads text.toList).1, String.ofList_toList]

/-! ## Documents with blocks -/

/-- The tokens of a part without an opening mark show the part. -/
theorem literalShown_of_pieces (lexemes : tokens.map Token.lexeme = (pieces cs).map Piece.lexeme) :
    literalShown settings tokens = String.ofList cs := by
  rw [literalShown_of_literal (isLiteral_of_pieces lexemes), shownTogether_of_pieces lexemes, (pieces_reads cs).1]

/-- A block that is closed adds the tokens of the literal text before it and others that are not literal. -/
theorem exists_scanOpened {outside inside rest : List Char} {lineAfter : Nat}
    (scanned : scanOpened settings line found outside inside = (tokens, .ok (lineAfter, rest))) :
    ∃ literal inner : List Token, tokens.reverse = found.reverse ++ (literal ++ inner) ∧
      literal.map Token.lexeme = (pieces outside).map Piece.lexeme ∧
      ∀ token ∈ inner, token.lexeme.isLiteral = false := by
  let opening : Token := ⟨.blockOpen, line + lineEnds outside⟩
  obtain ⟨literal, placed, lexemes⟩ := exists_placeLiteral_pieces line found outside
  obtain ⟨inner, allInner, ends⟩ :=
    exists_scanBlock settings opening.line opening.line (opening :: (literal.reverse ++ found)) inside
  rw [scanOpened, placed] at scanned
  rw [scanned] at ends
  obtain ⟨_, error⟩ | ⟨_, _, closed⟩ := ends
  · cases error
  · cases closed
    refine ⟨literal, opening :: (inner.reverse ++ [⟨.blockClose, lineAfter⟩]), by simp, lexemes, ?_⟩
    refine List.forall_mem_cons.mpr ⟨rfl, List.forall_mem_append.mpr ⟨fun token member => ?_, ?_⟩⟩
    · exact Lexeme.isLiteral_of_isInner (allInner token (List.mem_reverse.mp member))
    · exact List.forall_mem_singleton.mpr rfl

/-- The literal tokens of a document that is scanned to its end are what it has outside of its blocks. -/
theorem scanDocument_literal (usual : settings.HasUsualMarks) {last : Nat}
    (ok : (scanDocument settings line found cs).ending = .ok last) :
    ∃ later, (scanDocument settings line found cs).tokens = found.reverse ++ later ∧
      literalShown settings later = String.ofList (survey .outside cs).1 := by
  induction size : cs.length using Nat.strong_induction_on generalizing line found cs with
  | _ size ih =>
  subst size
  by_cases empty : cs = []
  · subst empty
    exact ⟨[], by rw [scanDocument_nil, List.append_nil], rfl⟩
  cases documentShape usual line found cs with
  | literal split =>
      obtain ⟨literal, placed, lexemes⟩ := exists_placeLiteral_pieces line found cs
      refine ⟨literal, ?_, ?_⟩
      · rw [scanDocument_of_no_block empty split, placed, List.reverse_append, List.reverse_reverse]
      · rw [literalShown_of_pieces lexemes, survey_of_no_block (usual.openMark_toList ▸ split)]
  | cutOff alone split block =>
      rw [scanDocument_of_fault empty split block] at ok
      cases ok
  | @closed outside inner rest tokens alone split block =>
      have shorter := length_lt_of_closed usual outside inner rest
      rw [scanDocument_of_block empty (split rest) (block rest) shorter] at ok ⊢
      obtain ⟨later, whole, shown⟩ := ih rest.length shorter ok rfl
      obtain ⟨literal, blockTokens, placed, lexemes, notLiteral⟩ := exists_scanOpened (block rest)
      obtain ⟨passed, same, surveyed⟩ := survey_of_block (usual.openMark_toList ▸ split rest)
      rw [List.reverse_nil, List.nil_append] at same
      subst same
      rw [← usual.openMark_toList, survey_scanBlock usual (block rest)] at surveyed
      refine ⟨literal ++ blockTokens ++ later, by rw [whole, placed, List.append_assoc], ?_⟩
      rw [literalShown_append, literalShown_append, literalShown_of_pieces lexemes,
        literalShown_of_not_literal notLiteral, shown, String.append_empty, surveyed, String.ofList_append]

/-! ## Carrying out literal text -/

/-- What a token of literal text is replaced by: a reference by its value, if it has one. -/
inductive IsRendered (settings : Settings) (solver : Solver) : Lexeme → String → Prop
  | text (raw : String) : IsRendered settings solver (.text raw) raw
  | bound {name value : String} (translated : solver.translate settings name = .ok (some value)) :
      IsRendered settings solver (.reference name) value
  | unbound {name : String} (unsolved : valueOf? (Solver.select name).name solver.solved = none) :
      IsRendered settings solver (.reference name) name

/-- With a usual precision the tokens of literal text have texts that they are replaced by, and these are what
their steps write. -/
theorem exists_rendered (settings : Settings) {solver : Solver}
    (precision : Solver.IsUsualPrecision solver.precision)
    (literal : ∀ token ∈ tokens, token.lexeme.isLiteral = true) :
    ∃ texts, List.Forall₂ (fun token written => IsRendered settings solver token.lexeme written) tokens texts ∧
      List.Forall₂ ((linearEngine settings).Writes solver) (tokens.filterMap (Context.written? ·.lexeme))
        texts := by
  induction tokens with
  | nil => exact ⟨[], .nil, .nil⟩
  | cons token rest ih =>
      obtain ⟨first, later⟩ := List.forall_mem_cons.mp literal
      obtain ⟨texts, rendered, writes⟩ := ih later
      obtain ⟨lexeme, line⟩ := token
      cases lexeme with
      | text raw => exact ⟨raw :: texts, .cons (.text raw) rendered, .cons (.text raw) writes⟩
      | reference name =>
          obtain ⟨value, answer⟩ := Solver.exists_translate settings precision name
          have steps : (linearEngine settings).Writes solver (.reference name) (value.getD name) :=
            .reference answer
          refine ⟨value.getD name :: texts, .cons ?_ rendered, .cons steps writes⟩
          cases value with
          | none => exact .unbound (Solver.not_solved_of_translate answer)
          | some value => exact .bound answer
      | _ => cases first

/-- **Literal text.** A text without an opening mark is read as its references and the words between them, and a
session with a usual precision writes it with each reference replaced by its value, if it has one, and is
otherwise as before. The literal tokens of a text with blocks that is scanned to its end are what it has
outside of its blocks. -/
theorem literal_text (usual : settings.HasUsualMarks) (text : String) :
    (¬ settings.openMark.toList <:+: text.toList →
      IsLiteralReading settings text (scan settings text).tokens ∧
        (∃ line, (scan settings text).ending = .ok line) ∧
        ∀ (filename : String) (before : Traced SolverSession),
          Solver.IsUsualPrecision before.state.engine.precision →
            ∃ texts, List.Forall₂
                (fun token written => IsRendered settings before.state.engine token.lexeme written)
                (scan settings text).tokens texts ∧
              (linearEngine settings).process settings filename text before =
                (.ok (), ⟨{ before.state.forDocument with output := String.join texts },
                  before.log.push ⟨.debug, .api, s!"{filename}: {0} statement(s) processed"⟩⟩)) ∧
      ∀ line, (scan settings text).ending = .ok line →
        literalShown settings (scan settings text).tokens = String.ofList (survey .outside text.toList).1 := by
  constructor
  · intro absent
    have split : splitAtMark settings.openMark.toList [] text.toList = (text.toList, none) := by
      rcases found : splitAtMark settings.openMark.toList [] text.toList with ⟨outside, _ | inside⟩
      · rw [splitAtMark_none found]
        rfl
      · obtain ⟨passed, _, whole, _⟩ := splitAtMark_some found usual.openMark_ne_nil
        exact (absent ⟨passed, inside, whole.symm⟩).elim
    obtain ⟨literal, placed, lexemes⟩ := exists_placeLiteral_pieces 1 [] text.toList
    have tokens : (scan settings text).tokens = literal := by
      rw [scan_of_no_block split, placed, List.append_nil, List.reverse_reverse]
    have isLiteral := isLiteral_of_no_block split
    refine ⟨isLiteralReading_of_pieces (tokens ▸ lexemes), isLiteral.ending, ?_⟩
    intro filename before precision
    obtain ⟨texts, rendered, writes⟩ := exists_rendered settings precision isLiteral.tokens
    rw [← documentSteps_literal isLiteral] at writes
    refine ⟨texts, rendered, ?_⟩
    let begun : Traced SolverSession := ⟨before.state.forDocument, before.log⟩
    have performed : (linearEngine settings).performAll (documentSteps settings text) begun = _ :=
      Engine.performAll_of_writes writes
    unfold Engine.process
    rw [Action.run_bind_of_ok (Action.run_modify _), Action.run_bind_of_ok performed]
    exact congrArg (fun output => (Except.ok (), (⟨{ begun.state with output }, _⟩ : Traced SolverSession)))
      String.empty_append
  · intro line ok
    obtain ⟨later, whole, shown⟩ := scanDocument_literal usual ok
    rw [scan, whole]
    exact shown

/-- A text with a reference to a real part, and after it a name that is none. -/
def partText : String := "x#r of 2x"

/-- A session that has solved a name. -/
def afterSolved : Traced SolverSession :=
  ((linearEngine {}).process {} "<string>" "\x7b\x7b x = 3 \x7d\x7d" freshSession).2

/-- A document with a block whose comment has a closing mark. -/
def commentText : String := "a\x7b\x7b x = 1 # \x7d\x7d\n \x7d\x7db"

/-- The reference in the first text is written as its value, and the second has two letters outside of its
block. -/
theorem literal_text_part :
    IsLiteralReading {} partText (scan {} partText).tokens ∧
      (∃ texts after, (linearEngine {}).process {} "<string>" partText afterSolved = (.ok (), after) ∧
        after.state.output = String.join texts ∧ after.state.output = "3 of 2x" ∧ List.Forall₂
          (fun token written => IsRendered {} afterSolved.state.engine token.lexeme written)
          (scan {} partText).tokens texts) ∧
      literalShown {} (scan {} commentText).tokens = "ab" := by
  have usual := Settings.hasUsualMarks_standard
  obtain ⟨reading, _, carriedOut⟩ := (literal_text usual partText).1 (by decide +kernel)
  have precision : Solver.IsUsualPrecision afterSolved.state.engine.precision :=
    ⟨by decide +kernel, by decide +kernel⟩
  obtain ⟨texts, rendered, processed⟩ := carriedOut "<string>" afterSolved precision
  have output : ((linearEngine {}).process {} "<string>" partText afterSolved).2.state.output = "3 of 2x" := by
    decide +kernel
  have scanned : (scan {} commentText).ending = .ok 2 := by decide +kernel
  have outside : (survey .outside commentText.toList).1 = ['a', 'b'] := by decide +kernel
  refine ⟨reading, ⟨texts, _, processed, rfl, ?_, rendered⟩, ?_⟩
  · rw [processed] at output
    exact output
  · rw [(literal_text usual commentText).2 2 scanned, outside]

end EquationText

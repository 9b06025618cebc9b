import EquationText.Proofs.Token.Lookahead

/-! # Scanning a document in two parts

A document that ends with a block can be continued: the tokens of the whole are those of the first part
and then those of the second, moved down by the lines of the first (`EquationText.scan_append`). A block
that is closed is scanned in the same way whatever follows it (`EquationText.scanBlock_closed`).
-/

namespace EquationText

/-! ## Moving down -/

/-- The fault with its line moved down. -/
def Fault.movedDown (lines : Nat) (fault : Fault) : Fault := ⟨fault.cause, fault.line.map (· + lines)⟩

/-- The token on a line further down. -/
def Token.movedDown (lines : Nat) (token : Token) : Token := ⟨token.lexeme, token.line + lines⟩

/-- The end of a scan further down: its last line, or its fault. -/
def endingMovedDown (lines : Nat) : Except Fault Nat → Except Fault Nat
  | .ok line => .ok (line + lines)
  | .error fault => .error (fault.movedDown lines)

/-- The scan further down. -/
def Scan.movedDown (lines : Nat) (scanned : Scan) : Scan :=
  ⟨scanned.tokens.map (·.movedDown lines), endingMovedDown lines scanned.ending⟩

/-- The step of scanning further down: only the line of its fault changes. -/
def BlockStep.movedDown (lines : Nat) : BlockStep → BlockStep
  | fault found => fault (found.movedDown lines)
  | step => step

/-- The end of a block further down. -/
def blockEndMovedDown (lines : Nat) : Except Fault (Nat × List Char) → Except Fault (Nat × List Char)
  | .ok (line, rest) => .ok (line + lines, rest)
  | .error fault => .error (fault.movedDown lines)

@[simp]
theorem Token.movedDown_lexeme (lines : Nat) (token : Token) :
    (token.movedDown lines).lexeme = token.lexeme := rfl

variable {settings : Settings} {openedAt line : Nat} {found : List Token} {cs : List Char}

/-- A step further down differs in the lines of its fault only: which step it is depends on the text alone. -/
theorem blockStep_movedDown (lines : Nat) :
    blockStep settings (openedAt + lines) (line + lines) cs =
      (blockStep settings openedAt line cs).movedDown lines := by
  have command : ∀ cs, commandStep settings (line + lines) cs =
      (commandStep settings line cs).movedDown lines := by
    intro cs
    unfold commandStep
    cases takeName cs <;> rfl
  have name : ∀ cs, nameStep settings cs = (nameStep settings cs).movedDown lines := by
    intro cs
    unfold nameStep
    cases takeName cs <;> rfl
  have number : ∀ cs, numberStep cs = (numberStep cs).movedDown lines := by
    intro cs
    unfold numberStep
    cases takeNumeral cs <;> rfl
  cases cs with
  | nil => rfl
  | cons c rest =>
      simp only [blockStep, charStep]
      refine BlockStep.ite_eq (·.movedDown lines) (fun _ => rfl) fun _ => ?_
      refine BlockStep.ite_eq (·.movedDown lines) (fun _ => rfl) fun _ => ?_
      refine BlockStep.ite_eq (·.movedDown lines) (fun _ => rfl) fun _ => ?_
      refine BlockStep.ite_eq (·.movedDown lines) (fun _ => rfl) fun _ => ?_
      refine BlockStep.ite_eq (·.movedDown lines) (fun _ => command _) fun _ => ?_
      refine BlockStep.ite_eq (·.movedDown lines) (fun _ => number _) fun _ => ?_
      refine BlockStep.ite_eq (·.movedDown lines) (fun _ => name _) fun _ => ?_
      refine BlockStep.ite_eq (·.movedDown lines) (fun _ => rfl) fun _ => ?_
      refine BlockStep.ite_eq (·.movedDown lines) (fun _ => rfl) fun _ => ?_
      exact BlockStep.ite_eq (·.movedDown lines) (fun _ => rfl) fun _ => rfl

/-! ## Blocks -/

section Steps

variable {rest : List Char} {lexeme : Lexeme} {lines : Nat} {fault : Fault}

theorem scanBlock_of_skip (step : blockStep settings openedAt line cs = .skip rest) :
    scanBlock settings openedAt line found cs = scanBlock settings openedAt line found rest := by
  rw [scanBlock]
  split <;> simp_all

theorem scanBlock_of_token (step : blockStep settings openedAt line cs = .token lexeme lines rest) :
    scanBlock settings openedAt line found cs =
      scanBlock settings openedAt (line + lines) (⟨lexeme, line⟩ :: found) rest := by
  rw [scanBlock]
  split <;> simp_all

theorem scanBlock_of_close (step : blockStep settings openedAt line cs = .close rest) :
    scanBlock settings openedAt line found cs = (⟨.blockClose, line⟩ :: found, .ok (line, rest)) := by
  rw [scanBlock]
  split <;> simp_all

theorem scanBlock_of_fault (step : blockStep settings openedAt line cs = .fault fault) :
    scanBlock settings openedAt line found cs = (found, .error fault) := by
  rw [scanBlock]
  split <;> simp_all

end Steps

/-- A block further down, with other tokens before it. -/
theorem scanBlock_movedDown (openedAt line : Nat) (found : List Token) (cs : List Char) (lines : Nat)
    (earlier : List Token) :
    scanBlock settings (openedAt + lines) (line + lines) (found.map (·.movedDown lines) ++ earlier) cs =
      ((scanBlock settings openedAt line found cs).1.map (·.movedDown lines) ++ earlier,
        blockEndMovedDown lines (scanBlock settings openedAt line found cs).2) := by
  have moved : ∀ line cs, blockStep settings (openedAt + lines) (line + lines) cs =
      (blockStep settings openedAt line cs).movedDown lines := fun line cs => blockStep_movedDown lines
  fun_induction scanBlock settings openedAt line found cs with
  | case1 line found cs rest step ih =>
      rw [scanBlock_of_skip ((moved line cs).trans (by rw [step]; rfl))]
      exact ih
  | case2 line found cs lexeme passed rest step ih =>
      rw [scanBlock_of_token ((moved line cs).trans (by rw [step]; rfl)), Nat.add_right_comm]
      exact ih
  | case3 line found cs rest step =>
      rw [scanBlock_of_close ((moved line cs).trans (by rw [step]; rfl))]
      rfl
  | case4 line found cs fault step =>
      rw [scanBlock_of_fault ((moved line cs).trans (by rw [step]; rfl))]
      rfl

section Closed

variable {tokens : List Token} {lineAfter : Nat} {inner rest passed : List Char}

theorem BlockStep.followedBy_injective (more : List Char) {step other : BlockStep}
    (same : step.followedBy more = other.followedBy more) : step = other := by
  cases step <;> cases other <;> simp_all [followedBy]

/-- A comment leaves a line end, and no closing mark before it. -/
theorem blockStep_comment (usual : settings.HasUsualMarks) (tail : List Char) :
    blockStep settings openedAt line (commentMark :: tail) = .skip (tail.dropWhile (· ≠ '\n')) := by
  simp [blockStep, charStep, usual.closeMark_toList, List.isPrefixOf, commentMark, closeSign, isBlockSpace]

/-- A step that leaves a closing mark does the same whatever comes later. -/
theorem blockStep_local (usual : settings.HasUsualMarks) (closes : Closes inner) (step : BlockStep)
    (left : step.inside? = some inner)
    (read : blockStep settings openedAt line (passed ++ inner ++ rest) = step.followedBy rest)
    (other : List Char) :
    blockStep settings openedAt line (passed ++ inner ++ other) = step.followedBy other := by
  have whole : Closes (passed ++ inner) := closes.trans (List.suffix_append ..).isInfix
  have ended : ∀ tail, passed ++ inner = commentMark :: tail → '\n' ∈ tail := by
    intro tail same
    rw [same, List.cons_append, blockStep_comment usual] at read
    obtain ⟨next, later, rfl⟩ := List.exists_cons_of_ne_nil (List.ne_nil_of_mem closes.sign_mem)
    have skipped : (tail ++ rest).dropWhile (· ≠ '\n') = next :: later ++ rest := by
      cases step with
      | skip found =>
          cases left
          exact BlockStep.skip.inj read
      | _ => cases read
    have next_eq : next = '\n' := by
      have stops := List.head?_dropWhile_not (fun c : Char => decide (c ≠ '\n')) (tail ++ rest)
      rw [skipped] at stops
      simpa using stops
    have member : '\n' ∈ commentMark :: tail := by
      rw [← same, next_eq]
      simp
    exact (List.mem_cons.mp member).resolve_left (by decide)
  rw [blockStep_append rest usual whole ended] at read
  rw [blockStep_append other usual whole ended, BlockStep.followedBy_injective rest read]

/-- A block that is closed is scanned in the same way whatever follows it. -/
theorem scanBlock_closed (usual : settings.HasUsualMarks)
    (scanned : scanBlock settings openedAt line found cs = (tokens, .ok (lineAfter, rest))) :
    ∃ inner, cs = inner ++ rest ∧ Closes inner ∧ lineAfter = line + lineEnds inner ∧
      ∀ other, scanBlock settings openedAt line found (inner ++ other) =
        (tokens, .ok (lineAfter, other)) := by
  have plain : lineEnds settings.commandMark.toList = 0 := by
    rw [usual.commandMark_toList]
    rfl
  fun_induction scanBlock settings openedAt line found cs with
  | case1 line found cs left step ih =>
      obtain ⟨inner, rfl, closes, rfl, replaced⟩ := ih scanned
      have passes := blockStep_passes openedAt line cs plain
      rw [step] at passes
      obtain ⟨passed, rfl, counted⟩ := passes
      rw [← List.append_assoc] at step
      refine ⟨passed ++ inner, (List.append_assoc ..).symm,
        closes.trans (List.suffix_append ..).isInfix, by rw [lineEnds_append, counted, Nat.zero_add], ?_⟩
      intro other
      rw [scanBlock_of_skip (blockStep_local usual closes (.skip inner) rfl step other)]
      exact replaced other
  | case2 line found cs lexeme lines left step ih =>
      obtain ⟨inner, rfl, closes, rfl, replaced⟩ := ih scanned
      have passes := blockStep_passes openedAt line cs plain
      rw [step] at passes
      obtain ⟨passed, rfl, counted⟩ := passes
      rw [← List.append_assoc] at step
      refine ⟨passed ++ inner, (List.append_assoc ..).symm,
        closes.trans (List.suffix_append ..).isInfix, by rw [lineEnds_append, counted, Nat.add_assoc], ?_⟩
      intro other
      rw [scanBlock_of_token
        (blockStep_local usual closes (.token lexeme lines inner) rfl step other)]
      exact replaced other
  | case3 line found cs left step =>
      have passes := blockStep_passes openedAt line cs plain
      rw [step] at passes
      cases scanned
      have closing : cs = [closeSign, closeSign] ++ rest := by
        rw [← usual.closeMark_toList]
        exact passes
      refine ⟨[closeSign, closeSign], closing, List.infix_rfl, rfl, fun other => ?_⟩
      refine scanBlock_of_close ?_
      simp [blockStep, charStep, usual.closeMark_toList, List.isPrefixOf]
  | case4 line found cs fault step => cases scanned

end Closed

/-! ## Literal text -/

/-- Literal text further down has the same tokens on lines further down, in front of whatever was found before. -/
theorem placeLiteral_movedDown (line : Nat) (found : List Token) (cs : List Char) (lines : Nat)
    (earlier : List Token) :
    placeLiteral (line + lines) (found.map (·.movedDown lines) ++ earlier) cs =
      ((placeLiteral line found cs).1.map (·.movedDown lines) ++ earlier,
        (placeLiteral line found cs).2 + lines) := by
  have placed : ∀ (pieces : List Piece) (start : List Token × Nat),
      pieces.foldl placePiece (start.1.map (·.movedDown lines) ++ earlier, start.2 + lines) =
        ((pieces.foldl placePiece start).1.map (·.movedDown lines) ++ earlier,
          (pieces.foldl placePiece start).2 + lines) := by
    intro pieces
    induction pieces with
    | nil => exact fun _ => rfl
    | cons piece rest ih =>
        intro start
        rw [List.foldl_cons, List.foldl_cons, ← ih]
        cases piece with
        | words raw =>
            simp only [placePiece, List.map_cons, List.cons_append, Nat.add_right_comm]
            rfl
        | reference name => rfl
  exact placed (pieces cs) (found, line)

/-- A literal text that is not empty ends with a token of its own. -/
theorem placeLiteral_eq_cons (line : Nat) (found : List Token) (nonempty : cs ≠ []) :
    ∃ token rest, (placeLiteral line found cs).1 = token :: rest ∧ token.lexeme ≠ .blockClose := by
  have some : pieces cs ≠ [] := by
    intro none
    have whole := (chars_of_pieces cs).1
    rw [none] at whole
    exact nonempty whole.symm
  obtain ⟨last, others, same⟩ := List.exists_cons_of_ne_nil (List.reverse_ne_nil_iff.mpr some)
  rw [placeLiteral, ← List.reverse_reverse (pieces cs), same, List.reverse_cons, List.foldl_append]
  cases last with
  | words raw => exact ⟨_, _, rfl, by simp⟩
  | reference name => exact ⟨_, _, rfl, by simp⟩

section Split

variable {mark before outside inside : List Char}

/-- The first mark of a text is found in the same way whatever follows it, and there is none before it. -/
theorem splitAtMark_some (split : splitAtMark mark before cs = (outside, some inside))
    (nonempty : mark ≠ []) :
    ∃ passed, outside = before.reverse ++ passed ∧ cs = passed ++ mark ++ inside ∧
      splitAtMark mark before passed = (outside, none) ∧
      ∀ other, splitAtMark mark before (passed ++ mark ++ other) = (outside, some other) := by
  induction cs generalizing before with
  | nil =>
      unfold splitAtMark at split
      simp [nonempty] at split
  | cons c rest ih =>
      unfold splitAtMark at split
      split at split
      · rename_i starts
        cases split
        have whole := List.prefix_iff_eq_append.mp (List.isPrefixOf_iff_prefix.mp starts)
        refine ⟨[], by simp, by simpa using whole.symm, by simp [splitAtMark, nonempty], fun other => ?_⟩
        obtain ⟨first, sign, rfl⟩ := List.exists_cons_of_ne_nil nonempty
        simp [splitAtMark]
      · rename_i later
        obtain ⟨passed, rfl, rfl, alone, replaced⟩ := ih split
        have absent : ∀ text : List Char, text <+: passed ++ mark → ¬ mark <+: c :: text := by
          intro text part starts
          refine later (List.isPrefixOf_iff_prefix.mpr (starts.trans ?_))
          exact List.cons_prefix_cons.mpr ⟨rfl, part.trans (List.prefix_append ..)⟩
        refine ⟨c :: passed, by simp, rfl, ?_, fun other => ?_⟩
        · have before : ¬ mark.isPrefixOf (c :: passed) = true := fun starts =>
            absent passed (List.prefix_append ..) (List.isPrefixOf_iff_prefix.mp starts)
          simp only [splitAtMark, if_neg before, alone]
        · have across : ¬ mark.isPrefixOf (c :: (passed ++ mark ++ other)) = true := by
            intro starts
            refine absent (passed ++ mark) List.prefix_rfl ?_
            exact List.prefix_of_prefix_length_le (List.isPrefixOf_iff_prefix.mp starts)
              (List.cons_prefix_cons.mpr ⟨rfl, List.prefix_append ..⟩) (by simp; omega)
          simp only [List.cons_append, splitAtMark, if_neg across, replaced]

theorem splitAtMark_none (split : splitAtMark mark before cs = (outside, none)) :
    outside = before.reverse ++ cs := by
  induction cs generalizing before with
  | nil =>
      rw [List.append_nil]
      exact (congrArg Prod.fst split).symm
  | cons c rest ih =>
      unfold splitAtMark at split
      split at split
      · cases split
      · simpa using ih split

end Split

/-! ## Documents -/

/-- Whether some tokens end with a block, if there are any. -/
def EndsClosed (tokens : List Token) : Prop :=
  ∀ token ∈ tokens.getLast?, token.lexeme = .blockClose

namespace EndsClosed

variable {token : Token} {rest tokens : List Token}

theorem tail (closed : EndsClosed (token :: rest)) : EndsClosed rest := by
  intro last member
  refine closed last ?_
  rw [List.getLast?_cons, Option.mem_def.mp member]
  rfl

theorem of_suffix (closed : EndsClosed tokens) (suffix : rest <:+ tokens) : EndsClosed rest := by
  obtain ⟨earlier, rfl⟩ := suffix
  induction earlier with
  | nil => exact closed
  | cons token earlier ih => exact ih closed.tail

end EndsClosed

/-- The scan of a block that follows a literal text. -/
def scanOpened (settings : Settings) (line : Nat) (found : List Token) (outside inside : List Char) :
    List Token × Except Fault (Nat × List Char) :=
  let openedAt := line + lineEnds outside
  scanBlock settings openedAt openedAt (⟨.blockOpen, openedAt⟩ :: (placeLiteral line found outside).1)
    inside

theorem scanOpened_movedDown (settings : Settings) (line : Nat) (found : List Token)
    (outside inside : List Char) (lines : Nat) (earlier : List Token) :
    scanOpened settings (line + lines) (found.map (·.movedDown lines) ++ earlier) outside inside =
      ((scanOpened settings line found outside inside).1.map (·.movedDown lines) ++ earlier,
        blockEndMovedDown lines (scanOpened settings line found outside inside).2) := by
  have literal := congrArg Prod.fst (placeLiteral_movedDown line found outside lines earlier)
  simp only [scanOpened, literal, Nat.add_right_comm line lines]
  exact scanBlock_movedDown _ _ (⟨.blockOpen, line + lineEnds outside⟩ :: _) inside lines earlier

section Document

variable {outside inside rest : List Char} {tokens : List Token} {lineAfter : Nat} {fault : Fault}

theorem scanDocument_nil : scanDocument settings line found [] = ⟨found.reverse, .ok line⟩ := by
  rw [scanDocument]
  rfl

theorem scanDocument_of_no_block (nonempty : cs ≠ [])
    (split : splitAtMark settings.openMark.toList [] cs = (outside, none)) :
    scanDocument settings line found cs =
      ⟨(placeLiteral line found cs).1.reverse, .ok (line + lineEnds cs)⟩ := by
  have whole : outside = cs := splitAtMark_none split
  subst whole
  rw [scanDocument, if_neg (by simpa using nonempty)]
  simp only [split, placeLiteral_line]

theorem scanDocument_of_fault (nonempty : cs ≠ [])
    (split : splitAtMark settings.openMark.toList [] cs = (outside, some inside))
    (block : scanOpened settings line found outside inside = (tokens, .error fault)) :
    scanDocument settings line found cs = ⟨tokens.reverse, .error fault⟩ := by
  rw [scanDocument, if_neg (by simpa using nonempty)]
  rw [scanOpened] at block
  simp only [split, placeLiteral_line, block]

theorem scanDocument_of_block (nonempty : cs ≠ [])
    (split : splitAtMark settings.openMark.toList [] cs = (outside, some inside))
    (block : scanOpened settings line found outside inside = (tokens, .ok (lineAfter, rest)))
    (shorter : rest.length < cs.length) :
    scanDocument settings line found cs = scanDocument settings lineAfter tokens rest := by
  rw [scanDocument, if_neg (by simpa using nonempty)]
  rw [scanOpened] at block
  simp only [split, placeLiteral_line, block, if_pos shorter]

end Document

/-- What a text is made of, from outside of blocks: literal text only, or literal text and a block that is
not scanned to its end, or literal text, a block that is closed, and more. -/
inductive DocumentShape (settings : Settings) (line : Nat) (found : List Token) : List Char → Prop
  | literal {cs : List Char} (split : splitAtMark settings.openMark.toList [] cs = (cs, none)) :
      DocumentShape settings line found cs
  | cutOff {outside inside : List Char} {tokens : List Token} {fault : Fault}
      (alone : splitAtMark settings.openMark.toList [] outside = (outside, none))
      (split : splitAtMark settings.openMark.toList [] (outside ++ settings.openMark.toList ++ inside) =
        (outside, some inside))
      (block : scanOpened settings line found outside inside = (tokens, .error fault)) :
      DocumentShape settings line found (outside ++ settings.openMark.toList ++ inside)
  | closed {outside inner rest : List Char} {tokens : List Token}
      (alone : splitAtMark settings.openMark.toList [] outside = (outside, none))
      (split : ∀ other, splitAtMark settings.openMark.toList []
        (outside ++ settings.openMark.toList ++ (inner ++ other)) = (outside, some (inner ++ other)))
      (block : ∀ other, scanOpened settings line found outside (inner ++ other) =
        (tokens, .ok (line + lineEnds outside + lineEnds inner, other))) :
      DocumentShape settings line found (outside ++ settings.openMark.toList ++ (inner ++ rest))

theorem Settings.HasUsualMarks.openMark_toList (usual : settings.HasUsualMarks) :
    settings.openMark.toList = ['\x7b', '\x7b'] := by
  rw [usual.openMark]
  rfl

theorem Settings.HasUsualMarks.openMark_ne_nil (usual : settings.HasUsualMarks) :
    settings.openMark.toList ≠ [] := by
  rw [usual.openMark_toList]
  exact List.cons_ne_nil _ _

theorem documentShape (usual : settings.HasUsualMarks) (line : Nat) (found : List Token)
    (cs : List Char) : DocumentShape settings line found cs := by
  rcases split : splitAtMark settings.openMark.toList [] cs with ⟨outside, _ | inside⟩
  · have whole : outside = cs := splitAtMark_none split
    subst whole
    exact .literal split
  obtain ⟨_, rfl, rfl, alone, replaced⟩ := splitAtMark_some split usual.openMark_ne_nil
  rcases block : scanOpened settings line found outside inside with
    ⟨tokens, fault | ⟨lineAfter, rest⟩⟩
  · exact .cutOff alone (replaced inside) block
  · obtain ⟨inner, rfl, _, rfl, closed⟩ := scanBlock_closed usual block
    exact .closed alone (fun other => replaced (inner ++ other)) closed

section Whole

variable (usual : settings.HasUsualMarks)
include usual

theorem openMark_append_ne_nil (outside inside : List Char) :
    outside ++ settings.openMark.toList ++ inside ≠ [] := by
  rw [usual.openMark_toList]
  simp

theorem length_lt_of_closed (outside inner rest : List Char) :
    rest.length < (outside ++ settings.openMark.toList ++ (inner ++ rest)).length := by
  rw [usual.openMark_toList]
  simp only [List.length_append, List.length_cons]
  omega

/-- A document further down, with other tokens before it. -/
theorem scanDocument_movedDown (line : Nat) (found : List Token) (cs : List Char) (lines : Nat)
    (earlier : List Token) :
    scanDocument settings (line + lines) (found.map (·.movedDown lines) ++ earlier) cs =
      ⟨earlier.reverse ++ (scanDocument settings line found cs).tokens.map (·.movedDown lines),
        endingMovedDown lines (scanDocument settings line found cs).ending⟩ := by
  induction size : cs.length using Nat.strong_induction_on generalizing line found cs with
  | _ size ih =>
  subst size
  by_cases empty : cs = []
  · subst empty
    rw [scanDocument_nil, scanDocument_nil]
    simp [endingMovedDown]
  cases documentShape usual line found cs with
  | literal split =>
      rw [scanDocument_of_no_block empty split, scanDocument_of_no_block empty split,
        placeLiteral_movedDown]
      simp [endingMovedDown, Nat.add_right_comm]
  | @cutOff outside inside tokens fault alone split block =>
      have moved := scanOpened_movedDown settings line found outside inside lines earlier
      rw [block] at moved
      rw [scanDocument_of_fault empty split block, scanDocument_of_fault empty split moved]
      simp [endingMovedDown]
  | @closed outside inner rest tokens alone split block =>
      have shorter := length_lt_of_closed usual outside inner rest
      have moved := scanOpened_movedDown settings line found outside (inner ++ rest) lines earlier
      rw [block] at moved
      rw [scanDocument_of_block empty (split rest) (block rest) shorter,
        scanDocument_of_block empty (split rest) moved shorter]
      exact ih rest.length shorter _ _ rest rfl

/-- After a part that ends with a block the scan goes on with what was found. -/
theorem scanDocument_append {lineAfter : Nat} (more : List Char)
    (closed : EndsClosed (scanDocument settings line found cs).tokens)
    (ending : (scanDocument settings line found cs).ending = .ok lineAfter) :
    scanDocument settings line found (cs ++ more) =
        scanDocument settings lineAfter (scanDocument settings line found cs).tokens.reverse more ∧
      lineAfter = line + lineEnds cs := by
  induction size : cs.length using Nat.strong_induction_on generalizing line found cs with
  | _ size ih =>
  subst size
  by_cases empty : cs = []
  · subst empty
    rw [scanDocument_nil] at ending ⊢
    cases ending
    simp
  cases documentShape usual line found cs with
  | literal split =>
      rw [scanDocument_of_no_block empty split] at closed
      obtain ⟨token, rest, placed, other⟩ := placeLiteral_eq_cons line found empty
      rw [placed] at closed
      exact (other (closed token (by simp))).elim
  | @cutOff outside inside tokens fault alone split block =>
      rw [scanDocument_of_fault empty split block] at ending
      cases ending
  | @closed outside inner rest tokens alone split block =>
      have shorter := length_lt_of_closed usual outside inner rest
      have longer := length_lt_of_closed usual outside inner (rest ++ more)
      have whole : outside ++ settings.openMark.toList ++ (inner ++ rest) ++ more =
          outside ++ settings.openMark.toList ++ (inner ++ (rest ++ more)) := by
        simp only [List.append_assoc]
      rw [whole, scanDocument_of_block (openMark_append_ne_nil usual _ _) (split _) (block _) longer]
      rw [scanDocument_of_block empty (split rest) (block rest) shorter] at closed ending ⊢
      obtain ⟨same, lines⟩ := ih rest.length shorter closed ending rfl
      refine ⟨same, ?_⟩
      rw [lines, lineEnds_append, lineEnds_append, lineEnds_append, usual.openMark_toList]
      simp only [lineEnds, List.count_cons, List.count_nil]
      simp
      omega

end Whole

/-- A document that ends with a block, or is empty, is continued by scanning what follows it. -/
theorem scan_append (usual : settings.HasUsualMarks) {first : String} (second : String) {lineAfter : Nat}
    (closed : EndsClosed (scan settings first).tokens)
    (ending : (scan settings first).ending = .ok lineAfter) :
    scan settings (first ++ second) =
      ⟨(scan settings first).tokens ++
          (scan settings second).tokens.map (·.movedDown (lineEnds first.toList)),
        endingMovedDown (lineEnds first.toList) (scan settings second).ending⟩ := by
  obtain ⟨continued, rfl⟩ := scanDocument_append usual second.toList closed ending
  have moved := scanDocument_movedDown usual 1 [] second.toList (lineEnds first.toList)
    (scan settings first).tokens.reverse
  rw [List.reverse_reverse] at moved
  rw [scan, String.toList_append, continued]
  exact moved

theorem scanBlock_ne_nil (openedAt line : Nat) (cs : List Char) (some : found ≠ []) :
    (scanBlock settings openedAt line found cs).1 ≠ [] := by
  fun_induction scanBlock settings openedAt line found cs with
  | case1 line found cs rest step ih => exact ih some
  | case2 line found cs lexeme lines rest step ih => exact ih (List.cons_ne_nil _ _)
  | case3 line found cs rest step => exact List.cons_ne_nil _ _
  | case4 line found cs fault step => exact some

/-- A document that cannot be scanned to its end has a token before the fault. -/
theorem scanDocument_ne_nil {fault : Fault}
    (failed : (scanDocument settings line found cs).ending = .error fault) :
    (scanDocument settings line found cs).tokens ≠ [] := by
  fun_induction scanDocument settings line found cs with
  | case1 => cases failed
  | case2 => cases failed
  | case3 line found cs nonempty split placed inside opened tokens fault block =>
      have some :
          (scanBlock settings placed.2 placed.2 (⟨.blockOpen, placed.2⟩ :: placed.1) inside).1 ≠ [] :=
        scanBlock_ne_nil _ _ inside (List.cons_ne_nil _ _)
      rw [block] at some
      simpa using some
  | case4 line found cs nonempty split placed inside opened tokens lineAfter rest block shorter ih =>
      exact ih failed
  | case5 => cases failed

end EquationText

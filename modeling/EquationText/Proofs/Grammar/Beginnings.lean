import EquationText.Proofs.Grammar.Derivation

/-! # The first tokens of words

Some tokens begin a word of a category when there are others that make a word of them
(`EquationText.Category.Begins`). Where a reading of the grammar stops, the tokens before begin a word, but for
the last of them where the words are nested too deeply (`EquationText.StopsAfter`).
-/

namespace EquationText

/-- Whether some tokens are the first ones of a word of a category. -/
def Category.Begins (category : Category) (levels : Nat) (tokens : List Token) : Prop :=
  ∃ rest tree, Derives category levels (tokens ++ rest) tree

/-- Whether some tokens are the first ones of an equation. -/
def BeginsEquation (levels : Nat) (tokens : List Token) : Prop :=
  ∃ rest tree, DerivesEquation levels (tokens ++ rest) tree

/-- Whether reading may stop after some tokens, with a fault at the next one: they begin a word, or they do
with more levels and did with the given ones up to the last of them. -/
structure StopsAfter (begins : Nat → List Token → Prop) (levels : Nat) (passed : List Token)
    (isDeep : Bool) : Prop where
  within : isDeep = false → begins levels passed
  deeper : ∃ more, levels ≤ more ∧ begins more passed
  shorter : passed ≠ [] → begins levels passed.dropLast

variable {category : Category} {levels : Nat} {word passed tokens others : List Token} {tree : Expr}
  {isDeep : Bool}

theorem Derives.begins (derives : Derives category levels word tree) : category.Begins levels word :=
  ⟨[], tree, by rwa [List.append_nil]⟩

/-- Every category has a word. -/
theorem Category.begins_nil (category : Category) (levels : Nat) : category.Begins (levels + 1) [] := by
  have primary : ∀ levels, Derives .primary levels [⟨.keyword "", 0⟩] .anonymous := fun _ => .anonymous
  have power : ∀ levels, Derives .power levels [⟨.keyword "", 0⟩] .anonymous :=
    fun levels => .ofPostfixed (.ofPrimary (primary levels))
  have signed : Derives .signed (levels + 1) [⟨.keyword "", 0⟩] .anonymous := .ofPower (power levels)
  refine ⟨[⟨.keyword "", 0⟩], .anonymous, ?_⟩
  cases category with
  | expression => exact .ofTerm (.ofSigned signed)
  | term => exact .ofSigned signed
  | signed => exact signed
  | power => exact power _
  | postfixed => exact .ofPrimary (primary _)
  | primary => exact primary _

namespace StopsAfter

variable {begins longer : Nat → List Token → Prop}

/-- What begins longer words does so without its last token. -/
theorem of_begins (here : begins levels passed)
    (shorter : ∀ more token, begins levels (more ++ [token]) → begins levels more) :
    StopsAfter begins levels passed isDeep where
  within _ := here
  deeper := ⟨levels, Nat.le_refl levels, here⟩
  shorter some := shorter _ (passed.getLast some) (by rwa [List.dropLast_concat_getLast])

/-- What begins one kind of words may begin another one. -/
theorem mono (stops : StopsAfter begins levels passed isDeep) (extra : Nat)
    (implies : ∀ more tokens, levels ≤ more → begins more tokens → longer (more + extra) tokens) :
    StopsAfter longer (levels + extra) passed isDeep where
  within grammatical := implies levels passed (Nat.le_refl levels) (stops.within grammatical)
  deeper := by
    obtain ⟨more, le, here⟩ := stops.deeper
    exact ⟨more + extra, Nat.add_le_add_right le extra, implies more passed le here⟩
  shorter some := implies levels _ (Nat.le_refl levels) (stops.shorter some)

/-- Reading may stop in a word of one category that is one of another category as it is. -/
theorem wrap {inner outer : Category} (stops : StopsAfter inner.Begins levels passed isDeep) (extra : Nat)
    (wraps : ∀ more word tree, Derives inner more word tree → Derives outer (more + extra) word tree) :
    StopsAfter outer.Begins (levels + extra) passed isDeep := by
  refine stops.mono extra ?_
  rintro more tokens - ⟨rest, tree, derives⟩
  exact ⟨rest, tree, wraps more _ tree derives⟩

/-- What begins one kind of words may begin another one after more tokens. -/
theorem after (stops : StopsAfter begins levels passed isDeep) (extra : Nat) (token : Token)
    (implies : ∀ more tokens, levels ≤ more → begins more tokens →
      longer (more + extra) (word ++ [token] ++ tokens))
    (earlier : longer (levels + extra) word) :
    StopsAfter longer (levels + extra) (word ++ [token] ++ passed) isDeep where
  within grammatical := implies levels passed (Nat.le_refl levels) (stops.within grammatical)
  deeper := by
    obtain ⟨more, le, here⟩ := stops.deeper
    exact ⟨more + extra, Nat.add_le_add_right le extra, implies more passed le here⟩
  shorter _ := by
    by_cases none : passed = []
    · rwa [none, List.append_nil, List.dropLast_concat]
    · rw [List.dropLast_append_of_ne_nil none]
      exact implies levels _ (Nat.le_refl levels) (stops.shorter none)

end StopsAfter

theorem Category.Begins.of_append (begins : category.Begins levels (tokens ++ others)) :
    category.Begins levels tokens := by
  obtain ⟨rest, tree, derives⟩ := begins
  exact ⟨others ++ rest, tree, by rwa [← List.append_assoc]⟩

/-- An expression may be the first side of an equation. -/
theorem Category.Begins.equation (begins : Category.expression.Begins levels tokens) :
    BeginsEquation levels tokens := by
  obtain ⟨rest, tree, derives⟩ := begins
  have whole : DerivesEquation levels (tokens ++ rest ++ ⟨.operator '=', 0⟩ :: (tokens ++ rest)) _ :=
    .intro derives derives
  exact ⟨rest ++ ⟨.operator '=', 0⟩ :: (tokens ++ rest), _, by simpa using whole⟩

theorem BeginsEquation.of_append (begins : BeginsEquation levels (tokens ++ others)) :
    BeginsEquation levels tokens := by
  obtain ⟨rest, tree, derives⟩ := begins
  exact ⟨others ++ rest, tree, by rwa [← List.append_assoc]⟩

/-- Reading may stop anywhere in a word. -/
theorem Category.Begins.stops (begins : category.Begins levels passed) :
    StopsAfter category.Begins levels passed isDeep :=
  .of_begins begins fun _ _ => .of_append

/-- Reading may stop anywhere in an equation. -/
theorem BeginsEquation.stops (begins : BeginsEquation levels passed) :
    StopsAfter BeginsEquation levels passed isDeep :=
  .of_begins begins fun _ _ => .of_append

end EquationText

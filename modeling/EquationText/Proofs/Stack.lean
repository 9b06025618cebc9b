import EquationText.Stack
import Mathlib.Data.List.Perm.Subperm
import Mathlib.Tactic.Common

/-! # Operand stacks at work

What is asked of a stack is answered from its top: an insertion has as many values above it as it asks for, and a
removal gives as many of the topmost as it asks for, unless it asks for a negative number of them
(`EquationText.StackStep.IsLawful`). Over any run, what was in the stack and what was supplied to it is in the stack
or was taken from it, and what stays in the stack keeps its order (`EquationText.OperandStack.steps_conserve`).
-/

namespace EquationText

/-- Something asked of a stack. -/
inductive StackRequest (α : Type)
  | push (value : α)
  | insert (value : α) (depth : Int)
  | pop (count : Int)
  | peek
  | clear

/-- A request with the stack that it was put to, what it came to, and the stack that it left. -/
structure StackStep (α : Type) where
  before : OperandStack α
  request : StackRequest α
  outcome : Except Cause (List α)
  after : OperandStack α

variable {α : Type}

namespace OperandStack

/-- The values that a request gives, and the stack that it leaves: the same stack if it is refused. -/
def answer (stack : OperandStack α) : StackRequest α → Except Cause (List α) × OperandStack α
  | .push value => (.ok [], stack.push value)
  | .insert value depth =>
    match stack.insert value depth with
    | .ok after => (.ok [], after)
    | .error cause => (.error cause, stack)
  | .pop count =>
    match stack.pop count with
    | .ok (values, after) => (.ok values, after)
    | .error cause => (.error cause, stack)
  | .peek => (stack.peek.map ([·]), stack)
  | .clear => (.ok [], .empty)

/-- The step that a request makes. -/
def step (stack : OperandStack α) (request : StackRequest α) : StackStep α :=
  ⟨stack, request, (stack.answer request).1, (stack.answer request).2⟩

/-- The steps that requests make, one after another and whatever comes of them. -/
def steps (stack : OperandStack α) : List (StackRequest α) → List (StackStep α)
  | [] => []
  | request :: rest => stack.step request :: (stack.answer request).2.steps rest

/-- The stack that requests leave. -/
def afterAll (stack : OperandStack α) : List (StackRequest α) → OperandStack α
  | [] => stack
  | request :: rest => (stack.answer request).2.afterAll rest

end OperandStack

namespace StackStep

/-- The values that a step brings into the stack. -/
def supplied (step : StackStep α) : List α :=
  match step.request, step.outcome with
  | .push value, _ | .insert value _, .ok _ => [value]
  | _, _ => []

/-- The values that a step takes out of the stack. -/
def removed (step : StackStep α) : List α :=
  match step.request, step.outcome with
  | .pop _, .ok values => values
  | .clear, _ => step.before.toList
  | _, _ => []

/-- What a step does, depending on what is asked for. -/
structure IsLawful (step : StackStep α) : Prop where
  /-- What is refused changes nothing, and it is refused because the stack holds too little. -/
  refused : ∀ cause, step.outcome = .error cause →
    step.after = step.before ∧ cause.code? = some "STACK_UNDERFLOW"
  /-- A value that is pushed comes on top. -/
  pushed : ∀ value, step.request = .push value →
    step.outcome = .ok [] ∧ step.after.toList = step.before.toList ++ [value]
  /-- A value that is inserted comes below as many values as it was asked for, if there are so many. -/
  inserted : ∀ value depth, step.request = .insert value depth →
    if 0 ≤ depth ∧ depth ≤ step.before.depth then
      step.outcome = .ok [] ∧ ∃ below above : List α, (above.length : Int) = depth ∧
        step.before.toList = below ++ above ∧ step.after.toList = below ++ value :: above
    else step.outcome = .error (.operands (.insertion depth step.before.depth))
  /-- The topmost values are given in the order in which they were pushed, as many as asked for, if there are so
  many. -/
  popped : ∀ count, step.request = .pop count → 0 ≤ count →
    if count ≤ step.before.depth then
      ∃ values, step.outcome = .ok values ∧ (values.length : Int) = count ∧
        step.before.toList = step.after.toList ++ values
    else step.outcome = .error (.operands (.removal count step.before.depth))
  /-- A negative number of values is not refused: it is the number of values that stay, if there are so many. -/
  poppedToBottom : ∀ count, step.request = .pop count → count < 0 →
    ∃ values, step.outcome = .ok values ∧ (step.after.depth : Int) = min (-count) step.before.depth ∧
      step.before.toList = step.after.toList ++ values
  /-- The topmost value is shown, if there is one. -/
  peeked : step.request = .peek → step.after = step.before ∧
    step.outcome = match step.before.toList.getLast? with
      | some top => .ok [top]
      | none => .error (.operands .empty)
  /-- Clearing leaves nothing. -/
  cleared : step.request = .clear → step.outcome = .ok [] ∧ step.after.toList = []

end StackStep

/-! ## The operations -/

namespace OperandStack

variable {stack rest : OperandStack α} {values : List α} {value : α} {count depth : Int}

theorem length_toList (stack : OperandStack α) : stack.toList.length = stack.depth := List.length_reverse

theorem toList_push (value : α) (stack : OperandStack α) : (stack.push value).toList = stack.toList ++ [value] :=
  List.reverse_cons

/-- The values that are popped were on top of the stack, the last one topmost. -/
theorem topFirst_of_pop (popped : stack.pop count = .ok (values, rest)) :
    stack.topFirst = values.reverse ++ rest.topFirst := by
  unfold pop at popped
  split at popped
  · cases popped
  · cases popped
    rw [List.reverse_reverse, List.take_append_drop]

theorem toList_of_pop (popped : stack.pop count = .ok (values, rest)) : stack.toList = rest.toList ++ values := by
  rw [toList, topFirst_of_pop popped, List.reverse_append, List.reverse_reverse, toList]

theorem mem_of_pop (popped : stack.pop count = .ok (values, rest)) (member : value ∈ values ∨ value ∈ rest.topFirst) :
    value ∈ stack.topFirst := by
  rw [topFirst_of_pop popped]
  simpa using member

/-- The values on top of a stack are popped in the order in which they were pushed. -/
theorem pop_append {below : List α} (top : stack.topFirst = values.reverse ++ below) :
    stack.pop values.length = .ok (values, ⟨below⟩) := by
  have held : ¬ (stack.depth : Int) < values.length := by
    rw [depth, top, List.length_append, List.length_reverse]
    omega
  have taken : stack.topFirst.take values.length = values.reverse := top ▸ List.take_left' List.length_reverse
  have dropped : stack.topFirst.drop values.length = below := top ▸ List.drop_left' List.length_reverse
  unfold pop
  simp only [if_neg held, Int.natCast_nonneg, ↓reduceIte, Int.toNat_natCast, taken, dropped, List.reverse_reverse]

/-- So many values are popped as are asked for, or so many are left if a negative number is. -/
theorem length_of_pop (popped : stack.pop count = .ok (values, rest)) :
    (0 ≤ count → (values.length : Int) = count) ∧
      (count < 0 → (rest.depth : Int) = min (-count) stack.depth) := by
  unfold pop at popped
  split at popped
  · cases popped
  · rename_i held
    cases popped
    simp only [depth, List.length_reverse, List.length_take, List.length_drop] at held ⊢
    refine ⟨fun nonneg => ?_, fun negative => ?_⟩
    · rw [if_pos nonneg]
      omega
    · rw [if_neg (Int.not_le.mpr negative)]
      omega

theorem exists_pop (held : count ≤ stack.depth) : ∃ values rest, stack.pop count = .ok (values, rest) :=
  ⟨_, _, if_neg (Int.not_lt.mpr held)⟩

theorem pop_of_lt (more : (stack.depth : Int) < count) :
    stack.pop count = .error (.operands (.removal count stack.depth)) := if_pos more

/-- An insertion puts a value below as many values as it asks for. -/
theorem exists_insert (value : α) (nonneg : 0 ≤ depth) (held : depth ≤ stack.depth) :
    ∃ after below above, stack.insert value depth = .ok after ∧ (above.length : Int) = depth ∧
      stack.toList = below ++ above ∧ after.toList = below ++ value :: above := by
  have inside : ¬ (depth < 0 || (stack.depth : Int) < depth) = true := by
    simp only [Bool.or_eq_true, decide_eq_true_eq]
    omega
  refine ⟨_, (stack.topFirst.drop depth.toNat).reverse, (stack.topFirst.take depth.toNat).reverse, if_neg inside,
    ?_, ?_, ?_⟩
  · simp only [OperandStack.depth] at held
    rw [List.length_reverse, List.length_take]
    omega
  · rw [← List.reverse_append, List.take_append_drop, toList]
  · simp [toList]

theorem insert_of_not (outside : ¬ (0 ≤ depth ∧ depth ≤ stack.depth)) :
    stack.insert value depth = .error (.operands (.insertion depth stack.depth)) := by
  refine if_pos ?_
  simp only [Bool.or_eq_true, decide_eq_true_eq]
  omega

theorem peek_eq (stack : OperandStack α) :
    (stack.peek.map ([·]) : Except Cause (List α)) = match stack.toList.getLast? with
      | some top => .ok [top]
      | none => .error (.operands .empty) := by
  obtain ⟨topFirst⟩ := stack
  cases topFirst with
  | nil => rfl
  | cons top below =>
      rw [toList, List.getLast?_reverse]
      rfl

end OperandStack

/-! ## Steps -/

namespace OperandStack

variable {stack after : OperandStack α} {values : List α} {cause : Cause}

section Answers

variable {value : α} {count depth : Int}

theorem step_insert_of_ok (ok : stack.insert value depth = .ok after) :
    stack.step (.insert value depth) = ⟨stack, .insert value depth, .ok [], after⟩ := by
  simp only [step, answer, ok]

theorem step_insert_of_error (error : stack.insert value depth = .error cause) :
    stack.step (.insert value depth) = ⟨stack, .insert value depth, .error cause, stack⟩ := by
  simp only [step, answer, error]

theorem step_pop_of_ok (ok : stack.pop count = .ok (values, after)) :
    stack.step (.pop count) = ⟨stack, .pop count, .ok values, after⟩ := by
  simp only [step, answer, ok]

theorem step_pop_of_error (error : stack.pop count = .error cause) :
    stack.step (.pop count) = ⟨stack, .pop count, .error cause, stack⟩ := by
  simp only [step, answer, error]

end Answers

/-- An insertion puts its value below as many values as it asks for, or there are not so many. -/
theorem isLawful_insert (stack : OperandStack α) (value : α) (depth : Int) :
    (stack.step (.insert value depth)).IsLawful := by
  by_cases inside : 0 ≤ depth ∧ depth ≤ stack.depth
  · obtain ⟨after, below, above, ok, length, split, joined⟩ := exists_insert value inside.1 inside.2
    rw [step_insert_of_ok ok]
    refine ⟨nofun, nofun, ?_, nofun, nofun, nofun, nofun⟩
    rintro _ _ ⟨⟩
    rw [if_pos inside]
    exact ⟨rfl, below, above, length, split, joined⟩
  · rw [step_insert_of_error (insert_of_not inside)]
    refine ⟨?_, nofun, ?_, nofun, nofun, nofun, nofun⟩
    · rintro _ ⟨⟩
      exact ⟨rfl, rfl⟩
    · rintro _ _ ⟨⟩
      rw [if_neg inside]

/-- A removal gives the topmost values in their order, or there are not so many as it asks for. -/
theorem isLawful_pop (stack : OperandStack α) (count : Int) : (stack.step (.pop count)).IsLawful := by
  by_cases held : count ≤ stack.depth
  · obtain ⟨values, after, ok⟩ := exists_pop held
    obtain ⟨wanted, left⟩ := length_of_pop ok
    rw [step_pop_of_ok ok]
    refine ⟨nofun, nofun, nofun, ?_, ?_, nofun, nofun⟩
    · rintro _ ⟨⟩ nonneg
      rw [if_pos held]
      exact ⟨values, rfl, wanted nonneg, toList_of_pop ok⟩
    · rintro _ ⟨⟩ negative
      exact ⟨values, rfl, left negative, toList_of_pop ok⟩
  · rw [step_pop_of_error (pop_of_lt (Int.not_le.mp held))]
    refine ⟨?_, nofun, nofun, ?_, ?_, nofun, nofun⟩
    · rintro _ ⟨⟩
      exact ⟨rfl, rfl⟩
    · rintro _ ⟨⟩ _
      rw [if_neg held]
    · rintro _ ⟨⟩ negative
      omega

/-- Looking at the topmost value changes nothing. -/
theorem isLawful_peek (stack : OperandStack α) : (stack.step .peek).IsLawful := by
  refine ⟨fun cause refused => ⟨rfl, ?_⟩, nofun, nofun, nofun, nofun, fun _ => ⟨rfl, peek_eq stack⟩, nofun⟩
  obtain ⟨topFirst⟩ := stack
  cases topFirst with
  | nil =>
      cases refused
      rfl
  | cons top below => cases refused

/-- Every step does what its request asks for, or is refused and changes nothing. -/
theorem isLawful_step (stack : OperandStack α) (request : StackRequest α) : (stack.step request).IsLawful := by
  cases request with
  | push value =>
      refine ⟨nofun, ?_, nofun, nofun, nofun, nofun, nofun⟩
      rintro _ ⟨⟩
      exact ⟨rfl, toList_push value stack⟩
  | insert value depth => exact isLawful_insert stack value depth
  | pop count => exact isLawful_pop stack count
  | peek => exact isLawful_peek stack
  | clear => exact ⟨nofun, nofun, nofun, nofun, nofun, nofun, fun _ => ⟨rfl, rfl⟩⟩

end OperandStack

/-! ## Runs -/

/-- Whether some values are still there from the bottom up, in their order, and the others were removed. -/
def StaysInOrder (before removed after : List α) : Prop :=
  ∃ kept gone, before = kept ++ gone ∧ kept.Sublist after ∧ gone.Subperm removed

namespace StaysInOrder

variable {before first middle second removed after : List α}

theorem of_sublist (stays : before.Sublist after) : StaysInOrder before removed after :=
  ⟨before, [], (List.append_nil _).symm, stays, List.nil_subperm⟩

theorem of_append (split : before = after ++ removed) : StaysInOrder before removed after :=
  ⟨after, removed, split, .refl _, .refl _⟩

theorem trans (one : StaysInOrder before first middle) (two : StaysInOrder middle second after) :
    StaysInOrder before (first ++ second) after := by
  obtain ⟨kept, gone, rfl, inside, removed⟩ := one
  obtain ⟨keptLater, goneLater, rfl, insideLater, removedLater⟩ := two
  obtain ⟨staying, leaving, rfl, stays, leaves⟩ := List.sublist_append_iff.mp inside
  refine ⟨staying, leaving ++ gone, List.append_assoc .., stays.trans insideLater, ?_⟩
  exact ((leaves.subperm.trans removedLater).append removed).trans List.perm_append_comm.subperm

end StaysInOrder

/-- Whether what was in a stack or supplied is what is in it or removed, and what stays in it keeps its order. -/
structure Conserves (before supplied removed after : List α) : Prop where
  balance : (after ++ removed).Perm (before ++ supplied)
  order : StaysInOrder before removed after

namespace Conserves

theorem unchanged (values : List α) : Conserves values [] [] values := ⟨.refl _, .of_sublist (.refl _)⟩

/-- A value that comes between others. -/
theorem of_insert {before after below above : List α} {value : α} (split : before = below ++ above)
    (joined : after = below ++ value :: above) : Conserves before [value] [] after := by
  subst split joined
  refine ⟨?_, .of_sublist (List.Sublist.append (.refl _) (List.sublist_cons_self value above))⟩
  rw [List.append_nil, List.append_assoc]
  exact (List.perm_append_singleton value above).symm.append_left below

/-- Values that are taken off the end. -/
theorem of_append {before removed after : List α} (split : before = after ++ removed) :
    Conserves before [] removed after :=
  ⟨by rw [split, List.append_nil], .of_append split⟩

theorem trans {before supplied removed middle suppliedLater removedLater after : List α}
    (one : Conserves before supplied removed middle) (two : Conserves middle suppliedLater removedLater after) :
    Conserves before (supplied ++ suppliedLater) (removed ++ removedLater) after := by
  refine ⟨?_, one.order.trans two.order⟩
  classical
  refine List.perm_iff_count.mpr fun value => ?_
  have first := one.balance.count_eq value
  have later := two.balance.count_eq value
  simp only [List.count_append] at first later ⊢
  omega

end Conserves

namespace OperandStack

/-- A step loses nothing, brings in nothing that was not supplied, and changes no order. -/
theorem conserves_step (stack : OperandStack α) (request : StackRequest α) :
    Conserves stack.toList (stack.step request).supplied (stack.step request).removed
      (stack.step request).after.toList := by
  cases request with
  | push value => exact .of_insert (List.append_nil _).symm (toList_push value stack)
  | insert value depth =>
      by_cases inside : 0 ≤ depth ∧ depth ≤ stack.depth
      · obtain ⟨after, below, above, ok, _, split, joined⟩ := exists_insert value inside.1 inside.2
        rw [step_insert_of_ok ok]
        exact .of_insert split joined
      · rw [step_insert_of_error (insert_of_not inside)]
        exact .unchanged _
  | pop count =>
      by_cases held : count ≤ stack.depth
      · obtain ⟨values, after, ok⟩ := exists_pop held
        rw [step_pop_of_ok ok]
        exact .of_append (toList_of_pop ok)
      · rw [step_pop_of_error (pop_of_lt (Int.not_le.mp held))]
        exact .unchanged _
  | peek => exact .unchanged _
  | clear => exact .of_append rfl

/-- Whatever is asked of a stack, each step does it or is refused and changes nothing. What was in the stack and
what was supplied is what is in the stack and what was removed, and the values that stay keep their order. The
stack is any, so this holds between any two moments of a run. -/
theorem steps_conserve (stack : OperandStack α) (requests : List (StackRequest α)) :
    (∀ step ∈ stack.steps requests, step.IsLawful) ∧
      Conserves stack.toList ((stack.steps requests).flatMap StackStep.supplied)
        ((stack.steps requests).flatMap StackStep.removed) (stack.afterAll requests).toList := by
  induction requests generalizing stack with
  | nil => exact ⟨nofun, .unchanged _⟩
  | cons request rest ih =>
      obtain ⟨lawful, conserves⟩ := ih (stack.answer request).2
      exact ⟨List.forall_mem_cons.mpr ⟨isLawful_step stack request, lawful⟩,
        (conserves_step stack request).trans conserves⟩

/-- A removal of a negative number of values is not refused, though no values can be so many. -/
theorem pop_negative :
    ¬ ∀ (stack : OperandStack String) (count : Int),
      (∃ values rest, stack.pop count = .ok (values, rest) ∧ (values.length : Int) = count ∧
        stack.toList = rest.toList ++ values) ∨
      ∃ cause, stack.pop count = .error cause ∧ cause.code? = some "STACK_UNDERFLOW" := by
  intro either
  have popped : (⟨["b", "a"]⟩ : OperandStack String).pop (-1) = .ok (["b"], ⟨["a"]⟩) := rfl
  rcases either ⟨["b", "a"]⟩ (-1) with ⟨values, rest, ok, length, _⟩ | ⟨cause, error, _⟩
  · omega
  · rw [popped] at error
    cases error

end OperandStack

end EquationText

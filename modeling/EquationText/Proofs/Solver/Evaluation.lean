import EquationText.Proofs.Action
import EquationText.Proofs.Expr.Reduction
import EquationText.Proofs.Form.Unknowns
import EquationText.Proofs.Solver.Known
import EquationText.Solver.Evaluate

/-! # What evaluation does

The value of an expression comes from the values of its operands, taken from left to right
(`EquationText.Solver.evaluate_binary` and its siblings). It mentions only what the known forms of the
expression's names mention, and the unknowns that the evaluation created
(`EquationText.Solver.mem_unknowns_evaluate`).
-/

namespace EquationText

namespace Evaluation

variable {α β : Type} {start finish : Nat}

theorem run_bind_eq_ok {first : Evaluation α} {next : α → Evaluation β} {b : β}
    (ok : (first >>= next).run start = .ok (b, finish)) :
    ∃ a middle, first.run start = .ok (a, middle) ∧ (next a).run middle = .ok (b, finish) := by
  rw [StateT.run_bind] at ok
  cases run : first.run start with
  | error cause =>
      rw [run] at ok
      cases ok
  | ok pair =>
      rw [run] at ok
      exact ⟨pair.1, pair.2, rfl, ok⟩

theorem run_lift_eq_ok {computation : Except Cause α} {a : α}
    (ok : (liftM computation : Evaluation α).run start = .ok (a, finish)) :
    computation = .ok a ∧ finish = start := by
  cases computation with
  | error cause => cases ok
  | ok found =>
      cases ok
      exact ⟨rfl, rfl⟩

end Evaluation

namespace Expr

/-- The names that occur in an expression. -/
def names : Expr → List String
  | named name => [name]
  | anonymous | number _ => []
  | negation operand => operand.names
  | application callee argument => callee.names ++ argument.names
  | mediation condition consequent alternative =>
    condition.names ++ consequent.names ++ alternative.names
  | binary _ left right => left.names ++ right.names

/-- The number of unnamed unknowns in an expression. -/
def anonymousCount : Expr → Nat
  | named _ | number _ => 0
  | anonymous => 1
  | negation operand => operand.anonymousCount
  | application callee argument => callee.anonymousCount + argument.anonymousCount
  | mediation condition consequent alternative =>
    condition.anonymousCount + consequent.anonymousCount + alternative.anonymousCount
  | binary _ left right => left.anonymousCount + right.anonymousCount

end Expr

namespace Value

/-- The unknowns that a value mentions. -/
def unknowns : Value → List Unknown
  | form f => f.unknowns
  | infinite => []

variable {cutoff : Rat} {a b result : Value} {unknown : Unknown}

@[simp]
theorem unknowns_neg (a : Value) : a.neg.unknowns = a.unknowns := by
  cases a with
  | form f => exact Form.unknowns_neg f
  | infinite => rfl

theorem mem_unknowns_add (ok : a.add b = .ok result) (member : unknown ∈ result.unknowns) :
    unknown ∈ a.unknowns ∨ unknown ∈ b.unknowns := by
  cases a <;> cases b <;> cases ok
  · exact Form.mem_unknowns_add member
  · cases member
  · cases member

theorem mem_unknowns_sub (ok : a.sub b = .ok result) (member : unknown ∈ result.unknowns) :
    unknown ∈ a.unknowns ∨ unknown ∈ b.unknowns := by
  simpa using mem_unknowns_add ok member

/-- A product mentions no unknown that its factors do not mention. -/
theorem mem_unknowns_mul (ok : a.mul b = .ok result) (member : unknown ∈ result.unknowns) :
    unknown ∈ a.unknowns ∨ unknown ∈ b.unknowns := by
  unfold mul at ok
  split at ok
  · split at ok
    · cases ok
      exact .inr (Form.mem_unknowns_scale member)
    · split at ok
      · cases ok
        exact .inl (Form.mem_unknowns_scale member)
      · cases ok
  · split at ok <;> cases ok
    cases member
  · split at ok <;> cases ok
    cases member
  · cases ok
    cases member

theorem mem_unknowns_div (ok : a.div cutoff b = .ok result) (member : unknown ∈ result.unknowns) :
    unknown ∈ a.unknowns := by
  unfold div at ok
  repeat' split at ok
  all_goals cases ok
  all_goals first
    | exact Form.mem_unknowns_div member
    | cases member

theorem unknowns_pow (ok : a.pow cutoff b = .ok result) : result.unknowns = [] := by
  unfold pow at ok
  split at ok
  · cases ok
  split at ok
  · cases ok
  obtain ⟨base, _, ok⟩ := except_bind_eq_ok ok
  obtain ⟨exponent, _, ok⟩ := except_bind_eq_ok ok
  obtain ⟨number, _, ok⟩ := except_bind_eq_ok ok
  cases ok
  rfl

theorem unknowns_applyNamed {name : String} (ok : a.applyNamed cutoff name = .ok result) :
    result.unknowns = [] := by
  unfold applyNamed at ok
  split at ok
  · cases ok
  split at ok
  · cases ok
  split at ok
  · cases ok
  obtain ⟨number, _, ok⟩ := except_bind_eq_ok ok
  cases ok
  rfl

/-- A mediation is the sum of its first end and a part of the way to the other. -/
theorem mediate_eq_ok {t a b : Operand} (ok : Solver.mediate t a b = .ok result) :
    ∃ way part, b.value.sub a.value = .ok way ∧ t.value.mul way = .ok part ∧ a.value.add part = .ok result := by
  obtain ⟨way, difference, ok⟩ := except_bind_eq_ok ok
  obtain ⟨part, product, ok⟩ := except_bind_eq_ok ok
  unfold Solver.scaleWay at product
  split at product
  · cases product
  · exact ⟨way, part, difference, product, ok⟩

theorem mem_unknowns_mediate {t a b : Operand} (ok : Solver.mediate t a b = .ok result)
    (member : unknown ∈ result.unknowns) :
    unknown ∈ t.value.unknowns ∨ unknown ∈ a.value.unknowns ∨ unknown ∈ b.value.unknowns := by
  obtain ⟨way, part, difference, product, sum⟩ := mediate_eq_ok ok
  rcases mem_unknowns_add sum member with inside | inside
  · exact .inr (.inl inside)
  · rcases mem_unknowns_mul product inside with inside | inside
    · exact .inl inside
    · exact .inr (mem_unknowns_sub difference inside).symm

/-- An operation mentions no unknown that its operands do not mention. -/
theorem mem_unknowns_operate {operator : Operator}
    (ok : Solver.operate cutoff operator a b = .ok result) (member : unknown ∈ result.unknowns) :
    unknown ∈ a.unknowns ∨ unknown ∈ b.unknowns := by
  cases operator with
  | sum => exact mem_unknowns_add ok member
  | difference => exact mem_unknowns_sub ok member
  | product => exact mem_unknowns_mul ok member
  | quotient => exact .inl (mem_unknowns_div ok member)
  | exponentiation =>
      rw [unknowns_pow ok] at member
      cases member
  | equation => cases ok
  | negation => cases ok
  | application => cases ok
  | mediation => cases ok

theorem checkRange_eq_ok {value result : Value} (ok : value.checkRange = .ok result) :
    result = value := by
  cases value with
  | form form =>
      simp only [checkRange] at ok
      split at ok
      · cases ok
        rfl
      · cases ok
  | infinite =>
      cases ok
      rfl

end Value

namespace Solver

variable {settings : Settings} {solver : Solver} {value : Value} {start finish : Nat}

/-- A node comes to what combining gives; the check of its range changes nothing. -/
theorem combineInRange_eq_ok {node : Expr} {operands : List Operand} {operand : Operand}
    (ok : (solver.combineInRange settings node operands).run start = .ok (operand, finish)) :
    (solver.combine settings node operands).run start = .ok (operand, finish) := by
  obtain ⟨found, middle, combined, ok⟩ := Evaluation.run_bind_eq_ok ok
  obtain ⟨value, later, checked, done⟩ := Evaluation.run_bind_eq_ok ok
  obtain ⟨range, rfl⟩ := Evaluation.run_lift_eq_ok checked
  cases Value.checkRange_eq_ok range
  cases done
  exact combined

theorem operandOf_eq_reduce (expr : Expr) :
    solver.operandOf settings expr = expr.reduce (solver.combineInRange settings) :=
  Expr.fold_eq_reduce _ expr

theorem evaluate_eq_reduce (expr : Expr) :
    solver.evaluate settings expr = Operand.value <$> expr.reduce (solver.combineInRange settings) := by
  rw [evaluate, operandOf_eq_reduce]

/-- What an expression comes to has the value of the expression. -/
theorem run_evaluate_of_reduce (expr : Expr) {operand : Operand}
    (ok : (expr.reduce (solver.combineInRange settings)).run start = .ok (operand, finish)) :
    (solver.evaluate settings expr).run start = .ok (operand.value, finish) := by
  rw [evaluate_eq_reduce, StateT.run_map, ok]
  rfl

theorem reduce_of_evaluate {expr : Expr}
    (ok : (solver.evaluate settings expr).run start = .ok (value, finish)) :
    ∃ arrangement, (expr.reduce (solver.combineInRange settings)).run start = .ok (⟨value, arrangement⟩, finish) := by
  rw [evaluate_eq_reduce, StateT.run_map] at ok
  cases run : (expr.reduce (solver.combineInRange settings)).run start with
  | error cause =>
      rw [run] at ok
      cases ok
  | ok pair =>
      rw [run] at ok
      cases ok
      exact ⟨pair.1.arrangement, rfl⟩

/-- A node with a computed value. -/
theorem combine_eq_ok_of_lift {computation : Except Cause Value} {operand : Operand}
    (ok : (liftM (computation.map Operand.ofValue) : Evaluation Operand).run start = .ok (operand, finish)) :
    computation = .ok operand.value ∧ operand = .ofValue operand.value ∧ finish = start := by
  obtain ⟨found, same⟩ := Evaluation.run_lift_eq_ok ok
  cases computation with
  | error cause => cases found
  | ok computed =>
      cases found
      exact ⟨rfl, rfl, same⟩

theorem evaluate_named {name : String}
    (ok : (solver.evaluate settings (.named name)).run start = .ok (value, finish)) :
    value = .form (solver.formOf (.named name)) ∧ finish = start := by
  obtain ⟨arrangement, ok⟩ := reduce_of_evaluate ok
  cases combineInRange_eq_ok ok
  exact ⟨rfl, rfl⟩

theorem evaluate_anonymous
    (ok : (solver.evaluate settings .anonymous).run start = .ok (value, finish)) :
    value = .form (.ofUnknown (.anonymous start)) ∧ finish = start + 1 := by
  obtain ⟨arrangement, ok⟩ := reduce_of_evaluate ok
  cases combineInRange_eq_ok ok
  exact ⟨rfl, rfl⟩

theorem evaluate_number {d : Double}
    (ok : (solver.evaluate settings (.number d)).run start = .ok (value, finish)) :
    ∃ q, d.shortestValue? = some q ∧ value = .form (.ofRat q) ∧ finish = start := by
  obtain ⟨arrangement, ok⟩ := reduce_of_evaluate ok
  obtain ⟨read, _, rfl⟩ := combine_eq_ok_of_lift (combineInRange_eq_ok ok)
  unfold literal at read
  split at read
  · rename_i q found
    cases read
    exact ⟨q, found, rfl, rfl⟩
  · cases read

theorem evaluate_negation {operand : Expr}
    (ok : (solver.evaluate settings (.negation operand)).run start = .ok (value, finish)) :
    ∃ a, (solver.evaluate settings operand).run start = .ok (a, finish) ∧ value = a.neg := by
  obtain ⟨arrangement, ok⟩ := reduce_of_evaluate ok
  obtain ⟨a, middle, first, combined⟩ := Evaluation.run_bind_eq_ok ok
  cases combineInRange_eq_ok combined
  exact ⟨a.value, run_evaluate_of_reduce _ first, rfl⟩

/-- An application has a value where its callee is a name, and then the one of the function at its argument. -/
theorem evaluate_application {callee argument : Expr}
    (ok : (solver.evaluate settings (.application callee argument)).run start =
      .ok (value, finish)) :
    ∃ f middle a name, (solver.evaluate settings callee).run start = .ok (f, middle) ∧
      (solver.evaluate settings argument).run middle = .ok (a, finish) ∧
      callee = .named name ∧ a.applyNamed settings.cutoff name = .ok value := by
  obtain ⟨arrangement, ok⟩ := reduce_of_evaluate ok
  obtain ⟨f, middle, first, ok⟩ := Evaluation.run_bind_eq_ok ok
  obtain ⟨a, later, second, combined⟩ := Evaluation.run_bind_eq_ok ok
  have applied := combineInRange_eq_ok combined
  cases callee with
  | named name =>
      obtain ⟨result, _, rfl⟩ := combine_eq_ok_of_lift applied
      exact ⟨f.value, middle, a.value, name, run_evaluate_of_reduce _ first, run_evaluate_of_reduce _ second, rfl,
        result⟩
  | _ => cases applied

/-- A mediation has a value where its three parts do, taken from left to right. How they are written matters, too.
-/
theorem evaluate_mediation {condition consequent alternative : Expr}
    (ok : (solver.evaluate settings (.mediation condition consequent alternative)).run start =
      .ok (value, finish)) :
    ∃ (t : Operand) (first : Nat) (a : Operand) (second : Nat) (b : Operand),
      (solver.evaluate settings condition).run start = .ok (t.value, first) ∧
      (solver.evaluate settings consequent).run first = .ok (a.value, second) ∧
      (solver.evaluate settings alternative).run second = .ok (b.value, finish) ∧
      mediate t a b = .ok value := by
  obtain ⟨arrangement, ok⟩ := reduce_of_evaluate ok
  obtain ⟨t, first, conditionRun, ok⟩ := Evaluation.run_bind_eq_ok ok
  obtain ⟨a, second, consequentRun, ok⟩ := Evaluation.run_bind_eq_ok ok
  obtain ⟨b, third, alternativeRun, combined⟩ := Evaluation.run_bind_eq_ok ok
  obtain ⟨result, _, rfl⟩ := combine_eq_ok_of_lift (combineInRange_eq_ok combined)
  exact ⟨t, first, a, second, b, run_evaluate_of_reduce _ conditionRun, run_evaluate_of_reduce _ consequentRun,
    run_evaluate_of_reduce _ alternativeRun, result⟩

theorem evaluate_binary {operator : Operator} {left right : Expr}
    (ok : (solver.evaluate settings (.binary operator left right)).run start =
      .ok (value, finish)) :
    ∃ a middle b, (solver.evaluate settings left).run start = .ok (a, middle) ∧
      (solver.evaluate settings right).run middle = .ok (b, finish) ∧
      operate settings.cutoff operator a b = .ok value := by
  obtain ⟨arrangement, ok⟩ := reduce_of_evaluate ok
  obtain ⟨a, middle, first, ok⟩ := Evaluation.run_bind_eq_ok ok
  obtain ⟨b, later, second, combined⟩ := Evaluation.run_bind_eq_ok ok
  obtain ⟨result, _, rfl⟩ := combine_eq_ok_of_lift (combineInRange_eq_ok combined)
  exact ⟨a.value, middle, b.value, run_evaluate_of_reduce _ first, run_evaluate_of_reduce _ second, result⟩

/-- An evaluation creates as many unknowns as the expression has unnamed ones. -/
theorem evaluate_created {expr : Expr}
    (ok : (solver.evaluate settings expr).run start = .ok (value, finish)) :
    finish = start + expr.anonymousCount := by
  induction expr generalizing value start finish with
  | named name => exact (evaluate_named ok).2
  | anonymous => exact (evaluate_anonymous ok).2
  | number d =>
      obtain ⟨q, _, _, rfl⟩ := evaluate_number ok
      rfl
  | negation operand ih =>
      obtain ⟨a, first, _⟩ := evaluate_negation ok
      exact ih first
  | application callee argument first second =>
      obtain ⟨f, middle, a, name, calleeRun, argumentRun, _⟩ := evaluate_application ok
      rw [second argumentRun, first calleeRun, Expr.anonymousCount, Nat.add_assoc]
  | mediation condition consequent alternative first second third =>
      obtain ⟨t, middle, a, later, b, conditionRun, consequentRun, alternativeRun, _⟩ :=
        evaluate_mediation ok
      rw [third alternativeRun, second consequentRun, first conditionRun, Expr.anonymousCount]
      omega
  | binary operator left right first second =>
      obtain ⟨a, middle, b, leftRun, rightRun, _⟩ := evaluate_binary ok
      rw [second rightRun, first leftRun, Expr.anonymousCount, Nat.add_assoc]

/-- Whether an unknown is mentioned by the form of one of some names, or was created between two
counts. -/
def Reaches (solver : Solver) (names : List String) (start finish : Nat) (unknown : Unknown) :
    Prop :=
  (∃ name ∈ names, unknown ∈ (solver.formOf (.named name)).unknowns) ∨
    ∃ serial, unknown = .anonymous serial ∧ start ≤ serial ∧ serial < finish

theorem Reaches.mono {names more : List String} {first last : Nat} {unknown : Unknown}
    (reaches : solver.Reaches names start finish unknown) (fewer : names ⊆ more)
    (earlier : first ≤ start) (later : finish ≤ last) :
    solver.Reaches more first last unknown := by
  rcases reaches with ⟨name, member, inside⟩ | ⟨serial, rfl, low, high⟩
  · exact .inl ⟨name, fewer member, inside⟩
  · exact .inr ⟨serial, rfl, Nat.le_trans earlier low, Nat.lt_of_lt_of_le high later⟩

/-- A value mentions what the forms of the names mention and what its evaluation created. -/
theorem mem_unknowns_evaluate {expr : Expr} {unknown : Unknown}
    (ok : (solver.evaluate settings expr).run start = .ok (value, finish))
    (member : unknown ∈ value.unknowns) :
    solver.Reaches expr.names start finish unknown := by
  induction expr generalizing value start finish with
  | named name =>
      obtain ⟨rfl, rfl⟩ := evaluate_named ok
      exact .inl ⟨name, List.mem_singleton_self _, member⟩
  | anonymous =>
      obtain ⟨rfl, rfl⟩ := evaluate_anonymous ok
      exact .inr ⟨start, List.mem_singleton.mp member, Nat.le_refl start, Nat.lt_succ_self start⟩
  | number d =>
      obtain ⟨q, _, rfl, rfl⟩ := evaluate_number ok
      cases member
  | negation operand ih =>
      obtain ⟨a, first, rfl⟩ := evaluate_negation ok
      exact ih first (by simpa using member)
  | application callee argument first second =>
      obtain ⟨f, middle, a, name, _, _, _, applied⟩ := evaluate_application ok
      rw [Value.unknowns_applyNamed applied] at member
      cases member
  | mediation condition consequent alternative first second third =>
      obtain ⟨t, middle, a, later, b, conditionRun, consequentRun, alternativeRun, mediated⟩ :=
        evaluate_mediation ok
      have conditionCount := evaluate_created conditionRun
      have consequentCount := evaluate_created consequentRun
      have alternativeCount := evaluate_created alternativeRun
      rcases Value.mem_unknowns_mediate mediated member with inside | inside | inside
      · exact (first conditionRun inside).mono (by simp [Expr.names]) (by omega) (by omega)
      · exact (second consequentRun inside).mono (by simp [Expr.names]) (by omega) (by omega)
      · exact (third alternativeRun inside).mono (by simp [Expr.names]) (by omega) (by omega)
  | binary operator left right first second =>
      obtain ⟨a, middle, b, leftRun, rightRun, operated⟩ := evaluate_binary ok
      have leftCount := evaluate_created leftRun
      have rightCount := evaluate_created rightRun
      rcases Value.mem_unknowns_operate operated member with inside | inside
      · exact (first leftRun inside).mono (by simp [Expr.names]) (by omega) (by omega)
      · exact (second rightRun inside).mono (by simp [Expr.names]) (by omega) (by omega)

end Solver

end EquationText

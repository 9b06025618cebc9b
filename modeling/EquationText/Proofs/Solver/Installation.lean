import EquationText.Proofs.Solver.Solving

/-! # The solver after an installation

In a solver of distinct unknowns, installing a new pivot rewrites every known form and adds the pivot
after them (`EquationText.Solver.known_installed`); the names whose forms become constants join the
solved ones, after those (`EquationText.Solver.solved_installed`).
-/

namespace EquationText

namespace Form

variable {settings : Settings} {unknown other : Unknown} {difference form solution : Form}

theorem rewritten_of_not_mem (absent : unknown ∉ form.unknowns) :
    Solver.rewritten settings unknown solution form = form :=
  if_neg fun mentioned => absent ((mentions_iff _ _).mp mentioned)

theorem mem_unknowns_rewritten
    (member : other ∈ (Solver.rewritten settings unknown solution form).unknowns) :
    (other ∈ form.unknowns ∧ other ≠ unknown) ∨ other ∈ solution.unknowns := by
  by_cases mentioned : form.mentions unknown = true
  · rw [Solver.rewritten, if_pos mentioned] at member
    exact mem_unknowns_substitute (mem_unknowns_simplify member)
  · rw [Solver.rewritten, if_neg mentioned] at member
    refine .inl ⟨member, ?_⟩
    rintro rfl
    exact mentioned ((mentions_iff _ _).mpr member)

/-- A pivot is a term of the simplified form, and its form is that one solved for it. -/
theorem pivotStep_eq_ok
    (ok : Solver.pivotStep settings difference = .ok (unknown, solution)) :
    ∃ factor, (unknown, factor) ∈ (difference.simplify settings.cutoff).terms ∧
      (difference.simplify settings.cutoff).pivot? = some (unknown, factor) ∧
      solution = ((difference.simplify settings.cutoff).solvedFor unknown factor).simplify
        settings.cutoff := by
  obtain ⟨form, simplification, ok⟩ := except_bind_eq_ok ok
  obtain rfl := Solver.simplified_eq_ok simplification
  split at ok
  · repeat' split at ok
    all_goals cases ok
  · split at ok
    · cases ok
    · rename_i pivot factor found
      obtain ⟨changed, solved, ok⟩ := except_bind_eq_ok ok
      cases ok
      exact ⟨factor, pivot?_mem found, found, Solver.simplified_eq_ok solved⟩

theorem pivotStep_unknown_mem
    (ok : Solver.pivotStep settings difference = .ok (unknown, solution)) :
    unknown ∈ difference.unknowns := by
  obtain ⟨factor, member, _⟩ := pivotStep_eq_ok ok
  exact mem_unknowns_simplify (List.mem_map_of_mem member)

theorem pivotStep_unknowns_subset
    (ok : Solver.pivotStep settings difference = .ok (unknown, solution))
    (member : other ∈ solution.unknowns) : other ∈ difference.unknowns ∧ other ≠ unknown := by
  obtain ⟨factor, _, _, rfl⟩ := pivotStep_eq_ok ok
  obtain ⟨inside, different⟩ := mem_unknowns_solvedFor (mem_unknowns_simplify member)
  exact ⟨mem_unknowns_simplify inside, different⟩

end Form

namespace Solver

variable {settings : Settings} {solver : Solver} {unknown : Unknown} {solution : Form}
  {entries done : List (Unknown × Form)}

/-- An entry with what an unknown stands for put in. -/
def rewriteEntry (settings : Settings) (unknown : Unknown) (solution : Form)
    (entry : Unknown × Form) : Unknown × Form :=
  (entry.1, rewritten settings unknown solution entry.2)

theorem rewriteEntry_of_not_mem {entry : Unknown × Form} (absent : unknown ∉ entry.2.unknowns) :
    rewriteEntry settings unknown solution entry = entry :=
  Prod.ext rfl (Form.rewritten_of_not_mem absent)

/-- The name and the number that an entry determines, if it does. -/
def determined? : Unknown × Form → Option (String × Number)
  | (.named name, form) => if form.isConstant then some (name, form.constant) else none
  | (.anonymous _, _) => none

theorem determined?_fst {entry : Unknown × Form} {pair : String × Number}
    (some : determined? entry = some pair) : entry.1 = .named pair.1 := by
  obtain ⟨unknown, form⟩ := entry
  cases unknown with
  | anonymous serial => cases some
  | named name =>
      by_cases constant : form.isConstant = true
      · rw [determined?, if_pos constant] at some
        cases some
        rfl
      · rw [determined?, if_neg constant] at some
        cases some

/-- The name and the number that an entry determines once it is rewritten, if it did not before. -/
def newlyDetermined? (settings : Settings) (unknown : Unknown) (solution : Form)
    (entry : Unknown × Form) : Option (String × Number) :=
  if entry.2.mentions unknown then determined? (rewriteEntry settings unknown solution entry)
  else none

theorem determined?_eq_some_iff {entry : Unknown × Form} {name : String} {number : Number} :
    determined? entry = some (name, number) ↔ entry = (.named name, .ofNumber number) := by
  obtain ⟨unknown, form⟩ := entry
  cases unknown with
  | anonymous serial => simp [determined?]
  | named other =>
      rcases form with ⟨constant, terms⟩
      cases terms <;> simp [determined?, Form.isConstant, Form.ofNumber]

theorem map_fst_rewriteEntry (entries : List (Unknown × Form)) :
    (entries.map (rewriteEntry settings unknown solution)).map Prod.fst =
      entries.map Prod.fst := by
  simp [rewriteEntry, Function.comp_def]

/-- After all entries are rewritten in place, the list of known forms has each of them rewritten. The entries that
are done stand in front; their unknowns are others. -/
theorem known_rewriteAll (known : solver.known = done ++ entries)
    (distinct : ((done ++ entries).map Prod.fst).Nodup) :
    (rewriteAll settings unknown solution entries solver).known =
      done ++ entries.map (rewriteEntry settings unknown solution) := by
  induction entries generalizing done solver with
  | nil => simpa [rewriteAll] using known
  | cons entry rest ih =>
      have absent : entry.1 ∉ done.map Prod.fst := by
        rw [List.map_append, List.map_cons] at distinct
        exact fun inside => (List.nodup_append.mp distinct).2.2 _ inside _
          (List.mem_cons_self ..) rfl
      have one : (solver.rewriteOne settings unknown solution entry).known =
          (done ++ [rewriteEntry settings unknown solution entry]) ++ rest := by
        by_cases mentioned : entry.2.mentions unknown = true
        · rw [rewriteOne, if_pos mentioned, assign_known, known, List.append_assoc]
          exact place_append_cons absent entry.2
        · rw [rewriteOne, if_neg mentioned, known, rewriteEntry, rewritten, if_neg mentioned,
            List.append_assoc]
          rfl
      rw [rewriteAll, ih one, List.append_assoc]
      · rfl
      · simpa [rewriteEntry] using distinct

theorem solved_assign {form : Form}
    (absent : ∀ name, unknown = .named name → name ∉ solver.solved.map Prod.fst) :
    (solver.assign unknown form).solved = solver.solved ++ (determined? (unknown, form)).toList := by
  cases unknown with
  | anonymous serial => simp [assign, determined?]
  | named name =>
      by_cases constant : form.isConstant = true
      · simp [assign, determined?, constant, place_of_not_mem (absent name rfl)]
      · simp [assign, determined?, constant]

theorem newlyDetermined?_eq_some_iff {entry : Unknown × Form} {pair : String × Number} :
    newlyDetermined? settings unknown solution entry = some pair ↔
      entry.2.mentions unknown = true ∧
        determined? (rewriteEntry settings unknown solution entry) = some pair := by
  by_cases mentioned : entry.2.mentions unknown = true
  · rw [newlyDetermined?, if_pos mentioned, and_iff_right mentioned]
  · rw [newlyDetermined?, if_neg mentioned]
    simp [mentioned]

theorem newlyDetermined?_fst {entry : Unknown × Form} {pair : String × Number}
    (some : newlyDetermined? settings unknown solution entry = some pair) :
    entry.2.mentions unknown = true ∧ entry.1 = .named pair.1 := by
  obtain ⟨mentioned, determined⟩ := newlyDetermined?_eq_some_iff.mp some
  have named := determined?_fst determined
  exact ⟨mentioned, named⟩

/-- The names that a substitution solves are added at the end, in the order of the known forms. -/
theorem solved_rewriteAll (distinct : (entries.map Prod.fst).Nodup)
    (absent : ∀ entry ∈ entries, entry.2.mentions unknown = true →
      ∀ name, entry.1 = .named name → name ∉ solver.solved.map Prod.fst) :
    (rewriteAll settings unknown solution entries solver).solved =
      solver.solved ++ entries.filterMap (newlyDetermined? settings unknown solution) := by
  induction entries generalizing solver with
  | nil => simp [rewriteAll]
  | cons entry rest ih =>
      obtain ⟨here, later⟩ := List.forall_mem_cons.mp absent
      obtain ⟨alone, distinct⟩ := List.nodup_cons.mp distinct
      have one : (solver.rewriteOne settings unknown solution entry).solved =
          solver.solved ++ (newlyDetermined? settings unknown solution entry).toList := by
        by_cases mentioned : entry.2.mentions unknown = true
        · rw [rewriteOne, if_pos mentioned, newlyDetermined?, if_pos mentioned]
          exact solved_assign (here mentioned)
        · rw [rewriteOne, if_neg mentioned, newlyDetermined?, if_neg mentioned]
          exact (List.append_nil _).symm
      rw [rewriteAll, ih distinct, one, List.filterMap_cons, List.append_assoc]
      · cases newlyDetermined? settings unknown solution entry <;> rfl
      · intro other member mentioned name named inside
        rw [one, List.map_append, List.mem_append] at inside
        rcases inside with old | new
        · exact later other member mentioned name named old
        · obtain ⟨pair, found, rfl⟩ := List.mem_map.mp new
          have same := (newlyDetermined?_fst (Option.mem_toList.mp found)).2
          exact alone (List.mem_map.mpr ⟨other, member, named.trans same.symm⟩)

/-! ## The whole installation -/

section Installed

variable (distinct : (solver.known.map Prod.fst).Nodup)
  (new : unknown ∉ solver.known.map Prod.fst) (absent : unknown ∉ solution.unknowns)
include distinct new absent

theorem known_installed :
    (solver.installed settings unknown solution).known =
      solver.known.map (rewriteEntry settings unknown solution) ++ [(unknown, solution)] := by
  have last : rewriteEntry settings unknown solution (unknown, solution) = (unknown, solution) :=
    rewriteEntry_of_not_mem absent
  have distinctNow := nodup_place distinct unknown solution
  unfold installed
  rw [place_of_not_mem new] at distinctNow ⊢
  have known : (solver.assign unknown solution).known = [] ++ (solver.known ++ [(unknown, solution)]) :=
    place_of_not_mem new
  rw [known_rewriteAll known distinctNow, List.nil_append, List.map_append, List.map_singleton,
    last]

/-- A solution solves its own unknown first, if it is a number, and then those that it makes numbers of. -/
theorem solved_installed
    (unsolvedPivot : ∀ name, unknown = .named name → name ∉ solver.solved.map Prod.fst)
    (unsolved : ∀ entry ∈ solver.known, entry.2.mentions unknown = true →
      ∀ name, entry.1 = .named name → name ∉ solver.solved.map Prod.fst) :
    (solver.installed settings unknown solution).solved =
      solver.solved ++ ((determined? (unknown, solution)).toList ++
        solver.known.filterMap (newlyDetermined? settings unknown solution)) := by
  have silent : ¬ solution.mentions unknown = true := mt (Form.mentions_iff _ _).mp absent
  have assigned : (solver.assign unknown solution).solved = _ := solved_assign unsolvedPivot
  have distinctNow := nodup_place distinct unknown solution
  unfold installed
  rw [place_of_not_mem new] at distinctNow ⊢
  rw [solved_rewriteAll distinctNow, assigned, List.filterMap_append, List.append_assoc]
  · simp [newlyDetermined?, silent]
  · intro entry member mentioned name named inside
    rcases List.mem_append.mp member with old | last
    · rw [assigned, List.map_append, List.mem_append] at inside
      rcases inside with before | now
      · exact unsolved entry old mentioned name named before
      · obtain ⟨pair, found, rfl⟩ := List.mem_map.mp now
        have same : unknown = .named pair.1 := determined?_fst (Option.mem_toList.mp found)
        exact new (same ▸ named ▸ List.mem_map_of_mem old)
    · rw [List.mem_singleton.mp last] at mentioned
      exact silent mentioned

end Installed

end Solver

end EquationText

import EquationText.Proofs.Solver.Installation
import Mathlib.Data.List.Nodup

/-! # Reduced solvers

In a reduced solver no eliminated unknown is mentioned by a known form, and the solved names are the
eliminated ones whose form is a constant. A solver starts reduced and stays so with every equation it
accepts (`EquationText.Solver.IsReduced.accept`), which only adds to the solved names
(`EquationText.Solver.IsReduced.solved_prefix`).
-/

namespace EquationText

namespace Solver

/-- The unknowns that have been eliminated. -/
def eliminated (solver : Solver) : List Unknown := solver.known.map Prod.fst

/-- The unknowns that a solver knows of, eliminated or not. -/
def unknowns (solver : Solver) : List Unknown :=
  solver.known.flatMap fun entry => entry.1 :: entry.2.unknowns

/-- The known forms are in the unknowns that are not eliminated, and the solved names are those whose
form is a constant. -/
structure IsReduced (solver : Solver) : Prop where
  distinct : solver.eliminated.Nodup
  imaginary : (.named imaginaryName, .ofNumber .imaginaryUnit) ∈ solver.known
  free : ∀ entry ∈ solver.known, ∀ unknown ∈ entry.2.unknowns, unknown ∉ solver.eliminated
  created : ∀ serial, .anonymous serial ∈ solver.unknowns → serial < solver.created
  solved : ∀ name number, (name, number) ∈ solver.solved ↔
    name ≠ imaginaryName ∧ (.named name, .ofNumber number) ∈ solver.known
  solvedDistinct : (solver.solved.map Prod.fst).Nodup
  finite : ∀ entry ∈ solver.solved, entry.2.isFinite = true

variable {settings : Settings} {solver before after : Solver} {equation : Expr}
  {left right solution : Form} {created : Nat} {unknown other : Unknown}

theorem mem_unknowns_iff :
    unknown ∈ solver.unknowns ↔
      unknown ∈ solver.eliminated ∨ ∃ entry ∈ solver.known, unknown ∈ entry.2.unknowns := by
  simp only [unknowns, eliminated, List.mem_flatMap, List.mem_cons, List.mem_map]
  constructor
  · rintro ⟨entry, member, rfl | inside⟩
    · exact .inl ⟨entry, member, rfl⟩
    · exact .inr ⟨entry, member, inside⟩
  · rintro (⟨entry, member, rfl⟩ | ⟨entry, member, inside⟩)
    · exact ⟨entry, member, .inl rfl⟩
    · exact ⟨entry, member, .inr inside⟩

/-- At the start nothing is eliminated but the imaginary unit. -/
theorem start_isReduced (settings : Settings) (verbose : Bool) (maxDepth precision : Option Int) :
    (start settings verbose maxDepth precision).IsReduced where
  distinct := List.pairwise_singleton ..
  imaginary := List.mem_singleton_self _
  free := by
    intro entry member unknown inside
    rw [List.mem_singleton.mp member] at inside
    cases inside
  created := by
    intro serial member
    cases List.mem_singleton.mp member
  solved := by
    intro name number
    simp only [start, List.not_mem_nil, List.mem_singleton, Prod.mk.injEq, false_iff, not_and]
    rintro different same
    cases same
    exact (different rfl).elim
  solvedDistinct := List.nodup_nil
  finite := by
    intro entry member
    cases member

namespace IsReduced

/-- The form of a name mentions no eliminated unknown. -/
theorem not_mem_formOf (reduced : solver.IsReduced)
    (inside : other ∈ (solver.formOf unknown).unknowns) : other ∉ solver.eliminated := by
  unfold formOf at inside
  cases found : valueOf? unknown solver.known with
  | some form =>
      rw [found] at inside
      exact reduced.free _ (mem_of_valueOf?_eq_some found) other inside
  | none =>
      rw [found] at inside
      rw [List.mem_singleton.mp inside]
      exact valueOf?_eq_none_iff.mp found

theorem mem_unknowns_formOf (inside : other ∈ (solver.formOf unknown).unknowns) :
    other ∈ solver.unknowns ∨ other = unknown := by
  unfold formOf at inside
  cases found : valueOf? unknown solver.known with
  | some form =>
      rw [found] at inside
      exact .inl (mem_unknowns_iff.mpr (.inr ⟨_, mem_of_valueOf?_eq_some found, inside⟩))
  | none =>
      rw [found] at inside
      exact .inr (List.mem_singleton.mp inside)

/-- What evaluation reaches from a reduced solver is not eliminated. -/
theorem not_mem_of_reaches (reduced : solver.IsReduced) {names : List String} {finish : Nat}
    (reaches : solver.Reaches names solver.created finish unknown) :
    unknown ∉ solver.eliminated := by
  rcases reaches with ⟨name, _, inside⟩ | ⟨serial, rfl, late, _⟩
  · exact reduced.not_mem_formOf inside
  · intro inside
    exact absurd (reduced.created serial (mem_unknowns_iff.mpr (.inl inside))) (by omega)

/-- An eliminated name with a constant form is solved only with that form. -/
theorem not_mem_solved (reduced : solver.IsReduced) {entry : Unknown × Form} {name : String}
    (member : entry ∈ solver.known) (mentioned : entry.2.mentions unknown = true)
    (named : entry.1 = .named name) : name ∉ solver.solved.map Prod.fst := by
  intro inside
  obtain ⟨⟨found, number⟩, solved, rfl⟩ := List.mem_map.mp inside
  have constant := ((reduced.solved _ _).mp solved).2
  have value := (valueOf?_eq_some_iff reduced.distinct).mpr constant
  rw [← named, (valueOf?_eq_some_iff reduced.distinct).mpr member] at value
  rw [Option.some.inj value] at mentioned
  exact absurd ((Form.mentions_iff _ _).mp mentioned) (by simp)

theorem mem_eliminated_of_solved (reduced : solver.IsReduced) {name : String}
    (inside : name ∈ solver.solved.map Prod.fst) : .named name ∈ solver.eliminated := by
  obtain ⟨⟨found, number⟩, solved, rfl⟩ := List.mem_map.mp inside
  exact List.mem_map_of_mem ((reduced.solved _ _).mp solved).2

/-! ## Accepted equations -/

section Accept

variable (reduced : before.IsReduced)
  (accepts : Accepts settings before equation after left right created unknown solution)
include reduced accepts

/-- The difference of the sides mentions no eliminated unknown. -/
theorem not_mem_difference (inside : other ∈ (left.sub right).unknowns) :
    other ∉ before.eliminated :=
  reduced.not_mem_of_reaches (mem_unknowns_sides accepts.sides (Form.mem_unknowns_sub inside))

theorem pivot_new : unknown ∉ before.eliminated :=
  reduced.not_mem_difference accepts (Form.pivotStep_unknown_mem accepts.pivot)

theorem known_accept :
    after.known = before.known.map (rewriteEntry settings unknown solution) ++
      [(unknown, solution)] := by
  rw [accepts.after]
  exact known_installed reduced.distinct (reduced.pivot_new accepts)
    fun inside => (Form.pivotStep_unknowns_subset accepts.pivot inside).2 rfl

theorem solved_accept :
    after.solved = before.solved ++ ((determined? (unknown, solution)).toList ++
      before.known.filterMap (newlyDetermined? settings unknown solution)) := by
  rw [accepts.after]
  refine solved_installed reduced.distinct (reduced.pivot_new accepts)
    (fun inside => (Form.pivotStep_unknowns_subset accepts.pivot inside).2 rfl) ?_
    fun entry member mentioned name named => reduced.not_mem_solved member mentioned named
  intro name named inside
  exact reduced.pivot_new accepts (named ▸ reduced.mem_eliminated_of_solved inside)

/-- An accepted equation keeps the solved names with their numbers and places, and adds others after
them. -/
theorem solved_prefix : before.solved <+: after.solved :=
  ⟨_, (reduced.solved_accept accepts).symm⟩

theorem eliminated_accept : after.eliminated = before.eliminated ++ [unknown] := by
  rw [eliminated, reduced.known_accept accepts, List.map_append, map_fst_rewriteEntry]
  rfl

/-- An entry of the solver after an accepted equation is a rewritten one or the pivot's. -/
theorem mem_known_accept {entry : Unknown × Form} :
    entry ∈ after.known ↔
      (∃ old ∈ before.known, rewriteEntry settings unknown solution old = entry) ∨
        entry = (unknown, solution) := by
  rw [reduced.known_accept accepts, List.mem_append, List.mem_map, List.mem_singleton]

/-- A constant form stays as it is. -/
theorem mem_known_accept_of_constant {number : Number}
    (known : (other, .ofNumber number) ∈ before.known) :
    (other, .ofNumber number) ∈ after.known :=
  (reduced.mem_known_accept accepts).mpr
    (.inl ⟨_, known, rewriteEntry_of_not_mem (by simp)⟩)

/-- An equation brings no unknown in that it does not mention. -/
theorem mem_unknowns_accept (inside : other ∈ after.unknowns) :
    other ∈ before.unknowns ∨ other ∈ (left.sub right).unknowns := by
  have pivot := Form.pivotStep_unknown_mem accepts.pivot
  rcases mem_unknowns_iff.mp inside with key | ⟨entry, member, mentioned⟩
  · rw [reduced.eliminated_accept accepts, List.mem_append, List.mem_singleton] at key
    rcases key with old | rfl
    · exact .inl (mem_unknowns_iff.mpr (.inl old))
    · exact .inr pivot
  · rcases (reduced.mem_known_accept accepts).mp member with ⟨old, known, rfl⟩ | rfl
    · rcases Form.mem_unknowns_rewritten mentioned with ⟨inside, _⟩ | inside
      · exact .inl (mem_unknowns_iff.mpr (.inr ⟨old, known, inside⟩))
      · exact .inr (Form.pivotStep_unknowns_subset accepts.pivot inside).1
    · exact .inr (Form.pivotStep_unknowns_subset accepts.pivot mentioned).1

/-- The new pivot is substituted everywhere, so that no form mentions an eliminated unknown. -/
theorem free_accept {entry : Unknown × Form} (member : entry ∈ after.known)
    (inside : other ∈ entry.2.unknowns) : other ∉ after.eliminated := by
  rw [reduced.eliminated_accept accepts, List.mem_append, List.mem_singleton, not_or]
  have fresh : ∀ {form : Form}, form = solution → other ∈ form.unknowns →
      other ∉ before.eliminated ∧ other ≠ unknown := by
    rintro form rfl inside
    obtain ⟨difference, different⟩ := Form.pivotStep_unknowns_subset accepts.pivot inside
    exact ⟨reduced.not_mem_difference accepts difference, different⟩
  rcases (reduced.mem_known_accept accepts).mp member with ⟨old, known, rfl⟩ | rfl
  · rcases Form.mem_unknowns_rewritten inside with ⟨inside, different⟩ | inside
    · exact ⟨reduced.free old known other inside, different⟩
    · exact fresh rfl inside
  · exact fresh rfl inside

/-- The solved names are those whose form is a number: the pivot or an entry may have become one, and no form that
was one is changed. -/
theorem mem_solved_accept {name : String} {number : Number} :
    (name, number) ∈ after.solved ↔
      name ≠ imaginaryName ∧ (.named name, .ofNumber number) ∈ after.known := by
  rw [reduced.solved_accept accepts, List.mem_append, List.mem_append, Option.mem_toList,
    List.mem_filterMap, determined?_eq_some_iff, reduced.mem_known_accept accepts]
  have unit : ∀ entry ∈ before.known, entry.2.mentions unknown = true →
      entry.1 ≠ .named imaginaryName := by
    intro entry member mentioned same
    have value := (valueOf?_eq_some_iff reduced.distinct).mpr reduced.imaginary
    rw [← same, (valueOf?_eq_some_iff reduced.distinct).mpr member] at value
    rw [Option.some.inj value] at mentioned
    cases mentioned
  constructor
  · rintro (old | pivot | ⟨entry, member, new⟩)
    · obtain ⟨different, known⟩ := (reduced.solved name number).mp old
      exact ⟨different, (reduced.mem_known_accept accepts).mp
        (reduced.mem_known_accept_of_constant accepts known)⟩
    · refine ⟨?_, .inr pivot.symm⟩
      rintro rfl
      cases pivot
      exact reduced.pivot_new accepts (List.mem_map_of_mem reduced.imaginary)
    · obtain ⟨mentioned, determined⟩ := newlyDetermined?_eq_some_iff.mp new
      have rewriting := determined?_eq_some_iff.mp determined
      refine ⟨?_, .inl ⟨entry, member, rewriting⟩⟩
      rintro rfl
      exact unit entry member mentioned (congrArg Prod.fst rewriting)
  · rintro ⟨different, ⟨old, known, rewriting⟩ | pivot⟩
    · by_cases mentioned : old.2.mentions unknown = true
      · refine .inr (.inr ⟨old, known, newlyDetermined?_eq_some_iff.mpr ⟨mentioned, ?_⟩⟩)
        exact determined?_eq_some_iff.mpr rewriting
      · have same : rewriteEntry settings unknown solution old = old :=
          Prod.ext rfl (if_neg mentioned)
        rw [same] at rewriting
        exact .inl ((reduced.solved name number).mpr ⟨different, rewriting ▸ known⟩)
    · exact .inr (.inl pivot.symm)

/-- What is newly solved was checked to be in range. -/
theorem finite_accept {entry : String × Number} (member : entry ∈ after.solved) :
    entry.2.isFinite = true := by
  rw [reduced.solved_accept accepts, List.mem_append, List.mem_append, Option.mem_toList,
    List.mem_filterMap] at member
  rcases member with old | pivot | ⟨rewritten, known, new⟩
  · exact reduced.finite entry old
  · have same := determined?_eq_some_iff.mp pivot
    have recordable := accepts.recordable
    rw [(Prod.mk.inj same).2] at recordable
    exact recordable rfl
  · obtain ⟨mentioned, determined⟩ := newlyDetermined?_eq_some_iff.mp new
    have placed : rewritten ∈ place unknown solution before.known := by
      rw [place_of_not_mem (reduced.pivot_new accepts)]
      exact List.mem_append_left _ known
    have recordable := accepts.others rewritten placed mentioned
    have same := determined?_eq_some_iff.mp determined
    rw [(Prod.mk.inj same).2] at recordable
    exact recordable rfl

/-- No name is solved twice: the pivot was not eliminated before, and an entry that becomes a number was none. -/
theorem solvedDistinct_accept : (after.solved.map Prod.fst).Nodup := by
  have pivot := reduced.pivot_new accepts
  have later : (before.known.filterMap
      (newlyDetermined? settings unknown solution)).Pairwise fun a b => a.1 ≠ b.1 := by
    refine List.pairwise_filterMap.mpr ((List.pairwise_map.mp reduced.distinct).imp ?_)
    intro first second different a someFirst b someSecond same
    rw [(newlyDetermined?_fst someFirst).2, (newlyDetermined?_fst someSecond).2, same] at different
    exact different rfl
  rw [reduced.solved_accept accepts, List.map_append, List.map_append]
  refine List.nodup_append'.mpr ⟨reduced.solvedDistinct, List.nodup_append'.mpr ⟨?_,
    List.pairwise_map.mpr later, ?_⟩, ?_⟩
  · cases determined? (unknown, solution) with
    | none => exact List.nodup_nil
    | some pair => exact List.pairwise_singleton ..
  · intro name first second
    obtain ⟨a, found, rfl⟩ := List.mem_map.mp first
    obtain ⟨b, new, same⟩ := List.mem_map.mp second
    obtain ⟨entry, known, someNew⟩ := List.mem_filterMap.mp new
    have named : unknown = .named a.1 := determined?_fst (Option.mem_toList.mp found)
    rw [named, ← same, ← (newlyDetermined?_fst someNew).2] at pivot
    exact pivot (List.mem_map_of_mem known)
  · intro name old new
    rw [← List.map_append] at new
    obtain ⟨a, found, rfl⟩ := List.mem_map.mp new
    rcases List.mem_append.mp found with found | found
    · have named : unknown = .named a.1 := determined?_fst (Option.mem_toList.mp found)
      exact pivot (named ▸ reduced.mem_eliminated_of_solved old)
    · obtain ⟨entry, known, someNew⟩ := List.mem_filterMap.mp found
      obtain ⟨mentioned, named⟩ := newlyDetermined?_fst someNew
      exact reduced.not_mem_solved known mentioned named old

/-- The unnamed unknowns of the forms were created before, or by the equation. -/
theorem created_accept {serial : Nat} (member : .anonymous serial ∈ after.unknowns) :
    serial < after.created := by
  have counted : after.created = created := by
    obtain ⟨known, solved, same⟩ :=
      installed_eq settings unknown solution { before with created }
    rw [accepts.after, same]
  have total := sides_created accepts.sides
  rcases reduced.mem_unknowns_accept accepts member with old | new
  · exact Nat.lt_of_lt_of_le (reduced.created serial old) (by omega)
  · rcases mem_unknowns_sides accepts.sides (Form.mem_unknowns_sub new) with
      ⟨name, _, inside⟩ | ⟨found, same, _, early⟩
    · rcases mem_unknowns_formOf inside with old | same
      · exact Nat.lt_of_lt_of_le (reduced.created serial old) (by omega)
      · cases same
    · cases same
      omega

/-- A reduced solver stays reduced with every equation it accepts. -/
theorem accept : after.IsReduced where
  distinct := by
    rw [reduced.eliminated_accept accepts]
    exact List.nodup_append.mpr ⟨reduced.distinct, List.pairwise_singleton .., by
      intro old member last same
      rw [List.mem_singleton.mp same]
      rintro rfl
      exact reduced.pivot_new accepts member⟩
  imaginary := reduced.mem_known_accept_of_constant accepts reduced.imaginary
  free := fun entry member other inside => reduced.free_accept accepts member inside
  created := fun serial member => reduced.created_accept accepts member
  solved := fun name number => reduced.mem_solved_accept accepts
  solvedDistinct := reduced.solvedDistinct_accept accepts
  finite := fun entry member => reduced.finite_accept accepts member

end Accept

end IsReduced

end Solver

end EquationText

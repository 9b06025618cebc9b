import EquationText.Solver
import Mathlib.Tactic.Common

/-! # Lists of keys with values

Placing a value under a key keeps the place of every key that is present, and puts a new key last. In
a list of distinct keys the value of a key is the one it is listed with
(`EquationText.valueOf?_eq_some_iff`).
-/

namespace EquationText

variable {α β : Type} [DecidableEq α] {key : α} {value : β} {entries done : List (α × β)}

theorem mem_of_valueOf?_eq_some (found : valueOf? key entries = some value) :
    (key, value) ∈ entries := by
  induction entries with
  | nil => cases found
  | cons entry rest ih =>
      by_cases same : entry.1 = key
      · rw [valueOf?, if_pos same] at found
        cases found
        subst same
        exact List.mem_cons_self ..
      · rw [valueOf?, if_neg same] at found
        exact List.mem_cons_of_mem _ (ih found)

/-- Where no key occurs twice, an entry is found exactly if it is there. -/
theorem valueOf?_eq_some_iff (distinct : (entries.map Prod.fst).Nodup) :
    valueOf? key entries = some value ↔ (key, value) ∈ entries := by
  refine ⟨mem_of_valueOf?_eq_some, fun member => ?_⟩
  induction entries with
  | nil => cases member
  | cons entry rest ih =>
      obtain ⟨absent, distinct⟩ := List.nodup_cons.mp distinct
      rcases List.mem_cons.mp member with rfl | inside
      · exact if_pos rfl
      · have different : entry.1 ≠ key := by
          intro same
          exact absent (same ▸ List.mem_map_of_mem inside)
        rw [valueOf?, if_neg different]
        exact ih distinct inside

theorem valueOf?_eq_none_iff : valueOf? key entries = none ↔ key ∉ entries.map Prod.fst := by
  induction entries with
  | nil => simp [valueOf?]
  | cons entry rest ih =>
      by_cases same : entry.1 = key
      · simp [valueOf?, same]
      · rw [valueOf?, if_neg same, ih, List.map_cons, List.mem_cons, not_or]
        exact ⟨fun absent => ⟨Ne.symm same, absent⟩, And.right⟩

theorem valueOf?_place_self (key : α) (value : β) (entries : List (α × β)) :
    valueOf? key (place key value entries) = some value := by
  induction entries with
  | nil => exact if_pos rfl
  | cons entry rest ih =>
      by_cases same : entry.1 = key
      · rw [place, if_pos same]
        exact if_pos rfl
      · rw [place, if_neg same, valueOf?, if_neg same, ih]

theorem valueOf?_place_of_ne {other : α} (different : other ≠ key) :
    valueOf? other (place key value entries) = valueOf? other entries := by
  induction entries with
  | nil => exact if_neg different.symm
  | cons entry rest ih =>
      by_cases same : entry.1 = key
      · rw [place, if_pos same, valueOf?, valueOf?, same, if_neg different.symm, if_neg different.symm]
      · rw [place, if_neg same, valueOf?, valueOf?, ih]

theorem place_of_not_mem (absent : key ∉ entries.map Prod.fst) :
    place key value entries = entries ++ [(key, value)] := by
  induction entries with
  | nil => rfl
  | cons entry rest ih =>
      obtain ⟨different, absent⟩ := not_or.mp (mt List.mem_cons.mpr absent)
      rw [place, if_neg (Ne.symm different), ih absent, List.cons_append]

theorem place_append_cons (absent : key ∉ done.map Prod.fst) (old : β) :
    place key value (done ++ (key, old) :: entries) = done ++ (key, value) :: entries := by
  induction done with
  | nil => exact if_pos rfl
  | cons entry rest ih =>
      obtain ⟨different, absent⟩ := not_or.mp (mt List.mem_cons.mpr absent)
      rw [List.cons_append, place, if_neg (Ne.symm different), ih absent, List.cons_append]

theorem mem_keys_place {other : α} :
    other ∈ (place key value entries).map Prod.fst ↔
      other = key ∨ other ∈ entries.map Prod.fst := by
  induction entries with
  | nil => simp [place]
  | cons entry rest ih =>
      by_cases same : entry.1 = key
      · simp [place, same]
      · rw [place, if_neg same, List.map_cons, List.mem_cons, ih, List.map_cons, List.mem_cons]
        exact or_left_comm

theorem nodup_place (distinct : (entries.map Prod.fst).Nodup) (key : α) (value : β) :
    ((place key value entries).map Prod.fst).Nodup := by
  induction entries with
  | nil => exact List.pairwise_singleton ..
  | cons entry rest ih =>
      obtain ⟨absent, distinct⟩ := List.nodup_cons.mp distinct
      by_cases same : entry.1 = key
      · rw [place, if_pos same]
        exact List.nodup_cons.mpr ⟨same ▸ absent, distinct⟩
      · rw [place, if_neg same]
        refine List.nodup_cons.mpr ⟨fun inside => ?_, ih distinct⟩
        exact (mem_keys_place.mp inside).elim same absent

end EquationText

import Mathlib.Data.List.Basic

/-!
# Merging streams into a queue

Several streams go into one queue. The queue is a merge of the streams: it has the values of
every stream in their order, and no others.
-/

namespace Merge

variable {α : Type}

/-- The list is made of the streams, each value taken from the end of one of them. -/
inductive Merges : List (List α) → List α → Prop
  | nil : Merges [] []
  | new {streams merged} : Merges streams merged → Merges (streams ++ [[]]) merged
  | push {streams merged i xs} (a : α) : Merges streams merged → streams[i]? = some xs →
      Merges (streams.set i (xs ++ [a])) (merged ++ [a])

variable {streams : List (List α)} {merged xs : List α}

/-- Every stream goes through in its order. -/
theorem Merges.sublist (h : Merges streams merged) (hxs : xs ∈ streams) : xs.Sublist merged := by
  induction h generalizing xs with
  | nil => cases hxs
  | new _ ih =>
      rcases List.mem_append.mp hxs with hxs | hxs
      · exact ih hxs
      · rw [List.mem_singleton.mp hxs]
        exact List.nil_sublist _
  | push a _ hi ih =>
      rcases List.mem_or_eq_of_mem_set hxs with hxs | rfl
      · exact (ih hxs).trans (List.sublist_append_left ..)
      · exact (ih (List.mem_of_getElem? hi)).append (List.Sublist.refl _)

/-- Nothing else is in the queue. -/
theorem Merges.perm (h : Merges streams merged) : merged.Perm streams.flatten := by
  induction h with
  | nil => exact .nil
  | new _ ih => simpa using ih
  | @push streams merged i xs a _ hi ih =>
      obtain ⟨hlt, rfl⟩ := List.getElem?_eq_some_iff.mp hi
      have hsplit := List.take_append_drop i streams
      rw [List.drop_eq_getElem_cons hlt] at hsplit
      rw [← hsplit, List.flatten_append, List.flatten_cons] at ih
      rw [List.set_eq_take_append_cons_drop, if_pos hlt, List.flatten_append, List.flatten_cons]
      refine (ih.append_right [a]).trans ?_
      rw [List.append_assoc, List.append_assoc, List.append_assoc]
      -- the value moves over the streams behind its own
      exact (List.perm_append_comm.append_left _).append_left _

end Merge

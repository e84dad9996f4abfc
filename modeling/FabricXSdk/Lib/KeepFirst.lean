import Mathlib.Data.List.Nodup

/-!
# Keeping the first element of each key

A loop that walks a list with the keys it has used, and keeps an element if its key is
not among them. What it keeps is the first element of every key, in the order of the
list.
-/

namespace KeepFirst

variable {α κ : Type} [DecidableEq κ] {key : α → κ} {used : List κ} {l : List α}

/-- The elements whose key is neither used nor that of an earlier element. -/
def keepFirst (key : α → κ) (used : List κ) : List α → List α
  | [] => []
  | a :: l => if key a ∈ used then keepFirst key used l else a :: keepFirst key (key a :: used) l

theorem keepFirst_sublist (used : List κ) (l : List α) : (keepFirst key used l).Sublist l := by
  induction l generalizing used with
  | nil => exact List.Sublist.slnil
  | cons a l ih =>
      rw [keepFirst]
      split
      · exact (ih used).cons a
      · exact (ih _).cons_cons a

theorem keepFirst_fresh : ∀ a ∈ keepFirst key used l, key a ∉ used := by
  induction l generalizing used with
  | nil => simp [keepFirst]
  | cons a l ih =>
      rw [keepFirst]
      split
      · exact ih
      · rename_i hfresh
        rw [List.forall_mem_cons]
        refine ⟨hfresh, fun b hb hused => ?_⟩
        exact ih b hb (List.mem_cons_of_mem _ hused)

theorem keepFirst_nodup (used : List κ) (l : List α) :
    ((keepFirst key used l).map key).Nodup := by
  induction l generalizing used with
  | nil => exact List.nodup_nil
  | cons a l ih =>
      rw [keepFirst]
      split
      · exact ih used
      · rw [List.map_cons, List.nodup_cons]
        refine ⟨?_, ih _⟩
        intro hmem
        obtain ⟨b, hb, heq⟩ := List.mem_map.mp hmem
        exact keepFirst_fresh b hb (heq ▸ List.mem_cons_self)

/-- An element that is kept is the first one of its key. -/
theorem keepFirst_first :
    ∀ a ∈ keepFirst key used l, l.find? (fun x => key x = key a) = some a := by
  induction l generalizing used with
  | nil => simp [keepFirst]
  | cons b l ih =>
      intro a ha
      -- an element of a used key is dropped, so `b` is kept if it has the key of `a`
      by_cases hkey : key b = key a
      · rw [List.find?_cons_of_pos (by simpa using hkey)]
        rw [keepFirst] at ha
        split at ha
        · rename_i hused
          exact absurd (hkey ▸ hused) (keepFirst_fresh a ha)
        · rcases List.mem_cons.mp ha with rfl | ha
          · rfl
          · exact absurd (hkey ▸ List.mem_cons_self) (keepFirst_fresh a ha)
      · rw [List.find?_cons_of_neg (by simpa using hkey)]
        rw [keepFirst] at ha
        split at ha
        · exact ih a ha
        · rcases List.mem_cons.mp ha with rfl | ha
          · exact absurd rfl hkey
          · exact ih a ha

/-- Every key of the list is used or kept. -/
theorem keepFirst_covers : ∀ a ∈ l, key a ∈ used ∨ key a ∈ (keepFirst key used l).map key := by
  induction l generalizing used with
  | nil => simp
  | cons b l ih =>
      rw [keepFirst, List.forall_mem_cons]
      split
      · rename_i hused
        exact ⟨Or.inl hused, ih⟩
      · rw [List.map_cons]
        refine ⟨Or.inr List.mem_cons_self, fun a ha => ?_⟩
        rcases @ih (key b :: used) a ha with hused | hmem
        · rcases List.mem_cons.mp hused with heq | hused
          · exact Or.inr (List.mem_cons.mpr (Or.inl heq))
          · exact Or.inl hused
        · exact Or.inr (List.mem_cons_of_mem _ hmem)

end KeepFirst

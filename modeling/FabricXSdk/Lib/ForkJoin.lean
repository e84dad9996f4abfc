import FabricXSdk.Lib.Transition
import Mathlib.Data.List.Count

/-!
# Fork and join

A call starts a task for each of its inputs and waits until all of them have finished. Every
task stores its result in a slot of its own, so the order in which they finish does not show
in what the call goes on with.
-/

namespace ForkJoin

open Transition

variable {α : Type} {results as : List α} {slots slots' : List (Option α)} {i : ℕ}

/-- The slots when the tasks have been started. -/
def start (α : Type) (n : ℕ) : List (Option α) := List.replicate n none

/-- Task `i` finishes, unless it has done so before. -/
def finish (results : List α) (slots : List (Option α)) (i : ℕ) : Option (List (Option α)) :=
  match results[i]?, slots[i]? with
  | some a, some none => some (slots.set i (some a))
  | _, _ => none

def Finishes (results : List α) (slots : List (Option α)) (i : ℕ) (slots' : List (Option α)) :
    Prop :=
  finish results slots i = some slots'

/-- What the call goes on with, once no task is missing. -/
def join : List (Option α) → Option (List α)
  | [] => some []
  | none :: _ => none
  | some a :: slots => (join slots).map (a :: ·)

theorem finishes_iff : Finishes results slots i slots' ↔
    slots[i]? = some none ∧ ∃ a, results[i]? = some a ∧ slots' = slots.set i (some a) := by
  rw [Finishes, finish]
  split
  · rename_i a hresult hslot
    simp [hresult, hslot, eq_comm]
  · rename_i hother
    constructor
    · intro h
      cases h
    · rintro ⟨hslot, a, hresult, _⟩
      exact absurd hslot (hother a hresult)

theorem join_eq_some : join slots = some as ↔ slots = as.map some := by
  induction slots generalizing as with
  | nil => cases as <;> simp [join]
  | cons slot slots ih =>
      cases slot with
      | none => cases as <;> simp [join]
      | some a =>
          rw [join, Option.map_eq_some_iff]
          cases as with
          | nil => simp
          | cons b as =>
              simp only [ih, List.map_cons, List.cons.injEq, Option.some.injEq]
              constructor
              · rintro ⟨_, rfl, rfl, rfl⟩
                exact ⟨rfl, rfl⟩
              · rintro ⟨rfl, rfl⟩
                exact ⟨as, rfl, rfl, rfl⟩

theorem none_mem_of_join (h : join slots = none) : none ∈ slots := by
  induction slots with
  | nil => cases h
  | cons slot slots ih =>
      cases slot with
      | none => exact List.mem_cons_self
      | some a => exact List.mem_cons_of_mem _ (ih (Option.map_eq_none_iff.mp h))

/-- The slots hold results of their own tasks. -/
structure Holds (results : List α) (slots : List (Option α)) : Prop where
  length : slots.length = results.length
  own : ∀ (i : ℕ) a, slots[i]? = some (some a) → results[i]? = some a

theorem holds_start (results : List α) : Holds results (start α results.length) where
  length := List.length_replicate
  own := by
    intro i a h
    rw [start, List.getElem?_replicate] at h
    split at h <;> cases h

theorem Holds.finishes (h : Holds results slots) (hstep : Finishes results slots i slots') :
    Holds results slots' := by
  obtain ⟨hslot, a, hresult, rfl⟩ := finishes_iff.mp hstep
  refine ⟨List.length_set.trans h.length, fun j b hj => ?_⟩
  by_cases hij : i = j
  · subst hij
    rw [List.getElem?_set_self (List.getElem?_eq_some_iff.mp hslot).choose] at hj
    cases hj
    exact hresult
  · rw [List.getElem?_set_ne hij] at hj
    exact h.own j b hj

theorem Holds.join_eq (h : Holds results slots) (hjoin : join slots = some as) : as = results := by
  obtain rfl := join_eq_some.mp hjoin
  have hlength : as.length = results.length := by
    rw [← h.length, List.length_map]
  apply List.ext_getElem hlength
  intro i hi hi'
  have hown := h.own i as[i] (by rw [List.getElem?_map, List.getElem?_eq_getElem hi]; rfl)
  rw [List.getElem?_eq_getElem hi', Option.some.injEq] at hown
  exact hown.symm

/-- In whatever order the tasks finish, the call goes on with their results in the order of
the inputs. -/
theorem join_eq_results (h : Reaches (Finishes results) Free (start α results.length) slots)
    (hjoin : join slots = some as) : as = results := by
  have hinv : Holds results slots :=
    h.invariant (holds_start results) fun _ _ _ hinv _ hstep => hinv.finishes hstep
  exact hinv.join_eq hjoin

/-- Tasks that all finish at some time are all waited for. -/
theorem join_inevitable (results : List α) :
    Inevitable (Finishes results) (fun slots => join slots = some results)
      (start α results.length) := by
  apply Inevitable.of_measure (Holds results) (fun slots => slots.countP Option.isNone)
  · intro slots hinv hjoin
    have hnone : none ∈ slots := by
      apply none_mem_of_join
      cases has : join slots with
      | none => rfl
      | some as => exact absurd (hinv.join_eq has ▸ has) hjoin
    obtain ⟨i, hi⟩ := List.mem_iff_getElem?.mp hnone
    have hlt : i < results.length := hinv.length ▸ (List.getElem?_eq_some_iff.mp hi).choose
    exact ⟨i, _, finishes_iff.mpr ⟨hi, results[i], List.getElem?_eq_getElem hlt, rfl⟩⟩
  · intro slots i slots' hinv _ hstep
    refine ⟨hinv.finishes hstep, ?_⟩
    obtain ⟨hslot, a, _, rfl⟩ := finishes_iff.mp hstep
    obtain ⟨hlt, hnone⟩ := List.getElem?_eq_some_iff.mp hslot
    have hpos : 0 < slots.countP Option.isNone :=
      List.countP_pos_iff.mpr ⟨none, List.mem_of_getElem? hslot, rfl⟩
    rw [List.countP_set hlt, hnone]
    simp only [Option.isNone_none, Option.isNone_some, if_true, Bool.false_eq_true, if_false]
    omega
  · exact holds_start results

end ForkJoin

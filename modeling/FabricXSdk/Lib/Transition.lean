import Mathlib.Data.Nat.Notation
import Mathlib.Logic.Relation

/-!
# Labelled transitions

Runs of a labelled step relation, where every step meets a condition on the state
it leaves and on its label. A run without a condition uses `Free`. What there is to
observe in the steps of a run is its trace. A property is inevitable if every run
that goes on for as long as it can meets it.
-/

namespace Transition

variable {σ ι : Type} {R : σ → ι → σ → Prop} {Good : σ → ι → Prop} {s t u : σ}

/-- A step that meets the condition. -/
def Guarded (R : σ → ι → σ → Prop) (Good : σ → ι → Prop) (s t : σ) : Prop :=
  ∃ a, Good s a ∧ R s a t

/-- The states reached by runs whose steps all meet the condition. -/
def Reaches (R : σ → ι → σ → Prop) (Good : σ → ι → Prop) : σ → σ → Prop :=
  Relation.ReflTransGen (Guarded R Good)

/-- No condition on the steps. -/
def Free (_ : σ) (_ : ι) : Prop := True

theorem Reaches.refl : Reaches R Good s s := Relation.ReflTransGen.refl

theorem Reaches.step {a : ι} (h : Reaches R Good s t) (hg : Good t a) (hr : R t a u) :
    Reaches R Good s u :=
  h.tail ⟨a, hg, hr⟩

/-- What holds at the start and is kept by every step holds in every state reached. -/
theorem Reaches.invariant {Inv : σ → Prop} (h : Reaches R Good s t) (hs : Inv s)
    (hstep : ∀ s a t, Inv s → Good s a → R s a t → Inv t) : Inv t := by
  induction h with
  | refl => exact hs
  | tail _ hr ih =>
      obtain ⟨a, hg, hr⟩ := hr
      exact hstep _ a _ ih hg hr

/-- A sequence of labels that a step function takes one after the other. -/
theorem Reaches.of_foldlM {step : σ → ι → Option σ} (labels : List ι)
    (h : labels.foldlM step s = some t) :
    Reaches (fun s a t => step s a = some t) Free s t := by
  induction labels generalizing s with
  | nil =>
      cases h
      exact Reaches.refl
  | cons a labels ih =>
      rw [List.foldlM_cons, Option.bind_eq_bind, Option.bind_eq_some_iff] at h
      obtain ⟨u, hu, h⟩ := h
      exact Relation.ReflTransGen.head ⟨a, trivial, hu⟩ (ih h)

/-- The same for steps that meet a condition, with a check that implies it. -/
theorem Reaches.of_checked {step : σ → ι → Option σ} {check : σ → ι → Bool}
    (hcheck : ∀ s a, check s a = true → Good s a) (labels : List ι)
    (h : labels.foldlM (fun s a => if check s a then step s a else none) s = some t) :
    Reaches (fun s a t => step s a = some t) Good s t := by
  induction labels generalizing s with
  | nil =>
      cases h
      exact Reaches.refl
  | cons a labels ih =>
      rw [List.foldlM_cons, Option.bind_eq_bind, Option.bind_eq_some_iff] at h
      obtain ⟨u, hu, h⟩ := h
      rw [Option.ite_none_right_eq_some] at hu
      exact Relation.ReflTransGen.head ⟨a, hcheck s a hu.1, hu.2⟩ (ih h)

section Observed

variable {ε κ : Type} {observe : σ → ι → σ → Option ε} {trace trace' : List ε}

/-- A run, with what there is to observe in its steps, in order. -/
inductive Observed (R : σ → ι → σ → Prop) (observe : σ → ι → σ → Option ε) (s : σ) :
    List ε → σ → Prop
  | refl : Observed R observe s [] s
  | step {trace : List ε} {t : σ} {a : ι} {u : σ} (h : Observed R observe s trace t)
      (hr : R t a u) : Observed R observe s (trace ++ (observe t a u).toList) u

theorem Observed.reaches (h : Observed R observe s trace t) : Reaches R Free s t := by
  induction h with
  | refl => exact Reaches.refl
  | step _ hr ih => exact ih.step trivial hr

/-- A step with nothing to observe. -/
theorem Observed.silent {a : ι} (h : Observed R observe s trace t) (hr : R t a u)
    (hnone : observe t a u = none) : Observed R observe s trace u := by
  have hu := h.step hr
  rw [hnone, Option.toList_none, List.append_nil] at hu
  exact hu

theorem Observed.event {a : ι} {e : ε} (h : Observed R observe s trace t) (hr : R t a u)
    (hsome : observe t a u = some e) : Observed R observe s (trace ++ [e]) u := by
  have hu := h.step hr
  rw [hsome] at hu
  exact hu

theorem Observed.trans (h : Observed R observe s trace t) (h' : Observed R observe t trace' u) :
    Observed R observe s (trace ++ trace') u := by
  induction h' with
  | refl =>
      rw [List.append_nil]
      exact h
  | step _ hr ih =>
      rw [← List.append_assoc]
      exact ih.step hr

/-- If a round of any kind can start where a round of any kind ends, then there is a run
for every sequence of rounds. -/
theorem Observed.rounds {P : σ → Prop} (kind : ε → κ)
    (hround : ∀ k s, P s → ∃ e t, Observed R observe s [e] t ∧ kind e = k ∧ P t)
    (ks : List κ) (hs : P s) : ∃ trace t, Observed R observe s trace t ∧ trace.map kind = ks := by
  induction ks generalizing s with
  | nil => exact ⟨[], s, .refl, rfl⟩
  | cons k ks ih =>
      obtain ⟨e, t, hfirst, hkind, ht⟩ := hround k s hs
      obtain ⟨trace, u, hrest, hkinds⟩ := ih ht
      refine ⟨e :: trace, u, hfirst.trans hrest, ?_⟩
      rw [List.map_cons, hkind, hkinds]

/-- What holds at the start with nothing observed, and is kept by every step with what it
shows, holds after every run. -/
theorem Observed.invariant {Inv : List ε → σ → Prop} (h : Observed R observe s trace t)
    (hs : Inv [] s) (hstep : ∀ trace t a u, Inv trace t → R t a u →
      Inv (trace ++ (observe t a u).toList) u) : Inv trace t := by
  induction h with
  | refl => exact hs
  | step _ hr ih => exact hstep _ _ _ _ ih hr

end Observed

section Traces

variable {ε : Type} {start x m : ε} {about : ε → Prop} {trace : List ε}

/-- Nothing about a subject was observed since the start. -/
def Quiet (start : ε) (about : ε → Prop) (trace : List ε) : Prop :=
  ∃ before since, trace = before ++ start :: since ∧ ∀ m ∈ since, ¬ about m

/-- What was observed first about a subject since the start. -/
def FirstSince (start : ε) (about : ε → Prop) (x : ε) (trace : List ε) : Prop :=
  ∃ before since rest, trace = before ++ start :: (since ++ x :: rest) ∧ ∀ m ∈ since, ¬ about m

theorem Quiet.begin (start : ε) (about : ε → Prop) (trace : List ε) :
    Quiet start about (trace ++ [start]) :=
  ⟨trace, [], rfl, by simp⟩

theorem Quiet.snoc (h : Quiet start about trace) (hm : ¬ about m) :
    Quiet start about (trace ++ [m]) := by
  obtain ⟨before, since, rfl, hquiet⟩ := h
  refine ⟨before, since ++ [m], by rw [List.append_assoc, List.cons_append], fun m' hm' => ?_⟩
  rcases List.mem_append.mp hm' with hm' | hm'
  · exact hquiet m' hm'
  · rw [List.mem_singleton.mp hm']
    exact hm

theorem Quiet.first (h : Quiet start about trace) (x : ε) :
    FirstSince start about x (trace ++ [x]) := by
  obtain ⟨before, since, rfl, hquiet⟩ := h
  exact ⟨before, since, [], by rw [List.append_assoc, List.cons_append], hquiet⟩

theorem FirstSince.append (h : FirstSince start about x trace) (more : List ε) :
    FirstSince start about x (trace ++ more) := by
  obtain ⟨before, since, rest, rfl, hquiet⟩ := h
  exact ⟨before, since, rest ++ more, by simp, hquiet⟩

end Traces

/-- Every run from the state comes to a state with the property: there is always a
step until then, and all of them lead there. -/
inductive Inevitable (R : σ → ι → σ → Prop) (P : σ → Prop) : σ → Prop
  | now {s : σ} (h : P s) : Inevitable R P s
  | later {s : σ} (henabled : ∃ a t, R s a t) (hall : ∀ a t, R s a t → Inevitable R P t) :
      Inevitable R P s

theorem Inevitable.mono {P Q : σ → Prop} (h : Inevitable R P s) (hpq : ∀ s, P s → Q s) :
    Inevitable R Q s := by
  induction h with
  | now hp => exact .now (hpq _ hp)
  | later henabled _ ih => exact .later henabled ih

/-- A property is inevitable if, as long as it does not hold, there is a step and every
step decreases a measure. -/
theorem Inevitable.of_measure {P : σ → Prop} (Inv : σ → Prop) (μ : σ → ℕ)
    (henabled : ∀ s, Inv s → ¬ P s → ∃ a t, R s a t)
    (hstep : ∀ s a t, Inv s → ¬ P s → R s a t → Inv t ∧ μ t < μ s) (hs : Inv s) :
    Inevitable R P s := by
  induction hn : μ s using Nat.strongRecOn generalizing s with
  | ind n ih =>
      by_cases hp : P s
      · exact .now hp
      · refine .later (henabled s hs hp) fun a t hr => ?_
        obtain ⟨ht, hlt⟩ := hstep s a t hs hp hr
        exact ih (μ t) (hn ▸ hlt) ht rfl

end Transition

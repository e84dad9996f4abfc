import FabricXSdk.Lib.Transition
import Mathlib.Data.List.Basic

/-!
# Components side by side

A system may have a list of components, each with a step relation of its own. A step of the
system moves some of them and leaves the others, so that what each of them has done is a run
of its own.
-/

namespace Transition

variable {σ ι : Type} {R : ℕ → σ → ι → σ → Prop} {ss ss' ss'' : List σ}

/-- Every component has made steps of its own, or none. -/
structure Advances (R : ℕ → σ → ι → σ → Prop) (ss ss' : List σ) : Prop where
  length : ss'.length = ss.length
  each : ∀ i s, ss[i]? = some s → ∃ s', ss'[i]? = some s' ∧ Reaches (R i) Free s s'

theorem Advances.refl (ss : List σ) : Advances R ss ss :=
  ⟨rfl, fun _ s hs => ⟨s, hs, Reaches.refl⟩⟩

theorem Advances.trans (h : Advances R ss ss') (h' : Advances R ss' ss'') :
    Advances R ss ss'' where
  length := h'.length.trans h.length
  each := by
    intro i s hs
    obtain ⟨s', hs', hreach⟩ := h.each i s hs
    obtain ⟨s'', hs'', hreach'⟩ := h'.each i s' hs'
    exact ⟨s'', hs'', Relation.ReflTransGen.trans hreach hreach'⟩

/-- One component makes a step. -/
theorem Advances.set {i : ℕ} {s s' : σ} {a : ι} (hs : ss[i]? = some s) (hr : R i s a s') :
    Advances R ss (ss.set i s') where
  length := List.length_set
  each := by
    intro j t ht
    by_cases hij : i = j
    · subst hij
      obtain rfl := Option.some.inj (ht.symm.trans hs)
      refine ⟨s', ?_, Reaches.refl.step trivial hr⟩
      rw [List.getElem?_set_self (List.getElem?_eq_some_iff.mp hs).choose]
    · exact ⟨t, (List.getElem?_set_ne hij).trans ht, Reaches.refl⟩

/-- All components make a step. -/
theorem Advances.map {f : σ → σ} {a : ι} (hr : ∀ i s, ss[i]? = some s → R i s a (f s)) :
    Advances R ss (ss.map f) where
  length := List.length_map ..
  each := by
    intro i s hs
    refine ⟨f s, ?_, Reaches.refl.step trivial (hr i s hs)⟩
    rw [List.getElem?_map, hs]
    rfl

/-- Where a component comes from. -/
theorem Advances.source (h : Advances R ss ss') {i : ℕ} {s' : σ} (hs' : ss'[i]? = some s') :
    ∃ s, ss[i]? = some s ∧ Reaches (R i) Free s s' := by
  have hlt : i < ss.length := h.length ▸ (List.getElem?_eq_some_iff.mp hs').choose
  obtain ⟨t, ht, hreach⟩ := h.each i ss[i] (List.getElem?_eq_getElem hlt)
  obtain rfl := Option.some.inj (ht.symm.trans hs')
  exact ⟨ss[i], List.getElem?_eq_getElem hlt, hreach⟩

end Transition

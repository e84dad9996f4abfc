import FabricXSdk.Lib.Transition
import Mathlib.Data.List.Infix
import Mathlib.Order.Iterate

/-!
# Backoff

A loop runs sessions one after the other. After one that ends with an error it sleeps
for a delay, and takes the next delay from the one it slept; after one that ends well it
goes back to the initial delay. All a delay depends on is how many sessions in a row
ended with an error before it.

The trace of a loop lists the delays it slept and its returns to the initial one. A
delay is slept once it is over: one that is cut short is not followed by a retry.
-/

namespace Backoff

open Transition

variable {α : Type}

/-- How a session ends. -/
inductive Ending
  | error
  | clean
  deriving DecidableEq, Repr

inductive Event (α : Type)
  /-- the delay after an error is over -/
  | slept (delay : α)
  /-- back to the initial delay -/
  | fresh
  deriving DecidableEq, Repr

def Event.ending : Event α → Ending
  | .slept _ => .error
  | .fresh => .clean

/-- Delays from `initial` to `cap` that do not shrink from one error to the next, and are
the initial one right after a clean end. -/
structure Respects [LE α] (initial cap : α) (trace : List (Event α)) : Prop where
  initial_le : ∀ d, .slept d ∈ trace → initial ≤ d
  le_cap : ∀ d, .slept d ∈ trace → d ≤ cap
  grows : ∀ d d', [.slept d, .slept d'] <:+: trace → d ≤ d'
  again : ∀ d, [.fresh, .slept d] <:+: trace → d = initial

/-- How a loop chooses its delays. -/
structure Policy (α : Type) where
  initial : α
  next : α → α

/-- The delay that comes after an event. -/
def Policy.after (p : Policy α) : Event α → α
  | .slept d => p.next d
  | .fresh => p.initial

/-- Where a loop is. -/
inductive Place
  /-- between two sessions -/
  | top
  | session
  | sleeping
  | elsewhere
  deriving DecidableEq, Repr

/-- What a step from one place to another shows, given the delay before it: a sleep is
over, or a session has ended well. -/
def shown (d : α) : Place → Place → Option (Event α)
  | .sleeping, .top => some (.slept d)
  | .session, .top => some .fresh
  | _, _ => none

/-- What a step of the loop does to its delay, by what it shows. -/
inductive Policy.Moves (p : Policy α) (d : α) : Option (Event α) → α → Prop
  | quiet : p.Moves d none d
  | slept : p.Moves d (some (.slept d)) (p.next d)
  | fresh : p.Moves d (some .fresh) p.initial

/-- The traces of loops that follow the policy, each with the delay that comes next. -/
inductive Policy.Paced (p : Policy α) : List (Event α) → α → Prop
  | start : p.Paced [] p.initial
  | slept {trace : List (Event α)} {d : α} (h : p.Paced trace d) :
      p.Paced (trace ++ [.slept d]) (p.next d)
  | fresh {trace : List (Event α)} {d : α} (h : p.Paced trace d) :
      p.Paced (trace ++ [.fresh]) p.initial

variable {p : Policy α} {trace : List (Event α)} {d x : α}

/-- A step that does not come to the top shows nothing. -/
theorem shown_eq_none {place place' : Place} (h : place' = place ∨ place' ≠ .top) :
    shown d place place' = none := by
  unfold shown
  split
  · simp at h
  · simp at h
  · rfl

theorem Policy.Moves.keep {place place' : Place} {d' : α} (h : place' = place ∨ place' ≠ .top)
    (hsame : d' = d) : p.Moves d (shown d place place') d' := by
  rw [shown_eq_none h, hsame]
  exact .quiet

/-- A loop whose steps all follow the policy is one of its loops. -/
theorem Policy.Paced.of_observed {σ ι : Type} {R : σ → ι → σ → Prop}
    {observe : σ → ι → σ → Option (Event α)} {s t : σ} (delay : σ → α)
    (h : Observed R observe s trace t) (hs : delay s = p.initial)
    (hstep : ∀ t a u, Reaches R Free s t → R t a u →
      p.Moves (delay t) (observe t a u) (delay u)) :
    p.Paced trace (delay t) := by
  induction h with
  | refl =>
      rw [hs]
      exact .start
  | @step trace t a u h hr ih =>
      have hmove := hstep t a u h.reaches hr
      generalize observe t a u = event at hmove
      generalize delay u = d' at hmove
      cases hmove with
      | quiet =>
          rw [Option.toList_none, List.append_nil]
          exact ih
      | slept => exact ih.slept
      | fresh => exact ih.fresh

section Lists

variable {β : Type} {l : List β} {a b c : β}

/-- Neighbours in a list with a new end. -/
theorem pair_infix_concat :
    [a, b] <:+: l ++ [c] ↔ (b = c ∧ l.getLast? = some a) ∨ [a, b] <:+: l := by
  rw [List.infix_concat_iff, List.suffix_concat_iff]
  constructor
  · rintro ((hnil | ⟨l', heq, hl'⟩) | hl)
    · cases hnil
    · obtain ⟨rfl, hc⟩ := List.append_inj' (show [a] ++ [b] = l' ++ [c] from heq) rfl
      obtain ⟨l', rfl⟩ := hl'
      exact Or.inl ⟨List.singleton_inj.mp hc, List.getLast?_concat⟩
    · exact Or.inr hl
  · rintro (⟨rfl, hl⟩ | hl)
    · obtain ⟨l', rfl⟩ := List.getLast?_eq_some_iff.mp hl
      exact Or.inl (Or.inr ⟨[a], rfl, List.suffix_append _ _⟩)
    · exact Or.inr hl

/-- A streak of `a` at a new end `a` is one longer than before. -/
theorem replicate_succ_suffix_concat {k : ℕ} :
    List.replicate (k + 1) a <:+ l ++ [a] ↔ List.replicate k a <:+ l := by
  rw [List.replicate_succ', List.suffix_append_self_iff]

theorem not_replicate_succ_suffix_concat {k : ℕ} (h : a ≠ b) :
    ¬ List.replicate (k + 1) a <:+ l ++ [b] := by
  intro hsuffix
  rw [List.replicate_succ', List.suffix_concat_iff] at hsuffix
  rcases hsuffix with hnil | ⟨l', heq, _⟩
  · exact List.concat_ne_nil _ _ hnil
  · exact h (List.singleton_inj.mp (List.append_inj' heq rfl).2)

end Lists

namespace Policy.Paced

/-- What holds of the initial delay and is kept by the policy holds of every delay. -/
theorem forall_slept (P : α → Prop) (h : p.Paced trace d) (hinit : P p.initial)
    (hnext : ∀ d, P d → P (p.next d)) : P d ∧ ∀ x, .slept x ∈ trace → P x := by
  induction h with
  | start => exact ⟨hinit, fun x hx => absurd hx List.not_mem_nil⟩
  | slept _ ih =>
      refine ⟨hnext _ ih.1, fun x hx => ?_⟩
      rcases List.mem_append.mp hx with hx | hx
      · exact ih.2 x hx
      · cases List.mem_singleton.mp hx
        exact ih.1
  | fresh _ ih =>
      refine ⟨hinit, fun x hx => ?_⟩
      rcases List.mem_append.mp hx with hx | hx
      · exact ih.2 x hx
      · cases List.mem_singleton.mp hx

/-- The delay that comes next is the one after the last event. -/
theorem eq_after {e : Event α} (h : p.Paced trace d) (hlast : trace.getLast? = some e) :
    d = p.after e := by
  cases h with
  | start => cases hlast
  | slept _ | fresh _ =>
      rw [List.getLast?_concat] at hlast
      cases hlast
      rfl

/-- A delay is the one after the event before it. -/
theorem eq_after_of_pair {e : Event α} (h : p.Paced trace d) (hpair : [e, .slept x] <:+: trace) :
    x = p.after e := by
  induction h with
  | start => cases List.infix_nil.mp hpair
  | slept h ih =>
      rcases pair_infix_concat.mp hpair with ⟨hx, hlast⟩ | hpair
      · cases hx
        exact h.eq_after hlast
      · exact ih hpair
  | fresh _ ih =>
      rcases pair_infix_concat.mp hpair with ⟨hx, _⟩ | hpair
      · cases hx
      · exact ih hpair

/-- A policy whose delays do not shrink respects every cap that its delays do. -/
theorem respects [Preorder α] {cap : α} (P : α → Prop) (h : p.Paced trace d)
    (hinit : P p.initial) (hnext : ∀ d, P d → P (p.next d))
    (hgrows : ∀ d, P d → p.initial ≤ d ∧ d ≤ p.next d)
    (hcap : ∀ x, .slept x ∈ trace → x ≤ cap) : Respects p.initial cap trace where
  initial_le := fun x hx => (hgrows x ((h.forall_slept P hinit hnext).2 x hx)).1
  le_cap := hcap
  grows := by
    intro x y hpair
    have hx : .slept x ∈ trace := hpair.subset List.mem_cons_self
    rw [h.eq_after_of_pair hpair]
    exact (hgrows x ((h.forall_slept P hinit hnext).2 x hx)).2
  again := fun _ hpair => h.eq_after_of_pair hpair

/-- The delay that comes next is the one after as many errors as the trace ends with. -/
theorem eq_iterate (h : p.Paced trace d) :
    ∃ n, d = p.next^[n] p.initial ∧
      ∀ k, List.replicate k .error <:+ trace.map Event.ending ↔ k ≤ n := by
  induction h with
  | start =>
      refine ⟨0, rfl, fun k => ?_⟩
      rw [List.map_nil, List.suffix_nil, List.replicate_eq_nil_iff, Nat.le_zero]
  | slept _ ih =>
      obtain ⟨n, rfl, hn⟩ := ih
      refine ⟨n + 1, (Function.iterate_succ_apply' _ _ _).symm, fun k => ?_⟩
      rw [List.map_append]
      cases k with
      | zero => exact iff_of_true List.nil_suffix (Nat.zero_le _)
      | succ k => exact replicate_succ_suffix_concat.trans ((hn k).trans Nat.succ_le_succ_iff.symm)
  | fresh _ _ =>
      refine ⟨0, rfl, fun k => ?_⟩
      rw [List.map_append]
      cases k with
      | zero => exact iff_of_true List.nil_suffix (Nat.zero_le _)
      | succ k =>
          exact iff_of_false (not_replicate_succ_suffix_concat (b := Ending.clean) (by decide))
            (Nat.not_succ_le_zero k)

/-- The delays slept are those after the first errors of the streaks in the trace. -/
theorem mem_slept_iff (h : p.Paced trace d) :
    .slept x ∈ trace ↔
      ∃ k, List.replicate (k + 1) .error <:+: trace.map Event.ending ∧
        x = p.next^[k] p.initial := by
  induction h with
  | start => simp
  | slept h ih =>
      obtain ⟨n, hd, hn⟩ := h.eq_iterate
      rw [List.mem_append, List.mem_singleton, Event.slept.injEq, ih, List.map_append]
      constructor
      · rintro (⟨k, hstreak, hx⟩ | hx)
        · exact ⟨k, List.infix_concat_iff.mpr (Or.inr hstreak), hx⟩
        · refine ⟨n, List.infix_concat_iff.mpr (Or.inl ?_), hx.trans hd⟩
          exact replicate_succ_suffix_concat.mpr ((hn n).mpr (Nat.le_refl n))
      · rintro ⟨k, hstreak, hx⟩
        rcases List.infix_concat_iff.mp hstreak with hend | hstreak
        · -- a streak that is not the whole of the last one was there before
          rcases Nat.lt_or_eq_of_le ((hn k).mp (replicate_succ_suffix_concat.mp hend)) with
            hlt | rfl
          · exact Or.inl ⟨k, ((hn (k + 1)).mpr hlt).isInfix, hx⟩
          · exact Or.inr (hx.trans hd.symm)
        · exact Or.inl ⟨k, hstreak, hx⟩
  | fresh _ ih =>
      rw [List.mem_append, ih, List.map_append]
      constructor
      · rintro (⟨k, hstreak, hx⟩ | hx)
        · exact ⟨k, List.infix_concat_iff.mpr (Or.inr hstreak), hx⟩
        · cases List.mem_singleton.mp hx
      · rintro ⟨k, hstreak, hx⟩
        rcases List.infix_concat_iff.mp hstreak with hend | hstreak
        · exact absurd hend (not_replicate_succ_suffix_concat (b := Ending.clean) (by decide))
        · exact Or.inl ⟨k, hstreak, hx⟩

/-- If the first `n` delays of a streak are below the cap and the one after them is not,
then the delays slept are below it as long as there is no streak of `n + 1` errors. -/
theorem le_cap_iff [Preorder α] (h : p.Paced trace d) (cap : α) (n : ℕ)
    (hbelow : ∀ k < n, p.next^[k] p.initial ≤ cap) (habove : ¬ p.next^[n] p.initial ≤ cap) :
    (∀ x, .slept x ∈ trace → x ≤ cap) ↔
      ¬ List.replicate (n + 1) .error <:+: trace.map Event.ending := by
  constructor
  · intro hcap hstreak
    exact habove (hcap _ (h.mem_slept_iff.mpr ⟨n, hstreak, rfl⟩))
  · intro hnone x hx
    obtain ⟨k, hstreak, rfl⟩ := h.mem_slept_iff.mp hx
    refine hbelow k (Nat.lt_of_not_le fun hle => hnone ?_)
    have hpart : List.replicate (n + 1) Ending.error <:+: List.replicate (k + 1) .error :=
      (List.suffix_replicate_iff.mpr (by simpa using hle)).isInfix
    exact hpart.trans hstreak

end Policy.Paced

end Backoff

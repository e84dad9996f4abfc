import FabricXSdk.Network.Monitors

/-!
# Readiness while the stream is down

Only a monitor goroutine enters `stateReady`. One that was cancelled after it had
compared heights still makes its call to `transition`, which does not look at the
state it leaves. While the loop sleeps in its backoff such a call moves
`stateRetrying` to `stateReady`.

A monitor that is not cancelled is that of the current syncing period. So without calls of
cancelled ones `stateReady` is entered from `stateSyncing` only, and the state of a sleeping
loop is `stateRetrying`.
-/

namespace FabricXSdk.Network

open Golang Transition

variable {σ Fate : Type} {b : Backend σ Fate} {s t : System σ} {a : Label Fate}

/-- No monitor that `transition` has cancelled makes its call to `transition(stateReady)`. -/
def NoCancelledReady (s : System σ) (a : Label Fate) : Prop :=
  ∀ i m, a = .ready i → s.sync.monitors[i]? = some m → m.cancelled = false

/-- The invariant of a run without such calls. -/
structure Honest (s : Sync) : Prop extends Lifecycle s, Owned s where
  sleeping : s.pc = .sleeping → s.state = .retrying

theorem honest_init : Honest Sync.init where
  toLifecycle := lifecycle_init
  toOwned := bounded_init.toOwned
  sleeping := by
    intro h
    cases h

/-- Monitors of an earlier synchronizer are not those of the next. -/
theorem Owned.step (hs : Owned s.sync) (h : Step b s a t) : Owned t.sync := by
  by_cases ha : a = .restart
  · subst ha
    cases h
    exact bounded_init.toOwned
  · exact hs.move (step_move ha h)

/-- A monitor that is not cancelled makes its call while its period lasts. -/
theorem Owned.syncing_of_call (hs : Owned s.sync) (hgood : NoCancelledReady s a) {i : ℕ}
    (ha : a = .ready i) (hm : s.sync.MonitorAt i .caughtUp) : s.sync.state = .syncing := by
  obtain ⟨m, hmonitor, _⟩ := hm
  exact hs.syncing i (hs.owner i m hmonitor (hgood i m ha hmonitor))

theorem Honest.step (hs : Honest s.sync) (hgood : NoCancelledReady s a) (h : Step b s a t) :
    Honest t.sync := by
  refine ⟨hs.toLifecycle.step h, hs.toOwned.step h, fun hpc => ?_⟩
  cases step_effect h with
  | start _ hpc' =>
      rw [hpc'] at hpc
      cases hpc
  | aside hstate hpc' =>
      rw [hstate]
      exact hs.sleeping (hpc' ▸ hpc)
  | loop _ _ hsleep => exact absurd hpc hsleep
  | enter next err hover hstate _ _ hsleep =>
      rw [hstate, Sync.transition_state _ _ _ (hs.ne_stopped hover), hsleep hpc]
  | ready i ha hm ht =>
      -- the loop slept before the call too, so no period lasts
      rw [ht, Sync.setMonitor_pc, Sync.transition_pc] at hpc
      have hretrying := hs.sleeping hpc
      rw [hs.toOwned.syncing_of_call hgood ha hm] at hretrying
      cases hretrying
  | restart ht =>
      rw [ht] at hpc
      cases hpc

/-- `stateReady` is entered only by a monitor's call. -/
theorem Lifecycle.ready_from (hs : Lifecycle s.sync) (h : Step b s a t)
    (hne : s.sync.state ≠ .ready) (hready : t.sync.state = .ready) :
    ∃ i, a = .ready i ∧ s.sync.MonitorAt i .caughtUp := by
  cases step_effect h with
  | start hstate _ =>
      rw [hstate] at hready
      cases hready
  | aside hstate _ => exact absurd (hstate.symm.trans hready) hne
  | loop hstate _ _ => exact absurd (hstate.symm.trans hready) hne
  | enter next err hover hstate hnext _ _ =>
      rw [hstate, Sync.transition_state _ _ _ (hs.ne_stopped hover)] at hready
      rcases hnext with rfl | rfl | rfl <;> cases hready
  | ready i ha hm _ => exact ⟨i, ha, hm⟩
  | restart ht =>
      rw [ht] at hready
      cases hready

/-- As long as no cancelled monitor reports readiness, `stateReady` is entered from
`stateSyncing` only, and both probes fail while the loop sleeps. -/
theorem not_ready_while_down (b : Backend σ Fate) {st : σ} {s : System σ}
    (h : Reaches (Step b) NoCancelledReady ⟨Sync.init, st⟩ s) :
    (∀ a t, NoCancelledReady s a → Step b s a t → s.sync.state ≠ .ready →
      t.sync.state = .ready → s.sync.state = .syncing) ∧
    (s.sync.pc = .sleeping →
      s.sync.state = .retrying ∧ s.sync.isReady ≠ none ∧ s.sync.live ≠ none) := by
  have hs : Honest s.sync :=
    h.invariant honest_init fun s a t hs hgood hstep => Honest.step hs hgood hstep
  constructor
  · intro a t hgood hstep hne hready
    obtain ⟨i, ha, hm⟩ := hs.toLifecycle.ready_from hstep hne hready
    exact hs.toOwned.syncing_of_call hgood ha hm
  · intro hpc
    have hstate := hs.sleeping hpc
    exact ⟨hstate, by simp [Sync.isReady, hstate], by simp [Sync.live, hstate]⟩

section Sample

/-- The monitor of the first period has compared heights. -/
def sampleReporting : Sync := { sampleSyncing with monitors := [⟨false, .caughtUp⟩] }

theorem reaches_reporting {Good : System ℕ → Label Unit → Prop}
    (hinternal : ∀ s, Good s .internal) :
    Reaches (Step sampleBackend) Good ⟨Sync.init, 7⟩ ⟨sampleReporting, 7⟩ := by
  have hstart : Reaches (Step sampleBackend) Good ⟨Sync.init, 7⟩ _ :=
    Reaches.refl.step (hinternal _) (Step.start rfl)
  have hread := (hstart.step (hinternal _) (Step.proceed rfl rfl)).step (hinternal _)
    (@Step.readHeight _ _ sampleBackend _ 7 none 7 rfl rfl)
  have hstream := hread.step (hinternal _) (Step.subscribe rfl)
  have hprobe := (hstream.step (hinternal _) (@Step.tick _ _ _ _ _ 0 ⟨_, rfl, rfl⟩)).step
    (hinternal _) (@Step.peerHeight _ _ _ _ _ 0 8 ⟨_, rfl, rfl⟩)
  exact hprobe.step (hinternal _)
    (@Step.localHeight _ _ sampleBackend _ 7 0 8 none 7 ⟨_, rfl, rfl⟩ rfl)

/-- The monitor reports readiness, the stream fails and the loop goes to sleep. -/
theorem not_ready_while_down_sample :
    ∃ s t u, Reaches (Step sampleBackend) NoCancelledReady ⟨Sync.init, 7⟩ s ∧
      Step sampleBackend s (.ready 0) t ∧ t.sync.state = .ready ∧ s.sync.state = .syncing ∧
      Reaches (Step sampleBackend) NoCancelledReady ⟨Sync.init, 7⟩ u ∧ u.sync.pc = .sleeping ∧
      u.sync.state = .retrying ∧ u.sync.isReady ≠ none ∧ u.sync.live ≠ none := by
  have hinternal : ∀ s : System ℕ, NoCancelledReady s (.internal : Label Unit) := by
    intro s i m h
    cases h
  have hcaughtUp := reaches_reporting hinternal
  have hcall : Step sampleBackend ⟨sampleReporting, 7⟩ (.ready 0) _ := Step.ready ⟨_, rfl, rfl⟩
  have hgood : NoCancelledReady ⟨sampleReporting, 7⟩ (.ready 0 : Label Unit) := by
    rintro i m ⟨⟩ hm
    cases hm
    rfl
  have hready := hcaughtUp.step hgood hcall
  have hfailed := hready.step (hinternal _) (Step.streamFailed [.lit "unavailable"] rfl)
  have hsleeping := (hfailed.step (hinternal _) (Step.persist rfl rfl)).step (hinternal _)
    (Step.retry rfl)
  exact ⟨_, _, _, hcaughtUp, hcall, rfl,
    (not_ready_while_down sampleBackend hcaughtUp).1 _ _ hgood hcall nofun rfl, hsleeping, rfl,
    (not_ready_while_down sampleBackend hsleeping).2 rfl⟩

/-- The monitor compares heights, the stream fails and the loop goes to sleep, and then
the monitor makes its call. -/
theorem ready_while_sleeping :
    ∃ s, Reaches (Step sampleBackend) Free ⟨Sync.init, 7⟩ s ∧ s.sync.pc = .sleeping ∧
      s.sync.state = .ready ∧ s.sync.isReady = none ∧ s.sync.live = none := by
  have hcaughtUp : Reaches (Step sampleBackend) Free ⟨Sync.init, 7⟩ ⟨sampleReporting, 7⟩ :=
    reaches_reporting fun _ => trivial
  have hfailed := hcaughtUp.step trivial (Step.streamFailed [.lit "unavailable"] rfl)
  have hsleeping := (hfailed.step trivial (Step.persist rfl rfl)).step trivial (Step.retry rfl)
  have hready := hsleeping.step trivial (@Step.ready _ _ _ _ _ 0 ⟨_, rfl, rfl⟩)
  exact ⟨_, hready, rfl, rfl, rfl, rfl⟩

end Sample

end FabricXSdk.Network

import FabricXSdk.Network.Lifecycle

/-!
# Monitors are bounded by the run

A monitor goroutine is started on entering `stateSyncing` and cancelled on leaving it.
It can outlive its period: a cancelled monitor may still be in a call to the peer, or
fire its own transition against a newer period. `monitorCancel` is the handle of the one
monitor that is not cancelled, and `Start` closes the peer once after all of them have
exited.

## Implementation notes

A restart is a new `Synchronizer` with monitors and a peer of its own, so the runs here
have none. `monitors` lists every monitor that was ever started.
-/

namespace FabricXSdk.Network

open Golang Transition

/-- The run stays with one synchronizer. -/
def OneInstance {σ Fate : Type} (_ : System σ) (a : Label Fate) : Prop := a ≠ .restart

/-- Monitor `i` has been started, and its context is not done. -/
def Sync.Uncancelled (s : Sync) (i : ℕ) : Prop := i < s.monitors.length ∧ ¬ s.MonitorDone i

/-- The step is the call to `peer.Close`. -/
def Closes (s t : Sync) : Prop := s.pc = .closing ∧ t.pc = .returned

section Handle

/-- Every monitor is cancelled, and there is no handle. -/
structure Quiet (s : Sync) : Prop where
  handle : s.monitorCancel = none
  cancelled : ∀ m ∈ s.monitors, m.cancelled = true

/-- The handle is that of the only monitor that is not cancelled, and is held while
syncing. -/
structure Owned (s : Sync) : Prop where
  owner : ∀ i m, s.monitors[i]? = some m → m.cancelled = false → s.monitorCancel = some i
  syncing : ∀ i, s.monitorCancel = some i → s.state = .syncing

variable {s t : Sync}

theorem Owned.congr (hs : Owned s) (hmonitors : t.monitors = s.monitors)
    (hcancel : t.monitorCancel = s.monitorCancel)
    (hstate : s.state = .syncing → t.state = .syncing) : Owned t where
  owner := by
    rw [hmonitors, hcancel]
    exact hs.owner
  syncing := by
    rw [hcancel]
    exact fun i h => hstate (hs.syncing i h)

theorem Quiet.owned (hs : Quiet s) : Owned s where
  owner := by
    intro i m hm hnot
    rw [hs.cancelled m (List.mem_of_getElem? hm)] at hnot
    cases hnot
  syncing := by
    intro i h
    rw [hs.handle] at h
    cases h

theorem quiet_of_owner
    (howner : ∀ i m, s.monitors[i]? = some m → m.cancelled = false → s.monitorCancel = some i)
    (h : s.monitorCancel = none) : Quiet s where
  handle := h
  cancelled := by
    intro m hm
    obtain ⟨i, hi⟩ := List.getElem?_of_mem hm
    by_contra hnot
    have hsome := howner i m hi (by simpa using hnot)
    rw [h] at hsome
    cases hsome

/-- The exit effect cancels the only monitor that is left. -/
theorem quiet_cancelMonitor
    (howner : ∀ i m, s.monitors[i]? = some m → m.cancelled = false → s.monitorCancel = some i) :
    Quiet s.cancelMonitor := by
  cases hcancel : s.monitorCancel with
  | none =>
      rw [Sync.cancelMonitor, hcancel]
      exact quiet_of_owner howner hcancel
  | some i =>
      rw [Sync.cancelMonitor, hcancel]
      refine ⟨rfl, fun m hm => ?_⟩
      obtain ⟨j, hj⟩ := List.getElem?_of_mem hm
      rw [List.getElem?_modify] at hj
      obtain ⟨m₀, hm₀, rfl⟩ := Option.map_eq_some_iff.mp hj
      split
      · rfl
      · rename_i hne
        by_contra hnot
        have hsome := howner j m₀ hm₀ (by simpa using hnot)
        rw [hcancel] at hsome
        exact hne (Option.some.inj hsome)

/-- Outside of the syncing state there is nothing to cancel. -/
theorem Owned.quiet_of_ne (hs : Owned s) (h : s.state ≠ .syncing) : Quiet s := by
  apply quiet_of_owner hs.owner
  cases hcancel : s.monitorCancel with
  | none => rfl
  | some i => exact absurd (hs.syncing i hcancel) h

theorem Quiet.startMonitor (hs : Quiet s) (hstate : s.state = .syncing) : Owned s.startMonitor := by
  rw [Sync.startMonitor]
  split
  · exact hs.owned
  · refine ⟨fun i m hm hnot => ?_, fun i _ => hstate⟩
    rcases getElem?_concat_eq_some.mp hm with hm | ⟨hi, _⟩
    · rw [hs.cancelled m (List.mem_of_getElem? hm)] at hnot
      cases hnot
    · rw [hi]

/-- The entry effects start a monitor at most, and only for `stateSyncing`. -/
theorem Quiet.enter (hs : Quiet s) (err : Option Text) : Owned (s.enter err) := by
  rw [Sync.enter]
  split
  · rename_i hstate
    have hquiet : Quiet { s with lastSyncErr := none } := ⟨hs.handle, hs.cancelled⟩
    exact hquiet.startMonitor hstate
  · exact hs.owned.congr rfl rfl id
  · exact (quiet_cancelMonitor hs.owned.owner).owned
  · exact hs.owned

theorem Owned.transition (hs : Owned s) (next : SyncState) (err : Option Text) :
    Owned (s.transition next err) := by
  rw [Sync.transition]
  split
  · exact hs
  · split
    · have hleft : Quiet { s with state := next }.cancelMonitor := quiet_cancelMonitor hs.owner
      exact hleft.enter err
    · rename_i hstate
      have hquiet := hs.quiet_of_ne hstate
      have hnext : Quiet { s with state := next } := ⟨hquiet.handle, hquiet.cancelled⟩
      exact hnext.enter err

theorem Owned.setMonitor (hs : Owned s) (i : ℕ) (pc : MonitorPc) : Owned (s.setMonitor i pc) where
  owner := by
    intro j m hm hnot
    rw [Sync.setMonitor, List.getElem?_modify] at hm
    obtain ⟨m₀, hm₀, rfl⟩ := Option.map_eq_some_iff.mp hm
    apply hs.owner j m₀ hm₀
    split at hnot
    · exact hnot
    · exact hnot
  syncing := hs.syncing

theorem Owned.unique (hs : Owned s) {i : ℕ} (h : s.Uncancelled i) :
    s.state = .syncing ∧ s.monitorCancel = some i := by
  obtain ⟨hlt, hdone⟩ := h
  have hm : s.monitors[i]? = some (s.monitors[i]) := List.getElem?_eq_getElem hlt
  have hnot : s.monitors[i].cancelled = false := by
    by_contra hcancelled
    exact hdone (Or.inr ⟨_, hm, by simpa using hcancelled⟩)
  have howner := hs.owner i _ hm hnot
  exact ⟨hs.syncing i howner, howner⟩

end Handle

section Step

variable {σ Fate : Type} {b : Backend σ Fate}

/-- What a step of one synchronizer does to its state, its monitors and its loop. -/
inductive Move (s t : Sync) : Prop
  | start (hnew : s.state = .notStarted) (ht : t = { s with state := .starting, pc := .top })
  | aside (ctxDone : Bool) (ht : t = { s with ctxDone := ctxDone })
  | advance (pc : LoopPc) (backoff : ℕ) (hs : s.pc.over = false) (hpc : pc.over = false)
      (ht : t = { s with pc := pc, currentBackoff := backoff })
  | enter (next : SyncState) (err : Option Text) (pc : LoopPc) (hs : s.pc.over = false)
      (hpc : pc.over = true → next = .stopped ∧ pc = .joining)
      (ht : t = { s.transition next err with pc := pc })
  | join (hs : s.pc = .joining) (hexited : ∀ m ∈ s.monitors, m.pc = .exited)
      (ht : t = { s with pc := .closing })
  | close (hs : s.pc = .closing) (ht : t = { s with pc := .returned })
  | monitor (i : ℕ) (pc pc' : MonitorPc) (hm : s.MonitorAt i pc) (hpc : pc ≠ .exited)
      (ht : t = s.setMonitor i pc')
  | ready (i : ℕ) (hm : s.MonitorAt i .caughtUp)
      (ht : t = (s.transition .ready none).setMonitor i .exited)

theorem step_move {s t : System σ} {a : Label Fate} (ha : OneInstance s a) (h : Step b s a t) :
    Move s.sync t.sync := by
  cases h with
  | start hnew => exact .start hnew rfl
  | alreadyStarted _ => exact .aside _ rfl
  | cancel => exact .aside true rfl
  | subscribe hpc => exact .enter .syncing none _ (by rw [hpc]; rfl) (by simp [LoopPc.over]) rfl
  | retry hpc => exact .enter .retrying _ _ (by rw [hpc]; rfl) (by simp [LoopPc.over]) rfl
  | stop hpc => exact .enter .stopped none _ (by rw [hpc]; rfl) (fun _ => ⟨rfl, rfl⟩) rfl
  | join hpc hexited => exact .join hpc hexited rfl
  | close hpc => exact .close hpc rfl
  | tick hm | monitorExit hm _ | peerHeight _ hm | peerFailed hm | localHeight hm _
  | localFailed hm _ => exact .monitor _ _ _ hm (by simp) rfl
  | ready hm => exact .ready _ hm rfl
  | restart => exact absurd rfl ha
  | leave hpc _ | proceed hpc _ | readHeight hpc _ | readFailed hpc _ | deliver hpc _
  | processFailed hpc _ | crash hpc _ | streamFailed _ hpc | streamEnd hpc | giveUp hpc _
  | persist hpc _ | wake hpc | interrupt hpc _ =>
      exact .advance _ _ (by rw [hpc]; rfl) rfl rfl

end Step

section Run

variable {σ Fate : Type} {b : Backend σ Fate} {s t : Sync}

/-- What holds in every run of one synchronizer. -/
structure Bounded (s : Sync) : Prop extends Lifecycle s, Owned s where
  ended : s.pc.over = true → s.state = .stopped
  joined : s.pc = .closing ∨ s.pc = .returned → ∀ m ∈ s.monitors, m.pc = .exited

theorem bounded_init : Bounded Sync.init where
  toLifecycle := lifecycle_init
  owner := by
    intro i m hm
    simp [Sync.init] at hm
  syncing := by
    intro i h
    cases h
  ended := by
    intro h
    cases h
  joined := by
    rintro (h | h)
    · cases h
    · cases h

theorem Owned.move (hs : Owned s) (h : Move s t) : Owned t := by
  cases h with
  | start hnew ht =>
      rw [ht]
      refine hs.congr rfl rfl fun hsyncing => ?_
      rw [hnew] at hsyncing
      cases hsyncing
  | enter next err pc _ _ ht =>
      rw [ht]
      exact (hs.transition next err).congr rfl rfl id
  | monitor i pc pc' _ _ ht =>
      rw [ht]
      exact hs.setMonitor i pc'
  | ready i _ ht =>
      rw [ht]
      exact (hs.transition .ready none).setMonitor i .exited
  | aside _ ht | advance _ _ _ _ ht | join _ _ ht | close _ ht =>
      rw [ht]
      exact hs.congr rfl rfl id

/-- `stateStopped` is in place before the deferred function waits. -/
theorem Bounded.ended_move (hs : Bounded s) (h : Move s t) (hover : t.pc.over = true) :
    t.state = .stopped := by
  cases h with
  | start _ ht =>
      rw [ht] at hover
      cases hover
  | aside _ ht =>
      rw [ht] at hover ⊢
      exact hs.ended hover
  | advance _ _ _ hpc ht =>
      rw [ht, hpc] at hover
      cases hover
  | enter next err pc hpc hlast ht =>
      rw [ht] at hover ⊢
      obtain ⟨rfl, _⟩ := hlast hover
      exact Sync.transition_state s .stopped err (hs.ne_stopped hpc)
  | join hpc _ ht | close hpc ht =>
      rw [ht]
      exact hs.ended (by rw [hpc]; rfl)
  | monitor _ _ _ _ _ ht =>
      rw [ht] at hover ⊢
      exact hs.ended hover
  | ready _ _ ht =>
      rw [ht, Sync.setMonitor_pc, Sync.transition_pc] at hover
      rw [ht, Sync.setMonitor_state, Sync.transition_stopped s _ _ (hs.ended hover)]
      exact hs.ended hover

theorem not_monitorAt_of_exited (hs : ∀ m ∈ s.monitors, m.pc = .exited) {i : ℕ} {pc : MonitorPc}
    (h : s.MonitorAt i pc) (hpc : pc ≠ .exited) : False := by
  obtain ⟨m, hm, rfl⟩ := h
  exact hpc (hs m (List.mem_of_getElem? hm))

/-- After the wait there is no monitor left to move. -/
theorem Bounded.joined_move (hs : Bounded s) (h : Move s t)
    (hlate : t.pc = .closing ∨ t.pc = .returned) : ∀ m ∈ t.monitors, m.pc = .exited := by
  have hover : t.pc.over = true := by
    rcases hlate with hpc | hpc <;> rw [hpc] <;> rfl
  cases h with
  | start _ ht =>
      rw [ht] at hover
      cases hover
  | aside _ ht =>
      rw [ht] at hlate ⊢
      exact hs.joined hlate
  | advance _ _ _ hpc ht =>
      rw [ht, hpc] at hover
      cases hover
  | enter _ _ pc _ hlast ht =>
      rw [ht] at hover hlate
      rw [(hlast hover).2] at hlate
      simp at hlate
  | join _ hexited ht =>
      rw [ht]
      exact hexited
  | close hpc ht =>
      rw [ht]
      exact hs.joined (Or.inl hpc)
  | monitor _ _ _ hm hpc ht =>
      rw [ht, Sync.setMonitor_pc] at hlate
      exact (not_monitorAt_of_exited (hs.joined hlate) hm hpc).elim
  | ready _ hm ht =>
      rw [ht, Sync.setMonitor_pc, Sync.transition_pc] at hlate
      exact (not_monitorAt_of_exited (hs.joined hlate) hm (by simp)).elim

theorem Bounded.step {s t : System σ} {a : Label Fate} (hs : Bounded s.sync)
    (ha : OneInstance s a) (h : Step b s a t) : Bounded t.sync where
  toLifecycle := hs.toLifecycle.step h
  toOwned := hs.toOwned.move (step_move ha h)
  ended := hs.ended_move (step_move ha h)
  joined := hs.joined_move (step_move ha h)

theorem Bounded.reaches {s t : System σ} (hs : Bounded s.sync)
    (h : Reaches (Step b) OneInstance s t) : Bounded t.sync :=
  h.invariant hs fun _ _ _ hs ha hstep => Bounded.step hs ha hstep

/-- A step in `stateStopped` moves monitors or the deferred function. -/
theorem Move.stopped (h : Move s t) (hstop : s.state = .stopped) :
    t.state = .stopped ∧ t.monitors.length = s.monitors.length := by
  cases h with
  | start hnew _ =>
      rw [hnew] at hstop
      cases hstop
  | enter _ _ _ _ _ ht =>
      rw [ht, Sync.transition_stopped s _ _ hstop]
      exact ⟨hstop, rfl⟩
  | monitor _ _ _ _ _ ht =>
      rw [ht]
      exact ⟨hstop, List.length_modify _ _ _⟩
  | ready _ _ ht =>
      rw [ht, Sync.transition_stopped s _ _ hstop]
      exact ⟨hstop, List.length_modify _ _ _⟩
  | aside _ ht | advance _ _ _ _ ht | join _ _ ht | close _ ht =>
      rw [ht]
      exact ⟨hstop, rfl⟩

theorem stopped_reaches {s t : System σ} (h : Reaches (Step b) OneInstance s t)
    (hstop : s.sync.state = .stopped) :
    t.sync.state = .stopped ∧ t.sync.monitors.length = s.sync.monitors.length := by
  apply h.invariant
  · exact ⟨hstop, rfl⟩
  · rintro u a v ⟨hstate, hlength⟩ ha hstep
    obtain ⟨hstate', hlength'⟩ := (step_move ha hstep).stopped hstate
    exact ⟨hstate', hlength'.trans hlength⟩

/-- `Start` returns once. -/
theorem Bounded.returned_move (hs : Bounded s) (h : Move s t) (hreturned : s.pc = .returned) :
    t.pc = .returned := by
  have hover : s.pc.over = true := by
    rw [hreturned]
    rfl
  cases h with
  | start hnew _ =>
      have hstop := hs.ended hover
      rw [hnew] at hstop
      cases hstop
  | aside _ ht | monitor _ _ _ _ _ ht =>
      rw [ht]
      exact hreturned
  | ready _ _ ht => rw [ht, Sync.setMonitor_pc, Sync.transition_pc, hreturned]
  | close _ ht => rw [ht]
  | advance _ _ hpc _ _ | enter _ _ _ hpc _ _ =>
      rw [hover] at hpc
      cases hpc
  | join hpc _ _ =>
      rw [hreturned] at hpc
      cases hpc

theorem Bounded.returned_reaches {s t : System σ} (hs : Bounded s.sync)
    (h : Reaches (Step b) OneInstance s t) (hreturned : s.sync.pc = .returned) :
    t.sync.pc = .returned := by
  have hall : Bounded t.sync ∧ t.sync.pc = .returned := by
    apply h.invariant
    · exact ⟨hs, hreturned⟩
    · rintro u a v ⟨hu, hpc⟩ ha hstep
      exact ⟨hu.step ha hstep, hu.returned_move (step_move ha hstep) hpc⟩
  exact hall.2

end Run

section Main

variable {σ Fate : Type}

/-- At any point of any run of a synchronizer, at most one monitor has a context that is
not done, and then the state is `stateSyncing` and `monitorCancel` is its handle. After
`stateStopped` the state stays and no monitor is started. The peer is closed at most once,
after every monitor has exited, and so it is when `Start` has returned. -/
theorem monitors_bounded (b : Backend σ Fate) {st : σ} {s : System σ}
    (h : Reaches (Step b) OneInstance ⟨Sync.init, st⟩ s) :
    (∀ i j, s.sync.Uncancelled i → s.sync.Uncancelled j → i = j) ∧
    (∀ i, s.sync.Uncancelled i → s.sync.state = .syncing ∧ s.sync.monitorCancel = some i) ∧
    (s.sync.state = .stopped → ∀ t, Reaches (Step b) OneInstance s t →
      t.sync.state = .stopped ∧ t.sync.monitors.length = s.sync.monitors.length) ∧
    (∀ a t, OneInstance s a → Step b s a t → Closes s.sync t.sync →
      (∀ m ∈ s.sync.monitors, m.pc = .exited) ∧
      ∀ u a' v, Reaches (Step b) OneInstance t u → OneInstance u a' → Step b u a' v →
        ¬ Closes u.sync v.sync) ∧
    (s.sync.pc = .returned →
      s.sync.state = .stopped ∧ ∀ m ∈ s.sync.monitors, m.pc = .exited) := by
  have hs : Bounded s.sync := Bounded.reaches bounded_init h
  refine ⟨?_, ?_, ?_, ?_, ?_⟩
  · intro i j hi hj
    have hsame := (hs.unique hi).2.symm.trans (hs.unique hj).2
    exact Option.some.inj hsame
  · intro i hi
    exact hs.unique hi
  · intro hstop t ht
    exact stopped_reaches ht hstop
  · intro a t ha hstep hcloses
    refine ⟨hs.joined (Or.inl hcloses.1), fun u a' v hu _ _ hagain => ?_⟩
    -- the second call would be made by a `Start` that has returned
    have hreturned := (hs.step ha hstep).returned_reaches hu hcloses.2
    rw [hagain.1] at hreturned
    cases hreturned
  · intro hreturned
    exact ⟨hs.ended (by rw [hreturned]; rfl), hs.joined (Or.inr hreturned)⟩

/-- The loop streams from block eight, and its monitor waits for a tick. -/
def sampleSyncing : Sync where
  state := .syncing
  lastSyncErr := none
  monitorCancel := some 0
  ctxDone := false
  pc := .streaming 8
  currentBackoff := 1
  monitors := [⟨false, .waiting⟩]

theorem sampleSyncing_uncancelled : sampleSyncing.Uncancelled 0 := by
  refine ⟨by decide, ?_⟩
  rintro (hdone | ⟨m, hm, hcancelled⟩)
  · cases hdone
  · cases hm
    cases hcancelled

/-- A run with one monitor, from the start of the monitor to the return of `Start`. -/
theorem monitors_bounded_sample :
    sampleSyncing.Uncancelled 0 ∧ sampleSyncing.monitorCancel = some 0 ∧
    ∃ t, Reaches (Step sampleBackend) OneInstance ⟨sampleSyncing, 7⟩ t ∧
      t.sync.pc = .returned ∧ t.sync.monitors.length = 1 ∧
      (t.sync.state = .stopped ∧ ∀ m ∈ t.sync.monitors, m.pc = .exited) := by
  have hinternal : ∀ s : System ℕ, OneInstance s (.internal : Label Unit) := by
    intro s h
    cases h
  have hstart : Reaches (Step sampleBackend) OneInstance ⟨Sync.init, 7⟩ _ :=
    Reaches.refl.step (hinternal _) (Step.start rfl)
  have hread := (hstart.step (hinternal _) (Step.proceed rfl rfl)).step (hinternal _)
    (@Step.readHeight _ _ sampleBackend _ 7 none 7 rfl rfl)
  have hstream : Reaches (Step sampleBackend) OneInstance ⟨Sync.init, 7⟩ ⟨sampleSyncing, 7⟩ :=
    hread.step (hinternal _) (Step.subscribe rfl)
  have hcancel : Reaches (Step sampleBackend) OneInstance ⟨sampleSyncing, 7⟩ _ :=
    Reaches.refl.step (hinternal _) Step.cancel
  have htop := hcancel.step (hinternal _) (@Step.streamEnd _ _ _ _ _ 8 rfl)
  have hstopped := (htop.step (hinternal _) (Step.leave rfl rfl)).step (hinternal _)
    (Step.stop rfl)
  have hexited := hstopped.step (hinternal _)
    (@Step.monitorExit _ _ _ _ _ 0 ⟨_, rfl, rfl⟩ (Or.inl rfl))
  have hjoined := hexited.step (hinternal _) (Step.join rfl (by
    intro m hm
    rw [List.mem_singleton.mp hm]))
  have hreturned := hjoined.step (hinternal _) (Step.close rfl)
  have hrun := Relation.ReflTransGen.trans hstream hreturned
  exact ⟨sampleSyncing_uncancelled,
    ((monitors_bounded sampleBackend hstream).2.1 0 sampleSyncing_uncancelled).2,
    _, hreturned, rfl, rfl, (monitors_bounded sampleBackend hrun).2.2.2.2 rfl⟩

end Main

end FabricXSdk.Network

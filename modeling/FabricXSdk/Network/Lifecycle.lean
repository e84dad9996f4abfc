import FabricXSdk.Lib.Transition
import FabricXSdk.Network.Synchronizer

/-!
# The states of the synchronizer

What a step does to the state and to the place of the loop. `stateStopped` is entered by the
deferred function of `Start` only, so every transition that the loop makes before takes
effect.
-/

namespace FabricXSdk.Network

open Golang Transition

/-- `Start` has made its last transition. -/
def LoopPc.over : LoopPc → Bool
  | .joining => true
  | .closing => true
  | .returned => true
  | _ => false

/-- What holds in every run: the state is `stateStopped` only after the deferred
transition. -/
structure Lifecycle (s : Sync) : Prop where
  running : s.state = .stopped → s.pc.over = true

variable {σ Fate : Type} {b : Backend σ Fate}

theorem lifecycle_init : Lifecycle Sync.init where
  running := by
    intro h
    cases h

/-- What a step does to the state and the place of the loop. -/
inductive Effect (s : Sync) (a : Label Fate) (t : Sync) : Prop
  | start (hstate : t.state = .starting) (hpc : t.pc = .top)
  | aside (hstate : t.state = s.state) (hpc : t.pc = s.pc)
  | loop (hstate : t.state = s.state) (hover : s.pc.over = true → t.pc.over = true)
      (hsleep : t.pc ≠ .sleeping)
  | enter (next : SyncState) (err : Option Text) (hover : s.pc.over = false)
      (hstate : t.state = (s.transition next err).state)
      (hnext : next = .syncing ∨ next = .retrying ∨ next = .stopped)
      (hstop : next = .stopped → t.pc.over = true) (hsleep : t.pc = .sleeping → next = .retrying)
  | ready (i : ℕ) (ha : a = .ready i) (hmonitor : s.MonitorAt i .caughtUp)
      (ht : t = (s.transition .ready none).setMonitor i .exited)
  | restart (ht : t = Sync.init)

theorem step_effect {s t : System σ} {a : Label Fate} (h : Step b s a t) :
    Effect s.sync a t.sync := by
  cases h with
  | start _ => exact .start rfl rfl
  | alreadyStarted _ | cancel | tick _ | monitorExit _ _ | peerHeight _ _ | peerFailed _
  | localHeight _ _ | localFailed _ _ => exact .aside rfl rfl
  | subscribe hpc =>
      exact .enter .syncing none (by rw [hpc]; rfl) rfl (by decide) (by simp) (by simp)
  | retry hpc => exact .enter .retrying _ (by rw [hpc]; rfl) rfl (by decide) (by simp) fun _ => rfl
  | stop hpc =>
      exact .enter .stopped none (by rw [hpc]; rfl) rfl (by decide) (fun _ => rfl) (by simp)
  | @ready _ _ i hm => exact .ready i rfl hm rfl
  | restart => exact .restart rfl
  | join _ _ | close _ => exact .loop rfl (fun _ => rfl) (by simp)
  | leave hpc _ | proceed hpc _ | readHeight hpc _ | readFailed hpc _ | deliver hpc _
  | processFailed hpc _ | crash hpc _ | streamFailed _ hpc | streamEnd hpc | giveUp hpc _
  | persist hpc _ | wake hpc | interrupt hpc _ =>
      exact .loop rfl (by simp [hpc, LoopPc.over]) (by simp)

theorem Lifecycle.ne_stopped {s : Sync} (hs : Lifecycle s) (hpc : s.pc.over = false) :
    s.state ≠ .stopped := by
  intro h
  rw [hs.running h] at hpc
  cases hpc

theorem Lifecycle.step {s t : System σ} {a : Label Fate} (hs : Lifecycle s.sync)
    (h : Step b s a t) : Lifecycle t.sync := by
  refine ⟨fun hstop => ?_⟩
  cases step_effect h with
  | start hstate _ =>
      rw [hstate] at hstop
      cases hstop
  | aside hstate hpc =>
      rw [hpc]
      exact hs.running (hstate ▸ hstop)
  | loop hstate hover _ => exact hover (hs.running (hstate ▸ hstop))
  | enter next err hover hstate _ hlast _ =>
      rw [Sync.transition_state _ _ _ (hs.ne_stopped hover)] at hstate
      exact hlast (hstate.symm.trans hstop)
  | ready i _ _ ht =>
      rw [ht, Sync.setMonitor_state] at hstop
      rw [ht, Sync.setMonitor_pc, Sync.transition_pc]
      -- a call before the end enters `stateReady`
      by_contra hover
      rw [Sync.transition_state _ _ _ (hs.ne_stopped (by simpa using hover))] at hstop
      cases hstop
  | restart ht =>
      rw [ht] at hstop
      cases hstop

section Sample

/-- A store that stays at a block. -/
def sampleBackend : Backend ℕ Unit where
  height := fun fault n =>
    match fault with
    | some err => .error err
    | none => .ok n
  process := fun _ _ n => (.ok (), n)

end Sample

end FabricXSdk.Network

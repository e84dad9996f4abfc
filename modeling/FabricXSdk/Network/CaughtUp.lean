import FabricXSdk.Network.Resume

/-!
# Ready means caught up

A monitor compares the height of the peer, which counts blocks, with `BlockHeight`, the
successor of `BlockNumber`. On a store that has processed a block this is the number of
blocks it has processed. `BlockNumber` is zero for an empty store as well, so an empty
store passes for one that has block zero, and is found to have caught up with a peer
whose chain is block zero.
-/

namespace FabricXSdk.Network

open Golang Blocks State Transition

section Monitor

variable {s : Sync} {i : ℕ} {pc : MonitorPc}

theorem Sync.MonitorAt.unique {pc' : MonitorPc} (h : s.MonitorAt i pc) (h' : s.MonitorAt i pc') :
    pc = pc' := by
  obtain ⟨m, hm, rfl⟩ := h
  obtain ⟨m', hm', rfl⟩ := h'
  rw [Option.some.inj (hm.symm.trans hm')]

theorem Sync.MonitorAt.cancelMonitor (h : s.MonitorAt i pc) : s.cancelMonitor.MonitorAt i pc := by
  obtain ⟨m, hm, rfl⟩ := h
  cases hcancel : s.monitorCancel with
  | none =>
      rw [Sync.cancelMonitor, hcancel]
      exact ⟨m, hm, rfl⟩
  | some j =>
      rw [Sync.cancelMonitor, hcancel]
      refine ⟨if j = i then { m with cancelled := true } else m, ?_, ?_⟩
      · rw [List.getElem?_modify, hm]
        rfl
      · split <;> rfl

theorem Sync.MonitorAt.startMonitor (h : s.MonitorAt i pc) : s.startMonitor.MonitorAt i pc := by
  obtain ⟨m, hm, rfl⟩ := h
  rw [Sync.startMonitor]
  split
  · exact ⟨m, hm, rfl⟩
  · refine ⟨m, ?_, rfl⟩
    rw [List.getElem?_append_left (List.getElem?_eq_some_iff.mp hm).1]
    exact hm

theorem Sync.MonitorAt.enter (h : s.MonitorAt i pc) (err : Option Text) :
    (s.enter err).MonitorAt i pc := by
  rw [Sync.enter]
  split
  · have hclear : { s with lastSyncErr := none }.MonitorAt i pc := h
    exact hclear.startMonitor
  · exact h
  · exact h.cancelMonitor
  · exact h

/-- A transition cancels and starts monitors, but moves none. -/
theorem Sync.MonitorAt.transition (h : s.MonitorAt i pc) (next : SyncState) (err : Option Text) :
    (s.transition next err).MonitorAt i pc := by
  have hnext : { s with state := next }.MonitorAt i pc := h
  rw [Sync.transition]
  split
  · exact h
  · split
    · exact hnext.cancelMonitor.enter err
    · exact hnext.enter err

/-- Only the monitor that is moved changes its place. -/
theorem Sync.MonitorAt.of_setMonitor {j : ℕ} {pc' pc'' : MonitorPc} (h : s.MonitorAt i pc)
    (ht : (s.setMonitor j pc').MonitorAt i pc'') : j = i ∧ pc'' = pc' ∨ pc'' = pc := by
  obtain ⟨m, hm, rfl⟩ := h
  obtain ⟨m', hm', rfl⟩ := ht
  rw [Sync.setMonitor, List.getElem?_modify, hm] at hm'
  have hmoved : (if j = i then { m with pc := pc' } else m) = m' := Option.some.inj hm'
  by_cases hj : j = i
  · rw [← hmoved, if_pos hj]
    exact Or.inl ⟨hj, rfl⟩
  · rw [← hmoved, if_neg hj]
    exact Or.inr rfl

end Monitor

section Observe

variable {σ Fate : Type} {b : Backend σ Fate}

/-- In this step monitor `i` finds that the store has caught up with the height it has
observed. Its next step is the call to `transition(stateReady)`. -/
structure CatchesUp (b : Backend σ Fate) (s : System σ) (a : Label Fate) (t : System σ)
    (i height : ℕ) : Prop where
  comparing : s.sync.MonitorAt i (.comparing height)
  step : Step b s a t
  caughtUp : t.sync.MonitorAt i .caughtUp

/-- The step is a read of the local height, which is not below the observed one. -/
theorem CatchesUp.localHeight {s t : System σ} {a : Label Fate} {i height : ℕ}
    (h : CatchesUp b s a t i height) :
    t.store = s.store ∧ ∃ fault n, b.height fault s.store = .ok n ∧ height ≤ blockHeight n := by
  obtain ⟨hm, hstep, hcaught⟩ := h
  cases hstep with
  | @localHeight s st j H fault n hmj hheight =>
      refine ⟨rfl, fault, n, hheight, ?_⟩
      rcases hm.of_setMonitor hcaught with ⟨rfl, hpc⟩ | hpc
      · cases hm.unique hmj
        by_contra hlt
        rw [if_neg hlt] at hpc
        cases hpc
      · cases hpc
  | tick _ | monitorExit _ _ | peerHeight _ _ | peerFailed _ | localFailed _ _ =>
      rcases hm.of_setMonitor hcaught with ⟨_, hpc⟩ | hpc
      · cases hpc
      · cases hpc
  | ready _ =>
      rcases (hm.transition .ready none).of_setMonitor hcaught with ⟨_, hpc⟩ | hpc
      · cases hpc
      · cases hpc
  | subscribe _ => cases (hm.transition .syncing none).unique hcaught
  | @retry _ _ err _ => cases (hm.transition .retrying (some err)).unique hcaught
  | stop _ => cases (hm.transition .stopped none).unique hcaught
  | restart =>
      obtain ⟨m, hnone, _⟩ := hcaught
      cases hnone
  | start _ | alreadyStarted _ | cancel | leave _ _ | proceed _ _ | readHeight _ _
  | readFailed _ _ | deliver _ _ | processFailed _ _ | crash _ _ | streamFailed _ _ | streamEnd _
  | giveUp _ _ | persist _ _ | wake _ | interrupt _ _ | join _ _ | close _ =>
      cases hm.unique hcaught

/-- A loop that streams in its first syncing period, with the monitor at `pc`. -/
def Sync.firstPeriod (next : ℕ) (pc : MonitorPc) : Sync where
  state := .syncing
  lastSyncErr := none
  monitorCancel := some 0
  ctxDone := false
  pc := .streaming next
  currentBackoff := 1
  monitors := [⟨false, pc⟩]

/-- A new synchronizer may come to compare any height with that of its store. -/
theorem reaches_comparing {Good : System σ → Label Fate → Prop}
    (hinternal : ∀ s, Good s .internal) {st : σ} {last : ℕ} (height : ℕ)
    (hlast : b.height none st = .ok last) :
    Reaches (Step b) Good ⟨Sync.init, st⟩
      ⟨Sync.firstPeriod (startBlock last) (.comparing height), st⟩ := by
  have hstart : Reaches (Step b) Good ⟨Sync.init, st⟩ _ :=
    Reaches.refl.step (hinternal _) (Step.start rfl)
  have hread := (hstart.step (hinternal _) (Step.proceed rfl rfl)).step (hinternal _)
    (Step.readHeight rfl hlast)
  have hstream := hread.step (hinternal _) (Step.subscribe rfl)
  exact (hstream.step (hinternal _) (@Step.tick _ _ _ _ _ 0 ⟨_, rfl, rfl⟩)).step (hinternal _)
    (@Step.peerHeight _ _ _ _ _ 0 height ⟨_, rfl, rfl⟩)

theorem firstPeriod_catchesUp {st : σ} {last : ℕ} (next height : ℕ)
    (hlast : b.height none st = .ok last) (hle : height ≤ blockHeight last) :
    CatchesUp b ⟨Sync.firstPeriod next (.comparing height), st⟩ .internal
      ⟨Sync.firstPeriod next .caughtUp, st⟩ 0 height where
  comparing := ⟨_, rfl, rfl⟩
  step := by
    have hm : (Sync.firstPeriod next (.comparing height)).MonitorAt 0 (.comparing height) :=
      ⟨_, rfl, rfl⟩
    have hstep := @Step.localHeight _ _ b _ st 0 height none last hm hlast
    rw [if_pos hle] at hstep
    exact hstep
  caughtUp := ⟨_, rfl, rfl⟩

end Observe

section Run

variable {p : Setup}

/-- The store never takes back a block. -/
theorem Synced.commits_mono {s t : System Node} {a : Label Fate} {bs : List Block}
    (hs : Synced p s bs) (h : Step p.backend s a t) :
    commits p s.store <+: commits p t.store := by
  rcases hs.step_cases h with ⟨hstore, _⟩ | ⟨fate, n, out, _, hpc, hout, ht⟩
  · exact ⟨[], by rw [hstore, List.append_nil]⟩
  · obtain ⟨j, bs', hran, _⟩ := hs.process hpc hout ht
    rw [hran.commits_eq]
    exact List.prefix_append _ _

theorem Synced.reaches {s t : System Node} {bs : List Block} (hs : Synced p s bs)
    (h : Reaches (Step p.backend) Free s t) :
    commits p s.store <+: commits p t.store ∧ ∃ bs', Synced p t bs' := by
  apply h.invariant
  · exact ⟨List.prefix_rfl, bs, hs⟩
  · rintro u a v ⟨hmono, bs', hu⟩ _ hstep
    exact ⟨hmono.trans (hu.commits_mono hstep), hu.step hstep⟩

/-- The accepted blocks are those below the length. -/
theorem Once.mem_iff {log : List ℕ} {length m : ℕ} (h : Once log length) :
    m ∈ log ↔ m < length := by
  obtain ⟨k, rfl, hk⟩ := h
  rw [List.mem_append, List.mem_replicate, List.mem_range'_1]
  omega

theorem Once.eq_nil_iff {log : List ℕ} {length : ℕ} (h : Once log length) :
    log = [] ↔ length = 0 := by
  rw [List.eq_nil_iff_forall_not_mem]
  constructor
  · intro hnone
    by_contra hpos
    exact hnone 0 (h.mem_iff.mpr (by omega))
  · intro hzero m hm
    have hlt := h.mem_iff.mp hm
    omega

/-- The height a monitor compares with, in terms of what the store has. -/
theorem Holds.blockHeight {db : Database} {bs : List Block} (h : Holds p db bs)
    {fault : Option Text} {n : ℕ} (hn : blockNumber p.channel fault db = .ok n) :
    Network.blockHeight n = max bs.length 1 := by
  have hsmall := h.small
  rw [h.height hn, Network.blockHeight, Nat.mod_eq_of_lt (by omega)]
  omega

theorem Once.le_of_subset {log log' : List ℕ} {length length' : ℕ} (h : Once log length)
    (h' : Once log' length') (hsub : log ⊆ log') : length ≤ length' := by
  by_contra hlt
  have hlast : length' ∈ log := h.mem_iff.mpr (by omega)
  have hless := h'.mem_iff.mp (hsub hlast)
  omega

/-- From when a monitor finds that the store has caught up with an observed height, and so
when it calls `transition(stateReady)`, the store has processed every block below that
height, unless it has processed nothing and the height is one. -/
theorem caughtUp_iff_not_empty (p : Setup) {s t u : System Node} {a : Label Fate} {i height : ℕ}
    (hrun : Reaches (Step p.backend) Free Setup.init s)
    (h : CatchesUp p.backend s a t i height) (hu : Reaches (Step p.backend) Free t u) :
    (∀ m < height, m ∈ commits p u.store) ↔ ¬ (commits p u.store = [] ∧ height = 1) := by
  obtain ⟨_, bs, hs⟩ := (synced_init p).reaches hrun
  obtain ⟨_, fault, n, hheight, hle⟩ := h.localHeight
  rw [hs.holds.blockHeight hheight] at hle
  -- the store has at least the blocks it had when the heights were compared
  obtain ⟨_, ht⟩ := hs.step h.step
  obtain ⟨hmono, bs', hs'⟩ := ht.reaches hu
  have hlength : bs.length ≤ bs'.length :=
    hs.once.le_of_subset hs'.once ((hs.commits_mono h.step).trans hmono).subset
  rw [hs'.once.eq_nil_iff]
  constructor
  · rintro hall ⟨hempty, hone⟩
    have hzero := hs'.once.mem_iff.mp (hall 0 (by omega))
    omega
  · intro hne m hm
    exact hs'.once.mem_iff.mpr (by omega)

end Run

section Sample

/-- A store without other handlers. -/
def sampleStoreOnly : Setup := sampleSetup 1 0 Nat.zero_lt_one

/-- A store with block zero has caught up with a chain of one block. -/
theorem caughtUp_iff_not_empty_sample :
    ∃ s t a, Reaches (Step sampleStoreOnly.backend) Free Setup.init s ∧
      CatchesUp sampleStoreOnly.backend s a t 0 1 ∧
      ∀ m < 1, m ∈ commits sampleStoreOnly t.store := by
  have htop := @reachesAt_init sampleStoreOnly Free (fun _ => trivial)
  have hzero := (htop.connect (fun _ => trivial) 0 rfl).deliver sampleFate (fun _ _ => trivial)
    (by decide +kernel)
  obtain ⟨_, _, _, hzero⟩ := hzero
  -- a new synchronizer on the store that has block zero
  have hlast : sampleStoreOnly.backend.height none
      (sampleStoreOnly.backend.process sampleFate 0 ⟨Database.empty, [], []⟩).2 = .ok 0 := by
    decide +kernel
  have hrun :=
    (hzero.step trivial Step.restart).trans (reaches_comparing (fun _ => trivial) 1 hlast)
  have hcatches := firstPeriod_catchesUp (startBlock 0) 1 hlast (by decide)
  refine ⟨_, _, _, hrun, hcatches, (caughtUp_iff_not_empty _ hrun hcatches Reaches.refl).mpr ?_⟩
  dsimp only
  decide +kernel

/-- An empty store is found to have caught up with a chain of one block, and `Ready`
returns nil. -/
theorem empty_store_ready :
    ∃ s t u a, Reaches (Step sampleStoreOnly.backend) Free Setup.init s ∧
      CatchesUp sampleStoreOnly.backend s a t 0 1 ∧ Step sampleStoreOnly.backend t (.ready 0) u ∧
      u.sync.isReady = none ∧ 0 ∉ commits sampleStoreOnly u.store := by
  have hlast : sampleStoreOnly.backend.height none Setup.init.store = .ok 0 := rfl
  have hcatches := firstPeriod_catchesUp (startBlock 0) 1 hlast (by decide)
  exact ⟨_, _, _, _, reaches_comparing (fun _ => trivial) 1 hlast, hcatches,
    @Step.ready _ _ _ _ _ 0 hcatches.caughtUp, rfl, by decide⟩

end Sample

end FabricXSdk.Network

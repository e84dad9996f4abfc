import FabricXSdk.Lib.Golang

/-!
# The synchronizer

`Start` runs a loop that reads the height of the local store, subscribes to the
peer from there, and backs off after an error. A monitor goroutine of each syncing
period compares heights and reports readiness. `transition` is the only way to
change the state, and holds the mutex while it does.

A `Step` is one atomic action of the loop, of a monitor or of the environment. All
interleavings of the goroutines are runs of steps.

## Implementation notes

The store and the processor are behind interfaces in the source, so they are a
parameter here: `Backend`. What a call to them meets is the `fault` or the `fate`
of the call. A panic of the processor ends the process. Go runs the deferred function of
`Start` before it does, which stops the monitors and closes the peer; this is left out, as
nothing of the synchronizer is left behind it. A `restart` is a new synchronizer on the
store as it is, after the old one has returned or has died.
Logging is left out, and so is the error of closing the peer, which is only logged.
-/

namespace FabricXSdk.Network

open Golang

inductive SyncState
  | notStarted
  | starting
  | syncing
  | ready
  | retrying
  | stopped
  deriving DecidableEq, Repr

section Errors

def errSynchronizerNotStarted : Text := [.lit "not started"]

def errSynchronizerNotReady : Text := [.lit "not ready: still syncing"]

def errSynchronizerRetrying : Text := [.lit "retrying after error"]

def errSynchronizerStopped : Text := [.lit "stopped"]

end Errors

/-- Where a monitor goroutine is. -/
inductive MonitorPc
  /-- in the `select` -/
  | waiting
  /-- after a tick, asking the peer for its height -/
  | probing
  /-- reading the local height, to be compared with that of the peer -/
  | comparing (peerHeight : ℕ)
  /-- caught up, before its call to `transition` -/
  | caughtUp
  | exited
  deriving DecidableEq, Repr

/-- A monitor goroutine, and whether its own context is cancelled. -/
structure Monitor where
  cancelled : Bool
  pc : MonitorPc
  deriving DecidableEq, Repr

/-- Where `Start` is. -/
inductive LoopPc
  | idle
  /-- before `ctx.Err()` at the top of the loop -/
  | top
  /-- before `BlockNumber` -/
  | reading
  /-- before `transition(stateSyncing)` -/
  | subscribing (start : ℕ)
  /-- in `SubscribeBlocks`, with the number of the block that comes next -/
  | streaming (next : ℕ)
  /-- after an error, before `ctx.Err()` -/
  | failed (err : Text)
  /-- before `transition(stateRetrying)` -/
  | retrying (err : Text)
  | sleeping
  /-- in the deferred function, before `transition(stateStopped)` -/
  | stopping
  | joining
  | closing
  | returned
  /-- the process has panicked -/
  | crashed
  deriving DecidableEq, Repr

/-- A `Synchronizer` with its goroutines. Monitors are listed in the order they were
started, and `monitorCancel` is the index of the one it cancels. -/
structure Sync where
  state : SyncState
  lastSyncErr : Option Text
  monitorCancel : Option ℕ
  ctxDone : Bool
  pc : LoopPc
  currentBackoff : ℕ
  monitors : List Monitor
  deriving DecidableEq, Repr

/-- `NewSynchronizer`, before a context is passed to `Start`. -/
def Sync.init : Sync where
  state := .notStarted
  lastSyncErr := none
  monitorCancel := none
  ctxDone := false
  pc := .idle
  currentBackoff := 1
  monitors := []

section Transition

/-- Call `monitorCancel` and clear it. -/
def Sync.cancelMonitor (s : Sync) : Sync :=
  match s.monitorCancel with
  | none => s
  | some i =>
      { s with
        monitors := s.monitors.modify i fun m => { m with cancelled := true }
        monitorCancel := none }

/-- Start a monitor goroutine, unless the run context is done. -/
def Sync.startMonitor (s : Sync) : Sync :=
  if s.ctxDone then s
  else
    { s with
      monitors := s.monitors ++ [⟨false, .waiting⟩]
      monitorCancel := some s.monitors.length }

/-- Move a monitor. -/
def Sync.setMonitor (s : Sync) (i : ℕ) (pc : MonitorPc) : Sync :=
  { s with monitors := s.monitors.modify i fun m => { m with pc := pc } }

/-- The entry effects of a state. -/
def Sync.enter (s : Sync) (err : Option Text) : Sync :=
  match s.state with
  | .syncing => { s with lastSyncErr := none }.startMonitor
  | .retrying => { s with lastSyncErr := err }
  | .stopped => s.cancelMonitor
  | _ => s

def Sync.transition (s : Sync) (next : SyncState) (err : Option Text) : Sync :=
  if s.state = .stopped then s
  -- the exit effect of `stateSyncing`
  else if s.state = .syncing then { s with state := next }.cancelMonitor.enter err
  else { s with state := next }.enter err

end Transition

section Fields

variable (s : Sync)

@[simp] theorem Sync.cancelMonitor_state : s.cancelMonitor.state = s.state := by
  simp only [Sync.cancelMonitor]
  split <;> rfl

@[simp] theorem Sync.startMonitor_state : s.startMonitor.state = s.state := by
  simp only [Sync.startMonitor]
  split <;> rfl

@[simp] theorem Sync.enter_state (err : Option Text) : (s.enter err).state = s.state := by
  simp only [Sync.enter]
  split <;> simp

@[simp] theorem Sync.setMonitor_state (i : ℕ) (pc : MonitorPc) :
    (s.setMonitor i pc).state = s.state := rfl

@[simp] theorem Sync.setMonitor_pc (i : ℕ) (pc : MonitorPc) : (s.setMonitor i pc).pc = s.pc := rfl

@[simp] theorem Sync.cancelMonitor_pc : s.cancelMonitor.pc = s.pc := by
  simp only [Sync.cancelMonitor]
  split <;> rfl

@[simp] theorem Sync.startMonitor_pc : s.startMonitor.pc = s.pc := by
  simp only [Sync.startMonitor]
  split <;> rfl

@[simp] theorem Sync.enter_pc (err : Option Text) : (s.enter err).pc = s.pc := by
  simp only [Sync.enter]
  split <;> simp

/-- `stateStopped` is left by no transition. -/
theorem Sync.transition_stopped (next : SyncState) (err : Option Text) (h : s.state = .stopped) :
    s.transition next err = s := by
  rw [Sync.transition, if_pos h]

/-- Any other state becomes the next one, whatever it was. -/
theorem Sync.transition_state (next : SyncState) (err : Option Text) (h : s.state ≠ .stopped) :
    (s.transition next err).state = next := by
  rw [Sync.transition, if_neg h]
  split <;> simp

@[simp] theorem Sync.transition_pc (next : SyncState) (err : Option Text) :
    (s.transition next err).pc = s.pc := by
  simp only [Sync.transition]
  split
  · rfl
  · split <;> simp

@[simp] theorem Sync.cancelMonitor_ctxDone : s.cancelMonitor.ctxDone = s.ctxDone := by
  simp only [Sync.cancelMonitor]
  split <;> rfl

@[simp] theorem Sync.startMonitor_ctxDone : s.startMonitor.ctxDone = s.ctxDone := by
  simp only [Sync.startMonitor]
  split <;> rfl

@[simp] theorem Sync.enter_ctxDone (err : Option Text) : (s.enter err).ctxDone = s.ctxDone := by
  simp only [Sync.enter]
  split <;> simp

@[simp] theorem Sync.transition_ctxDone (next : SyncState) (err : Option Text) :
    (s.transition next err).ctxDone = s.ctxDone := by
  simp only [Sync.transition]
  split
  · rfl
  · split <;> simp

@[simp] theorem Sync.cancelMonitor_currentBackoff :
    s.cancelMonitor.currentBackoff = s.currentBackoff := by
  simp only [Sync.cancelMonitor]
  split <;> rfl

@[simp] theorem Sync.startMonitor_currentBackoff :
    s.startMonitor.currentBackoff = s.currentBackoff := by
  simp only [Sync.startMonitor]
  split <;> rfl

@[simp] theorem Sync.enter_currentBackoff (err : Option Text) :
    (s.enter err).currentBackoff = s.currentBackoff := by
  simp only [Sync.enter]
  split <;> simp

@[simp] theorem Sync.transition_currentBackoff (next : SyncState) (err : Option Text) :
    (s.transition next err).currentBackoff = s.currentBackoff := by
  simp only [Sync.transition]
  split
  · rfl
  · split <;> simp

end Fields

section Probes

def retryingErr (lastSyncErr : Option Text) : Text :=
  match lastSyncErr with
  | some err => errSynchronizerRetrying ++ .lit ": " :: err
  | none => errSynchronizerRetrying

/-- `Live`; `none` is a nil error. -/
def Sync.live (s : Sync) : Option Text :=
  match s.state with
  | .notStarted => some errSynchronizerNotStarted
  | .stopped => some errSynchronizerStopped
  | .retrying => some (retryingErr s.lastSyncErr)
  | _ => none

/-- `Ready`; `none` is a nil error. -/
def Sync.isReady (s : Sync) : Option Text :=
  match s.state with
  | .notStarted => some errSynchronizerNotStarted
  | .stopped => some errSynchronizerStopped
  | .starting => some errSynchronizerNotReady
  | .syncing => some errSynchronizerNotReady
  | .retrying => some (retryingErr s.lastSyncErr)
  | .ready => none

end Probes

/-- The local store and the processor. `height` is `BlockNumber`, and `process` is
`ProcessBlock` on the block with the given number of the peer's chain. -/
structure Backend (σ Fate : Type) where
  height : Option Text → σ → Except Text ℕ
  process : Fate → ℕ → σ → Outcome Unit × σ

/-- A synchronizer and its store. -/
structure System (σ : Type) where
  sync : Sync
  store : σ

/-- Which step is taken, as far as conditions on runs ask for it. -/
inductive Label (Fate : Type)
  | internal
  | process (fate : Fate)
  /-- the call of a monitor to `transition(stateReady)` -/
  | ready (i : ℕ)
  | restart

/-- The first block to ask for; both an empty store and block zero give zero. -/
def startBlock (lastBlock : ℕ) : ℕ := if 0 < lastBlock then (lastBlock + 1) % 2 ^ 64 else 0

/-- `BlockHeight`, the number of the next block. -/
def blockHeight (lastBlock : ℕ) : ℕ := (lastBlock + 1) % 2 ^ 64

/-- Seconds. -/
def maxBackoff : ℕ := 30

def nextBackoff (currentBackoff : ℕ) : ℕ := min (currentBackoff * 2) maxBackoff

/-- Monitor `i` exists and is at `pc`. -/
def Sync.MonitorAt (s : Sync) (i : ℕ) (pc : MonitorPc) : Prop :=
  ∃ m, s.monitors[i]? = some m ∧ m.pc = pc

/-- The context of monitor `i` is done. -/
def Sync.MonitorDone (s : Sync) (i : ℕ) : Prop :=
  s.ctxDone = true ∨ ∃ m, s.monitors[i]? = some m ∧ m.cancelled = true

variable {σ Fate : Type}

inductive Step (b : Backend σ Fate) : System σ → Label Fate → System σ → Prop
  -- calls to `Start`, and cancellation of its context
  | start {s st} : s.state = .notStarted →
      Step b ⟨s, st⟩ .internal ⟨{ s with state := .starting, pc := .top }, st⟩
  | alreadyStarted {s st} : s.state ≠ .notStarted → Step b ⟨s, st⟩ .internal ⟨s, st⟩
  | cancel {s st} : Step b ⟨s, st⟩ .internal ⟨{ s with ctxDone := true }, st⟩
  -- the loop of `Start`
  | leave {s st} : s.pc = .top → s.ctxDone = true →
      Step b ⟨s, st⟩ .internal ⟨{ s with pc := .stopping }, st⟩
  | proceed {s st} : s.pc = .top → s.ctxDone = false →
      Step b ⟨s, st⟩ .internal ⟨{ s with pc := .reading }, st⟩
  | readHeight {s st fault n} : s.pc = .reading → b.height fault st = .ok n →
      Step b ⟨s, st⟩ .internal ⟨{ s with pc := .subscribing (startBlock n) }, st⟩
  | readFailed {s st fault err} : s.pc = .reading → b.height fault st = .error err →
      Step b ⟨s, st⟩ .internal ⟨{ s with pc := .failed err }, st⟩
  | subscribe {s st n} : s.pc = .subscribing n →
      Step b ⟨s, st⟩ .internal ⟨{ s.transition .syncing none with pc := .streaming n }, st⟩
  -- the stream: blocks, and its end with or without an error
  | deliver {s st fate n st'} : s.pc = .streaming n → b.process fate n st = (.ok (), st') →
      Step b ⟨s, st⟩ (.process fate) ⟨{ s with pc := .streaming (n + 1) }, st'⟩
  | processFailed {s st fate n err st'} : s.pc = .streaming n →
      b.process fate n st = (.error err, st') →
      Step b ⟨s, st⟩ (.process fate) ⟨{ s with pc := .failed (.lit "processor: " :: err) }, st'⟩
  | crash {s st fate n st'} : s.pc = .streaming n → b.process fate n st = (.panic, st') →
      Step b ⟨s, st⟩ (.process fate) ⟨{ s with pc := .crashed }, st'⟩
  | streamFailed {s st n} (err : Text) : s.pc = .streaming n →
      Step b ⟨s, st⟩ .internal ⟨{ s with pc := .failed err }, st⟩
  | streamEnd {s st n} : s.pc = .streaming n →
      Step b ⟨s, st⟩ .internal ⟨{ s with pc := .top, currentBackoff := 1 }, st⟩
  -- after an error of the store or the stream
  | giveUp {s st err} : s.pc = .failed err → s.ctxDone = true →
      Step b ⟨s, st⟩ .internal ⟨{ s with pc := .stopping }, st⟩
  | persist {s st err} : s.pc = .failed err → s.ctxDone = false →
      Step b ⟨s, st⟩ .internal ⟨{ s with pc := .retrying err }, st⟩
  | retry {s st err} : s.pc = .retrying err →
      Step b ⟨s, st⟩ .internal ⟨{ s.transition .retrying (some err) with pc := .sleeping }, st⟩
  | wake {s st} : s.pc = .sleeping →
      Step b ⟨s, st⟩ .internal
        ⟨{ s with pc := .top, currentBackoff := nextBackoff s.currentBackoff }, st⟩
  | interrupt {s st} : s.pc = .sleeping → s.ctxDone = true →
      Step b ⟨s, st⟩ .internal ⟨{ s with pc := .stopping }, st⟩
  -- the deferred function
  | stop {s st} : s.pc = .stopping →
      Step b ⟨s, st⟩ .internal ⟨{ s.transition .stopped none with pc := .joining }, st⟩
  | join {s st} : s.pc = .joining → (∀ m ∈ s.monitors, m.pc = .exited) →
      Step b ⟨s, st⟩ .internal ⟨{ s with pc := .closing }, st⟩
  | close {s st} : s.pc = .closing → Step b ⟨s, st⟩ .internal ⟨{ s with pc := .returned }, st⟩
  -- a monitor; its `select` may take a tick although its context is done
  | tick {s st i} : s.MonitorAt i .waiting →
      Step b ⟨s, st⟩ .internal ⟨s.setMonitor i .probing, st⟩
  | monitorExit {s st i} : s.MonitorAt i .waiting → s.MonitorDone i →
      Step b ⟨s, st⟩ .internal ⟨s.setMonitor i .exited, st⟩
  | peerHeight {s st i} (h : ℕ) : s.MonitorAt i .probing →
      Step b ⟨s, st⟩ .internal ⟨s.setMonitor i (.comparing h), st⟩
  | peerFailed {s st i} : s.MonitorAt i .probing →
      Step b ⟨s, st⟩ .internal ⟨s.setMonitor i .waiting, st⟩
  | localHeight {s st i h fault n} : s.MonitorAt i (.comparing h) → b.height fault st = .ok n →
      Step b ⟨s, st⟩ .internal
        ⟨s.setMonitor i (if h ≤ blockHeight n then .caughtUp else .waiting), st⟩
  | localFailed {s st i h fault err} : s.MonitorAt i (.comparing h) →
      b.height fault st = .error err → Step b ⟨s, st⟩ .internal ⟨s.setMonitor i .waiting, st⟩
  -- nothing is checked between the comparison and this call
  | ready {s st i} : s.MonitorAt i .caughtUp →
      Step b ⟨s, st⟩ (.ready i) ⟨(s.transition .ready none).setMonitor i .exited, st⟩
  | restart {s st} : Step b ⟨s, st⟩ .restart ⟨Sync.init, st⟩

/-- The loop is not between reading the height and the end of the stream. -/
def LoopPc.Away (pc : LoopPc) : Prop := ∀ n, pc ≠ .subscribing n ∧ pc ≠ .streaming n

/-- What a step does to the store and to the position of the stream. -/
inductive StoreEffect (b : Backend σ Fate) (s : System σ) (a : Label Fate) (t : System σ) : Prop
  | away (hstore : t.store = s.store) (hpc : t.sync.pc.Away)
  | stay (hstore : t.store = s.store) (hpc : t.sync.pc = s.sync.pc)
  | resume (fault : Option Text) (n : ℕ) (hstore : t.store = s.store)
      (hheight : b.height fault s.store = .ok n) (hpc : t.sync.pc = .subscribing (startBlock n))
  | subscribed (n : ℕ) (hstore : t.store = s.store) (hs : s.sync.pc = .subscribing n)
      (ht : t.sync.pc = .streaming n)
  | processed (fate : Fate) (n : ℕ) (out : Outcome Unit) (ha : a = .process fate)
      (hs : s.sync.pc = .streaming n) (hout : b.process fate n s.store = (out, t.store))
      (ht : out = .ok () ∧ t.sync.pc = .streaming (n + 1) ∨ out ≠ .ok () ∧ t.sync.pc.Away)

theorem away_of_ne {pc : LoopPc} (h : ∀ n, pc ≠ .subscribing n) (h' : ∀ n, pc ≠ .streaming n) :
    pc.Away := fun n => ⟨h n, h' n⟩

theorem step_storeEffect {b : Backend σ Fate} {s t : System σ} {a : Label Fate}
    (h : Step b s a t) : StoreEffect b s a t := by
  cases h with
  | alreadyStarted _ | cancel | tick _ | monitorExit _ _ | peerHeight _ _ | peerFailed _
  | localHeight _ _ | localFailed _ _ => exact .stay rfl rfl
  | ready _ =>
      refine .stay rfl ?_
      simp only [Sync.setMonitor, Sync.transition_pc]
  | readHeight _ hheight => exact .resume _ _ rfl hheight rfl
  | subscribe hpc => exact .subscribed _ rfl hpc rfl
  | deliver hpc hout => exact .processed _ _ _ rfl hpc hout (Or.inl ⟨rfl, rfl⟩)
  | processFailed hpc hout =>
      exact .processed _ _ _ rfl hpc hout (Or.inr ⟨by simp, away_of_ne (by simp) (by simp)⟩)
  | crash hpc hout =>
      exact .processed _ _ _ rfl hpc hout (Or.inr ⟨by simp, away_of_ne (by simp) (by simp)⟩)
  | start _ | leave _ _ | proceed _ _ | readFailed _ _ | streamFailed _ _ | streamEnd _
  | giveUp _ _ | persist _ _ | retry _ | wake _ | interrupt _ _ | stop _ | join _ _ | close _
  | restart => exact .away rfl (away_of_ne (by simp [Sync.init]) (by simp [Sync.init]))

end FabricXSdk.Network

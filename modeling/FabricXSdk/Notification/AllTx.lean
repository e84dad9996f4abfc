import FabricXSdk.Lib.Channel
import FabricXSdk.Lib.Transition
import FabricXSdk.Notification.Types

/-!
# The stream of all transactions

`Stream` calls `StreamAllTransactions`, whose receive loop hands every batch to
`ProcessBatch`, and runs the handlers on a goroutine of its own. `ProcessBatch` puts
the batch into a bounded queue and blocks while it is full. The goroutine takes the
batches out one by one and calls every handler with each. It stops at the first
error, and then cancels the context of the stream. When the receive loop has
returned, `Stream` closes the queue, waits for the goroutine, and returns.

A `StreamStep` is one atomic action of `Stream`, of the goroutine or of the caller.

## Implementation notes

`Stream`, the receive loop and `ProcessBatch` run on one goroutine and have one place
together. A handler returns what it likes, whenever it likes. What handlers were
called with and what they have returned from is recorded, and so are the batches that
were accepted and the first error. Logging is left out.
-/

namespace FabricXSdk.Notification

open Golang Channel Transition

section Model

def defaultQueueDepth : ℕ := 64

/-- The depth of the queue, as `NewAllTxStreamer` sets it. -/
def queueDepth (depth : Int) : ℕ := if depth ≤ 0 then defaultQueueDepth else depth.toNat

/-- Where `Stream` is. -/
inductive StreamPc
  /-- before `StreamBlocks` -/
  | opening
  /-- in `Recv` -/
  | receiving
  /-- `Recv` has failed, before `ctx.Err()` -/
  | failed (err : Text)
  /-- in the first `select` of `ProcessBatch` -/
  | offering (batch : AllTxBatch)
  /-- in the second `select` of `ProcessBatch` -/
  | blocked (batch : AllTxBatch)
  /-- `StreamAllTransactions` has returned, before `close(queue)` -/
  | closing (streamErr : Option Text)
  /-- waiting for the goroutine -/
  | joining (streamErr : Option Text)
  | returned (err : Option Text)
  deriving DecidableEq, Repr

/-- Where the goroutine of the handlers is. -/
inductive WorkerPc
  /-- before `ctx.Err()` at the top of the loop -/
  | checking
  /-- in the `select` -/
  | selecting
  /-- before the call of a handler, or after the last one -/
  | calling (handler : ℕ) (batch : AllTxBatch)
  /-- in `HandleBatch` -/
  | running (handler : ℕ) (batch : AllTxBatch)
  /-- `runHandlers` has returned -/
  | storing (err : Option Text)
  /-- before `cancel()` -/
  | cancelling
  /-- before `close(handlerDone)` -/
  | finishing
  | exited
  deriving DecidableEq, Repr

structure Streamer where
  queue : Chan AllTxBatch
  closed : Bool
  callerDone : Bool
  cancelled : Bool
  pc : StreamPc
  worker : WorkerPc
  handlerErr : Option Text
  accepted : List AllTxBatch
  seen : ℕ → List AllTxBatch
  done : ℕ → List AllTxBatch
  failure : Option Text

/-- The context of the stream, a child of that of the caller, is done. -/
def Streamer.streamDone (s : Streamer) : Bool := s.callerDone || s.cancelled

def Streamer.init (depth : Int) : Streamer where
  queue := Chan.make (queueDepth depth)
  closed := false
  callerDone := false
  cancelled := false
  pc := .opening
  worker := .checking
  handlerErr := none
  accepted := []
  seen := fun _ => []
  done := fun _ => []
  failure := none

/-- What `Stream` returns. -/
def Streamer.result (s : Streamer) (streamErr : Option Text) : Option Text :=
  match s.handlerErr with
  | some err => some err
  | none => if s.callerDone then none else streamErr

/-- A batch is appended to the record of a handler. -/
def record (log : ℕ → List AllTxBatch) (j : ℕ) (batch : AllTxBatch) : ℕ → List AllTxBatch :=
  Function.update log j (log j ++ [batch])

def handleErr (batch : AllTxBatch) (err : Text) : Text :=
  .lit "handle batch " :: .num batch.blockNumber :: .lit ": " :: err

inductive StreamLabel
  | internal
  /-- the caller cancels its context -/
  | cancel
  deriving DecidableEq, Repr

/-- One atomic action, with `n` handlers. -/
inductive StreamStep (n : ℕ) : Streamer → StreamLabel → Streamer → Prop
  | cancel {s} (h : s.callerDone = false) : StreamStep n s .cancel { s with callerDone := true }
  -- `StreamAllTransactions`
  | openFails {s} (err : Text) (h : s.pc = .opening) :
      StreamStep n s .internal { s with pc := .closing (some (.lit "open stream-blocks: " :: err)) }
  | opens {s} (h : s.pc = .opening) : StreamStep n s .internal { s with pc := .receiving }
  | receives {s} (batch : AllTxBatch) (h : s.pc = .receiving) :
      StreamStep n s .internal { s with pc := .offering batch }
  | recvEnds {s} (h : s.pc = .receiving) : StreamStep n s .internal { s with pc := .closing none }
  | recvFails {s} (err : Text) (h : s.pc = .receiving) :
      StreamStep n s .internal { s with pc := .failed err }
  | recvStops {s err} (h : s.pc = .failed err) (hdone : s.streamDone = true) :
      StreamStep n s .internal { s with pc := .closing none }
  | recvReports {s err} (h : s.pc = .failed err) (hdone : s.streamDone = false) :
      StreamStep n s .internal { s with pc := .closing (some (.lit "recv: " :: err)) }
  -- `ProcessBatch`
  | accepts {s batch queue} (h : s.pc = .offering batch ∨ s.pc = .blocked batch)
      (hsend : s.queue.send batch = some queue) :
      StreamStep n s .internal { s with
        queue := queue, pc := .receiving, accepted := s.accepted ++ [batch] }
  | blocks {s batch} (h : s.pc = .offering batch) (hsend : s.queue.send batch = none) :
      StreamStep n s .internal { s with pc := .blocked batch }
  -- with `context.Canceled`, or with the error of the context
  | refuses {s batch} (err : Text) (h : s.pc = .blocked batch) (hdone : s.streamDone = true) :
      StreamStep n s .internal { s with pc := .closing (some (.lit "process batch: " :: err)) }
  -- `Stream`
  | closes {s err} (h : s.pc = .closing err) :
      StreamStep n s .internal { s with closed := true, pc := .joining err }
  | returns {s err} (h : s.pc = .joining err) (hworker : s.worker = .exited) :
      StreamStep n s .internal { s with pc := .returned (s.result err), cancelled := true }
  -- `runHandlers`
  | stops {s} (h : s.worker = .checking ∨ s.worker = .selecting) (hdone : s.streamDone = true) :
      StreamStep n s .internal { s with worker := .storing none }
  | enters {s} (h : s.worker = .checking) (hdone : s.streamDone = false) :
      StreamStep n s .internal { s with worker := .selecting }
  | takes {s batch queue} (h : s.worker = .selecting)
      (hrecv : s.queue.recv = some (batch, queue)) :
      StreamStep n s .internal { s with queue := queue, worker := .calling 0 batch }
  | drains {s} (h : s.worker = .selecting) (hrecv : s.queue.recv = none)
      (hclosed : s.closed = true) : StreamStep n s .internal { s with worker := .storing none }
  | calls {s j batch} (h : s.worker = .calling j batch) (hj : j < n) :
      StreamStep n s .internal { s with
        worker := .running j batch, seen := record s.seen j batch }
  | handles {s j batch} (h : s.worker = .running j batch) :
      StreamStep n s .internal { s with
        worker := .calling (j + 1) batch, done := record s.done j batch }
  | loops {s j batch} (h : s.worker = .calling j batch) (hj : n ≤ j) :
      StreamStep n s .internal { s with worker := .checking }
  | fails {s j batch} (err : Text) (h : s.worker = .running j batch) :
      StreamStep n s .internal { s with
        worker := .storing (some (handleErr batch err)), failure := some (handleErr batch err) }
  -- the goroutine, after `runHandlers`
  | stores {s err} (h : s.worker = .storing err) :
      StreamStep n s .internal { s with handlerErr := err, worker := .cancelling }
  | cancels {s} (h : s.worker = .cancelling) :
      StreamStep n s .internal { s with cancelled := true, worker := .finishing }
  | exits {s} (h : s.worker = .finishing) : StreamStep n s .internal { s with worker := .exited }

end Model

section Control

variable {n : ℕ} {s t : Streamer} {a : StreamLabel}

/-- `Stream` has closed the queue. -/
def StreamPc.over : StreamPc → Bool
  | .joining _ | .returned _ => true
  | _ => false

/-- `runHandlers` has returned. -/
def WorkerPc.stopped : WorkerPc → Bool
  | .storing _ | .cancelling | .finishing | .exited => true
  | _ => false

/-- The goroutine has cancelled the context. -/
def WorkerPc.gone : WorkerPc → Bool
  | .finishing | .exited => true
  | _ => false

/-- The first error of a handler is on its way to `handlerErr`, or is there. -/
def Streamer.ErrKept (s : Streamer) : Prop :=
  match s.worker with
  | .storing err => err = s.failure
  | .cancelling | .finishing | .exited => s.handlerErr = s.failure
  | _ => s.failure = none

/-- How the two goroutines know of each other. -/
structure Control (s : Streamer) : Prop where
  capacity : 0 < s.queue.capacity
  closed : s.closed = s.pc.over
  cancelled : s.cancelled = s.worker.gone
  failure : s.ErrKept
  /-- without an error or a cancellation there is nothing left when the goroutine stops -/
  drained : s.worker.stopped = true → s.failure = none → s.callerDone = false →
    s.closed = true ∧ s.queue.buffer = []
  returned : ∀ r, s.pc = .returned r →
    s.worker = .exited ∧ ∀ err, s.failure = some err → r = some err

theorem queueDepth_pos (depth : Int) : 0 < queueDepth depth := by
  unfold queueDepth defaultQueueDepth
  split
  · exact Nat.succ_pos 63
  · omega

theorem Control.init (depth : Int) : Control (Streamer.init depth) where
  capacity := queueDepth_pos depth
  closed := rfl
  cancelled := rfl
  failure := rfl
  drained := fun h => nomatch h
  returned := fun _ h => nomatch h

theorem StreamStep.capacity (h : StreamStep n s a t) :
    t.queue.capacity = s.queue.capacity := by
  cases h with
  | accepts _ hsend => exact (Chan.send_eq_some.mp hsend).1
  | takes _ hrecv => exact (Chan.recv_eq_some.mp hrecv).1
  | _ => rfl

theorem StreamStep.closed (h : StreamStep n s a t) (hs : s.closed = s.pc.over) :
    t.closed = t.pc.over := by
  cases h with
  | accepts hpc _ => rcases hpc with hpc | hpc <;> simp_all [StreamPc.over]
  | _ => simp_all [StreamPc.over]

theorem StreamStep.cancelled (h : StreamStep n s a t) (hs : s.cancelled = s.worker.gone) :
    t.cancelled = t.worker.gone := by
  cases h with
  | stops hw _ => rcases hw with hw | hw <;> simp_all [WorkerPc.gone]
  | _ => simp_all [WorkerPc.gone]

theorem StreamStep.errKept (h : StreamStep n s a t) (hs : s.ErrKept) : t.ErrKept := by
  unfold Streamer.ErrKept at hs ⊢
  cases h with
  | stops hw _ => rcases hw with hw | hw <;> simp_all
  | _ => simp_all

theorem Streamer.ErrKept.exited (hs : s.ErrKept) (hw : s.worker = .exited) :
    s.handlerErr = s.failure := by
  unfold Streamer.ErrKept at hs
  rw [hw] at hs
  exact hs

theorem Control.step_drained (hs : Control s) (h : StreamStep n s a t)
    (hstopped : t.worker.stopped = true) (hfailure : t.failure = none)
    (hcaller : t.callerDone = false) : t.closed = true ∧ t.queue.buffer = [] := by
  cases h with
  | cancel _ => cases hcaller
  | accepts hpc _ =>
      -- nothing is accepted after the queue is closed
      have hclosed := (hs.drained hstopped hfailure hcaller).1
      rw [hs.closed] at hclosed
      rcases hpc with hpc | hpc <;> rw [hpc] at hclosed <;> cases hclosed
  | closes _ => exact ⟨rfl, (hs.drained hstopped hfailure hcaller).2⟩
  | stops hw hdone =>
      -- the context is done, and it is not the goroutine that has cancelled it
      have hcancelled : s.cancelled = true := by
        have hcaller' : s.callerDone = false := hcaller
        simpa [Streamer.streamDone, hcaller'] using hdone
      rw [hs.cancelled] at hcancelled
      rcases hw with hw | hw <;> rw [hw] at hcancelled <;> cases hcancelled
  | drains _ hrecv hclosed => exact ⟨hclosed, Chan.recv_eq_none.mp hrecv⟩
  | fails _ _ => cases hfailure
  | enters _ _ | takes _ _ | calls _ _ | handles _ | loops _ _ => cases hstopped
  | stores hw | cancels hw | exits hw =>
      exact hs.drained (by rw [hw]; rfl) hfailure hcaller
  | _ => exact hs.drained hstopped hfailure hcaller

theorem Control.step_returned (hs : Control s) (h : StreamStep n s a t) {r : Option Text}
    (hr : t.pc = .returned r) :
    t.worker = .exited ∧ ∀ err, t.failure = some err → r = some err := by
  cases h with
  | cancel _ => exact hs.returned r hr
  | @returns streamErr _ hworker =>
      refine ⟨hworker, fun err herr => ?_⟩
      obtain rfl := StreamPc.returned.inj hr
      have hkept : s.handlerErr = some err := (hs.failure.exited hworker).trans herr
      rw [Streamer.result, hkept]
  | stops hw _ =>
      rw [(hs.returned r hr).1] at hw
      rcases hw with hw | hw <;> cases hw
  | enters hw _ | takes hw _ | drains hw _ _ | calls hw _ | handles hw | loops hw _ | fails _ hw
  | stores hw | cancels hw | exits hw =>
      rw [(hs.returned r hr).1] at hw
      cases hw
  | _ => cases hr

theorem Control.step (hs : Control s) (h : StreamStep n s a t) : Control t where
  capacity := h.capacity ▸ hs.capacity
  closed := h.closed hs.closed
  cancelled := h.cancelled hs.cancelled
  failure := h.errKept hs.failure
  drained := hs.step_drained h
  returned := fun _ => hs.step_returned h

end Control

section Records

variable {n : ℕ} {s t : Streamer} {a : StreamLabel} {pre cur : List AllTxBatch} {c d : ℕ}

/-- The goroutine has taken `pre ++ cur` off the queue. All handlers are through with
`pre`, the first `c` were called with `cur` and the first `d` have returned from it. -/
structure Records (n : ℕ) (s : Streamer) (pre cur : List AllTxBatch) (c d : ℕ) : Prop where
  accepted : s.accepted = pre ++ cur ++ s.queue.buffer
  seen : ∀ i < n, s.seen i = if i < c then pre ++ cur else pre
  done : ∀ i < n, s.done i = if i < d then pre ++ cur else pre
  le : d ≤ c ∧ c ≤ d + 1

/-- What the place of the goroutine says about the batch it is at. -/
def Streamer.At (s : Streamer) (cur : List AllTxBatch) (c d : ℕ) : Prop :=
  match s.worker with
  | .checking | .selecting => cur = []
  | .calling j batch => cur = [batch] ∧ c = j ∧ d = j
  | .running j batch => cur = [batch] ∧ c = j + 1 ∧ d = j
  | _ => s.failure = none → cur = []

def Recorded (n : ℕ) (s : Streamer) : Prop :=
  ∃ pre cur c d, Records n s pre cur c d ∧ s.At cur c d

theorem Recorded.init (n : ℕ) (depth : Int) : Recorded n (Streamer.init depth) := by
  refine ⟨[], [], 0, 0, ⟨rfl, ?_, ?_, by omega⟩, rfl⟩
  · intro i _
    exact (ite_self _).symm
  · intro i _
    exact (ite_self _).symm

theorem record_self (log : ℕ → List AllTxBatch) (j : ℕ) (batch : AllTxBatch) :
    record log j batch j = log j ++ [batch] :=
  Function.update_self j _ log

theorem record_of_ne (log : ℕ → List AllTxBatch) {i j : ℕ} (hij : i ≠ j) (batch : AllTxBatch) :
    record log j batch i = log i :=
  Function.update_of_ne hij _ log

/-- A record that is through with the batch up to a handler, after the next one. -/
theorem record_next {log : ℕ → List AllTxBatch} {batch : AllTxBatch} {j : ℕ}
    (hlog : ∀ i < n, log i = if i < j then pre ++ [batch] else pre) :
    ∀ i < n, record log j batch i = if i < j + 1 then pre ++ [batch] else pre := by
  intro i hi
  by_cases hij : i = j
  · subst hij
    rw [record_self, hlog i hi, if_neg (Nat.lt_irrefl i), if_pos (Nat.lt_succ_self i)]
  · rw [record_of_ne log hij, hlog i hi]
    exact if_congr (by omega) rfl rfl

/-- A step that neither moves a batch nor calls a handler. -/
theorem Records.stay (hr : Records n s pre cur c d) (hat : t.At cur c d)
    (hqueue : t.accepted = s.accepted ∧ t.queue = s.queue)
    (hlogs : t.seen = s.seen ∧ t.done = s.done) : Recorded n t := by
  refine ⟨pre, cur, c, d, ⟨?_, ?_, ?_, hr.le⟩, hat⟩
  · rw [hqueue.1, hqueue.2]
    exact hr.accepted
  · rw [hlogs.1]
    exact hr.seen
  · rw [hlogs.2]
    exact hr.done

theorem Recorded.step (hs : Recorded n s) (h : StreamStep n s a t) : Recorded n t := by
  obtain ⟨pre, cur, c, d, hr, hat⟩ := hs
  unfold Streamer.At at hat
  cases h with
  | accepts _ hsend =>
      refine ⟨pre, cur, c, d, ⟨?_, hr.seen, hr.done, hr.le⟩, hat⟩
      change s.accepted ++ _ = _
      rw [(Chan.send_eq_some.mp hsend).2, hr.accepted, List.append_assoc _ s.queue.buffer]
  | stops hw _ =>
      have hcur : cur = [] := by
        rcases hw with hw | hw <;> rw [hw] at hat <;> exact hat
      exact hr.stay (fun _ => hcur) ⟨rfl, rfl⟩ ⟨rfl, rfl⟩
  | drains hw _ _ =>
      rw [hw] at hat
      exact hr.stay (fun _ => hat) ⟨rfl, rfl⟩ ⟨rfl, rfl⟩
  | enters hw _ | stores hw | cancels hw | exits hw =>
      rw [hw] at hat
      exact hr.stay hat ⟨rfl, rfl⟩ ⟨rfl, rfl⟩
  | @takes batch queue hw hrecv =>
      rw [hw] at hat
      subst hat
      refine ⟨pre, [batch], 0, 0, ⟨?_, ?_, ?_, by omega⟩, rfl, rfl, rfl⟩
      · change s.accepted = _
        rw [hr.accepted, (Chan.recv_eq_some.mp hrecv).2]
        simp
      · intro i hi
        simpa using hr.seen i hi
      · intro i hi
        simpa using hr.done i hi
  | @calls j batch hw hj =>
      rw [hw] at hat
      obtain ⟨rfl, rfl, rfl⟩ := hat
      exact ⟨pre, [batch], _, _, ⟨hr.accepted, record_next hr.seen, hr.done, by omega⟩,
        rfl, rfl, rfl⟩
  | @handles j batch hw =>
      rw [hw] at hat
      obtain ⟨rfl, rfl, rfl⟩ := hat
      exact ⟨pre, [batch], _, _, ⟨hr.accepted, hr.seen, record_next hr.done, by omega⟩,
        rfl, rfl, rfl⟩
  | @loops j batch hw hj =>
      rw [hw] at hat
      obtain ⟨rfl, rfl, rfl⟩ := hat
      refine ⟨pre ++ [batch], [], 0, 0, ⟨?_, ?_, ?_, by omega⟩, rfl⟩
      · rw [List.append_nil]
        exact hr.accepted
      · intro i hi
        simpa [Nat.lt_of_lt_of_le hi hj] using hr.seen i hi
      · intro i hi
        simpa [Nat.lt_of_lt_of_le hi hj] using hr.done i hi
  | fails _ _ => exact hr.stay (fun h => nomatch h) ⟨rfl, rfl⟩ ⟨rfl, rfl⟩
  | _ => exact hr.stay hat ⟨rfl, rfl⟩ ⟨rfl, rfl⟩

/-- Records with the batch up to one handler go at least as far as those up to fewer. -/
theorem stair_le {p q : Prop} [Decidable p] [Decidable q] (h : p → q) :
    (if p then pre ++ cur else pre) <+: if q then pre ++ cur else pre := by
  by_cases hp : p
  · simp [hp, h hp]
  · rw [if_neg hp]
    split
    · exact List.prefix_append _ _
    · exact List.prefix_refl _

theorem Records.seen_le (h : Records n s pre cur c d) {j : ℕ} (hj : j < n) :
    s.seen j <+: s.accepted := by
  rw [h.accepted, h.seen j hj]
  split
  · exact List.prefix_append _ _
  · rw [List.append_assoc]
    exact List.prefix_append _ _

theorem Records.done_le (h : Records n s pre cur c d) {j : ℕ} (hj : j < n) :
    s.done j <+: s.seen j := by
  rw [h.done j hj, h.seen j hj]
  exact stair_le fun hjd => Nat.lt_of_lt_of_le hjd h.le.1

theorem Records.next_le (h : Records n s pre cur c d) {j : ℕ} (hj : j + 1 < n) :
    s.seen (j + 1) <+: s.done j := by
  rw [h.seen _ hj, h.done j (Nat.lt_of_succ_lt hj)]
  exact stair_le fun hjc => Nat.lt_of_succ_lt_succ (Nat.lt_of_lt_of_le hjc h.le.2)

end Records

section Progress

variable {n : ℕ} {s t : Streamer} {a : StreamLabel} {err : Text}

/-- The goroutine can go on, unless it waits for a batch. -/
theorem worker_enabled (n : ℕ) (hw : s.worker ≠ .exited)
    (hselect : s.queue.recv = none → s.closed = true) : ∃ t, StreamStep n s .internal t := by
  cases hworker : s.worker with
  | checking =>
      cases hdone : s.streamDone with
      | true => exact ⟨_, .stops (Or.inl hworker) hdone⟩
      | false => exact ⟨_, .enters hworker hdone⟩
  | selecting =>
      cases hrecv : s.queue.recv with
      | none => exact ⟨_, .drains hworker hrecv (hselect hrecv)⟩
      | some p => exact ⟨_, .takes hworker hrecv⟩
  | calling j batch =>
      rcases Nat.lt_or_ge j n with hj | hj
      · exact ⟨_, .calls hworker hj⟩
      · exact ⟨_, .loops hworker hj⟩
  | running j batch => exact ⟨_, .handles hworker⟩
  | storing err => exact ⟨_, .stores hworker⟩
  | cancelling => exact ⟨_, .cancels hworker⟩
  | finishing => exact ⟨_, .exits hworker⟩
  | exited => exact absurd hworker hw

/-- A call of `ProcessBatch` that is blocked after the goroutine is gone is released. -/
theorem Control.released (hs : Control s) (hw : s.worker = .exited) : s.streamDone = true := by
  have hcancelled := hs.cancelled
  rw [hw] at hcancelled
  rw [Streamer.streamDone, hcancelled]
  exact Bool.or_true _

/-- There is no deadlock: until `Stream` has returned, it or the goroutine can go on. -/
theorem Control.enabled (n : ℕ) (hs : Control s) (hpc : ∀ r, s.pc ≠ .returned r) :
    ∃ t, StreamStep n s .internal t := by
  cases h : s.pc with
  | opening => exact ⟨_, .opens h⟩
  | receiving => exact ⟨_, .recvEnds h⟩
  | failed err =>
      cases hdone : s.streamDone with
      | true => exact ⟨_, .recvStops h hdone⟩
      | false => exact ⟨_, .recvReports h hdone⟩
  | offering batch =>
      cases hsend : s.queue.send batch with
      | none => exact ⟨_, .blocks h hsend⟩
      | some queue => exact ⟨_, .accepts (Or.inl h) hsend⟩
  | blocked batch =>
      cases hsend : s.queue.send batch with
      | some queue => exact ⟨_, .accepts (Or.inr h) hsend⟩
      | none =>
          by_cases hw : s.worker = .exited
          · exact ⟨_, .refuses [.lit "context canceled"] h (hs.released hw)⟩
          · -- the queue is full, so the goroutine does not wait for a batch
            refine worker_enabled n hw fun hrecv => ?_
            have hfull := Chan.send_eq_none.mp hsend
            have hcap := hs.capacity
            rw [Chan.recv_eq_none.mp hrecv] at hfull
            rw [← hfull] at hcap
            exact absurd hcap (Nat.lt_irrefl 0)
  | closing streamErr => exact ⟨_, .closes h⟩
  | joining streamErr =>
      by_cases hw : s.worker = .exited
      · exact ⟨_, .returns h hw⟩
      · refine worker_enabled n hw fun _ => ?_
        rw [hs.closed, h]
        rfl
  | returned r => exact absurd h (hpc r)

def StreamPc.rank : StreamPc → ℕ
  | .opening => 7
  | .receiving => 6
  | .offering _ => 5
  | .failed _ | .blocked _ => 4
  | .closing _ => 3
  | .joining _ => 2
  | .returned _ => 0

def WorkerPc.rank : WorkerPc → ℕ
  | .storing _ => 3
  | .cancelling => 2
  | .finishing => 1
  | _ => 0

/-- What is left to do once the goroutine does not take batches any more. -/
def Streamer.rank (s : Streamer) : ℕ :=
  s.worker.rank + s.pc.rank + 3 * (s.queue.capacity - s.queue.buffer.length) +
    if s.callerDone then 0 else 1

theorem Control.stopped_of_failure (hs : Control s) (hf : s.failure = some err) :
    s.worker.stopped = true := by
  have hkept := hs.failure
  unfold Streamer.ErrKept at hkept
  cases hw : s.worker <;> simp_all [WorkerPc.stopped]

/-- After an error no handler is called, and every action gets closer to the end. -/
theorem Control.after_failure (hs : Control s) (hf : s.failure = some err)
    (h : StreamStep n s a t) :
    t.failure = some err ∧ t.seen = s.seen ∧ t.rank < s.rank := by
  have hstopped := hs.stopped_of_failure hf
  cases h with
  | cancel h => exact ⟨hf, rfl, by simp [Streamer.rank, h]⟩
  | stops hw _ => rcases hw with hw | hw <;> rw [hw] at hstopped <;> cases hstopped
  | enters hw _ | takes hw _ | drains hw _ _ | calls hw _ | handles hw | loops hw _ | fails _ hw =>
      rw [hw] at hstopped
      cases hstopped
  | @accepts batch queue hpc hsend =>
      obtain ⟨hcap, hbuf⟩ := Chan.send_eq_some.mp hsend
      have hbound := queue.bounded
      refine ⟨hf, rfl, ?_⟩
      rw [hcap, hbuf, List.length_append, List.length_singleton] at hbound
      rcases hpc with hpc | hpc <;>
        simp only [Streamer.rank, StreamPc.rank, hpc, hcap, hbuf, List.length_append,
          List.length_singleton] <;> omega
  | stores hw | cancels hw | exits hw =>
      exact ⟨hf, rfl, by simp [Streamer.rank, WorkerPc.rank, hw]⟩
  | openFails _ hpc | opens hpc | receives _ hpc | recvEnds hpc | recvFails _ hpc | recvStops hpc _
  | recvReports hpc _ | blocks hpc _ | refuses _ hpc _ | closes hpc | returns hpc _ =>
      exact ⟨hf, rfl, by simp [Streamer.rank, StreamPc.rank, hpc]⟩

/-- After an error of a handler `Stream` comes to return it. -/
theorem Control.returns_failure (hs : Control s) (hf : s.failure = some err) :
    Inevitable (StreamStep n) (fun t => t.pc = .returned (some err)) s := by
  refine Inevitable.of_measure (fun s => Control s ∧ s.failure = some err) Streamer.rank ?_ ?_
    ⟨hs, hf⟩
  · rintro s ⟨hs, hf⟩ hnot
    have hpc : ∀ r, s.pc ≠ .returned r := by
      intro r hr
      rw [(hs.returned r hr).2 err hf] at hr
      exact hnot hr
    obtain ⟨t, ht⟩ := hs.enabled n hpc
    exact ⟨_, t, ht⟩
  · rintro s a t ⟨hs, hf⟩ _ h
    obtain ⟨hkept, _, hlt⟩ := hs.after_failure hf h
    exact ⟨⟨hs.step h, hkept⟩, hlt⟩

end Progress

section Streams

variable {n : ℕ} {s : Streamer} {depth : Int}

/-- In every run of `Stream`, with any handlers and any depth of the queue:
every handler has received an initial part of the accepted batches, and the next one
only what the one before has returned from; after an error no handler is called and
`Stream` comes to return it; if `Stream` has returned without an error or a
cancellation, every handler is through with every accepted batch; a blocked
`ProcessBatch` is released when the goroutine is gone, and in general nobody waits
for ever. -/
theorem stream_delivers (h : Reaches (StreamStep n) Free (.init depth) s) :
    (∀ j < n, s.seen j <+: s.accepted ∧ s.done j <+: s.seen j) ∧
      (∀ j, j + 1 < n → s.seen (j + 1) <+: s.done j) ∧
      (∀ err, s.failure = some err →
        (∀ a t, StreamStep n s a t → t.failure = some err ∧ t.seen = s.seen) ∧
          Inevitable (StreamStep n) (fun t => t.pc = .returned (some err)) s) ∧
      (∀ r, s.pc = .returned r → s.failure = none → s.callerDone = false →
        ∀ j < n, s.done j = s.accepted) ∧
      (∀ batch, s.pc = .blocked batch → s.worker = .exited → s.streamDone = true) ∧
        ((∀ r, s.pc ≠ .returned r) → ∃ t, StreamStep n s .internal t) := by
  have hc : Control s := h.invariant (Control.init depth) fun _ _ _ hs _ hstep => hs.step hstep
  have hrec : Recorded n s := h.invariant (Recorded.init n depth) fun _ _ _ hs _ hstep =>
    hs.step hstep
  obtain ⟨pre, cur, c, d, hr, hat⟩ := hrec
  refine ⟨?_, ?_, ?_, ?_, ?_, hc.enabled n⟩
  · exact fun j hj => ⟨hr.seen_le hj, hr.done_le hj⟩
  · exact fun j hj => hr.next_le hj
  · intro err hf
    refine ⟨fun a t hstep => ?_, hc.returns_failure hf⟩
    obtain ⟨hkept, hseen, _⟩ := hc.after_failure hf hstep
    exact ⟨hkept, hseen⟩
  · intro r hpc hf hcaller j hj
    have hw := (hc.returned r hpc).1
    -- the goroutine has stopped in between two batches, with the queue empty
    have hempty := (hc.drained (by rw [hw]; rfl) hf hcaller).2
    unfold Streamer.At at hat
    rw [hw] at hat
    rw [hr.done j hj, hr.accepted, hat hf, hempty]
    simp
  · exact fun _ _ hw => hc.released hw

def sampleBatch : AllTxBatch := ⟨5, [], [], []⟩

/-- The second of two handlers fails. -/
theorem stream_delivers_sample :
    ∃ s err, Reaches (StreamStep 2) Free (.init 1) s ∧ s.failure = some err ∧
      s.seen 1 = [sampleBatch] ∧ s.done 1 = [] ∧
        Inevitable (StreamStep 2) (fun t => t.pc = .returned (some err)) s := by
  have h₁ : Reaches (StreamStep 2) Free (.init 1) _ := Reaches.refl.step trivial (.opens rfl)
  have h₂ := h₁.step trivial (.receives sampleBatch rfl)
  have h₃ := h₂.step trivial (.accepts (Or.inl rfl) rfl)
  have h₄ := h₃.step trivial (.enters rfl rfl)
  have h₅ := h₄.step trivial (.takes rfl rfl)
  have h₆ := h₅.step trivial (.calls rfl Nat.two_pos)
  have h₇ := h₆.step trivial (.handles rfl)
  have h₈ := h₇.step trivial (.calls rfl Nat.one_lt_two)
  have h₉ := h₈.step trivial (.fails [.lit "disk full"] rfl)
  exact ⟨_, _, h₉, rfl, rfl, rfl, ((stream_delivers h₉).2.2.1 _ rfl).2⟩

end Streams

end FabricXSdk.Notification

import FabricXSdk.Lib.Channel
import FabricXSdk.Lib.Transition
import FabricXSdk.Notification.Types

/-!
# A notification stream

`Notify` opens a stream to the sidecar and starts two goroutines on it: the send
loop subscribes to the transaction ids of every batch it receives, the receive loop
hands the events of every response to the processor. A loop that ends with an error
posts it on `errCh` and cancels the context they share, and `Notify` waits for
either.

A `NotifyStep` is one atomic action of the caller, of a loop or of the environment.
The label says what the action has to do with the world outside: the channel of
batches, the stream, the processor and the context of the caller.

## Implementation notes

What a response carries is left open: a response has any events. The processor does
not fail, and the loop ignores its error. The goroutines are not joined, so they run
on after `Notify` has returned.
-/

namespace FabricXSdk.Network.FabricX

open Golang Notification Channel Transition

/-- Where the caller of `Notify` is. -/
inductive NotifyPc
  /-- before `OpenNotificationStream` -/
  | opening
  /-- in the `select` on `errCh` and the context -/
  | selecting
  | returned (err : Option Text)
  deriving DecidableEq, Repr

/-- Where the goroutine of the send loop is. -/
inductive SendPc
  | absent
  /-- in the `select` on the context and the batches -/
  | selecting
  /-- in `Send` -/
  | sending (batch : List GoString)
  /-- the loop has failed, before the `select` on `errCh` -/
  | posting (err : Text)
  /-- before `cancel()` -/
  | cancelling
  | exited
  deriving DecidableEq, Repr

/-- Where the goroutine of the receive loop is. -/
inductive RecvPc
  | absent
  /-- in `Recv` -/
  | receiving
  /-- `Recv` has failed, before `ctx.Err()` -/
  | failed (err : Text)
  /-- before `ProcessStatuses` -/
  | processing (events : List TxStatusEvent)
  /-- in `ProcessStatuses` -/
  | handling
  | posting (err : Text)
  | cancelling
  | exited
  deriving DecidableEq, Repr

/-- A call of `Notify` with its goroutines. `broken` records that the stream has
ended or has failed. -/
structure NotifyState where
  ctxDone : Bool
  cancelled : Bool
  broken : Bool
  errCh : Chan Text
  pc : NotifyPc
  sender : SendPc
  receiver : RecvPc

/-- The context of the loops, a child of that of the caller, is done. -/
def NotifyState.done (s : NotifyState) : Bool := s.ctxDone || s.cancelled

def NotifyState.init : NotifyState where
  ctxDone := false
  cancelled := false
  broken := false
  errCh := Chan.make 1
  pc := .opening
  sender := .absent
  receiver := .absent

/-- What an action has to do with the world outside. -/
inductive NotifyLabel
  | internal
  /-- the context of the caller is done -/
  | ctxDone
  /-- a batch is received from the channel of batches -/
  | take (batch : List GoString)
  /-- the channel of batches is closed -/
  | closed
  /-- a batch is sent on the stream -/
  | sent (batch : List GoString)
  /-- `Recv` returns `io.EOF` -/
  | eof
  /-- the processor is called -/
  | process (events : List TxStatusEvent)
  /-- the processor has returned -/
  | processed
  deriving DecidableEq, Repr

/-- One atomic action. -/
inductive NotifyStep : NotifyState → NotifyLabel → NotifyState → Prop
  | ctxDone {s} : NotifyStep s .ctxDone { s with ctxDone := true }
  -- `Notify`
  | openFails {s} (err : Text) (h : s.pc = .opening) :
      NotifyStep s .internal { s with
        pc := .returned (some (.lit "open notification stream: " :: err)), broken := true }
  | opens {s} (h : s.pc = .opening) :
      NotifyStep s .internal { s with
        pc := .selecting, sender := .selecting, receiver := .receiving }
  | returnsErr {s err errCh} (h : s.pc = .selecting) (hrecv : s.errCh.recv = some (err, errCh)) :
      NotifyStep s .internal { s with
        pc := .returned (some err), errCh := errCh, cancelled := true }
  | returnsNil {s} (h : s.pc = .selecting) (hdone : s.done = true) :
      NotifyStep s .internal { s with pc := .returned none, cancelled := true }
  -- `notificationSendLoop` and its goroutine
  | sendStops {s} (h : s.sender = .selecting) (hdone : s.done = true) :
      NotifyStep s .internal { s with sender := .exited }
  | takes {s} (batch : List GoString) (h : s.sender = .selecting) :
      NotifyStep s (.take batch) { s with
        sender := if batch = [] then .selecting else .sending batch }
  | closes {s} (h : s.sender = .selecting) : NotifyStep s .closed { s with sender := .exited }
  | sends {s batch} (h : s.sender = .sending batch) :
      NotifyStep s (.sent batch) { s with sender := .selecting }
  | sendFails {s batch} (err : Text) (h : s.sender = .sending batch) :
      NotifyStep s .internal { s with
        sender := .posting (.lit "send request: " :: err), broken := true }
  | sendPosts {s err errCh} (h : s.sender = .posting err) (hsend : s.errCh.send err = some errCh) :
      NotifyStep s .internal { s with errCh := errCh, sender := .cancelling }
  | sendDrops {s err} (h : s.sender = .posting err) (hsend : s.errCh.send err = none) :
      NotifyStep s .internal { s with sender := .exited }
  | sendCancels {s} (h : s.sender = .cancelling) :
      NotifyStep s .internal { s with cancelled := true, sender := .exited }
  -- `notificationReceiveLoop` and its goroutine
  | receives {s} (events : List TxStatusEvent) (h : s.receiver = .receiving) :
      NotifyStep s .internal { s with
        receiver := if events = [] then .receiving else .processing events }
  | processes {s events} (h : s.receiver = .processing events) :
      NotifyStep s (.process events) { s with receiver := .handling }
  | processed {s} (h : s.receiver = .handling) :
      NotifyStep s .processed { s with receiver := .receiving }
  | recvEnds {s} (h : s.receiver = .receiving) :
      NotifyStep s .eof { s with receiver := .exited, broken := true }
  | recvFails {s} (err : Text) (h : s.receiver = .receiving) :
      NotifyStep s .internal { s with receiver := .failed err, broken := true }
  | recvStops {s err} (h : s.receiver = .failed err) (hdone : s.done = true) :
      NotifyStep s .internal { s with receiver := .exited }
  | recvReports {s err} (h : s.receiver = .failed err) (hdone : s.done = false) :
      NotifyStep s .internal { s with receiver := .posting (.lit "recv: " :: err) }
  | recvPosts {s err errCh} (h : s.receiver = .posting err)
      (hsend : s.errCh.send err = some errCh) :
      NotifyStep s .internal { s with errCh := errCh, receiver := .cancelling }
  | recvDrops {s err} (h : s.receiver = .posting err) (hsend : s.errCh.send err = none) :
      NotifyStep s .internal { s with receiver := .exited }
  | recvCancels {s} (h : s.receiver = .cancelling) :
      NotifyStep s .internal { s with cancelled := true, receiver := .exited }

variable {s t : NotifyState} {a : NotifyLabel}

section Effects

/-- A context that is done stays so. -/
theorem NotifyStep.done_mono (h : NotifyStep s a t) (hs : s.done = true) : t.done = true := by
  cases h <;> simp_all [NotifyState.done]

/-- A stream that has failed stays so, and so does the context of the caller. -/
theorem NotifyStep.down_mono (h : NotifyStep s a t) :
    (s.broken = true → t.broken = true) ∧ (s.ctxDone = true → t.ctxDone = true) := by
  cases h <;> simp_all

theorem NotifyStep.errCh_capacity (h : NotifyStep s a t) :
    t.errCh.capacity = s.errCh.capacity := by
  cases h with
  | returnsErr _ hrecv => exact (Chan.recv_eq_some.mp hrecv).1
  | sendPosts _ hsend => exact (Chan.send_eq_some.mp hsend).1
  | recvPosts _ hsend => exact (Chan.send_eq_some.mp hsend).1
  | _ => rfl

/-- Only the return of `Notify` takes an error off the channel, and it cancels the
context. -/
theorem NotifyStep.errCh_kept (h : NotifyStep s a t) (hs : s.errCh.buffer ≠ []) :
    t.done = true ∨ t.errCh.buffer ≠ [] := by
  cases h with
  | returnsErr _ hrecv => exact Or.inl (Bool.or_true _)
  | sendPosts _ hsend =>
      rw [(Chan.send_eq_some.mp hsend).2]
      exact Or.inr (List.append_ne_nil_of_left_ne_nil hs _)
  | recvPosts _ hsend =>
      rw [(Chan.send_eq_some.mp hsend).2]
      exact Or.inr (List.append_ne_nil_of_left_ne_nil hs _)
  | _ => exact Or.inr hs

/-- How the receive loop can exit: at the end of the stream, with the context done,
or with an error on the channel already. -/
theorem NotifyStep.exits (h : NotifyStep s a t) (hcap : s.errCh.capacity = 1)
    (hs : s.receiver ≠ .exited) (ht : t.receiver = .exited) :
    a = .eof ∨ t.done = true ∨ t.errCh.buffer ≠ [] := by
  cases h with
  | recvEnds => exact Or.inl rfl
  | recvStops _ hdone => exact Or.inr (Or.inl hdone)
  | recvDrops _ hsend =>
      have hfull := Chan.send_eq_none.mp hsend
      rw [hcap] at hfull
      exact Or.inr (Or.inr (List.ne_nil_of_length_pos (hfull ▸ Nat.one_pos)))
  | recvCancels => exact Or.inr (Or.inl (Bool.or_true _))
  | receives events =>
      -- the loop goes on, with or without events to process
      dsimp only at ht
      split at ht <;> cases ht
  | opens | processes | processed | recvFails | recvReports | recvPosts => cases ht
  | _ => exact absurd ht hs

/-- The goroutines are not started before the stream is open. -/
def NotifyState.Fresh (s : NotifyState) : Prop :=
  s.pc = .opening → s.sender = .absent ∧ s.receiver = .absent

theorem NotifyStep.fresh (h : NotifyStep s a t) (hs : s.Fresh) : t.Fresh := by
  intro ht
  unfold NotifyState.Fresh at hs
  cases h <;> simp_all

/-- A batch in the hands of the send loop is sent, or the stream fails. -/
theorem NotifyStep.sending {batch : List GoString} (h : NotifyStep s a t) (hfresh : s.Fresh)
    (hs : s.sender = .sending batch) (ha : a ≠ .sent batch) (ht : t.broken = false) :
    t.sender = .sending batch := by
  cases h with
  | opens hpc =>
      rw [(hfresh hpc).1] at hs
      cases hs
  | _ => simp_all

end Effects

section Waking

/-- `Recv` returns `io.EOF` only when the context of the loops is done. -/
def EndsWhenDone (s : NotifyState) (a : NotifyLabel) : Prop := a = .eof → s.done = true

theorem EndsWhenDone.internal : EndsWhenDone s .internal := fun h => nomatch h

/-- What keeps `Notify` from waiting for nothing. -/
structure Awake (s : NotifyState) : Prop where
  capacity : s.errCh.capacity = 1
  opening : s.Fresh
  /-- with the receive loop gone, there is something to return on -/
  woken : s.receiver = .exited → s.done = true ∨ s.errCh.buffer ≠ []

theorem Awake.init : Awake NotifyState.init where
  capacity := rfl
  opening := fun _ => ⟨rfl, rfl⟩
  woken := fun h => nomatch h

theorem Awake.step (hs : Awake s) (hgood : EndsWhenDone s a) (h : NotifyStep s a t) :
    Awake t where
  capacity := h.errCh_capacity.trans hs.capacity
  opening := h.fresh hs.opening
  woken := by
    intro ht
    by_cases hexited : s.receiver = .exited
    · -- what there was to return on is still there
      rcases hs.woken hexited with hdone | herr
      · exact Or.inl (h.done_mono hdone)
      · exact h.errCh_kept herr
    · rcases h.exits hs.capacity hexited ht with heof | hwoken
      · exact Or.inl (h.done_mono (hgood heof))
      · exact hwoken

/-- Something to return on lets `Notify` return. -/
theorem returns_of_woken (hpc : s.pc = .selecting) (h : s.done = true ∨ s.errCh.buffer ≠ []) :
    ∃ t err, NotifyStep s .internal t ∧ t.pc = .returned err := by
  rcases h with hdone | herr
  · exact ⟨_, none, .returnsNil hpc hdone, rfl⟩
  · obtain ⟨err, errCh, hrecv⟩ := Chan.exists_recv herr
    exact ⟨_, some err, .returnsErr hpc hrecv, rfl⟩

/-- If streams end only when the context is done, then `Notify` has returned or can
return, on its own, whenever the receive loop is gone. -/
theorem notify_wakes (h : Reaches NotifyStep EndsWhenDone .init s)
    (hexited : s.receiver = .exited) :
    (∃ err, s.pc = .returned err) ∨
      (s.errCh.buffer ≠ [] ∨ s.done = true) ∧
        ∃ t err, NotifyStep s .internal t ∧ t.pc = .returned err := by
  have hinv : Awake s := h.invariant Awake.init fun _ _ _ hs hgood hstep => hs.step hgood hstep
  cases hpc : s.pc with
  | opening =>
      have habsent := (hinv.opening hpc).2
      rw [hexited] at habsent
      cases habsent
  | selecting =>
      have hwoken := hinv.woken hexited
      exact Or.inr ⟨hwoken.symm, returns_of_woken hpc hwoken⟩
  | returned err => exact Or.inl ⟨err, rfl⟩

/-- The stream has failed, and the receive loop has posted the error and is gone. -/
def sampleDown : NotifyState where
  ctxDone := false
  cancelled := true
  broken := true
  errCh := ⟨1, [[.lit "recv: ", .lit "unavailable"]], Nat.le_refl 1⟩
  pc := .selecting
  sender := .selecting
  receiver := .exited

theorem reaches_sampleDown {Good : NotifyState → NotifyLabel → Prop}
    (hgood : ∀ s, Good s .internal) : Reaches NotifyStep Good .init sampleDown := by
  have h₁ : Reaches NotifyStep Good .init _ := Reaches.refl.step (hgood _) (.opens rfl)
  have h₂ := h₁.step (hgood _) (.recvFails [.lit "unavailable"] rfl)
  have h₃ := h₂.step (hgood _) (.recvReports rfl rfl)
  have h₄ := h₃.step (hgood _) (.recvPosts rfl rfl)
  exact h₄.step (hgood _) (.recvCancels rfl)

theorem notify_wakes_sample :
    sampleDown.receiver = .exited ∧ ((∃ err, sampleDown.pc = .returned err) ∨
      (sampleDown.errCh.buffer ≠ [] ∨ sampleDown.done = true) ∧
        ∃ t err, NotifyStep sampleDown .internal t ∧ t.pc = .returned err) :=
  ⟨rfl, notify_wakes (reaches_sampleDown fun _ => EndsWhenDone.internal) rfl⟩

/-- A stream the sidecar closes leaves `Notify` waiting: the receive loop is gone,
and there is no step but for another batch, the end of the batches or the caller
giving up. -/
theorem notify_stuck_on_eof :
    ∃ s, Reaches NotifyStep Free .init s ∧ s.receiver = .exited ∧ s.pc = .selecting ∧
      s.errCh.buffer = [] ∧ s.done = false ∧
        ∀ a t, NotifyStep s a t → (∃ batch, a = .take batch) ∨ a = .closed ∨ a = .ctxDone := by
  have h₁ : Reaches NotifyStep Free .init _ := Reaches.refl.step trivial (.opens rfl)
  have h₂ := h₁.step trivial (.recvEnds rfl)
  refine ⟨_, h₂, rfl, rfl, rfl, rfl, ?_⟩
  intro a t h
  cases h <;> simp_all [NotifyState.done, NotifyState.init, Chan.make, Chan.recv]

end Waking

end FabricXSdk.Network.FabricX

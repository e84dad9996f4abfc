import FabricXSdk.Network.Notify
import FabricXSdk.Notification.Registry

/-!
# The finality listener

`Start` runs one session after the other, each on a notification stream of its own,
and backs off after an error. All sessions read their subscriptions from the one
channel `subCh`: `Register` queues the id of its transaction there, and a goroutine
of each session, `onConnect`, the ids that are pending when the session starts.
`onConnect` then asks the peer for the status of these transactions and handles
those that are final.

A `ListenerStep` is one atomic action of `Start`, of a session, of a call, of
`Handle` or of the environment. Every event reaches the channels of the calls
through `Handle`, so a channel gets at most one.

## Implementation notes

A session is a call of `Notify` and its `onConnect`, and what was sent on its stream
so far. The goroutines of a session run on after `Start` has left it. The context of
a session is the one `Notify` is called with, and its stream ends with it. `Handle`
may also be called by others, at any time. Delays are in milliseconds, and logging
is left out.
-/

namespace FabricXSdk.Notification

open Golang Channel Transition Network.FabricX

section Model

/-- Where the goroutine `onConnect` is. -/
inductive OnConnectPc
  /-- before the mutex -/
  | starting
  /-- in the `select`, with the ids that were pending -/
  | holding (txIDs : List GoString)
  /-- in `GetTransactionStatus` -/
  | reconciling (txIDs : List GoString)
  /-- before `Handle` -/
  | delivering (events : List TxStatusEvent)
  /-- in `Handle` -/
  | handling
  | exited
  deriving DecidableEq, Repr

/-- A session, with the batches sent on its stream. -/
structure Session where
  notify : NotifyState
  onConnect : OnConnectPc
  sent : List (List GoString)

def Session.new : Session := ⟨.init, .starting, []⟩

/-- The context of the session is cancelled. -/
def Session.cancel (σ : Session) : Session :=
  { σ with notify := { σ.notify with ctxDone := true } }

/-- Where `Start` is. -/
inductive StartPc
  /-- before `ctx.Err()` at the top of the loop -/
  | top
  /-- in `Notify`, for the session of this number -/
  | running (session : ℕ)
  /-- in the `select` of the backoff -/
  | sleeping
  | returned
  deriving DecidableEq, Repr

structure Listener where
  registry : Registry
  subCh : Chan (List GoString)
  sessions : List Session
  ctxDone : Bool
  pc : StartPc
  backoff : ℕ

def initBackoff : ℕ := 500

def maxBackoff : ℕ := 30000

/-- `NewFinalityListener`, before the first action of `Start`. -/
def Listener.init : Listener where
  registry := .init
  subCh := Chan.make 256
  sessions := []
  ctxDone := false
  pc := .top
  backoff := initBackoff

inductive ListenerLabel
  | internal
  | registry (a : RegistryLabel)
  /-- the send loop of a session receives a batch from `subCh` -/
  | take (session : ℕ)
  deriving DecidableEq, Repr

/-- Actions of the registry that the rest of the listener has no part in. -/
def RegistryLabel.free : RegistryLabel → Bool
  | .queue _ => false
  | .handle h _ => h = .other
  | .handled h => h = .other
  | _ => true

/-- One atomic action. -/
inductive ListenerStep : Listener → ListenerLabel → Listener → Prop
  | registry {f a r} (ha : a.free = true) (hstep : RegistryStep f.registry a r) :
      ListenerStep f (.registry a) { f with registry := r }
  | queue {f txID r ch} (hstep : RegistryStep f.registry (.queue txID) r)
      (hsend : f.subCh.send [txID] = some ch) :
      ListenerStep f (.registry (.queue txID)) { f with registry := r, subCh := ch }
  -- `Start`
  | cancel {f} : ListenerStep f .internal { f with
      ctxDone := true, sessions := f.sessions.map Session.cancel }
  | stop {f} (h : f.pc = .top) (hctx : f.ctxDone = true) :
      ListenerStep f .internal { f with pc := .returned }
  | connect {f} (h : f.pc = .top) (hctx : f.ctxDone = false) :
      ListenerStep f .internal { f with
        pc := .running f.sessions.length, sessions := f.sessions ++ [Session.new] }
  -- `runSession` cancels the context of the session when it returns
  | disconnect {f k σ err} (h : f.pc = .running k) (hk : f.sessions[k]? = some σ)
      (hret : σ.notify.pc = .returned (some err)) (hctx : f.ctxDone = false) :
      ListenerStep f .internal { f with pc := .sleeping, sessions := f.sessions.set k σ.cancel }
  | close {f k σ err} (h : f.pc = .running k) (hk : f.sessions[k]? = some σ)
      (hret : σ.notify.pc = .returned err) (hclean : err = none ∨ f.ctxDone = true) :
      ListenerStep f .internal { f with
        pc := .top, sessions := f.sessions.set k σ.cancel, backoff := initBackoff }
  | wake {f} (h : f.pc = .sleeping) :
      ListenerStep f .internal { f with
        pc := .top, backoff := if f.backoff < maxBackoff then f.backoff * 2 else f.backoff }
  | interrupt {f} (h : f.pc = .sleeping) (hctx : f.ctxDone = true) :
      ListenerStep f .internal { f with pc := .returned }
  -- `Notify`
  | notify {f k σ a n} (hk : f.sessions[k]? = some σ) (ha : a = .internal ∨ a = .eof)
      (hstep : NotifyStep σ.notify a n) :
      ListenerStep f .internal { f with sessions := f.sessions.set k { σ with notify := n } }
  | take {f k σ batch n ch} (hk : f.sessions[k]? = some σ)
      (hrecv : f.subCh.recv = some (batch, ch)) (hstep : NotifyStep σ.notify (.take batch) n) :
      ListenerStep f (.take k) { f with
        subCh := ch, sessions := f.sessions.set k { σ with notify := n } }
  | sent {f k σ batch n} (hk : f.sessions[k]? = some σ)
      (hstep : NotifyStep σ.notify (.sent batch) n) :
      ListenerStep f .internal { f with
        sessions := f.sessions.set k { σ with notify := n, sent := σ.sent ++ [batch] } }
  | process {f k σ events n r} (hk : f.sessions[k]? = some σ)
      (hstep : NotifyStep σ.notify (.process events) n)
      (hlock : RegistryStep f.registry (.handle (.stream k) events) r) :
      ListenerStep f (.registry (.handle (.stream k) events)) { f with
        registry := r, sessions := f.sessions.set k { σ with notify := n } }
  | processed {f k σ n r} (hk : f.sessions[k]? = some σ)
      (hstep : NotifyStep σ.notify .processed n)
      (hunlock : RegistryStep f.registry (.handled (.stream k)) r) :
      ListenerStep f (.registry (.handled (.stream k))) { f with
        registry := r, sessions := f.sessions.set k { σ with notify := n } }
  -- `onConnect`
  | snapshot {f k σ txIDs} (hk : f.sessions[k]? = some σ) (hpc : σ.onConnect = .starting)
      (hmu : f.registry.mu = none) (hids : txIDs.Perm f.registry.pending.keys) :
      ListenerStep f .internal { f with
        sessions := f.sessions.set k { σ with
          onConnect := if txIDs = [] then .exited else .holding txIDs } }
  | resubscribe {f k σ txIDs ch} (hk : f.sessions[k]? = some σ)
      (hpc : σ.onConnect = .holding txIDs) (hsend : f.subCh.send txIDs = some ch) :
      ListenerStep f .internal { f with
        subCh := ch, sessions := f.sessions.set k { σ with onConnect := .reconciling txIDs } }
  | giveUp {f k σ txIDs} (hk : f.sessions[k]? = some σ) (hpc : σ.onConnect = .holding txIDs)
      (hctx : σ.notify.ctxDone = true) :
      ListenerStep f .internal { f with
        sessions := f.sessions.set k { σ with onConnect := .exited } }
  -- `reconcile`, of a peer that answers queries and of one that does not
  | queried {f k σ txIDs} (events : List TxStatusEvent) (hk : f.sessions[k]? = some σ)
      (hpc : σ.onConnect = .reconciling txIDs) :
      ListenerStep f .internal { f with
        sessions := f.sessions.set k { σ with
          onConnect :=
            let final := events.filter fun e => e.status.isFinal
            if final = [] then .exited else .delivering final } }
  | unqueried {f k σ txIDs} (hk : f.sessions[k]? = some σ)
      (hpc : σ.onConnect = .reconciling txIDs) :
      ListenerStep f .internal { f with
        sessions := f.sessions.set k { σ with onConnect := .exited } }
  | reconcile {f k σ events r} (hk : f.sessions[k]? = some σ)
      (hpc : σ.onConnect = .delivering events)
      (hlock : RegistryStep f.registry (.handle (.reconcile k) events) r) :
      ListenerStep f (.registry (.handle (.reconcile k) events)) { f with
        registry := r, sessions := f.sessions.set k { σ with onConnect := .handling } }
  | reconciled {f k σ r} (hk : f.sessions[k]? = some σ) (hpc : σ.onConnect = .handling)
      (hunlock : RegistryStep f.registry (.handled (.reconcile k)) r) :
      ListenerStep f (.registry (.handled (.reconcile k))) { f with
        registry := r, sessions := f.sessions.set k { σ with onConnect := .exited } }

end Model

variable {f g : Listener} {a : ListenerLabel} {Good : Listener → ListenerLabel → Prop}

/-- An action leaves the registry alone, or is one of the registry. -/
theorem ListenerStep.onRegistry (h : ListenerStep f a g) :
    g.registry = f.registry ∧ (∀ r, a ≠ .registry r) ∨
      ∃ r, a = .registry r ∧ RegistryStep f.registry r g.registry := by
  cases h with
  | registry _ hstep => exact Or.inr ⟨_, rfl, hstep⟩
  | queue hstep _ => exact Or.inr ⟨_, rfl, hstep⟩
  | process _ _ hlock => exact Or.inr ⟨_, rfl, hlock⟩
  | processed _ _ hunlock => exact Or.inr ⟨_, rfl, hunlock⟩
  | reconcile _ _ hlock => exact Or.inr ⟨_, rfl, hlock⟩
  | reconciled _ _ hunlock => exact Or.inr ⟨_, rfl, hunlock⟩
  | _ => exact Or.inl ⟨rfl, fun _ ha => nomatch ha⟩

/-- What the actions of the registry keep holds in every run of the listener. -/
theorem registry_invariant {Inv : Registry → Prop} (h : Reaches ListenerStep Good .init f)
    (hinit : Inv .init)
    (hstep : ∀ f r t, Inv f.registry → Good f (.registry r) → RegistryStep f.registry r t →
      Inv t) :
    Inv f.registry := by
  refine @Reaches.invariant _ _ _ _ _ _ (fun f => Inv f.registry) h hinit ?_
  intro f a g hinv hgood hfg
  rcases hfg.onRegistry with ⟨hsame, _⟩ | ⟨r, rfl, hr⟩
  · rw [hsame]
    exact hinv
  · exact hstep f r _ hinv hgood hr

theorem registry_sound (h : Reaches ListenerStep Good .init f) : f.registry.Sound :=
  registry_invariant h Registry.Sound.init fun _ _ _ hs _ hstep => hs.step hstep

section Runs

variable {ch : Chan (List GoString)} {k : ℕ} {σ : Session} {n : NotifyState}

/-- A call has registered its id and has queued the subscription. -/
def Listener.registered (f : Listener) (txID : GoString) (wait : Bool)
    (ch : Chan (List GoString)) : Listener :=
  { f with
    registry :=
      { f.registry with
        pending := f.registry.pending.insert txID f.registry.calls.length
        calls := f.registry.calls ++
          [{ Call.new txID wait with pc := if wait then .waiting else .holding }] }
    subCh := ch }

/-- A call that registers in one go: it finds its id free, and there is room in the
channel of subscriptions. -/
theorem reaches_registered (txID : GoString) (wait : Bool)
    (h : Reaches ListenerStep Good .init f) (hmu : f.registry.mu = none)
    (hnew : f.registry.pending.lookup txID = none) (hsend : f.subCh.send [txID] = some ch)
    (hcall : Good f (.registry (.call txID wait)))
    (hinsert : ∀ calls, calls = f.registry.calls ++ [Call.new txID wait] →
      Good { f with registry := { f.registry with calls := calls } }
        (.registry (.insert f.registry.calls.length)))
    (hqueue : ∀ g, Good g (.registry (.queue txID))) :
    Reaches ListenerStep Good .init (f.registered txID wait ch) := by
  have hi : (f.registry.calls ++ [Call.new txID wait])[f.registry.calls.length]? =
      some (Call.new txID wait) := List.getElem?_concat_length
  have h₁ := h.step hcall (.registry rfl (.call txID wait))
  have h₂ := h₁.step (hinsert _ rfl) (.registry rfl (.insert hi (.insert rfl) hmu hnew))
  have h₃ := h₂.step (hqueue _)
    (.queue (.queue (c := { Call.new txID wait with pc := .queuing })
      (getElem?_set_of_some hi _) (.queue rfl)) hsend)
  -- the two updates of the new call are one
  have hcalls (c c' : Call) : ((f.registry.calls ++ [Call.new txID wait]).set
      f.registry.calls.length c).set f.registry.calls.length c' = f.registry.calls ++ [c'] := by
    rw [List.set_set, List.set_append_right _ _ (Nat.le_refl _), Nat.sub_self]
    rfl
  unfold Listener.registered
  rw [← hcalls { Call.new txID wait with pc := .queuing }]
  exact h₃

/-- What the actions of `Notify` on its own keep is kept by a run of them. -/
theorem invariant_notify {P : Listener → Prop} (hf : P f) (hk : f.sessions[k]? = some σ)
    (hrun : Reaches NotifyStep (fun _ a => a = .internal) σ.notify n)
    (hstep : ∀ g τ m, P g → g.sessions[k]? = some τ → NotifyStep τ.notify .internal m →
      P { g with sessions := g.sessions.set k { τ with notify := m } }) :
    P { f with sessions := f.sessions.set k { σ with notify := n } } := by
  induction hrun with
  | refl =>
      have hsame : f.sessions.set k σ = f.sessions := by
        obtain ⟨hlt, rfl⟩ := List.getElem?_eq_some_iff.mp hk
        exact List.set_getElem_self hlt
      rw [hsame]
      exact hf
  | tail _ hnotify ih =>
      obtain ⟨a, rfl, hnotify⟩ := hnotify
      have hlast := hstep _ _ _ ih (getElem?_set_of_some hk _) hnotify
      rw [List.set_set] at hlast
      exact hlast

/-- A run of `Notify` on its own is one of the session it belongs to. -/
theorem reaches_notify (h : Reaches ListenerStep Good .init f)
    (hk : f.sessions[k]? = some σ) (hgood : ∀ g, Good g .internal)
    (hrun : Reaches NotifyStep (fun _ a => a = .internal) σ.notify n) :
    Reaches ListenerStep Good .init
      { f with sessions := f.sessions.set k { σ with notify := n } } :=
  invariant_notify h hk hrun fun g _ _ hg hτ hstep =>
    hg.step (hgood g) (.notify hτ (Or.inl rfl) hstep)

end Runs

/-- However calls, events and sessions interleave: every pending channel is empty and
under one id only, `Handle` always gets past its next event, and a channel receives
at most one event, of its own transaction, after which it is not pending. -/
theorem delivered_at_most_once (h : Reaches ListenerStep Free .init f) :
    (∀ txID i, f.registry.pending.lookup txID = some i →
        (∃ c, f.registry.calls[i]? = some c ∧ c.responseCh.buffer = []) ∧
          ∀ txID', f.registry.pending.lookup txID' = some i → txID' = txID) ∧
      (∀ handler e rest, f.registry.mu = some (handler, e :: rest) →
        ∃ a g, ListenerStep f a g ∧ g.registry.mu = some (handler, rest)) ∧
      ∀ i c, f.registry.calls[i]? = some c →
        c.received.length ≤ 1 ∧ (∀ e ∈ c.received, e.txID = c.txID) ∧
          (c.received ≠ [] → ∀ txID, f.registry.pending.lookup txID ≠ some i) := by
  have hs := registry_sound h
  refine ⟨?_, ?_, ?_⟩
  · intro txID i hlookup
    obtain ⟨c, hc, hid, hnone, _⟩ := hs.owner txID i hlookup
    refine ⟨⟨c, hc, (hs.calls c (List.mem_of_getElem? hc)).empty hnone⟩, ?_⟩
    intro txID' hlookup'
    exact (hs.owner_of hlookup' hc).1.symm.trans hid
  · intro handler e rest hmu
    obtain ⟨a, r, ha, hstep, hrest⟩ := hs.handle_progress hmu
    refine ⟨.registry a, _, .registry ?_ hstep, hrest⟩
    rcases ha with rfl | rfl <;> rfl
  · intro i c hc
    have hsound := hs.calls c (List.mem_of_getElem? hc)
    refine ⟨hsound.once, hsound.own, ?_⟩
    intro hsome txID hlookup
    exact hsome (hs.owner_of hlookup hc).2.1

section Sample

def sampleTxID : GoString := [7]

def sampleEvent : TxStatusEvent := ⟨sampleTxID, 1, 0, .committed, 0, []⟩

/-- A batch that repeats an event, after its delivery. -/
theorem delivered_at_most_once_sample :
    ∃ f, Reaches ListenerStep Free .init f ∧ f.registry.mu = some (.other, [sampleEvent]) ∧
      f.registry.calls.map Call.received = [[sampleEvent]] ∧
      (∃ a g, ListenerStep f a g ∧ g.registry.mu = some (.other, [])) ∧
        ∀ txID, f.registry.pending.lookup txID ≠ some 0 := by
  have h₁ : Reaches ListenerStep Free .init _ :=
    reaches_registered sampleTxID true Reaches.refl rfl rfl rfl trivial (fun _ _ => trivial)
      fun _ => trivial
  have h₄ := h₁.step trivial (.registry rfl (.handle .other [sampleEvent, sampleEvent] rfl))
  have h₅ := h₄.step trivial (.registry rfl (.deliver rfl rfl rfl rfl))
  obtain ⟨_, hhandle, hcalls⟩ := delivered_at_most_once h₅
  refine ⟨_, h₅, rfl, rfl, hhandle _ _ _ rfl, ?_⟩
  exact (hcalls 0 _ rfl).2.2 (List.cons_ne_nil _ _)

end Sample

end FabricXSdk.Notification

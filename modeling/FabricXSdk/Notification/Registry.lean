import FabricXSdk.Lib.Channel
import FabricXSdk.Lib.Transition
import FabricXSdk.Notification.Types

/-!
# Waiting for the finality of a transaction

`Register` puts a fresh channel under the id of a transaction into the map
`pending`, and then queues the subscription. `Handle` sends the event of a
transaction to the channel that is pending under its id and removes the entry. The
map is only looked at with the mutex held. `WaitForFinality` waits for the event or
for its context, and `Unregister` removes whatever entry there is under an id.

A `CallStep` is one action of a single call, a `RegistryStep` one atomic action of
all of them.

## Implementation notes

A channel is the one that its call has made, so `pending` maps an id to the number
of a call. `received` records what was ever sent on the channel. `Register` and
`Unregister` hold the mutex for one action, `Handle` for as long as there are events
left. Its send and the removal that follows are one action: nothing but `Handle`
looks at the map in between.
-/

namespace FabricXSdk.Notification

open Golang Channel

def errAlreadyRegistered : Text := [.lit "txID already registered"]

section Calls

/-- Where a call of `Register` or of `WaitForFinality` is. -/
inductive CallPc
  /-- before the mutex of `Register` -/
  | locking
  /-- in the `select` of `Register` -/
  | queuing
  /-- the context is done, before the `Unregister` of `Register` -/
  | failing (err : Text)
  /-- `Register` has returned the channel to its caller -/
  | holding
  /-- in the `select` of `WaitForFinality` -/
  | waiting
  /-- the context is done, before the `Unregister` of `WaitForFinality` -/
  | leaving (err : Text)
  /-- returned with an error, without an entry of its own -/
  | refused (err : Text)
  /-- returned with the error of the context -/
  | failed (err : Text)
  /-- the event is received from the channel -/
  | resolved (e : TxStatusEvent)
  /-- the caller has unregistered the id instead -/
  | released
  deriving DecidableEq, Repr

/-- A call of `WaitForFinality`, or of `Register` if `wait` is not set. -/
structure Call where
  txID : GoString
  wait : Bool
  ctxErr : Option Text
  responseCh : Chan TxStatusEvent
  received : List TxStatusEvent
  pc : CallPc

def Call.new (txID : GoString) (wait : Bool) : Call where
  txID := txID
  wait := wait
  ctxErr := none
  responseCh := Chan.make 1
  received := []
  pc := .locking

/-- What an action of a call does to the map. -/
inductive CallLabel
  | internal
  /-- the channel is put into the map -/
  | insert
  /-- the id is found in the map -/
  | refuse
  /-- the subscription is queued -/
  | queue
  /-- the entry under the id is removed -/
  | remove
  deriving DecidableEq, Repr

inductive CallStep : Call → CallLabel → Call → Prop
  | expire {c} (err : Text) (h : c.ctxErr = none) :
      CallStep c .internal { c with ctxErr := some err }
  -- `Register`
  | insert {c} (h : c.pc = .locking) : CallStep c .insert { c with pc := .queuing }
  | refuse {c} (h : c.pc = .locking) :
      CallStep c .refuse { c with
        pc := .refused (errAlreadyRegistered ++ [.lit ": ", .str c.txID]) }
  | queue {c} (h : c.pc = .queuing) :
      CallStep c .queue { c with pc := if c.wait then .waiting else .holding }
  | abandon {c err} (h : c.pc = .queuing) (hctx : c.ctxErr = some err) :
      CallStep c .internal { c with pc := .failing err }
  | fail {c err} (h : c.pc = .failing err) : CallStep c .remove { c with pc := .failed err }
  -- the `select` of `WaitForFinality`, or the caller of `Register` with the channel
  | receive {c e ch} (h : c.pc = .holding ∨ c.pc = .waiting)
      (hrecv : c.responseCh.recv = some (e, ch)) :
      CallStep c .internal { c with responseCh := ch, pc := .resolved e }
  | leave {c err} (h : c.pc = .waiting) (hctx : c.ctxErr = some err) :
      CallStep c .internal { c with pc := .leaving err }
  | giveUp {c err} (h : c.pc = .leaving err) : CallStep c .remove { c with pc := .failed err }
  | release {c} (h : c.pc = .holding) : CallStep c .remove { c with pc := .released }

variable {c c' : Call} {l : CallLabel}

/-- What no action of the call itself changes. -/
structure Call.Kept (c c' : Call) : Prop where
  txID : c'.txID = c.txID
  received : c'.received = c.received
  locking : c'.pc = .locking → c.pc = .locking

theorem CallStep.kept (h : CallStep c l c') : Call.Kept c c' := by
  cases h with
  | queue h =>
      refine ⟨rfl, rfl, fun hpc => ?_⟩
      dsimp only at hpc
      split at hpc <;> cases hpc
  | expire _ _ => exact ⟨rfl, rfl, fun hpc => hpc⟩
  | _ => exact ⟨rfl, rfl, fun hpc => nomatch hpc⟩

/-- A channel holds at most one event, of its own transaction, and none before the
call is in the map. -/
structure Call.Sound (c : Call) : Prop where
  capacity : c.responseCh.capacity = 1
  once : c.received.length ≤ 1
  own : ∀ e ∈ c.received, e.txID = c.txID
  buffered : c.responseCh.buffer.length ≤ c.received.length
  locking : c.pc = .locking → c.received = []

theorem Call.Sound.new (txID : GoString) (wait : Bool) : (Call.new txID wait).Sound where
  capacity := rfl
  once := Nat.zero_le 1
  own := fun _ he => nomatch he
  buffered := Nat.le_refl 0
  locking := fun _ => rfl

/-- An action of the call can only take events off its channel. -/
theorem CallStep.responseCh (h : CallStep c l c') :
    c'.responseCh.capacity = c.responseCh.capacity ∧
      c'.responseCh.buffer.length ≤ c.responseCh.buffer.length := by
  cases h with
  | receive _ hrecv =>
      obtain ⟨hcap, hbuf⟩ := Chan.recv_eq_some.mp hrecv
      refine ⟨hcap, ?_⟩
      rw [hbuf]
      exact Nat.le_succ _
  | _ => exact ⟨rfl, Nat.le_refl _⟩

theorem Call.Sound.step (hc : c.Sound) (h : CallStep c l c') : c'.Sound := by
  have hkept := h.kept
  obtain ⟨hcap, hbuf⟩ := h.responseCh
  constructor
  · exact hcap.trans hc.capacity
  · rw [hkept.received]
    exact hc.once
  · rw [hkept.received, hkept.txID]
    exact hc.own
  · rw [hkept.received]
    exact hbuf.trans hc.buffered
  · rw [hkept.received]
    exact fun hpc => hc.locking (hkept.locking hpc)

/-- An event of the transaction, sent on a channel that has not had one. -/
theorem Call.Sound.deliver {e : TxStatusEvent} {ch : Chan TxStatusEvent} (hc : c.Sound)
    (hnone : c.received = []) (hpc : c.pc ≠ .locking) (hid : e.txID = c.txID)
    (hsend : c.responseCh.send e = some ch) :
    ({ c with responseCh := ch, received := c.received ++ [e] } : Call).Sound := by
  obtain ⟨hcap, hbuf⟩ := Chan.send_eq_some.mp hsend
  constructor
  · exact hcap.trans hc.capacity
  · simp [hnone]
  · simpa [hnone] using hid
  · have := hc.buffered
    simpa [hbuf, hnone] using this
  · exact fun h => absurd h hpc

theorem Call.Sound.empty (hc : c.Sound) (hnone : c.received = []) :
    c.responseCh.buffer = [] := by
  have hlen := hc.buffered
  rw [hnone] at hlen
  exact List.eq_nil_of_length_eq_zero (Nat.le_zero.mp hlen)

end Calls

section Model

/-- Who calls `Handle`: the receive loop or the reconciliation of a session, or
anybody else. -/
inductive Handler
  | stream (session : ℕ)
  | reconcile (session : ℕ)
  | other
  deriving DecidableEq, Repr

/-- The calls and what they share. The mutex is free, or `Handle` has it and has the
events left to deliver. -/
structure Registry where
  mu : Option (Handler × List TxStatusEvent)
  pending : GoMap ℕ
  calls : List Call

def Registry.init : Registry := ⟨none, ∅, []⟩

inductive RegistryLabel
  | internal
  | call (txID : GoString) (wait : Bool)
  /-- the channel of a call is put into the map -/
  | insert (i : ℕ)
  | queue (txID : GoString)
  /-- a call, or its caller, unregisters its id -/
  | remove (i : ℕ)
  /-- `Unregister` is called for an id -/
  | evict (txID : GoString)
  | handle (h : Handler) (events : List TxStatusEvent)
  /-- an event is sent to the channel under its id, and the entry removed -/
  | deliver (e : TxStatusEvent)
  | handled (h : Handler)
  deriving DecidableEq, Repr

/-- One atomic action. -/
inductive RegistryStep : Registry → RegistryLabel → Registry → Prop
  | call {s} (txID : GoString) (wait : Bool) :
      RegistryStep s (.call txID wait) { s with calls := s.calls ++ [Call.new txID wait] }
  | alone {s i c c'} (hi : s.calls[i]? = some c) (hstep : CallStep c .internal c') :
      RegistryStep s .internal { s with calls := s.calls.set i c' }
  | insert {s i c c'} (hi : s.calls[i]? = some c) (hstep : CallStep c .insert c')
      (hmu : s.mu = none) (hnew : s.pending.lookup c.txID = none) :
      RegistryStep s (.insert i) { s with
        pending := s.pending.insert c.txID i, calls := s.calls.set i c' }
  | refuse {s i j c c'} (hi : s.calls[i]? = some c) (hstep : CallStep c .refuse c')
      (hmu : s.mu = none) (hold : s.pending.lookup c.txID = some j) :
      RegistryStep s .internal { s with calls := s.calls.set i c' }
  | queue {s i c c'} (hi : s.calls[i]? = some c) (hstep : CallStep c .queue c') :
      RegistryStep s (.queue c.txID) { s with calls := s.calls.set i c' }
  | remove {s i c c'} (hi : s.calls[i]? = some c) (hstep : CallStep c .remove c')
      (hmu : s.mu = none) :
      RegistryStep s (.remove i) { s with
        pending := s.pending.erase c.txID, calls := s.calls.set i c' }
  | evict {s} (txID : GoString) (hmu : s.mu = none) :
      RegistryStep s (.evict txID) { s with pending := s.pending.erase txID }
  -- `Handle`
  | handle {s} (h : Handler) (events : List TxStatusEvent) (hmu : s.mu = none) :
      RegistryStep s (.handle h events) { s with mu := some (h, events) }
  | skip {s h e rest} (hmu : s.mu = some (h, e :: rest))
      (hnone : s.pending.lookup e.txID = none) :
      RegistryStep s .internal { s with mu := some (h, rest) }
  | deliver {s h e rest i c ch} (hmu : s.mu = some (h, e :: rest))
      (hsome : s.pending.lookup e.txID = some i) (hi : s.calls[i]? = some c)
      (hsend : c.responseCh.send e = some ch) :
      RegistryStep s (.deliver e)
        { mu := some (h, rest)
          pending := s.pending.erase e.txID
          calls := s.calls.set i { c with responseCh := ch, received := c.received ++ [e] } }
  | handled {s h} (hmu : s.mu = some (h, [])) :
      RegistryStep s (.handled h) { s with mu := none }

end Model

section Soundness

variable {s t : Registry} {a : RegistryLabel} {calls : List Call} {c c' : Call} {txID : GoString}
  {i j : ℕ}

/-- The call owns the entry under the id: it has inserted it, and has had no event. -/
def Owns (calls : List Call) (txID : GoString) (i : ℕ) : Prop :=
  ∃ c, calls[i]? = some c ∧ c.txID = txID ∧ c.received = [] ∧ c.pc ≠ .locking

theorem Owns.append (h : Owns calls txID i) (c' : Call) : Owns (calls ++ [c']) txID i := by
  obtain ⟨c, hc, hrest⟩ := h
  exact ⟨c, getElem?_concat_eq_some.mpr (Or.inl hc), hrest⟩

theorem Owns.set_ne (h : Owns calls txID i) (hj : j ≠ i) (c' : Call) :
    Owns (calls.set j c') txID i := by
  obtain ⟨c, hc, hrest⟩ := h
  exact ⟨c, (List.getElem?_set_ne hj).trans hc, hrest⟩

theorem Owns.set (h : Owns calls txID i) (hj : calls[j]? = some c) (hkept : Call.Kept c c') :
    Owns (calls.set j c') txID i := by
  by_cases hij : j = i
  · subst hij
    obtain ⟨c₀, hc₀, hid, hnone, hpc⟩ := h
    obtain rfl : c = c₀ := Option.some.inj (hj.symm.trans hc₀)
    exact ⟨c', getElem?_set_of_some hj c', hkept.txID.trans hid, hkept.received.trans hnone,
      fun hl => hpc (hkept.locking hl)⟩
  · exact h.set_ne hij c'

/-- Every entry of the map is owned by the call it names. -/
structure Registry.Sound (s : Registry) : Prop where
  calls : ∀ c ∈ s.calls, c.Sound
  owner : ∀ txID i, s.pending.lookup txID = some i → Owns s.calls txID i

/-- What is known of a call that a pending entry names. -/
theorem Registry.Sound.owner_of (hs : s.Sound) (hlookup : s.pending.lookup txID = some i)
    (hi : s.calls[i]? = some c) : c.txID = txID ∧ c.received = [] ∧ c.pc ≠ .locking := by
  obtain ⟨c₀, hc₀, howned⟩ := hs.owner txID i hlookup
  obtain rfl : c = c₀ := Option.some.inj (hi.symm.trans hc₀)
  exact howned

theorem Registry.Sound.init : Registry.init.Sound where
  calls := fun _ hc => nomatch hc
  owner := fun _ _ h => nomatch h

/-- A step of one call, with whatever it does to the map. -/
theorem Registry.Sound.update (hs : s.Sound) {l : CallLabel} {pending : GoMap ℕ}
    (hi : s.calls[i]? = some c) (hstep : CallStep c l c')
    (howner : ∀ txID j, pending.lookup txID = some j →
      s.pending.lookup txID = some j ∨ Owns (s.calls.set i c') txID j) :
    ({ s with pending := pending, calls := s.calls.set i c' } : Registry).Sound where
  calls := by
    intro d hd
    rcases List.mem_or_eq_of_mem_set hd with hd | rfl
    · exact hs.calls d hd
    · exact (hs.calls c (List.mem_of_getElem? hi)).step hstep
  owner := by
    intro txID j hlookup
    rcases howner txID j hlookup with hold | hnew
    · exact (hs.owner txID j hold).set hi hstep.kept
    · exact hnew

theorem Registry.Sound.step (hs : s.Sound) (h : RegistryStep s a t) : t.Sound := by
  cases h with
  | call txID wait =>
      constructor
      · intro c hc
        rcases List.mem_append.mp hc with hc | hc
        · exact hs.calls c hc
        · rw [List.mem_singleton.mp hc]
          exact Call.Sound.new txID wait
      · exact fun txID i hlookup => (hs.owner txID i hlookup).append _
  | alone hi hstep | refuse hi hstep _ _ | queue hi hstep =>
      exact hs.update hi hstep fun _ _ hlookup => Or.inl hlookup
  | @insert i c c' hi hstep _ _ =>
      refine hs.update hi hstep fun txID j hlookup => ?_
      rcases lookup_insert_eq_some.mp hlookup with ⟨rfl, rfl⟩ | ⟨_, hold⟩
      · -- the entry is new, and its call was not in the map before
        have hlocking : c.pc = .locking ∧ c'.pc ≠ .locking := by
          cases hstep with
          | insert h => exact ⟨h, fun hpc => nomatch hpc⟩
        have hnone := (hs.calls c (List.mem_of_getElem? hi)).locking hlocking.1
        exact Or.inr ⟨c', getElem?_set_of_some hi c', hstep.kept.txID,
          hstep.kept.received.trans hnone, hlocking.2⟩
      · exact Or.inl hold
  | remove hi hstep _ =>
      exact hs.update hi hstep fun _ _ hlookup => Or.inl (lookup_erase_eq_some.mp hlookup).2
  | evict _ _ =>
      exact ⟨hs.calls, fun txID i hlookup => hs.owner txID i (lookup_erase_eq_some.mp hlookup).2⟩
  | handle _ _ _ | skip _ _ | handled _ => exact ⟨hs.calls, hs.owner⟩
  | @deliver h e rest i c ch _ hsome hi hsend =>
      obtain ⟨hid, hnone, hpc⟩ := hs.owner_of hsome hi
      constructor
      · intro d hd
        rcases List.mem_or_eq_of_mem_set hd with hd | rfl
        · exact hs.calls d hd
        · exact (hs.calls c (List.mem_of_getElem? hi)).deliver hnone hpc hid.symm hsend
      · -- the entries that stay are under other ids, so of other calls
        intro txID j hlookup
        obtain ⟨hne, hold⟩ := lookup_erase_eq_some.mp hlookup
        apply (hs.owner txID j hold).set_ne
        rintro rfl
        exact hne ((hs.owner_of hold hi).1.symm.trans hid)

/-- `Handle` does not block on an event: there is no entry under its id, or there is
room in the channel. -/
theorem Registry.Sound.handle_progress (hs : s.Sound) {h : Handler} {e : TxStatusEvent}
    {rest : List TxStatusEvent} (hmu : s.mu = some (h, e :: rest)) :
    ∃ a t, (a = .internal ∨ a = .deliver e) ∧ RegistryStep s a t ∧ t.mu = some (h, rest) := by
  cases hlookup : s.pending.lookup e.txID with
  | none => exact ⟨_, _, Or.inl rfl, .skip hmu hlookup, rfl⟩
  | some i =>
      obtain ⟨c, hc, _, hnone, _⟩ := hs.owner e.txID i hlookup
      have hsound := hs.calls c (List.mem_of_getElem? hc)
      have hroom : c.responseCh.buffer.length < c.responseCh.capacity := by
        rw [hsound.empty hnone, hsound.capacity]
        exact Nat.one_pos
      obtain ⟨ch, hsend⟩ := Chan.exists_send hroom e
      exact ⟨_, _, Or.inr rfl, .deliver hmu hlookup hc hsend, rfl⟩

end Soundness

end FabricXSdk.Notification

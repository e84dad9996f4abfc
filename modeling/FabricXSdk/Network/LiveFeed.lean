import FabricXSdk.FabricTest.Client
import FabricXSdk.Network.Selection
import FabricXSdk.Network.StatusFilter
import FabricXSdk.Notification.AllTx

/-!
# The live feed of the test network

A `Stream` call of the client, connected to a `StreamBlocks` call of the test peer: the
ledger commits blocks and puts each into the channel of the call without waiting, the call
turns the blocks into events for the request and sends them, and the client converts the
events to batches and runs its handlers on them. Every handler sees the blocks that were
committed since the subscription and that the request is about, in order, each with the
transactions the request selects and the outcomes the ledger gave them. A `Stream` call that
returns without an error has shown them all.

## Implementation notes

The steps of the client are those of `FabricXSdk.Notification.AllTx`, with what it receives
taken from the call. The other subscribers of the ledger are left out: a commit does not
wait for anyone. `committed` records the blocks that were committed while the channel was
open, as they were validated and as they were stored.
-/

namespace FabricXSdk.FabricTest

open Golang Channel

/-- A call of `StreamBlocks` after its subscription, whose snapshot it does not use. -/
structure BlocksCall where
  sub : Chan Proto.Block
  closed : Bool
  sent : List Proto.BlockEvent
  /-- What the call has returned. -/
  returned : Option (Option Text)

def BlocksCall.init : BlocksCall := ⟨Chan.make 10, false, [], none⟩

/-- The next turn of the loop, unless the call waits or has returned; `err` is what `Send`
returns. -/
def BlocksCall.next (c : Proto.Codecs) (req : Proto.StreamBlocksRequest) (k : BlocksCall)
    (err : Option Text) : Option (Outcome BlocksCall) :=
  match k.returned with
  | some _ => none
  | none =>
      match k.sub.recv with
      | none => if k.closed then some (.ok { k with returned := some none }) else none
      | some (block, sub) =>
          some (buildBlockEvent c block req >>= fun batch =>
            match batch, err with
            | none, _ => .ok { k with sub := sub }
            | some e, none => .ok { k with sub := sub, sent := k.sent ++ [e] }
            | some _, some err => .ok { k with sub := sub, returned := some (some err) })

/-- The non-blocking send of `commit`, to a channel that is not closed. -/
def BlocksCall.notify (block : Proto.Block) (k : BlocksCall) : BlocksCall :=
  match k.closed, k.sub.send block with
  | false, some sub => { k with sub := sub }
  | _, _ => k

def BlocksCall.close (k : BlocksCall) : BlocksCall := { k with closed := true }

end FabricXSdk.FabricTest

namespace FabricXSdk.Network

open Golang Blocks Channel Transition Notification
open FabricTest (BlocksCall Ledger Env SameOutcome buildBlockEvent)
open FabricX (StatusNames toProtoStreamAllRequest convertBlockEvent Shows Touches)

/-- A subscription to the test network in its Fabric-X form. -/
structure LiveFeed where
  net : FabricTest.Network
  codes : Blocks.FabricX.CommitterCodes
  names : CodeNames (Blocks.FabricX.statusFromCommitterStatus codes)
  fabricX : net.type = .fabricX codes names
  statuses : StatusNames codes
  req : Option StreamAllRequest
  handlers : ℕ

namespace LiveFeed

section Model

variable (f : LiveFeed)

/-- The request on the wire. -/
def request : Proto.StreamBlocksRequest := toProtoStreamAllRequest f.net.rt f.statuses f.req

def convert (e : Proto.BlockEvent) : AllTxBatch :=
  convertBlockEvent f.net.codecs f.codes f.net.headerHash e

structure State where
  ledger : Ledger
  call : Option BlocksCall
  /-- How many events of the call the client has received. -/
  received : ℕ
  client : Streamer
  committed : List (Block × Proto.Block)

def init (l : Ledger) (depth : Int) : State := ⟨l, none, 0, Streamer.init depth, []⟩

/-- A commit while the call is there. -/
def State.commit (s : State) (l' : Ledger) (bl : Block) (fbl : Proto.Block) : State :=
  { s with
    ledger := l'
    call := s.call.map (BlocksCall.notify fbl)
    committed :=
      if s.call.any fun k => !k.closed then s.committed ++ [(bl, fbl)] else s.committed }

/-- `Stream` goes on without anything from the call. -/
def Unaided (pc : StreamPc) : StreamPc → Prop :=
  match pc with
  | .opening => fun pc' => pc' ≠ .receiving
  | .receiving => fun pc' => pc' = .receiving ∨ ∃ err, pc' = .failed err
  | _ => fun _ => True

inductive Event
  | commit (env : Env) (batch : List Proto.Envelope)
  | truncate (num : ℕ)
  | close
  | turn (err : Option Text)
  | opens
  | receives
  | ends
  | client (a : StreamLabel)

inductive Step : State → Event → State → Prop
  -- the ledger
  | commit {s env batch bl fbl l'} : f.net.prepare env s.ledger batch = .ok (bl, fbl) →
      f.net.process env s.ledger batch = (.ok (), l') →
      Step s (.commit env batch) (s.commit l' bl fbl)
  | truncate {s num l'} : s.ledger.truncate num = (.ok (), l') →
      Step s (.truncate num) { s with ledger := l' }
  | close {s} : Step s .close { s with call := s.call.map BlocksCall.close }
  -- the call
  | turn {s k err k'} : s.call = some k → k.next f.net.codecs f.request err = some (.ok k') →
      Step s (.turn err) { s with call := some k' }
  -- the client and the call
  | opens {s} : s.client.pc = .opening →
      Step s .opens
        { s with call := some BlocksCall.init, client := { s.client with pc := .receiving } }
  | receives {s k e} : s.client.pc = .receiving → s.call = some k →
      k.sent[s.received]? = some e →
      Step s .receives
        { s with
          received := s.received + 1
          client := { s.client with pc := .offering (f.convert e) } }
  | ends {s k} : s.client.pc = .receiving → s.call = some k → k.returned = some none →
      s.received = k.sent.length →
      Step s .ends { s with client := { s.client with pc := .closing none } }
  -- the client on its own
  | client {s a client'} : StreamStep f.handlers s.client a client' →
      Unaided s.client.pc client'.pc → Step s (.client a) { s with client := client' }

/-- A commit finds room in the channel while the call runs, and the positions in its block
fit an `int32`. -/
def KeepsUp (s : State) : Event → Prop
  | .commit _ batch => batch.length < 2 ^ 31 ∧
      ∀ k, s.call = some k → k.returned = none → k.closed = false →
        k.sub.buffer.length < k.sub.capacity
  | _ => True

/-- The events that stored blocks give. -/
def announced (blocks : List Proto.Block) : List Proto.BlockEvent :=
  blocks.filterMap fun b => (buildBlockEvent f.net.codecs b f.request).getD none

def State.sent (s : State) : List Proto.BlockEvent := (s.call.map BlocksCall.sent).getD []

/-- What the client has received. -/
def arrived (s : State) : List AllTxBatch := (s.sent.take s.received).map f.convert

end Model

section Client

variable {f : LiveFeed} {s t : State} {e : Event}

/-- The batch that `ProcessBatch` was called with. -/
def held : StreamPc → List AllTxBatch
  | .offering batch | .blocked batch => [batch]
  | _ => []

/-- `StreamAllTransactions` has not returned, and `Recv` has not failed. -/
def Listening : StreamPc → Prop
  | .opening | .receiving | .offering _ | .blocked _ => True
  | _ => False

/-- `StreamAllTransactions` has returned without an error, and so has `Stream` or it will. -/
def EndedWell (pc : StreamPc) : Prop :=
  pc = .closing none ∨ pc = .joining none ∨ pc = .returned none

/-- What a step of the client on its own does to the batches: it accepts the one it holds,
or goes on to hold it, or stops listening. -/
theorem step_unaided {n : ℕ} {c c' : Streamer} {a : StreamLabel} (h : StreamStep n c a c')
    (hunaided : Unaided c.pc c'.pc) :
    (c'.accepted = c.accepted ∧ (held c'.pc = held c.pc ∧ (Listening c'.pc → Listening c.pc) ∨
        ¬ Listening c'.pc ∧ held c'.pc = [])) ∨
      (∃ batch, held c.pc = [batch] ∧ Listening c.pc ∧ held c'.pc = [] ∧
        c'.accepted = c.accepted ++ [batch]) := by
  cases h with
  | accepts hpc _ =>
      right
      rcases hpc with hpc | hpc <;> exact ⟨_, by rw [hpc]; rfl, by rw [hpc]; trivial, rfl, rfl⟩
  | opens hpc =>
      rw [hpc] at hunaided
      exact absurd rfl hunaided
  | receives batch hpc | recvEnds hpc =>
      rw [hpc] at hunaided
      rcases hunaided with h | ⟨err, h⟩ <;> cases h
  | blocks hpc _ =>
      refine Or.inl ⟨rfl, Or.inl ⟨by rw [hpc]; rfl, fun _ => by rw [hpc]; trivial⟩⟩
  | openFails _ _ | recvFails _ _ | recvStops _ _ | recvReports _ _ | refuses _ _ _ | closes _
  | returns _ _ => exact Or.inl ⟨rfl, Or.inr ⟨id, rfl⟩⟩
  | _ => exact Or.inl ⟨rfl, Or.inl ⟨rfl, id⟩⟩

theorem opening_of_step {n : ℕ} {c c' : Streamer} {a : StreamLabel} (h : StreamStep n c a c')
    (hpc : c'.pc = .opening) : c.pc = .opening := by
  cases h <;> first | exact hpc | cases hpc

/-- A call of `Stream` that ends without an error is not ended by a step of the client on
its own. -/
theorem step_ended {n : ℕ} {c c' : Streamer} {a : StreamLabel} (hc : Control c)
    (h : StreamStep n c a c') (hunaided : Unaided c.pc c'.pc) (hended : EndedWell c'.pc)
    (hcaller : c'.callerDone = false) (hfailure : c'.failure = none) :
    EndedWell c.pc ∧ c.callerDone = false ∧ c.failure = none ∧ c'.accepted = c.accepted := by
  cases h with
  | cancel _ => cases hcaller
  | fails _ _ => cases hfailure
  | recvEnds hpc =>
      rw [hpc] at hunaided
      rcases hunaided with h | ⟨err, h⟩ <;> cases h
  | recvStops hpc hdone =>
      -- the context is only done after the goroutine has stopped, which waits for the end
      have hcaller' : c.callerDone = false := hcaller
      have hcancelled : c.cancelled = true := by
        simpa [Streamer.streamDone, hcaller'] using hdone
      rw [hc.cancelled] at hcancelled
      have hstopped : c.worker.stopped = true := by
        cases hw : c.worker <;> rw [hw] at hcancelled <;> first | rfl | cases hcancelled
      have hclosed := (hc.drained hstopped hfailure hcaller).1
      rw [hc.closed, hpc] at hclosed
      cases hclosed
  | closes hpc =>
      rcases hended with h | h | h
      · cases h
      · cases h
        exact ⟨Or.inl hpc, hcaller, hfailure, rfl⟩
      · cases h
  | @returns err hpc hworker =>
      rcases hended with h | h | h
      · cases h
      · cases h
      · have hresult := StreamPc.returned.inj h
        have hcaller' : c.callerDone = false := hcaller
        rw [Streamer.result, (hc.failure.exited hworker).trans hfailure, hcaller'] at hresult
        exact ⟨Or.inr (Or.inl (hpc.trans (congrArg _ hresult))), hcaller, hfailure, rfl⟩
  | openFails _ _ | opens _ | receives _ _ | recvFails _ _ | recvReports _ _ | accepts _ _
  | blocks _ _ | refuses _ _ _ => rcases hended with h | h | h <;> cases h
  | _ => exact ⟨hended, hcaller, hfailure, rfl⟩

/-- What the client has made of the events it has received. -/
structure ClientInv (f : LiveFeed) (s : State) : Prop where
  control : Control s.client
  recorded : Recorded f.handlers s.client
  opening : s.client.pc = .opening → s.call = none
  received : s.received ≤ s.sent.length
  accepted : s.client.accepted ++ held s.client.pc <+: f.arrived s
  listening : Listening s.client.pc → s.client.accepted ++ held s.client.pc = f.arrived s
  ended : EndedWell s.client.pc → s.client.callerDone = false → s.client.failure = none →
    s.client.accepted = f.arrived s ∧
      ∃ k, s.call = some k ∧ k.returned = some none ∧ s.received = k.sent.length

theorem ClientInv.init (f : LiveFeed) (l : Ledger) (depth : Int) :
    ClientInv f (LiveFeed.init l depth) where
  control := Control.init depth
  recorded := Recorded.init f.handlers depth
  opening := fun _ => rfl
  received := Nat.zero_le _
  accepted := List.prefix_refl _
  listening := fun _ => rfl
  ended := by rintro (h | h | h) <;> cases h

/-- More events of the call do not change what has arrived. -/
theorem arrived_mono (hreceived : t.received = s.received) (hsent : s.sent <+: t.sent)
    (hle : s.received ≤ s.sent.length) : f.arrived t = f.arrived s := by
  obtain ⟨rest, hrest⟩ := hsent
  rw [arrived, arrived, hreceived, ← hrest, List.take_append_of_le_length hle]

/-- Steps of the ledger and of the call. -/
theorem ClientInv.serve (h : ClientInv f s) (hclient : t.client = s.client)
    (hreceived : t.received = s.received) (hsent : s.sent <+: t.sent)
    (hnone : s.call = none → t.call = none)
    (hreturned : ∀ k, s.call = some k → k.returned = some none →
      ∃ k', t.call = some k' ∧ k'.returned = some none ∧ k'.sent = k.sent) : ClientInv f t := by
  have harrived := @arrived_mono f s t hreceived hsent h.received
  refine ⟨?_, ?_, ?_, ?_, ?_, ?_, ?_⟩
  · rw [hclient]
    exact h.control
  · rw [hclient]
    exact h.recorded
  · rw [hclient]
    exact fun hpc => hnone (h.opening hpc)
  · rw [hreceived]
    exact h.received.trans hsent.length_le
  · rw [hclient, harrived]
    exact h.accepted
  · rw [hclient, harrived]
    exact h.listening
  · rw [hclient, harrived, hreceived]
    intro hended hcaller hfailure
    obtain ⟨haccepted, k, hk, hk', hlength⟩ := h.ended hended hcaller hfailure
    obtain ⟨k', ht, hk'', hsame⟩ := hreturned k hk hk'
    exact ⟨haccepted, k', ht, hk'', hlength.trans (congrArg List.length hsame.symm)⟩

/-- Steps of the client on its own. -/
theorem ClientInv.client {a : StreamLabel} {client' : Streamer} (h : ClientInv f s)
    (hstep : StreamStep f.handlers s.client a client') (hunaided : Unaided s.client.pc client'.pc) :
    ClientInv f { s with client := client' } where
  control := h.control.step hstep
  recorded := h.recorded.step hstep
  opening := fun hpc => h.opening (opening_of_step hstep hpc)
  received := h.received
  accepted := by
    obtain ⟨haccepted, hheld | ⟨_, hheld⟩⟩ | ⟨batch, hbatch, _, hheld, haccepted⟩ :=
      step_unaided hstep hunaided
    · change client'.accepted ++ held client'.pc <+: f.arrived s
      rw [haccepted, hheld.1]
      exact h.accepted
    · change client'.accepted ++ held client'.pc <+: f.arrived s
      rw [haccepted, hheld, List.append_nil]
      exact (List.prefix_append ..).trans h.accepted
    · change client'.accepted ++ held client'.pc <+: f.arrived s
      rw [haccepted, hheld, List.append_nil, ← hbatch]
      exact h.accepted
  listening := by
    intro hlistening
    change client'.accepted ++ held client'.pc = f.arrived s
    obtain ⟨haccepted, hheld | ⟨hnot, _⟩⟩ | ⟨batch, hbatch, hwas, hheld, haccepted⟩ :=
      step_unaided hstep hunaided
    · rw [haccepted, hheld.1]
      exact h.listening (hheld.2 hlistening)
    · exact absurd hlistening hnot
    · rw [haccepted, hheld, List.append_nil, ← hbatch]
      exact h.listening hwas
  ended := by
    intro hended hcaller hfailure
    obtain ⟨hended', hcaller', hfailure', haccepted⟩ :=
      step_ended h.control hstep hunaided hended hcaller hfailure
    obtain ⟨harrived, hcall⟩ := h.ended hended' hcaller' hfailure'
    exact ⟨haccepted.trans harrived, hcall⟩

/-- In `Recv` everything that has arrived is accepted. -/
theorem ClientInv.accepted_eq (h : ClientInv f s) (hpc : s.client.pc = .receiving) :
    s.client.accepted = f.arrived s := by
  have haccepted := h.listening (by rw [hpc]; trivial)
  rw [hpc] at haccepted
  exact (List.append_nil _).symm.trans haccepted

theorem ClientInv.opens (h : ClientInv f s) (hpc : s.client.pc = .opening) :
    ClientInv f { s with
      call := some BlocksCall.init, client := { s.client with pc := .receiving } } := by
  have hsent : s.sent = [] := by rw [State.sent, h.opening hpc]; rfl
  have hreceived : s.received = 0 := by
    have hle := h.received
    rw [hsent] at hle
    exact Nat.le_zero.mp hle
  have haccepted := h.listening (by rw [hpc]; trivial)
  rw [hpc, arrived, hsent] at haccepted
  refine ⟨h.control.step (.opens (n := f.handlers) hpc), h.recorded.step (.opens hpc),
    nofun, ?_, ?_, fun _ => ?_, ?_⟩
  · exact hreceived.le
  · exact ⟨[], (List.append_nil _).trans haccepted⟩
  · exact haccepted
  · rintro (h | h | h) <;> cases h

theorem ClientInv.receives (h : ClientInv f s) (hpc : s.client.pc = .receiving)
    {e : Proto.BlockEvent} (he : s.sent[s.received]? = some e) :
    ClientInv f { s with
      received := s.received + 1, client := { s.client with pc := .offering (f.convert e) } } := by
  have haccepted := h.accepted_eq hpc
  have harrived : s.client.accepted ++ [f.convert e] =
      (s.sent.take (s.received + 1)).map f.convert := by
    rw [List.take_add_one, he, List.map_append, haccepted, arrived]
    rfl
  refine ⟨h.control.step (.receives (n := f.handlers) _ hpc), h.recorded.step (.receives _ hpc),
    nofun, ?_, ?_, fun _ => harrived, ?_⟩
  · exact (List.getElem?_eq_some_iff.mp he).choose
  · exact ⟨[], (List.append_nil _).trans harrived⟩
  · rintro (h | h | h) <;> cases h

theorem ClientInv.ends (h : ClientInv f s) (hpc : s.client.pc = .receiving) {k : BlocksCall}
    (hk : s.call = some k) (hreturned : k.returned = some none)
    (hall : s.received = k.sent.length) :
    ClientInv f { s with client := { s.client with pc := .closing none } } := by
  have haccepted := h.accepted_eq hpc
  refine ⟨h.control.step (.recvEnds (n := f.handlers) hpc), h.recorded.step (.recvEnds hpc),
    nofun, h.received, ?_, nofun, fun _ _ _ => ?_⟩
  · have hempty : s.client.accepted ++ [] = f.arrived s := (List.append_nil _).trans haccepted
    exact hempty ▸ List.prefix_refl _
  · exact ⟨haccepted, k, hk, hreturned, hall⟩

end Client

section Server

variable {f : LiveFeed} {s t : State} {stored : List Proto.Block} {k k' : BlocksCall}
  {b : Proto.Block} {err : Option Text}

/-- A block parses to the outcome that the ledger came to, and the sidecar can read it. -/
structure Tells (f : LiveFeed) (p : Block × Proto.Block) : Prop where
  parsed : ∀ now, ∃ bl, f.net.parse now p.2 = .ok bl ∧ SameOutcome p.1 bl
  filter : FabricX.FilterPerEnvelope p.2

theorem tells_of_prepare {env : Env} {l : Ledger} {batch : List Proto.Envelope} {bl : Block}
    (h : f.net.prepare env l batch = .ok (bl, b)) (hsmall : batch.length < 2 ^ 31) :
    Tells f (bl, b) := by
  obtain ⟨tip, raw, txFilter, filter, hp⟩ := FabricTest.prepare_eq_ok.mp h
  refine ⟨hp.reparse, ?_⟩
  rw [hp.stored]
  rintro metadata filter' data ⟨⟩ ⟨⟩ ⟨⟩
  rw [FabricTest.length_scatter hp.scattered, FabricTest.length_dataOf, List.length_replicate]
  exact ⟨rfl, hsmall⟩

/-- What a turn does: it takes a block and sends its event, if there is one, or fails to;
or it returns when the channel is closed and empty. -/
theorem next_eq_some (h : k.next f.net.codecs f.request err = some (.ok k')) :
    k.returned = none ∧
      ((∃ b sub batch, k.sub.recv = some (b, sub) ∧
          buildBlockEvent f.net.codecs b f.request = .ok batch ∧
          (k' = { k with sub := sub, sent := k.sent ++ batch.toList } ∨
            ∃ err, k' = { k with sub := sub, returned := some (some err) })) ∨
        k.sub.recv = none ∧ k.closed = true ∧ k' = { k with returned := some none }) := by
  rw [BlocksCall.next] at h
  cases hreturned : k.returned with
  | some result =>
      rw [hreturned] at h
      cases h
  | none =>
      rw [hreturned] at h
      refine ⟨rfl, ?_⟩
      cases hrecv : k.sub.recv with
      | none =>
          rw [hrecv] at h
          simp only [Option.ite_none_right_eq_some, Option.some.injEq, Outcome.ok.injEq] at h
          exact Or.inr ⟨rfl, h.1, h.2.symm⟩
      | some p =>
          obtain ⟨b, sub⟩ := p
          rw [hrecv] at h
          obtain ⟨batch, hbatch, h⟩ := Outcome.bind_eq_ok.mp (Option.some.inj h)
          refine Or.inl ⟨b, sub, batch, rfl, hbatch, ?_⟩
          cases batch with
          | none =>
              cases h
              simp
          | some e =>
              cases err with
              | none =>
                  cases h
                  exact Or.inl rfl
              | some err =>
                  cases h
                  exact Or.inr ⟨err, rfl⟩

theorem announced_append (f : LiveFeed) (bs bs' : List Proto.Block) :
    f.announced (bs ++ bs') = f.announced bs ++ f.announced bs' :=
  List.filterMap_append

theorem announced_singleton {batch : Option Proto.BlockEvent}
    (h : buildBlockEvent f.net.codecs b f.request = .ok batch) :
    f.announced [b] = batch.toList := by
  rw [announced, List.filterMap_cons, h]
  cases batch <;> rfl

/-- The call has sent the events of the blocks it has taken, and the others are in the
channel. -/
structure CallInv (f : LiveFeed) (stored : List Proto.Block) (k : BlocksCall) : Prop where
  sent : ∃ taken, k.sent = f.announced taken ∧ taken <+: stored ∧
    ((∀ err, k.returned ≠ some (some err)) → stored = taken ++ k.sub.buffer)
  returned : k.returned = some none → k.closed = true ∧ k.sub.buffer = []

theorem CallInv.init (f : LiveFeed) : CallInv f [] BlocksCall.init where
  sent := ⟨[], rfl, List.prefix_refl _, fun _ => rfl⟩
  returned := nofun

theorem CallInv.close (h : CallInv f stored k) : CallInv f stored k.close where
  sent := h.sent
  returned := fun hreturned => ⟨rfl, (h.returned hreturned).2⟩

/-- A commit finds room in the channel of a call that runs. -/
theorem CallInv.notify (h : CallInv f stored k) (hopen : k.closed = false)
    (hroom : k.returned = none → k.sub.buffer.length < k.sub.capacity) (b : Proto.Block) :
    CallInv f (stored ++ [b]) (k.notify b) := by
  obtain ⟨taken, hsent, htaken, hrest⟩ := h.sent
  have htaken' : taken <+: stored ++ [b] := htaken.trans (List.prefix_append ..)
  have hreturned : k.returned ≠ some none := by
    intro hreturned
    rw [(h.returned hreturned).1] at hopen
    cases hopen
  rw [BlocksCall.notify, hopen]
  cases hsend : k.sub.send b with
  | some sub =>
      refine ⟨⟨taken, hsent, htaken', fun herr => ?_⟩, fun h => absurd h hreturned⟩
      rw [hrest herr, (Chan.send_eq_some.mp hsend).2, List.append_assoc]
  | none =>
      -- without room the call has failed
      refine ⟨⟨taken, hsent, htaken', fun herr => ?_⟩, fun h => absurd h hreturned⟩
      have hnone : k.returned = none := by
        cases hk : k.returned with
        | none => rfl
        | some result =>
            cases result with
            | none => exact absurd hk hreturned
            | some err => exact absurd hk (herr err)
      have hlt := hroom hnone
      rw [Chan.send_eq_none.mp hsend] at hlt
      exact absurd hlt (Nat.lt_irrefl _)

theorem CallInv.next (h : CallInv f stored k)
    (hnext : k.next f.net.codecs f.request err = some (.ok k')) : CallInv f stored k' := by
  obtain ⟨taken, hsent, htaken, hrest⟩ := h.sent
  obtain ⟨hreturned, ⟨b, sub, batch, hrecv, hbatch, hk'⟩ | ⟨hrecv, hclosed, rfl⟩⟩ :=
    next_eq_some hnext
  · have hstored := hrest (by simp [hreturned])
    rw [(Chan.recv_eq_some.mp hrecv).2, List.append_cons] at hstored
    rcases hk' with rfl | ⟨err, rfl⟩
    · refine ⟨⟨taken ++ [b], ?_, ⟨_, hstored.symm⟩, fun _ => hstored⟩, ?_⟩
      · rw [announced_append, announced_singleton hbatch, hsent]
      · exact fun h => absurd h (by simp [hreturned])
    · exact ⟨⟨taken, hsent, htaken, fun herr => absurd rfl (herr err)⟩, nofun⟩
  · refine ⟨⟨taken, hsent, htaken, fun _ => hrest (by simp [hreturned])⟩, fun _ => ?_⟩
    exact ⟨hclosed, Chan.recv_eq_none.mp hrecv⟩

/-- What the call has made of the blocks that were committed. -/
structure ServerInv (f : LiveFeed) (s : State) : Prop where
  tells : ∀ p ∈ s.committed, Tells f p
  absent : s.call = none → s.committed = []
  call : ∀ k, s.call = some k → CallInv f (s.committed.map Prod.snd) k

theorem ServerInv.commit {env : Env} {batch : List Proto.Envelope} {bl : Block} {l' : Ledger}
    (h : ServerInv f s) (hprepare : f.net.prepare env s.ledger batch = .ok (bl, b))
    (hkeeps : KeepsUp s (.commit env batch)) : ServerInv f (s.commit l' bl b) := by
  obtain ⟨hsmall, hroom⟩ := hkeeps
  cases hcall : s.call with
  | none =>
      have hcommit : s.commit l' bl b = { s with ledger := l' } := by
        simp [State.commit, hcall]
      rw [hcommit]
      exact ⟨h.tells, h.absent, h.call⟩
  | some k =>
      have hk := h.call k hcall
      cases hclosed : k.closed with
      | true =>
          have hcommit : s.commit l' bl b = { s with ledger := l' } := by
            simp [State.commit, hcall, hclosed, BlocksCall.notify]
          rw [hcommit]
          exact ⟨h.tells, h.absent, h.call⟩
      | false =>
          have hcommit : s.commit l' bl b =
              ⟨l', some (k.notify b), s.received, s.client, s.committed ++ [(bl, b)]⟩ := by
            simp [State.commit, hcall, hclosed]
          rw [hcommit]
          refine ⟨?_, nofun, ?_⟩
          · intro p hp
            rcases List.mem_append.mp hp with hp | hp
            · exact h.tells p hp
            · rw [List.mem_singleton.mp hp]
              exact tells_of_prepare hprepare hsmall
          · rintro k' ⟨⟩
            rw [List.map_append]
            exact hk.notify hclosed (fun hnone => hroom k hcall hnone hclosed) b

end Server

section Runs

variable {f : LiveFeed} {s t : State} {e : Event} {l : Ledger} {depth : Int}

structure FeedInv (f : LiveFeed) (s : State) : Prop where
  client : ClientInv f s
  server : ServerInv f s

theorem notify_sent (b : Proto.Block) (k : BlocksCall) :
    (k.notify b).sent = k.sent ∧ (k.notify b).returned = k.returned := by
  rw [BlocksCall.notify]
  split <;> exact ⟨rfl, rfl⟩

/-- A step of the ledger leaves what the call has sent and returned. -/
theorem ClientInv.mapCall {g : BlocksCall → BlocksCall}
    (hg : ∀ k, (g k).sent = k.sent ∧ (g k).returned = k.returned) (h : ClientInv f s)
    (hclient : t.client = s.client) (hreceived : t.received = s.received)
    (hcall : t.call = s.call.map g) : ClientInv f t := by
  have hsent : t.sent = s.sent := by
    rw [State.sent, State.sent, hcall]
    cases s.call with
    | none => rfl
    | some k => exact (hg k).1
  refine h.serve hclient hreceived (hsent ▸ List.prefix_refl _) ?_ ?_
  · intro hnone
    rw [hcall, hnone]
    rfl
  · intro k hk hreturned
    refine ⟨g k, ?_, (hg k).2.trans hreturned, (hg k).1⟩
    rw [hcall, hk]
    rfl

theorem FeedInv.turn {k k' : BlocksCall} {err : Option Text} (h : FeedInv f s)
    (hcall : s.call = some k) (hnext : k.next f.net.codecs f.request err = some (.ok k')) :
    FeedInv f { s with call := some k' } := by
  obtain ⟨hreturned, hk'⟩ := next_eq_some hnext
  have hsent : k.sent <+: k'.sent := by
    rcases hk' with ⟨b, sub, batch, _, _, rfl | ⟨err, rfl⟩⟩ | ⟨_, _, rfl⟩
    · exact List.prefix_append ..
    · exact List.prefix_refl _
    · exact List.prefix_refl _
  refine ⟨h.client.serve rfl rfl ?_ ?_ ?_, h.server.tells, nofun, ?_⟩
  · rw [State.sent, hcall]
    exact hsent
  · intro hnone
    rw [hcall] at hnone
    cases hnone
  · -- a call that has returned takes no turn
    intro k₀ hk₀ hreturned₀
    rw [hcall] at hk₀
    cases hk₀
    rw [hreturned] at hreturned₀
    cases hreturned₀
  · rintro _ ⟨⟩
    exact (h.server.call k hcall).next hnext

theorem FeedInv.step (h : FeedInv f s) (hkeeps : KeepsUp s e) (hstep : Step f s e t) :
    FeedInv f t := by
  cases hstep with
  | @commit env batch bl fbl l' hprepare _ =>
      exact ⟨h.client.mapCall (notify_sent fbl) rfl rfl rfl, h.server.commit hprepare hkeeps⟩
  | truncate _ =>
      exact ⟨⟨h.client.control, h.client.recorded, h.client.opening, h.client.received,
        h.client.accepted, h.client.listening, h.client.ended⟩,
        h.server.tells, h.server.absent, h.server.call⟩
  | close =>
      refine ⟨h.client.mapCall (g := BlocksCall.close) (fun _ => ⟨rfl, rfl⟩) rfl rfl rfl,
        h.server.tells, fun hnone => ?_, fun k' hk' => ?_⟩
      · exact h.server.absent (Option.map_eq_none_iff.mp hnone)
      · obtain ⟨k, hk, rfl⟩ := Option.map_eq_some_iff.mp hk'
        exact (h.server.call k hk).close
  | turn hcall hnext => exact h.turn hcall hnext
  | opens hpc =>
      have hcommitted := h.server.absent (h.client.opening hpc)
      refine ⟨h.client.opens hpc, h.server.tells, nofun, ?_⟩
      rintro _ ⟨⟩
      change CallInv f (s.committed.map Prod.snd) BlocksCall.init
      rw [hcommitted]
      exact CallInv.init f
  | @receives k e hpc hcall he =>
      refine ⟨h.client.receives hpc ?_, h.server.tells, h.server.absent, h.server.call⟩
      rw [State.sent, hcall]
      exact he
  | ends hpc hcall hreturned hall =>
      exact ⟨h.client.ends hpc hcall hreturned hall, h.server.tells, h.server.absent, h.server.call⟩
  | client hclient hunaided =>
      exact ⟨h.client.client hclient hunaided, h.server.tells, h.server.absent, h.server.call⟩

theorem FeedInv.of_reaches (h : Reaches (Step f) KeepsUp (init l depth) s) : FeedInv f s := by
  refine h.invariant ⟨ClientInv.init f l depth, ?_, fun _ => rfl, nofun⟩
    fun _ _ _ hs hkeeps hstep => hs.step hkeeps hstep
  intro p hp
  cases hp

theorem announced_prefix {bs bs' : List Proto.Block} (h : bs <+: bs') :
    (f.announced bs).map f.convert <+: (f.announced bs').map f.convert := by
  obtain ⟨rest, rfl⟩ := h
  rw [announced_append, List.map_append]
  exact List.prefix_append ..

/-- What a handler has been called with is part of what the committed blocks announce. -/
theorem FeedInv.seen_prefix (h : FeedInv f s) {j : ℕ} (hj : j < f.handlers) :
    s.client.seen j <+: (f.announced (s.committed.map Prod.snd)).map f.convert := by
  obtain ⟨pre, cur, c, d, hrecords, _⟩ := h.client.recorded
  have haccepted : s.client.seen j <+: f.arrived s :=
    ((hrecords.seen_le hj).trans (List.prefix_append ..)).trans h.client.accepted
  have hsent : f.arrived s <+: s.sent.map f.convert := (List.take_prefix ..).map f.convert
  refine (haccepted.trans hsent).trans ?_
  rw [State.sent]
  cases hcall : s.call with
  | none => exact List.nil_prefix
  | some k =>
      obtain ⟨taken, htaken, hinitial, _⟩ := (h.server.call k hcall).sent
      change k.sent.map f.convert <+: _
      rw [htaken]
      exact announced_prefix hinitial

/-- After a call of `Stream` without an error every handler is through with everything. -/
theorem FeedInv.done_eq (h : FeedInv f s) (hpc : s.client.pc = .returned none)
    (hcaller : s.client.callerDone = false) {j : ℕ} (hj : j < f.handlers) :
    s.client.done j = (f.announced (s.committed.map Prod.snd)).map f.convert := by
  have hcontrol := h.client.control
  obtain ⟨hworker, hresult⟩ := hcontrol.returned none hpc
  have hfailure : s.client.failure = none := by
    cases hf : s.client.failure with
    | none => rfl
    | some err => cases hresult err hf
  obtain ⟨haccepted, k, hcall, hreturned, hall⟩ :=
    h.client.ended (Or.inr (Or.inr hpc)) hcaller hfailure
  obtain ⟨taken, htaken, _, hrest⟩ := (h.server.call k hcall).sent
  have hstored := hrest (by simp [hreturned])
  rw [((h.server.call k hcall).returned hreturned).2, List.append_nil] at hstored
  -- the goroutine has stopped in between two batches, with the queue empty
  obtain ⟨pre, cur, c, d, hrecords, hat⟩ := h.client.recorded
  have hempty := (hcontrol.drained (by rw [hworker]; rfl) hfailure hcaller).2
  unfold Streamer.At at hat
  rw [hworker] at hat
  have hdone : s.client.done j = s.client.accepted := by
    rw [hrecords.done j hj, hrecords.accepted, hat hfailure, hempty]
    simp
  rw [hdone, haccepted, arrived, State.sent, hcall, hall, hstored, ← htaken]
  change (k.sent.take k.sent.length).map f.convert = k.sent.map f.convert
  rw [List.take_length]

/-- The events of stored blocks show what the request selects of them. -/
theorem announced_shows {committed : List (Block × Proto.Block)}
    (h : ∀ p ∈ committed, Tells f p) (now : Int) :
    ∃ parsed, List.Forall₂ (fun p bl => f.net.parse now p.2 = .ok bl ∧ SameOutcome p.1 bl)
        committed parsed ∧
      List.Forall₂ (Shows f.request) ((f.announced (committed.map Prod.snd)).map f.convert)
        (parsed.filter fun bl => Touches f.request bl) := by
  induction committed with
  | nil => exact ⟨[], .nil, .nil⟩
  | cons p rest ih =>
      rw [List.forall_mem_cons] at h
      obtain ⟨parsed, hparsed, hshows⟩ := ih h.2
      obtain ⟨bl, hbl, hsame⟩ := h.1.parsed now
      refine ⟨bl :: parsed, .cons ⟨hbl, hsame⟩ hparsed, ?_⟩
      have hparse : Blocks.FabricX.parse f.net.codecs f.codes f.net.headerHash now p.2 =
          .ok bl := by
        rw [FabricTest.Network.parse, FabricTest.Network.parser, f.fabricX] at hbl
        exact hbl
      rw [List.map_cons, ← List.singleton_append, announced_append]
      rcases FabricX.buildBlockEvent_shows hparse h.1.filter f.request with
        ⟨hbuild, htouches⟩ | ⟨e, hbuild, htouches, hshow⟩
      · rw [announced_singleton hbuild, List.filter_cons_of_neg (by simpa using htouches)]
        exact hshows
      · rw [announced_singleton hbuild, List.filter_cons_of_pos (by simpa using htouches)]
        exact .cons hshow hshows

end Runs

section Sample

open FabricTest (sampleFabricX sampleEnv sampleLedger sampleOut)

/-- A feed of the conflicts in namespace `"n"`, with one handler. -/
def sampleFeed : LiveFeed where
  net := sampleFabricX
  codes := sampleStatusCodes
  names := FabricTest.sampleStatusNames
  fabricX := rfl
  statuses := FabricX.sampleCommitterNames
  req := some ⟨[[110]], [.mvccConflict], true, false, false⟩
  handlers := 1

def sampleEvent : Proto.BlockEvent :=
  ((buildBlockEvent sampleFeed.net.codecs sampleOut.2 sampleFeed.request).getD none).getD
    ⟨none, []⟩

theorem sampleEvent_built :
    buildBlockEvent sampleFeed.net.codecs sampleOut.2 sampleFeed.request =
      .ok (some sampleEvent) := by
  rfl

/-- A step of the client on its own in a run. -/
theorem reaches_client {f : LiveFeed} {s₀ s : State} {a : StreamLabel} {client' : Streamer}
    (h : Reaches (Step f) KeepsUp s₀ s) (hstep : StreamStep f.handlers s.client a client')
    (hunaided : Unaided s.client.pc client'.pc) :
    Reaches (Step f) KeepsUp s₀ { s with client := client' } :=
  h.step (a := .client a) trivial (.client hstep hunaided)

end Sample

end LiveFeed

end FabricXSdk.Network

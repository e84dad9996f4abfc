import FabricXSdk.FabricTest.Batching
import FabricXSdk.Lib.Channel
import FabricXSdk.Lib.Merge
import Mathlib.Algebra.Order.BigOperators.Group.List
import Mathlib.Algebra.Order.Group.Nat

/-!
# The test orderer as a service

Clients broadcast envelopes over streams of their own. Each call of `Broadcast` puts what it
receives into the channel of the batching loop and then acknowledges it. Requests for an
empty block or a revert hand the loop a channel for the answer. Whatever the calls, the loop
and the shutdown do in turn, no envelope that went into the channel is lost, doubled or
moved within its stream, unless a revert drops the batch it waits in.

## Implementation notes

The channels `cutCh` and `revertCh` have no buffer, so a request is taken in one step of the
caller and the loop. The loop answers in that step, as the channel for the answer has room
for one. A panic of the loop ends the process and is no step; so does the panic of a second
`stop`.
-/

namespace FabricXSdk.FabricTest

open Golang Transition Channel Merge

section Model

/-- Where a call of `Broadcast` is. -/
inductive BroadcastPc
  | receiving
  /-- In `o.inCh <- env`. -/
  | enqueuing (envelope : Proto.Envelope)
  | replying
  | returned (err : Option Text)

/-- A call of `Broadcast`, with what it has put into the channel and the replies it has sent. -/
structure Broadcast where
  pc : BroadcastPc
  enqueued : List Proto.Envelope
  acks : ℕ

inductive BroadcastEvent
  | recv (envelope : Proto.Envelope)
  | eof
  | recvFailed (err : Text)
  | send
  | sendFailed (err : Text)

/-- What the stream does. -/
def Broadcast.step (b : Broadcast) : BroadcastEvent → Option Broadcast
  | .recv envelope =>
      match b.pc with
      | .receiving => some { b with pc := .enqueuing envelope }
      | _ => none
  | .eof =>
      match b.pc with
      | .receiving => some { b with pc := .returned none }
      | _ => none
  | .recvFailed err =>
      match b.pc with
      | .receiving => some { b with pc := .returned (some err) }
      | _ => none
  | .send =>
      match b.pc with
      | .replying => some { b with pc := .receiving, acks := b.acks + 1 }
      | _ => none
  | .sendFailed err =>
      match b.pc with
      | .replying => some { b with pc := .returned (some err) }
      | _ => none

/-- What `cutBlock` and `revert` ask the loop for. -/
inductive Request
  | cutBlock
  | revert (num : ℕ)

def Request.event (env : Env) : Request → LoopEvent
  | .cutBlock => .cut env
  | .revert num => .revert num

/-- What the loop sends back. A panic sends nothing. -/
def Request.answer (net : Network) (env : Env) (l : Ledger) (request : Request) :
    Option (Option Text) :=
  let outcome := match request with
    | .cutBlock => (net.process env l []).1
    | .revert num => (l.truncate num).1
  match outcome with
  | .ok _ => some none
  | .error err => some (some err)
  | .panic => none

/-- Where a call of `cutBlock` or `revert` is. -/
inductive CallPc
  | offering
  | waiting
  | returned (err : Option Text)

/-- A call, with what was sent on its channel for the answer. -/
structure Call where
  request : Request
  pc : CallPc
  reply : Option (Option Text)

/-- The loop has taken the request of the call. -/
def Call.take (call : Call) (err : Option Text) : Call :=
  { call with pc := .waiting, reply := some err }

structure Service where
  inCh : Chan Proto.Envelope
  loop : BatchingLoop
  stopping : Bool
  broadcasts : List Broadcast
  calls : List Call

def newTestOrderer (l : Ledger) : Service := ⟨Chan.make 64, .start l, false, [], []⟩

inductive ServiceEvent
  | connect
  | broadcast (i : ℕ) (e : BroadcastEvent)
  | enqueue (i : ℕ)
  | arrive (env : Env)
  | expire (env : Env)
  | call (request : Request)
  | serve (j : ℕ) (env : Env)
  | answer (j : ℕ)
  | cancel (j : ℕ) (err : Text)
  | stop
  | exit

def Service.step (net : Network) (cfg : Config) (s : Service) : ServiceEvent → Option Service
  | .connect => some { s with broadcasts := s.broadcasts ++ [⟨.receiving, [], 0⟩] }
  | .broadcast i e => do
      let b ← s.broadcasts[i]?
      let b' ← b.step e
      pure { s with broadcasts := s.broadcasts.set i b' }
  | .enqueue i => do
      let b ← s.broadcasts[i]?
      match b.pc with
      | .enqueuing envelope => do
          let inCh ← s.inCh.send envelope
          pure { s with
            inCh := inCh
            broadcasts := s.broadcasts.set i
              { b with pc := .replying, enqueued := b.enqueued ++ [envelope] } }
      | _ => none
  | .arrive env => do
      let (envelope, inCh) ← s.inCh.recv
      let loop ← s.loop.step net cfg (.arrive env envelope)
      pure { s with inCh := inCh, loop := loop }
  | .expire env => do
      let loop ← s.loop.step net cfg (.expire env)
      pure { s with loop := loop }
  | .call request => some { s with calls := s.calls ++ [⟨request, .offering, none⟩] }
  | .serve j env => do
      let call ← s.calls[j]?
      match call.pc with
      | .offering => do
          let err ← call.request.answer net env s.loop.ledger
          let loop ← s.loop.step net cfg (call.request.event env)
          pure { s with loop := loop, calls := s.calls.set j (call.take err) }
      | _ => none
  | .answer j => do
      let call ← s.calls[j]?
      match call.pc, call.reply with
      | .waiting, some err =>
          pure { s with calls := s.calls.set j { call with pc := .returned err } }
      | _, _ => none
  | .cancel j err => do
      let call ← s.calls[j]?
      match call.pc with
      | .returned _ => none
      | _ => pure { s with calls := s.calls.set j { call with pc := .returned (some err) } }
  | .stop => if s.stopping then none else some { s with stopping := true }
  | .exit =>
      if s.stopping then (s.loop.step net cfg .stop).map fun loop => { s with loop := loop }
      else none

def ServiceStep (net : Network) (cfg : Config) (s : Service) (e : ServiceEvent) (s' : Service) :
    Prop :=
  s.step net cfg e = some s'

end Model

section Log

variable {net : Network} {cfg : Config} {o o' o₀ : BatchingLoop} {env : Env} {e : LoopEvent}

/-- The envelopes in a part of the chain. -/
def chainData (blocks : List Proto.Block) : List Bytes :=
  blocks.flatMap fun block => block.data.getD []

def LogEntry.isCut : LogEntry → Bool
  | .cut _ => true
  | _ => false

/-- The envelopes that a turn takes from the channel. -/
def LoopEvent.envelopes : LoopEvent → List Proto.Envelope
  | .arrive _ envelope => [envelope]
  | _ => []

/-- The turn makes an empty block. -/
def LoopEvent.cuts (net : Network) (l : Ledger) : LoopEvent → Bool
  | .cut env => (net.process env l []).1 = .ok ()
  | _ => false

/-- What a turn adds to the log, and to the chain unless it is a revert. -/
structure Adds (net : Network) (o o' : BatchingLoop) (e : LoopEvent) (entries : List LogEntry) :
    Prop where
  arrived : o'.arrived = o.arrived ++ e.envelopes
  log : o'.log = o.log ++ entries
  cuts : entries.countP LogEntry.isCut = if e.cuts net o.ledger then 1 else 0
  blocks : (∀ num, e ≠ .revert num) → ∃ blocks, o'.ledger.blocks = o.ledger.blocks ++ blocks ∧
    entries.flatMap (LogEntry.data net) = chainData blocks

theorem adds_nothing (harrived : o'.arrived = o.arrived ++ e.envelopes) (hlog : o'.log = o.log)
    (hledger : o'.ledger = o.ledger) (hcuts : e.cuts net o.ledger = false) :
    Adds net o o' e [] where
  arrived := harrived
  log := by rw [hlog, List.append_nil]
  cuts := by rw [hcuts]; rfl
  blocks := fun _ => ⟨[], by rw [hledger, List.append_nil], rfl⟩

/-- `flush` adds the block of the batch, if there is one. -/
theorem flush_adds (h : o.flush net env = .ok o')
    (harrived : o.arrived = o₀.arrived ++ e.envelopes) (hlog : o.log = o₀.log)
    (hledger : o.ledger = o₀.ledger) (hcuts : e.cuts net o₀.ledger = false) :
    ∃ entries, Adds net o₀ o' e entries := by
  rw [BatchingLoop.flush] at h
  split at h
  · cases h
    exact ⟨[], adds_nothing harrived hlog hledger hcuts⟩
  · split at h
    · rename_i u l' hprocess
      obtain ⟨block, hblocks, _⟩ := process_appends hprocess
      rw [hblocks, List.getLast?_concat] at h
      cases h
      refine ⟨[.flushed block], harrived, by rw [hlog], by rw [hcuts]; rfl, fun _ => ?_⟩
      exact ⟨[block], by rw [hblocks, hledger], rfl⟩
    · cases h

theorem loop_adds (h : LoopStep net cfg o e o') : ∃ entries, Adds net o o' e entries := by
  have hturn := step_eq_some h
  cases e with
  | arrive env envelope =>
      simp only [BatchingLoop.turn] at hturn
      split at hturn
      · exact flush_adds (Option.some.inj hturn) rfl rfl rfl rfl
      · cases hturn
        exact ⟨[], adds_nothing rfl rfl rfl rfl⟩
  | expire env =>
      rw [BatchingLoop.turn] at hturn
      split at hturn
      · exact flush_adds (Option.some.inj hturn) (List.append_nil _).symm rfl rfl rfl
      · cases hturn
  | cut env =>
      rw [BatchingLoop.turn] at hturn
      split at hturn
      · rename_i u l' hprocess
        obtain ⟨block, hblocks, _⟩ := process_appends hprocess
        rw [hblocks, List.getLast?_concat] at hturn
        cases hturn
        refine ⟨[.cut block], (List.append_nil _).symm, rfl, ?_, fun _ => ⟨[block], hblocks, rfl⟩⟩
        simp [LogEntry.isCut, LoopEvent.cuts, hprocess]
      · rename_i err l' hprocess
        cases hturn
        have hsame : (net.process env o.ledger []).2 = o.ledger :=
          process_of_ne_ok (by rw [hprocess]; simp)
        rw [hprocess] at hsame
        exact ⟨[], adds_nothing (List.append_nil _).symm rfl hsame
          (by simp [LoopEvent.cuts, hprocess])⟩
      · cases hturn
  | revert num =>
      cases hturn
      exact ⟨[.dropped o.batch], (List.append_nil _).symm, rfl, rfl, fun h => absurd rfl (h num)⟩
  | stop =>
      cases hturn
      exact ⟨[], adds_nothing (List.append_nil _).symm rfl rfl rfl⟩

end Log

section Runs

variable {net : Network} {cfg : Config} {l₀ : Ledger} {s s' : Service}

/-- How many of its envelopes a call has acknowledged. -/
def Broadcast.Acked (b : Broadcast) : Prop :=
  match b.pc with
  | .receiving => b.acks = b.enqueued.length
  | .enqueuing _ => b.acks = b.enqueued.length
  | .replying => b.acks + 1 = b.enqueued.length
  | .returned _ => b.acks ≤ b.enqueued.length ∧ b.enqueued.length ≤ b.acks + 1

theorem Broadcast.Acked.bounds {b : Broadcast} (h : b.Acked) :
    b.acks ≤ b.enqueued.length ∧ b.enqueued.length ≤ b.acks + 1 := by
  rw [Broadcast.Acked] at h
  split at h <;> omega

/-- The stream of a call does not touch what it has enqueued. -/
theorem Broadcast.step_acked {b b' : Broadcast} {e : BroadcastEvent} (h : b.Acked)
    (hstep : b.step e = some b') : b'.enqueued = b.enqueued ∧ b'.Acked := by
  obtain ⟨pc, enqueued, acks⟩ := b
  cases e <;> cases pc <;> cases hstep <;> refine ⟨rfl, ?_⟩ <;>
    simp only [Broadcast.Acked] at h ⊢ <;> omega

/-- The loop has made an empty block for the call. -/
def Call.served (call : Call) : Bool :=
  match call.request, call.reply with
  | .cutBlock, some none => true
  | _, _ => false

/-- No revert was taken by the loop. -/
def NoRevert (calls : List Call) : Prop :=
  ∀ call ∈ calls, ∀ num, call.request = .revert num → call.reply = none

/-- The answer of a call. -/
def Call.Answered (call : Call) : Prop :=
  match call.pc with
  | .offering => call.reply = none
  | .waiting => call.reply ≠ none
  | .returned none => call.reply = some none
  | .returned (some _) => True

structure ServiceInv (net : Network) (cfg : Config) (l₀ : Ledger) (s : Service) : Prop where
  loop : LoopInv net cfg s.loop
  merges : Merges (s.broadcasts.map Broadcast.enqueued) (s.loop.arrived ++ s.inCh.buffer)
  capacity : s.inCh.capacity = 64
  acked : ∀ b ∈ s.broadcasts, b.Acked
  answered : ∀ call ∈ s.calls, call.Answered
  cuts : s.loop.log.countP LogEntry.isCut = s.calls.countP Call.served
  chain : NoRevert s.calls → ∃ blocks, s.loop.ledger.blocks = l₀.blocks ++ blocks ∧
    s.loop.log.flatMap (LogEntry.data net) = chainData blocks

theorem newTestOrderer_inv : ServiceInv net cfg l₀ (newTestOrderer l₀) where
  loop := start_inv l₀
  merges := .nil
  capacity := rfl
  acked := nofun
  answered := nofun
  cuts := rfl
  chain := fun _ => ⟨[], (List.append_nil _).symm, rfl⟩

/-- The chain grows with the log. -/
theorem Adds.chain {o o' : BatchingLoop} {e : LoopEvent} {entries : List LogEntry}
    {before : List Proto.Block} (h : Adds net o o' e entries) (hnot : ∀ num, e ≠ .revert num)
    (hchain : ∃ blocks, o.ledger.blocks = before ++ blocks ∧
      o.log.flatMap (LogEntry.data net) = chainData blocks) :
    ∃ blocks, o'.ledger.blocks = before ++ blocks ∧
      o'.log.flatMap (LogEntry.data net) = chainData blocks := by
  obtain ⟨blocks, hblocks, hdata⟩ := hchain
  obtain ⟨more, hmore, hentries⟩ := h.blocks hnot
  refine ⟨blocks ++ more, by rw [hmore, hblocks, List.append_assoc], ?_⟩
  rw [h.log, List.flatMap_append, hdata, hentries, chainData, chainData, chainData,
    List.flatMap_append]

/-- A turn of the loop that is no answer to a call. -/
theorem ServiceInv.turn (h : ServiceInv net cfg l₀ s) {e : LoopEvent} {loop : BatchingLoop}
    {inCh : Chan Proto.Envelope} (hstep : s.loop.step net cfg e = some loop)
    (hnot : ∀ num, e ≠ .revert num) (hcuts : e.cuts net s.loop.ledger = false)
    (hcapacity : inCh.capacity = s.inCh.capacity)
    (hbuffer : s.inCh.buffer = e.envelopes ++ inCh.buffer) :
    ServiceInv net cfg l₀ { s with inCh := inCh, loop := loop } := by
  obtain ⟨entries, hadds⟩ := loop_adds hstep
  refine ⟨h.loop.step hstep, ?_, hcapacity.trans h.capacity, h.acked, h.answered, ?_,
    fun hno => hadds.chain hnot (h.chain hno)⟩
  · rw [hadds.arrived, List.append_assoc, ← hbuffer]
    exact h.merges
  · rw [hadds.log, List.countP_append, hadds.cuts, hcuts, if_neg Bool.false_ne_true, Nat.add_zero]
    exact h.cuts

theorem NoRevert.of_set {calls : List Call} {j : ℕ} {call call' : Call}
    (h : NoRevert (calls.set j call')) (hj : calls[j]? = some call)
    (hcall : ∀ num, call.request = .revert num → call.reply = none) : NoRevert calls := by
  intro c hc
  obtain ⟨k, hk⟩ := List.mem_iff_getElem?.mp hc
  by_cases hjk : j = k
  · subst hjk
    obtain rfl := Option.some.inj (hk.symm.trans hj)
    exact hcall
  · exact h c (List.mem_of_getElem? ((getElem?_set_eq_some hj).mpr (Or.inr ⟨hjk, hk⟩)))

/-- A call goes on otherwise than by an answer of the loop. -/
theorem ServiceInv.setCall (h : ServiceInv net cfg l₀ s) {j : ℕ} {call : Call} {pc : CallPc}
    (hj : s.calls[j]? = some call) (hanswered : Call.Answered { call with pc := pc }) :
    ServiceInv net cfg l₀ { s with calls := s.calls.set j { call with pc := pc } } := by
  refine ⟨h.loop, h.merges, h.capacity, h.acked, fun c hc => ?_, ?_, fun hno => h.chain ?_⟩
  · rcases List.mem_or_eq_of_mem_set hc with hc | rfl
    · exact h.answered c hc
    · exact hanswered
  · have hcount := countP_set_add hj { call with pc := pc } Call.served
    exact h.cuts.trans (Nat.add_right_cancel hcount).symm
  · have hmem := List.mem_of_getElem? (getElem?_set_of_some hj { call with pc := pc })
    have hcall := hno _ hmem
    exact hno.of_set hj hcall

/-- An empty block is made for the answer nil to `cutBlock`, and only for it. -/
theorem Request.cuts_event {env : Env} {l : Ledger} {call : Call} {err : Option Text}
    (h : call.request.answer net env l = some err) :
    (call.request.event env).cuts net l = (call.take err).served := by
  cases hrequest : call.request with
  | revert num => simp [Call.take, Call.served, Request.event, LoopEvent.cuts, hrequest]
  | cutBlock =>
      rw [hrequest, Request.answer] at h
      split at h <;> cases h <;> rename_i hout <;>
        simp [Call.take, Call.served, Request.event, LoopEvent.cuts, hrequest, hout]

/-- The loop takes a request. -/
theorem ServiceInv.serve (h : ServiceInv net cfg l₀ s) {j : ℕ} {call : Call} {env : Env}
    {err : Option Text} {loop : BatchingLoop} (hj : s.calls[j]? = some call)
    (hpc : call.pc = .offering) (hanswer : call.request.answer net env s.loop.ledger = some err)
    (hstep : s.loop.step net cfg (call.request.event env) = some loop) :
    ServiceInv net cfg l₀ { s with loop := loop, calls := s.calls.set j (call.take err) } := by
  have hreply : call.reply = none := by
    have hanswered := h.answered call (List.mem_of_getElem? hj)
    rw [Call.Answered, hpc] at hanswered
    exact hanswered
  obtain ⟨entries, hadds⟩ := loop_adds hstep
  have hno : (call.request.event env).envelopes = [] := by
    cases call.request <;> rfl
  refine ⟨h.loop.step hstep, ?_, h.capacity, h.acked, fun c hc => ?_, ?_, fun hrevert => ?_⟩
  · rw [hadds.arrived, hno, List.append_nil]
    exact h.merges
  · rcases List.mem_or_eq_of_mem_set hc with hc | rfl
    · exact h.answered c hc
    · exact Option.some_ne_none err
  · have hcount := countP_set_add hj (call.take err) Call.served
    have hbefore : call.served = false := by
      rw [Call.served, hreply]
      split <;> simp_all
    rw [hbefore, if_neg Bool.false_ne_true, Nat.add_zero] at hcount
    rw [hadds.log, List.countP_append, hadds.cuts, Request.cuts_event hanswer, hcount, h.cuts]
  · have hmem := List.mem_of_getElem? (getElem?_set_of_some hj (call.take err))
    have hcut : ∀ num, call.request.event env ≠ .revert num := by
      intro num hevent
      cases hrequest : call.request with
      | cutBlock =>
          rw [hrequest] at hevent
          cases hevent
      | revert n => exact Option.some_ne_none err (hrevert _ hmem n hrequest)
    exact hadds.chain hcut (h.chain (hrevert.of_set hj fun _ _ => hreply))

/-- A call of `Broadcast` goes on without the channel. -/
theorem ServiceInv.setBroadcast (h : ServiceInv net cfg l₀ s) {i : ℕ} {b b' : Broadcast}
    {e : BroadcastEvent} (hi : s.broadcasts[i]? = some b) (hstep : b.step e = some b') :
    ServiceInv net cfg l₀ { s with broadcasts := s.broadcasts.set i b' } := by
  obtain ⟨henqueued, hacked⟩ := Broadcast.step_acked (h.acked b (List.mem_of_getElem? hi)) hstep
  obtain ⟨hlt, hget⟩ := List.getElem?_eq_some_iff.mp hi
  refine ⟨h.loop, ?_, h.capacity, fun c hc => ?_, h.answered, h.cuts, h.chain⟩
  · have hsame : (s.broadcasts.set i b').map Broadcast.enqueued =
        s.broadcasts.map Broadcast.enqueued := by
      rw [List.map_set, henqueued, ← hget]
      exact (List.map_set ..).symm.trans (by rw [List.set_getElem_self])
    rw [hsame]
    exact h.merges
  · rcases List.mem_or_eq_of_mem_set hc with hc | rfl
    · exact h.acked c hc
    · exact hacked

/-- An envelope goes into the channel. -/
theorem ServiceInv.enqueue (h : ServiceInv net cfg l₀ s) {i : ℕ} {b : Broadcast}
    {envelope : Proto.Envelope} {inCh : Chan Proto.Envelope} (hi : s.broadcasts[i]? = some b)
    (hpc : b.pc = .enqueuing envelope) (hsend : s.inCh.send envelope = some inCh) :
    ServiceInv net cfg l₀ { s with
      inCh := inCh
      broadcasts := s.broadcasts.set i
        { b with pc := .replying, enqueued := b.enqueued ++ [envelope] } } := by
  obtain ⟨hcapacity, hbuffer⟩ := Chan.send_eq_some.mp hsend
  refine ⟨h.loop, ?_, hcapacity.trans h.capacity, fun c hc => ?_, h.answered, h.cuts, h.chain⟩
  · rw [hbuffer, ← List.append_assoc, List.map_set]
    exact h.merges.push envelope (by rw [List.getElem?_map, hi, Option.map_some])
  · rcases List.mem_or_eq_of_mem_set hc with hc | rfl
    · exact h.acked c hc
    · have hacked := h.acked b (List.mem_of_getElem? hi)
      simp only [Broadcast.Acked, hpc] at hacked
      simp only [Broadcast.Acked, List.length_append, List.length_singleton, hacked]

theorem ServiceInv.connect (h : ServiceInv net cfg l₀ s) :
    ServiceInv net cfg l₀ { s with broadcasts := s.broadcasts ++ [⟨.receiving, [], 0⟩] } := by
  refine ⟨h.loop, ?_, h.capacity, fun c hc => ?_, h.answered, h.cuts, h.chain⟩
  · rw [List.map_append]
    exact h.merges.new
  · rcases List.mem_append.mp hc with hc | hc
    · exact h.acked c hc
    · rw [List.mem_singleton.mp hc]
      rfl

theorem ServiceInv.call (h : ServiceInv net cfg l₀ s) (request : Request) :
    ServiceInv net cfg l₀ { s with calls := s.calls ++ [⟨request, .offering, none⟩] } := by
  refine ⟨h.loop, h.merges, h.capacity, h.acked, fun c hc => ?_, ?_, fun hno => h.chain ?_⟩
  · rcases List.mem_append.mp hc with hc | hc
    · exact h.answered c hc
    · rw [List.mem_singleton.mp hc]
      rfl
  · rw [List.countP_append]
    cases request <;> exact h.cuts
  · exact fun c hc => hno c (List.mem_append_left _ hc)

theorem ServiceInv.step (h : ServiceInv net cfg l₀ s) {e : ServiceEvent}
    (hstep : ServiceStep net cfg s e s') : ServiceInv net cfg l₀ s' := by
  rw [ServiceStep] at hstep
  cases e with
  | connect =>
      cases hstep
      exact h.connect
  | broadcast i e =>
      simp only [Service.step, Option.bind_eq_bind, Option.bind_eq_some_iff, Option.pure_def,
        Option.some.injEq] at hstep
      obtain ⟨b, hi, b', hb', rfl⟩ := hstep
      exact h.setBroadcast hi hb'
  | enqueue i =>
      simp only [Service.step, Option.bind_eq_bind, Option.bind_eq_some_iff] at hstep
      obtain ⟨b, hi, hstep⟩ := hstep
      split at hstep
      · rename_i envelope hpc
        simp only [Option.bind_eq_some_iff, Option.pure_def, Option.some.injEq] at hstep
        obtain ⟨inCh, hsend, rfl⟩ := hstep
        exact h.enqueue hi hpc hsend
      · cases hstep
  | arrive env =>
      simp only [Service.step, Option.bind_eq_bind, Option.bind_eq_some_iff, Option.pure_def,
        Option.some.injEq] at hstep
      obtain ⟨⟨envelope, inCh⟩, hrecv, loop, hloop, rfl⟩ := hstep
      obtain ⟨hcapacity, hbuffer⟩ := Chan.recv_eq_some.mp hrecv
      exact h.turn hloop (fun _ h => by cases h) rfl hcapacity hbuffer
  | expire env =>
      simp only [Service.step, Option.bind_eq_bind, Option.bind_eq_some_iff, Option.pure_def,
        Option.some.injEq] at hstep
      obtain ⟨loop, hloop, rfl⟩ := hstep
      exact h.turn hloop (fun _ h => by cases h) rfl rfl rfl
  | call request =>
      cases hstep
      exact h.call request
  | serve j env =>
      simp only [Service.step, Option.bind_eq_bind, Option.bind_eq_some_iff] at hstep
      obtain ⟨call, hj, hstep⟩ := hstep
      split at hstep
      · rename_i hpc
        simp only [Option.bind_eq_some_iff, Option.pure_def, Option.some.injEq] at hstep
        obtain ⟨err, hanswer, loop, hloop, rfl⟩ := hstep
        exact h.serve hj hpc hanswer hloop
      · cases hstep
  | answer j =>
      simp only [Service.step, Option.bind_eq_bind, Option.bind_eq_some_iff] at hstep
      obtain ⟨call, hj, hstep⟩ := hstep
      split at hstep
      · rename_i err _ hreply
        cases hstep
        refine h.setCall hj ?_
        cases err with
        | none => exact hreply
        | some err => trivial
      · cases hstep
  | cancel j err =>
      simp only [Service.step, Option.bind_eq_bind, Option.bind_eq_some_iff] at hstep
      obtain ⟨call, hj, hstep⟩ := hstep
      split at hstep
      · cases hstep
      · cases hstep
        exact h.setCall hj trivial
  | stop =>
      simp only [Service.step] at hstep
      split at hstep
      · cases hstep
      · cases hstep
        exact ⟨h.loop, h.merges, h.capacity, h.acked, h.answered, h.cuts, h.chain⟩
  | exit =>
      simp only [Service.step] at hstep
      split at hstep
      · obtain ⟨loop, hloop, rfl⟩ := Option.map_eq_some_iff.mp hstep
        exact h.turn hloop (fun _ h => by cases h) rfl rfl rfl
      · cases hstep

/-- What clients of the orderer can rely on. -/
structure Serves (net : Network) (l₀ : Ledger) (s : Service) : Prop where
  /-- A client lags behind with at most one reply. -/
  acknowledged : ∀ b ∈ s.broadcasts, b.acks ≤ b.enqueued.length ∧ b.enqueued.length ≤ b.acks + 1
  /-- What went into the channel is with the loop or still in the channel. -/
  merged : Merges (s.broadcasts.map Broadcast.enqueued) (s.loop.arrived ++ s.inCh.buffer)
  /-- The loop has put it into a block, has dropped it in a revert, or holds it. -/
  conserved : s.loop.log.flatMap (LogEntry.data net) ++ net.dataOf s.loop.batch =
    net.dataOf s.loop.arrived
  /-- At most 64 envelopes are acknowledged and not with the loop. -/
  ahead : (s.broadcasts.map Broadcast.acks).sum ≤ s.loop.arrived.length + 64
  /-- Without a revert the new blocks have the envelopes of every client in their order. -/
  ordered : NoRevert s.calls → ∃ blocks, s.loop.ledger.blocks = l₀.blocks ++ blocks ∧
    ∀ b ∈ s.broadcasts, (net.dataOf b.enqueued).Sublist
      (chainData blocks ++ net.dataOf (s.loop.batch ++ s.inCh.buffer))
  /-- Every answer nil to `cutBlock` stands for a block of its own, received or not. -/
  cuts : s.loop.log.countP LogEntry.isCut = s.calls.countP Call.served
  /-- A call that the loop has taken has its answer, and nil is only returned as an answer. -/
  answered : ∀ call ∈ s.calls, call.Answered

theorem ServiceInv.ahead (h : ServiceInv net cfg l₀ s) :
    (s.broadcasts.map Broadcast.acks).sum ≤ s.loop.arrived.length + 64 := by
  have hlength := h.merges.perm.length_eq
  have hbuffer := s.inCh.bounded
  rw [h.capacity] at hbuffer
  rw [List.length_append, List.length_flatten, List.map_map] at hlength
  have hle : (s.broadcasts.map Broadcast.acks).sum ≤
      (s.broadcasts.map (List.length ∘ Broadcast.enqueued)).sum :=
    List.sum_le_sum fun b hb => (h.acked b hb).bounds.1
  omega

theorem ServiceInv.ordered (h : ServiceInv net cfg l₀ s) (hno : NoRevert s.calls) :
    ∃ blocks, s.loop.ledger.blocks = l₀.blocks ++ blocks ∧
      ∀ b ∈ s.broadcasts, (net.dataOf b.enqueued).Sublist
        (chainData blocks ++ net.dataOf (s.loop.batch ++ s.inCh.buffer)) := by
  obtain ⟨blocks, hblocks, hdata⟩ := h.chain hno
  refine ⟨blocks, hblocks, fun b hb => ?_⟩
  have hsub := (h.merges.sublist (List.mem_map_of_mem hb)).map net.envelopeBytes
  have harrived : chainData blocks ++ net.dataOf (s.loop.batch ++ s.inCh.buffer) =
      net.dataOf (s.loop.arrived ++ s.inCh.buffer) := by
    rw [dataOf_append, dataOf_append, ← h.loop.arrived, hdata, List.append_assoc]
  rw [harrived]
  exact hsub

/-- In every run of the orderer with its clients, the requests for blocks and reverts, and the
shutdown, no envelope that was acknowledged is lost, doubled or moved within its stream, up
to the batches that a revert drops. -/
theorem orderer_keeps_acknowledged
    (h : Reaches (ServiceStep net cfg) Free (newTestOrderer l₀) s) : Serves net l₀ s := by
  have hinv : ServiceInv net cfg l₀ s :=
    h.invariant newTestOrderer_inv fun _ _ _ hinv _ hstep => hinv.step hstep
  exact ⟨fun b hb => (hinv.acked b hb).bounds, hinv.merges, hinv.loop.arrived, hinv.ahead,
    hinv.ordered, hinv.cuts, hinv.answered⟩

end Runs

section Sample

/-- Two clients broadcast an envelope each, and a caller of `cutBlock` is cancelled after the
loop has taken its request. -/
def sampleService : List ServiceEvent :=
  [.connect, .connect, .broadcast 1 (.recv ⟨[], [8]⟩), .broadcast 0 (.recv sampleArrival),
    .enqueue 1, .enqueue 0, .broadcast 1 .send, .arrive sampleEnv, .call .cutBlock,
    .serve 0 sampleEnv, .cancel 0 [], .arrive sampleEnv, .broadcast 0 .send]

theorem orderer_keeps_acknowledged_sample :
    ∃ s, s.loop.ledger.height = 3 ∧ s.broadcasts.map Broadcast.acks = [1, 1] ∧
      Serves sampleFabric (sampleLedger none) s := by
  have hrun : (sampleService.foldlM (Service.step sampleFabric ⟨5, 2⟩)
      (newTestOrderer (sampleLedger none))).map (fun s =>
        (s.loop.ledger.height, s.broadcasts.map Broadcast.acks)) = some (3, [1, 1]) := by
    rfl
  obtain ⟨s, hs, hpair⟩ := Option.map_eq_some_iff.mp hrun
  obtain ⟨hheight, hacks⟩ := Prod.mk.inj hpair
  exact ⟨s, hheight, hacks, orderer_keeps_acknowledged (Reaches.of_foldlM sampleService hs)⟩

end Sample

end FabricXSdk.FabricTest

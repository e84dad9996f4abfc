import FabricXSdk.FabricTest.Client
import FabricXSdk.FabricTest.Gapless
import FabricXSdk.Network.Resume
import FabricXSdk.Network.SeekInfo

/-!
# A synchronizer on the test network

A synchronizer with its processor and its store, connected to a peer of the test network:
the loop reads the height of the store, sends a request for the next block, and processes
the blocks that the `Deliver` call of the peer sends, while the ledger commits blocks and
other clients come and go. The store holds what the ledger has committed so far, up to a
block, and once it has caught up it answers as the world state of the ledger.

## Implementation notes

The steps are those of the synchronizer and those of the peer, joined at the request and at
the blocks. The synchronizer is modelled on a chain of blocks by number; here it processes
the blocks that arrive. `call` is the `Deliver` call of the subscription, with the number of
blocks received from it; leaving `SubscribeBlocks` for whatever reason abandons the call.
-/

namespace FabricXSdk.Network

open Golang Blocks State Transition Protobuf
open FabricTest (Peer PeerEvent PeerInv HasRoom Numbered Produced SameAnswers Kept)

/-- A client of the test network with a store at one position of its handlers. -/
structure Follower where
  net : FabricTest.Network
  seek : Codec DeliverSeekInfo
  submitter : Option Endorsement.Signer
  channel : GoString
  handlers : ℕ
  position : ℕ
  position_lt : position < handlers

namespace Follower

section Model

/-- A block with nothing but its number, for those that the chain does not have. -/
def blank (n : ℕ) : Proto.Block := ⟨some ⟨n, [], []⟩, none, none⟩

def blockAt (chain : List Proto.Block) (n : ℕ) : Proto.Block :=
  match chain[n]? with
  | some b => if b.header.map Proto.BlockHeader.number = some n then b else blank n
  | none => blank n

theorem blockAt_number (chain : List Proto.Block) (n : ℕ) :
    ∃ header, (blockAt chain n).header = some header ∧ header.number = n := by
  rw [blockAt]
  split
  · split
    · rename_i hnumber
      exact Option.map_eq_some_iff.mp hnumber
    · exact ⟨_, rfl, rfl⟩
  · exact ⟨_, rfl, rfl⟩

variable (f : Follower)

/-- The client on a chain that is known in advance. -/
def setup (chain : List Proto.Block) : Setup where
  codecs := f.net.codecs
  hash := f.net.headerHash
  parser := f.net.parser
  channel := f.channel
  handlers := f.handlers
  position := f.position
  position_lt := f.position_lt
  chain := blockAt chain
  chain_number := blockAt_number chain

/-- The store, and the processor on a block that has arrived. -/
def receiving (block : Proto.Block) : Backend Node Fate where
  height := (f.setup []).backend.height
  process := fun fate n node =>
    processBlock ((f.setup []).parse fate.now)
      ((List.range' 0 f.handlers).map ((f.setup []).handlerAt fate)) block
      { node with delivered := node.delivered ++ [n] }

structure State where
  sync : System Node
  peer : Peer
  call : Option (ℕ × ℕ)

/-- A new synchronizer on an empty store, and a ledger that nobody reads yet. -/
def init (l : FabricTest.Ledger) : State := ⟨Setup.init, ⟨l, []⟩, none⟩

inductive Event
  | peer (e : PeerEvent)
  | sync (a : Label Fate)
  | connect (rand : Except Text Bytes) (now : Int)
  | deliver (fate : Fate)

inductive Step : State → Event → State → Prop
  -- the ledger, the streams, and other clients
  | peer {s e peer'} : s.peer.step f.net (startOnly f.seek) e = some peer' →
      Step s (.peer e) { s with peer := peer' }
  -- the synchronizer apart from its stream
  | sync {s a sync'} : (∀ fate, a ≠ .process fate) →
      Network.Step (f.receiving (blank 0)) s.sync a sync' →
      Step s (.sync a)
        { s with sync := sync', call := if sync'.sync.pc = s.sync.sync.pc then s.call else none }
  -- `SubscribeBlocks` sends its request
  | connect {s n rand now env peer'} : s.sync.sync.pc = .streaming n → s.call = none →
      newDeliverSeekInfo f.net.codecs f.seek f.submitter rand now f.channel n = .ok env →
      s.peer.step f.net (startOnly f.seek) (.subscribe env) = some peer' →
      Step s (.connect rand now)
        { s with peer := peer', call := some (s.peer.streams.length, 0) }
  -- and processes what it receives
  | deliver {s i received st block fate sync'} : s.call = some (i, received) →
      s.peer.streams[i]? = some st → st.sent[received]? = some block →
      Network.Step (f.receiving block) s.sync (.process fate) sync' →
      Step s (.deliver fate) { s with sync := sync', call := some (i, received + 1) }

/-- A commit finds room in the channel of the stream that the client reads. -/
def KeepsUp (s : State) : Event → Prop
  | .peer e => ∀ i received, s.call = some (i, received) → HasRoom i s.peer e
  | _ => True

/-- The store has the content of these blocks, the first ones of the ledger. -/
structure Tracks (s : State) (bs : List Block) : Prop where
  parsed : ∀ (i : ℕ) b, bs[i]? = some b →
    ∃ fbl now, s.peer.ledger.blocks[i]? = some fbl ∧ f.net.parse now fbl = .ok b
  /-- Behind the genesis block they are the blocks that the ledger has applied. -/
  outcomes : ∃ applied, FabricTest.Produced f.net s.peer.ledger applied ∧
    ∀ (i : ℕ) b, bs[i + 1]? = some b →
      ∃ bl, applied[i]? = some bl ∧ FabricTest.SameOutcome bl b
  content : bs.foldlM (updateWorldState f.channel []) Database.empty = .ok s.sync.store.db
  height : blockNumber f.channel none s.sync.store.db = .ok (bs.length - 1)
  /-- With all blocks of the ledger it answers as the world state of the ledger. -/
  caughtUp : bs.length = s.peer.ledger.height → ∃ db, s.peer.ledger.db = some db ∧
    SameAnswers FabricTest.channel db f.channel s.sync.store.db

end Model

section Chain

variable {f : Follower} {chain : List Proto.Block} {b : Proto.Block} {n : ℕ}

theorem blockAt_of_getElem? (hchain : Numbered chain) (h : chain[n]? = some b) :
    blockAt chain n = b := by
  simp only [blockAt, h, hchain n b h, if_pos]

/-- The blocks that were there stay where they are. -/
theorem blockAt_append (hlt : n < chain.length) (rest : List Proto.Block) :
    blockAt (chain ++ rest) n = blockAt chain n := by
  rw [blockAt, blockAt, List.getElem?_append_left hlt]

theorem getElem?_of_parsed {now : Int} {bl : Block} (hlt : n < chain.length)
    (hchain : Numbered chain) (h : (f.setup chain).parse now ((f.setup chain).chain n) = .ok bl) :
    ∃ fbl, chain[n]? = some fbl ∧ f.net.parse now fbl = .ok bl := by
  have hn := List.getElem?_eq_getElem hlt
  refine ⟨chain[n], hn, ?_⟩
  have hblock : (f.setup chain).chain n = chain[n] := blockAt_of_getElem? hchain hn
  rw [hblock] at h
  exact h

theorem backend_height (f : Follower) (chain : List Proto.Block) (block : Proto.Block) :
    (f.setup chain).backend.height = (f.receiving block).height := rfl

/-- The block at the position of the loop is processed as if the chain were known. -/
theorem backend_process {block : Proto.Block} (h : blockAt chain n = block) (fate : Fate)
    (node : Node) :
    (f.setup chain).backend.process fate n node = (f.receiving block).process fate n node := by
  rw [← h]
  rfl

/-- What the store holds does not depend on the blocks to come. -/
theorem synced_append {sync : System Node} {bs : List Block}
    (hs : Synced (f.setup chain) sync bs) (hle : bs.length ≤ chain.length)
    (rest : List Proto.Block) : Synced (f.setup (chain ++ rest)) sync bs where
  holds := by
    refine ⟨fun i bl hi => ?_, hs.holds.content, hs.holds.refines, hs.holds.small⟩
    obtain ⟨now, hparse⟩ := hs.holds.parsed i bl hi
    have hlt : i < chain.length := (List.getElem?_eq_some_iff.mp hi).choose.trans_le hle
    have hblock : (f.setup (chain ++ rest)).chain i = (f.setup chain).chain i :=
      blockAt_append hlt rest
    refine ⟨now, ?_⟩
    rw [hblock]
    exact hparse
  positioned := hs.positioned
  once := hs.once

end Chain

end Follower

/-- A step only depends on the store through its height, and on the processor through what
it does with the next block. -/
theorem Step.congr {σ Fate : Type} {b b' : Backend σ Fate} {s t : System σ} {a : Label Fate}
    (hheight : b'.height = b.height)
    (hprocess : ∀ fate n, a = .process fate → s.sync.pc = .streaming n →
      b'.process fate n s.store = b.process fate n s.store)
    (h : Step b s a t) : Step b' s a t := by
  cases h with
  | start h => exact .start h
  | alreadyStarted h => exact .alreadyStarted h
  | cancel => exact .cancel
  | leave h hdone => exact .leave h hdone
  | proceed h hdone => exact .proceed h hdone
  | readHeight h hn => exact .readHeight h (hheight ▸ hn)
  | readFailed h herr => exact .readFailed h (hheight ▸ herr)
  | subscribe h => exact .subscribe h
  | deliver h hout => exact .deliver h ((hprocess _ _ rfl h).trans hout)
  | processFailed h hout => exact .processFailed h ((hprocess _ _ rfl h).trans hout)
  | crash h hout => exact .crash h ((hprocess _ _ rfl h).trans hout)
  | streamFailed err h => exact .streamFailed err h
  | streamEnd h => exact .streamEnd h
  | giveUp h hdone => exact .giveUp h hdone
  | persist h hdone => exact .persist h hdone
  | retry h => exact .retry h
  | wake h => exact .wake h
  | interrupt h hdone => exact .interrupt h hdone
  | stop h => exact .stop h
  | join h hall => exact .join h hall
  | close h => exact .close h
  | tick h => exact .tick h
  | monitorExit h hdone => exact .monitorExit h hdone
  | peerHeight n h => exact .peerHeight n h
  | peerFailed h => exact .peerFailed h
  | localHeight h hn => exact .localHeight h (hheight ▸ hn)
  | localFailed h herr => exact .localFailed h (hheight ▸ herr)
  | ready h => exact .ready h
  | restart => exact .restart

/-- A step with a block is a call of `ProcessBlock`. -/
theorem step_process {σ Fate : Type} {b : Backend σ Fate} {s t : System σ} {fate : Fate}
    (h : Step b s (.process fate) t) :
    ∃ n out, s.sync.pc = .streaming n ∧ b.process fate n s.store = (out, t.store) ∧
      (out = .ok () ∧ t.sync.pc = .streaming (n + 1) ∨ out ≠ .ok () ∧ t.sync.pc.Away) := by
  cases h with
  | deliver hpc hout => exact ⟨_, _, hpc, hout, Or.inl ⟨rfl, rfl⟩⟩
  | processFailed hpc hout =>
      exact ⟨_, _, hpc, hout, Or.inr ⟨nofun, away_of_ne (by simp) (by simp)⟩⟩
  | crash hpc hout => exact ⟨_, _, hpc, hout, Or.inr ⟨nofun, away_of_ne (by simp) (by simp)⟩⟩

/-- A call of `ProcessBlock` adds at most the block it was made with. -/
theorem Ran.length_le {p : Setup} {fate : Fate} {n j k : ℕ} {bs bs' : List Block}
    {node node' : Node} {ok : Prop} (h : Ran p fate n 0 j k bs bs' node node' ok) {height : ℕ}
    (hbs : bs.length ≤ height) (hn : n < height) : bs'.length ≤ height := by
  by_cases hj : p.position < j
  · obtain ⟨_, rfl | ⟨hlength, b, rfl⟩⟩ := h.stored (Nat.zero_le _) (by omega)
    · exact hbs
    · rw [List.length_append, List.length_singleton, ← hlength]
      exact hn
  · rw [h.skipped (by omega)]
    exact hbs

section PeerSteps

open FabricTest (Stream)

variable {net : FabricTest.Network} {seekInfo : Codec FabricTest.SeekInfo} {s s' : Peer}
  {e : PeerEvent} {i : ℕ} {st st' : Stream}

theorem notify_startBlock (block : Proto.Block) (st : Stream) :
    (st.notify block).startBlock = st.startBlock := by
  rw [Stream.notify]
  split <;> rfl

theorem forward_startBlock {err : Option Text} {block : Proto.Block}
    (h : st.forward err block = .ok st') : st'.startBlock = st.startBlock := by
  unfold Stream.forward at h
  obtain ⟨header, _, h⟩ := Outcome.bind_eq_ok.mp h
  split at h
  · cases h
    rfl
  · split at h <;> cases h <;> rfl

/-- The streams that are open stay, with the block they started from. -/
theorem step_startBlock (h : s.step net seekInfo e = some s') (hst : s.streams[i]? = some st) :
    ∃ st', s'.streams[i]? = some st' ∧ st'.startBlock = st.startBlock := by
  cases e with
  | commit env batch =>
      rw [Peer.step] at h
      split at h
      · obtain ⟨block, _, rfl⟩ := Option.map_eq_some_iff.mp h
        exact ⟨_, by rw [List.getElem?_map, hst, Option.map_some], notify_startBlock block st⟩
      · cases h
  | subscribe env =>
      rw [Peer.step] at h
      split at h
      · cases h
        exact ⟨st, getElem?_concat_eq_some.mpr (Or.inl hst), rfl⟩
      · cases h
  | turn j err =>
      rw [Peer.step] at h
      split at h
      · rename_i st₁ hnext
        cases h
        obtain ⟨st₀, hst₀, hnext⟩ := Option.bind_eq_some_iff.mp hnext
        by_cases hij : i = j
        · subst hij
          obtain rfl := Option.some.inj (hst.symm.trans hst₀)
          refine ⟨st₁, (getElem?_set_eq_some hst).mpr (Or.inl ⟨rfl, rfl⟩), ?_⟩
          obtain ⟨_, ⟨b, existing, sub, _, hforward⟩ | ⟨_, hst₁⟩⟩ := FabricTest.next_eq_some hnext
          · have hstart := forward_startBlock hforward.symm
            exact hstart
          · cases hst₁
            rfl
        · exact ⟨st, (getElem?_set_eq_some hst₀).mpr (Or.inr ⟨Ne.symm hij, hst⟩), rfl⟩
      · cases h
  | close =>
      cases h
      refine ⟨st.close s.ledger.blocks.length, ?_, rfl⟩
      rw [List.getElem?_map, hst, Option.map_some]

/-- Only a commit changes the ledger. -/
theorem step_ledger (h : s.step net seekInfo e = some s') :
    s'.ledger = s.ledger ∨ ∃ env batch bl fbl, net.prepare env s.ledger batch = .ok (bl, fbl) ∧
      net.process env s.ledger batch = (.ok (), s'.ledger) := by
  cases e with
  | commit env batch =>
      rw [Peer.step] at h
      split at h
      · rename_i hprocess
        obtain ⟨block, _, rfl⟩ := Option.map_eq_some_iff.mp h
        obtain ⟨bl, fbl, hprepare, _⟩ := FabricTest.process_eq_ok.mp hprocess
        exact Or.inr ⟨env, batch, bl, fbl, hprepare, hprocess⟩
      · cases h
  | subscribe env =>
      rw [Peer.step] at h
      split at h <;> cases h
      exact Or.inl rfl
  | turn j err =>
      rw [Peer.step] at h
      split at h <;> cases h
      exact Or.inl rfl
  | close =>
      cases h
      exact Or.inl rfl

/-- A request for a block opens a stream that starts with it. -/
theorem step_subscribe {env : Proto.Envelope} {n : ℕ}
    (hparse : FabricTest.parseStartBlock net.codecs seekInfo env = (n, false))
    (hwf : FabricTest.WellFormed net s.ledger)
    (h : s.step net seekInfo (.subscribe env) = some s') :
    ∃ st, s' = { s with streams := s.streams ++ [st] } ∧ st.startBlock = n ∧
      FabricTest.Follows s.ledger.blocks st := by
  rw [Peer.step, hparse] at h
  split at h
  · rename_i st hopen
    cases h
    refine ⟨st, rfl, ?_, FabricTest.openStream_follows hopen hwf.numbered⟩
    cases hopen
    rfl
  · cases h

end PeerSteps

namespace Follower

section Runs

variable {f : Follower} {s s' : State} {e : Event} {applied bs : List Block}

/-- The call reads the blocks from where the loop is. -/
structure Reads (f : Follower) (s : State) (i received : ℕ) : Prop where
  inv : PeerInv f.net i s.peer
  position : ∃ st, s.peer.streams[i]? = some st ∧
    ∀ n, s.sync.sync.pc = .streaming n → n = st.startBlock + received

structure FollowerInv (f : Follower) (s : State) (applied bs : List Block) : Prop where
  produced : Produced f.net s.peer.ledger applied
  wellFormed : FabricTest.WellFormed f.net s.peer.ledger
  reads : ∀ i received, s.call = some (i, received) → Reads f s i received
  synced : Synced (f.setup s.peer.ledger.blocks) s.sync bs
  length : bs.length ≤ s.peer.ledger.blocks.length

theorem init_inv {l : FabricTest.Ledger} (hnew : f.net.newLedger (some Database.empty) = .ok l) :
    FollowerInv f (init l) [] [] where
  produced := .genesis hnew
  wellFormed := FabricTest.newLedger_wellFormed hnew
  reads := nofun
  synced := synced_init _
  length := Nat.zero_le _

/-- The loop goes on without a block. -/
theorem FollowerInv.sync (h : FollowerInv f s applied bs) {a : Label Fate} {sync' : System Node}
    (ha : ∀ fate, a ≠ .process fate)
    (hstep : Network.Step (f.receiving (blank 0)) s.sync a sync') :
    ∃ bs', FollowerInv f { s with
      sync := sync', call := if sync'.sync.pc = s.sync.sync.pc then s.call else none }
      applied bs' := by
  have hstep' := hstep.congr (f.backend_height s.peer.ledger.blocks _)
    fun fate _ hfate _ => absurd hfate (ha fate)
  rcases h.synced.step_cases hstep' with ⟨_, hsynced⟩ | ⟨fate, _, _, hfate, _⟩
  · refine ⟨bs, h.produced, h.wellFormed, fun i received hcall => ?_, hsynced, h.length⟩
    simp only at hcall
    split at hcall
    · rename_i hpc
      obtain ⟨hinv, st, hst, hposition⟩ := h.reads i received hcall
      exact ⟨hinv, st, hst, fun n hn => hposition n (hpc ▸ hn)⟩
    · cases hcall
  · exact absurd hfate (ha fate)

/-- The block received is the one at the position of the loop. -/
theorem FollowerInv.received (h : FollowerInv f s applied bs) {i received n : ℕ}
    {st : FabricTest.Stream} {block : Proto.Block} (hcall : s.call = some (i, received))
    (hst : s.peer.streams[i]? = some st) (hblock : st.sent[received]? = some block)
    (hpc : s.sync.sync.pc = .streaming n) : s.peer.ledger.blocks[n]? = some block := by
  obtain ⟨hinv, st', hst', hposition⟩ := h.reads i received hcall
  obtain rfl := Option.some.inj (hst.symm.trans hst')
  obtain ⟨rest, hrest⟩ := (hinv.follows st hst).sent
  rw [hposition n hpc, ← List.getElem?_drop, ← hrest,
    List.getElem?_append_left (List.getElem?_eq_some_iff.mp hblock).choose]
  exact hblock

/-- A block is processed: the store takes it, or the loop leaves the stream. -/
theorem FollowerInv.deliver (h : FollowerInv f s applied bs) {i received : ℕ}
    {st : FabricTest.Stream} {block : Proto.Block} {fate : Fate} {sync' : System Node}
    (hcall : s.call = some (i, received)) (hst : s.peer.streams[i]? = some st)
    (hblock : st.sent[received]? = some block)
    (hstep : Network.Step (f.receiving block) s.sync (.process fate) sync') :
    ∃ bs', FollowerInv f { s with sync := sync', call := some (i, received + 1) } applied bs' := by
  obtain ⟨n, out, hpc, hout, ht⟩ := step_process hstep
  have hn := h.received hcall hst hblock hpc
  rw [← backend_process (blockAt_of_getElem? h.wellFormed.numbered hn)] at hout
  obtain ⟨j, bs', hran, hsynced⟩ := h.synced.process hpc hout ht
  refine ⟨bs', h.produced, h.wellFormed, fun i' received' hcall' => ?_, hsynced,
    hran.length_le h.length (List.getElem?_eq_some_iff.mp hn).choose⟩
  cases hcall'
  obtain ⟨hinv, st', hst', hposition⟩ := h.reads i received hcall
  refine ⟨hinv, st', hst', fun m hm => ?_⟩
  rcases ht with ⟨_, hnext⟩ | ⟨_, haway⟩
  · obtain rfl : n + 1 = m := LoopPc.streaming.inj (hnext.symm.trans hm)
    rw [hposition n hpc, Nat.add_assoc]
  · exact absurd hm (haway m).2

/-- The ledger grows, or other clients come and go. -/
theorem FollowerInv.peer (h : FollowerInv f s applied bs) {e : PeerEvent} {peer' : Peer}
    (hkeeps : KeepsUp s (.peer e))
    (hstep : s.peer.step f.net (startOnly f.seek) e = some peer') :
    ∃ more, FollowerInv f { s with peer := peer' } (applied ++ more) bs := by
  have hreads : ∀ i received, s.call = some (i, received) →
      Reads f { s with peer := peer' } i received := by
    intro i received hcall
    obtain ⟨hinv, st, hst, hposition⟩ := h.reads i received hcall
    obtain ⟨st', hst', hstart⟩ := step_startBlock hstep hst
    refine ⟨hinv.step (hkeeps i received hcall) hstep, st', hst', fun n hn => ?_⟩
    rw [hstart]
    exact hposition n hn
  rcases step_ledger hstep with hledger | ⟨env, batch, bl, fbl, hprepare, hprocess⟩
  · refine ⟨[], ?_, ?_, hreads, ?_, ?_⟩ <;> rw [hledger]
    · rw [List.append_nil]
      exact h.produced
    · exact h.wellFormed
    · exact h.synced
    · exact h.length
  · obtain ⟨block, hblocks, _⟩ := FabricTest.process_appends hprocess
    have hwf := FabricTest.process_wellFormed h.wellFormed env batch
    rw [hprocess] at hwf
    refine ⟨[bl], h.produced.process hprepare hprocess, hwf, hreads, ?_, ?_⟩ <;>
      rw [hblocks]
    · exact synced_append h.synced h.length [block]
    · rw [List.length_append]
      exact h.length.trans (Nat.le_add_right _ _)

/-- A new call starts at the position of the loop. -/
theorem FollowerInv.connect (h : FollowerInv f s applied bs) (hc : f.net.codecs.Lawful)
    (hseek : f.seek.Lawful DeliverSeekInfo.Encodable) {n : ℕ} {rand : Except Text Bytes}
    {now : Int} {env : Proto.Envelope} {peer' : Peer} (hpc : s.sync.sync.pc = .streaming n)
    (henv : newDeliverSeekInfo f.net.codecs f.seek f.submitter rand now f.channel n = .ok env)
    (hstep : s.peer.step f.net (startOnly f.seek) (.subscribe env) = some peer') :
    FollowerInv f { s with peer := peer', call := some (s.peer.streams.length, 0) }
      applied bs := by
  obtain ⟨st, rfl, hstart, hfollows⟩ :=
    step_subscribe (parseStartBlock_newDeliverSeekInfo hc hseek henv) h.wellFormed hstep
  refine ⟨h.produced, h.wellFormed, fun i received hcall => ?_, h.synced, h.length⟩
  cases hcall
  refine ⟨⟨h.wellFormed, fun st' hst' => ?_⟩, st, List.getElem?_concat_length, fun m hm => ?_⟩
  · rw [List.getElem?_concat_length, Option.some.injEq] at hst'
    rw [← hst']
    exact hfollows
  · rw [hstart, Nat.add_zero]
    exact (LoopPc.streaming.inj (hpc.symm.trans hm)).symm

theorem FollowerInv.step (h : FollowerInv f s applied bs) (hc : f.net.codecs.Lawful)
    (hseek : f.seek.Lawful DeliverSeekInfo.Encodable) (hkeeps : KeepsUp s e)
    (hstep : f.Step s e s') : ∃ more bs', FollowerInv f s' (applied ++ more) bs' := by
  have hquiet : ∀ {t : State}, (∃ bs', FollowerInv f t applied bs') →
      ∃ more bs', FollowerInv f t (applied ++ more) bs' := by
    rintro t ⟨bs', ht⟩
    exact ⟨[], bs', (List.append_nil applied).symm ▸ ht⟩
  cases hstep with
  | peer hpeer =>
      obtain ⟨more, h'⟩ := h.peer hkeeps hpeer
      exact ⟨more, bs, h'⟩
  | sync ha hsync => exact hquiet (h.sync ha hsync)
  | connect hpc _ henv hsub => exact hquiet ⟨bs, h.connect hc hseek hpc henv hsub⟩
  | deliver hcall hst hblock hsync => exact hquiet (h.deliver hcall hst hblock hsync)

/-- The ledger goes on from the blocks it has applied. -/
theorem FollowerInv.reaches (h : FollowerInv f s applied bs) (hc : f.net.codecs.Lawful)
    (hseek : f.seek.Lawful DeliverSeekInfo.Encodable) (hrun : Reaches f.Step KeepsUp s s') :
    ∃ more bs', FollowerInv f s' (applied ++ more) bs' := by
  apply hrun.invariant ⟨[], bs, (List.append_nil applied).symm ▸ h⟩
  rintro t e t' ⟨more, bs', ht⟩ hkeeps hstep
  obtain ⟨more', bs'', ht'⟩ := ht.step hc hseek hkeeps hstep
  rw [List.append_assoc] at ht'
  exact ⟨more ++ more', bs'', ht'⟩

theorem FollowerInv.parsed (h : FollowerInv f s applied bs) (i : ℕ) (b : Block)
    (hb : bs[i]? = some b) :
    ∃ fbl now, s.peer.ledger.blocks[i]? = some fbl ∧ f.net.parse now fbl = .ok b := by
  obtain ⟨now, hparse⟩ := h.synced.holds.parsed i b hb
  obtain ⟨fbl, hfbl, hparse⟩ := getElem?_of_parsed
    ((List.getElem?_eq_some_iff.mp hb).choose.trans_le h.length) h.wellFormed.numbered hparse
  exact ⟨fbl, now, hfbl, hparse⟩

/-- A block of the store behind the genesis block has the outcome of a block that the ledger
has applied. -/
theorem FollowerInv.sameOutcome (h : FollowerInv f s applied bs) {genesis : Proto.Block}
    {stored : List Proto.Block} {db : Database}
    (hkept : Kept f.net s.peer.ledger applied genesis stored db) {i : ℕ} {b : Block}
    (hb : bs[i + 1]? = some b) : ∃ bl, applied[i]? = some bl ∧ FabricTest.SameOutcome bl b := by
  obtain ⟨fbl, now, hfbl, hparse⟩ := h.parsed (i + 1) b hb
  rw [hkept.chain, List.getElem?_cons_succ] at hfbl
  obtain ⟨hlength, hothers⟩ := List.forall₂_iff_get.mp hkept.others
  obtain ⟨hlt, hget⟩ := List.getElem?_eq_some_iff.mp hfbl
  have hlt' : i < applied.length := hlength ▸ hlt
  obtain ⟨bl', hbl', hsame⟩ := hothers i hlt' hlt now
  rw [List.get_eq_getElem, hget, hparse] at hbl'
  cases hbl'
  exact ⟨_, List.getElem?_eq_getElem hlt', hsame⟩

/-- The store has the writes of the first blocks that the ledger has applied; the genesis
block has none. -/
theorem FollowerInv.writesTo_eq (h : FollowerInv f s applied bs) (hc : f.net.codecs.LawfulConfig)
    (ns key : GoString) : writesTo bs ns key = writesTo (applied.take (bs.length - 1)) ns key := by
  obtain ⟨genesis, stored, db, hkept⟩ := h.produced.kept hc
  cases bs with
  | nil => rfl
  | cons first rest =>
      obtain ⟨fbl, now, hfbl, hparse⟩ := h.parsed 0 first rfl
      rw [hkept.chain] at hfbl
      cases hfbl
      obtain ⟨bl, hbl, hfirst⟩ := hkept.first now
      rw [hparse] at hbl
      cases hbl
      have hlength : rest.length ≤ applied.length := by
        have hle := h.length
        rw [hkept.chain, List.length_cons, List.length_cons, ← hkept.others.length_eq] at hle
        omega
      have hrest : List.Forall₂ FabricTest.SameOutcome (applied.take rest.length) rest := by
        refine List.forall₂_iff_get.mpr ⟨by simpa using hlength, fun i hi hi' => ?_⟩
        obtain ⟨bl, hbl, hsame⟩ := h.sameOutcome hkept (i := i) (List.getElem?_eq_getElem hi')
        rw [List.get_eq_getElem, List.getElem_take, (List.getElem?_eq_some_iff.mp hbl).choose_spec]
        exact hsame
      rw [writesTo, List.flatMap_cons, blockWrites, hfirst.transactions]
      exact FabricTest.writesTo_of_sameOutcome hrest ns key

/-- A store that has all blocks of the ledger, or all but the genesis block. -/
theorem FollowerInv.history_eq (h : FollowerInv f s applied bs) (hc : f.net.codecs.LawfulConfig)
    (hlength : bs.length - 1 = s.peer.ledger.height - 1) (ns key : GoString) :
    history bs ns key = history applied ns key := by
  obtain ⟨genesis, stored, db, hkept⟩ := h.produced.kept hc
  have htake : applied.take (bs.length - 1) = applied := by
    rw [hlength, FabricTest.Ledger.height, hkept.chain, List.length_cons, Nat.add_sub_cancel,
      ← hkept.others.length_eq, List.take_length]
  rw [history, h.writesTo_eq hc, htake, history]

theorem FollowerInv.caughtUp (h : FollowerInv f s applied bs) (hc : f.net.codecs.LawfulConfig)
    (hlength : bs.length = s.peer.ledger.height) : ∃ db, s.peer.ledger.db = some db ∧
      SameAnswers FabricTest.channel db f.channel s.sync.store.db := by
  obtain ⟨genesis, stored, db, hkept⟩ := h.produced.kept hc
  exact ⟨db, hkept.ownDb, FabricTest.sameAnswers_of_history hkept.accepted.refines
    h.synced.holds.refines (h.history_eq hc (congrArg (· - 1) hlength))⟩

/-- However the synchronizer, its store, the ledger and the streams of the peer take turns,
the store holds the first blocks of the ledger with the outcomes that the ledger gave their
transactions. A store that has caught up answers every query as the ledger does. -/
theorem store_tracks_ledger (f : Follower) (hc : f.net.codecs.LawfulConfig)
    (hseek : f.seek.Lawful DeliverSeekInfo.Encodable) {l : FabricTest.Ledger}
    (hnew : f.net.newLedger (some Database.empty) = .ok l)
    (h : Reaches f.Step KeepsUp (init l) s) : ∃ bs, f.Tracks s bs := by
  obtain ⟨applied, bs, hinv⟩ := (init_inv hnew).reaches hc.toLawful hseek h
  rw [List.nil_append] at hinv
  obtain ⟨genesis, stored, db, hkept⟩ := hinv.produced.kept hc
  refine ⟨bs, hinv.parsed, ⟨applied, hinv.produced, fun i b => hinv.sameOutcome hkept⟩,
    hinv.synced.holds.content, ?_, hinv.caughtUp hc⟩
  have hheight : blockNumber f.channel none s.sync.store.db = .ok _ := rfl
  rw [hheight]
  exact congrArg Except.ok (hinv.synced.holds.height hheight)

end Runs

section Sample

open FabricTest (sampleFabricX sampleLedger sampleEnv sampleBatch sampleProduced)

def sampleFollower : Follower where
  net := sampleFabricX
  seek := deliverSeekInfoBody.codec
  submitter := none
  channel := [99]
  handlers := 1
  position := 0
  position_lt := Nat.one_pos

/-- The loop moves on by itself. -/
theorem reaches_internal {f : Follower} {s₀ s : State} {sync' : System Node}
    (h : Reaches f.Step KeepsUp s₀ s)
    (hstep : Network.Step (f.receiving (blank 0)) s.sync .internal sync')
    (hpc : sync'.sync.pc ≠ s.sync.sync.pc) :
    Reaches f.Step KeepsUp s₀ ⟨sync', s.peer, none⟩ := by
  have hnext : f.Step s (.sync .internal) { s with
      sync := sync', call := if sync'.sync.pc = s.sync.sync.pc then s.call else none } :=
    .sync (fun _ h => by cases h) hstep
  rw [if_neg hpc] at hnext
  have hkeeps : KeepsUp s (.sync .internal) := trivial
  exact h.step hkeeps hnext

/-- The loop reads the height of its store and goes to the stream. -/
theorem reaches_streaming {f : Follower} {s₀ : State} {node : Node} {peer : Peer}
    (h : Reaches f.Step KeepsUp s₀ ⟨⟨Sync.init, node⟩, peer, none⟩) {last : ℕ}
    (hheight : (f.receiving (blank 0)).height none node = .ok last) :
    ∃ sync : Sync, sync.pc = .streaming (startBlock last) ∧
      Reaches f.Step KeepsUp s₀ ⟨⟨sync, node⟩, peer, none⟩ := by
  have htop := reaches_internal h (.start rfl) (by simp [Sync.init])
  have hreading := reaches_internal htop (.proceed rfl rfl) (by simp)
  have hread := reaches_internal hreading (.readHeight rfl hheight) (by simp)
  exact ⟨_, rfl, reaches_internal hread (.subscribe rfl) (by simp)⟩

/-- The loop processes the next block of its call. -/
theorem reaches_deliver {f : Follower} {s₀ : State} {sync : Sync} {node : Node} {peer : Peer}
    {i received n : ℕ} {st : FabricTest.Stream} {block : Proto.Block}
    (h : Reaches f.Step KeepsUp s₀ ⟨⟨sync, node⟩, peer, some (i, received)⟩)
    (hpc : sync.pc = .streaming n) (hst : peer.streams[i]? = some st)
    (hblock : st.sent[received]? = some block) (fate : Fate)
    (hok : ((f.receiving block).process fate n node).1 = .ok ()) :
    ∃ sync' : Sync, sync'.pc = .streaming (n + 1) ∧ Reaches f.Step KeepsUp s₀
      ⟨⟨sync', ((f.receiving block).process fate n node).2⟩, peer, some (i, received + 1)⟩ := by
  have hkeeps : KeepsUp ⟨⟨sync, node⟩, peer, some (i, received)⟩ (.deliver fate) := trivial
  exact ⟨_, rfl, h.step hkeeps (.deliver rfl hst hblock (.deliver hpc (Prod.ext hok rfl)))⟩

/-- A stream from block zero on the ledger of the sample, with this many blocks sent. -/
def sampleStream (sent : ℕ) : FabricTest.Stream where
  startBlock := 0
  existing := sampleProduced.blocks.drop sent
  sub := Channel.Chan.make 10
  closedAt := none
  sent := sampleProduced.blocks.take sent
  returned := none

def sampleNode : Node :=
  ((sampleFollower.receiving (blockAt sampleProduced.blocks 1)).process sampleFate 1
    ((sampleFollower.receiving (blockAt sampleProduced.blocks 0)).process sampleFate 0
      Setup.init.store).2).2

theorem sampleNode_reached : ∃ sync, Reaches sampleFollower.Step KeepsUp
    (init (sampleLedger (some Database.empty)))
    ⟨⟨sync, sampleNode⟩, ⟨sampleProduced, [sampleStream 2]⟩, some (0, 2)⟩ := by
  have hcommit : Reaches sampleFollower.Step KeepsUp (init (sampleLedger (some Database.empty)))
      ⟨Setup.init, ⟨sampleProduced, []⟩, none⟩ :=
    Reaches.refl.step (a := .peer (.commit sampleEnv sampleBatch)) nofun (.peer rfl)
  obtain ⟨sync, hpc, hstreaming⟩ := reaches_streaming hcommit rfl
  have hconnect : Reaches sampleFollower.Step KeepsUp (init (sampleLedger (some Database.empty)))
      ⟨⟨sync, Setup.init.store⟩, ⟨sampleProduced, [sampleStream 0]⟩, some (0, 0)⟩ :=
    hstreaming.step (a := .connect (.ok [1]) 0) (by exact trivial) (.connect hpc rfl rfl rfl)
  have hfirst : Reaches sampleFollower.Step KeepsUp (init (sampleLedger (some Database.empty)))
      ⟨⟨sync, Setup.init.store⟩, ⟨sampleProduced, [sampleStream 1]⟩, some (0, 0)⟩ :=
    hconnect.step (a := .peer (.turn 0 none)) (fun _ _ _ => trivial) (.peer rfl)
  have hsecond : Reaches sampleFollower.Step KeepsUp (init (sampleLedger (some Database.empty)))
      ⟨⟨sync, Setup.init.store⟩, ⟨sampleProduced, [sampleStream 2]⟩, some (0, 0)⟩ :=
    hfirst.step (a := .peer (.turn 0 none)) (fun _ _ _ => trivial) (.peer rfl)
  obtain ⟨sync', hpc', hzero⟩ := reaches_deliver hsecond hpc rfl rfl sampleFate rfl
  obtain ⟨sync'', _, hone⟩ := reaches_deliver hzero hpc' rfl rfl sampleFate rfl
  exact ⟨sync'', hone⟩

/-- The ledger commits a block, then the store asks for block zero and gets both. -/
theorem store_tracks_ledger_sample :
    ∃ sync bs, sampleNode.db.worldstate.length = 1 ∧ sampleFollower.Tracks
      ⟨⟨sync, sampleNode⟩, ⟨sampleProduced, [sampleStream 2]⟩, some (0, 2)⟩ bs := by
  obtain ⟨sync, hreached⟩ := sampleNode_reached
  obtain ⟨bs, htracks⟩ := store_tracks_ledger sampleFollower Proto.Codecs.protobuf_lawfulConfig
    deliverSeekInfo_lawful rfl hreached
  exact ⟨sync, bs, rfl, htracks⟩

end Sample

end Follower

end FabricXSdk.Network

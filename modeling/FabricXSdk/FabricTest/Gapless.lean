import FabricXSdk.FabricTest.Deliver
import Mathlib.Data.List.Induction

/-!
# Delivery without gaps

On a chain whose blocks are numbered by position, what a stream is to send is the chain
from its start block on. A turn of `Deliver` moves the next pending block to the blocks
sent, and a commit adds one to the pending blocks if it finds room in the channel. A commit
that finds the channel full leaves a gap that nothing fills.
-/

namespace FabricXSdk.FabricTest

open Golang Channel Transition

section Numbers

variable {net : Network} {chain : List Proto.Block} {b : Proto.Block} {header : Proto.BlockHeader}
  {start : ℕ}

/-- Every block has the number of its position. -/
def Numbered (chain : List Proto.Block) : Prop :=
  ∀ i (b : Proto.Block), chain[i]? = some b → b.header.map Proto.BlockHeader.number = some i

theorem WellFormed.numbered {l : Ledger} (h : WellFormed net l) : Numbered l.blocks := by
  intro i b hb
  obtain ⟨header, data, metadata, filter, rfl, _, hnumber, _⟩ := h.block i b hb
  exact congrArg some hnumber

theorem Numbered.of_append {rest : List Proto.Block} (h : Numbered (chain ++ rest)) :
    Numbered chain := by
  intro i b hb
  apply h
  rw [List.getElem?_append_left (lt_length_of_getElem? hb), hb]

theorem Numbered.last (h : Numbered (chain ++ [b])) :
    b.header.map Proto.BlockHeader.number = some chain.length :=
  h _ b List.getElem?_concat_length

@[simp] theorem wanted_append (start : ℕ) (bs bs' : List Proto.Block) :
    wanted start (bs ++ bs') = wanted start bs ++ wanted start bs' :=
  List.filter_append ..

theorem wanted_singleton {n : ℕ} (h : b.header.map Proto.BlockHeader.number = some n) :
    wanted start [b] = if start ≤ n then [b] else [] := by
  obtain ⟨header, hheader, rfl⟩ := Option.map_eq_some_iff.mp h
  rw [wanted, List.filter_singleton, hheader]
  simp

/-- One more block on the chain is one more to send, if it is not before the start. -/
theorem drop_snoc (h : Numbered (chain ++ [b])) (start : ℕ) :
    (chain ++ [b]).drop start = chain.drop start ++ wanted start [b] := by
  rw [wanted_singleton h.last, List.drop_append]
  congr 1
  split
  · rename_i hle
    rw [Nat.sub_eq_zero_of_le hle, List.drop_zero]
  · rename_i hlt
    rw [List.drop_eq_nil_iff, List.length_singleton]
    omega

/-- On a chain the blocks to send are those from the start position on. -/
theorem wanted_eq_drop (h : Numbered chain) (start : ℕ) :
    wanted start chain = chain.drop start := by
  induction chain using List.reverseRecOn with
  | nil => simp [wanted]
  | append_singleton chain b ih => rw [wanted_append, ih h.of_append, drop_snoc h]

/-- What was sent from a chain has consecutive numbers. -/
theorem numbers_of_isPrefix (h : Numbered chain) {sent : List Proto.Block}
    (hsent : sent <+: chain.drop start) :
    sent.map (fun b => b.header.map Proto.BlockHeader.number) =
      (List.range' start sent.length).map some := by
  obtain ⟨rest, hrest⟩ := hsent
  apply List.ext_getElem?
  intro i
  rw [List.getElem?_map, List.getElem?_map]
  rcases Nat.lt_or_ge i sent.length with hlt | hge
  · have hi : chain[start + i]? = some sent[i] := by
      rw [← List.getElem?_drop, ← hrest, List.getElem?_append_left hlt,
        List.getElem?_eq_getElem hlt]
    rw [List.getElem?_eq_getElem hlt, List.getElem?_range' hlt, Option.map_some, h _ _ hi, one_mul]
    rfl
  · rw [List.getElem?_eq_none hge, List.getElem?_eq_none (by rwa [List.length_range'])]
    rfl

end Numbers

section Streams

variable {chain : List Proto.Block} {st st' : Stream} {b : Proto.Block} {err : Option Text}

/-- What holds of a stream throughout a run in which it loses no block. -/
structure Follows (chain : List Proto.Block) (st : Stream) : Prop where
  headers : ∀ b ∈ st.pending, b.header.isSome = true
  closed : ∀ height, st.closedAt = some height → height ≤ chain.length
  returnedClosed : st.returned = some none → st.closedAt ≠ none
  sent : st.sent <+: chain.drop st.startBlock
  complete : (∀ err, st.returned ≠ some (some err)) →
    st.sent ++ wanted st.startBlock st.pending = (st.horizon chain).drop st.startBlock

theorem horizon_open (h : st.closedAt = none) (chain : List Proto.Block) :
    st.horizon chain = chain := by
  rw [Stream.horizon, h, Option.getD_none, List.take_length]

/-- Blocks that come after the channel was closed do not matter to the stream. -/
theorem horizon_closed {height : ℕ} (h : st.closedAt = some height) (hle : height ≤ chain.length)
    (rest : List Proto.Block) : st.horizon (chain ++ rest) = st.horizon chain := by
  rw [Stream.horizon, Stream.horizon, h, Option.getD_some, Option.getD_some,
    List.take_append_of_le_length hle]

theorem horizon_drop_isPrefix (st : Stream) (chain : List Proto.Block) (n : ℕ) :
    (st.horizon chain).drop n <+: chain.drop n := by
  obtain ⟨rest, hrest⟩ : st.horizon chain <+: chain := List.take_prefix ..
  nth_rewrite 2 [← hrest]
  rw [List.drop_append]
  exact List.prefix_append ..

theorem notify_closed {height : ℕ} (h : st.closedAt = some height) : st.notify b = st := by
  rw [Stream.notify, h]

theorem notify_sent {sub : Chan Proto.Block} (h : st.closedAt = none)
    (hsend : st.sub.send b = some sub) : st.notify b = { st with sub := sub } := by
  rw [Stream.notify, h, hsend]

theorem notify_full (h : st.sub.send b = none) : st.notify b = st := by
  rw [Stream.notify, h]
  cases st.closedAt <;> rfl

theorem Follows.closed_append (h : Follows chain st) (height : ℕ)
    (hheight : st.closedAt = some height) : height ≤ (chain ++ [b]).length := by
  rw [List.length_append]
  exact (h.closed height hheight).trans (Nat.le_add_right ..)

theorem Follows.sent_append (h : Follows chain st) (hchain : Numbered (chain ++ [b])) :
    st.sent <+: (chain ++ [b]).drop st.startBlock := by
  rw [drop_snoc hchain]
  exact h.sent.trans (List.prefix_append ..)

/-- A block that goes past the stream. -/
theorem Follows.grow (h : Follows chain st) (hchain : Numbered (chain ++ [b]))
    (hpast : (∀ err, st.returned ≠ some (some err)) →
      (st.horizon (chain ++ [b])).drop st.startBlock = (st.horizon chain).drop st.startBlock) :
    Follows (chain ++ [b]) st where
  headers := h.headers
  closed := h.closed_append
  returnedClosed := h.returnedClosed
  sent := h.sent_append hchain
  complete := fun hfail => (h.complete hfail).trans (hpast hfail).symm

/-- A block that finds room in the channel. -/
theorem Follows.receive (h : Follows chain st) (hchain : Numbered (chain ++ [b]))
    (hopen : st.closedAt = none) {sub : Chan Proto.Block} (hsend : st.sub.send b = some sub) :
    Follows (chain ++ [b]) { st with sub := sub } := by
  obtain ⟨_, hbuffer⟩ := Chan.send_eq_some.mp hsend
  have hpending : Stream.pending { st with sub := sub } = st.pending ++ [b] := by
    rw [Stream.pending, Stream.pending, hbuffer, List.append_assoc]
  refine ⟨fun b' hb' => ?_, h.closed_append, h.returnedClosed, h.sent_append hchain,
    fun hfail => ?_⟩
  · rw [hpending] at hb'
    rcases List.mem_append.mp hb' with hb' | hb'
    · exact h.headers b' hb'
    · rw [List.mem_singleton.mp hb', ← Option.isSome_map, hchain.last]
      rfl
  · have hcomplete := h.complete hfail
    rw [horizon_open hopen] at hcomplete
    rw [hpending, wanted_append, ← List.append_assoc, hcomplete]
    exact ((congrArg (List.drop _) (horizon_open hopen _)).trans (drop_snoc hchain _)).symm

/-- A stream whose channel is open either runs or has failed. -/
theorem Follows.running (h : Follows chain st) (hopen : st.closedAt = none)
    (hfail : ∀ err, st.returned ≠ some (some err)) : st.returned = none := by
  cases hreturned : st.returned with
  | none => rfl
  | some result =>
      cases result with
      | none => exact absurd hopen (h.returnedClosed hreturned)
      | some e => exact absurd hreturned (hfail e)

/-- A commit that finds room, or that the stream does not wait for. -/
theorem Follows.notify (h : Follows chain st) (hchain : Numbered (chain ++ [b]))
    (hroom : st.returned = none → st.closedAt = none → st.startBlock ≤ chain.length →
      st.sub.buffer.length < st.sub.capacity) : Follows (chain ++ [b]) (st.notify b) := by
  cases hclosedAt : st.closedAt with
  | some height =>
      rw [notify_closed hclosedAt]
      refine h.grow hchain fun _ => ?_
      rw [horizon_closed hclosedAt (h.closed height hclosedAt)]
  | none =>
      cases hsend : st.sub.send b with
      | some sub =>
          rw [notify_sent hclosedAt hsend]
          exact h.receive hchain hclosedAt hsend
      | none =>
          -- without room it can only be the start block that is not reached yet
          rw [notify_full hsend]
          refine h.grow hchain fun hfail => ?_
          have hlt : ¬ st.startBlock ≤ chain.length := by
            intro hle
            have hroom := hroom (h.running hclosedAt hfail) hclosedAt hle
            rw [Chan.send_eq_none] at hsend
            omega
          rw [horizon_open hclosedAt, horizon_open hclosedAt, drop_snoc hchain,
            wanted_singleton hchain.last, if_neg hlt, List.append_nil]

/-- The channel is closed at the height of the chain. -/
theorem Follows.close (h : Follows chain st) : Follows chain (st.close chain.length) := by
  have hhorizon : (st.close chain.length).horizon chain = st.horizon chain := rfl
  refine ⟨h.headers, fun height hheight => ?_, fun _ hnone => ?_, h.sent, fun hfail => ?_⟩
  · rw [Stream.close, Option.some.injEq] at hheight
    rw [← hheight]
    cases hclosedAt : st.closedAt with
    | none => rfl
    | some height' => exact h.closed height' hclosedAt
  · cases hnone
  · rw [hhorizon]
    exact h.complete hfail

theorem openStream_follows {l : Ledger} {startBlock : ℕ} {newest : Bool}
    (h : l.openStream startBlock newest = .ok st) (hchain : Numbered l.blocks) :
    Follows l.blocks st := by
  rw [Ledger.openStream, Outcome.bind_eq_ok] at h
  obtain ⟨start, _, h⟩ := h
  cases h
  have hpending : Stream.pending ⟨start, l.blocks, Chan.make 10, none, [], none⟩ = l.blocks :=
    List.append_nil _
  refine ⟨fun b hb => ?_, nofun, nofun, List.nil_prefix, fun _ => ?_⟩
  · rw [hpending] at hb
    obtain ⟨i, hi⟩ := List.mem_iff_getElem?.mp hb
    rw [← Option.isSome_map, hchain i b hi]
    rfl
  · rw [hpending, horizon_open rfl, wanted_eq_drop hchain]
    rfl

/-- What a turn does: it takes the next block that is pending, or it ends a stream that
has nothing pending and never will. -/
theorem next_eq_some {out : Outcome Stream} (h : st.next err = some out) :
    st.returned = none ∧
      ((∃ b existing sub, st.pending = b :: (existing ++ sub.buffer) ∧
          out = Stream.forward { st with existing := existing, sub := sub } err b) ∨
        st.closedAt ≠ none ∧ out = .ok { st with returned := some none }) := by
  rw [Stream.next] at h
  cases hreturned : st.returned with
  | some result =>
      rw [hreturned] at h
      cases h
  | none =>
      rw [hreturned] at h
      refine ⟨rfl, ?_⟩
      cases hexisting : st.existing with
      | cons b rest =>
          rw [hexisting] at h
          cases h
          refine Or.inl ⟨b, rest, st.sub, ?_, rfl⟩
          rw [Stream.pending, hexisting, List.cons_append]
      | nil =>
          rw [hexisting] at h
          cases hrecv : st.sub.recv with
          | some p =>
              obtain ⟨b, sub⟩ := p
              obtain ⟨_, hbuffer⟩ := Chan.recv_eq_some.mp hrecv
              rw [hrecv] at h
              cases h
              refine Or.inl ⟨b, [], sub, ?_, ?_⟩
              · rw [Stream.pending, hexisting, hbuffer]
                rfl
              · rfl
          | none =>
              rw [hrecv] at h
              simp only [Option.ite_none_right_eq_some, Option.isSome_iff_ne_none] at h
              exact Or.inr ⟨h.1, (Option.some.inj h.2).symm⟩

/-- A stream that runs and has something pending takes a turn. -/
theorem exists_next (hreturned : st.returned = none) (hpending : st.pending ≠ []) :
    ∃ out, st.next err = some out := by
  rw [Stream.next, hreturned]
  cases hexisting : st.existing with
  | cons b rest => exact ⟨_, rfl⟩
  | nil =>
      rw [Stream.pending, hexisting, List.nil_append] at hpending
      obtain ⟨b, sub, hrecv⟩ := Chan.exists_recv hpending
      exact ⟨_, by rw [hrecv]⟩

/-- The three ends of a turn of the loops. -/
theorem forward_eq {n : ℕ} (h : b.header.map Proto.BlockHeader.number = some n) :
    st.forward err b = .ok (if n < st.startBlock then st
      else match err with
        | some err => { st with returned := some (some err) }
        | none => { st with sent := st.sent ++ [b] }) := by
  obtain ⟨header, hheader, rfl⟩ := Option.map_eq_some_iff.mp h
  unfold Stream.forward
  rw [hheader]
  cases err with
  | none => exact (apply_ite Outcome.ok _ _ _).symm
  | some err => exact (apply_ite Outcome.ok _ _ _).symm

theorem Follows.take (h : Follows chain st) (hreturned : st.returned = none)
    {existing : List Proto.Block} {sub : Chan Proto.Block}
    (hpending : st.pending = b :: (existing ++ sub.buffer))
    (hforward : Stream.forward { st with existing := existing, sub := sub } err b = .ok st') :
    Follows chain st' := by
  have hheader := h.headers b (by rw [hpending]; exact List.mem_cons_self)
  obtain ⟨header, hheader⟩ := Option.isSome_iff_exists.mp hheader
  have hnumber : b.header.map Proto.BlockHeader.number = some header.number := by
    rw [hheader]
    rfl
  have hheaders : ∀ b' ∈ existing ++ sub.buffer, b'.header.isSome = true := by
    intro b' hb'
    apply h.headers
    rw [hpending]
    exact List.mem_cons_of_mem _ hb'
  have hnot : ∀ e, st.returned ≠ some (some e) := by simp [hreturned]
  have hcomplete := h.complete hnot
  rw [hpending, ← List.singleton_append, wanted_append, wanted_singleton hnumber,
    ← List.append_assoc] at hcomplete
  rw [forward_eq hnumber, Outcome.ok.injEq] at hforward
  split at hforward
  · -- a block before the start is skipped
    rename_i hlt
    subst hforward
    refine ⟨hheaders, h.closed, h.returnedClosed, h.sent, fun _ => ?_⟩
    rw [if_neg (Nat.not_le.mpr hlt), List.append_nil] at hcomplete
    exact hcomplete
  · rename_i hge
    rw [if_pos (Nat.not_lt.mp hge)] at hcomplete
    cases err with
    | some e =>
        subst hforward
        exact ⟨hheaders, h.closed, nofun, h.sent, fun hfail => absurd rfl (hfail e)⟩
    | none =>
        subst hforward
        refine ⟨hheaders, h.closed, h.returnedClosed, ?_, fun _ => hcomplete⟩
        exact List.IsPrefix.trans ⟨_, hcomplete⟩ (horizon_drop_isPrefix st chain _)

theorem Follows.next (h : Follows chain st) (hnext : st.next err = some (.ok st')) :
    Follows chain st' := by
  obtain ⟨hreturned, ⟨b, existing, sub, hpending, hforward⟩ | ⟨hclosed, hst'⟩⟩ :=
    next_eq_some hnext
  · exact h.take hreturned hpending hforward.symm
  · cases hst'
    refine ⟨h.headers, h.closed, fun _ => hclosed, h.sent, fun _ => ?_⟩
    exact h.complete (by simp [hreturned])

theorem Follows.delivers (h : Follows chain st) (hchain : Numbered chain) : Delivers chain st where
  consecutive := numbers_of_isPrefix hchain h.sent
  complete := h.complete
  goesOn := by
    intro hreturned hpending err
    obtain ⟨out, hout⟩ := @exists_next st err hreturned hpending
    obtain ⟨_, ⟨b, existing, sub, htake, rfl⟩ | ⟨_, rfl⟩⟩ := next_eq_some hout
    · have hheader := h.headers b (by rw [htake]; exact List.mem_cons_self)
      obtain ⟨header, hheader⟩ := Option.isSome_iff_exists.mp hheader
      have hnumber : b.header.map Proto.BlockHeader.number = some header.number := by
        rw [hheader]
        rfl
      rw [forward_eq hnumber] at hout
      exact ⟨_, hout⟩
    · exact ⟨_, hout⟩

end Streams

section Runs

variable {net : Network} {seekInfo : Protobuf.Codec SeekInfo} {s s' : Peer} {i : ℕ}

/-- The chain is in order and the stream has lost nothing. -/
structure PeerInv (net : Network) (i : ℕ) (s : Peer) : Prop where
  wellFormed : WellFormed net s.ledger
  follows : ∀ st, s.streams[i]? = some st → Follows s.ledger.blocks st

theorem PeerInv.commit {env : Env} {batch : List Proto.Envelope} (h : PeerInv net i s)
    (hroom : HasRoom i s (.commit env batch))
    (hstep : PeerStep net seekInfo s (.commit env batch) s') : PeerInv net i s' := by
  rw [PeerStep, Peer.step] at hstep
  split at hstep
  · rename_i u l' hprocess
    obtain ⟨block, hlast, rfl⟩ := Option.map_eq_some_iff.mp hstep
    have hwf : WellFormed net l' := by
      have hwf := process_wellFormed h.wellFormed env batch
      rwa [hprocess] at hwf
    obtain ⟨block', hblocks, _⟩ := process_appends hprocess
    rw [hblocks, List.getLast?_concat, Option.some.injEq] at hlast
    subst hlast
    refine ⟨hwf, fun st' hst' => ?_⟩
    rw [List.getElem?_map, Option.map_eq_some_iff] at hst'
    obtain ⟨st, hst, rfl⟩ := hst'
    have hnumbered := hwf.numbered
    rw [hblocks] at hnumbered ⊢
    exact (h.follows st hst).notify hnumbered (hroom st hst)
  · cases hstep

theorem PeerInv.subscribe {env : Proto.Envelope} (h : PeerInv net i s)
    (hstep : PeerStep net seekInfo s (.subscribe env) s') : PeerInv net i s' := by
  rw [PeerStep, Peer.step] at hstep
  split at hstep
  · rename_i st hopen
    cases hstep
    refine ⟨h.wellFormed, fun st' hst' => ?_⟩
    rcases getElem?_concat_eq_some.mp hst' with hst' | ⟨_, rfl⟩
    · exact h.follows st' hst'
    · exact openStream_follows hopen h.wellFormed.numbered
  · cases hstep

theorem PeerInv.turn {j : ℕ} {err : Option Text} (h : PeerInv net i s)
    (hstep : PeerStep net seekInfo s (.turn j err) s') : PeerInv net i s' := by
  rw [PeerStep, Peer.step] at hstep
  split at hstep
  · rename_i st' hnext
    cases hstep
    obtain ⟨st, hst, hnext⟩ := Option.bind_eq_some_iff.mp hnext
    refine ⟨h.wellFormed, fun st'' hst'' => ?_⟩
    rcases (getElem?_set_eq_some hst).mp hst'' with ⟨rfl, rfl⟩ | ⟨_, hst''⟩
    · exact (h.follows st hst).next hnext
    · exact h.follows st'' hst''
  · cases hstep

theorem PeerInv.close (h : PeerInv net i s) (hstep : PeerStep net seekInfo s .close s') :
    PeerInv net i s' := by
  cases hstep
  refine ⟨h.wellFormed, fun st' hst' => ?_⟩
  rw [List.getElem?_map, Option.map_eq_some_iff] at hst'
  obtain ⟨st, hst, rfl⟩ := hst'
  exact (h.follows st hst).close

theorem PeerInv.step {e : PeerEvent} (h : PeerInv net i s) (hroom : HasRoom i s e)
    (hstep : PeerStep net seekInfo s e s') : PeerInv net i s' := by
  cases e with
  | commit env batch => exact h.commit hroom hstep
  | subscribe env => exact h.subscribe hstep
  | turn j err => exact h.turn hstep
  | close => exact h.close hstep

/-- A stream delivers without gaps as long as every commit finds room in its channel,
whatever the other streams do and whatever happened to the ledger before. -/
theorem deliver_without_gaps {db : Option State.Database} {l : Ledger}
    (hnew : net.newLedger db = .ok l) (ops : List Op)
    (h : Reaches (PeerStep net seekInfo) (HasRoom i) ⟨net.run l ops, []⟩ s) {st : Stream}
    (hst : s.streams[i]? = some st) : Delivers s.ledger.blocks st := by
  have hinv : PeerInv net i s := by
    refine h.invariant ⟨run_wellFormed (newLedger_wellFormed hnew) ops, ?_⟩
      fun s e s' hinv hroom hstep => hinv.step hroom hstep
    intro st hst
    cases hst
  exact (hinv.follows st hst).delivers hinv.wellFormed.numbered

end Runs

section Sample

/-- A reader of seek requests to which every request is for the oldest block. -/
def sampleSeek : Protobuf.Codec SeekInfo where
  marshal := fun _ => .ok []
  unmarshal := fun _ => .ok ⟨some ⟨some .oldest⟩⟩

def sampleRequest : Proto.Envelope := ⟨[], []⟩

/-- The stream on the genesis block, and the ledger after a cut. -/
def sampleOpened : Stream := ⟨0, (sampleLedger none).blocks, Chan.make 10, none, [], none⟩

def sampleCut : Ledger := (sampleFabric.process sampleEnv (sampleLedger none) []).2

def sampleCutBlock : Proto.Block := sampleCut.blocks.getLast?.getD ⟨none, none, none⟩

/-- A stream that is open when a block is cut has the genesis block and the cut pending. -/
theorem deliver_without_gaps_sample :
    (sampleOpened.notify sampleCutBlock).pending.length = 2 ∧
    Delivers sampleCut.blocks (sampleOpened.notify sampleCutBlock) := by
  have h₁ : Reaches (PeerStep sampleFabric sampleSeek) (HasRoom 0) ⟨sampleLedger none, []⟩
      ⟨sampleLedger none, [sampleOpened]⟩ :=
    Reaches.refl.step (a := .subscribe sampleRequest) trivial rfl
  have h₂ : Reaches (PeerStep sampleFabric sampleSeek) (HasRoom 0) ⟨sampleLedger none, []⟩
      ⟨sampleCut, [sampleOpened.notify sampleCutBlock]⟩ := by
    refine h₁.step (a := .commit sampleEnv []) (fun st hst _ _ _ => ?_) rfl
    cases hst
    exact Nat.zero_lt_succ 9
  exact ⟨rfl, deliver_without_gaps (sampleLedger_new none) [] h₂ rfl⟩

/-- Eleven blocks are cut before the stream sends anything, one more after it has sent
what its channel held. -/
def sampleOverrun : List PeerEvent :=
  [PeerEvent.subscribe sampleRequest] ++ List.replicate 11 (PeerEvent.commit sampleEnv []) ++
    List.replicate 11 (PeerEvent.turn 0 none) ++
    [PeerEvent.commit sampleEnv [], PeerEvent.turn 0 none]

/-- The eleventh block finds the channel full, and block 12 is sent after block 10. -/
theorem deliver_skips_block :
    ∃ s st, Reaches (PeerStep sampleFabric sampleSeek) Free ⟨sampleLedger none, []⟩ s ∧
      s.streams[0]? = some st ∧ st.startBlock = 0 ∧
      st.sent.map (fun b => b.header.map Proto.BlockHeader.number) =
        [0, 1, 2, 3, 4, 5, 6, 7, 8, 9, 10, 12].map some ∧
      ¬ Delivers s.ledger.blocks st := by
  have hrun : (sampleOverrun.foldlM (Peer.step sampleFabric sampleSeek)
      ⟨sampleLedger none, []⟩).bind (fun s => s.streams[0]?.map fun st =>
        (st.startBlock, st.sent.map (fun b => b.header.map Proto.BlockHeader.number))) =
      some (0, [0, 1, 2, 3, 4, 5, 6, 7, 8, 9, 10, 12].map some) := by
    rfl
  obtain ⟨s, hs, hstreams⟩ := Option.bind_eq_some_iff.mp hrun
  obtain ⟨st, hst, hpair⟩ := Option.map_eq_some_iff.mp hstreams
  obtain ⟨hstart, hsent⟩ := Prod.mk.inj hpair
  refine ⟨s, st, Reaches.of_foldlM sampleOverrun hs, hst, hstart, hsent, fun h => ?_⟩
  have hlength := congrArg List.length hsent
  rw [List.length_map] at hlength
  have hconsecutive := h.consecutive
  rw [hsent, hstart, hlength] at hconsecutive
  revert hconsecutive
  decide

end Sample

end FabricXSdk.FabricTest

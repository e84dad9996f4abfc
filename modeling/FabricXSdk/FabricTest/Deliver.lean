import FabricXSdk.FabricTest.Chain
import FabricXSdk.Lib.Channel
import FabricXSdk.Lib.Transition

/-!
# Streams of blocks from the test peer

A `Deliver` call takes a snapshot of the chain and a channel for later blocks in one
critical section, sends the snapshot from the requested block on, and then what comes in
on the channel. `commit` puts a block into the channels of the subscribers without waiting:
a channel that is full misses the block.

## Implementation notes

The state is the ledger with every stream that was opened on it, and a label is one
critical section of the ledger or one turn of a loop in `Deliver`. A commit that fails
changes nothing and is no step. There is no label for `truncate`, which moves the chain
under the streams; the ledger may have been truncated before the first of them.
-/

namespace FabricXSdk.FabricTest

open Golang Channel Transition

/-- The types of a `SeekPosition`. -/
inductive SeekType
  | newest
  | oldest
  | specified (number : ℕ)
  | nextCommit

structure SeekPosition where
  type : Option SeekType

structure SeekInfo where
  start : Option SeekPosition

/-- The block to start at, and whether that is the newest one. -/
def parseStartBlock (c : Proto.Codecs) (seekInfo : Protobuf.Codec SeekInfo)
    (env : Proto.Envelope) : ℕ × Bool :=
  match c.payload.unmarshal env.payload with
  | .error _ => (0, false)
  | .ok pl =>
      match seekInfo.unmarshal pl.data with
      | .error _ => (0, false)
      | .ok si =>
          match si.start with
          | none => (0, false)
          | some position =>
              match position.type with
              | some .oldest => (0, false)
              | some (.specified number) => (number, false)
              | some .newest => (0, true)
              | _ => (0, false)

/-- A call of `Deliver` after its subscription. -/
structure Stream where
  startBlock : ℕ
  /-- The blocks of the snapshot that are still to replay. -/
  existing : List Proto.Block
  sub : Chan Proto.Block
  /-- The height of the chain when the ledger closed the channel. -/
  closedAt : Option ℕ
  sent : List Proto.Block
  /-- What the call has returned. -/
  returned : Option (Option Text)

/-- A stream of the newest block starts from the tip of its snapshot. -/
def Ledger.startFrom (l : Ledger) (startBlock : ℕ) : Bool → Outcome ℕ
  | true => do
      let tip ← l.tip
      pure tip.number
  | false => pure startBlock

/-- The snapshot and the channel of `subscribe`, and the start block for them. -/
def Ledger.openStream (l : Ledger) (startBlock : ℕ) (newest : Bool) : Outcome Stream := do
  let startBlock ← l.startFrom startBlock newest
  pure ⟨startBlock, l.blocks, Chan.make 10, none, [], none⟩

/-- The body of both loops; `err` is what `Send` returns. -/
def Stream.forward (st : Stream) (err : Option Text) (block : Proto.Block) : Outcome Stream := do
  let header ← Outcome.deref block.header
  if header.number < st.startBlock then pure st
  else
    match err with
    | some err => pure { st with returned := some (some err) }
    | none => pure { st with sent := st.sent ++ [block] }

/-- The next turn of the call, unless it waits or has returned. -/
def Stream.next (st : Stream) (err : Option Text) : Option (Outcome Stream) :=
  match st.returned with
  | some _ => none
  | none =>
      match st.existing with
      | block :: rest => some (Stream.forward { st with existing := rest } err block)
      | [] =>
          match st.sub.recv with
          | some (block, sub) => some (Stream.forward { st with sub := sub } err block)
          | none =>
              if st.closedAt.isSome then some (.ok { st with returned := some none }) else none

/-- The non-blocking send of `commit`, to the channels that are not closed. -/
def Stream.notify (block : Proto.Block) (st : Stream) : Stream :=
  match st.closedAt, st.sub.send block with
  | none, some sub => { st with sub := sub }
  | _, _ => st

def Stream.close (height : ℕ) (st : Stream) : Stream :=
  { st with closedAt := some (st.closedAt.getD height) }

structure Peer where
  ledger : Ledger
  streams : List Stream

inductive PeerEvent
  | commit (env : Env) (batch : List Proto.Envelope)
  | subscribe (env : Proto.Envelope)
  | turn (i : ℕ) (err : Option Text)
  | close

def Peer.step (net : Network) (seekInfo : Protobuf.Codec SeekInfo) (s : Peer) :
    PeerEvent → Option Peer
  | .commit env batch =>
      match net.process env s.ledger batch with
      | (.ok _, l') => l'.blocks.getLast?.map fun block =>
          ⟨l', s.streams.map (Stream.notify block)⟩
      | _ => none
  | .subscribe env =>
      match s.ledger.openStream (parseStartBlock net.codecs seekInfo env).1
          (parseStartBlock net.codecs seekInfo env).2 with
      | .ok st => some { s with streams := s.streams ++ [st] }
      | _ => none
  | .turn i err =>
      match s.streams[i]?.bind fun st => st.next err with
      | some (.ok st) => some { s with streams := s.streams.set i st }
      | _ => none
  | .close => some { s with streams := s.streams.map (Stream.close s.ledger.blocks.length) }

/-- Steps of the peer and its ledger, without a truncation. -/
def PeerStep (net : Network) (seekInfo : Protobuf.Codec SeekInfo) (s : Peer) (e : PeerEvent)
    (s' : Peer) : Prop :=
  s.step net seekInfo e = some s'

/-- The blocks that a stream from this block on is to send. -/
def wanted (startBlock : ℕ) (blocks : List Proto.Block) : List Proto.Block :=
  blocks.filter fun b => b.header.any fun header => startBlock ≤ header.number

/-- What is still to come: the rest of the snapshot and the blocks in the channel. -/
def Stream.pending (st : Stream) : List Proto.Block := st.existing ++ st.sub.buffer

/-- The blocks that were committed while the channel was open. -/
def Stream.horizon (chain : List Proto.Block) (st : Stream) : List Proto.Block :=
  chain.take (st.closedAt.getD chain.length)

/-- The stream has sent the blocks from its start block on, without a gap, and nothing of
what was committed for it is lost. -/
structure Delivers (chain : List Proto.Block) (st : Stream) : Prop where
  /-- The numbers sent are consecutive. -/
  consecutive : st.sent.map (fun b => b.header.map Proto.BlockHeader.number) =
    (List.range' st.startBlock st.sent.length).map some
  /-- Unless a `Send` failed, what was sent and what is pending is the chain from there on. -/
  complete : (∀ err, st.returned ≠ some (some err)) →
    st.sent ++ wanted st.startBlock st.pending = (st.horizon chain).drop st.startBlock
  /-- A stream with something pending can go on. -/
  goesOn : st.returned = none → st.pending ≠ [] → ∀ err, ∃ st', st.next err = some (.ok st')

/-- A commit finds room in the channel of the stream, if that still waits for the block. -/
def HasRoom (i : ℕ) (s : Peer) : PeerEvent → Prop
  | .commit _ _ => ∀ st, s.streams[i]? = some st → st.returned = none → st.closedAt = none →
      st.startBlock ≤ s.ledger.blocks.length → st.sub.buffer.length < st.sub.capacity
  | _ => True

end FabricXSdk.FabricTest

import FabricXSdk.Blocks.Types
import FabricXSdk.Proto.Messages

/-!
# Invocations and execution results

What an endorser is asked to execute, what came out of it, and who signs it.
-/

namespace FabricXSdk.Endorsement

open Golang Blocks

/-- The client or endorser identity. Both calls may fail. -/
structure Signer where
  sign : Bytes → Except Text Bytes
  serialize : Except Text Bytes

/-- What an endorser is asked to execute. -/
structure Invocation where
  txID : GoString
  nonce : Bytes
  creator : Bytes
  args : List Bytes
  ns : GoString
  chaincodeVersion : GoString
  nsVersion : ℕ
  channel : GoString
  proposal : Option Proto.Proposal
  proposalHash : Bytes
  deriving DecidableEq, Repr

/-- The proposal carries a channel header of the given type with the transaction id
and the channel of the invocation. -/
def Invocation.Proposes (c : Proto.Codecs) (inv : Invocation) (type : Int) : Prop :=
  ∃ prop hdr chdr, inv.proposal = some prop ∧ c.header.unmarshal prop.header = .ok hdr ∧
    c.channelHeader.unmarshal hdr.channelHeader = .ok chdr ∧ chdr.type = type ∧
    chdr.txId = inv.txID ∧ chdr.channelId = inv.channel

structure ExecutionResult where
  rws : ReadWriteSet
  event : Bytes
  eventName : GoString
  status : Int
  message : GoString
  payload : Bytes
  deriving DecidableEq, Repr

def ExecutionResult.validate (res : ExecutionResult) : Outcome Unit :=
  if 0 < res.event.length ∧ res.eventName = [] then
    .error [.lit "event name is required when an event is set"]
  else .ok ()

/-- The response both builders put next to the endorsement. -/
def ExecutionResult.response (res : ExecutionResult) : Proto.Response where
  status := res.status
  message := res.message
  payload := res.payload

/-- Read keys and write keys are each pairwise distinct, as `Result` returns them. -/
structure Distinct (rws : ReadWriteSet) : Prop where
  reads : (rws.reads.map KVRead.key).Nodup
  writes : (rws.writes.map KVWrite.key).Nodup

theorem Distinct.perm {rws rws' : ReadWriteSet} (h : Distinct rws)
    (hr : rws.reads.Perm rws'.reads) (hw : rws.writes.Perm rws'.writes) : Distinct rws' where
  reads := (hr.map KVRead.key).nodup_iff.mp h.reads
  writes := (hw.map KVWrite.key).nodup_iff.mp h.writes

/-- The response carries the identity of the signer and its signature of a message
that may include that identity. -/
def SignedBy (signer : Signer) (message : Bytes → Bytes) (r : Proto.ProposalResponse) : Prop :=
  ∃ identity sig, signer.serialize = .ok identity ∧ signer.sign (message identity) = .ok sig ∧
    r.endorsement = some ⟨identity, sig⟩

end FabricXSdk.Endorsement

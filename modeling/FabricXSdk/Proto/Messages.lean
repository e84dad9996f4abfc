import FabricXSdk.Lib.Protobuf

/-!
# Messages of the ledger protocols

The protobuf messages the SDK decodes and builds: common envelopes, classic
Fabric transactions, and Fabric-X transactions. A message field that may be
absent is an `Option`, a repeated one is a list. `Codecs` collects
`proto.Marshal` and `proto.Unmarshal` for each type.

## Implementation notes

Fields that no function of the SDK reads are left out, such as the transient map
of a proposal or the last update of a configuration. The group tree of a channel
configuration is kept as its bytes.
-/

namespace FabricXSdk.Proto

open Golang Protobuf

section Common

structure Timestamp where
  seconds : Int
  nanos : Int
  deriving DecidableEq, Repr

structure ChannelHeader where
  type : Int
  version : Int
  timestamp : Option Timestamp
  channelId : GoString
  txId : GoString
  epoch : ℕ
  extension : Bytes
  tlsCertHash : Bytes
  deriving DecidableEq, Repr

structure SignatureHeader where
  creator : Bytes
  nonce : Bytes
  deriving DecidableEq, Repr

structure Header where
  channelHeader : Bytes
  signatureHeader : Bytes
  deriving DecidableEq, Repr

structure Payload where
  header : Option Header
  data : Bytes
  deriving DecidableEq, Repr

structure Envelope where
  payload : Bytes
  signature : Bytes
  deriving DecidableEq, Repr

structure Config where
  sequence : ℕ
  channelGroup : Option Bytes
  deriving DecidableEq, Repr

structure ConfigEnvelope where
  config : Option Config
  deriving DecidableEq, Repr

structure BlockHeader where
  number : ℕ
  previousHash : Bytes
  dataHash : Bytes
  deriving DecidableEq, Repr

/-- A block with its three parts behind pointers. -/
structure Block where
  header : Option BlockHeader
  data : Option (List Bytes)
  metadata : Option (List Bytes)
  deriving DecidableEq, Repr

/-- `HeaderType_MESSAGE`. -/
def headerTypeMessage : Int := 0

/-- `HeaderType_CONFIG`. -/
def headerTypeConfig : Int := 1

/-- `HeaderType_ENDORSER_TRANSACTION`. -/
def headerTypeEndorserTransaction : Int := 3

/-- `BlockMetadataIndex_TRANSACTIONS_FILTER`. -/
def transactionsFilter : ℕ := 2

end Common

section Fabric

structure Endorsement where
  endorser : Bytes
  signature : Bytes
  deriving DecidableEq, Repr

structure Response where
  status : Int
  message : GoString
  payload : Bytes
  deriving DecidableEq, Repr

structure Proposal where
  header : Bytes
  payload : Bytes
  extension : Bytes
  deriving DecidableEq, Repr

structure SignedProposal where
  proposalBytes : Bytes
  signature : Bytes
  deriving DecidableEq, Repr

structure ProposalResponse where
  version : Int
  response : Option Response
  payload : Bytes
  endorsement : Option Endorsement
  deriving DecidableEq, Repr

structure ChaincodeID where
  path : GoString
  name : GoString
  version : GoString
  deriving DecidableEq, Repr

structure ChaincodeInput where
  args : List Bytes
  deriving DecidableEq, Repr

structure ChaincodeSpec where
  type : Int
  chaincodeId : Option ChaincodeID
  input : Option ChaincodeInput
  deriving DecidableEq, Repr

structure ChaincodeInvocationSpec where
  chaincodeSpec : Option ChaincodeSpec
  deriving DecidableEq, Repr

structure ChaincodeProposalPayload where
  input : Bytes
  deriving DecidableEq, Repr

structure ChaincodeEndorsedAction where
  proposalResponsePayload : Bytes
  endorsements : List Endorsement
  deriving DecidableEq, Repr

structure ChaincodeActionPayload where
  chaincodeProposalPayload : Bytes
  action : Option ChaincodeEndorsedAction
  deriving DecidableEq, Repr

structure TransactionAction where
  header : Bytes
  payload : Bytes
  deriving DecidableEq, Repr

structure Transaction where
  actions : List TransactionAction
  deriving DecidableEq, Repr

structure ProposalResponsePayload where
  proposalHash : Bytes
  extension : Bytes
  deriving DecidableEq, Repr

structure ChaincodeAction where
  results : Bytes
  events : Bytes
  response : Option Response
  chaincodeId : Option ChaincodeID
  deriving DecidableEq, Repr

structure ChaincodeEvent where
  chaincodeId : GoString
  txId : GoString
  eventName : GoString
  payload : Bytes
  deriving DecidableEq, Repr

structure Version where
  blockNum : ℕ
  txNum : ℕ
  deriving DecidableEq, Repr

structure KVRead where
  key : GoString
  version : Option Version
  deriving DecidableEq, Repr

structure KVWrite where
  key : GoString
  isDelete : Bool
  value : Bytes
  deriving DecidableEq, Repr

structure KVRWSet where
  reads : List KVRead
  writes : List KVWrite
  deriving DecidableEq, Repr

structure NsReadWriteSet where
  ns : GoString
  rwset : Bytes
  deriving DecidableEq, Repr

structure TxReadWriteSet where
  nsRwset : List NsReadWriteSet
  deriving DecidableEq, Repr

end Fabric

section FabricX

structure Read where
  key : Bytes
  version : Option ℕ
  deriving DecidableEq, Repr

structure ReadWrite where
  key : Bytes
  version : Option ℕ
  value : Bytes
  deriving DecidableEq, Repr

structure Write where
  key : Bytes
  value : Bytes
  deriving DecidableEq, Repr

structure TxNamespace where
  nsId : GoString
  nsVersion : ℕ
  readsOnly : List Read
  readWrites : List ReadWrite
  blindWrites : List Write
  deriving DecidableEq, Repr

/-- `msppb.Identity`: a certificate, or the id of one. -/
structure Identity where
  mspId : GoString
  certificate : Bytes
  certificateId : GoString
  deriving DecidableEq, Repr

structure EndorsementWithIdentity where
  endorsement : Bytes
  identity : Option Identity
  deriving DecidableEq, Repr

structure Endorsements where
  endorsementsWithIdentity : List EndorsementWithIdentity
  deriving DecidableEq, Repr

structure Tx where
  namespaces : List TxNamespace
  endorsements : List Endorsements
  metadata : List Bytes
  deriving DecidableEq, Repr

/-- `metadatapb.Metadata`, the content of `Tx.metadata[0]`. -/
structure Metadata where
  inputArgs : List Bytes
  event : Bytes
  eventName : GoString
  payload : Bytes
  deriving DecidableEq, Repr

/-- `committerpb.TxRef`. -/
structure TxRef where
  blockNum : ℕ
  txNum : ℕ
  txId : GoString
  deriving DecidableEq, Repr

/-- `committerpb.TxEvent`. -/
structure TxEvent where
  ref : Option TxRef
  status : Int
  namespaces : List TxNamespace
  endorsements : List Endorsements
  metadata : List Bytes
  deriving DecidableEq, Repr

/-- `committerpb.TxStatus`. -/
structure TxStatus where
  ref : Option TxRef
  status : Int
  deriving DecidableEq, Repr

/-- `committerpb.NotificationResponse`. -/
structure NotificationResponse where
  txStatusEvents : List TxStatus
  timeoutTxIds : List GoString
  deriving DecidableEq, Repr

/-- `committerpb.BlockEvent`. -/
structure BlockEvent where
  header : Option BlockHeader
  events : List TxEvent
  deriving DecidableEq, Repr

/-- `committerpb.StreamBlocksRequest`. -/
structure StreamBlocksRequest where
  filterNamespaces : List GoString
  filterStatus : List Int
  includeReadWriteSets : Bool
  includeEndorsements : Bool
  includeMetadata : Bool
  deriving DecidableEq, Repr

end FabricX

section Encodable

/-- The integer fits an `int32`. -/
def FitsInt32 (i : Int) : Prop := -2 ^ 31 ≤ i ∧ i < 2 ^ 31

def Timestamp.Encodable (t : Timestamp) : Prop :=
  (-2 ^ 63 ≤ t.seconds ∧ t.seconds < 2 ^ 63) ∧ FitsInt32 t.nanos

def ChannelHeader.Encodable (h : ChannelHeader) : Prop :=
  FitsInt32 h.type ∧ FitsInt32 h.version ∧ (∀ t, h.timestamp = some t → t.Encodable) ∧
    utf8Valid h.channelId = true ∧ utf8Valid h.txId = true

def Identity.Encodable (i : Identity) : Prop :=
  utf8Valid i.mspId = true ∧ utf8Valid i.certificateId = true

def Endorsements.Encodable (e : Endorsements) : Prop :=
  ∀ x ∈ e.endorsementsWithIdentity, ∀ i, x.identity = some i → i.Encodable

def Tx.Encodable (tx : Tx) : Prop :=
  (∀ n ∈ tx.namespaces, utf8Valid n.nsId = true) ∧ ∀ e ∈ tx.endorsements, e.Encodable

def Metadata.Encodable (m : Metadata) : Prop := utf8Valid m.eventName = true

def Response.Encodable (r : Response) : Prop := FitsInt32 r.status ∧ utf8Valid r.message = true

def ChaincodeID.Encodable (i : ChaincodeID) : Prop :=
  utf8Valid i.path = true ∧ utf8Valid i.name = true ∧ utf8Valid i.version = true

def ChaincodeSpec.Encodable (s : ChaincodeSpec) : Prop :=
  FitsInt32 s.type ∧ ∀ i, s.chaincodeId = some i → i.Encodable

def ChaincodeInvocationSpec.Encodable (s : ChaincodeInvocationSpec) : Prop :=
  ∀ spec, s.chaincodeSpec = some spec → spec.Encodable

def ChaincodeAction.Encodable (a : ChaincodeAction) : Prop :=
  (∀ r, a.response = some r → r.Encodable) ∧ ∀ i, a.chaincodeId = some i → i.Encodable

def ChaincodeEvent.Encodable (e : ChaincodeEvent) : Prop :=
  utf8Valid e.chaincodeId = true ∧ utf8Valid e.txId = true ∧ utf8Valid e.eventName = true

def KVRWSet.Encodable (s : KVRWSet) : Prop :=
  (∀ r ∈ s.reads, utf8Valid r.key = true) ∧ ∀ w ∈ s.writes, utf8Valid w.key = true

def TxReadWriteSet.Encodable (s : TxReadWriteSet) : Prop :=
  ∀ n ∈ s.nsRwset, utf8Valid n.ns = true

end Encodable

/-- `proto.Marshal` and `proto.Unmarshal`, one pair for each message type. -/
structure Codecs where
  channelHeader : Codec ChannelHeader
  signatureHeader : Codec SignatureHeader
  header : Codec Header
  payload : Codec Payload
  envelope : Codec Envelope
  config : Codec Config
  configEnvelope : Codec ConfigEnvelope
  proposal : Codec Proposal
  chaincodeInvocationSpec : Codec ChaincodeInvocationSpec
  chaincodeProposalPayload : Codec ChaincodeProposalPayload
  chaincodeActionPayload : Codec ChaincodeActionPayload
  transaction : Codec Transaction
  proposalResponsePayload : Codec ProposalResponsePayload
  chaincodeAction : Codec ChaincodeAction
  chaincodeEvent : Codec ChaincodeEvent
  kvRWSet : Codec KVRWSet
  txReadWriteSet : Codec TxReadWriteSet
  identity : Codec Identity
  tx : Codec Tx
  metadata : Codec Metadata

/-- What the SDK relies on for the messages it both encodes and decodes. Strings
have to be valid UTF-8 and integers have to fit their type, nothing else keeps a
message from being encoded. -/
structure Codecs.Lawful (c : Codecs) : Prop where
  channelHeader : c.channelHeader.Lawful ChannelHeader.Encodable
  signatureHeader : c.signatureHeader.Lawful fun _ => True
  header : c.header.Lawful fun _ => True
  payload : c.payload.Lawful fun _ => True
  identity : c.identity.Lawful Identity.Encodable
  tx : c.tx.Lawful Tx.Encodable
  metadata : c.metadata.Lawful Metadata.Encodable

/-- The same for the messages of classic Fabric, where keys are strings. No bytes are
the event with nothing set. -/
structure Codecs.LawfulFabric (c : Codecs) : Prop extends c.Lawful where
  proposal : c.proposal.Lawful fun _ => True
  chaincodeInvocationSpec : c.chaincodeInvocationSpec.Lawful ChaincodeInvocationSpec.Encodable
  chaincodeProposalPayload : c.chaincodeProposalPayload.Lawful fun _ => True
  chaincodeActionPayload : c.chaincodeActionPayload.Lawful fun _ => True
  transaction : c.transaction.Lawful fun _ => True
  proposalResponsePayload : c.proposalResponsePayload.Lawful fun _ => True
  chaincodeAction : c.chaincodeAction.Lawful ChaincodeAction.Encodable
  chaincodeEvent : c.chaincodeEvent.Lawful ChaincodeEvent.Encodable
  chaincodeEvent_nil : c.chaincodeEvent.unmarshal [] = .ok ⟨[], [], [], []⟩
  kvRWSet : c.kvRWSet.Lawful KVRWSet.Encodable
  txReadWriteSet : c.txReadWriteSet.Lawful TxReadWriteSet.Encodable

/-- The same for envelopes and the configurations in them. -/
structure Codecs.LawfulConfig (c : Codecs) : Prop extends c.Lawful where
  envelope : c.envelope.Lawful fun _ => True
  config : c.config.Lawful fun _ => True
  configEnvelope : c.configEnvelope.Lawful fun _ => True

end FabricXSdk.Proto

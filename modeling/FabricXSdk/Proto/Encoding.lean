import FabricXSdk.Proto.Messages

/-!
# The protobuf encoding of the messages

`Codecs.protobuf` encodes and decodes every message of the model by its fields.
The predicates `Encodable` say which messages can be encoded: strings have to be
valid UTF-8 and signed integers have to fit their type.
-/

namespace FabricXSdk.Proto

open Golang Protobuf Body

section Common

def timestampBody : Body Timestamp :=
  (field 1 .int64 <| field 2 .int32 <| nil).iso
    (fun m => (m.seconds, m.nanos, ())) (fun t => ⟨t.1, t.2.1⟩) (fun _ => rfl) (fun _ => rfl)

def channelHeaderBody : Body ChannelHeader :=
  (field 1 .int32 <| field 2 .int32 <| field 3 (.message timestampBody) <| field 4 .string <|
    field 5 .string <| field 6 .uint <| field 7 .bytes <| field 8 .bytes <| nil).iso
    (fun m => (m.type, m.version, m.timestamp, m.channelId, m.txId, m.epoch, m.extension,
      m.tlsCertHash, ()))
    (fun t => ⟨t.1, t.2.1, t.2.2.1, t.2.2.2.1, t.2.2.2.2.1, t.2.2.2.2.2.1, t.2.2.2.2.2.2.1,
      t.2.2.2.2.2.2.2.1⟩) (fun _ => rfl) (fun _ => rfl)

def signatureHeaderBody : Body SignatureHeader :=
  (field 1 .bytes <| field 2 .bytes <| nil).iso
    (fun m => (m.creator, m.nonce, ())) (fun t => ⟨t.1, t.2.1⟩) (fun _ => rfl) (fun _ => rfl)

def headerBody : Body Header :=
  (field 1 .bytes <| field 2 .bytes <| nil).iso
    (fun m => (m.channelHeader, m.signatureHeader, ())) (fun t => ⟨t.1, t.2.1⟩)
    (fun _ => rfl) (fun _ => rfl)

def payloadBody : Body Payload :=
  (field 1 (.message headerBody) <| field 2 .bytes <| nil).iso
    (fun m => (m.header, m.data, ())) (fun t => ⟨t.1, t.2.1⟩) (fun _ => rfl) (fun _ => rfl)

def envelopeBody : Body Envelope :=
  (field 1 .bytes <| field 2 .bytes <| nil).iso
    (fun m => (m.payload, m.signature, ())) (fun t => ⟨t.1, t.2.1⟩) (fun _ => rfl) (fun _ => rfl)

def configBody : Body Config :=
  (field 1 .uint <| field 2 .optionalBytes <| nil).iso
    (fun m => (m.sequence, m.channelGroup, ())) (fun t => ⟨t.1, t.2.1⟩)
    (fun _ => rfl) (fun _ => rfl)

def configEnvelopeBody : Body ConfigEnvelope :=
  (field 1 (.message configBody) <| nil).iso
    (fun m => (m.config, ())) (fun t => ⟨t.1⟩) (fun _ => rfl) (fun _ => rfl)

end Common

section Fabric

def endorsementBody : Body Endorsement :=
  (field 1 .bytes <| field 2 .bytes <| nil).iso
    (fun m => (m.endorser, m.signature, ())) (fun t => ⟨t.1, t.2.1⟩) (fun _ => rfl) (fun _ => rfl)

def responseBody : Body Response :=
  (field 1 .int32 <| field 2 .string <| field 3 .bytes <| nil).iso
    (fun m => (m.status, m.message, m.payload, ())) (fun t => ⟨t.1, t.2.1, t.2.2.1⟩)
    (fun _ => rfl) (fun _ => rfl)

def proposalBody : Body Proposal :=
  (field 1 .bytes <| field 2 .bytes <| field 3 .bytes <| nil).iso
    (fun m => (m.header, m.payload, m.extension, ())) (fun t => ⟨t.1, t.2.1, t.2.2.1⟩)
    (fun _ => rfl) (fun _ => rfl)

def chaincodeIDBody : Body ChaincodeID :=
  (field 1 .string <| field 2 .string <| field 3 .string <| nil).iso
    (fun m => (m.path, m.name, m.version, ())) (fun t => ⟨t.1, t.2.1, t.2.2.1⟩)
    (fun _ => rfl) (fun _ => rfl)

def chaincodeInputBody : Body ChaincodeInput :=
  (field 1 .repeatedBytes <| nil).iso
    (fun m => (m.args, ())) (fun t => ⟨t.1⟩) (fun _ => rfl) (fun _ => rfl)

def chaincodeSpecBody : Body ChaincodeSpec :=
  (field 1 .int32 <| field 2 (.message chaincodeIDBody) <|
    field 3 (.message chaincodeInputBody) <| nil).iso
    (fun m => (m.type, m.chaincodeId, m.input, ())) (fun t => ⟨t.1, t.2.1, t.2.2.1⟩)
    (fun _ => rfl) (fun _ => rfl)

def chaincodeInvocationSpecBody : Body ChaincodeInvocationSpec :=
  (field 1 (.message chaincodeSpecBody) <| nil).iso
    (fun m => (m.chaincodeSpec, ())) (fun t => ⟨t.1⟩) (fun _ => rfl) (fun _ => rfl)

def chaincodeProposalPayloadBody : Body ChaincodeProposalPayload :=
  (field 1 .bytes <| nil).iso
    (fun m => (m.input, ())) (fun t => ⟨t.1⟩) (fun _ => rfl) (fun _ => rfl)

def chaincodeEndorsedActionBody : Body ChaincodeEndorsedAction :=
  (field 1 .bytes <| field 2 (.messages endorsementBody) <| nil).iso
    (fun m => (m.proposalResponsePayload, m.endorsements, ())) (fun t => ⟨t.1, t.2.1⟩)
    (fun _ => rfl) (fun _ => rfl)

def chaincodeActionPayloadBody : Body ChaincodeActionPayload :=
  (field 1 .bytes <| field 2 (.message chaincodeEndorsedActionBody) <| nil).iso
    (fun m => (m.chaincodeProposalPayload, m.action, ())) (fun t => ⟨t.1, t.2.1⟩)
    (fun _ => rfl) (fun _ => rfl)

def transactionActionBody : Body TransactionAction :=
  (field 1 .bytes <| field 2 .bytes <| nil).iso
    (fun m => (m.header, m.payload, ())) (fun t => ⟨t.1, t.2.1⟩) (fun _ => rfl) (fun _ => rfl)

def transactionBody : Body Transaction :=
  (field 1 (.messages transactionActionBody) <| nil).iso
    (fun m => (m.actions, ())) (fun t => ⟨t.1⟩) (fun _ => rfl) (fun _ => rfl)

def proposalResponsePayloadBody : Body ProposalResponsePayload :=
  (field 1 .bytes <| field 2 .bytes <| nil).iso
    (fun m => (m.proposalHash, m.extension, ())) (fun t => ⟨t.1, t.2.1⟩)
    (fun _ => rfl) (fun _ => rfl)

def chaincodeActionBody : Body ChaincodeAction :=
  (field 1 .bytes <| field 2 .bytes <| field 3 (.message responseBody) <|
    field 4 (.message chaincodeIDBody) <| nil).iso
    (fun m => (m.results, m.events, m.response, m.chaincodeId, ()))
    (fun t => ⟨t.1, t.2.1, t.2.2.1, t.2.2.2.1⟩) (fun _ => rfl) (fun _ => rfl)

def chaincodeEventBody : Body ChaincodeEvent :=
  (field 1 .string <| field 2 .string <| field 3 .string <| field 4 .bytes <| nil).iso
    (fun m => (m.chaincodeId, m.txId, m.eventName, m.payload, ()))
    (fun t => ⟨t.1, t.2.1, t.2.2.1, t.2.2.2.1⟩) (fun _ => rfl) (fun _ => rfl)

def versionBody : Body Version :=
  (field 1 .uint <| field 2 .uint <| nil).iso
    (fun m => (m.blockNum, m.txNum, ())) (fun t => ⟨t.1, t.2.1⟩) (fun _ => rfl) (fun _ => rfl)

def kvReadBody : Body KVRead :=
  (field 1 .string <| field 2 (.message versionBody) <| nil).iso
    (fun m => (m.key, m.version, ())) (fun t => ⟨t.1, t.2.1⟩) (fun _ => rfl) (fun _ => rfl)

def kvWriteBody : Body KVWrite :=
  (field 1 .string <| field 2 .bool <| field 3 .bytes <| nil).iso
    (fun m => (m.key, m.isDelete, m.value, ())) (fun t => ⟨t.1, t.2.1, t.2.2.1⟩)
    (fun _ => rfl) (fun _ => rfl)

def kvRWSetBody : Body KVRWSet :=
  (field 1 (.messages kvReadBody) <| field 3 (.messages kvWriteBody) <| nil).iso
    (fun m => (m.reads, m.writes, ())) (fun t => ⟨t.1, t.2.1⟩) (fun _ => rfl) (fun _ => rfl)

def nsReadWriteSetBody : Body NsReadWriteSet :=
  (field 1 .string <| field 2 .bytes <| nil).iso
    (fun m => (m.ns, m.rwset, ())) (fun t => ⟨t.1, t.2.1⟩) (fun _ => rfl) (fun _ => rfl)

def txReadWriteSetBody : Body TxReadWriteSet :=
  -- field 1, the data model, is neither set nor read
  (field 2 (.messages nsReadWriteSetBody) <| nil).iso
    (fun m => (m.nsRwset, ())) (fun t => ⟨t.1⟩) (fun _ => rfl) (fun _ => rfl)

end Fabric

section FabricX

def readBody : Body Read :=
  (field 1 .bytes <| field 2 .optionalUint <| nil).iso
    (fun m => (m.key, m.version, ())) (fun t => ⟨t.1, t.2.1⟩) (fun _ => rfl) (fun _ => rfl)

def readWriteBody : Body ReadWrite :=
  (field 1 .bytes <| field 2 .optionalUint <| field 3 .bytes <| nil).iso
    (fun m => (m.key, m.version, m.value, ())) (fun t => ⟨t.1, t.2.1, t.2.2.1⟩)
    (fun _ => rfl) (fun _ => rfl)

def writeBody : Body Write :=
  (field 1 .bytes <| field 2 .bytes <| nil).iso
    (fun m => (m.key, m.value, ())) (fun t => ⟨t.1, t.2.1⟩) (fun _ => rfl) (fun _ => rfl)

def txNamespaceBody : Body TxNamespace :=
  (field 1 .string <| field 2 .uint <| field 3 (.messages readBody) <|
    field 4 (.messages readWriteBody) <| field 5 (.messages writeBody) <| nil).iso
    (fun m => (m.nsId, m.nsVersion, m.readsOnly, m.readWrites, m.blindWrites, ()))
    (fun t => ⟨t.1, t.2.1, t.2.2.1, t.2.2.2.1, t.2.2.2.2.1⟩) (fun _ => rfl) (fun _ => rfl)

def identityBody : Body Identity :=
  (field 1 .string <| field 2 .bytes <| field 3 .string <| nil).iso
    (fun m => (m.mspId, m.certificate, m.certificateId, ())) (fun t => ⟨t.1, t.2.1, t.2.2.1⟩)
    (fun _ => rfl) (fun _ => rfl)

def endorsementWithIdentityBody : Body EndorsementWithIdentity :=
  (field 1 .bytes <| field 2 (.message identityBody) <| nil).iso
    (fun m => (m.endorsement, m.identity, ())) (fun t => ⟨t.1, t.2.1⟩) (fun _ => rfl) (fun _ => rfl)

def endorsementsBody : Body Endorsements :=
  (field 1 (.messages endorsementWithIdentityBody) <| nil).iso
    (fun m => (m.endorsementsWithIdentity, ())) (fun t => ⟨t.1⟩) (fun _ => rfl) (fun _ => rfl)

def txBody : Body Tx :=
  (field 1 (.messages txNamespaceBody) <| field 2 (.messages endorsementsBody) <|
    field 3 .repeatedBytes <| nil).iso
    (fun m => (m.namespaces, m.endorsements, m.metadata, ())) (fun t => ⟨t.1, t.2.1, t.2.2.1⟩)
    (fun _ => rfl) (fun _ => rfl)

def metadataBody : Body Metadata :=
  (field 1 .repeatedBytes <| field 2 .bytes <| field 3 .string <| field 4 .bytes <| nil).iso
    (fun m => (m.inputArgs, m.event, m.eventName, m.payload, ()))
    (fun t => ⟨t.1, t.2.1, t.2.2.1, t.2.2.2.1⟩) (fun _ => rfl) (fun _ => rfl)

end FabricX

def Codecs.protobuf : Codecs where
  channelHeader := channelHeaderBody.codec
  signatureHeader := signatureHeaderBody.codec
  header := headerBody.codec
  payload := payloadBody.codec
  envelope := envelopeBody.codec
  config := configBody.codec
  configEnvelope := configEnvelopeBody.codec
  proposal := proposalBody.codec
  chaincodeInvocationSpec := chaincodeInvocationSpecBody.codec
  chaincodeProposalPayload := chaincodeProposalPayloadBody.codec
  chaincodeActionPayload := chaincodeActionPayloadBody.codec
  transaction := transactionBody.codec
  proposalResponsePayload := proposalResponsePayloadBody.codec
  chaincodeAction := chaincodeActionBody.codec
  chaincodeEvent := chaincodeEventBody.codec
  kvRWSet := kvRWSetBody.codec
  txReadWriteSet := txReadWriteSetBody.codec
  identity := identityBody.codec
  tx := txBody.codec
  metadata := metadataBody.codec

section Lawful

theorem timestampBody_ok (t : Timestamp) : t.Encodable ↔ timestampBody.ok t = true := by
  simp [Timestamp.Encodable, FitsInt32, timestampBody]

theorem channelHeaderBody_ok (h : ChannelHeader) :
    h.Encodable ↔ channelHeaderBody.ok h = true := by
  simp [ChannelHeader.Encodable, FitsInt32, channelHeaderBody, timestampBody_ok]

theorem signatureHeaderBody_ok (h : SignatureHeader) : signatureHeaderBody.ok h = true := rfl

theorem headerBody_ok (h : Header) : headerBody.ok h = true := rfl

theorem payloadBody_ok (p : Payload) : payloadBody.ok p = true := by
  simp [payloadBody, headerBody_ok]

theorem identityBody_ok (i : Identity) : i.Encodable ↔ identityBody.ok i = true := by
  simp [Identity.Encodable, identityBody]

theorem endorsementsBody_ok (e : Endorsements) : e.Encodable ↔ endorsementsBody.ok e = true := by
  simp [Endorsements.Encodable, endorsementsBody, endorsementWithIdentityBody, identityBody_ok]

theorem readBody_ok (r : Read) : readBody.ok r = true := rfl

theorem readWriteBody_ok (r : ReadWrite) : readWriteBody.ok r = true := rfl

theorem writeBody_ok (w : Write) : writeBody.ok w = true := rfl

theorem txNamespaceBody_ok (n : TxNamespace) :
    utf8Valid n.nsId = true ↔ txNamespaceBody.ok n = true := by
  simp [txNamespaceBody, readBody_ok, readWriteBody_ok, writeBody_ok]

theorem txBody_ok (tx : Tx) : tx.Encodable ↔ txBody.ok tx = true := by
  simp [Tx.Encodable, txBody, txNamespaceBody_ok, endorsementsBody_ok]

theorem metadataBody_ok (m : Metadata) : m.Encodable ↔ metadataBody.ok m = true := by
  simp [Metadata.Encodable, metadataBody]

theorem Codecs.protobuf_lawful : Codecs.protobuf.Lawful where
  channelHeader := codec_lawful _ channelHeaderBody_ok
  signatureHeader := codec_lawful _ fun h => iff_of_true trivial (signatureHeaderBody_ok h)
  header := codec_lawful _ fun h => iff_of_true trivial (headerBody_ok h)
  payload := codec_lawful _ fun p => iff_of_true trivial (payloadBody_ok p)
  identity := codec_lawful _ identityBody_ok
  tx := codec_lawful _ txBody_ok
  metadata := codec_lawful _ metadataBody_ok

theorem proposalBody_ok (p : Proposal) : proposalBody.ok p = true := rfl

theorem responseBody_ok (r : Response) : r.Encodable ↔ responseBody.ok r = true := by
  simp [Response.Encodable, FitsInt32, responseBody]

theorem chaincodeIDBody_ok (i : ChaincodeID) : i.Encodable ↔ chaincodeIDBody.ok i = true := by
  simp [ChaincodeID.Encodable, chaincodeIDBody]

theorem chaincodeInputBody_ok (i : ChaincodeInput) : chaincodeInputBody.ok i = true := rfl

theorem chaincodeSpecBody_ok (s : ChaincodeSpec) : s.Encodable ↔ chaincodeSpecBody.ok s = true := by
  simp [ChaincodeSpec.Encodable, FitsInt32, chaincodeSpecBody, chaincodeIDBody_ok,
    chaincodeInputBody_ok]

theorem chaincodeInvocationSpecBody_ok (s : ChaincodeInvocationSpec) :
    s.Encodable ↔ chaincodeInvocationSpecBody.ok s = true := by
  simp [ChaincodeInvocationSpec.Encodable, chaincodeInvocationSpecBody, chaincodeSpecBody_ok]

theorem chaincodeProposalPayloadBody_ok (p : ChaincodeProposalPayload) :
    chaincodeProposalPayloadBody.ok p = true := rfl

theorem endorsementBody_ok (e : Endorsement) : endorsementBody.ok e = true := rfl

theorem chaincodeEndorsedActionBody_ok (a : ChaincodeEndorsedAction) :
    chaincodeEndorsedActionBody.ok a = true := by
  simp [chaincodeEndorsedActionBody, endorsementBody_ok]

theorem chaincodeActionPayloadBody_ok (p : ChaincodeActionPayload) :
    chaincodeActionPayloadBody.ok p = true := by
  simp [chaincodeActionPayloadBody, chaincodeEndorsedActionBody_ok]

theorem transactionActionBody_ok (a : TransactionAction) : transactionActionBody.ok a = true := rfl

theorem transactionBody_ok (tx : Transaction) : transactionBody.ok tx = true := by
  simp [transactionBody, transactionActionBody_ok]

theorem proposalResponsePayloadBody_ok (p : ProposalResponsePayload) :
    proposalResponsePayloadBody.ok p = true := rfl

theorem chaincodeActionBody_ok (a : ChaincodeAction) :
    a.Encodable ↔ chaincodeActionBody.ok a = true := by
  simp [ChaincodeAction.Encodable, chaincodeActionBody, responseBody_ok, chaincodeIDBody_ok]

theorem chaincodeEventBody_ok (e : ChaincodeEvent) :
    e.Encodable ↔ chaincodeEventBody.ok e = true := by
  simp [ChaincodeEvent.Encodable, chaincodeEventBody]

theorem versionBody_ok (v : Version) : versionBody.ok v = true := rfl

theorem kvReadBody_ok (r : KVRead) : utf8Valid r.key = true ↔ kvReadBody.ok r = true := by
  simp [kvReadBody, versionBody_ok]

theorem kvWriteBody_ok (w : KVWrite) : utf8Valid w.key = true ↔ kvWriteBody.ok w = true := by
  simp [kvWriteBody]

theorem kvRWSetBody_ok (s : KVRWSet) : s.Encodable ↔ kvRWSetBody.ok s = true := by
  simp [KVRWSet.Encodable, kvRWSetBody, kvReadBody_ok, kvWriteBody_ok]

theorem nsReadWriteSetBody_ok (n : NsReadWriteSet) :
    utf8Valid n.ns = true ↔ nsReadWriteSetBody.ok n = true := by
  simp [nsReadWriteSetBody]

theorem txReadWriteSetBody_ok (s : TxReadWriteSet) :
    s.Encodable ↔ txReadWriteSetBody.ok s = true := by
  simp [TxReadWriteSet.Encodable, txReadWriteSetBody, nsReadWriteSetBody_ok]

theorem Codecs.protobuf_lawfulFabric : Codecs.protobuf.LawfulFabric where
  toLawful := Codecs.protobuf_lawful
  proposal := codec_lawful _ fun p => iff_of_true trivial (proposalBody_ok p)
  chaincodeInvocationSpec := codec_lawful _ chaincodeInvocationSpecBody_ok
  chaincodeProposalPayload :=
    codec_lawful _ fun p => iff_of_true trivial (chaincodeProposalPayloadBody_ok p)
  chaincodeActionPayload :=
    codec_lawful _ fun p => iff_of_true trivial (chaincodeActionPayloadBody_ok p)
  transaction := codec_lawful _ fun tx => iff_of_true trivial (transactionBody_ok tx)
  proposalResponsePayload :=
    codec_lawful _ fun p => iff_of_true trivial (proposalResponsePayloadBody_ok p)
  chaincodeAction := codec_lawful _ chaincodeActionBody_ok
  chaincodeEvent := codec_lawful _ chaincodeEventBody_ok
  chaincodeEvent_nil := rfl
  kvRWSet := codec_lawful _ kvRWSetBody_ok
  txReadWriteSet := codec_lawful _ txReadWriteSetBody_ok

theorem envelopeBody_ok (e : Envelope) : envelopeBody.ok e = true := rfl

theorem configBody_ok (config : Config) : configBody.ok config = true := rfl

theorem configEnvelopeBody_ok (e : ConfigEnvelope) : configEnvelopeBody.ok e = true := by
  simp [configEnvelopeBody, configBody_ok]

theorem Codecs.protobuf_lawfulConfig : Codecs.protobuf.LawfulConfig where
  toLawful := Codecs.protobuf_lawful
  envelope := codec_lawful _ fun e => iff_of_true trivial (envelopeBody_ok e)
  config := codec_lawful _ fun config => iff_of_true trivial (configBody_ok config)
  configEnvelope := codec_lawful _ fun e => iff_of_true trivial (configEnvelopeBody_ok e)

end Lawful

end FabricXSdk.Proto

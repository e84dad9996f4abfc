import FabricXSdk.Endorsement.Types

/-!
# Classic Fabric invocations and endorsements

`NewInvocation` builds a full chaincode proposal, and `Parse` reads one back at the
endorser. `Endorse` marshals the read/write set in key order and signs the proposal
response payload together with the endorser's identity.

## Implementation notes

The helpers of package `protoutil` that assemble a proposal, hash it and assemble
a proposal response payload are parameters; `Protoutil.Lawful` says what is relied
on. A time is a number of nanoseconds, and `none` is the zero time. In error
messages a header type is its number, and the printed form of a rejected timestamp
or invocation spec is left out. `marshalRWSet` sorts the slices of its caller, which
a function on lists cannot show; nothing here looks at them afterwards.
-/

namespace FabricXSdk.Endorsement.Fabric

open Golang Blocks

/-- The helpers of `protoutil` used here, at one moment of the clock. -/
structure Protoutil where
  computeTxID : Bytes → Bytes → GoString
  createChaincodeProposal : GoString → Int → GoString → Proto.ChaincodeInvocationSpec → Bytes →
    Bytes → Outcome Proto.Proposal
  getProposalHash1 : Proto.Header → Bytes → Except Text Bytes
  getBytesProposalResponsePayload : Bytes → Proto.Response → Bytes → Bytes → Proto.ChaincodeID →
    Except Text Bytes

/-- A created proposal carries the channel header it was created with. -/
structure Protoutil.Lawful (pu : Protoutil) (c : Proto.Codecs) : Prop where
  header : ∀ txID type channel cis nonce creator prop,
    pu.createChaincodeProposal txID type channel cis nonce creator = .ok prop →
      ∃ hdr chdr, c.header.unmarshal prop.header = .ok hdr ∧
        c.channelHeader.unmarshal hdr.channelHeader = .ok chdr ∧ chdr.type = type ∧
        chdr.channelId = channel ∧ chdr.txId = txID

/-- `ChaincodeSpec_CAR`. -/
def chaincodeSpecCAR : Int := 3

section Invocation

variable (c : Proto.Codecs) (pu : Protoutil)

def newInvocation (signer : Option Signer) (rand : Except Text Bytes)
    (channel ns chaincodeVersion : GoString) (args : List Bytes) : Outcome Invocation :=
  match signer with
  | none => .error [.lit "nil signer"]
  | some signer => do
      let creator ← Outcome.lift signer.serialize
      let nonce ← Outcome.ofExcept "read nonce" rand
      let txID := pu.computeTxID nonce creator
      let proposal ← pu.createChaincodeProposal txID Proto.headerTypeEndorserTransaction channel
        ⟨some ⟨chaincodeSpecCAR, some ⟨[], ns, chaincodeVersion⟩, some ⟨args⟩⟩⟩ nonce creator
      let hdr ← Outcome.ofExcept "error unmarshaling Header" (c.header.unmarshal proposal.header)
      let propHash ← Outcome.lift (pu.getProposalHash1 hdr proposal.payload)
      pure
        { txID := txID
          nonce := nonce
          creator := creator
          args := args
          ns := ns
          chaincodeVersion := chaincodeVersion
          nsVersion := 0
          channel := channel
          proposal := some proposal
          proposalHash := propHash }

/-- The instant of a timestamp, in nanoseconds. -/
def instant (t : Proto.Timestamp) : Int := t.seconds * 10 ^ 9 + t.nanos

/-- Five minutes, in nanoseconds. -/
def clockSkew : Int := 300 * 10 ^ 9

/-- The checks of `Parse` on the channel header. -/
def checkChannelHeader (chdr : Proto.ChannelHeader) (expectedTime : Option Int) : Outcome Unit :=
  if chdr.type ≠ Proto.headerTypeEndorserTransaction then
    .error [.lit "invalid header type ", .num chdr.type]
  else if chdr.epoch ≠ 0 then .error [.lit "epoch is non-zero"]
  else
    match chdr.timestamp, expectedTime with
    | none, _ => .error [.lit "proposal timestamp is required"]
    -- the zero time stands for no check
    | some _, none => .ok ()
    | some t, some expected =>
        if instant t < expected - clockSkew ∨ expected + clockSkew < instant t then
          .error [.lit "proposal timestamp outside valid window"]
        else .ok ()

/-- The checks of `Parse` on the signature header. -/
def checkSignatureHeader (txID : GoString) (shdr : Proto.SignatureHeader) : Outcome Unit :=
  let expected := pu.computeTxID shdr.nonce shdr.creator
  if shdr.nonce.length = 0 then .error [.lit "nonce is empty"]
  else if shdr.creator.length = 0 then .error [.lit "creator is empty"]
  else if txID ≠ expected then
    .error [.lit "txid mismatch [", .str txID, .lit " != expected ", .str expected, .lit "]"]
  else .ok ()

/-- The chaincode and the arguments of an invocation spec with at least one argument. -/
def invocationSpec (txID : GoString) (cis : Proto.ChaincodeInvocationSpec) :
    Outcome (Option Proto.ChaincodeID × List Bytes) :=
  match cis.chaincodeSpec with
  | some ⟨_, ccid, some ⟨arg :: args⟩⟩ => .ok (ccid, arg :: args)
  | _ => .error [.lit "invalid spec for tx ", .str txID]

def parse (signedProp : Proto.SignedProposal) (expectedTime : Option Int) :
    Outcome Invocation := do
  let prop ← Outcome.ofExcept "error unmarshaling Proposal"
    (c.proposal.unmarshal signedProp.proposalBytes)
  let hdr ← Outcome.ofExcept "error unmarshaling Header" (c.header.unmarshal prop.header)
  let chdr ← Outcome.ofExcept "error unmarshaling ChannelHeader"
    (c.channelHeader.unmarshal hdr.channelHeader)
  checkChannelHeader chdr expectedTime
  let shdr ← Outcome.ofExcept "error unmarshaling SignatureHeader"
    (c.signatureHeader.unmarshal hdr.signatureHeader)
  checkSignatureHeader pu chdr.txId shdr
  let cpp ← Outcome.ofExcept "error unmarshaling ChaincodeProposalPayload"
    (c.chaincodeProposalPayload.unmarshal prop.payload)
  let cis ← Outcome.ofExcept "error unmarshaling ChaincodeInvocationSpec"
    (c.chaincodeInvocationSpec.unmarshal cpp.input)
  let (ccid, args) ← invocationSpec chdr.txId cis
  let propHash ← Outcome.lift (pu.getProposalHash1 hdr prop.payload)
  pure
    { txID := chdr.txId
      nonce := shdr.nonce
      creator := shdr.creator
      args := args
      ns := (ccid.map Proto.ChaincodeID.name).getD []
      chaincodeVersion := (ccid.map Proto.ChaincodeID.version).getD []
      nsVersion := 0
      channel := chdr.channelId
      proposal := some prop
      proposalHash := propHash }

end Invocation

section Endorse

variable (c : Proto.Codecs) (pu : Protoutil)

def marshalOrPanic {M : Type} (codec : Protobuf.Codec M) (m : M) : Outcome Bytes :=
  match codec.marshal m with
  | .ok b => .ok b
  | .error _ => .panic

def marshalRead (r : KVRead) : Proto.KVRead where
  key := r.key
  version := r.version.map fun v => ⟨v.blockNum, v.txNum⟩

def marshalWrite (w : KVWrite) : Proto.KVWrite where
  key := w.key
  isDelete := w.isDelete
  value := w.value

def marshalRWSet (rt : Runtime) (res : ReadWriteSet) (ns : GoString) : Outcome Bytes := do
  let rwset ← marshalOrPanic c.kvRWSet
    { reads := (rt.sortBy KVRead.key res.reads).map marshalRead
      writes := (rt.sortBy KVWrite.key res.writes).map marshalWrite }
  marshalOrPanic c.txReadWriteSet ⟨[⟨ns, rwset⟩]⟩

def marshalEvent (inv : Invocation) (res : ExecutionResult) : Outcome Bytes :=
  if res.eventName ≠ [] then
    Outcome.ofExcept "marshal events"
      (c.chaincodeEvent.marshal ⟨inv.ns, inv.txID, res.eventName, res.event⟩)
  else .ok []

/-- The part of `Endorse` before the signer is asked: the response payload. -/
def prepare (rt : Runtime) (inv : Invocation) (res : ExecutionResult) : Outcome Bytes := do
  res.validate
  let simResBytes ← marshalRWSet c rt res.rws inv.ns
  let event ← marshalEvent c inv res
  -- the signed response has status 200 and no message, whatever the result has
  Outcome.ofExcept "marshal response" (pu.getBytesProposalResponsePayload inv.proposalHash
    ⟨200, [], res.payload⟩ simResBytes event ⟨[], inv.ns, inv.chaincodeVersion⟩)

def endorse (rt : Runtime) (signer : Signer) (inv : Invocation) (res : ExecutionResult) :
    Outcome Proto.ProposalResponse := do
  let prpBytes ← prepare c pu rt inv res
  let identityBytes ← Outcome.lift signer.serialize
  let sig ← Outcome.lift (signer.sign (prpBytes ++ identityBytes))
  pure
    { version := 1
      response := some res.response
      payload := prpBytes
      endorsement := some ⟨identityBytes, sig⟩ }

end Endorse

section Spec

variable {c : Proto.Codecs} {pu : Protoutil} {inv : Invocation}

theorem marshalOrPanic_eq_ok {M : Type} {codec : Protobuf.Codec M} {m : M} {b : Bytes} :
    marshalOrPanic codec m = .ok b ↔ codec.marshal m = .ok b := by
  simp only [marshalOrPanic]
  split <;> simp_all

theorem newInvocation_proposes (hpu : pu.Lawful c) {signer : Option Signer}
    {rand : Except Text Bytes} {channel ns chaincodeVersion : GoString} {args : List Bytes}
    (h : newInvocation c pu signer rand channel ns chaincodeVersion args = .ok inv) :
    inv.Proposes c Proto.headerTypeEndorserTransaction := by
  cases signer with
  | none => cases h
  | some signer =>
      simp only [newInvocation, Outcome.bind_eq_ok, Outcome.lift_eq_ok, Outcome.pure_eq,
        Outcome.ok.injEq] at h
      obtain ⟨creator, _, nonce, _, prop, hprop, _, _, _, _, rfl⟩ := h
      obtain ⟨hdr, chdr, hhdr, hchdr, htype, hchannel, htxID⟩ := hpu.header _ _ _ _ _ _ _ hprop
      exact ⟨prop, hdr, chdr, rfl, hhdr, hchdr, htype, htxID, hchannel⟩

theorem checkChannelHeader_type {chdr : Proto.ChannelHeader} {expectedTime : Option Int}
    (h : checkChannelHeader chdr expectedTime = .ok ()) :
    chdr.type = Proto.headerTypeEndorserTransaction := by
  simp only [checkChannelHeader] at h
  split at h
  · cases h
  · rename_i htype
    exact not_not.mp htype

theorem parse_proposes {signedProp : Proto.SignedProposal} {expectedTime : Option Int}
    (h : parse c pu signedProp expectedTime = .ok inv) :
    inv.Proposes c Proto.headerTypeEndorserTransaction := by
  simp only [parse, Outcome.bind_eq_ok, Outcome.ofExcept_eq_ok, Outcome.pure_eq,
    Outcome.ok.injEq] at h
  obtain ⟨prop, _, hdr, hhdr, chdr, hchdr, _, htype, shdr, _, _, _, cpp, _, cis, _, spec, _, _, _,
    rfl⟩ := h
  exact ⟨prop, hdr, chdr, rfl, hhdr, hchdr, checkChannelHeader_type htype, rfl, rfl⟩

theorem endorse_eq_ok {rt : Runtime} {signer : Signer} {res : ExecutionResult}
    {r : Proto.ProposalResponse} :
    endorse c pu rt signer inv res = .ok r ↔
      ∃ prpBytes identityBytes sig, prepare c pu rt inv res = .ok prpBytes ∧
        signer.serialize = .ok identityBytes ∧ signer.sign (prpBytes ++ identityBytes) = .ok sig ∧
        r = ⟨1, some res.response, prpBytes, some ⟨identityBytes, sig⟩⟩ := by
  simp only [endorse, Outcome.bind_eq_ok, Outcome.lift_eq_ok, Outcome.pure_eq, Outcome.ok.injEq]
  constructor
  · rintro ⟨prpBytes, hprep, identityBytes, hid, sig, hsig, rfl⟩
    exact ⟨prpBytes, identityBytes, sig, hprep, hid, hsig, rfl⟩
  · rintro ⟨prpBytes, identityBytes, sig, hprep, hid, hsig, rfl⟩
    exact ⟨prpBytes, hprep, identityBytes, hid, sig, hsig, rfl⟩

end Spec

end FabricXSdk.Endorsement.Fabric

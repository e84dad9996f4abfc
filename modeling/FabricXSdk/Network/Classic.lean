import FabricXSdk.Endorsement.Results
import FabricXSdk.Network.RoundTrip

/-!
# Endorsing, packaging and parsing in classic Fabric

The result of an execution is wrapped in a read/write set, a chaincode action and a
response payload by the endorser, and in an endorsed action, a transaction, a payload
and an envelope by the packager. `ParseTx` takes all of them off again and finds what
was executed, with the reads and writes in the order of their keys.

## Implementation notes

`PackageTx` is one call of `protoutil.CreateSignedTx`, which is a parameter.
`CreateSignedTx.Lawful` says what is relied on.
-/

namespace FabricXSdk.Network.Fabric

open Golang Blocks Endorsement
open FabricX (Working Successful checkResponses uniqueEndorsements)

/-- `protoutil.CreateSignedTx`. -/
abbrev CreateSignedTx :=
  Option Proto.Proposal → Option Signer → List Proto.ProposalResponse → Outcome Proto.Envelope

/-- An envelope with the header of the proposal, around one action that has the proposal
payload and the endorsed response payload. -/
def Wraps (c : Proto.Codecs) (hdr : Proto.Header) (cpp : Proto.ChaincodeProposalPayload)
    (prpBytes : Bytes) (env : Proto.Envelope) : Prop :=
  ∃ pl ptx action cap endorsed, c.payload.unmarshal env.payload = .ok pl ∧ pl.header = some hdr ∧
    c.transaction.unmarshal pl.data = .ok ptx ∧ ptx.actions = [action] ∧
    c.chaincodeActionPayload.unmarshal action.payload = .ok cap ∧
    c.chaincodeProposalPayload.unmarshal cap.chaincodeProposalPayload = .ok cpp ∧
    cap.action = some endorsed ∧ endorsed.proposalResponsePayload = prpBytes

/-- The envelope around one response carries the proposal payload, without transient
data, and the endorsed response payload. It is made for a successful response with an
endorsement if the signer is the creator of the proposal. -/
structure CreateSignedTx.Lawful (create : CreateSignedTx) (c : Proto.Codecs) : Prop where
  wraps : ∀ prop signer r env hdr cpp, create (some prop) signer [r] = .ok env →
    c.header.unmarshal prop.header = .ok hdr →
    c.chaincodeProposalPayload.unmarshal prop.payload = .ok cpp →
      Wraps c hdr cpp r.payload env
  succeeds : ∀ prop signer r hdr shdr cpp, c.header.unmarshal prop.header = .ok hdr →
    c.signatureHeader.unmarshal hdr.signatureHeader = .ok shdr →
    c.chaincodeProposalPayload.unmarshal prop.payload = .ok cpp → Successful r →
    r.endorsement.isSome = true → Working signer → signer.serialize = .ok shdr.creator →
      ∃ env, create (some prop) (some signer) [r] = .ok env

/-- `PackageTx` of a `TxPackager` with the signer. -/
def packageTx (create : CreateSignedTx) (signer : Option Signer) (proposal : Option Proto.Proposal)
    (responses : List Proto.ProposalResponse) : Outcome Proto.Envelope :=
  create proposal signer responses

/-- The read/write set in the order of its keys. -/
structure InKeyOrder (rws rws' : ReadWriteSet) : Prop where
  reads : rws'.reads.Perm rws.reads
  reads_sorted : rws'.reads.Pairwise fun a b => a.key < b.key
  writes : rws'.writes.Perm rws.writes
  writes_sorted : rws'.writes.Pairwise fun a b => a.key < b.key

/-- What a transaction parsed from a block keeps of an invocation and its result. -/
structure CarriesOver (inv : Invocation) (res : ExecutionResult) (tx : Transaction) : Prop where
  id : tx.id = inv.txID
  inputArgs : tx.inputArgs = inv.args
  event : tx.event = res.event
  eventName : tx.eventName = res.eventName
  payload : tx.payload = res.payload
  nsRWS : ∃ rws, tx.nsRWS = [⟨inv.ns, rws⟩] ∧ InKeyOrder res.rws rws

section Parse

variable {c : Proto.Codecs} {pu : Fabric.Protoutil} {now : Proto.Timestamp} {rt : Runtime}
  {inv : Invocation} {res : ExecutionResult}

theorem inKeyOrder_sorted (rt : Runtime) {rws : ReadWriteSet} (h : Distinct rws) :
    InKeyOrder rws (Fabric.sorted rt rws) where
  reads := rt.sortBy_perm KVRead.key rws.reads
  reads_sorted := rt.sortBy_strict KVRead.key h.reads
  writes := rt.sortBy_perm KVWrite.key rws.writes
  writes_sorted := rt.sortBy_strict KVWrite.key h.writes

/-- The proposal of an invocation, decoded. -/
def Proposed (c : Proto.Codecs) (now : Proto.Timestamp) (inv : Invocation) : Prop :=
  ∃ prop, inv.proposal = some prop ∧ Fabric.Created c now inv.txID
    Proto.headerTypeEndorserTransaction inv.channel
    ⟨some ⟨Fabric.chaincodeSpecCAR, some ⟨[], inv.ns, inv.chaincodeVersion⟩, some ⟨inv.args⟩⟩⟩
    inv.nonce inv.creator prop

theorem newInvocation_proposed (hpu : pu.Proposes c now) {client : Option Signer}
    {rand : Except Text Bytes} {channel ns chaincodeVersion : GoString} {args : List Bytes}
    (h : Fabric.newInvocation c pu client rand channel ns chaincodeVersion args = .ok inv) :
    Proposed c now inv := by
  cases client with
  | none => cases h
  | some signer =>
      simp only [Fabric.newInvocation, Outcome.bind_eq_ok, Outcome.pure_eq, Outcome.ok.injEq] at h
      obtain ⟨creator, _, nonce, _, prop, hprop, _, _, _, _, rfl⟩ := h
      exact ⟨prop, rfl, hpu.created _ _ _ _ _ _ _ hprop⟩

/-- The envelope carries the proposal of the invocation with the response payload. -/
def Encloses (c : Proto.Codecs) (inv : Invocation) (prpBytes : Bytes) (env : Proto.Envelope) :
    Prop :=
  ∀ prop hdr cpp, inv.proposal = some prop → c.header.unmarshal prop.header = .ok hdr →
    c.chaincodeProposalPayload.unmarshal prop.payload = .ok cpp → Wraps c hdr cpp prpBytes env

theorem CreateSignedTx.Lawful.encloses {create : CreateSignedTx} (hcreate : create.Lawful c)
    {signer : Option Signer} {r : Proto.ProposalResponse} {env : Proto.Envelope}
    (henv : packageTx create signer inv.proposal [r] = .ok env) : Encloses c inv r.payload env := by
  intro prop hdr cpp hinv hhdr hcpp
  rw [packageTx, hinv] at henv
  exact hcreate.wraps _ _ _ _ _ _ henv hhdr hcpp

/-- The layers of an envelope, down to the action the endorser has made. -/
theorem carries_of_encloses (hresp : pu.Responds c) (hprop : Proposed c now inv)
    {env : Proto.Envelope} {hash results events prpBytes : Bytes} {response : Proto.Response}
    {ccid : Proto.ChaincodeID} (henv : Encloses c inv prpBytes env)
    (hpayload : pu.getBytesProposalResponsePayload hash response results events ccid =
      .ok prpBytes) :
    Blocks.Fabric.Carries c env inv.txID inv.args ⟨results, events, some response, some ccid⟩ := by
  obtain ⟨prop, hinv, hdr, chdr, cpp, hhdr, hchdr, htype, _, htxID, _, _, _, hcpp, hcis⟩ := hprop
  obtain ⟨pl, ptx, action, cap, endorsed, hpl, hplhdr, hptx, hactions, hcap, hcapcpp, haction,
    hendorsed⟩ := henv prop hdr cpp hinv hhdr hcpp
  obtain ⟨prp, hprp, hact⟩ := hresp.payload _ _ _ _ _ _ hpayload
  rw [← hendorsed] at hprp
  have hopen : openEnvelope c env = .ok (pl, chdr) := by
    simp [openEnvelope, hpl, hplhdr, hchdr]
  exact ⟨pl, chdr, ptx, action, cap, cpp, _, endorsed, prp, hopen, htype, htxID, hptx, hactions,
    hcap, hcapcpp, hcis, rfl, haction, hprp, hact⟩

theorem prepare_eq_ok {prpBytes : Bytes} :
    Fabric.prepare c pu rt inv res = .ok prpBytes ↔
      res.validate = .ok () ∧ ∃ results events, Fabric.marshalRWSet c rt res.rws inv.ns =
          .ok results ∧ Fabric.marshalEvent c inv res = .ok events ∧
        pu.getBytesProposalResponsePayload inv.proposalHash ⟨200, [], res.payload⟩ results events
          ⟨[], inv.ns, inv.chaincodeVersion⟩ = .ok prpBytes := by
  simp only [Fabric.prepare, Outcome.bind_eq_ok, Outcome.ofExcept_eq_ok]
  constructor
  · rintro ⟨_, hvalid, results, hresults, events, hevents, h⟩
    exact ⟨hvalid, results, events, hresults, hevents, h⟩
  · rintro ⟨hvalid, results, events, hresults, hevents, h⟩
    exact ⟨(), hvalid, results, hresults, events, hevents, h⟩

/-- The parser gives back what was endorsed. -/
theorem parseTx_of_encloses (hc : c.LawfulFabric) (hresp : pu.Responds c)
    (hprop : Proposed c now inv) (hns : inv.ns ≠ []) (hd : Distinct res.rws) {endorser : Signer}
    {r : Proto.ProposalResponse} {env : Proto.Envelope}
    (hr : Fabric.endorse c pu rt endorser inv res = .ok r) (henv : Encloses c inv r.payload env) :
    ∃ tx, Blocks.Fabric.parseTx c env = .ok (some tx) ∧ CarriesOver inv res tx := by
  obtain ⟨prpBytes, identity, sig, hprep, _, _, rfl⟩ := Fabric.endorse_eq_ok.mp hr
  obtain ⟨hvalid, results, events, hresults, hevents, hpayload⟩ := prepare_eq_ok.mp hprep
  have hcarries := carries_of_encloses hresp hprop henv hpayload
  obtain ⟨set, hset, hparsed⟩ := Fabric.parseNamespaces_marshalRWSet hc hresults
  rw [if_neg (by simpa using hns)] at hparsed
  refine ⟨_, hcarries.parseTx (Fabric.parseEvent_marshalEvent hc hvalid hevents rfl) hset hparsed,
    ?_⟩
  exact
    { id := rfl
      inputArgs := rfl
      event := rfl
      eventName := rfl
      payload := rfl
      nsRWS := ⟨_, rfl, inKeyOrder_sorted rt hd⟩ }

/-- The parser gives back what was endorsed and packaged. -/
theorem parseTx_packageTx (hc : c.LawfulFabric) {create : CreateSignedTx}
    (hcreate : create.Lawful c) (hresp : pu.Responds c) (hprop : Proposed c now inv)
    (hns : inv.ns ≠ []) (hd : Distinct res.rws) {endorser : Signer} {signer : Option Signer}
    {r : Proto.ProposalResponse} {env : Proto.Envelope}
    (hr : Fabric.endorse c pu rt endorser inv res = .ok r)
    (henv : packageTx create signer inv.proposal [r] = .ok env) :
    ∃ tx, Blocks.Fabric.parseTx c env = .ok (some tx) ∧ CarriesOver inv res tx :=
  parseTx_of_encloses hc hresp hprop hns hd hr (hcreate.encloses henv)

end Parse

section Succeed

variable {c : Proto.Codecs} {pu : Fabric.Protoutil} {now : Proto.Timestamp} {rt : Runtime}
  {inv : Invocation} {res : ExecutionResult}

/-- The strings of a created proposal are valid, since it decodes. -/
theorem Proposed.valid (hc : c.LawfulFabric) (h : Proposed c now inv) :
    utf8Valid inv.txID = true ∧ utf8Valid inv.ns = true ∧
      utf8Valid inv.chaincodeVersion = true := by
  obtain ⟨prop, _, hdr, chdr, cpp, _, hchdr, _, _, htxID, _, _, _, _, hcis⟩ := h
  have hheader := hc.channelHeader.unmarshal_encodable _ _ hchdr
  obtain ⟨_, hid⟩ := hc.chaincodeInvocationSpec.unmarshal_encodable _ _ hcis _ rfl
  obtain ⟨_, hns, hversion⟩ := hid _ rfl
  exact ⟨htxID ▸ hheader.2.2.2.2, hns, hversion⟩

theorem marshalEvent_succeeds (hc : c.LawfulFabric) (hns : utf8Valid inv.ns = true)
    (htxID : utf8Valid inv.txID = true) (hname : utf8Valid res.eventName = true) :
    ∃ events, Fabric.marshalEvent c inv res = .ok events := by
  by_cases h : res.eventName = []
  · exact ⟨[], by rw [Fabric.marshalEvent, if_neg (not_not.mpr h)]⟩
  · obtain ⟨events, hevents⟩ := hc.chaincodeEvent.marshal_ok
      ⟨inv.ns, inv.txID, res.eventName, res.event⟩ ⟨hns, htxID, hname⟩
    exact ⟨events, by rw [Fabric.marshalEvent, if_pos h, hevents]; rfl⟩

theorem endorse_succeeds (hc : c.LawfulFabric) (hresp : pu.Responds c) (hprop : Proposed c now inv)
    (hvalid : res.validate = .ok ()) (hreads : ∀ r ∈ res.rws.reads, utf8Valid r.key = true)
    (hwrites : ∀ w ∈ res.rws.writes, utf8Valid w.key = true)
    (hname : utf8Valid res.eventName = true) {endorser : Signer} (hendorser : Working endorser) :
    ∃ r, Fabric.endorse c pu rt endorser inv res = .ok r := by
  obtain ⟨htxID, hns, hversion⟩ := hprop.valid hc
  obtain ⟨results, hresults⟩ := (Fabric.marshalRWSet_ok_iff hc).mpr ⟨hns, hreads, hwrites⟩
  obtain ⟨events, hevents⟩ := marshalEvent_succeeds hc hns htxID hname
  have hstatus : Proto.FitsInt32 200 := ⟨by decide, by decide⟩
  obtain ⟨prpBytes, hprp⟩ := hresp.payload_ok inv.proposalHash ⟨200, [], res.payload⟩ results events
    ⟨[], inv.ns, inv.chaincodeVersion⟩ ⟨hstatus, rfl⟩ ⟨rfl, hns, hversion⟩
  obtain ⟨⟨identity, hid⟩, hsign⟩ := hendorser
  obtain ⟨sig, hsig⟩ := hsign (prpBytes ++ identity)
  have hprep := prepare_eq_ok.mpr ⟨hvalid, results, events, hresults, hevents, hprp⟩
  exact ⟨_, Fabric.endorse_eq_ok.mpr ⟨prpBytes, identity, sig, hprep, hid, hsig, rfl⟩⟩

theorem packageTx_succeeds {create : CreateSignedTx} (hcreate : create.Lawful c)
    (hprop : Proposed c now inv) (hlow : 200 ≤ res.status) (hhigh : res.status < 400)
    {endorser signer : Signer} (hsigner : Working signer)
    (hcreator : signer.serialize = .ok inv.creator) {r : Proto.ProposalResponse}
    (hr : Fabric.endorse c pu rt endorser inv res = .ok r) :
    ∃ env, packageTx create (some signer) inv.proposal [r] = .ok env := by
  obtain ⟨_, _, _, _, _, _, rfl⟩ := Fabric.endorse_eq_ok.mp hr
  obtain ⟨prop, hinv, hdr, chdr, cpp, hhdr, _, _, _, _, _, _, hshdr, hcpp, _⟩ := hprop
  rw [packageTx, hinv]
  exact hcreate.succeeds prop signer _ hdr _ cpp hhdr hshdr hcpp ⟨_, rfl, hlow, hhigh⟩ rfl hsigner
    hcreator

end Succeed

/-- Endorsing, packaging and parsing gives back what was executed, and no step fails for
a successful result with valid strings that the creator of the invocation packages. -/
theorem endorse_package_parse_classic {c : Proto.Codecs} (hc : c.LawfulFabric)
    {pu : Fabric.Protoutil} {now : Proto.Timestamp} (hpu : pu.Proposes c now)
    (hresp : pu.Responds c) {create : CreateSignedTx} (hcreate : create.Lawful c)
    {client : Option Signer} {nonce : Except Text Bytes} {channel ns chaincodeVersion : GoString}
    {args : List Bytes} {inv : Invocation}
    (hinv : Fabric.newInvocation c pu client nonce channel ns chaincodeVersion args = .ok inv)
    (hns : inv.ns ≠ []) {res : ExecutionResult} (hvalid : res.validate = .ok ())
    (hlow : 200 ≤ res.status) (hhigh : res.status < 400)
    (hreads : ∀ r ∈ res.rws.reads, utf8Valid r.key = true)
    (hwrites : ∀ w ∈ res.rws.writes, utf8Valid w.key = true)
    (hname : utf8Valid res.eventName = true) (hd : Distinct res.rws) (rt : Runtime)
    (endorser : Signer) (signer : Option Signer) :
    (∀ r env, Fabric.endorse c pu rt endorser inv res = .ok r →
      packageTx create signer inv.proposal [r] = .ok env →
      ∃ tx, Blocks.Fabric.parseTx c env = .ok (some tx) ∧ CarriesOver inv res tx) ∧
    (Working endorser →
      (∃ s, signer = some s ∧ Working s ∧ s.serialize = .ok inv.creator) →
      ∃ r env tx, Fabric.endorse c pu rt endorser inv res = .ok r ∧
        packageTx create signer inv.proposal [r] = .ok env ∧
        Blocks.Fabric.parseTx c env = .ok (some tx) ∧ CarriesOver inv res tx) := by
  have hprop := newInvocation_proposed hpu hinv
  constructor
  · intro r env hr henv
    exact parseTx_packageTx hc hcreate hresp hprop hns hd hr henv
  · rintro hendorser ⟨s, rfl, hs, hcreator⟩
    obtain ⟨r, hr⟩ := @endorse_succeeds c pu now rt inv res hc hresp hprop hvalid hreads hwrites
      hname endorser hendorser
    obtain ⟨env, henv⟩ := packageTx_succeeds hcreate hprop hlow hhigh hs hcreator hr
    obtain ⟨tx, hparse, hcarries⟩ := parseTx_packageTx hc hcreate hresp hprop hns hd hr henv
    exact ⟨r, env, tx, hr, henv, hparse, hcarries⟩

section Reference

/-- `CreateSignedTx` as `protoutil` has it. `CreateTx` of Fabric-X was adapted from it, and
both go over the responses in the same way. -/
def referenceCreateSignedTx (c : Proto.Codecs) : CreateSignedTx := fun proposal signer resps =>
  match signer with
  | none => .error [.lit "signer is required when creating a signed transaction"]
  | some signer => do
      let proposal ← Outcome.deref proposal
      let hdr ← Outcome.lift (c.header.unmarshal proposal.header)
      let pPayl ← Outcome.lift (c.chaincodeProposalPayload.unmarshal proposal.payload)
      let signerBytes ← Outcome.lift signer.serialize
      let shdr ← Outcome.lift (c.signatureHeader.unmarshal hdr.signatureHeader)
      Outcome.failIf (signerBytes ≠ shdr.creator)
        [.lit "signer must be the same as the one referenced in the header"]
      let a1 ← checkResponses none resps
      let endorsements := uniqueEndorsements [] resps
      Outcome.failIf (endorsements.length = 0) [.lit "no endorsements"]
      let propPayloadBytes ← Outcome.lift (c.chaincodeProposalPayload.marshal pPayl)
      let capBytes ← Outcome.lift (c.chaincodeActionPayload.marshal
        ⟨propPayloadBytes, some ⟨a1, endorsements⟩⟩)
      let txBytes ← Outcome.lift (c.transaction.marshal ⟨[⟨hdr.signatureHeader, capBytes⟩]⟩)
      let paylBytes ← Outcome.lift (c.payload.marshal ⟨some hdr, txBytes⟩)
      let sig ← Outcome.lift (signer.sign paylBytes)
      pure ⟨paylBytes, sig⟩

variable {c : Proto.Codecs}

theorem referenceCreateSignedTx_wraps (hc : c.LawfulFabric) {prop : Proto.Proposal}
    {signer : Option Signer} {resps : List Proto.ProposalResponse} {env : Proto.Envelope}
    {hdr : Proto.Header} {cpp : Proto.ChaincodeProposalPayload}
    (h : referenceCreateSignedTx c (some prop) signer resps = .ok env)
    {r : Proto.ProposalResponse} (hr : r ∈ resps)
    (hhdr : c.header.unmarshal prop.header = .ok hdr)
    (hcpp : c.chaincodeProposalPayload.unmarshal prop.payload = .ok cpp) :
    Wraps c hdr cpp r.payload env := by
  cases signer with
  | none => cases h
  | some signer =>
      simp only [referenceCreateSignedTx, Outcome.bind_eq_ok, Outcome.deref_eq_ok,
        Outcome.lift_eq_ok, Outcome.pure_eq, Outcome.ok.injEq] at h
      obtain ⟨prop', hprop', hdr', hhdr', cpp', hcpp', _, _, _, _, _, _, a1, ha1, _, _, propPayload,
        hpropPayload, cap, hcap, tx, htx, payl, hpayl, _, _, rfl⟩ := h
      obtain rfl : prop = prop' := Option.some.inj hprop'
      obtain rfl : hdr = hdr' := Except.ok.inj (hhdr.symm.trans hhdr')
      obtain rfl : cpp = cpp' := Except.ok.inj (hcpp.symm.trans hcpp')
      have hpayload : r.payload = a1 := (FabricX.checkResponses_ok ha1 r hr).2
      exact ⟨_, _, _, _, _, hc.payload.unmarshal_marshal _ _ hpayl, rfl,
        hc.transaction.unmarshal_marshal _ _ htx, rfl,
        hc.chaincodeActionPayload.unmarshal_marshal _ _ hcap,
        hc.chaincodeProposalPayload.unmarshal_marshal _ _ hpropPayload, rfl, hpayload.symm⟩

theorem referenceCreateSignedTx_succeeds (hc : c.LawfulFabric) {prop : Proto.Proposal}
    {signer : Signer} {r : Proto.ProposalResponse} {hdr : Proto.Header}
    {shdr : Proto.SignatureHeader} {cpp : Proto.ChaincodeProposalPayload}
    (hhdr : c.header.unmarshal prop.header = .ok hdr)
    (hshdr : c.signatureHeader.unmarshal hdr.signatureHeader = .ok shdr)
    (hcpp : c.chaincodeProposalPayload.unmarshal prop.payload = .ok cpp) (hr : Successful r)
    (he : r.endorsement.isSome = true) (hsigner : Working signer)
    (hcreator : signer.serialize = .ok shdr.creator) :
    ∃ env, referenceCreateSignedTx c (some prop) (some signer) [r] = .ok env := by
  obtain ⟨response, hresponse, hlow, hhigh⟩ := hr
  obtain ⟨e, he⟩ := Option.isSome_iff_exists.mp he
  have hcheck : checkResponses none [r] = .ok r.payload := by
    have hstatus : ¬ (response.status < 200 ∨ 400 ≤ response.status) := by omega
    simp [checkResponses, hresponse, Outcome.deref, hstatus]
  have hunique : uniqueEndorsements [] [r] = [e] := by
    simp [uniqueEndorsements, he]
  obtain ⟨propPayload, hpropPayload⟩ := hc.chaincodeProposalPayload.marshal_ok cpp trivial
  obtain ⟨cap, hcap⟩ := hc.chaincodeActionPayload.marshal_ok
    ⟨propPayload, some ⟨r.payload, [e]⟩⟩ trivial
  obtain ⟨tx, htx⟩ := hc.transaction.marshal_ok ⟨[⟨hdr.signatureHeader, cap⟩]⟩ trivial
  obtain ⟨payl, hpayl⟩ := hc.payload.marshal_ok ⟨some hdr, tx⟩ trivial
  obtain ⟨sig, hsig⟩ := hsigner.2 payl
  refine ⟨⟨payl, sig⟩, ?_⟩
  simp [referenceCreateSignedTx, Outcome.deref, Outcome.lift, Outcome.failIf, hhdr, hcpp, hcreator,
    hshdr, hcheck, hunique, hpropPayload, hcap, htx, hpayl, hsig]

theorem referenceCreateSignedTx_lawful (hc : c.LawfulFabric) :
    CreateSignedTx.Lawful (referenceCreateSignedTx c) c where
  wraps := fun _ _ _ _ _ _ h hhdr hcpp =>
    referenceCreateSignedTx_wraps hc h List.mem_cons_self hhdr hcpp
  succeeds := fun _ _ _ _ _ _ hhdr hshdr hcpp hr he hs hcreator =>
    referenceCreateSignedTx_succeeds hc hhdr hshdr hcpp hr he hs hcreator

end Reference

section Sample

/-- The sample result makes the round trip in an envelope of the client. -/
theorem endorse_package_parse_classic_sample :
    ∃ inv r env tx,
      Fabric.newInvocation Proto.Codecs.protobuf Fabric.sampleProposer (some Fabric.sampleClient)
        (.ok (List.replicate 24 1)) [99] [110] [49] [[97]] = .ok inv ∧
      Fabric.endorse Proto.Codecs.protobuf Fabric.sampleProposer Runtime.canonical
        (FabricX.sampleSigner 2) inv FabricX.sampleResult = .ok r ∧
      packageTx (referenceCreateSignedTx Proto.Codecs.protobuf) (some Fabric.sampleClient)
        inv.proposal [r] = .ok env ∧
      Blocks.Fabric.parseTx Proto.Codecs.protobuf env = .ok (some tx) ∧
      CarriesOver inv FabricX.sampleResult tx := by
  have hc := Proto.Codecs.protobuf_lawfulFabric
  have hserialize : Fabric.sampleClient.serialize = .ok [7] := rfl
  have hnonce : (List.replicate 24 1 : Bytes).length = Fabric.nonceSize := rfl
  have hargs : [[97]] ≠ ([] : List Bytes) := by decide
  obtain ⟨prop, hash, _, hinv, _, _⟩ := Fabric.newInvocation_parse hc
    Fabric.sampleProposer_proposes hserialize (by decide) hnonce (by decide : utf8Valid [99] = true)
    (by decide : utf8Valid [110] = true) (by decide : utf8Valid [49] = true) hargs
  have hvalid : FabricX.sampleResult.validate = .ok () := by decide
  have hworking : Working Fabric.sampleClient := ⟨⟨_, rfl⟩, fun _ => ⟨_, rfl⟩⟩
  obtain ⟨r, env, tx, hr, henv, hparse, hcarries⟩ := (endorse_package_parse_classic hc
    Fabric.sampleProposer_proposes (Fabric.Protoutil.reference_responds id ⟨1000, 5⟩)
    (referenceCreateSignedTx_lawful hc) hinv (List.cons_ne_nil 110 []) hvalid (by decide)
    (by decide) (by decide) (by decide) (by decide) ⟨by decide, by decide⟩ Runtime.canonical
    (FabricX.sampleSigner 2) (some Fabric.sampleClient)).2 (FabricX.working_sampleSigner 2)
    ⟨_, rfl, hworking, rfl⟩
  exact ⟨_, r, env, tx, hinv, hr, henv, hparse, hcarries⟩

end Sample

end FabricXSdk.Network.Fabric

import FabricXSdk.Endorsement.Fabric
import FabricXSdk.Proto.Encoding

/-!
# A proposal read back by the endorser

`NewInvocation` fills the fields of an invocation directly, and `Parse` derives each
of them again from the headers and the payload of the signed proposal. Both agree,
and an accepted proposal binds the nonce, the creator and the transaction id to each
other.

## Implementation notes

A hash without collisions is an injective function of the bytes that are hashed.
-/

namespace FabricXSdk.Endorsement.Fabric

open Golang Blocks

/-- The size of a nonce. -/
def nonceSize : ℕ := 24

/-- A proposal that decodes to what it was created with, at some moment. -/
def Created (c : Proto.Codecs) (now : Proto.Timestamp) (txID : GoString) (type : Int)
    (channel : GoString) (cis : Proto.ChaincodeInvocationSpec) (nonce creator : Bytes)
    (prop : Proto.Proposal) : Prop :=
  ∃ hdr chdr cpp, c.header.unmarshal prop.header = .ok hdr ∧
    c.channelHeader.unmarshal hdr.channelHeader = .ok chdr ∧ chdr.type = type ∧
    chdr.channelId = channel ∧ chdr.txId = txID ∧ chdr.epoch = 0 ∧ chdr.timestamp = some now ∧
    c.signatureHeader.unmarshal hdr.signatureHeader = .ok ⟨creator, nonce⟩ ∧
    c.chaincodeProposalPayload.unmarshal prop.payload = .ok cpp ∧
    c.chaincodeInvocationSpec.unmarshal cpp.input = .ok cis

/-- What the SDK relies on for the proposals that `protoutil` creates: valid strings
make one, it decodes to what it was created with, and it can be hashed. A transaction
id is a hash of the nonce followed by the creator. -/
structure Protoutil.Proposes (pu : Protoutil) (c : Proto.Codecs) (now : Proto.Timestamp) :
    Prop where
  create_ok : ∀ txID type channel cis nonce creator, Proto.FitsInt32 type →
    utf8Valid channel = true → utf8Valid txID = true → cis.Encodable →
    cis.chaincodeSpec.isSome = true →
      ∃ prop, pu.createChaincodeProposal txID type channel cis nonce creator = .ok prop
  created : ∀ txID type channel cis nonce creator prop,
    pu.createChaincodeProposal txID type channel cis nonce creator = .ok prop →
      Created c now txID type channel cis nonce creator prop
  hash_ok : ∀ txID type channel cis nonce creator prop hdr,
    pu.createChaincodeProposal txID type channel cis nonce creator = .ok prop →
    c.header.unmarshal prop.header = .ok hdr →
      ∃ hash, pu.getProposalHash1 hdr prop.payload = .ok hash
  txID_valid : ∀ nonce creator, utf8Valid (pu.computeTxID nonce creator) = true
  txID_collisionFree : ∀ nonce creator nonce' creator',
    pu.computeTxID nonce creator = pu.computeTxID nonce' creator' →
      nonce ++ creator = nonce' ++ creator'

/-- The headers of a signed proposal. -/
def Headers (c : Proto.Codecs) (signedProp : Proto.SignedProposal) (chdr : Proto.ChannelHeader)
    (shdr : Proto.SignatureHeader) : Prop :=
  ∃ prop hdr, c.proposal.unmarshal signedProp.proposalBytes = .ok prop ∧
    c.header.unmarshal prop.header = .ok hdr ∧
    c.channelHeader.unmarshal hdr.channelHeader = .ok chdr ∧
    c.signatureHeader.unmarshal hdr.signatureHeader = .ok shdr

/-- Of the transaction id, the nonce and the creator exactly one is another one. -/
def OneChanged (chdr chdr' : Proto.ChannelHeader) (shdr shdr' : Proto.SignatureHeader) : Prop :=
  (chdr'.txId = chdr.txId ∧ shdr'.creator = shdr.creator ∧ shdr'.nonce ≠ shdr.nonce) ∨
  (chdr'.txId = chdr.txId ∧ shdr'.creator ≠ shdr.creator ∧ shdr'.nonce = shdr.nonce) ∨
  (chdr'.txId ≠ chdr.txId ∧ shdr'.creator = shdr.creator ∧ shdr'.nonce = shdr.nonce)

/-- The expected time is the zero time, or within the allowed skew of a timestamp. -/
def OnTime (now : Proto.Timestamp) (expectedTime : Option Int) : Prop :=
  ∀ expected, expectedTime = some expected →
    expected - clockSkew ≤ instant now ∧ instant now ≤ expected + clockSkew

section Parse

variable {c : Proto.Codecs} {pu : Protoutil} {now : Proto.Timestamp}

theorem checkChannelHeader_ok {chdr : Proto.ChannelHeader} {expectedTime : Option Int}
    (htype : chdr.type = Proto.headerTypeEndorserTransaction) (hepoch : chdr.epoch = 0)
    (htime : chdr.timestamp = some now) (h : OnTime now expectedTime) :
    checkChannelHeader chdr expectedTime = .ok () := by
  simp only [checkChannelHeader, htype, hepoch, htime, ne_eq, not_true_eq_false, if_false]
  cases expectedTime with
  | none => rfl
  | some expected =>
      obtain ⟨hlo, hhi⟩ := h expected rfl
      simp only [Int.not_lt.mpr hlo, Int.not_lt.mpr hhi, or_self, if_false]

theorem checkSignatureHeader_eq_ok {txID : GoString} {shdr : Proto.SignatureHeader} :
    checkSignatureHeader pu txID shdr = .ok () ↔
      shdr.nonce.length ≠ 0 ∧ shdr.creator.length ≠ 0 ∧
        txID = pu.computeTxID shdr.nonce shdr.creator := by
  simp only [checkSignatureHeader]
  split
  · simp_all
  · split
    · simp_all
    · split <;> simp_all

theorem checkChannelHeader_ne_panic (chdr : Proto.ChannelHeader) (expectedTime : Option Int) :
    checkChannelHeader chdr expectedTime ≠ .panic := by
  simp only [checkChannelHeader]
  split
  · simp
  · split
    · simp
    · split
      · simp
      · simp
      · split <;> simp

theorem checkSignatureHeader_ne_panic (txID : GoString) (shdr : Proto.SignatureHeader) :
    checkSignatureHeader pu txID shdr ≠ .panic := by
  simp only [checkSignatureHeader]
  split
  · simp
  · split
    · simp
    · split <;> simp

theorem invocationSpec_ne_panic (txID : GoString) (cis : Proto.ChaincodeInvocationSpec) :
    invocationSpec txID cis ≠ .panic := by
  simp only [invocationSpec]
  split <;> simp

/-- `Parse` follows no pointer it has not checked. -/
theorem parse_ne_panic (signedProp : Proto.SignedProposal) (expectedTime : Option Int) :
    parse c pu signedProp expectedTime ≠ .panic := by
  simp [parse, Outcome.bind_eq_panic, checkChannelHeader_ne_panic, checkSignatureHeader_ne_panic,
    invocationSpec_ne_panic]

/-- What an accepted proposal has been checked for. -/
theorem parse_headers {signedProp : Proto.SignedProposal} {expectedTime : Option Int}
    {inv : Invocation} (h : parse c pu signedProp expectedTime = .ok inv) :
    ∃ chdr shdr, Headers c signedProp chdr shdr ∧ inv.txID = chdr.txId ∧
      inv.nonce = shdr.nonce ∧ inv.creator = shdr.creator ∧
      chdr.txId = pu.computeTxID shdr.nonce shdr.creator := by
  simp only [parse, Outcome.bind_eq_ok, Outcome.ofExcept_eq_ok, Outcome.pure_eq,
    Outcome.ok.injEq] at h
  obtain ⟨prop, hprop, hdr, hhdr, chdr, hchdr, _, _, shdr, hshdr, _, hcheck, cpp, _, cis, _, spec,
    _, _, _, rfl⟩ := h
  exact ⟨chdr, shdr, ⟨prop, hdr, hprop, hhdr, hchdr, hshdr⟩, rfl, rfl, rfl,
    (checkSignatureHeader_eq_ok.mp hcheck).2.2⟩

theorem Headers.unique {signedProp : Proto.SignedProposal} {chdr chdr' : Proto.ChannelHeader}
    {shdr shdr' : Proto.SignatureHeader} (h : Headers c signedProp chdr shdr)
    (h' : Headers c signedProp chdr' shdr') : chdr' = chdr ∧ shdr' = shdr := by
  obtain ⟨prop, hdr, hprop, hhdr, hchdr, hshdr⟩ := h
  obtain ⟨prop', hdr', hprop', hhdr', hchdr', hshdr'⟩ := h'
  rw [hprop] at hprop'
  cases hprop'
  rw [hhdr] at hhdr'
  cases hhdr'
  rw [hchdr] at hchdr'
  cases hchdr'
  rw [hshdr] at hshdr'
  cases hshdr'
  exact ⟨rfl, rfl⟩

/-- With one of the three changed, the id does not match any more. -/
theorem OneChanged.mismatch (hpu : pu.Proposes c now) {chdr chdr' : Proto.ChannelHeader}
    {shdr shdr' : Proto.SignatureHeader} (h : OneChanged chdr chdr' shdr shdr')
    (htxID : chdr.txId = pu.computeTxID shdr.nonce shdr.creator) :
    chdr'.txId ≠ pu.computeTxID shdr'.nonce shdr'.creator := by
  intro htxID'
  rcases h with ⟨hid, hcreator, hnonce⟩ | ⟨hid, hcreator, hnonce⟩ | ⟨hid, hcreator, hnonce⟩
  · rw [hid, htxID, hcreator] at htxID'
    exact hnonce (List.append_cancel_right (hpu.txID_collisionFree _ _ _ _ htxID')).symm
  · rw [hid, htxID, hnonce] at htxID'
    exact hcreator (List.append_cancel_left (hpu.txID_collisionFree _ _ _ _ htxID')).symm
  · rw [htxID', hnonce, hcreator, ← htxID] at hid
    exact hid rfl

/-- Reading a created proposal gives back what it was created with. -/
theorem parse_created (hc : c.LawfulFabric) {txID ns chaincodeVersion channel : GoString}
    {args : List Bytes} {nonce creator bytes sig hash : Bytes} {prop : Proto.Proposal}
    {hdr : Proto.Header} {expectedTime : Option Int}
    (hcreated : Created c now txID Proto.headerTypeEndorserTransaction channel
      ⟨some ⟨chaincodeSpecCAR, some ⟨[], ns, chaincodeVersion⟩, some ⟨args⟩⟩⟩ nonce creator prop)
    (hbytes : c.proposal.marshal prop = .ok bytes) (htime : OnTime now expectedTime)
    (hcheck : checkSignatureHeader pu txID ⟨creator, nonce⟩ = .ok ()) (hargs : args ≠ [])
    (hhdr : c.header.unmarshal prop.header = .ok hdr)
    (hhash : pu.getProposalHash1 hdr prop.payload = .ok hash) :
    parse c pu ⟨bytes, sig⟩ expectedTime = .ok
      { txID := txID
        nonce := nonce
        creator := creator
        args := args
        ns := ns
        chaincodeVersion := chaincodeVersion
        nsVersion := 0
        channel := channel
        proposal := some prop
        proposalHash := hash } := by
  obtain ⟨hdr', chdr, cpp, hhdr', hchdr, htype, rfl, rfl, hepoch, hnow, hshdr, hcpp, hcis⟩ :=
    hcreated
  rw [hhdr] at hhdr'
  cases hhdr'
  obtain ⟨arg, rest, rfl⟩ := List.exists_cons_of_ne_nil hargs
  simp [parse, hc.proposal.unmarshal_marshal prop bytes hbytes, hhdr, hchdr, hshdr, hcpp, hcis,
    hcheck, hhash, checkChannelHeader_ok htype hepoch hnow htime, Outcome.ofExcept, Outcome.lift,
    invocationSpec]

theorem spec_encodable {ns chaincodeVersion : GoString} (args : List Bytes)
    (hns : utf8Valid ns = true) (hversion : utf8Valid chaincodeVersion = true) :
    Proto.ChaincodeInvocationSpec.Encodable
      ⟨some ⟨chaincodeSpecCAR, some ⟨[], ns, chaincodeVersion⟩, some ⟨args⟩⟩⟩ := by
  have hcar : Proto.FitsInt32 chaincodeSpecCAR := ⟨by decide, by decide⟩
  rintro spec ⟨⟩
  refine ⟨hcar, ?_⟩
  rintro ccid ⟨⟩
  exact ⟨rfl, hns, hversion⟩

/-- The invocation and the signed form of its proposal, for valid strings. -/
theorem newInvocation_parse (hc : c.LawfulFabric) (hpu : pu.Proposes c now) {signer : Signer}
    {creator nonce : Bytes} {channel ns chaincodeVersion : GoString} {args : List Bytes}
    (hserialize : signer.serialize = .ok creator) (hcreator : creator ≠ [])
    (hnonce : nonce.length = nonceSize) (hchannel : utf8Valid channel = true)
    (hns : utf8Valid ns = true) (hversion : utf8Valid chaincodeVersion = true) (hargs : args ≠ []) :
    ∃ prop hash bytes,
      newInvocation c pu (some signer) (.ok nonce) channel ns chaincodeVersion args = .ok
        ⟨pu.computeTxID nonce creator, nonce, creator, args, ns, chaincodeVersion, 0, channel,
          some prop, hash⟩ ∧
      c.proposal.marshal prop = .ok bytes ∧
      ∀ sig expectedTime, OnTime now expectedTime → parse c pu ⟨bytes, sig⟩ expectedTime = .ok
        ⟨pu.computeTxID nonce creator, nonce, creator, args, ns, chaincodeVersion, 0, channel,
          some prop, hash⟩ := by
  obtain ⟨prop, hprop⟩ := hpu.create_ok (pu.computeTxID nonce creator)
    Proto.headerTypeEndorserTransaction channel _ nonce creator ⟨by decide, by decide⟩ hchannel
    (hpu.txID_valid nonce creator) (spec_encodable args hns hversion) rfl
  have hcreated := hpu.created _ _ _ _ _ _ _ hprop
  obtain ⟨hdr, hhdr⟩ : ∃ hdr, c.header.unmarshal prop.header = .ok hdr := by
    obtain ⟨hdr, _, _, hhdr, _⟩ := hcreated
    exact ⟨hdr, hhdr⟩
  obtain ⟨hash, hhash⟩ := hpu.hash_ok _ _ _ _ _ _ _ _ hprop hhdr
  obtain ⟨bytes, hbytes⟩ := hc.proposal.marshal_ok prop trivial
  have hcheck : checkSignatureHeader pu (pu.computeTxID nonce creator) ⟨creator, nonce⟩ = .ok () :=
    checkSignatureHeader_eq_ok.mpr ⟨by rw [hnonce]; decide, by simpa using hcreator, rfl⟩
  refine ⟨prop, hash, bytes, ?_, hbytes, ?_⟩
  · simp [newInvocation, hserialize, hprop, hhdr, hhash, Outcome.lift, Outcome.ofExcept]
  · intro sig expectedTime htime
    exact parse_created hc hcreated hbytes htime hcheck hargs hhdr hhash

/-- `NewInvocation` succeeds on valid strings, and the endorser reads the signed form of
its proposal back as the same invocation. An accepted proposal has the id of its nonce
and creator, and is refused with one of the three changed. -/
theorem parse_recovers_invocation (hc : c.LawfulFabric) (hpu : pu.Proposes c now) :
    (∀ signer creator nonce channel ns chaincodeVersion args, signer.serialize = .ok creator →
      creator ≠ [] → nonce.length = nonceSize → utf8Valid channel = true → utf8Valid ns = true →
      utf8Valid chaincodeVersion = true → args ≠ [] →
      ∃ inv prop bytes,
        newInvocation c pu (some signer) (.ok nonce) channel ns chaincodeVersion args = .ok inv ∧
        inv.txID = pu.computeTxID nonce creator ∧ inv.nonce = nonce ∧ inv.creator = creator ∧
        inv.args = args ∧ inv.ns = ns ∧ inv.chaincodeVersion = chaincodeVersion ∧
        inv.channel = channel ∧ inv.proposal = some prop ∧ c.proposal.marshal prop = .ok bytes ∧
        ∀ sig expectedTime, OnTime now expectedTime →
          parse c pu ⟨bytes, sig⟩ expectedTime = .ok inv) ∧
    ∀ signedProp expectedTime inv, parse c pu signedProp expectedTime = .ok inv →
      inv.txID = pu.computeTxID inv.nonce inv.creator ∧
      ∀ chdr shdr signedProp' chdr' shdr', Headers c signedProp chdr shdr →
        Headers c signedProp' chdr' shdr' → OneChanged chdr chdr' shdr shdr' →
        ∀ expectedTime', ∃ err, parse c pu signedProp' expectedTime' = .error err := by
  constructor
  · intro signer creator nonce channel ns chaincodeVersion args hserialize hcreator hnonce hchannel
      hns hversion hargs
    obtain ⟨prop, hash, bytes, hinv, hbytes, hparse⟩ := newInvocation_parse hc hpu hserialize
      hcreator hnonce hchannel hns hversion hargs
    exact ⟨_, prop, bytes, hinv, rfl, rfl, rfl, rfl, rfl, rfl, rfl, rfl, hbytes, hparse⟩
  · intro signedProp expectedTime inv h
    obtain ⟨chdr₀, shdr₀, hheaders, hid, hnonce, hcreator, htxID⟩ := parse_headers h
    refine ⟨by rw [hid, hnonce, hcreator, htxID], ?_⟩
    intro chdr shdr signedProp' chdr' shdr' hh hh' hchanged expectedTime'
    obtain ⟨rfl, rfl⟩ := hheaders.unique hh
    cases h' : parse c pu signedProp' expectedTime' with
    | error err => exact ⟨err, rfl⟩
    | panic => exact absurd h' (parse_ne_panic signedProp' expectedTime')
    | ok inv' =>
        obtain ⟨chdr₁, shdr₁, hheaders', _, _, _, htxID'⟩ := parse_headers h'
        obtain ⟨rfl, rfl⟩ := hheaders'.unique hh'
        exact absurd htxID' (hchanged.mismatch hpu htxID)

end Parse

section Reference

def hexDigit (n : ℕ) : Byte := Fin.ofNat 256 (if n < 10 then 48 + n else 87 + n)

/-- `hex.EncodeToString`. -/
def hexEncode (bs : Bytes) : GoString :=
  bs.flatMap fun b => [hexDigit (b.val / 16), hexDigit (b.val % 16)]

/-- The chaincode header extension, which has the chaincode id in its second field. -/
def headerExtension (spec : Proto.ChaincodeSpec) : Bytes :=
  (spec.chaincodeId.map fun id =>
    Protobuf.encodeFields [(2, .len (Proto.chaincodeIDBody.encode id))]).getD []

/-- The helpers as `protoutil` has them, with its hash and the current time as
parameters. -/
def Protoutil.reference (hash : Bytes → Bytes) (now : Proto.Timestamp) : Protoutil where
  computeTxID := fun nonce creator => hexEncode (hash (nonce ++ creator))
  createChaincodeProposal := fun txID type channel cis nonce creator => do
    let spec ← Outcome.deref cis.chaincodeSpec
    let input ← Outcome.lift (Proto.Codecs.protobuf.chaincodeInvocationSpec.marshal cis)
    let payload ← Outcome.lift (Proto.Codecs.protobuf.chaincodeProposalPayload.marshal ⟨input⟩)
    let chdr ← marshalOrPanic Proto.Codecs.protobuf.channelHeader
      ⟨type, 0, some now, channel, txID, 0, headerExtension spec, []⟩
    let shdr ← marshalOrPanic Proto.Codecs.protobuf.signatureHeader ⟨creator, nonce⟩
    let hdr ← Outcome.lift (Proto.Codecs.protobuf.header.marshal ⟨chdr, shdr⟩)
    pure ⟨hdr, payload, []⟩
  getProposalHash1 := fun hdr payload => do
    let cpp ← Proto.Codecs.protobuf.chaincodeProposalPayload.unmarshal payload
    let forTx ← Proto.Codecs.protobuf.chaincodeProposalPayload.marshal cpp
    pure (hash (hdr.channelHeader ++ hdr.signatureHeader ++ forTx))
  getBytesProposalResponsePayload := fun proposalHash response results events ccid => do
    let action ← Proto.Codecs.protobuf.chaincodeAction.marshal
      ⟨results, events, some response, some ccid⟩
    Proto.Codecs.protobuf.proposalResponsePayload.marshal ⟨proposalHash, action⟩

theorem hexDigit_injective {m n : ℕ} (hm : m < 16) (hn : n < 16) (h : hexDigit m = hexDigit n) :
    m = n := by
  have hval := congrArg Fin.val h
  simp only [hexDigit, Fin.val_ofNat] at hval
  split at hval <;> split at hval <;> omega

theorem hexEncode_injective {bs bs' : Bytes} (h : hexEncode bs = hexEncode bs') : bs = bs' := by
  induction bs generalizing bs' with
  | nil =>
      cases bs' with
      | nil => rfl
      | cons b bs' => simp [hexEncode] at h
  | cons b bs ih =>
      cases bs' with
      | nil => simp [hexEncode] at h
      | cons b' bs' =>
          simp only [hexEncode, List.flatMap_cons, List.cons_append, List.nil_append,
            List.cons.injEq] at h
          obtain ⟨hhigh, hlow, hrest⟩ := h
          have hdiv := hexDigit_injective (by omega) (by omega) hhigh
          have hmod := hexDigit_injective (by omega) (by omega) hlow
          have hb : b = b' := Fin.ext (by omega)
          rw [hb, ih hrest]

theorem hexEncode_valid (bs : Bytes) : utf8Valid (hexEncode bs) = true := by
  apply utf8Valid_of_ascii
  intro b hb
  obtain ⟨x, _, hx⟩ := List.mem_flatMap.mp hb
  have hdigit : ∀ n < 16, (hexDigit n).val < 128 := by decide
  rcases List.mem_cons.mp hx with rfl | hx
  · exact hdigit _ (by omega)
  · rw [List.mem_singleton.mp hx]
    exact hdigit _ (by omega)

theorem Protoutil.reference_create_eq_ok {hash : Bytes → Bytes} {now : Proto.Timestamp}
    {txID : GoString} {type : Int} {channel : GoString} {cis : Proto.ChaincodeInvocationSpec}
    {nonce creator : Bytes} {prop : Proto.Proposal} :
    (reference hash now).createChaincodeProposal txID type channel cis nonce creator = .ok prop ↔
      ∃ spec input payload chdr shdr hdr, cis.chaincodeSpec = some spec ∧
        Proto.Codecs.protobuf.chaincodeInvocationSpec.marshal cis = .ok input ∧
        Proto.Codecs.protobuf.chaincodeProposalPayload.marshal ⟨input⟩ = .ok payload ∧
        Proto.Codecs.protobuf.channelHeader.marshal
          ⟨type, 0, some now, channel, txID, 0, headerExtension spec, []⟩ = .ok chdr ∧
        Proto.Codecs.protobuf.signatureHeader.marshal ⟨creator, nonce⟩ = .ok shdr ∧
        Proto.Codecs.protobuf.header.marshal ⟨chdr, shdr⟩ = .ok hdr ∧
        ⟨hdr, payload, []⟩ = prop := by
  simp only [reference, Outcome.bind_eq_ok, Outcome.deref_eq_ok, Outcome.lift_eq_ok,
    marshalOrPanic_eq_ok, Outcome.pure_eq, Outcome.ok.injEq]
  constructor
  · rintro ⟨spec, hspec, input, hinput, payload, hpayload, chdr, hchdr, shdr, hshdr, hdr, hhdr, h⟩
    exact ⟨spec, input, payload, chdr, shdr, hdr, hspec, hinput, hpayload, hchdr, hshdr, hhdr, h⟩
  · rintro ⟨spec, input, payload, chdr, shdr, hdr, hspec, hinput, hpayload, hchdr, hshdr, hhdr, h⟩
    exact ⟨spec, hspec, input, hinput, payload, hpayload, chdr, hchdr, shdr, hshdr, hdr, hhdr, h⟩

theorem Protoutil.reference_lawful (hash : Bytes → Bytes) (now : Proto.Timestamp) :
    (reference hash now).Lawful Proto.Codecs.protobuf where
  header := by
    intro txID type channel cis nonce creator prop h
    have hc := Proto.Codecs.protobuf_lawfulFabric
    obtain ⟨_, _, _, _, _, _, _, _, _, hchdr, _, hhdr, rfl⟩ := reference_create_eq_ok.mp h
    exact ⟨_, _, hc.header.unmarshal_marshal _ _ hhdr,
      hc.channelHeader.unmarshal_marshal _ _ hchdr, rfl, rfl, rfl⟩

/-- The helpers do what is relied on if their hash has no collisions. -/
theorem Protoutil.reference_proposes {hash : Bytes → Bytes} {now : Proto.Timestamp}
    (hnow : now.Encodable) (hhash : ∀ bs bs', hash bs = hash bs' → bs = bs') :
    (reference hash now).Proposes Proto.Codecs.protobuf now where
  create_ok := by
    intro txID type channel cis nonce creator htype hchannel htxID hcis hspec
    have hc := Proto.Codecs.protobuf_lawfulFabric
    obtain ⟨spec, hspec⟩ := Option.isSome_iff_exists.mp hspec
    obtain ⟨input, hinput⟩ := hc.chaincodeInvocationSpec.marshal_ok cis hcis
    obtain ⟨payload, hpayload⟩ := hc.chaincodeProposalPayload.marshal_ok ⟨input⟩ trivial
    have hversion : Proto.FitsInt32 0 := ⟨by decide, by decide⟩
    obtain ⟨chdr, hchdr⟩ := hc.channelHeader.marshal_ok
      ⟨type, 0, some now, channel, txID, 0, headerExtension spec, []⟩
      ⟨htype, hversion, by rintro t ⟨⟩; exact hnow, hchannel, htxID⟩
    obtain ⟨shdr, hshdr⟩ := hc.signatureHeader.marshal_ok ⟨creator, nonce⟩ trivial
    obtain ⟨hdr, hhdr⟩ := hc.header.marshal_ok ⟨chdr, shdr⟩ trivial
    exact ⟨_, reference_create_eq_ok.mpr
      ⟨spec, input, payload, chdr, shdr, hdr, hspec, hinput, hpayload, hchdr, hshdr, hhdr, rfl⟩⟩
  created := by
    intro txID type channel cis nonce creator prop h
    have hc := Proto.Codecs.protobuf_lawfulFabric
    obtain ⟨spec, input, payload, chdr, shdr, hdr, _, hinput, hpayload, hchdr, hshdr, hhdr, rfl⟩ :=
      reference_create_eq_ok.mp h
    exact ⟨_, _, _, hc.header.unmarshal_marshal _ _ hhdr,
      hc.channelHeader.unmarshal_marshal _ _ hchdr, rfl, rfl, rfl, rfl, rfl,
      hc.signatureHeader.unmarshal_marshal _ _ hshdr,
      hc.chaincodeProposalPayload.unmarshal_marshal _ _ hpayload,
      hc.chaincodeInvocationSpec.unmarshal_marshal _ _ hinput⟩
  hash_ok := by
    intro txID type channel cis nonce creator prop hdr h _
    have hc := Proto.Codecs.protobuf_lawfulFabric
    obtain ⟨_, input, payload, _, _, _, _, _, hpayload, _, _, _, rfl⟩ := reference_create_eq_ok.mp h
    have hcpp := hc.chaincodeProposalPayload.unmarshal_marshal _ _ hpayload
    exact ⟨_, by simp only [reference, hcpp]; rfl⟩
  txID_valid := fun nonce creator => hexEncode_valid _
  txID_collisionFree := fun nonce creator nonce' creator' h => hhash _ _ (hexEncode_injective h)

end Reference

section Sample

/-- The helpers with the bytes themselves for their hash. -/
def sampleProposer : Protoutil := .reference id ⟨1000, 5⟩

theorem sampleProposer_proposes : sampleProposer.Proposes Proto.Codecs.protobuf ⟨1000, 5⟩ :=
  Protoutil.reference_proposes ⟨⟨by decide, by decide⟩, ⟨by decide, by decide⟩⟩ fun _ _ h => h

def sampleClient : Signer := ⟨fun message => .ok message, .ok [7]⟩

/-- A client's invocation is accepted by an endorser whose clock is five minutes behind,
and refused with another nonce in its signature header. -/
theorem parse_recovers_invocation_sample :
    ∃ inv prop bytes bytes' chdr' err,
      newInvocation Proto.Codecs.protobuf sampleProposer (some sampleClient)
        (.ok (List.replicate 24 1)) [99] [110] [49] [[97]] = .ok inv ∧
      inv.proposal = some prop ∧ Proto.Codecs.protobuf.proposal.marshal prop = .ok bytes ∧
      parse Proto.Codecs.protobuf sampleProposer ⟨bytes, []⟩ (some (700 * 10 ^ 9 + 5)) = .ok inv ∧
      Headers Proto.Codecs.protobuf ⟨bytes', []⟩ chdr' ⟨[7], List.replicate 24 2⟩ ∧
      chdr'.txId = inv.txID ∧
      parse Proto.Codecs.protobuf sampleProposer ⟨bytes', []⟩ none = .error err := by
  have hc := Proto.Codecs.protobuf_lawfulFabric
  obtain ⟨hfirst, hsecond⟩ := parse_recovers_invocation hc sampleProposer_proposes
  obtain ⟨inv, prop, bytes, hinv, htxID, hnonce, hcreator, _, _, _, _, hprop, hbytes, hparse⟩ :=
    hfirst sampleClient [7] (List.replicate 24 1) [99] [110] [49] [[97]] rfl (by decide) (by decide)
      (by decide) (by decide) (by decide) (by decide)
  have htime : OnTime ⟨1000, 5⟩ (some (700 * 10 ^ 9 + 5)) := by
    rintro expected ⟨⟩
    exact ⟨by decide, by decide⟩
  have haccepted := hparse [] _ htime
  obtain ⟨chdr, shdr, hheaders, hid, hn, hcr, _⟩ := parse_headers haccepted
  -- the proposal a client would create that changes its nonce and keeps the id
  obtain ⟨prop', hprop'⟩ := sampleProposer_proposes.create_ok inv.txID
    Proto.headerTypeEndorserTransaction [99] ⟨some ⟨3, some ⟨[], [110], [49]⟩, some ⟨[[97]]⟩⟩⟩
    (List.replicate 24 2) [7] ⟨by decide, by decide⟩ (by decide)
    (htxID ▸ sampleProposer_proposes.txID_valid _ _) (spec_encodable _ (by decide) (by decide)) rfl
  obtain ⟨bytes', hbytes'⟩ := hc.proposal.marshal_ok prop' trivial
  obtain ⟨hdr', chdr', _, hhdr', hchdr', _, _, hid', _, _, hshdr', _⟩ :=
    sampleProposer_proposes.created _ _ _ _ _ _ _ hprop'
  have hheaders' : Headers Proto.Codecs.protobuf ⟨bytes', []⟩ chdr' ⟨[7], List.replicate 24 2⟩ :=
    ⟨prop', hdr', hc.proposal.unmarshal_marshal _ _ hbytes', hhdr', hchdr', hshdr'⟩
  have hchanged : OneChanged chdr chdr' shdr ⟨[7], List.replicate 24 2⟩ := by
    refine Or.inl ⟨hid'.trans hid, hcreator.symm.trans hcr, ?_⟩
    rw [← hn, hnonce]
    decide
  obtain ⟨err, herr⟩ := (hsecond _ _ _ haccepted).2 _ _ _ _ _ hheaders hheaders' hchanged none
  exact ⟨inv, prop, bytes, bytes', chdr', err, hinv, hprop, hbytes, haccepted, hheaders', hid',
    herr⟩

end Sample

end FabricXSdk.Endorsement.Fabric

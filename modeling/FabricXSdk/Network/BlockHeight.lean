import FabricXSdk.FabricTest.Chain
import FabricXSdk.Network.EndorsementClient

/-!
# The height of a channel

A classic Fabric client asks the system chaincode `qscc` for the height of a channel, with a
signed proposal. A Fabric-X client asks the sidecar. The test peer answers both from the tip
of its ledger.

## Implementation notes

The message that holds the answer has a codec of its own. The proposal and the response
cross the connection unchanged.
-/

namespace FabricXSdk.FabricTest

open Golang Blocks Endorsement Protobuf Body

structure BlockchainInfo where
  height : ℕ
  currentBlockHash : Bytes
  previousBlockHash : Bytes

theorem previousBlockHash_last : 3 ∉ nil.numbers := List.not_mem_nil

def blockchainInfoBody : Body BlockchainInfo :=
  (field 1 .uint <| field 2 .bytes <| field 3 .bytes nil previousBlockHash_last).iso
    (fun m => (m.height, m.currentBlockHash, m.previousBlockHash, ()))
    (fun t => ⟨t.1, t.2.1, t.2.2.1⟩) (fun _ => rfl) (fun _ => rfl)

/-- `"qscc"`. -/
def qscc : GoString := [113, 115, 99, 99]

/-- `"GetChainInfo"`. -/
def getChainInfo : Bytes := [71, 101, 116, 67, 104, 97, 105, 110, 73, 110, 102, 111]

/-- The signer of the test peer, which signs with `"sig"` as `"identity"`. -/
def testSigner : Signer where
  sign := fun _ => .ok [115, 105, 103]
  serialize := .ok [105, 100, 101, 110, 116, 105, 116, 121]

section Peer

variable (net : Network) (pu : Fabric.Protoutil) (info : Codec BlockchainInfo)

/-- `GetBlockchainInfo` of the sidecar. -/
def Network.getBlockchainInfo (l : Ledger) : Outcome BlockchainInfo := do
  let (height, currentHash, previousHash) ← net.chainInfo l
  pure ⟨height, currentHash, previousHash⟩

/-- `ProcessProposal` of the test peer at some time. -/
def Network.processProposal (now : Int) (l : Ledger) (prop : Proto.SignedProposal) :
    Outcome Proto.ProposalResponse := do
  let inv ← Fabric.parse net.codecs pu prop (some now)
  Outcome.failIf (inv.ns ≠ qscc ∨ inv.args.head? ≠ some getChainInfo)
    [.lit "only qscc GetChainInfo is supported in fabrictest"]
  let (height, currentHash, previousHash) ← net.chainInfo l
  let payload ← marshalOrPanic (info.marshal ⟨height, currentHash, previousHash⟩)
  Fabric.endorse net.codecs pu net.rt testSigner inv
    { rws := ⟨[], []⟩
      event := []
      eventName := []
      status := 200
      message := []
      payload := payload }

end Peer

theorem blockchainInfo_lawful : blockchainInfoBody.codec.Lawful fun _ => True :=
  blockchainInfoBody.codec_lawful (by simp [blockchainInfoBody])

end FabricXSdk.FabricTest

namespace FabricXSdk.Network

open Golang Blocks Endorsement Protobuf
open FabricTest (BlockchainInfo qscc getChainInfo testSigner)

/-- `BlockHeight` of a classic Fabric peer, with what it answers to a proposal. -/
def Fabric.blockHeight (pu : Fabric.Protoutil) (sign : GetSignedProposal)
    (info : Codec BlockchainInfo) (signer : Signer) (rand : Except Text Bytes) (channel : GoString)
    (answer : Proto.SignedProposal → Except Text Proto.ProposalResponse) : Outcome ℕ := do
  let prop ← newSignedProposal pu sign signer rand channel qscc [getChainInfo, channel]
  let res ← Outcome.lift (processProposal (answer prop))
  let response ← Outcome.deref res.response
  let i ← Outcome.lift (info.unmarshal response.payload)
  pure i.height

/-- `BlockHeight` of a sidecar. -/
def FabricX.blockHeight (answer : Except Text BlockchainInfo) : Outcome ℕ := do
  let i ← Outcome.lift answer
  pure i.height

section Proposal

variable {c : Proto.Codecs} {pu : Fabric.Protoutil} {sign : Fabric.GetSignedProposal}
  {now : Proto.Timestamp} {signer : Signer} {creator nonce : Bytes} {channel ns : GoString}
  {args : List Bytes}

/-- A proposal that is signed for valid strings is parsed back by any endorser in time. -/
theorem Fabric.newSignedProposal_parse (hc : c.LawfulFabric) (hpu : pu.Proposes c now)
    (hget : sign.Signs c) (hserialize : signer.serialize = .ok creator) (hcreator : creator ≠ [])
    (hsign : FabricX.Working signer) (hnonce : nonce.length = Fabric.nonceSize)
    (hchannel : utf8Valid channel = true) (hns : utf8Valid ns = true) (hargs : args ≠ []) :
    ∃ signed, newSignedProposal pu sign signer (.ok nonce) channel ns args = .ok signed ∧
      ∀ expectedTime, Fabric.OnTime now expectedTime →
        ∃ inv, Fabric.parse c pu signed expectedTime = .ok inv ∧ inv.ns = ns ∧ inv.args = args ∧
          Proposed c now inv := by
  obtain ⟨prop, hash, bytes, hinv, hbytes, hparse⟩ := Fabric.newInvocation_parse hc hpu hserialize
    hcreator hnonce hchannel hns (by decide : utf8Valid [] = true) hargs
  obtain ⟨sig, hsig⟩ := hsign.2 bytes
  have hproposed := newInvocation_proposed hpu hinv
  -- both calls create the same proposal
  simp only [Fabric.newInvocation, hserialize, Outcome.bind_eq_ok, Outcome.lift_eq_ok,
    Outcome.pure_eq, Outcome.ok.injEq, Outcome.ofExcept_eq_ok, Except.ok.injEq,
    Invocation.mk.injEq, Option.some.injEq] at hinv
  obtain ⟨_, rfl, _, rfl, prop', hprop, _, _, _, _, _, _, _, _, _, _, _, _, rfl, _⟩ := hinv
  obtain ⟨signed, hsigned⟩ := hget.signs _ _ _ _ hbytes hsig
  obtain rfl : bytes = signed.proposalBytes :=
    Except.ok.inj (hbytes.symm.trans (hget.bytes _ _ _ hsigned))
  refine ⟨signed, ?_, fun expectedTime htime => ⟨_, hparse signed.signature expectedTime htime, rfl,
    rfl, hproposed⟩⟩
  simp [newSignedProposal, hserialize, mustNonce, hprop, hsigned, Outcome.lift]

end Proposal

section Height

variable {net : FabricTest.Network} {pu : Fabric.Protoutil} {sign : Fabric.GetSignedProposal}
  {info : Codec BlockchainInfo} {now : Proto.Timestamp} {l : FabricTest.Ledger}

/-- The test peer answers a parsed request with the encoded tip of its ledger. -/
theorem testPeer_answers (hc : net.codecs.LawfulFabric) (hresp : pu.Responds net.codecs)
    (hinfo : info.Lawful fun _ => True) {signed : Proto.SignedProposal} {clock : Int}
    {inv : Invocation} {height : ℕ} {currentHash previousHash : Bytes}
    (hparse : Fabric.parse net.codecs pu signed (some clock) = .ok inv) (hns : inv.ns = qscc)
    (hargs : inv.args.head? = some getChainInfo) (hproposed : Fabric.Proposed net.codecs now inv)
    (htip : net.chainInfo l = .ok (height, currentHash, previousHash)) :
    ∃ r response, net.processProposal pu info clock l signed = .ok r ∧
      r.response = some response ∧
      info.unmarshal response.payload = .ok ⟨height, currentHash, previousHash⟩ := by
  obtain ⟨payload, hpayload⟩ := hinfo.marshal_ok ⟨height, currentHash, previousHash⟩ trivial
  have hworking : FabricX.Working testSigner := ⟨⟨_, rfl⟩, fun _ => ⟨_, rfl⟩⟩
  obtain ⟨r, hr⟩ := @Fabric.endorse_succeeds net.codecs pu now net.rt inv
    ⟨⟨[], []⟩, [], [], 200, [], payload⟩ hc hresp hproposed rfl nofun nofun rfl testSigner hworking
  refine ⟨r, ⟨200, [], payload⟩, ?_, ?_, hinfo.unmarshal_marshal _ _ hpayload⟩
  · simp only [FabricTest.Network.processProposal, hparse, hns, hargs, htip, Outcome.ok_bind, hr,
      FabricTest.marshalOrPanic, hpayload, Outcome.failIf, ne_eq, not_true_eq_false, or_self,
      if_false]
  · obtain ⟨_, _, _, _, _, _, rfl⟩ := Fabric.endorse_eq_ok.mp hr
    rfl

/-- After any operations on the ledger, the request of a classic client is answered with the
same height and hashes as that of a Fabric-X client, and the client reads the height out of
the response. The hashes are those of the last block, and the height is the number of blocks,
which is one more than the number of the last block. -/
theorem block_height_agrees (hc : net.codecs.LawfulFabric) (hpu : pu.Proposes net.codecs now)
    (hget : sign.Signs net.codecs) (hresp : pu.Responds net.codecs)
    (hinfo : info.Lawful fun _ => True)
    {db : Option State.Database} {l₀ : FabricTest.Ledger} (hnew : net.newLedger db = .ok l₀)
    (ops : List FabricTest.Op) {signer : Signer} {creator nonce : Bytes} {channel : GoString}
    (hserialize : signer.serialize = .ok creator) (hcreator : creator ≠ [])
    (hsigner : FabricX.Working signer) (hnonce : nonce.length = Fabric.nonceSize)
    (hchannel : utf8Valid channel = true) {clock : Int}
    (htime : Fabric.OnTime now (some clock)) :
    ∃ block header i, (net.run l₀ ops).blocks.getLast? = some block ∧
      block.header = some header ∧
      i = ⟨header.number + 1, net.headerHash header, header.previousHash⟩ ∧
      i.height = (net.run l₀ ops).height ∧ net.getBlockchainInfo (net.run l₀ ops) = .ok i ∧
      ∀ answer, (∀ prop r, net.processProposal pu info clock (net.run l₀ ops) prop = .ok r →
          answer prop = .ok r) →
        Fabric.blockHeight pu sign info signer (.ok nonce) channel answer =
          FabricX.blockHeight (.ok i) := by
  have hwf := FabricTest.run_wellFormed (FabricTest.newLedger_wellFormed hnew) ops
  obtain ⟨block, header, hlast, hheader, hheight, htip⟩ := hwf.reportsTip
  refine ⟨block, header, _, hlast, hheader, rfl, hheight.symm, ?_, fun answer hanswer => ?_⟩
  · rw [FabricTest.Network.getBlockchainInfo, htip]
    rfl
  · obtain ⟨signed, hsigned, hparses⟩ := Fabric.newSignedProposal_parse hc hpu hget hserialize
      hcreator hsigner hnonce hchannel (by decide : utf8Valid qscc = true)
      (List.cons_ne_nil getChainInfo [channel])
    obtain ⟨inv, hparse, hns, hargs, hproposed⟩ := hparses _ htime
    obtain ⟨r, response, hr, hresponse, hdecoded⟩ := testPeer_answers hc hresp hinfo hparse hns
      (by rw [hargs]; rfl) hproposed htip
    have hprocess : Fabric.processProposal (answer signed) = .ok r := by
      rw [hanswer signed r hr, Fabric.processProposal, hresponse]
    simp only [Fabric.blockHeight, hsigned, hprocess, hresponse, hdecoded, Outcome.ok_bind,
      Outcome.lift, Outcome.deref, FabricX.blockHeight]

end Height

section Sample

open FabricTest (sampleFabric sampleLedger sampleEnv)

/-- The heights after a cut, as a client of the sample network reads them. -/
theorem block_height_agrees_sample :
    ∃ i : BlockchainInfo, i.height = 2 ∧ ∀ answer,
      (∀ prop r, sampleFabric.processProposal Fabric.sampleProposer
        FabricTest.blockchainInfoBody.codec (10 ^ 12)
          (sampleFabric.run (sampleLedger none) [.process sampleEnv []]) prop = .ok r →
        answer prop = .ok r) →
      Fabric.blockHeight Fabric.sampleProposer
        (Fabric.referenceGetSignedProposal Proto.Codecs.protobuf)
        FabricTest.blockchainInfoBody.codec Fabric.sampleClient (.ok (List.replicate 24 1)) [99]
        answer = FabricX.blockHeight (.ok i) := by
  have hserialize : Fabric.sampleClient.serialize = .ok [7] := rfl
  have hnonce : (List.replicate 24 1 : Bytes).length = Fabric.nonceSize := rfl
  have hworking : FabricX.Working Fabric.sampleClient := ⟨⟨_, rfl⟩, fun _ => ⟨_, rfl⟩⟩
  have htime : Fabric.OnTime ⟨1000, 5⟩ (some (10 ^ 12)) := by
    rintro expected ⟨⟩
    decide
  have hc : sampleFabric.codecs.LawfulFabric := Proto.Codecs.protobuf_lawfulFabric
  obtain ⟨_, _, i, _, _, _, hheight, _, hagrees⟩ :=
    block_height_agrees hc Fabric.sampleProposer_proposes
      (Fabric.referenceGetSignedProposal_signs Proto.Codecs.protobuf)
      (Fabric.Protoutil.reference_responds id ⟨1000, 5⟩) FabricTest.blockchainInfo_lawful
      (FabricTest.sampleLedger_new none) [.process sampleEnv []] hserialize (List.cons_ne_nil 7 [])
      hworking hnonce (by decide : utf8Valid [99] = true) htime
  exact ⟨i, hheight, hagrees⟩

end Sample

end FabricXSdk.Network

import FabricXSdk.Endorsement.Types
import FabricXSdk.FabricTest.Deliver
import FabricXSdk.Proto.Encoding

/-!
# Requests for blocks

`SubscribeBlocks` opens a stream with an envelope that names the first block it wants. The
test peer reads the start block out of it.

## Implementation notes

`DeliverSeekInfo` has the fields that the client sets. The peer decodes the same message and
looks at the start position only.
-/

namespace FabricXSdk.Network

open Golang Endorsement FabricTest Protobuf Body

section Messages

structure DeliverSeekInfo where
  start : Option SeekPosition
  stop : Option SeekPosition
  behavior : Int

/-- `DELIVER_SEEK_INFO`. -/
def headerTypeDeliverSeekInfo : Int := 5

/-- `SeekInfo_BLOCK_UNTIL_READY`. -/
def blockUntilReady : Int := 0

theorem specified_last : 1 ∉ nil.numbers := List.not_mem_nil

theorem behavior_last : 3 ∉ nil.numbers := List.not_mem_nil

/-- The number of a `SeekSpecified`. -/
def seekSpecifiedBody : Body ℕ :=
  (field 1 .uint nil specified_last).iso (fun n => (n, ())) (fun t => t.1) (fun _ => rfl)
    (fun _ => rfl)

def putSeekType : SeekType → Field
  | .newest => (1, .len [])
  | .oldest => (2, .len [])
  | .specified number => (3, .len (seekSpecifiedBody.encode number))
  | .nextCommit => (4, .len [])

def getSeekType : Field → Option SeekType
  | (1, .len bs) => (Body.nil.decode bs).map fun _ => .newest
  | (2, .len bs) => (Body.nil.decode bs).map fun _ => .oldest
  | (3, .len bs) => (seekSpecifiedBody.decode bs).map .specified
  | (4, .len bs) => (Body.nil.decode bs).map fun _ => .nextCommit
  | _ => none

theorem putSeekType_number (t : SeekType) : (putSeekType t).1 ∈ [1, 2, 3, 4] := by
  cases t <;> simp [putSeekType]

theorem getSeekType_put (t : SeekType) : getSeekType (putSeekType t) = some t := by
  cases t with
  | specified number =>
      rw [putSeekType, getSeekType, seekSpecifiedBody.decode_encode rfl]
      rfl
  | _ => rfl

def seekPositionBody : Body SeekPosition :=
  (oneof [1, 2, 3, 4] putSeekType getSeekType putSeekType_number getSeekType_put).iso
    (fun m => m.type) (fun t => ⟨t⟩) (fun _ => rfl) (fun _ => rfl)

def deliverSeekInfoBody : Body DeliverSeekInfo :=
  (field 1 (.message seekPositionBody) <| field 2 (.message seekPositionBody) <|
    field 3 .int32 nil behavior_last).iso
    (fun m => (m.start, m.stop, m.behavior, ())) (fun t => ⟨t.1, t.2.1, t.2.2.1⟩)
    (fun _ => rfl) (fun _ => rfl)

def DeliverSeekInfo.Encodable (si : DeliverSeekInfo) : Prop := Proto.FitsInt32 si.behavior

theorem deliverSeekInfoBody_ok (si : DeliverSeekInfo) :
    si.Encodable ↔ deliverSeekInfoBody.ok si = true := by
  simp [deliverSeekInfoBody, seekPositionBody, DeliverSeekInfo.Encodable, Proto.FitsInt32]

theorem deliverSeekInfo_lawful : deliverSeekInfoBody.codec.Lawful DeliverSeekInfo.Encodable :=
  deliverSeekInfoBody.codec_lawful deliverSeekInfoBody_ok

/-- What the peer reads of the message. -/
def startOnly (seek : Codec DeliverSeekInfo) : Codec SeekInfo where
  marshal := fun si => seek.marshal ⟨si.start, none, 0⟩
  unmarshal := fun bs => (seek.unmarshal bs).map fun si => ⟨si.start⟩

end Messages

section Request

variable (c : Proto.Codecs) (seek : Codec DeliverSeekInfo)

/-- The creator of the request, if there is one. -/
def serializeSubmitter : Option Signer → Outcome Bytes
  | none => .ok []
  | some submitter => Outcome.lift submitter.serialize

/-- A random source that fails is a panic. -/
def mustNonce : Except Text Bytes → Outcome Bytes
  | .ok nonce => .ok nonce
  | .error _ => .panic

def newDeliverSeekInfo (submitter : Option Signer) (rand : Except Text Bytes) (now : Int)
    (channel : GoString) (startBlock : ℕ) : Outcome Proto.Envelope := do
  let creator ← serializeSubmitter submitter
  let channelHeader ← Outcome.ofExcept "marshal channel header" (c.channelHeader.marshal
    ⟨headerTypeDeliverSeekInfo, 0, some ⟨now, 0⟩, channel, [], 0, [], []⟩)
  let nonce ← mustNonce rand
  let sigHeader ← Outcome.ofExcept "marshal signature header"
    (c.signatureHeader.marshal ⟨creator, nonce⟩)
  let seekInfo ← Outcome.ofExcept "marshal seek info" (seek.marshal
    ⟨some ⟨some (.specified startBlock)⟩, some ⟨some (.specified (2 ^ 64 - 1))⟩, blockUntilReady⟩)
  let payload ← Outcome.ofExcept "marshal payload"
    (c.payload.marshal ⟨some ⟨channelHeader, sigHeader⟩, seekInfo⟩)
  match submitter with
  | none => pure ⟨payload, []⟩
  | some submitter => do
      let sig ← Outcome.ofExcept "sign payload" (submitter.sign payload)
      pure ⟨payload, sig⟩

end Request

section RoundTrip

variable {c : Proto.Codecs} {seek : Codec DeliverSeekInfo} {submitter : Option Signer}
  {rand : Except Text Bytes} {now : Int} {channel : GoString} {startBlock : ℕ}
  {env : Proto.Envelope}

/-- The payload of a request holds the position, whoever signs it. -/
theorem newDeliverSeekInfo_eq_ok
    (h : newDeliverSeekInfo c seek submitter rand now channel startBlock = .ok env) :
    ∃ header stop seekInfo,
      seek.marshal ⟨some ⟨some (.specified startBlock)⟩, stop, blockUntilReady⟩ = .ok seekInfo ∧
      c.payload.marshal ⟨header, seekInfo⟩ = .ok env.payload := by
  simp only [newDeliverSeekInfo, Outcome.bind_eq_ok, Outcome.ofExcept_eq_ok] at h
  obtain ⟨creator, _, channelHeader, _, nonce, _, sigHeader, _, seekInfo, hseek, payload, hpayload,
    h⟩ := h
  refine ⟨some ⟨channelHeader, sigHeader⟩, _, seekInfo, hseek, ?_⟩
  cases submitter with
  | none =>
      cases h
      exact hpayload
  | some submitter =>
      obtain ⟨sig, _, h⟩ := Outcome.bind_eq_ok.mp h
      cases h
      exact hpayload

/-- The peer starts at the block that was asked for. -/
theorem parseStartBlock_newDeliverSeekInfo (hc : c.Lawful)
    (hseek : seek.Lawful DeliverSeekInfo.Encodable)
    (h : newDeliverSeekInfo c seek submitter rand now channel startBlock = .ok env) :
    parseStartBlock c (startOnly seek) env = (startBlock, false) := by
  obtain ⟨header, stop, seekInfo, hmarshal, hpayload⟩ := newDeliverSeekInfo_eq_ok h
  have hdata := hc.payload.unmarshal_marshal _ _ hpayload
  have hinfo := hseek.unmarshal_marshal _ _ hmarshal
  simp only [parseStartBlock, hdata, startOnly, hinfo, Except.map]

end RoundTrip

end FabricXSdk.Network

import FabricXSdk.Endorsement.Types

/-!
# Packaging Fabric-X transactions

`CreateTx` checks that the responses are successful and agree, keeps the first
endorsement of each endorser, puts them into the endorsed transaction, and wraps
it in an envelope whose channel header is of type `MESSAGE`.
-/

namespace FabricXSdk.Network.FabricX

open Golang Endorsement

def unsuccessfulErr (r : Proto.Response) : Text :=
  [.lit "proposal response was not successful, error code ", .num r.status, .lit ", msg ",
    .str r.message]

def mismatchErr (payload a1 : Bytes) : Text :=
  [.lit "ProposalResponsePayloads do not match (base64): '", .base64 payload, .lit "' vs '",
    .base64 a1, .lit "'"]

/-- The loop over the responses, with the payload of the first one once it is set. -/
def checkResponses : Option Bytes → List Proto.ProposalResponse → Outcome Bytes
  | a1, [] => .ok (a1.getD [])
  | a1, r :: rest => do
      let response ← Outcome.deref r.response
      if response.status < 200 ∨ 400 ≤ response.status then .error (unsuccessfulErr response)
      else
        match a1 with
        -- the first response sets `a1` and is compared with nothing
        | none => checkResponses (some r.payload) rest
        | some a1 =>
            if a1 = r.payload then checkResponses (some a1) rest
            else .error (mismatchErr r.payload a1)

/-- The endorsements of endorsers that are not in `endorsersUsed`, each once. -/
def uniqueEndorsements (endorsersUsed : List Bytes) :
    List Proto.ProposalResponse → List Proto.Endorsement
  | [] => []
  | r :: rest =>
      match r.endorsement with
      | none => uniqueEndorsements endorsersUsed rest
      | some e =>
          if e.endorser ∈ endorsersUsed then uniqueEndorsements endorsersUsed rest
          else e :: uniqueEndorsements (e.endorser :: endorsersUsed) rest

section CreateTx

variable (c : Proto.Codecs)

def withIdentities : List Proto.Endorsement → Outcome (List Proto.EndorsementWithIdentity)
  | [] => .ok []
  | e :: rest => do
      let identity ← Outcome.ofExcept "failed to unmarshal endorser identity"
        (c.identity.unmarshal e.endorser)
      let tail ← withIdentities rest
      pure (⟨e.signature, some identity⟩ :: tail)

/-- Put the endorsements into the endorsed transaction, once for each namespace. -/
def endorseTx (a1 : Bytes) (endorsements : List Proto.Endorsement) : Outcome Bytes :=
  match c.tx.unmarshal a1 with
  | .error err => .error (.lit "expected applicationpb.Tx endorsement payload, " :: err)
  | .ok tx => do
      let entries ← withIdentities c endorsements
      -- every namespace gets the same entries
      let tx := { tx with endorsements := tx.namespaces.map fun _ => ⟨entries⟩ }
      match c.tx.marshal tx with
      | .error _ => .error [.lit "can't marshal transaction payload"]
      | .ok txBytes => .ok txBytes

/-- The signature header of the envelope, which is empty without a signer. -/
def creatorHeader (signer : Option Signer) (rand : Except Text Bytes) :
    Outcome Proto.SignatureHeader :=
  match signer with
  | none => .ok ⟨[], []⟩
  | some signer => do
      let creator ← Outcome.ofExcept "serialize signer" signer.serialize
      let nonce ← Outcome.ofExcept "read nonce" rand
      pure ⟨creator, nonce⟩

def signatureHeader (signer : Option Signer) (rand : Except Text Bytes) : Outcome Bytes := do
  let shdr ← creatorHeader signer rand
  Outcome.ofExcept "marshal signature header" (c.signatureHeader.marshal shdr)

/-- The channel header of the proposal, turned into one of type `MESSAGE`. -/
def channelHeader (proposal : Proto.Proposal) : Outcome Bytes := do
  let hdr ← Outcome.ofExcept "error unmarshaling Header" (c.header.unmarshal proposal.header)
  let chdr ← Outcome.ofExcept "error unmarshaling ChannelHeader"
    (c.channelHeader.unmarshal hdr.channelHeader)
  if chdr.type ≠ Proto.headerTypeMessage then
    Outcome.ofExcept "marshal channel header" (c.channelHeader.marshal
      -- a classic Fabric proposal; everything but type and extension is kept
      { chdr with
        type := Proto.headerTypeMessage
        extension := [] })
  else pure hdr.channelHeader

/-- `CreateTx`, with the bytes the random source would return. -/
def createTx (proposal : Option Proto.Proposal) (signer : Option Signer) (rand : Except Text Bytes)
    (resps : List Proto.ProposalResponse) : Outcome Proto.Envelope := do
  Outcome.failIf (resps.length = 0) [.lit "at least one proposal response is required"]
  let a1 ← checkResponses none resps
  let endorsements := uniqueEndorsements [] resps
  Outcome.failIf (endorsements.length = 0) [.lit "no endorsements"]
  let txBytes ← endorseTx c a1 endorsements
  let shdrBytes ← signatureHeader c signer rand
  let proposal ← Outcome.deref proposal
  let chdrBytes ← channelHeader c proposal
  let paylBytes ← Outcome.ofExcept "error marshaling Payload" (c.payload.marshal
    { header := some ⟨chdrBytes, shdrBytes⟩
      data := txBytes })
  match signer with
  | none => pure ⟨paylBytes, []⟩
  | some signer => do
      let sig ← Outcome.ofExcept "sign envelope payload" (signer.sign paylBytes)
      pure ⟨paylBytes, sig⟩

end CreateTx

end FabricXSdk.Network.FabricX

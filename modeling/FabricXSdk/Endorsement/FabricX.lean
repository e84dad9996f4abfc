import FabricXSdk.Blocks.FabricX
import FabricXSdk.Endorsement.Types

/-!
# Fabric-X invocations and endorsements

`NewInvocation` builds a header-only proposal. `Endorse` splits the read/write set
of an execution into reads, read-writes and blind writes, each sorted by key, and
signs the digest of the resulting namespace.

## Implementation notes

`ComputeTxID` and the ASN.1 digest of a namespace come from other packages and are
parameters. Randomness and the clock are arguments.
-/

namespace FabricXSdk.Endorsement.FabricX

open Golang Blocks

def newInvocation (c : Proto.Codecs) (computeTxID : Bytes → Bytes → GoString)
    (signer : Option Signer) (rand : Except Text Bytes) (now : Proto.Timestamp)
    (channel ns chaincodeVersion : GoString) (nsVersion : ℕ) (args : List Bytes) :
    Outcome Invocation :=
  match signer with
  | none => .error [.lit "nil signer"]
  | some signer => do
      let creator ← Outcome.lift signer.serialize
      let nonce ← Outcome.ofExcept "read nonce" rand
      let txID := computeTxID nonce creator
      let chdr ← Outcome.ofExcept "marshal channel header" (c.channelHeader.marshal
        { type := Proto.headerTypeMessage
          version := 0
          timestamp := some now
          channelId := channel
          txId := txID
          epoch := 0
          extension := []
          tlsCertHash := [] })
      let shdr ← Outcome.ofExcept "marshal signature header" (c.signatureHeader.marshal
        { creator := creator
          nonce := nonce })
      let hdr ← Outcome.ofExcept "marshal header" (c.header.marshal
        { channelHeader := chdr
          signatureHeader := shdr })
      pure
        { txID := txID
          nonce := nonce
          creator := creator
          args := args
          ns := ns
          chaincodeVersion := chaincodeVersion
          nsVersion := nsVersion
          channel := channel
          proposal := some ⟨hdr, [], []⟩
          proposalHash := [] }

/-- The state of the loop over the writes: the reads that no write has taken yet,
and the writes seen so far. -/
structure Split where
  readByKey : GoMap KVRead
  readWrites : List Proto.ReadWrite
  blindWrites : List Proto.Write

/-- A delete is written as a nil value. -/
def writtenValue (w : KVWrite) : Bytes := if w.isDelete then [] else w.value

def readVersion (r : KVRead) : Option ℕ := r.version.map Version.blockNum

def Split.add (s : Split) (w : KVWrite) : Split :=
  match s.readByKey.lookup w.key with
  | some r =>
      { s with
        -- the read is taken, so a second write of the key would be blind
        readByKey := s.readByKey.erase w.key
        readWrites := s.readWrites ++ [⟨w.key, readVersion r, writtenValue w⟩] }
  | none => { s with blindWrites := s.blindWrites ++ [⟨w.key, writtenValue w⟩] }

/-- `readByKey`: a repeated key keeps its last read. -/
def readMap (reads : List KVRead) : GoMap KVRead :=
  reads.foldl (fun m r => m.insert r.key r) ∅

def split (rws : ReadWriteSet) : Split :=
  rws.writes.foldl Split.add ⟨readMap rws.reads, [], []⟩

/-- The reads that are left after the loop over the writes. -/
def remainingReads (rt : Runtime) (s : Split) : List Proto.Read :=
  (rt.rangeMap s.readByKey.entries).map fun e => ⟨e.2.key, readVersion e.2⟩

def buildTx (rt : Runtime) (rws : ReadWriteSet) (ns : GoString) (nsVersion : ℕ)
    (metadata : List Bytes) : Proto.Tx :=
  let s := split rws
  { namespaces :=
      [{ nsId := ns
         nsVersion := nsVersion
         readsOnly := rt.sortBy Proto.Read.key (remainingReads rt s)
         readWrites := rt.sortBy Proto.ReadWrite.key s.readWrites
         blindWrites := rt.sortBy Proto.Write.key s.blindWrites }]
    endorsements := []
    metadata := metadata }

/-- `TxNamespace.ASN1Marshal`, with the id of the transaction and its metadata. -/
abbrev ASN1Marshal := Proto.TxNamespace → GoString → List Bytes → Except Text Bytes

section Endorse

variable (c : Proto.Codecs) (asn1Marshal : ASN1Marshal)

/-- The part of `Endorse` before the signer is asked: the payload and the digest. -/
def prepare (rt : Runtime) (inv : Invocation) (res : ExecutionResult) :
    Outcome (Bytes × Bytes) := do
  res.validate
  let metadata ← Outcome.lift (FabricX.encodeMetadata c
    ⟨res.event, res.eventName, res.payload, inv.args⟩)
  let tx := buildTx rt res.rws inv.ns inv.nsVersion metadata
  let prpBytes ← Outcome.ofExcept "failed to marshal read/write set" (c.tx.marshal tx)
  -- `tx.Namespaces[0]`
  let ns ← Outcome.deref tx.namespaces.head?
  let digest ← Outcome.ofExcept "cannot serialize tx" (asn1Marshal ns inv.txID metadata)
  pure (prpBytes, digest)

def endorse (rt : Runtime) (signer : Signer) (inv : Invocation) (res : ExecutionResult) :
    Outcome Proto.ProposalResponse := do
  let (prpBytes, digest) ← prepare c asn1Marshal rt inv res
  let identityBytes ← Outcome.lift signer.serialize
  let sig ← Outcome.ofExcept "could not sign the proposal response payload" (signer.sign digest)
  pure
    { version := 1
      response := some res.response
      payload := prpBytes
      endorsement := some ⟨identityBytes, sig⟩ }

end Endorse

section Spec

variable {c : Proto.Codecs} {asn1Marshal : ASN1Marshal} {rt : Runtime} {signer : Signer}
  {inv : Invocation} {res : ExecutionResult}

theorem newInvocation_proposes (hc : c.Lawful) {computeTxID : Bytes → Bytes → GoString}
    {signer : Option Signer} {rand : Except Text Bytes} {now : Proto.Timestamp}
    {channel ns chaincodeVersion : GoString} {nsVersion : ℕ} {args : List Bytes}
    (h : newInvocation c computeTxID signer rand now channel ns chaincodeVersion nsVersion args =
      .ok inv) : inv.Proposes c Proto.headerTypeMessage := by
  cases signer with
  | none => cases h
  | some signer =>
      simp only [newInvocation, Outcome.bind_eq_ok, Outcome.ofExcept_eq_ok, Outcome.pure_eq,
        Outcome.ok.injEq] at h
      obtain ⟨creator, _, nonce, _, chdr, hchdr, shdr, _, hdr, hhdr, rfl⟩ := h
      exact ⟨_, _, _, rfl, hc.header.unmarshal_marshal _ _ hhdr,
        hc.channelHeader.unmarshal_marshal _ _ hchdr, rfl, rfl, rfl⟩

theorem prepare_eq_ok {prpBytes digest : Bytes} :
    prepare c asn1Marshal rt inv res = .ok (prpBytes, digest) ↔
      res.validate = .ok () ∧ ∃ metadata ns,
        FabricX.encodeMetadata c ⟨res.event, res.eventName, res.payload, inv.args⟩ =
          .ok metadata ∧
        c.tx.marshal (buildTx rt res.rws inv.ns inv.nsVersion metadata) = .ok prpBytes ∧
        (buildTx rt res.rws inv.ns inv.nsVersion metadata).namespaces.head? = some ns ∧
        asn1Marshal ns inv.txID metadata = .ok digest := by
  simp only [prepare, Outcome.bind_eq_ok, Outcome.lift_eq_ok, Outcome.ofExcept_eq_ok,
    Outcome.deref_eq_ok, Outcome.pure_eq, Outcome.ok.injEq, Prod.mk.injEq]
  constructor
  · rintro ⟨_, hvalid, metadata, hmd, _, hprp, ns, hns, _, hdigest, rfl, rfl⟩
    exact ⟨hvalid, metadata, ns, hmd, hprp, hns, hdigest⟩
  · rintro ⟨hvalid, metadata, ns, hmd, hprp, hns, hdigest⟩
    exact ⟨(), hvalid, metadata, hmd, _, hprp, ns, hns, _, hdigest, rfl, rfl⟩

theorem endorse_eq_ok {r : Proto.ProposalResponse} :
    endorse c asn1Marshal rt signer inv res = .ok r ↔
      ∃ prpBytes digest identityBytes sig,
        prepare c asn1Marshal rt inv res = .ok (prpBytes, digest) ∧
        signer.serialize = .ok identityBytes ∧ signer.sign digest = .ok sig ∧
        r = ⟨1, some res.response, prpBytes, some ⟨identityBytes, sig⟩⟩ := by
  simp only [endorse, Outcome.bind_eq_ok, Outcome.lift_eq_ok, Outcome.ofExcept_eq_ok,
    Outcome.pure_eq, Outcome.ok.injEq, Prod.exists]
  constructor
  · rintro ⟨prpBytes, digest, hprep, identityBytes, hid, sig, hsig, rfl⟩
    exact ⟨prpBytes, digest, identityBytes, sig, hprep, hid, hsig, rfl⟩
  · rintro ⟨prpBytes, digest, identityBytes, sig, hprep, hid, hsig, rfl⟩
    exact ⟨prpBytes, digest, hprep, identityBytes, hid, sig, hsig, rfl⟩

end Spec

end FabricXSdk.Endorsement.FabricX

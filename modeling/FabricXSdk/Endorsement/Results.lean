import FabricXSdk.Blocks.Fabric
import FabricXSdk.Endorsement.FabricX
import FabricXSdk.Endorsement.Proposals

/-!
# The results of a simulation on the wire

Classic Fabric keeps keys in string fields and marshals the read/write set with a
helper that panics, Fabric-X keeps them in bytes fields and returns every error. So a
key that is no valid UTF-8 crashes an endorser of the first and not of the second.
What the first does encode, its parser reads back.
-/

namespace FabricXSdk.Endorsement

open Golang Blocks

/-- The strings of an invocation and a read/write set that classic Fabric puts into
string fields. -/
structure Spellable (ns : GoString) (rws : ReadWriteSet) : Prop where
  ns : utf8Valid ns = true
  reads : ∀ r ∈ rws.reads, utf8Valid r.key = true
  writes : ∀ w ∈ rws.writes, utf8Valid w.key = true

namespace Fabric

variable {c : Proto.Codecs} {pu : Protoutil} {rt : Runtime} {rws : ReadWriteSet} {ns : GoString}

theorem marshalOrPanic_ne_error {M : Type} {codec : Protobuf.Codec M} {m : M} {err : Text} :
    marshalOrPanic codec m ≠ .error err := by
  simp only [marshalOrPanic]
  split <;> simp

/-- The message `marshalRWSet` puts the reads and writes into. -/
def sortedSet (rt : Runtime) (rws : ReadWriteSet) : Proto.KVRWSet where
  reads := (rt.sortBy KVRead.key rws.reads).map marshalRead
  writes := (rt.sortBy KVWrite.key rws.writes).map marshalWrite

theorem sortedSet_encodable :
    (sortedSet rt rws).Encodable ↔
      (∀ r ∈ rws.reads, utf8Valid r.key = true) ∧ ∀ w ∈ rws.writes, utf8Valid w.key = true := by
  simp only [Proto.KVRWSet.Encodable, sortedSet, List.forall_mem_map,
    (rt.sortBy_perm KVRead.key rws.reads).mem_iff, (rt.sortBy_perm KVWrite.key rws.writes).mem_iff,
    marshalRead, marshalWrite]

theorem marshalRWSet_eq_ok {b : Bytes} :
    marshalRWSet c rt rws ns = .ok b ↔
      ∃ rwset, c.kvRWSet.marshal (sortedSet rt rws) = .ok rwset ∧
        c.txReadWriteSet.marshal ⟨[⟨ns, rwset⟩]⟩ = .ok b := by
  simp only [marshalRWSet, Outcome.bind_eq_ok, marshalOrPanic_eq_ok, sortedSet]

/-- `marshalRWSet` returns exactly if every string is valid. -/
theorem marshalRWSet_ok_iff (hc : c.LawfulFabric) :
    (∃ b, marshalRWSet c rt rws ns = .ok b) ↔ Spellable ns rws := by
  constructor
  · rintro ⟨b, hb⟩
    obtain ⟨rwset, hset, htx⟩ := marshalRWSet_eq_ok.mp hb
    have hkeys := sortedSet_encodable.mp ((hc.kvRWSet.marshal_ok_iff _).mp ⟨rwset, hset⟩)
    have hns := (hc.txReadWriteSet.marshal_ok_iff _).mp ⟨b, htx⟩
    exact ⟨hns ⟨ns, rwset⟩ List.mem_cons_self, hkeys.1, hkeys.2⟩
  · rintro ⟨hns, hreads, hwrites⟩
    obtain ⟨rwset, hset⟩ := hc.kvRWSet.marshal_ok _
      (sortedSet_encodable.mpr ⟨hreads, hwrites⟩ : (sortedSet rt rws).Encodable)
    have hencodable : Proto.TxReadWriteSet.Encodable ⟨[⟨ns, rwset⟩]⟩ := by
      intro n hn
      cases List.mem_singleton.mp hn
      exact hns
    obtain ⟨b, hb⟩ := hc.txReadWriteSet.marshal_ok _ hencodable
    exact ⟨b, marshalRWSet_eq_ok.mpr ⟨rwset, hset, hb⟩⟩

theorem marshalRWSet_ne_error {err : Text} : marshalRWSet c rt rws ns ≠ .error err := by
  simp [marshalRWSet, Outcome.bind_eq_error, marshalOrPanic_ne_error]

/-- The helper that panics leaves two outcomes. -/
theorem marshalRWSet_eq_panic (hc : c.LawfulFabric) :
    marshalRWSet c rt rws ns = .panic ↔ ¬ Spellable ns rws := by
  have hok : (∃ b, marshalRWSet c rt rws ns = .ok b) ↔ Spellable ns rws := marshalRWSet_ok_iff hc
  rw [← hok]
  cases h : marshalRWSet c rt rws ns with
  | ok b => simp
  | error err => exact absurd h marshalRWSet_ne_error
  | panic => simp

/-- A read/write set in the order it is marshaled in. -/
def sorted (rt : Runtime) (rws : ReadWriteSet) : ReadWriteSet where
  reads := rt.sortBy KVRead.key rws.reads
  writes := rt.sortBy KVWrite.key rws.writes

theorem parseRead_marshalRead (r : KVRead) : Blocks.Fabric.parseRead (marshalRead r) = r := by
  cases r with
  | mk key version => cases version <;> rfl

theorem parseWrite_marshalWrite (w : KVWrite) : Blocks.Fabric.parseWrite (marshalWrite w) = w := rfl

/-- The parser reads a marshaled read/write set back, under its namespace. A set without
a namespace is skipped. -/
theorem parseNamespaces_marshalRWSet (hc : c.LawfulFabric) {b : Bytes}
    (h : marshalRWSet c rt rws ns = .ok b) :
    ∃ set, c.txReadWriteSet.unmarshal b = .ok set ∧
      Blocks.Fabric.parseNamespaces c set.nsRwset =
        .ok (if ns.length = 0 then [] else [⟨ns, sorted rt rws⟩]) := by
  obtain ⟨rwset, hset, htx⟩ := marshalRWSet_eq_ok.mp h
  refine ⟨_, hc.txReadWriteSet.unmarshal_marshal _ _ htx, ?_⟩
  have hkvs := hc.kvRWSet.unmarshal_marshal _ _ hset
  have hreads : (sortedSet rt rws).reads.map Blocks.Fabric.parseRead =
      rt.sortBy KVRead.key rws.reads := by
    simp [sortedSet, Function.comp_def, parseRead_marshalRead]
  have hwrites : (sortedSet rt rws).writes.map Blocks.Fabric.parseWrite =
      rt.sortBy KVWrite.key rws.writes := by
    simp [sortedSet, Function.comp_def, parseWrite_marshalWrite]
  by_cases hns : ns.length = 0
  · simp [Blocks.Fabric.parseNamespaces, hns]
  · simp [Blocks.Fabric.parseNamespaces, hns, hkvs, hreads, hwrites, sorted, Outcome.ofExcept]

/-- What the SDK relies on for the response payloads that `protoutil` assembles: valid
strings make one, and it decodes to the action it was made of. -/
structure Protoutil.Responds (pu : Protoutil) (c : Proto.Codecs) : Prop where
  payload_ok : ∀ hash response results events ccid, response.Encodable → ccid.Encodable →
    ∃ b, pu.getBytesProposalResponsePayload hash response results events ccid = .ok b
  payload : ∀ hash response results events ccid b,
    pu.getBytesProposalResponsePayload hash response results events ccid = .ok b →
      ∃ prp, c.proposalResponsePayload.unmarshal b = .ok prp ∧
        c.chaincodeAction.unmarshal prp.extension =
          .ok ⟨results, events, some response, some ccid⟩

theorem Protoutil.reference_payload_eq_ok {hash : Bytes → Bytes} {now : Proto.Timestamp}
    {proposalHash results events b : Bytes} {response : Proto.Response} {ccid : Proto.ChaincodeID} :
    (reference hash now).getBytesProposalResponsePayload proposalHash response results events ccid =
        .ok b ↔
      ∃ action, Proto.Codecs.protobuf.chaincodeAction.marshal
          ⟨results, events, some response, some ccid⟩ = .ok action ∧
        Proto.Codecs.protobuf.proposalResponsePayload.marshal ⟨proposalHash, action⟩ = .ok b := by
  simp only [reference]
  cases Proto.Codecs.protobuf.chaincodeAction.marshal
    ⟨results, events, some response, some ccid⟩ with
  | error err =>
      constructor
      · rintro ⟨⟩
      · rintro ⟨_, ⟨⟩, _⟩
  | ok action =>
      constructor
      · intro h
        exact ⟨action, rfl, h⟩
      · rintro ⟨_, ⟨⟩, h⟩
        exact h

theorem Protoutil.reference_responds (hash : Bytes → Bytes) (now : Proto.Timestamp) :
    (reference hash now).Responds Proto.Codecs.protobuf where
  payload_ok := by
    intro proposalHash response results events ccid hresponse hccid
    have hc := Proto.Codecs.protobuf_lawfulFabric
    obtain ⟨action, haction⟩ := hc.chaincodeAction.marshal_ok
      ⟨results, events, some response, some ccid⟩
      ⟨by rintro r ⟨⟩; exact hresponse, by rintro i ⟨⟩; exact hccid⟩
    obtain ⟨b, hb⟩ := hc.proposalResponsePayload.marshal_ok ⟨proposalHash, action⟩ trivial
    exact ⟨b, reference_payload_eq_ok.mpr ⟨action, haction, hb⟩⟩
  payload := by
    intro proposalHash response results events ccid b h
    have hc := Proto.Codecs.protobuf_lawfulFabric
    obtain ⟨action, haction, hb⟩ := reference_payload_eq_ok.mp h
    exact ⟨_, hc.proposalResponsePayload.unmarshal_marshal _ _ hb,
      hc.chaincodeAction.unmarshal_marshal _ _ haction⟩

/-- The event of a chaincode action that `Endorse` has made. -/
theorem parseEvent_marshalEvent (hc : c.LawfulFabric) {inv : Invocation} {res : ExecutionResult}
    (hvalid : res.validate = .ok ()) {events : Bytes} (h : marshalEvent c inv res = .ok events)
    {ccAct : Proto.ChaincodeAction} (hevents : ccAct.events = events) :
    Blocks.Fabric.parseEvent c ccAct = .ok (res.event, res.eventName) := by
  rw [Blocks.Fabric.parseEvent, hevents]
  by_cases hname : res.eventName = []
  · rw [marshalEvent, if_neg (not_not.mpr hname)] at h
    cases h
    -- a valid result without a name has no event
    have hevent : res.event = [] := by
      by_contra hne
      have hpos : 0 < res.event.length := List.length_pos_iff.mpr hne
      simp [ExecutionResult.validate, hpos, hname] at hvalid
    rw [hname, hevent]
    rfl
  · rw [marshalEvent, if_pos hname, Outcome.ofExcept_eq_ok] at h
    have hdecode := hc.chaincodeEvent.unmarshal_marshal _ _ h
    have hpos : 0 < events.length := by
      rw [List.length_pos_iff]
      rintro rfl
      rw [hc.chaincodeEvent_nil] at hdecode
      exact hname (congrArg Proto.ChaincodeEvent.eventName (Except.ok.inj hdecode)).symm
    rw [if_pos hpos, hdecode]
    rfl

theorem validate_ne_panic (res : ExecutionResult) : res.validate ≠ .panic := by
  simp only [ExecutionResult.validate]
  split <;> simp

theorem marshalEvent_ne_panic (inv : Invocation) (res : ExecutionResult) :
    marshalEvent c inv res ≠ .panic := by
  simp only [marshalEvent]
  split
  · simp
  · simp

theorem endorse_eq_panic (hc : c.LawfulFabric) {signer : Signer} {inv : Invocation}
    {res : ExecutionResult} :
    endorse c pu rt signer inv res = .panic ↔
      res.validate = .ok () ∧ ¬ Spellable inv.ns res.rws := by
  have hunit : (∃ u, res.validate = .ok u) ↔ res.validate = .ok () :=
    ⟨fun ⟨(), h⟩ => h, fun h => ⟨(), h⟩⟩
  simp [endorse, prepare, Outcome.bind_eq_panic, validate_ne_panic, marshalEvent_ne_panic,
    marshalRWSet_eq_panic hc, hunit]

end Fabric

theorem FabricX.endorse_ne_panic (c : Proto.Codecs) (asn1Marshal : FabricX.ASN1Marshal)
    (rt : Runtime) (signer : Signer) (inv : Invocation) (res : ExecutionResult) :
    FabricX.endorse c asn1Marshal rt signer inv res ≠ .panic := by
  simp [FabricX.endorse, FabricX.prepare, Outcome.bind_eq_panic, Fabric.validate_ne_panic,
    FabricX.buildTx]

/-- Endorsing crashes an endorser exactly if it is one of classic Fabric and a string
of a valid result is not UTF-8. -/
theorem endorse_ne_panic_iff {c : Proto.Codecs} (hc : c.LawfulFabric) (pu : Fabric.Protoutil)
    (asn1Marshal : FabricX.ASN1Marshal) (rt : Runtime) (signer : Signer) (inv : Invocation)
    (res : ExecutionResult) :
    (Fabric.endorse c pu rt signer inv res ≠ .panic ∧
      FabricX.endorse c asn1Marshal rt signer inv res ≠ .panic) ↔
      res.validate ≠ .ok () ∨ Spellable inv.ns res.rws := by
  rw [and_iff_left (FabricX.endorse_ne_panic c asn1Marshal rt signer inv res), Ne,
    Fabric.endorse_eq_panic hc, not_and_or, not_not]

section Sample

def sampleRequest : Invocation := ⟨[116], [1], [7], [[97]], [110], [49], 0, [99], none, []⟩

/-- A result that writes one key. -/
def sampleWrite (key : GoString) : ExecutionResult :=
  ⟨⟨[], [⟨key, false, [1]⟩]⟩, [], [], 200, [], []⟩

/-- A namespace is serialized as its id and the id of the transaction. -/
def sampleDigest : FabricX.ASN1Marshal := fun ns txID _ => .ok (ns.nsId ++ txID)

theorem endorse_ne_panic_iff_sample :
    Spellable sampleRequest.ns (sampleWrite [107]).rws ∧
      Fabric.endorse Proto.Codecs.protobuf Fabric.sampleProposer Runtime.canonical
        Fabric.sampleClient sampleRequest (sampleWrite [107]) ≠ .panic := by
  have hs : Spellable sampleRequest.ns (sampleWrite [107]).rws :=
    ⟨by decide, by decide, by decide⟩
  exact ⟨hs, ((endorse_ne_panic_iff Proto.Codecs.protobuf_lawfulFabric Fabric.sampleProposer
    sampleDigest Runtime.canonical Fabric.sampleClient sampleRequest (sampleWrite [107])).mpr
      (Or.inr hs)).1⟩

/-- A key of one byte that starts no character: the endorser of classic Fabric crashes,
the one of Fabric-X answers. -/
theorem endorse_panics_on_key :
    Fabric.endorse Proto.Codecs.protobuf Fabric.sampleProposer Runtime.canonical
        Fabric.sampleClient sampleRequest (sampleWrite [255]) = .panic ∧
      FabricX.endorse Proto.Codecs.protobuf sampleDigest Runtime.canonical
        Fabric.sampleClient sampleRequest (sampleWrite [255]) ≠ .panic := by
  constructor
  · decide +kernel
  · decide +kernel

end Sample

end FabricXSdk.Endorsement

import FabricXSdk.Endorsement.Fabric
import FabricXSdk.Endorsement.Split

/-!
# Endorsements do not depend on iteration order

A simulation returns its reads and writes in the order of a Go map. Both builders
sort what they marshal, so endorsers that saw different orders still produce the
same payload and sign the same digest.
-/

namespace FabricXSdk.Endorsement

open Golang Blocks

/-- The same result with its reads and writes in another order. -/
structure Reordered (res res' : ExecutionResult) : Prop where
  reads : res.rws.reads.Perm res'.rws.reads
  writes : res.rws.writes.Perm res'.rws.writes
  rest : res' = { res with rws := res'.rws }

section Reordered

variable {c : Proto.Codecs} {res res' : ExecutionResult}

/-- Nothing but the read/write set of a result has changed. -/
theorem Reordered.fields (h : Reordered res res') :
    res'.validate = res.validate ∧ res'.event = res.event ∧ res'.eventName = res.eventName ∧
      res'.payload = res.payload := by
  rw [h.rest]
  exact ⟨rfl, rfl, rfl, rfl⟩

theorem Reordered.symm (h : Reordered res res') : Reordered res' res where
  reads := h.reads.symm
  writes := h.writes.symm
  rest := by
    rw [h.rest]

theorem Reordered.trans {res'' : ExecutionResult} (h : Reordered res res')
    (h' : Reordered res' res'') : Reordered res res'' where
  reads := h.reads.trans h'.reads
  writes := h.writes.trans h'.writes
  rest := by
    rw [h'.rest, h.rest]

theorem FabricX.prepare_reordered {asn1Marshal : FabricX.ASN1Marshal}
    (hd : Distinct res.rws) (h : Reordered res res') (rt rt' : Runtime)
    (inv : Invocation) :
    FabricX.prepare c asn1Marshal rt inv res = FabricX.prepare c asn1Marshal rt' inv res' := by
  obtain ⟨hvalid, hevent, hname, hpayload⟩ := h.fields
  simp only [FabricX.prepare, hvalid, hevent, hname, hpayload,
    FabricX.buildTx_perm hd h.reads h.writes rt rt']

theorem Fabric.marshalRWSet_perm {rws rws' : ReadWriteSet} (hd : Distinct rws)
    (hr : rws.reads.Perm rws'.reads) (hw : rws.writes.Perm rws'.writes) (rt rt' : Runtime)
    (ns : GoString) : Fabric.marshalRWSet c rt rws ns = Fabric.marshalRWSet c rt' rws' ns := by
  simp only [Fabric.marshalRWSet, rt.sortBy_eq_of_perm rt' KVRead.key hr hd.reads,
    rt.sortBy_eq_of_perm rt' KVWrite.key hw hd.writes]

theorem Fabric.prepare_reordered {pu : Fabric.Protoutil} (hd : Distinct res.rws)
    (h : Reordered res res') (rt rt' : Runtime) (inv : Invocation) :
    Fabric.prepare c pu rt inv res = Fabric.prepare c pu rt' inv res' := by
  obtain ⟨hvalid, hevent, hname, hpayload⟩ := h.fields
  have hmarshal : Fabric.marshalEvent c inv res' = Fabric.marshalEvent c inv res := by
    simp only [Fabric.marshalEvent, hevent, hname]
  simp only [Fabric.prepare, hvalid, hmarshal, hpayload,
    Fabric.marshalRWSet_perm hd h.reads h.writes rt rt']

/-- Two Fabric-X endorsers of one simulation agree on the payload and the digest. -/
theorem FabricX.endorse_reordered {asn1Marshal : FabricX.ASN1Marshal}
    (hd : Distinct res.rws) (h : Reordered res res') {rt rt' : Runtime}
    {signer signer' : Signer} {inv : Invocation} {r r' : Proto.ProposalResponse}
    (hr : FabricX.endorse c asn1Marshal rt signer inv res = .ok r)
    (hr' : FabricX.endorse c asn1Marshal rt' signer' inv res' = .ok r') :
    r.payload = r'.payload ∧
      ∃ digest, SignedBy signer (fun _ => digest) r ∧ SignedBy signer' (fun _ => digest) r' := by
  obtain ⟨prpBytes, digest, identity, sig, hprep, hid, hsig, rfl⟩ := FabricX.endorse_eq_ok.mp hr
  obtain ⟨prpBytes', digest', identity', sig', hprep', hid', hsig', rfl⟩ :=
    FabricX.endorse_eq_ok.mp hr'
  rw [FabricX.prepare_reordered hd h rt rt', hprep'] at hprep
  cases hprep
  exact ⟨rfl, digest, ⟨identity, sig, hid, hsig, rfl⟩, identity', sig', hid', hsig', rfl⟩

/-- Two Fabric endorsers of one simulation agree on the payload, and sign it followed
by their own identity. -/
theorem Fabric.endorse_reordered {pu : Fabric.Protoutil} (hd : Distinct res.rws)
    (h : Reordered res res') {rt rt' : Runtime} {signer signer' : Signer} {inv : Invocation}
    {r r' : Proto.ProposalResponse} (hr : Fabric.endorse c pu rt signer inv res = .ok r)
    (hr' : Fabric.endorse c pu rt' signer' inv res' = .ok r') :
    r.payload = r'.payload ∧
      ∃ digest, SignedBy signer (fun identity => digest ++ identity) r ∧
        SignedBy signer' (fun identity => digest ++ identity) r' := by
  obtain ⟨prpBytes, identity, sig, hprep, hid, hsig, rfl⟩ := Fabric.endorse_eq_ok.mp hr
  obtain ⟨prpBytes', identity', sig', hprep', hid', hsig', rfl⟩ := Fabric.endorse_eq_ok.mp hr'
  rw [Fabric.prepare_reordered hd h rt rt', hprep'] at hprep
  cases hprep
  exact ⟨rfl, prpBytes, ⟨identity, sig, hid, hsig, rfl⟩, identity', sig', hid', hsig', rfl⟩

/-- What an honest Fabric-X endorser answers: its builder ran on the result with the
reads and writes in some order. -/
def FabricX.Honest (c : Proto.Codecs) (asn1Marshal : FabricX.ASN1Marshal) (inv : Invocation)
    (res : ExecutionResult) (r : Proto.ProposalResponse) : Prop :=
  ∃ res' rt signer, Reordered res res' ∧
    FabricX.endorse c asn1Marshal rt signer inv res' = .ok r

/-- What an honest Fabric endorser answers. -/
def Fabric.Honest (c : Proto.Codecs) (pu : Fabric.Protoutil) (inv : Invocation)
    (res : ExecutionResult) (r : Proto.ProposalResponse) : Prop :=
  ∃ res' rt signer, Reordered res res' ∧ Fabric.endorse c pu rt signer inv res' = .ok r

theorem FabricX.Honest.payload {asn1Marshal : FabricX.ASN1Marshal} {inv : Invocation}
    {r r' : Proto.ProposalResponse} (hd : Distinct res.rws)
    (h : FabricX.Honest c asn1Marshal inv res r) (h' : FabricX.Honest c asn1Marshal inv res r') :
    r.payload = r'.payload := by
  obtain ⟨res₁, rt, signer, hres, hr⟩ := h
  obtain ⟨res₂, rt', signer', hres', hr'⟩ := h'
  have hd₁ : Distinct res₁.rws := hd.perm hres.reads hres.writes
  exact (FabricX.endorse_reordered hd₁ (hres.symm.trans hres') hr hr').1

theorem Fabric.Honest.payload {pu : Fabric.Protoutil} {inv : Invocation}
    {r r' : Proto.ProposalResponse} (hd : Distinct res.rws)
    (h : Fabric.Honest c pu inv res r) (h' : Fabric.Honest c pu inv res r') :
    r.payload = r'.payload := by
  obtain ⟨res₁, rt, signer, hres, hr⟩ := h
  obtain ⟨res₂, rt', signer', hres', hr'⟩ := h'
  have hd₁ : Distinct res₁.rws := hd.perm hres.reads hres.writes
  exact (Fabric.endorse_reordered hd₁ (hres.symm.trans hres') hr hr').1

end Reordered

end FabricXSdk.Endorsement

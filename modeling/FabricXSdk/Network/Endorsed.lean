import FabricXSdk.Endorsement.Deterministic
import FabricXSdk.Endorsement.Proposals
import FabricXSdk.Network.Packaging
import FabricXSdk.Proto.Encoding

/-!
# Packaging preserves what was endorsed

An envelope that `CreateTx` makes from the responses of Fabric-X endorsers carries
the transaction they signed, under the ids of the proposal, with one endorsement
of each endorser. The proposal may also be a classic Fabric one.
-/

namespace FabricXSdk.Network.FabricX

open Golang Blocks Endorsement

/-- The invocations the SDK makes: those of the two builders, and those an endorser
parses from a signed proposal. -/
inductive Made (c : Proto.Codecs) (pu : Fabric.Protoutil) : Invocation → Prop
  | fabricX {signer rand now channel ns chaincodeVersion nsVersion args inv} :
      FabricX.newInvocation c pu.computeTxID signer rand now channel ns chaincodeVersion nsVersion
        args = .ok inv → Made c pu inv
  | fabric {signer rand channel ns chaincodeVersion args inv} :
      Fabric.newInvocation c pu signer rand channel ns chaincodeVersion args = .ok inv →
        Made c pu inv
  | parsed {signedProp expectedTime inv} :
      Fabric.parse c pu signedProp expectedTime = .ok inv → Made c pu inv

theorem Made.proposes {c : Proto.Codecs} {pu : Fabric.Protoutil} {inv : Invocation}
    (h : Made c pu inv) (hc : c.Lawful) (hpu : pu.Lawful c) : ∃ type, inv.Proposes c type := by
  cases h with
  | fabricX h => exact ⟨_, FabricX.newInvocation_proposes hc h⟩
  | fabric h => exact ⟨_, Fabric.newInvocation_proposes hpu h⟩
  | parsed h => exact ⟨_, Fabric.parse_proposes h⟩

section Sample

open Proto

def sampleIdentity (certificate : Byte) : Bytes :=
  identityBody.encode ⟨[111, 114, 103, 49], [certificate], []⟩

def sampleSigner (certificate : Byte) : Signer where
  sign := fun digest => .ok [certificate, Fin.ofNat 256 digest.length]
  serialize := .ok (sampleIdentity certificate)

def sampleNonce : Bytes := List.replicate 24 7

/-- The SHA-256 of what the samples hash: the sample nonce and the identity with certificate
1, and otherwise the headers and the payload of the sample proposal. -/
def sampleHash (bs : Bytes) : Bytes :=
  if bs = sampleNonce ++ sampleIdentity 1 then
    [81, 9, 222, 216, 33, 63, 219, 133, 110, 210, 171, 17, 114, 87, 107, 85, 215, 85, 61, 241, 21,
      119, 54, 43, 176, 21, 125, 167, 184, 162, 107, 21]
  else
    [91, 13, 226, 185, 104, 80, 189, 250, 246, 218, 0, 253, 89, 37, 132, 23, 64, 107, 163, 142,
      238, 90, 99, 244, 233, 33, 36, 52, 127, 218, 43, 166]

def sampleProtoutil : Fabric.Protoutil := .reference sampleHash ⟨1, 0⟩

theorem sampleProtoutil_lawful : sampleProtoutil.Lawful Codecs.protobuf :=
  Fabric.Protoutil.reference_lawful sampleHash ⟨1, 0⟩

/-- Tag, length and content, for contents of less than 2¹⁶ bytes. -/
def tlv (tag : Byte) (content : Bytes) : Bytes :=
  let n := content.length
  let length := if n < 128 then [n] else [0x82, n / 256, n % 256]
  tag :: length.map (Fin.ofNat 256) ++ content

/-- The DER encoding of a namespace with small versions. -/
def sampleASN1Marshal : FabricX.ASN1Marshal := fun ns txID metadata =>
  let version (v : Option ℕ) : Bytes := (v.map fun n => tlv 2 [Fin.ofNat 256 n]).getD []
  .ok (tlv 0x30 (tlv 0x0C txID ++ tlv 0x0C ns.nsId ++ tlv 2 [Fin.ofNat 256 ns.nsVersion] ++
    tlv 0x30 (ns.readsOnly.flatMap fun r => tlv 0x30 (tlv 4 r.key ++ version r.version)) ++
    tlv 0x30 (ns.readWrites.flatMap fun rw =>
      tlv 0x30 (tlv 4 rw.key ++ version rw.version ++ tlv 4 rw.value)) ++
    tlv 0x30 (ns.blindWrites.flatMap fun w => tlv 0x30 (tlv 4 w.key ++ tlv 4 w.value)) ++
    tlv 0x30 (metadata.flatMap (tlv 4))))

/-- A classic Fabric invocation. -/
def sampleInvocation : Invocation :=
  (Fabric.newInvocation Codecs.protobuf sampleProtoutil (some (sampleSigner 1)) (.ok sampleNonce)
    [99] [110] [49] [[97]]).getD ⟨[], [], [], [], [], [], 0, [], none, []⟩

/-- A read, a read with a delete, a read with a write, and a blind write. -/
def sampleResult : ExecutionResult where
  rws := ⟨[⟨[109], some ⟨2, 1⟩⟩, ⟨[107], some ⟨0, 0⟩⟩, ⟨[108], none⟩],
    [⟨[108], false, [1]⟩, ⟨[110], false, [2]⟩, ⟨[107], true, []⟩]⟩
  event := [5]
  eventName := [101]
  status := 200
  message := []
  payload := [9]

def sampleResponse (certificate : Byte) : ProposalResponse :=
  (FabricX.endorse Codecs.protobuf sampleASN1Marshal Runtime.canonical (sampleSigner certificate)
    sampleInvocation sampleResult).getD ⟨0, none, [], none⟩

theorem sampleResponse_eq : ∀ certificate ∈ ([1, 2] : List Byte),
    FabricX.endorse Codecs.protobuf sampleASN1Marshal Runtime.canonical (sampleSigner certificate)
      sampleInvocation sampleResult = .ok (sampleResponse certificate) := by
  decide +kernel

/-- The envelope of two endorsers, one of which answers twice. -/
def sampleEnvelope : Envelope :=
  (createTx Codecs.protobuf sampleInvocation.proposal none (.ok [])
    [sampleResponse 1, sampleResponse 2, sampleResponse 1]).getD ⟨[], []⟩

theorem sampleEnvelope_eq :
    createTx Codecs.protobuf sampleInvocation.proposal none (.ok [])
      [sampleResponse 1, sampleResponse 2, sampleResponse 1] = .ok sampleEnvelope := by
  decide +kernel

end Sample

section Preserve

variable {c : Proto.Codecs} {asn1Marshal : FabricX.ASN1Marshal} {inv : Invocation}
  {res : ExecutionResult} {endorsers : List (Runtime × Signer)}
  {resps : List Proto.ProposalResponse}

/-- The endorser signed this digest, and the response carries its signature. -/
def Signed (c : Proto.Codecs) (asn1Marshal : FabricX.ASN1Marshal) (inv : Invocation)
    (res : ExecutionResult) (digest : Bytes) (e : Runtime × Signer)
    (r : Proto.ProposalResponse) : Prop :=
  FabricX.prepare c asn1Marshal e.1 inv res = .ok (r.payload, digest) ∧
    SignedBy e.2 (fun _ => digest) r

/-- What an envelope with this channel header and this transaction keeps of the
endorsement of `res` by `endorsers`. -/
structure Preserves (c : Proto.Codecs) (asn1Marshal : FabricX.ASN1Marshal) (inv : Invocation)
    (res : ExecutionResult) (endorsers : List (Runtime × Signer))
    (resps : List Proto.ProposalResponse) (chdr : Proto.ChannelHeader) (tx : Proto.Tx) :
    Prop where
  type : chdr.type = Proto.headerTypeMessage
  ids : ∃ prop hdr phdr, inv.proposal = some prop ∧ c.header.unmarshal prop.header = .ok hdr ∧
    c.channelHeader.unmarshal hdr.channelHeader = .ok phdr ∧ chdr.txId = phdr.txId ∧
    chdr.channelId = phdr.channelId
  payload : ∀ r ∈ resps, ∃ endorsed, c.tx.unmarshal r.payload = .ok endorsed ∧
    tx.namespaces = endorsed.namespaces ∧ tx.metadata = endorsed.metadata
  digest : ∃ ns digest, tx.namespaces.head? = some ns ∧
    asn1Marshal ns chdr.txId tx.metadata = .ok digest ∧
    List.Forall₂ (Signed c asn1Marshal inv res digest) endorsers resps
  endorsements : ∃ unique entries, FirstOfEach (endorsementsOf resps) unique ∧
    List.Forall₂ (Identified c) unique entries ∧
    tx.endorsements = tx.namespaces.map fun _ => ⟨entries⟩

/-- Endorsers with one payload have signed one digest: that of its first namespace. -/
theorem endorse_signed (hc : c.Lawful) {e : Runtime × Signer} {r : Proto.ProposalResponse}
    {tx : Proto.Tx} (h : FabricX.endorse c asn1Marshal e.1 e.2 inv res = .ok r)
    (htx : c.tx.unmarshal r.payload = .ok tx) :
    ∃ ns digest, tx.namespaces.head? = some ns ∧
      asn1Marshal ns inv.txID tx.metadata = .ok digest ∧
      Signed c asn1Marshal inv res digest e r := by
  obtain ⟨prpBytes, digest, identity, sig, hprep, hid, hsig, rfl⟩ := FabricX.endorse_eq_ok.mp h
  obtain ⟨_, metadata, ns, _, hmarshal, hns, hdigest⟩ := FabricX.prepare_eq_ok.mp hprep
  have heq : tx = FabricX.buildTx e.1 res.rws inv.ns inv.nsVersion metadata := by
    have hback := hc.tx.unmarshal_marshal _ _ hmarshal
    rw [htx] at hback
    exact Except.ok.inj hback
  subst heq
  exact ⟨ns, digest, hns, hdigest, hprep, identity, sig, hid, hsig, rfl⟩

theorem endorse_signed_all (hc : c.Lawful) {tx : Proto.Tx}
    (h : List.Forall₂ (fun e r => FabricX.endorse c asn1Marshal e.1 e.2 inv res = .ok r)
      endorsers resps)
    (htx : ∀ r ∈ resps, c.tx.unmarshal r.payload = .ok tx) (hne : resps ≠ []) :
    ∃ ns digest, tx.namespaces.head? = some ns ∧
      asn1Marshal ns inv.txID tx.metadata = .ok digest ∧
      List.Forall₂ (Signed c asn1Marshal inv res digest) endorsers resps := by
  induction h with
  | nil => exact absurd rfl hne
  | @cons e r endorsers resps he hrest ih =>
      rw [List.forall_mem_cons] at htx
      obtain ⟨ns, digest, hns, hdigest, hsigned⟩ := endorse_signed hc he htx.1
      refine ⟨ns, digest, hns, hdigest, List.Forall₂.cons hsigned ?_⟩
      by_cases hresps : resps = []
      · subst hresps
        cases hrest
        exact List.Forall₂.nil
      · obtain ⟨ns', digest', hns', hdigest', hall⟩ := ih htx.2 hresps
        -- both digests are that of the first namespace of `tx`
        have heq : ns' = ns := Option.some.inj (hns'.symm.trans hns)
        subst heq
        have heq : digest' = digest := Except.ok.inj (hdigest'.symm.trans hdigest)
        subst heq
        exact hall

/-- Responses that differ, or are not successful, make `CreateTx` return an error. -/
theorem createTx_rejects {proposal : Option Proto.Proposal} {signer : Option Signer}
    {rand : Except Text Bytes} (hresp : ∀ r ∈ resps, r.response ≠ none)
    (hbad : (∃ r ∈ resps, ¬ Successful r) ∨
      ∃ r ∈ resps, ∃ r' ∈ resps, r.payload ≠ r'.payload) :
    ∃ err, createTx c proposal signer rand resps = .error err := by
  have hne : resps ≠ [] := by
    rintro rfl
    simp at hbad
  cases hcheck : checkResponses none resps with
  | ok a1 =>
      have hall := checkResponses_ok hcheck
      rcases hbad with ⟨r, hr, hnot⟩ | ⟨r, hr, r', hr', hdiff⟩
      · exact absurd (hall r hr).1 hnot
      · exact absurd ((hall r hr).2.trans (hall r' hr').2.symm) hdiff
  | error err => exact ⟨err, createTx_of_checkResponses hne hcheck⟩
  | panic => exact absurd hcheck (checkResponses_ne_panic hresp)

/-- Whatever envelope comes out of the responses of Fabric-X endorsers preserves
their endorsement; unsuccessful or differing responses are an error. -/
theorem createTx_preserves {pu : Fabric.Protoutil} (hc : c.Lawful) (hpu : pu.Lawful c)
    (hinv : Made c pu inv) (signer : Option Signer) (rand : Except Text Bytes) :
    (∀ endorsers resps env,
      List.Forall₂ (fun e r => FabricX.endorse c asn1Marshal e.1 e.2 inv res = .ok r)
        endorsers resps →
      createTx c inv.proposal signer rand resps = .ok env →
      ∃ pl chdr tx, openEnvelope c env = .ok (pl, chdr) ∧ c.tx.unmarshal pl.data = .ok tx ∧
        Preserves c asn1Marshal inv res endorsers resps chdr tx) ∧
    ∀ proposal resps, (∀ r ∈ resps, r.response ≠ none) →
      ((∃ r ∈ resps, ¬ Successful r) ∨ ∃ r ∈ resps, ∃ r' ∈ resps, r.payload ≠ r'.payload) →
      ∃ err, createTx c proposal signer rand resps = .error err := by
  refine ⟨fun endorsers resps env hends henv => ?_,
    fun proposal resps hresp hbad => createTx_rejects hresp hbad⟩
  obtain ⟨type, prop, hdr, phdr, hprop, hhdr, hphdr, _, htxID, _⟩ := hinv.proposes hc hpu
  have hne := (createTx_ok henv).1
  rw [hprop] at henv
  obtain ⟨a1, tx, entries, pl, chdr, hdr', phdr', hall, htx, hentries, hopen, hdata, hhdr', hphdr',
    htype, htxId, hchannelId⟩ := createTx_opens hc henv
  -- the header `CreateTx` decoded is the one the invocation proposes
  obtain rfl : hdr' = hdr := Except.ok.inj (hhdr'.symm.trans hhdr)
  obtain rfl : phdr' = phdr := Except.ok.inj (hphdr'.symm.trans hphdr)
  have hpayload : ∀ r ∈ resps, c.tx.unmarshal r.payload = .ok tx := by
    intro r hr
    rw [(hall r hr).2]
    exact htx
  have hdigest := endorse_signed_all hc hends hpayload hne
  refine ⟨pl, chdr, _, hopen, hdata, ?_⟩
  exact
    { type := htype
      ids := ⟨prop, hdr', phdr', hprop, hhdr, hphdr, htxId, hchannelId⟩
      payload := fun r hr => ⟨tx, hpayload r hr, rfl, rfl⟩
      digest := by
        rw [htxId, htxID]
        exact hdigest
      endorsements := ⟨_, entries, firstOfEach_uniqueEndorsements resps, hentries, rfl⟩ }

/-- Two endorsers, one of which answers twice, on a classic Fabric proposal. -/
theorem createTx_preserves_sample :
    ∃ pl chdr tx,
      createTx Proto.Codecs.protobuf sampleInvocation.proposal none (.ok [])
        [sampleResponse 1, sampleResponse 2, sampleResponse 1] = .ok sampleEnvelope ∧
      openEnvelope Proto.Codecs.protobuf sampleEnvelope = .ok (pl, chdr) ∧
      Proto.Codecs.protobuf.tx.unmarshal pl.data = .ok tx ∧
      Preserves Proto.Codecs.protobuf sampleASN1Marshal sampleInvocation sampleResult
        [(Runtime.canonical, sampleSigner 1), (Runtime.canonical, sampleSigner 2),
          (Runtime.canonical, sampleSigner 1)]
        [sampleResponse 1, sampleResponse 2, sampleResponse 1] chdr tx := by
  have hmade : Made Proto.Codecs.protobuf sampleProtoutil sampleInvocation := by
    apply Made.fabric
    exact (by decide +kernel : Fabric.newInvocation Proto.Codecs.protobuf sampleProtoutil
      (some (sampleSigner 1)) (.ok sampleNonce) [99] [110] [49] [[97]] = .ok sampleInvocation)
  have hends : List.Forall₂ (fun (e : Runtime × Signer) r => FabricX.endorse Proto.Codecs.protobuf
      sampleASN1Marshal e.1 e.2 sampleInvocation sampleResult = .ok r)
      [(Runtime.canonical, sampleSigner 1), (Runtime.canonical, sampleSigner 2),
        (Runtime.canonical, sampleSigner 1)]
      [sampleResponse 1, sampleResponse 2, sampleResponse 1] :=
    .cons (sampleResponse_eq 1 (by decide)) (.cons (sampleResponse_eq 2 (by decide))
      (.cons (sampleResponse_eq 1 (by decide)) .nil))
  have hpreserves := (createTx_preserves Proto.Codecs.protobuf_lawful sampleProtoutil_lawful hmade
    none (.ok [])).1 _ _ sampleEnvelope hends sampleEnvelope_eq
  obtain ⟨pl, chdr, tx, hopen, htx, hpres⟩ := hpreserves
  exact ⟨pl, chdr, tx, sampleEnvelope_eq, hopen, htx, hpres⟩

end Preserve

section Agree

variable {c : Proto.Codecs} {resps : List Proto.ProposalResponse}

/-- Responses with one payload never fail as differing. -/
theorem createTx_ne_mismatch {proposal : Option Proto.Proposal} {signer : Option Signer}
    {rand : Except Text Bytes} (h : ∀ r ∈ resps, ∀ r' ∈ resps, r.payload = r'.payload)
    (a b : Bytes) : createTx c proposal signer rand resps ≠ .error (mismatchErr a b) := by
  intro herr
  rcases createTx_errorsIn c proposal signer rand resps _ herr with hcheck | hlater
  · cases resps with
    | nil => cases hcheck
    | cons r rest =>
        have hall : ∀ r' ∈ r :: rest, r'.payload = r.payload :=
          fun r' hr' => h r' hr' r List.mem_cons_self
        exact checkResponses_ne_mismatch (by simp) hall _ hcheck rfl
  · exact not_later_mismatchErr a b hlater

/-- Endorsers of one simulation agree whatever orders they saw: on the payload, on
the digest they sign, and so `CreateTx` finds no mismatch among any number of them. -/
theorem endorsements_order_independent (asn1Marshal : FabricX.ASN1Marshal)
    (pu : Fabric.Protoutil) (inv : Invocation) {res : ExecutionResult} (hd : Distinct res.rws) :
    (∀ res' rt rt', Reordered res res' →
      FabricX.prepare c asn1Marshal rt inv res = FabricX.prepare c asn1Marshal rt' inv res' ∧
      Fabric.prepare c pu rt inv res = Fabric.prepare c pu rt' inv res') ∧
    (∀ res' rt rt' signer signer' r r', Reordered res res' →
      FabricX.endorse c asn1Marshal rt signer inv res = .ok r →
      FabricX.endorse c asn1Marshal rt' signer' inv res' = .ok r' →
      r.payload = r'.payload ∧
        ∃ digest, SignedBy signer (fun _ => digest) r ∧ SignedBy signer' (fun _ => digest) r') ∧
    (∀ res' rt rt' signer signer' r r', Reordered res res' →
      Fabric.endorse c pu rt signer inv res = .ok r →
      Fabric.endorse c pu rt' signer' inv res' = .ok r' →
      r.payload = r'.payload ∧
        ∃ digest, SignedBy signer (fun identity => digest ++ identity) r ∧
          SignedBy signer' (fun identity => digest ++ identity) r') ∧
    ∀ proposal signer rand resps,
      ((∀ r ∈ resps, FabricX.Honest c asn1Marshal inv res r) ∨
        ∀ r ∈ resps, Fabric.Honest c pu inv res r) →
      ∀ a b, createTx c proposal signer rand resps ≠ .error (mismatchErr a b) := by
  refine ⟨fun res' rt rt' h => ⟨FabricX.prepare_reordered hd h rt rt' inv,
      Fabric.prepare_reordered hd h rt rt' inv⟩,
    fun _ _ _ _ _ _ _ h hr hr' => FabricX.endorse_reordered hd h hr hr',
    fun _ _ _ _ _ _ _ h hr hr' => Fabric.endorse_reordered hd h hr hr', ?_⟩
  intro proposal signer rand resps hhonest
  apply createTx_ne_mismatch
  intro r hr r' hr'
  rcases hhonest with hhonest | hhonest
  · exact (hhonest r hr).payload hd (hhonest r' hr')
  · exact (hhonest r hr).payload hd (hhonest r' hr')

def sampleReordered : ExecutionResult :=
  { sampleResult with
    rws := ⟨sampleResult.rws.reads.reverse, sampleResult.rws.writes.reverse⟩ }

/-- A simulation whose reads and writes come out in reverse order at another endorser. -/
theorem endorsements_order_independent_sample :
    Distinct sampleResult.rws ∧ Reordered sampleResult sampleReordered ∧
      sampleReordered ≠ sampleResult ∧
      FabricX.prepare Proto.Codecs.protobuf sampleASN1Marshal Runtime.canonical sampleInvocation
        sampleResult =
      FabricX.prepare Proto.Codecs.protobuf sampleASN1Marshal Runtime.canonical sampleInvocation
        sampleReordered ∧
      Fabric.prepare Proto.Codecs.protobuf sampleProtoutil Runtime.canonical sampleInvocation
        sampleResult =
      Fabric.prepare Proto.Codecs.protobuf sampleProtoutil Runtime.canonical sampleInvocation
        sampleReordered := by
  have hd : Distinct sampleResult.rws := ⟨by decide, by decide⟩
  have hr : Reordered sampleResult sampleReordered :=
    ⟨(List.reverse_perm _).symm, (List.reverse_perm _).symm, rfl⟩
  obtain ⟨hx, hf⟩ := (endorsements_order_independent sampleASN1Marshal sampleProtoutil
    sampleInvocation hd).1 sampleReordered Runtime.canonical Runtime.canonical hr
  exact ⟨hd, hr, by decide, hx, hf⟩

end Agree

end FabricXSdk.Network.FabricX

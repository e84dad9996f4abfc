import FabricXSdk.Endorsement.Split
import FabricXSdk.Network.Endorsed

/-!
# Endorsing, packaging and parsing

A Fabric-X transaction that is endorsed, packaged and parsed again is the one that
was executed: the same id, arguments, event and payload, and the same reads and
writes up to order. The two directions are separate, first what a parsed envelope
contains, then that every step succeeds.
-/

namespace FabricXSdk.Network.FabricX

open Golang Blocks Endorsement

/-- What a transaction parsed from a block keeps of an invocation and its result. -/
structure CarriesOver (inv : Invocation) (res : ExecutionResult) (tx : Transaction) : Prop where
  id : tx.id = inv.txID
  inputArgs : tx.inputArgs = inv.args
  event : tx.event = res.event
  eventName : tx.eventName = res.eventName
  payload : tx.payload = res.payload
  nsRWS : ∃ rws, tx.nsRWS = [⟨inv.ns, rws⟩] ∧
    rws.reads.Perm (res.rws.reads.map FabricX.decodedRead) ∧
    rws.writes.Perm (res.rws.writes.map FabricX.decodedWrite)

section Parse

variable {c : Proto.Codecs} {asn1Marshal : FabricX.ASN1Marshal} {rt : Runtime} {inv : Invocation}
  {res : ExecutionResult}

theorem decodeMetadata_encodeMetadata (hc : c.Lawful) {m : FabricX.Metadata}
    {metadata : List Bytes} (h : FabricX.encodeMetadata c m = .ok metadata) :
    FabricX.decodeMetadata c metadata = m := by
  simp only [FabricX.encodeMetadata] at h
  split at h
  · cases h
  · rename_i b hb
    cases h
    simp only [FabricX.decodeMetadata, hc.metadata.unmarshal_marshal _ _ hb]

/-- The parser reads a `MESSAGE` envelope through its channel header and transaction. -/
theorem parseTx_of_opened {env : Proto.Envelope} {pl : Proto.Payload} {chdr : Proto.ChannelHeader}
    {tx : Proto.Tx} (hopen : openEnvelope c env = .ok (pl, chdr))
    (htype : chdr.type = Proto.headerTypeMessage) (htx : c.tx.unmarshal pl.data = .ok tx) :
    ∃ t, FabricX.parseTx c env = .ok (some t) ∧ t.id = chdr.txId ∧
      t.inputArgs = (FabricX.decodeMetadata c tx.metadata).inputArgs ∧
      t.event = (FabricX.decodeMetadata c tx.metadata).event ∧
      t.eventName = (FabricX.decodeMetadata c tx.metadata).eventName ∧
      t.payload = (FabricX.decodeMetadata c tx.metadata).payload ∧
      t.nsRWS = FabricX.decodeNamespaces tx.namespaces := by
  simp only [FabricX.parseTx, hopen, htype, ne_eq, not_true_eq_false, if_false, htx,
    Outcome.ofExcept, Outcome.ok_bind, Outcome.pure_eq]
  exact ⟨_, rfl, rfl, rfl, rfl, rfl, rfl, rfl⟩

/-- The parser gives back what one of the endorsers has endorsed. -/
theorem parseTx_createTx_mem (hc : c.Lawful) {type : Int} (hinv : inv.Proposes c type)
    (hd : Distinct res.rws) {endorser : Signer} {signer : Option Signer} {rand : Except Text Bytes}
    {r : Proto.ProposalResponse} {resps : List Proto.ProposalResponse} {env : Proto.Envelope}
    (hr : FabricX.endorse c asn1Marshal rt endorser inv res = .ok r) (hmem : r ∈ resps)
    (henv : createTx c inv.proposal signer rand resps = .ok env) :
    ∃ tx, FabricX.parseTx c env = .ok (some tx) ∧ CarriesOver inv res tx := by
  obtain ⟨prpBytes, digest, identity, sig, hprep, _, _, rfl⟩ := FabricX.endorse_eq_ok.mp hr
  obtain ⟨_, metadata, _, hmetadata, hmarshal, _, _⟩ := FabricX.prepare_eq_ok.mp hprep
  obtain ⟨prop, hdr, phdr, hprop, hhdr, hphdr, _, htxID, _⟩ := hinv
  rw [hprop] at henv
  obtain ⟨a1, tx, entries, pl, chdr, hdr', phdr', hall, htx, _, hopen, hdata, hhdr', hphdr',
    htype, htxId, _⟩ := createTx_opens hc henv
  obtain rfl : hdr' = hdr := Except.ok.inj (hhdr'.symm.trans hhdr)
  obtain rfl : phdr' = phdr := Except.ok.inj (hphdr'.symm.trans hphdr)
  -- the packaged transaction is the endorsed one, and so the one `buildTx` made
  have ha1 : prpBytes = a1 := (hall _ hmem).2
  subst ha1
  obtain rfl : tx = FabricX.buildTx rt res.rws inv.ns inv.nsVersion metadata :=
    Except.ok.inj (htx.symm.trans (hc.tx.unmarshal_marshal _ _ hmarshal))
  obtain ⟨t, hparse, hid, hargs, hevent, hname, hpayload, hns⟩ :=
    parseTx_of_opened hopen htype hdata
  have hmd : FabricX.decodeMetadata c metadata =
      ⟨res.event, res.eventName, res.payload, inv.args⟩ :=
    decodeMetadata_encodeMetadata hc hmetadata
  change t.inputArgs = (FabricX.decodeMetadata c metadata).inputArgs at hargs
  change t.event = (FabricX.decodeMetadata c metadata).event at hevent
  change t.eventName = (FabricX.decodeMetadata c metadata).eventName at hname
  change t.payload = (FabricX.decodeMetadata c metadata).payload at hpayload
  rw [hmd] at hargs hevent hname hpayload
  obtain ⟨rws, hdecode, hreads, hwrites⟩ :=
    FabricX.decodeNamespaces_buildTx hd rt inv.ns inv.nsVersion metadata
  refine ⟨t, hparse, ?_⟩
  exact
    { id := by rw [hid, htxId, htxID]
      inputArgs := hargs
      event := hevent
      eventName := hname
      payload := hpayload
      nsRWS := ⟨rws, hns.trans hdecode, hreads, hwrites⟩ }

/-- The parser gives back what was endorsed and packaged. -/
theorem parseTx_createTx (hc : c.Lawful) (hinv : inv.Proposes c Proto.headerTypeMessage)
    (hd : Distinct res.rws) {endorser : Signer} {signer : Option Signer} {rand : Except Text Bytes}
    {r : Proto.ProposalResponse} {env : Proto.Envelope}
    (hr : FabricX.endorse c asn1Marshal rt endorser inv res = .ok r)
    (henv : createTx c inv.proposal signer rand [r] = .ok env) :
    ∃ tx, FabricX.parseTx c env = .ok (some tx) ∧ CarriesOver inv res tx :=
  parseTx_createTx_mem hc hinv hd hr List.mem_cons_self henv

end Parse

section Succeed

variable {c : Proto.Codecs} {asn1Marshal : FabricX.ASN1Marshal} {rt : Runtime} {inv : Invocation}
  {res : ExecutionResult}

/-- A signer that never fails. -/
def Working (signer : Signer) : Prop :=
  (∃ identity, signer.serialize = .ok identity) ∧ ∀ message, ∃ sig, signer.sign message = .ok sig

/-- Namespaces with valid strings have a digest. -/
def Digests (asn1Marshal : FabricX.ASN1Marshal) : Prop :=
  ∀ ns txID metadata, utf8Valid ns.nsId = true → utf8Valid txID = true →
    ∃ digest, asn1Marshal ns txID metadata = .ok digest

theorem endorse_succeeds (hc : c.Lawful) (hvalid : res.validate = .ok ())
    (hns : utf8Valid inv.ns = true) (hname : utf8Valid res.eventName = true)
    (htxID : utf8Valid inv.txID = true) (hasn1 : Digests asn1Marshal) {endorser : Signer}
    (hendorser : Working endorser) :
    ∃ r, FabricX.endorse c asn1Marshal rt endorser inv res = .ok r := by
  obtain ⟨⟨identity, hid⟩, hsign⟩ := hendorser
  obtain ⟨b, hb⟩ := hc.metadata.marshal_ok ⟨inv.args, res.event, res.eventName, res.payload⟩ hname
  have hmetadata : FabricX.encodeMetadata c ⟨res.event, res.eventName, res.payload, inv.args⟩ =
      .ok [b] := by
    simp only [FabricX.encodeMetadata, hb]
  have hencodable : (FabricX.buildTx rt res.rws inv.ns inv.nsVersion [b]).Encodable := by
    simp [Proto.Tx.Encodable, FabricX.buildTx, hns]
  obtain ⟨prpBytes, hprp⟩ := hc.tx.marshal_ok _ hencodable
  obtain ⟨digest, hdigest⟩ := hasn1
    { nsId := inv.ns
      nsVersion := inv.nsVersion
      readsOnly := rt.sortBy Proto.Read.key (FabricX.remainingReads rt (FabricX.split res.rws))
      readWrites := rt.sortBy Proto.ReadWrite.key (FabricX.split res.rws).readWrites
      blindWrites := rt.sortBy Proto.Write.key (FabricX.split res.rws).blindWrites }
    inv.txID [b] hns htxID
  obtain ⟨sig, hsig⟩ := hsign digest
  have hprep : FabricX.prepare c asn1Marshal rt inv res = .ok (prpBytes, digest) :=
    FabricX.prepare_eq_ok.mpr ⟨hvalid, [b], _, hmetadata, hprp, rfl, hdigest⟩
  exact ⟨_, FabricX.endorse_eq_ok.mpr ⟨prpBytes, digest, identity, sig, hprep, hid, hsig, rfl⟩⟩

/-- What a packager finds in the response to a successful result. -/
theorem endorse_response (hc : c.Lawful) (hlow : 200 ≤ res.status) (hhigh : res.status < 400)
    {endorser : Signer} {r : Proto.ProposalResponse}
    (hr : FabricX.endorse c asn1Marshal rt endorser inv res = .ok r) :
    ∃ identity sig tx, endorser.serialize = .ok identity ∧ Successful r ∧
      r.endorsement = some ⟨identity, sig⟩ ∧ c.tx.unmarshal r.payload = .ok tx := by
  obtain ⟨prpBytes, digest, identity, sig, hprep, hid, _, rfl⟩ := FabricX.endorse_eq_ok.mp hr
  obtain ⟨_, metadata, _, _, hmarshal, _, _⟩ := FabricX.prepare_eq_ok.mp hprep
  exact ⟨identity, sig, _, hid, ⟨_, rfl, hlow, hhigh⟩, rfl, hc.tx.unmarshal_marshal _ _ hmarshal⟩

theorem signatureHeader_succeeds (hc : c.Lawful) {signer : Option Signer}
    {rand : Except Text Bytes} (hsigner : ∀ s, signer = some s → Working s)
    (hrand : ∃ nonce, rand = .ok nonce) : ∃ b, signatureHeader c signer rand = .ok b := by
  have hshdr : ∃ shdr, creatorHeader signer rand = .ok shdr := by
    cases signer with
    | none => exact ⟨_, rfl⟩
    | some s =>
        obtain ⟨⟨creator, hcreator⟩, _⟩ := hsigner s rfl
        obtain ⟨nonce, rfl⟩ := hrand
        exact ⟨⟨creator, nonce⟩, by simp [creatorHeader, hcreator, Outcome.ofExcept]⟩
  obtain ⟨shdr, hshdr⟩ := hshdr
  obtain ⟨b, hb⟩ := hc.signatureHeader.marshal_ok shdr trivial
  exact ⟨b, by simp [signatureHeader, hshdr, hb, Outcome.ofExcept]⟩

/-- One endorsement whose identity decodes can be put into its transaction. -/
theorem endorseTx_succeeds (hc : c.Lawful) {a1 : Bytes} {tx : Proto.Tx} {e : Proto.Endorsement}
    {identity : Proto.Identity} (htx : c.tx.unmarshal a1 = .ok tx)
    (hid : c.identity.unmarshal e.endorser = .ok identity) :
    ∃ txBytes, endorseTx c a1 [e] = .ok txBytes := by
  have hidentity := hc.identity.unmarshal_encodable _ _ hid
  have hencodable := hc.tx.unmarshal_encodable _ _ htx
  have hentries : withIdentities c [e] = .ok [⟨e.signature, some identity⟩] := by
    simp [withIdentities, hid, Outcome.ofExcept]
  have hencodable' : Proto.Tx.Encodable { tx with
      endorsements := tx.namespaces.map fun _ => ⟨[⟨e.signature, some identity⟩]⟩ } := by
    refine ⟨hencodable.1, fun x hx => ?_⟩
    obtain ⟨_, _, rfl⟩ := List.mem_map.mp hx
    simpa [Proto.Endorsements.Encodable] using hidentity
  obtain ⟨txBytes, hbytes⟩ := hc.tx.marshal_ok _ hencodable'
  exact ⟨txBytes, by simp only [endorseTx, htx, hentries, Outcome.ok_bind, hbytes]⟩

/-- One successful response with a decodable endorser is packaged. -/
theorem createTx_succeeds (hc : c.Lawful) (hinv : inv.Proposes c Proto.headerTypeMessage)
    {signer : Option Signer} {rand : Except Text Bytes} {r : Proto.ProposalResponse}
    {e : Proto.Endorsement} {tx : Proto.Tx} {identity : Proto.Identity}
    (hsigner : ∀ s, signer = some s → Working s) (hrand : ∃ nonce, rand = .ok nonce)
    (hok : Successful r) (he : r.endorsement = some e) (htx : c.tx.unmarshal r.payload = .ok tx)
    (hid : c.identity.unmarshal e.endorser = .ok identity) :
    ∃ env, createTx c inv.proposal signer rand [r] = .ok env := by
  obtain ⟨prop, hdr, phdr, hprop, hhdr, hphdr, htype, _, _⟩ := hinv
  obtain ⟨response, hresponse, hlow, hhigh⟩ := hok
  obtain ⟨txBytes, htxBytes⟩ := endorseTx_succeeds hc htx hid
  obtain ⟨shdrBytes, hshdr⟩ := signatureHeader_succeeds hc hsigner hrand
  have hcheck : checkResponses none [r] = .ok r.payload := by
    have hstatus : ¬ (response.status < 200 ∨ 400 ≤ response.status) := by omega
    simp [checkResponses, hresponse, Outcome.deref, hstatus]
  have hunique : uniqueEndorsements [] [r] = [e] := by
    simp [uniqueEndorsements, he]
  have hchdr : channelHeader c prop = .ok hdr.channelHeader := by
    simp [channelHeader, hhdr, hphdr, htype, Outcome.ofExcept]
  obtain ⟨paylBytes, hpayl⟩ :=
    hc.payload.marshal_ok ⟨some ⟨hdr.channelHeader, shdrBytes⟩, txBytes⟩ trivial
  cases signer with
  | none =>
      exact ⟨⟨paylBytes, []⟩, by simp [createTx, Outcome.failIf, hcheck, hunique, htxBytes, hshdr,
        hprop, Outcome.deref, hchdr, hpayl, Outcome.ofExcept]⟩
  | some s =>
      obtain ⟨sig, hsig⟩ := (hsigner s rfl).2 paylBytes
      exact ⟨⟨paylBytes, sig⟩, by simp [createTx, Outcome.failIf, hcheck, hunique, htxBytes, hshdr,
        hprop, Outcome.deref, hchdr, hpayl, hsig, Outcome.ofExcept]⟩

end Succeed

/-- Endorsing, packaging and parsing gives back what was executed, and no step fails
for a successful result with valid names, unless a signer or the digest does. -/
theorem endorse_package_parse {c : Proto.Codecs} (hc : c.Lawful)
    {computeTxID : Bytes → Bytes → GoString} {client : Option Signer} {nonce : Except Text Bytes}
    {now : Proto.Timestamp} {channel ns chaincodeVersion : GoString} {nsVersion : ℕ}
    {args : List Bytes} {inv : Invocation}
    (hinv : FabricX.newInvocation c computeTxID client nonce now channel ns chaincodeVersion
      nsVersion args = .ok inv)
    {res : ExecutionResult} (hvalid : res.validate = .ok ()) (hlow : 200 ≤ res.status)
    (hhigh : res.status < 400) (hns : utf8Valid inv.ns = true)
    (hname : utf8Valid res.eventName = true) (hd : Distinct res.rws)
    (asn1Marshal : FabricX.ASN1Marshal) (rt : Runtime) (endorser : Signer)
    (signer : Option Signer) (rand : Except Text Bytes) :
    (∀ r env, FabricX.endorse c asn1Marshal rt endorser inv res = .ok r →
      createTx c inv.proposal signer rand [r] = .ok env →
      ∃ tx, FabricX.parseTx c env = .ok (some tx) ∧ CarriesOver inv res tx) ∧
    (Digests asn1Marshal → Working endorser → (∀ s, signer = some s → Working s) →
      (∃ nonce, rand = .ok nonce) →
      (∀ identity, endorser.serialize = .ok identity →
        ∃ i, c.identity.unmarshal identity = .ok i) →
      ∃ r env tx, FabricX.endorse c asn1Marshal rt endorser inv res = .ok r ∧
        createTx c inv.proposal signer rand [r] = .ok env ∧
        FabricX.parseTx c env = .ok (some tx) ∧ CarriesOver inv res tx) := by
  have hprop := FabricX.newInvocation_proposes hc hinv
  have hback : ∀ r env, FabricX.endorse c asn1Marshal rt endorser inv res = .ok r →
      createTx c inv.proposal signer rand [r] = .ok env →
      ∃ tx, FabricX.parseTx c env = .ok (some tx) ∧ CarriesOver inv res tx :=
    fun r env hr henv => parseTx_createTx hc hprop hd hr henv
  refine ⟨hback, fun hasn1 hendorser hsigner hrand hdecodes => ?_⟩
  -- the id is valid since the header that carries it was marshalled
  have htxID : utf8Valid inv.txID = true := by
    obtain ⟨_, _, chdr, _, _, hchdr, _, htxID, _⟩ := hprop
    rw [← htxID]
    exact (hc.channelHeader.unmarshal_encodable _ _ hchdr).2.2.2.2
  obtain ⟨r, hr⟩ := @endorse_succeeds c asn1Marshal rt inv res hc hvalid hns hname htxID hasn1
    endorser hendorser
  obtain ⟨identity, sig, _, hid, hok, he, htx⟩ := endorse_response hc hlow hhigh hr
  obtain ⟨i, hi⟩ := hdecodes identity hid
  obtain ⟨env, henv⟩ := createTx_succeeds hc hprop hsigner hrand hok he htx hi
  obtain ⟨tx, hparse, hcarries⟩ := hback r env hr henv
  exact ⟨r, env, tx, hr, henv, hparse, hcarries⟩

/-- A Fabric-X invocation of the sample client. -/
def sampleMessage : Invocation :=
  (FabricX.newInvocation Proto.Codecs.protobuf sampleProtoutil.computeTxID (some (sampleSigner 1))
    (.ok sampleNonce) ⟨1, 0⟩ [99] [110] [49] 7 [[97]]).getD
    ⟨[], [], [], [], [], [], 0, [], none, []⟩

theorem working_sampleSigner (certificate : Byte) : Working (sampleSigner certificate) :=
  ⟨⟨_, rfl⟩, fun _ => ⟨_, rfl⟩⟩

/-- The sample result makes the round trip in a signed envelope. -/
theorem endorse_package_parse_sample :
    ∃ r env tx,
      FabricX.endorse Proto.Codecs.protobuf sampleASN1Marshal Runtime.canonical (sampleSigner 2)
        sampleMessage sampleResult = .ok r ∧
      createTx Proto.Codecs.protobuf sampleMessage.proposal (some (sampleSigner 1))
        (.ok sampleNonce) [r] = .ok env ∧
      FabricX.parseTx Proto.Codecs.protobuf env = .ok (some tx) ∧
      CarriesOver sampleMessage sampleResult tx := by
  have hinv : FabricX.newInvocation Proto.Codecs.protobuf sampleProtoutil.computeTxID
      (some (sampleSigner 1)) (.ok sampleNonce) ⟨1, 0⟩ [99] [110] [49] 7 [[97]] =
        .ok sampleMessage := by
    decide +kernel
  have hdecodes : ∀ identity, (sampleSigner 2).serialize = .ok identity →
      ∃ i, Proto.Codecs.protobuf.identity.unmarshal identity = .ok i := by
    intro identity h
    cases h
    exact ⟨⟨[111, 114, 103, 49], [2], []⟩, by decide +kernel⟩
  exact (endorse_package_parse Proto.Codecs.protobuf_lawful hinv (by decide) (by decide)
    (by decide) (by decide +kernel) (by decide) ⟨by decide, by decide⟩ sampleASN1Marshal
    Runtime.canonical (sampleSigner 2) (some (sampleSigner 1)) (.ok sampleNonce)).2
    (fun _ _ _ _ _ => ⟨_, rfl⟩) (working_sampleSigner 2)
    (fun s h => Option.some.inj h ▸ working_sampleSigner 1) ⟨_, rfl⟩ hdecodes

end FabricXSdk.Network.FabricX

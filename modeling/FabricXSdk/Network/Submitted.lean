import FabricXSdk.FabricTest.Filter
import FabricXSdk.Network.EndorsementClient
import FabricXSdk.State.Fresh

/-!
# What an envelope with an endorsed result carries

The result of a simulation is endorsed and packaged on either network. The ledger reads a
transaction with the reads and the writes of the simulation out of the envelope.

## Implementation notes

`Submits` lists how an envelope comes about: from the proposal to the response of one of the
endorsers and the packager. For Fabric-X the proposal may be of either kind. On Fabric-X a
delete is packaged as a write of nothing.
-/

namespace FabricXSdk.Network

open Golang Blocks State Endorsement

section Envelopes

/-- The version numbers that the network compares. -/
def monotonicVersions (net : FabricTest.Network) : Bool :=
  match net.type with
  | .fabric _ _ => false
  | .fabricX _ _ => true

/-- A write as it comes out of an envelope. -/
def wireWrite (net : FabricTest.Network) (w : KVWrite) : KVWrite :=
  match net.type with
  | .fabric _ _ => w
  | .fabricX _ _ => FabricX.decodedWrite w

/-- On classic Fabric the parser drops the entry of the namespace with the empty name, with
all its reads and writes. -/
def Named (net : FabricTest.Network) (ns : GoString) : Prop :=
  match net.type with
  | .fabric _ _ => ns ≠ []
  | .fabricX _ _ => True

/-- An envelope with the endorsed result of a simulation in a namespace. -/
inductive Submits (net : FabricTest.Network) (ns : GoString) (rws : ReadWriteSet) :
    GoString → Proto.Envelope → Prop
  | fabricX {codes names pu inv res asn1Marshal rt endorser r resps signer rand env}
      (htype : net.type = .fabricX codes names) (hpu : Fabric.Protoutil.Lawful pu net.codecs)
      (hinv : FabricX.Made net.codecs pu inv) (hns : inv.ns = ns) (hres : res.rws = rws)
      (hr : FabricX.endorse net.codecs asn1Marshal rt endorser inv res = .ok r) (hmem : r ∈ resps)
      (henv : FabricX.createTx net.codecs inv.proposal signer rand resps = .ok env) :
      Submits net ns rws inv.txID env
  | fabric {codes names pu now create inv res rt endorser r resps signer env}
      (htype : net.type = .fabric codes names) (hpu : pu.Responds net.codecs)
      (hcreate : Fabric.CreateSignedTx.WrapsAll create net.codecs)
      (hinv : Fabric.Proposed net.codecs now inv) (hns : inv.ns = ns) (hres : res.rws = rws)
      (hr : Fabric.endorse net.codecs pu rt endorser inv res = .ok r) (hmem : r ∈ resps)
      (henv : Fabric.packageTx create signer inv.proposal resps = .ok env) :
      Submits net ns rws inv.txID env

/-- The ledger reads this transaction out of the envelope. -/
structure Carries (net : FabricTest.Network) (ns : GoString) (rws : ReadWriteSet)
    (txID : GoString) (env : Proto.Envelope) (tx : Transaction) : Prop where
  accepted : accepted net.codecs net.parser (net.envelopeBytes env) = some tx
  id : tx.id = txID
  nsRWS : ∃ rws', tx.nsRWS = [⟨ns, rws'⟩] ∧ rws'.reads.Perm rws.reads ∧
    rws'.writes.Perm (rws.writes.map (wireWrite net))

variable {net : FabricTest.Network} {ns txID : GoString} {rws : ReadWriteSet}
  {env : Proto.Envelope}

theorem accepted_of_parseTx (hc : net.codecs.LawfulConfig) {tx : Transaction}
    (h : net.parser.parseTx env = .ok (some tx)) :
    accepted net.codecs net.parser (net.envelopeBytes env) = some tx := by
  obtain ⟨bytes, hbytes⟩ := hc.envelope.marshal_ok env trivial
  simp only [FabricTest.Network.envelopeBytes, hbytes, accepted,
    hc.envelope.unmarshal_marshal _ _ hbytes, h]

/-- What was submitted for a simulation comes out of its envelope again. -/
theorem Submits.carries (h : Submits net ns rws txID env) (hnamed : Named net ns)
    (hc : net.codecs.LawfulConfig) (hf : net.codecs.LawfulFabric) (hd : Distinct rws)
    (hreads : monotonicVersions net = true → ∀ r ∈ rws.reads, FabricX.decodedRead r = r) :
    ∃ tx, Carries net ns rws txID env tx := by
  cases h with
  | fabricX htype hpu hinv hns hres hr hmem henv =>
      subst hres hns
      obtain ⟨type, hproposes⟩ := hinv.proposes hc.toLawful hpu
      obtain ⟨tx, hparse, hcarries⟩ :=
        FabricX.parseTx_createTx_mem hc.toLawful hproposes hd hr hmem henv
      obtain ⟨rws', hns, hread, hwrite⟩ := hcarries.nsRWS
      have hparser : net.parser.parseTx env = .ok (some tx) := by
        rw [FabricTest.Network.parser, htype]
        exact hparse
      have hmode : monotonicVersions net = true := by rw [monotonicVersions, htype]
      have hwire : wireWrite net = FabricX.decodedWrite := by
        funext w
        rw [wireWrite, htype]
      rw [List.map_congr_left (hreads hmode), List.map_id'] at hread
      exact ⟨tx, accepted_of_parseTx hc hparser, hcarries.id, rws', hns, hread, hwire ▸ hwrite⟩
  | fabric htype hpu hcreate hinv hns hres hr hmem henv =>
      subst hres hns
      rw [Named, htype] at hnamed
      obtain ⟨tx, hparse, hcarries⟩ := Fabric.parseTx_of_encloses hf hpu hinv hnamed hd hr
        (hcreate.encloses henv hmem)
      obtain ⟨rws', hns, horder⟩ := hcarries.nsRWS
      have hparser : net.parser.parseTx env = .ok (some tx) := by
        rw [FabricTest.Network.parser, htype]
        exact hparse
      have hwire : wireWrite net = id := by
        funext w
        rw [wireWrite, htype]
        rfl
      refine ⟨tx, accepted_of_parseTx hc hparser, hcarries.id, rws', hns, horder.reads, ?_⟩
      rw [hwire, List.map_id]
      exact horder.writes

theorem accepted_eq_some {c : Proto.Codecs} {p : TxParser} {bytes : Bytes} {tx : Transaction} :
    accepted c p bytes = some tx ↔
      ∃ env, c.envelope.unmarshal bytes = .ok env ∧ p.parseTx env = .ok (some tx) := by
  rw [accepted]
  cases c.envelope.unmarshal bytes with
  | error err => simp
  | ok env =>
      simp only [Except.ok.injEq, exists_eq_left']
      cases p.parseTx env <;> simp

/-- The parser finds the transaction in the envelope itself. -/
theorem Carries.parseTx {tx : Transaction} (h : Carries net ns rws txID env tx)
    (hc : net.codecs.LawfulConfig) : net.parser.parseTx env = .ok (some tx) := by
  obtain ⟨bytes, hbytes⟩ := hc.envelope.marshal_ok env trivial
  obtain ⟨env', henv', hparse⟩ := accepted_eq_some.mp h.accepted
  rw [FabricTest.Network.envelopeBytes, hbytes, hc.envelope.unmarshal_marshal _ _ hbytes] at henv'
  cases henv'
  exact hparse

/-- An envelope with a transaction does not stop the parser. -/
theorem not_bad_of_accepted {bytes : Bytes} {tx : Transaction}
    (h : accepted net.codecs net.parser bytes = some tx) :
    ¬ BadConfig net.codecs bytes ∧ ¬ Panics net.codecs net.parser bytes := by
  obtain ⟨env, henv, hparse⟩ := accepted_eq_some.mp h
  obtain ⟨pl, chdr, hopen, htype⟩ := (FabricTest.parser_inStep net).opens env tx hparse
  constructor
  · rintro ⟨data, ⟨env', pl', chdr', henv', hopen', htype', _⟩, _⟩
    rw [henv, Except.ok.injEq] at henv'
    subst henv'
    rw [hopen] at hopen'
    cases hopen'
    exact htype htype'
  · rintro ⟨env', hreach, hpanic⟩
    obtain ⟨henv', _⟩ := hreach
    rw [henv, Except.ok.injEq] at henv'
    subst henv'
    rw [hparse] at hpanic
    cases hpanic

theorem wireWrite_key (net : FabricTest.Network) (w : KVWrite) : (wireWrite net w).key = w.key := by
  rw [wireWrite]
  split <;> rfl

theorem wireWrite_value (net : FabricTest.Network) (w : KVWrite) :
    (if (wireWrite net w).isDelete then [] else (wireWrite net w).value) =
      if w.isDelete then [] else w.value := by
  rw [wireWrite]
  split
  · rfl
  · cases hdelete : w.isDelete <;> simp [FabricX.decodedWrite, FabricX.writtenValue, hdelete]

variable {calls : List Call} {st : SimulationStore} {rt : Runtime} {tx : Transaction}

/-- The result of a program comes out as it is. -/
theorem Submits.carries_result (h : Submits net ns (result rt st) txID env)
    (hnamed : Named net ns) (hc : net.codecs.LawfulConfig) (hf : net.codecs.LawfulFabric)
    {snap : Snapshot}
    {answer : GoString → Option WriteRecord}
    (hs : Tracks snap ns (monotonicVersions net) answer calls st) :
    ∃ tx, Carries net ns (result rt st) txID env tx := by
  refine h.carries hnamed hc hf ⟨hs.nodup_reads rt, hs.nodup_writes rt⟩ fun hmode r hr => ?_
  rw [hmode] at hs
  exact decodedRead_of_tracks hs hr

/-- The transaction writes what the program has written last. -/
theorem Carries.writeTo_eq {snap : Snapshot} {mode : Bool}
    {answer : GoString → Option WriteRecord} (hs : Tracks snap ns mode answer calls st)
    (h : Carries net ns (result rt st) txID env tx) (key : GoString) :
    writeTo tx ns key = (lastWrite calls key).map (wireWrite net) := by
  obtain ⟨rws, hns, _, hwrites⟩ := h.nsRWS
  have hmem : ∀ kv, kv ∈ rws.writes ↔
      ∃ w, lastWrite calls w.key = some w ∧ wireWrite net w = kv := by
    intro kv
    rw [hwrites.mem_iff, List.mem_map]
    simp only [hs.mem_writes]
  have hself : ⟨ns, rws⟩ ∈ tx.nsRWS := by
    rw [hns]
    exact List.mem_singleton_self _
  cases hlast : lastWrite calls key with
  | some w =>
      obtain rfl := key_of_lastWrite hlast
      have hsome := writeTo_isSome hself ((hmem (wireWrite net w)).mpr ⟨w, hlast, rfl⟩)
      rw [wireWrite_key] at hsome
      obtain ⟨kv, hkv⟩ := Option.isSome_iff_exists.mp hsome
      obtain ⟨entry, hentry, _, hin, hkey⟩ := writeTo_eq_some hkv
      rw [hns, List.mem_singleton] at hentry
      subst hentry
      obtain ⟨w', hlast', rfl⟩ := (hmem kv).mp hin
      rw [wireWrite_key] at hkey
      rw [hkey, hlast, Option.some.injEq] at hlast'
      rw [hkv, hlast', Option.map_some]
  | none =>
      rw [Option.map_none, Option.eq_none_iff_forall_ne_some]
      intro kv hkv
      obtain ⟨entry, hentry, _, hin, hkey⟩ := writeTo_eq_some hkv
      rw [hns, List.mem_singleton] at hentry
      subst hentry
      obtain ⟨w', hlast', rfl⟩ := (hmem kv).mp hin
      rw [wireWrite_key] at hkey
      rw [hkey, hlast] at hlast'
      cases hlast'

/-- No key is written twice. -/
theorem Carries.not_ambiguous (hd : Distinct rws)
    (h : Carries net ns rws txID env tx) {tx' : Transaction} (hnsRWS : tx'.nsRWS = tx.nsRWS) :
    ¬ Ambiguous tx' := by
  obtain ⟨rws', hns, _, hwrites⟩ := h.nsRWS
  have hnodup : (rws'.writes.map KVWrite.key).Nodup := by
    rw [(hwrites.map KVWrite.key).nodup_iff, List.map_map]
    have hkeys : KVWrite.key ∘ wireWrite net = KVWrite.key := funext (wireWrite_key net)
    rw [hkeys]
    exact hd.writes
  rintro ⟨n, hn, w, hw, n', hn', w', hw', _, hkey, hdiffer⟩
  rw [hnsRWS, hns, List.mem_singleton] at hn hn'
  subst hn hn'
  obtain rfl := List.inj_on_of_nodup_map hnodup hw hw' hkey
  exact hdiffer ⟨rfl, rfl⟩

end Envelopes

section Values

theorem filter_live {found : Option WriteRecord}
    (hlive : ∀ w, found = some w → w.isDelete = false) :
    found.filter (fun rec => !rec.isDelete) = found := by
  cases found with
  | none => rfl
  | some w => rw [Option.filter_some, hlive w rfl, Bool.not_false, if_pos rfl]

/-- The value of a key behind a committed transaction. -/
theorem liveValue_recordBefore_singleton (applied : List Block) (b : Block) {tx : Transaction}
    (hcommitted : tx.status = .committed) (ns key : GoString) :
    liveValue (recordBefore applied b [tx] ns key) =
      match writeTo tx ns key with
      | some w => if w.isDelete then [] else w.value
      | none => liveValue (history applied ns key).getLast? := by
  rw [recordBefore, history_append, writesTo_singleton, blockWrites, List.filterMap_cons,
    committedWrite, if_pos (tx.valid_iff.mpr hcommitted)]
  cases writeTo tx ns key with
  | none => simp
  | some w => cases hdelete : w.isDelete <;> simp [liveValue, Write.record, Option.filter, hdelete]

end Values

section Sample

open FabricTest (sampleFabricX)

/-- Any result can be submitted on the sample network. -/
theorem exists_submits (rws : ReadWriteSet) :
    ∃ env, Submits sampleFabricX [110] rws FabricX.sampleMessage.txID env := by
  have hc := Proto.Codecs.protobuf_lawful
  have hinv : FabricX.newInvocation Proto.Codecs.protobuf FabricX.sampleProtoutil.computeTxID
      (some (FabricX.sampleSigner 1)) (.ok FabricX.sampleNonce) ⟨1, 0⟩ [99] [110] [49] 7 [[97]] =
        .ok FabricX.sampleMessage := by
    decide +kernel
  obtain ⟨r, hr⟩ := @FabricX.endorse_succeeds _ FabricX.sampleASN1Marshal Runtime.canonical
    FabricX.sampleMessage { FabricX.sampleResult with rws := rws } hc rfl (by decide +kernel)
    rfl (by decide +kernel) (fun _ _ _ _ _ => ⟨_, rfl⟩) (FabricX.sampleSigner 2)
    (FabricX.working_sampleSigner 2)
  obtain ⟨identity, sig, _, hid, hok, he, htx⟩ :=
    FabricX.endorse_response hc (show (200 : Int) ≤ 200 from le_rfl)
      (show (200 : Int) < 400 by decide) hr
  cases hid
  have hi : Proto.Codecs.protobuf.identity.unmarshal (FabricX.sampleIdentity 2) =
      .ok ⟨[111, 114, 103, 49], [2], []⟩ := by
    decide +kernel
  obtain ⟨env, henv⟩ := FabricX.createTx_succeeds hc (FabricX.newInvocation_proposes hc hinv)
    (fun s h => Option.some.inj h ▸ FabricX.working_sampleSigner 1) ⟨FabricX.sampleNonce, rfl⟩ hok
    he htx hi
  exact ⟨env, .fabricX rfl FabricX.sampleProtoutil_lawful (.fabricX hinv) rfl rfl hr
    (List.mem_singleton_self r) henv⟩

end Sample

end FabricXSdk.Network

import FabricXSdk.Endorsement.Results
import FabricXSdk.Endorsement.Split
import FabricXSdk.State.Modes
import FabricXSdk.State.Sequential
import FabricXSdk.State.Snapshots

/-!
# A fresh simulation validates

A program simulated on a snapshot of the current state and validated against that
state passes: the query bounded by the height and the query without a bound give the
same record for every key, and the version of a read survives the wire format of
either ledger.
-/

namespace FabricXSdk.State

open Golang Blocks Atomic Endorsement

section Reads

variable {channel : GoString} {db : Database} {log : List (GoString × Block)} {n : ℕ}
  {fault : Option Text}

/-- A snapshot of the current state answers as the store does. -/
theorem Reached.snapshot_eq_get (run : Reached db log) (h : snapshot channel fault db = .ok n)
    (ns key : GoString) :
    versionedSnapshot channel db n none ns key = get channel none db ns key := by
  obtain ⟨hsmall, hall, _⟩ := run.height h
  rw [versionedSnapshot_eq none hsmall, rowsUpTo_eq_rowsOf run hall]
  rfl

/-- A read of a program over such a snapshot passes validation against the store. -/
theorem Reached.checkRead_fresh (run : Reached db log) (h : snapshot channel fault db = .ok n)
    {ns : GoString} {mode : Bool} {calls : List Call} {s : SimulationStore}
    (hs : Tracks (versionedSnapshot channel db n) ns mode (snapshotRecord channel db n ns) calls s)
    {rt : Runtime} {r : KVRead} (hr : r ∈ (result rt s).reads) (codes : List (Status × Int)) :
    checkRead (validatorAt channel db codes mode) ns r = none := by
  obtain ⟨⟨_, fault', _, _, _, found, hfound, hlive⟩, hversion⟩ := (hs.mem_reads rt r).mp hr
  have hget := versionedSnapshot_ok hfound
  have hrecord : snapshotRecord channel db n ns r.key = found := by
    rw [snapshotRecord, hget]
  rw [checkRead_eq_none]
  refine ⟨found, ?_, ?_⟩
  · exact (run.snapshot_eq_get h ns r.key).symm.trans hget
  · rw [hrecord] at hversion
    cases found with
    | none => simp [ReadMatches, hversion]
    | some w =>
        cases mode with
        | true => simp [ReadMatches, hversion, hlive w rfl, readVersion, validatorAt, Option.filter]
        | false =>
            simp [ReadMatches, hversion, hlive w rfl, readVersion, validatorAt, Option.filter]

end Reads

section Commit

/-- A validator marks the only transaction of a block as committed. -/
def Commits (l : MVCCValidator) (tx : Transaction) : Prop :=
  ∀ b : Block, b.transactions = [tx] →
    statuses (validate l b).1.transactions = [.committed] ∧ (validate l b).2.2 = none

theorem commits_of_reads {l : MVCCValidator} (hdb : l.db.Answers)
    (hfits : 0 ≤ l.codeFor .committed ∧ l.codeFor .committed ≤ 255) {tx : Transaction}
    (h : ∀ n ∈ tx.nsRWS, ∀ r ∈ n.rws.reads, checkRead l n.ns r = none) : Commits l tx := by
  intro b hb
  have hstatus : (checkTx l [] tx.nsRWS).status = .committed :=
    checkTx_committed.mpr fun n hn r hr => ⟨by simp, h n hn r hr⟩
  obtain ⟨m, _, hm, herr, htxs⟩ := validateFrom_cons_of_fits hdb [] hstatus hfits
  rw [validate, hb]
  exact ⟨by rw [htxs, statuses_cons, hm]; rfl, herr⟩

variable {channel : GoString} {db : Database} {log : List (GoString × Block)} {n : ℕ}
  {fault : Option Text} {ns : GoString} {mode : Bool} {calls : List Call} {s : SimulationStore}
  {rt : Runtime} {codes : List (Status × Int)}

/-- A version of monotonic mode is its first number, so nothing is lost on Fabric-X. -/
theorem decodedRead_of_tracks {snap : Snapshot} {answer : GoString → Option WriteRecord}
    (hs : Tracks snap ns true answer calls s) {r : KVRead} (hr : r ∈ (result rt s).reads) :
    FabricX.decodedRead r = r := by
  obtain ⟨_, hversion⟩ := (hs.mem_reads rt r).mp hr
  cases r with
  | mk key version =>
      have hkey : version = (answer key).map (readVersion true) := hversion
      rw [hkey]
      cases answer key with
      | none => rfl
      | some w => rfl

/-- A transaction with no reads but those of such a program commits. -/
theorem Reached.commits_fresh (run : Reached db log) (hsnap : snapshot channel fault db = .ok n)
    (hs : Tracks (versionedSnapshot channel db n) ns mode (snapshotRecord channel db n ns) calls s)
    (hfits : 0 ≤ (validatorAt channel db codes mode).codeFor .committed ∧
      (validatorAt channel db codes mode).codeFor .committed ≤ 255) {tx : Transaction}
    (htx : ∀ e ∈ tx.nsRWS, e.ns = ns ∧ ∀ r ∈ e.rws.reads, r ∈ (result rt s).reads) :
    Commits (validatorAt channel db codes mode) tx := by
  apply commits_of_reads (validatorAt_answers channel db codes mode) hfits
  intro e he r hr
  obtain ⟨hns, hsub⟩ := htx e he
  rw [hns]
  exact run.checkRead_fresh hsnap hs (hsub r hr) codes

/-- What Fabric-X encodes and decodes of a result has the reads of the result. -/
theorem decodeNamespaces_reads {snap : Snapshot} {answer : GoString → Option WriteRecord}
    (hs : Tracks snap ns true answer calls s) {rt' : Runtime} {nsVersion : ℕ}
    {metadata : List Bytes} {e : NsReadWriteSet}
    (he : e ∈ FabricX.decodeNamespaces
      (FabricX.buildTx rt' (result rt s) ns nsVersion metadata).namespaces) :
    e.ns = ns ∧ ∀ r ∈ e.rws.reads, r ∈ (result rt s).reads := by
  have hdistinct : Distinct (result rt s) := ⟨hs.nodup_reads rt, hs.nodup_writes rt⟩
  obtain ⟨rws', hdecode, hperm, _⟩ :=
    FabricX.decodeNamespaces_buildTx hdistinct rt' ns nsVersion metadata
  rw [hdecode] at he
  cases List.mem_singleton.mp he
  refine ⟨rfl, fun r hr => ?_⟩
  obtain ⟨r₀, hr₀, rfl⟩ := List.mem_map.mp (hperm.mem_iff.mp hr)
  rw [decodedRead_of_tracks hs hr₀]
  exact hr₀

/-- So has what classic Fabric parses, where an empty namespace gives no entry. -/
theorem sorted_reads {rt' : Runtime} {rws : ReadWriteSet} {e : NsReadWriteSet}
    (he : e ∈ if ns.length = 0 then [] else [⟨ns, Fabric.sorted rt' rws⟩]) :
    e.ns = ns ∧ ∀ r ∈ e.rws.reads, r ∈ rws.reads := by
  by_cases hempty : ns.length = 0
  · simp [hempty] at he
  · simp only [hempty, if_false, List.mem_singleton] at he
    subst he
    exact ⟨rfl, fun r hr => (rt'.sortBy_perm KVRead.key rws.reads).mem_iff.mp hr⟩

/-- A program simulated on a snapshot of the current state commits against that state:
its result as it is, as Fabric-X encodes and decodes it, and as classic Fabric does. -/
theorem fresh_simulation_commits (run : Reached db log) (hsnap : snapshot channel fault db = .ok n)
    (ns : GoString) (blockNum : ℕ) (mode : Bool) (calls : List Call) (rt : Runtime)
    (codes : List (Status × Int))
    (hfits : 0 ≤ (validatorAt channel db codes mode).codeFor .committed ∧
      (validatorAt channel db codes mode).codeFor .committed ≤ 255) {rws : ReadWriteSet}
    (hrws : rws = result rt (runCalls
      (newSimulationStore (versionedSnapshot channel db n) ns blockNum mode) calls)) :
    (∀ tx, tx.nsRWS = [⟨ns, rws⟩] → Commits (validatorAt channel db codes mode) tx) ∧
    (mode = true → ∀ rt' nsVersion metadata tx,
      tx.nsRWS =
        FabricX.decodeNamespaces (FabricX.buildTx rt' rws ns nsVersion metadata).namespaces →
      Commits (validatorAt channel db codes mode) tx) ∧
    (mode = false → ∀ c : Proto.Codecs, c.LawfulFabric → ∀ rt' : Runtime,
      (Spellable ns rws → ∃ bytes, Fabric.marshalRWSet c rt' rws ns = .ok bytes) ∧
      ∀ bytes env txID inputArgs ccAct event, Fabric.marshalRWSet c rt' rws ns = .ok bytes →
        Blocks.Fabric.Carries c env txID inputArgs ccAct → ccAct.results = bytes →
        Blocks.Fabric.parseEvent c ccAct = .ok event →
        ∃ tx, Blocks.Fabric.parseTx c env = .ok (some tx) ∧
          Commits (validatorAt channel db codes mode) tx) := by
  subst hrws
  have hs := @runCalls_tracks (versionedSnapshot channel db n) ns mode _
    (consistent_versionedSnapshot channel db n ns blockNum mode) blockNum calls
  refine ⟨?_, ?_, ?_⟩
  · intro tx htx
    apply run.commits_fresh hsnap hs hfits
    intro e he
    rw [htx] at he
    cases List.mem_singleton.mp he
    exact ⟨rfl, fun r hr => hr⟩
  · rintro rfl rt' nsVersion metadata tx htx
    apply run.commits_fresh hsnap hs hfits
    intro e he
    rw [htx] at he
    exact decodeNamespaces_reads hs he
  · rintro rfl c hc rt'
    refine ⟨(Fabric.marshalRWSet_ok_iff hc).mpr, ?_⟩
    intro bytes env txID inputArgs ccAct event hbytes hcarries hresults hevent
    obtain ⟨set, hset, hns⟩ := Fabric.parseNamespaces_marshalRWSet hc hbytes
    refine ⟨_, hcarries.parseTx hevent (by rw [hresults]; exact hset) hns, ?_⟩
    apply run.commits_fresh hsnap hs hfits
    intro e he
    exact sorted_reads he

end Commit

section Sample

/-- Some envelope carries the given results. -/
theorem exists_carries {c : Proto.Codecs} (hc : c.LawfulFabric) (results : Bytes) :
    ∃ env, Blocks.Fabric.Carries c env [] [] ⟨results, [], none, none⟩ := by
  have hnone : Proto.ChaincodeAction.Encodable ⟨results, [], none, none⟩ := ⟨nofun, nofun⟩
  have hheader : Proto.ChannelHeader.Encodable
      ⟨Proto.headerTypeEndorserTransaction, 0, none, [], [], 0, [], []⟩ :=
    ⟨⟨by decide, by decide⟩, ⟨by decide, by decide⟩, nofun, rfl, rfl⟩
  obtain ⟨act, hact⟩ := hc.chaincodeAction.marshal_ok _ hnone
  obtain ⟨prp, hprp⟩ := hc.proposalResponsePayload.marshal_ok ⟨[], act⟩ trivial
  obtain ⟨cis, hcis⟩ := hc.chaincodeInvocationSpec.marshal_ok ⟨none⟩ nofun
  obtain ⟨cpp, hcpp⟩ := hc.chaincodeProposalPayload.marshal_ok ⟨cis⟩ trivial
  obtain ⟨cap, hcap⟩ := hc.chaincodeActionPayload.marshal_ok ⟨cpp, some ⟨prp, []⟩⟩ trivial
  obtain ⟨tx, htx⟩ := hc.transaction.marshal_ok ⟨[⟨[], cap⟩]⟩ trivial
  obtain ⟨chdr, hchdr⟩ := hc.channelHeader.marshal_ok _ hheader
  obtain ⟨payl, hpayl⟩ := hc.payload.marshal_ok ⟨some ⟨chdr, []⟩, tx⟩ trivial
  have hopen : openEnvelope c ⟨payl, []⟩ = .ok (⟨some ⟨chdr, []⟩, tx⟩,
      ⟨Proto.headerTypeEndorserTransaction, 0, none, [], [], 0, [], []⟩) := by
    simp [openEnvelope, hc.payload.unmarshal_marshal _ _ hpayl,
      hc.channelHeader.unmarshal_marshal _ _ hchdr]
  exact ⟨⟨payl, []⟩, _, _, _, _, _, _, _, _, _, hopen, rfl, rfl,
    hc.transaction.unmarshal_marshal _ _ htx, rfl,
    hc.chaincodeActionPayload.unmarshal_marshal _ _ hcap,
    hc.chaincodeProposalPayload.unmarshal_marshal _ _ hcpp,
    hc.chaincodeInvocationSpec.unmarshal_marshal _ _ hcis, rfl, rfl,
    hc.proposalResponsePayload.unmarshal_marshal _ _ hprp,
    hc.chaincodeAction.unmarshal_marshal _ _ hact⟩

/-- The result of the sample program over a snapshot of the current state. -/
def sampleFresh (mode : Bool) : ReadWriteSet :=
  result Runtime.canonical (runCalls
    (newSimulationStore (versionedSnapshot [99] sampleLater 4) [110] 4 mode) sampleProgram)

/-- The program commits as it was recorded, through Fabric-X and through Fabric. -/
theorem fresh_simulation_commits_sample :
    snapshot [99] none sampleLater = .ok 4 ∧
      (sampleFresh true).reads = [⟨[107], some ⟨2, 0⟩⟩] ∧
      (sampleFresh false).reads = [⟨[107], some ⟨4, 0⟩⟩] ∧
      Commits (validatorAt [99] sampleLater [] true)
        { sampleTx 0 .unknown false [] with
          nsRWS := FabricX.decodeNamespaces
            (FabricX.buildTx Runtime.canonical (sampleFresh true) [110] 0 []).namespaces } ∧
      ∃ env tx, Blocks.Fabric.parseTx Proto.Codecs.protobuf env = .ok (some tx) ∧
        Commits (validatorAt [99] sampleLater [] false) tx := by
  have hc := Proto.Codecs.protobuf_lawfulFabric
  have hsnap : snapshot [99] none sampleLater = .ok 4 := rfl
  obtain ⟨_, hmonotonic, _⟩ := fresh_simulation_commits sampleLater_reached hsnap [110] 4 true
    sampleProgram Runtime.canonical [] ⟨by decide, by decide⟩ (rfl : sampleFresh true = _)
  obtain ⟨_, _, hclassic⟩ := fresh_simulation_commits sampleLater_reached hsnap [110] 4 false
    sampleProgram Runtime.canonical [] ⟨by decide, by decide⟩ (rfl : sampleFresh false = _)
  obtain ⟨hmarshals, hparses⟩ := hclassic rfl Proto.Codecs.protobuf hc Runtime.canonical
  have hspellable : Spellable [110] (sampleFresh false) := ⟨by decide, by decide, by decide⟩
  obtain ⟨bytes, hbytes⟩ := hmarshals hspellable
  obtain ⟨env, henv⟩ := exists_carries hc bytes
  obtain ⟨tx, htx, hcommits⟩ := hparses bytes env [] [] _ ([], []) hbytes henv rfl rfl
  exact ⟨hsnap, by decide, by decide, hmonotonic rfl Runtime.canonical 0 [] _ rfl, env, tx, htx,
    hcommits⟩

end Sample

end FabricXSdk.State

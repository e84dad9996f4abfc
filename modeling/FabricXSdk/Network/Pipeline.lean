import FabricXSdk.FabricTest.Ordering
import FabricXSdk.Network.Follower
import FabricXSdk.Network.Submitted

/-!
# A transaction from its simulation to the ledger

A program runs on a snapshot of a store that follows the ledger of a test network. Its result
is endorsed, packaged and ordered, in whatever block the orderer puts it. If the ledger
commits the transaction, then nothing that the program has read from the snapshot was stale.
If the store had caught up and the transaction comes first, the ledger does commit it, and
holds what the program would have read at its end.
-/

namespace FabricXSdk.Network

open Golang Blocks State Endorsement Transition
open FabricTest (Prepared)
open Follower (KeepsUp FollowerInv)

section Records

variable {f : Follower} {s : Follower.State} {applied bs : List Block} {ns key : GoString} {n : ℕ}

/-- Every record that a snapshot of the store gives is a record of the ledger, and stays one. -/
theorem Follower.FollowerInv.snapshotRecord_mem (h : FollowerInv f s applied bs)
    (hc : f.net.codecs.LawfulConfig) (more : List Block) {w : WriteRecord}
    (hw : snapshotRecord f.channel s.sync.store.db n ns key = some w) :
    w ∈ history (applied ++ more) ns key := by
  have hmem := h.synced.holds.refines.snapshotRecord_mem [] hw
  rw [List.append_nil, history, h.writesTo_eq hc, ← history] at hmem
  rw [← List.take_append_drop (bs.length - 1) applied, List.append_assoc, history_append]
  exact List.mem_append_left _ hmem

/-- At the height of the ledger it gives the last record of the ledger. -/
theorem Follower.FollowerInv.getAt_tip (h : FollowerInv f s applied bs)
    (hc : f.net.codecs.LawfulConfig) {fault : Option Text}
    (hsnap : snapshot f.channel fault s.sync.store.db = .ok n)
    (htip : n = s.peer.ledger.height - 1) (ns key : GoString) :
    getAt f.channel none s.sync.store.db ns key n = .ok (history applied ns key).getLast? := by
  have hholds := h.synced.holds
  have hrefines : Refines f.channel s.sync.store.db bs := hholds.refines
  have hn : n = bs.length - 1 := hholds.height hsnap
  have hsmall : n < 2 ^ 63 := by
    have hle := hholds.small
    omega
  have hall : ∀ r ∈ history bs ns key, decide (r.blockNum ≤ n) = true := by
    intro r hr
    obtain ⟨b, hb, hnum⟩ := blockNum_of_mem_history hr
    have hlt := hholds.number_lt hb
    exact decide_eq_true (by omega)
  rw [hrefines.getAt_filter ns key hsmall, List.filter_eq_self.mpr hall,
    h.history_eq hc (hn.symm.trans htip)]

end Records

section Positions

variable {net : FabricTest.Network} {e : FabricTest.Env} {l : FabricTest.Ledger}
  {batch : List Proto.Envelope} {tip : Proto.BlockHeader} {raw bl : Block}
  {txFilter : List Byte} {filter : Bytes} {fbl : Proto.Block} {env : Proto.Envelope}

theorem validator_monotonicVersions (net : FabricTest.Network) (db : RecordGetter) :
    (net.validator db).monotonicVersions = monotonicVersions net := by
  obtain ⟨_, _, _, _, type⟩ := net
  cases type <;> rfl

/-- An own world state is what the validator reads from. -/
theorem readsFrom_recordGetter {db : Database} (hdb : l.db = some db) :
    ReadsFrom FabricTest.channel db (net.validator (e.recordGetter l)).db := by
  intro ns key
  rw [FabricTest.validator_db, FabricTest.Env.recordGetter, hdb]
  exact ⟨e.get ns key, rfl⟩

/-- The transaction of an envelope stands at the position of the envelope. -/
theorem Prepared.exists_split (h : Prepared net e l batch tip raw bl txFilter filter fbl) {p : ℕ}
    (hat : batch[p]? = some env) {tx₀ : Transaction}
    (hacc : accepted net.codecs net.parser (net.envelopeBytes env) = some tx₀) :
    ∃ pre tx post, bl.transactions = pre ++ tx :: post ∧ tx.number = p ∧ tx.id = tx₀.id ∧
      tx.nsRWS = tx₀.nsRWS := by
  have hraw : placedAt net.mapping (List.replicate batch.length 0) p tx₀ ∈ raw.transactions := by
    rw [h.raw_transactions.2, FabricTest.Network.transactions, List.mem_filterMap]
    refine ⟨(net.envelopeBytes env, p), ?_, by rw [hacc, Option.map_some]⟩
    rw [List.mem_zipIdx_iff_getElem?, FabricTest.Network.dataOf, List.getElem?_map, hat,
      Option.map_some]
  obtain ⟨tx, htx, hbody⟩ := exists_mem_of_forall₂ h.sameBody.flip hraw
  obtain ⟨pre, post, hsplit⟩ := List.append_of_mem htx
  have hbody : tx = _ := hbody
  exact ⟨pre, tx, post, hsplit, by rw [hbody]; rfl, by rw [hbody]; rfl, by rw [hbody]; rfl⟩

end Positions

section Programs

/-- A program that ran on a snapshot of the store of a client, and whose result was submitted. -/
def Simulated (f : Follower) (db : Database) (n blockNum : ℕ) (ns : GoString) (calls : List Call)
    (txID : GoString) (env : Proto.Envelope) : Prop :=
  ∃ rt, Submits f.net ns (result rt (runCalls (newSimulationStore
    (versionedSnapshot f.channel db n) ns blockNum (monotonicVersions f.net)) calls)) txID env

/-- The state of the ledger at a position of the chain. -/
def stateAt (applied : List Block) (b : Block) (txs : List Transaction) : Snapshot :=
  fun _ ns key => .ok (recordBefore applied b txs ns key)

/-- The answers of a program along its run. The key of the read is not a tombstone. -/
def SameAnswer (snap snap' : Snapshot) (ns : GoString) (blockNum : ℕ) (mode : Bool)
    (calls : List Call) (fault : Option Text) (key : GoString) : Prop :=
  ∀ value,
    (getState fault key (runCalls (newSimulationStore snap ns blockNum mode) calls)).1 = .ok value →
    (getState none key (runCalls (newSimulationStore snap' ns blockNum mode) calls)).1 = .ok value

variable {f : Follower} {s s' : Follower.State} {applied bs : List Block} {ns key txID : GoString}
  {n blockNum : ℕ} {calls : List Call} {env : Proto.Envelope}

theorem simulated_tracks (f : Follower) (db : Database) (n blockNum : ℕ) (ns : GoString)
    (calls : List Call) :
    Tracks (versionedSnapshot f.channel db n) ns (monotonicVersions f.net)
      (snapshotRecord f.channel db n ns) calls (runCalls (newSimulationStore
        (versionedSnapshot f.channel db n) ns blockNum (monotonicVersions f.net)) calls) :=
  runCalls_tracks (consistent_versionedSnapshot f.channel db n ns blockNum
    (monotonicVersions f.net)) blockNum calls

/-- The transaction of a program has the reads of the program. -/
theorem Simulated.carries {db : Database} (h : Simulated f db n blockNum ns calls txID env)
    (hnamed : Named f.net ns) (hc : f.net.codecs.LawfulConfig) (hf : f.net.codecs.LawfulFabric) :
    ∃ rt tx, Carries f.net ns (result rt (runCalls (newSimulationStore
      (versionedSnapshot f.channel db n) ns blockNum (monotonicVersions f.net)) calls))
      txID env tx := by
  obtain ⟨rt, hsub⟩ := h
  exact ⟨rt, hsub.carries_result hnamed hc hf (simulated_tracks f db n blockNum ns calls)⟩

theorem sameAnswer_of_record {snap : Snapshot} {answer : GoString → Option WriteRecord}
    (hsnap : ∀ fault key found, snap fault ns key = .ok found → found = answer key) {mode : Bool}
    {b : Block} {txs : List Transaction} {fault : Option Text}
    (hlive : ∀ w, answer key = some w → w.isDelete = false)
    (hrecord : lastWrite calls key = none → snap.Live ns fault key →
      (recordBefore applied b txs ns key).filter (fun rec => !rec.isDelete) = answer key) :
    SameAnswer snap (stateAt applied b txs) ns blockNum mode calls fault key := by
  intro value hvalue
  have hs := @runCalls_tracks snap ns mode answer hsnap blockNum calls
  have hs' := @runCalls_tracks (stateAt applied b txs) ns mode
    (fun key => recordBefore applied b txs ns key)
    (fun fault key found h => (Except.ok.inj h).symm) blockNum calls
  rw [getState_value, hs.writes, hs.snap_eq, hs.ns_eq] at hvalue
  rw [getState_value, hs'.writes, hs'.snap_eq, hs'.ns_eq]
  cases hlast : lastWrite calls key with
  | some w =>
      rw [hlast] at hvalue
      exact hvalue
  | none =>
      rw [hlast] at hvalue
      cases hfound : snap fault ns key with
      | error err =>
          rw [hfound] at hvalue
          cases hvalue
      | ok found =>
          rw [hfound] at hvalue
          cases hvalue
          obtain rfl := hsnap fault key found hfound
          have hfilter := hrecord hlast ⟨_, hfound, hlive⟩
          simp only [stateAt, Except.map, liveValue, hfilter, filter_live hlive]

/-- What a program has read first is the live record of its key at a committed transaction. -/
theorem record_of_committed (hinv : FollowerInv f s applied bs) (hc : f.net.codecs.LawfulConfig)
    {more : List Block} {l : FabricTest.Ledger}
    (hproduced : FabricTest.Produced f.net l (applied ++ more))
    {e : FabricTest.Env} {batch : List Proto.Envelope} {tip : Proto.BlockHeader} {raw bl : Block}
    {txFilter : List Byte} {filter : Bytes} {fbl : Proto.Block}
    (hp : Prepared f.net e l batch tip raw bl txFilter filter fbl) {st : SimulationStore}
    (hs : Tracks (versionedSnapshot f.channel s.sync.store.db n) ns (monotonicVersions f.net)
      (snapshotRecord f.channel s.sync.store.db n ns) calls st) {rt : Runtime}
    {pre post : List Transaction} {tx : Transaction} (hsplit : bl.transactions = pre ++ tx :: post)
    (hcommitted : tx.status = .committed) {rws : ReadWriteSet} (hns : ⟨ns, rws⟩ ∈ tx.nsRWS)
    (hreads : rws.reads.Perm (result rt st).reads)
    (hread : ReadFirst (versionedSnapshot f.channel s.sync.store.db n) ns calls key) :
    (recordBefore (applied ++ more) bl pre ns key).filter (fun rec => !rec.isDelete) =
      snapshotRecord f.channel s.sync.store.db n ns key := by
  obtain ⟨genesis, stored, db, hkept⟩ := hproduced.kept hc
  have hrefines := hkept.accepted.refines
  -- the marker of the read is in the result, so the validator has compared it
  have hmarker : readMarker (monotonicVersions f.net) key
      (snapshotRecord f.channel s.sync.store.db n ns key) ∈ rws.reads :=
    hreads.mem_iff.mpr ((hs.mem_reads rt _).mpr ⟨hread, rfl⟩)
  obtain ⟨hrecord, hmatches⟩ := hrefines.committed_read (readsFrom_recordGetter hkept.ownDb)
    hp.validated (Or.inl rfl) hsplit hcommitted hns hmarker
  rw [validator_monotonicVersions] at hmatches
  have hkey : recordBefore (applied ++ more) bl pre ns key = _ := hrecord
  rw [hkey]
  exact (readMatches_marker_iff hrefines.inOrder _
    fun w hw => hinv.snapshotRecord_mem hc more hw).mp hmatches

/-- A program runs on a snapshot of a store that follows the ledger, and what it submits is
ordered whenever and wherever. If the ledger commits the transaction, then the program run
on the state right before the transaction gets the same answers, up to keys that were
tombstones in the snapshot. -/
theorem committed_program_serializes (f : Follower) (hc : f.net.codecs.LawfulConfig)
    (hf : f.net.codecs.LawfulFabric) (hseek : f.seek.Lawful DeliverSeekInfo.Encodable)
    {l₀ : FabricTest.Ledger} (hnew : f.net.newLedger (some Database.empty) = .ok l₀)
    (hrun : Reaches f.Step KeepsUp (Follower.init l₀) s)
    (hnamed : Named f.net ns) (hsim : Simulated f s.sync.store.db n blockNum ns calls txID env)
    (hlater : Reaches f.Step KeepsUp s s') {e : FabricTest.Env} {batch : List Proto.Envelope}
    {p : ℕ} (hat : batch[p]? = some env) {bl : Block} {fbl : Proto.Block}
    (hprepare : f.net.prepare e s'.peer.ledger batch = .ok (bl, fbl)) :
    ∃ applied pre tx post, FabricTest.Produced f.net s'.peer.ledger applied ∧
      bl.transactions = pre ++ tx :: post ∧ tx.number = p ∧ tx.id = txID ∧
      (tx.status = .committed → ∀ before fault key after,
        calls = before ++ .getState fault key :: after →
        (∀ w, snapshotRecord f.channel s.sync.store.db n ns key = some w → w.isDelete = false) →
        SameAnswer (versionedSnapshot f.channel s.sync.store.db n) (stateAt applied bl pre) ns
          blockNum (monotonicVersions f.net) before fault key) := by
  obtain ⟨applied, bs, hinv⟩ := (Follower.init_inv hnew).reaches hc.toLawful hseek hrun
  obtain ⟨more, bs', hinv'⟩ := hinv.reaches hc.toLawful hseek hlater
  obtain ⟨tip, raw, txFilter, filter, hp⟩ := FabricTest.prepare_eq_ok.mp hprepare
  obtain ⟨rt, tx₀, hcarries⟩ := hsim.carries hnamed hc hf
  obtain ⟨pre, tx, post, hsplit, hnumber, hid, hnsRWS⟩ :=
    Prepared.exists_split hp hat hcarries.accepted
  obtain ⟨rws, hns, hreads, _⟩ := hcarries.nsRWS
  refine ⟨applied ++ more, pre, tx, post, hinv'.produced, hsplit, hnumber,
    hid.trans hcarries.id, ?_⟩
  rintro hcommitted before fault key after rfl hlive
  apply sameAnswer_of_record (consistent_versionedSnapshot f.channel _ n ns blockNum
    (monotonicVersions f.net)) hlive
  intro hlast hsnap
  exact record_of_committed hinv hc hinv'.produced hp (simulated_tracks f _ n blockNum ns _)
    hsplit hcommitted (by rw [hnsRWS, hns]; exact List.mem_singleton_self _) hreads
    ⟨before, fault, after, rfl, hlast, hsnap⟩

end Programs

section Effects

variable {f : Follower} {s : Follower.State} {applied bs : List Block} {ns key txID : GoString}
  {n blockNum : ℕ} {calls : List Call} {env : Proto.Envelope} {st : SimulationStore} {rt : Runtime}
  {tx : Transaction}

/-- Every read of a program on a snapshot at the height of the ledger passes. -/
theorem checkRead_of_fresh (hinv : FollowerInv f s applied bs) (hc : f.net.codecs.LawfulConfig)
    {fault : Option Text} (hsnap : snapshot f.channel fault s.sync.store.db = .ok n)
    (htip : n = s.peer.ledger.height - 1)
    (hs : Tracks (versionedSnapshot f.channel s.sync.store.db n) ns (monotonicVersions f.net)
      (snapshotRecord f.channel s.sync.store.db n ns) calls st) {e : FabricTest.Env}
    (hget : ∀ ns key, e.get ns key = none) {r : KVRead} (hr : r ∈ (result rt st).reads) :
    checkRead (f.net.validator (e.recordGetter s.peer.ledger)) ns r = none := by
  obtain ⟨genesis, stored, db, hkept⟩ := hinv.produced.kept hc
  have hrefines := hkept.accepted.refines
  obtain ⟨⟨_, fault', _, _, _, found, hfound, hlive⟩, hversion⟩ := (hs.mem_reads rt r).mp hr
  have hanswer : snapshotRecord f.channel s.sync.store.db n ns r.key = found := by
    rw [snapshotRecord, versionedSnapshot_ok hfound]
  have hlast : (history applied ns r.key).getLast? = found := by
    have hat := versionedSnapshot_ok hfound
    rw [hinv.getAt_tip hc hsnap htip] at hat
    exact Except.ok.inj hat
  have hmarker : r = readMarker (monotonicVersions f.net) r.key found := by
    rw [readMarker, ← hanswer, ← hversion]
  have hfilter := filter_live hlive
  rw [checkRead_eq_none, FabricTest.validator_db, validator_monotonicVersions,
    FabricTest.Env.recordGetter, hkept.ownDb]
  refine ⟨found, ?_, ?_⟩
  · simp only [hget]
    rw [hrefines.get_eq, hlast]
  · rw [← hlast] at hmarker hfilter ⊢
    rw [hmarker]
    exact (readMatches_marker_iff hrefines.inOrder _
      fun w hw => List.mem_of_getLast? hw).mpr hfilter

/-- A first transaction that the validator has nothing against is committed. -/
theorem Prepared.first_committed {net : FabricTest.Network} {e : FabricTest.Env}
    {l : FabricTest.Ledger} {rest : List Proto.Envelope} {tip : Proto.BlockHeader} {raw bl : Block}
    {txFilter : List Byte} {filter : Bytes} {fbl : Proto.Block}
    (h : Prepared net e l (env :: rest) tip raw bl txFilter filter fbl)
    (hacc : accepted net.codecs net.parser (net.envelopeBytes env) = some tx)
    (hreads : ∀ r ∈ tx.nsRWS, ∀ read ∈ r.rws.reads,
      checkRead (net.validator (e.recordGetter l)) r.ns read = none) :
    ∃ tx' post, bl.transactions = tx' :: post ∧ tx'.status = .committed ∧ tx'.id = tx.id ∧
      tx'.nsRWS = tx.nsRWS ∧ (rest = [] → post = []) := by
  obtain ⟨hbl, _, herr⟩ := h.validateFrom_eq
  obtain ⟨tail, htail⟩ : ∃ tail, raw.transactions =
      placedAt net.mapping (List.replicate (env :: rest).length 0) 0 tx :: tail ∧
        (rest = [] → tail = []) := by
    rw [h.raw_transactions.2, FabricTest.Network.transactions, FabricTest.Network.dataOf,
      List.map_cons, List.zipIdx_cons, List.filterMap_cons, hacc, Option.map_some]
    refine ⟨_, rfl, ?_⟩
    rintro rfl
    rfl
  obtain ⟨htail, hempty⟩ := htail
  have hpasses : (checkTx (net.validator (e.recordGetter l)) [] tx.nsRWS).status = .committed :=
    checkTx_committed.mpr fun r hr read hread => ⟨List.not_mem_nil, hreads r hr read hread⟩
  rw [htail] at herr hbl
  rcases validateFrom_cons (net.validator (e.recordGetter l)) []
    (placedAt net.mapping (List.replicate (env :: rest).length 0) 0 tx) tail with
    ⟨hne, _⟩ | ⟨tx', pending, hbody, hstatus, _, _, htxs⟩
  · exact absurd herr hne
  · refine ⟨tx', _, by rw [hbl]; exact htxs, hstatus.trans hpasses, ?_, hbody.nsRWS, ?_⟩
    · rw [SameBody] at hbody
      rw [hbody]
      rfl
    · intro hrest
      rw [hempty hrest]
      rfl

/-- Behind its transaction the ledger answers as the program at its end. -/
theorem liveValue_of_fresh (hinv : FollowerInv f s applied bs) (hc : f.net.codecs.LawfulConfig)
    {fault : Option Text} (hsnap : snapshot f.channel fault s.sync.store.db = .ok n)
    (htip : n = s.peer.ledger.height - 1)
    (hs : Tracks (versionedSnapshot f.channel s.sync.store.db n) ns (monotonicVersions f.net)
      (snapshotRecord f.channel s.sync.store.db n ns) calls st)
    (hcarries : Carries f.net ns (result rt st) txID env tx) {tx' : Transaction}
    (hnsRWS : tx'.nsRWS = tx.nsRWS) (hcommitted : tx'.status = .committed) (b : Block)
    {value : Bytes} (hvalue : (getState none key st).1 = .ok value) :
    liveValue (recordBefore applied b [tx'] ns key) = value := by
  have hwrite : writeTo tx' ns key = writeTo tx ns key := by rw [writeTo, hnsRWS, writeTo]
  rw [getState_value, hs.writes, hs.snap_eq, hs.ns_eq] at hvalue
  rw [liveValue_recordBefore_singleton applied b hcommitted, hwrite, hcarries.writeTo_eq hs]
  cases hlast : lastWrite calls key with
  | some w =>
      rw [hlast] at hvalue
      exact (wireWrite_value f.net w).trans (Except.ok.inj hvalue)
  | none =>
      have hat : versionedSnapshot f.channel s.sync.store.db n none ns key = _ :=
        hinv.getAt_tip hc hsnap htip ns key
      rw [hlast, hat] at hvalue
      exact Except.ok.inj hvalue

/-- The ledger takes a block with nothing but the transaction of a program. -/
theorem exists_process_of_carries (hinv : FollowerInv f s applied bs)
    (hc : f.net.codecs.LawfulConfig) {rws : ReadWriteSet} (hd : Distinct rws)
    (hcarries : Carries f.net ns rws txID env tx) {e : FabricTest.Env} (he : e.Sound)
    (hsmall : s.peer.ledger.height < 2 ^ 63) :
    ∃ l', f.net.process e s.peer.ledger [env] = (.ok (), l') := by
  obtain ⟨genesis, stored, db, hkept⟩ := hinv.produced.kept hc
  have hbehind : FabricTest.Behind s.peer.ledger := by
    intro db' hdb'
    obtain rfl := Option.some.inj (hkept.ownDb.symm.trans hdb')
    exact ⟨applied, hkept.accepted, fun a ha => (hkept.storable a ha).2.2⟩
  have hdata : ∀ bytes ∈ f.net.dataOf [env], ¬ BadConfig f.net.codecs bytes ∧
      ¬ Panics f.net.codecs f.net.parser bytes := by
    intro bytes hbytes
    obtain rfl := List.mem_singleton.mp hbytes
    exact not_bad_of_accepted hcarries.accepted
  obtain ⟨bl, fbl, hprepare⟩ := (FabricTest.exists_prepare_iff hinv.wellFormed he).mpr
    ⟨fun bytes hbytes => (hdata bytes hbytes).1, fun bytes hbytes => (hdata bytes hbytes).2⟩
  obtain ⟨tip, raw, txFilter, filter, hp⟩ := FabricTest.prepare_eq_ok.mp hprepare
  have hunambiguous : ∀ t ∈ f.net.marked e s.peer.ledger [env], ¬ Ambiguous t := by
    intro t ht
    rw [← hp.transactions_eq] at ht
    obtain ⟨t₀, ht₀, hbody⟩ := exists_mem_of_forall₂ hp.sameBody ht
    rw [hp.raw_transactions.2, FabricTest.Network.transactions, FabricTest.Network.dataOf,
      List.map_singleton, List.zipIdx_singleton, List.filterMap_cons, hcarries.accepted,
      Option.map_some, List.filterMap_nil, List.mem_singleton] at ht₀
    apply hcarries.not_ambiguous hd
    rw [hbody.nsRWS, ht₀]
    rfl
  obtain ⟨l', hcommit⟩ := (FabricTest.exists_commit_iff hbehind he hp).mpr
    ⟨fun _ => hsmall, fun _ t ht _ => hunambiguous t ht⟩
  exact ⟨l', FabricTest.process_eq_ok.mpr ⟨bl, fbl, hprepare, hcommit⟩⟩

/-- The ledger behind the first transaction of a block, in terms of a program. -/
structure TakesEffect (applied : List Block) (ns txID : GoString) (st : SimulationStore)
    (bl : Block) (tx : Transaction) : Prop where
  committed : tx.status = .committed
  id : tx.id = txID
  values : ∀ key value, (getState none key st).1 = .ok value →
    liveValue (recordBefore applied bl [tx] ns key) = value
  /-- Other namespaces are as before. -/
  others : ∀ ns' key, ns' ≠ ns →
    recordBefore applied bl [tx] ns' key = (history applied ns' key).getLast?

theorem recordBefore_other {b : Block} {rws : ReadWriteSet} (hns : tx.nsRWS = [⟨ns, rws⟩])
    {ns' : GoString} (hne : ns' ≠ ns) (key : GoString) :
    recordBefore applied b [tx] ns' key = (history applied ns' key).getLast? := by
  have hwrites : blockWrites ns' key { b with transactions := [tx] } = [] := by
    have hnone : writeTo tx ns' key = none := by simp [writeTo, hns, hne.symm]
    simp [blockWrites, committedWrite, hnone]
  rw [recordBefore, history_append, writesTo_singleton, hwrites, List.mapIdx_nil, List.append_nil]

theorem takesEffect_of_fresh (hinv : FollowerInv f s applied bs) (hc : f.net.codecs.LawfulConfig)
    {fault : Option Text} (hsnap : snapshot f.channel fault s.sync.store.db = .ok n)
    (htip : n = s.peer.ledger.height - 1)
    (hs : Tracks (versionedSnapshot f.channel s.sync.store.db n) ns (monotonicVersions f.net)
      (snapshotRecord f.channel s.sync.store.db n ns) calls st)
    (hcarries : Carries f.net ns (result rt st) txID env tx) {e : FabricTest.Env}
    (hget : ∀ ns key, e.get ns key = none) {rest : List Proto.Envelope} {bl : Block}
    {fbl : Proto.Block}
    (hprepare : f.net.prepare e s.peer.ledger (env :: rest) = .ok (bl, fbl)) :
    ∃ tx' post, bl.transactions = tx' :: post ∧ (rest = [] → post = []) ∧
      TakesEffect applied ns txID st bl tx' := by
  obtain ⟨tip, raw, txFilter, filter, hp⟩ := FabricTest.prepare_eq_ok.mp hprepare
  obtain ⟨rws, hns, hreads, _⟩ := hcarries.nsRWS
  have hpasses : ∀ r ∈ tx.nsRWS, ∀ read ∈ r.rws.reads,
      checkRead (f.net.validator (e.recordGetter s.peer.ledger)) r.ns read = none := by
    intro r hr read hread
    rw [hns, List.mem_singleton] at hr
    subst hr
    exact checkRead_of_fresh hinv hc hsnap htip hs hget (hreads.mem_iff.mp hread)
  obtain ⟨tx', post, htxs, hcommitted, hid, hnsRWS, hempty⟩ :=
    Prepared.first_committed hp hcarries.accepted hpasses
  refine ⟨tx', post, htxs, hempty, hcommitted, hid.trans hcarries.id, fun key value hvalue => ?_,
    fun ns' key hne => recordBefore_other (hnsRWS.trans hns) hne key⟩
  exact liveValue_of_fresh hinv hc hsnap htip hs hcarries hnsRWS hcommitted bl hvalue

/-- A program that ran on a snapshot at the height of the ledger is committed if its
transaction comes first in the next block. Behind it the ledger answers as the program would
have at its end. With a working database the ledger does take the transaction in a block of
its own. -/
theorem fresh_program_takes_effect (f : Follower) (hc : f.net.codecs.LawfulConfig)
    (hf : f.net.codecs.LawfulFabric) (hseek : f.seek.Lawful DeliverSeekInfo.Encodable)
    {l₀ : FabricTest.Ledger} (hnew : f.net.newLedger (some Database.empty) = .ok l₀)
    (hrun : Reaches f.Step KeepsUp (Follower.init l₀) s) {fault : Option Text}
    (hsnap : snapshot f.channel fault s.sync.store.db = .ok n)
    (htip : n = s.peer.ledger.height - 1) (hnamed : Named f.net ns)
    (hsim : Simulated f s.sync.store.db n blockNum ns calls txID env) (hst : st = runCalls
      (newSimulationStore (versionedSnapshot f.channel s.sync.store.db n) ns blockNum
        (monotonicVersions f.net)) calls) {e : FabricTest.Env} (he : e.Sound) :
    (∃ applied, FabricTest.Produced f.net s.peer.ledger applied ∧ ∀ rest bl fbl,
      f.net.prepare e s.peer.ledger (env :: rest) = .ok (bl, fbl) →
        ∃ tx post, bl.transactions = tx :: post ∧ TakesEffect applied ns txID st bl tx) ∧
    (s.peer.ledger.height < 2 ^ 63 → ∃ l' db, f.net.process e s.peer.ledger [env] = (.ok (), l') ∧
      l'.db = some db ∧ ∀ key value, (getState none key st).1 = .ok value →
        ∃ found, get FabricTest.channel none db ns key = .ok found ∧ liveValue found = value) := by
  subst hst
  obtain ⟨applied, bs, hinv⟩ := (Follower.init_inv hnew).reaches hc.toLawful hseek hrun
  rw [List.nil_append] at hinv
  obtain ⟨rt, tx₀, hcarries⟩ := hsim.carries hnamed hc hf
  have hs := @simulated_tracks f s.sync.store.db n blockNum ns calls
  refine ⟨⟨applied, hinv.produced, fun rest bl fbl hprepare => ?_⟩, fun hsmall => ?_⟩
  · obtain ⟨tx, post, htxs, _, heffect⟩ :=
      takesEffect_of_fresh hinv hc hsnap htip hs hcarries he.get hprepare
    exact ⟨tx, post, htxs, heffect⟩
  · obtain ⟨l', hprocess⟩ := exists_process_of_carries hinv hc
      ⟨hs.nodup_reads rt, hs.nodup_writes rt⟩ hcarries he hsmall
    obtain ⟨bl, fbl, hprepare, _⟩ := FabricTest.process_eq_ok.mp hprocess
    obtain ⟨tx, post, htxs, hempty, heffect⟩ :=
      takesEffect_of_fresh hinv hc hsnap htip hs hcarries he.get hprepare
    obtain ⟨_, _, db, hkept⟩ := (hinv.produced.process hprepare hprocess).kept hc
    refine ⟨l', db, hprocess, hkept.ownDb, fun key value hvalue => ?_⟩
    have hblock : { bl with transactions := [tx] } = bl := by
      rw [hempty rfl] at htxs
      rw [← htxs]
    refine ⟨recordBefore applied bl [tx] ns key, ?_, heffect.values key value hvalue⟩
    rw [hkept.accepted.refines.get_eq, recordBefore, hblock]

end Effects

section Sample

open FabricTest (sampleFabricX sampleEnv sampleEnv_sound sampleProduced)
open Follower (sampleFollower sampleNode sampleStream sampleNode_reached)

/-- The client of the sample with both blocks of the ledger. -/
def sampleCaughtUp (sync : Sync) : Follower.State :=
  ⟨⟨sync, sampleNode⟩, ⟨sampleProduced, [sampleStream 2]⟩, some (0, 2)⟩

/-- A program that reads a key, writes another one and deletes the first. -/
def sampleMove : List Call := [.getState none [107], .putState [113] [2], .delState [107]]

theorem exists_simulated : ∃ env,
    Simulated sampleFollower sampleNode.db 1 1 [110] sampleMove FabricX.sampleMessage.txID env := by
  obtain ⟨env, henv⟩ := exists_submits (result Runtime.canonical (runCalls (newSimulationStore
    (versionedSnapshot [99] sampleNode.db 1) [110] 1 true) sampleMove))
  exact ⟨env, Runtime.canonical, henv⟩

theorem sampleNode_snapshot : snapshot [99] none sampleNode.db = .ok 1 := rfl

theorem sampleProduced_small : sampleProduced.height < 2 ^ 63 := by decide

/-- The program takes effect in a block of its own. -/
theorem fresh_program_takes_effect_sample : ∃ env l' db,
    sampleFabricX.process sampleEnv sampleProduced [env] = (.ok (), l') ∧ l'.db = some db ∧
      (∃ found, get FabricTest.channel none db [110] [113] = .ok found ∧ liveValue found = [2]) ∧
      ∃ found, get FabricTest.channel none db [110] [107] = .ok found ∧ liveValue found = [] := by
  obtain ⟨env, hsim⟩ := exists_simulated
  obtain ⟨sync, hreached⟩ := sampleNode_reached
  obtain ⟨_, htakes⟩ := fresh_program_takes_effect (s := sampleCaughtUp sync) sampleFollower
    Proto.Codecs.protobuf_lawfulConfig Proto.Codecs.protobuf_lawfulFabric deliverSeekInfo_lawful
    rfl hreached sampleNode_snapshot rfl trivial hsim rfl sampleEnv_sound
  obtain ⟨l', db, hprocess, hdb, hvalues⟩ := htakes sampleProduced_small
  exact ⟨env, l', db, hprocess, hdb, hvalues [113] [2] rfl, hvalues [107] [] rfl⟩

/-- The value that the program has read is the one before its transaction. -/
theorem committed_program_serializes_sample : ∃ env bl applied pre tx,
    (∃ fbl, sampleFabricX.prepare sampleEnv sampleProduced [env] = .ok (bl, fbl)) ∧
      bl.transactions = pre ++ [tx] ∧ tx.status = .committed ∧
      (getState none [107] (runCalls (newSimulationStore (stateAt applied bl pre) [110] 1 true)
        [])).1 = .ok [1] := by
  have hc : sampleFollower.net.codecs.LawfulConfig := Proto.Codecs.protobuf_lawfulConfig
  have hf : sampleFollower.net.codecs.LawfulFabric := Proto.Codecs.protobuf_lawfulFabric
  obtain ⟨env, hsim⟩ := exists_simulated
  obtain ⟨sync, hreached⟩ := sampleNode_reached
  obtain ⟨applied₀, bs, hinv⟩ := (Follower.init_inv (f := sampleFollower) rfl).reaches hc.toLawful
    deliverSeekInfo_lawful hreached
  -- the ledger commits the transaction, since the store had caught up
  obtain ⟨rt, tx₀, hcarries⟩ := hsim.carries trivial hc hf
  have hs := simulated_tracks sampleFollower sampleNode.db 1 1 [110] sampleMove
  obtain ⟨l', hprocess⟩ := exists_process_of_carries hinv hc
    ⟨hs.nodup_reads rt, hs.nodup_writes rt⟩ hcarries sampleEnv_sound sampleProduced_small
  obtain ⟨bl, fbl, hprepare, _⟩ := FabricTest.process_eq_ok.mp hprocess
  obtain ⟨tx', post', htxs, hempty, heffect⟩ := takesEffect_of_fresh hinv hc sampleNode_snapshot rfl
    hs hcarries sampleEnv_sound.get hprepare
  obtain ⟨applied, pre, tx, post, _, hsplit, _, _, hanswers⟩ :=
    committed_program_serializes sampleFollower hc hf deliverSeekInfo_lawful rfl hreached trivial
      hsim .refl (p := 0) rfl hprepare
  rw [htxs, hempty rfl] at hsplit
  obtain ⟨rfl, hpost⟩ : pre = [] ∧ post = [] := by
    have hlength := congrArg List.length hsplit
    simp only [List.length_append, List.length_cons, List.length_nil] at hlength
    exact ⟨List.length_eq_zero_iff.mp (by omega), List.length_eq_zero_iff.mp (by omega)⟩
  rw [List.nil_append, List.cons.injEq] at hsplit
  obtain ⟨rfl, _⟩ := hsplit
  refine ⟨env, bl, applied, [], tx', ⟨fbl, hprepare⟩, ?_, heffect.committed, ?_⟩
  · rw [htxs, hempty rfl, List.nil_append]
  · exact hanswers heffect.committed [] none [107] _ rfl (fun w hw => by cases hw; rfl) [1] rfl

end Sample

end FabricXSdk.Network

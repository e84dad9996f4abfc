import FabricXSdk.Local.Concurrent
import FabricXSdk.Network.Submitted

/-!
# Programs on a local backend

A local backend is a store with a `LocalSubmitter`. Programs run on snapshots of the store,
current ones or old ones; their results are endorsed for either ledger and submitted one
after the other. The store then holds what the accepted programs write when they run one
after the other on a plain map, in the order of their submissions. An accepted program has
read what it would have read in this order, and a program on a current snapshot is accepted.

## Implementation notes

Submissions that overlap are the matter of `FabricXSdk.Local.Concurrent`; here each runs
alone, and only the simulations overlap with other submissions.
-/

namespace FabricXSdk.Local

open Golang Blocks State Atomic Endorsement
open Network (Submits Carries Named monotonicVersions wireWrite)

section Model

variable {E : Type}

/-- The submitter reads the envelopes of the network and compares its versions. -/
structure Serves (net : FabricTest.Network) (s : LocalSubmitter E) : Prop where
  parser : s.parseTx = net.parser.parseTx
  versions : s.monotonicVersions = monotonicVersions net

/-- A program on a snapshot of the store. -/
def simulate (net : FabricTest.Network) (channel : GoString) (s : LocalSubmitter E)
    (db : Database) (n blockNum : ℕ) (program : List State.Call) : SimulationStore :=
  runCalls (newSimulationStore (versionedSnapshot channel db n) s.ns blockNum
    (monotonicVersions net)) program

/-- The endorsement is for what a program did on a snapshot of the store. -/
def Endorses (net : FabricTest.Network) (channel : GoString) (s : LocalSubmitter E)
    (db : Database) (n blockNum : ℕ) (program : List State.Call) (e : E) : Prop :=
  ∃ fault rt txID env, snapshot channel fault db = .ok n ∧ s.packageTx e = .ok env ∧
    Submits net s.ns (result rt (simulate net channel s db n blockNum program)) txID env

/-- The store after submissions, with all its states so far and the accepted programs. -/
inductive Runs (net : FabricTest.Network) (channel : GoString) (s : LocalSubmitter E) :
    Database → List Database → List (List State.Call) → Prop
  | empty : Runs net channel s Database.empty [Database.empty] []
  | accepted {db past done db₀ n blockNum program e f db'} (run : Runs net channel s db past done)
      (hpast : db₀ ∈ past) (he : Endorses net channel s db₀ n blockNum program e)
      (h : submit channel s f db e = (.ok (), db')) :
      Runs net channel s db' (past ++ [db']) (done ++ [program])
  | refused {db past done e f out db'} (run : Runs net channel s db past done)
      (h : submit channel s f db e = (out, db')) (hout : out ≠ .ok ()) :
      Runs net channel s db' past done

/-- The values of the keys after a program. -/
def valuesAfter (values : GoString → Bytes) (program : List State.Call) : GoString → Bytes :=
  fun key =>
    match lastWrite program key with
    | some w => if w.isDelete then [] else w.value
    | none => values key

/-- The values of the keys after programs that run one after the other. -/
def sequentially (programs : List (List State.Call)) : GoString → Bytes :=
  programs.foldl valuesAfter fun _ => []

end Model

section Submission

variable {E : Type} {net : FabricTest.Network} {channel : GoString} {s : LocalSubmitter E}
  {db db' : Database} {n blockNum : ℕ} {program : List State.Call} {e : E} {f : Faults}
  {hist : List Block}

theorem simulate_tracks (net : FabricTest.Network) (channel : GoString) (s : LocalSubmitter E)
    (db : Database) (n blockNum : ℕ) (program : List State.Call) :
    Tracks (versionedSnapshot channel db n) s.ns (monotonicVersions net)
      (snapshotRecord channel db n s.ns) program
      (simulate net channel s db n blockNum program) :=
  runCalls_tracks (consistent_versionedSnapshot channel db n s.ns blockNum
    (monotonicVersions net)) blockNum program

/-- The transaction that `Submit` makes of the endorsement of a program. -/
structure Ready (net : FabricTest.Network) (s : LocalSubmitter E) (rt : Runtime)
    (st : SimulationStore) (program : List State.Call) (e : E) (tx : Transaction) : Prop where
  prepared : prepare s e = .ok tx
  committed : tx.status = .committed
  writes : ∀ key, writeTo tx s.ns key = (lastWrite program key).map (wireWrite net)
  reads : ∀ r, r ∈ (firstRWS s.ns tx.nsRWS).reads ↔ r ∈ (result rt st).reads
  unambiguous : ¬ Ambiguous tx

theorem Endorses.ready (he : Endorses net channel s db n blockNum program e) (hs : Serves net s)
    (hnamed : Named net s.ns) (hc : net.codecs.LawfulConfig) (hf : net.codecs.LawfulFabric) :
    ∃ rt tx, Ready net s rt (simulate net channel s db n blockNum program) program e tx := by
  obtain ⟨_, rt, txID, env, _, hpackage, hsub⟩ := he
  have htracks := simulate_tracks net channel s db n blockNum program
  obtain ⟨tx, hcarries⟩ := hsub.carries_result hnamed hc hf htracks
  obtain ⟨rws, hns, hreads, _⟩ := hcarries.nsRWS
  refine ⟨rt, tx.setStatus .committed 0 [], ?_, rfl, fun key => ?_, fun r => ?_, ?_⟩
  · simp [prepare, hpackage, hs.parser, hcarries.parseTx hc, Outcome.ofExcept, Outcome.deref]
  · change writeTo tx s.ns key = _
    exact hcarries.writeTo_eq htracks key
  · have hfirst : firstRWS s.ns (tx.setStatus .committed 0 []).nsRWS = rws := by
      change firstRWS s.ns tx.nsRWS = rws
      simp [firstRWS, hns]
    rw [hfirst, hreads.mem_iff]
  · exact hcarries.not_ambiguous ⟨htracks.nodup_reads rt, htracks.nodup_writes rt⟩ rfl

/-- The number of the next block is greater than all before. -/
theorem lt_next (href : Refines channel db hist) {fault : Option Text}
    (hn : blockNumber channel fault db = .ok n) : ∀ b ∈ hist, b.number < n + 1 := by
  intro b hb
  obtain ⟨last, hlast, hle⟩ := href.number_le_last hb
  have hheight := (blockNumber_eq_ok.mp hn).2
  simp only [height, hlast] at hheight
  omega

/-- A read that passes the check is of a record that is still the last one of its key. -/
theorem Ready.record_eq {rt : Runtime} {tx : Transaction} {db₀ : Database} {key : GoString}
    (hready : Ready net s rt (simulate net channel s db₀ n blockNum program) program e tx)
    (hs : Serves net s) (href : Refines channel db hist)
    (hcheck : checkMVCC s (recordGetter channel f db) tx = .ok ())
    (hmem : ∀ w, snapshotRecord channel db₀ n s.ns key = some w → w ∈ history hist s.ns key)
    (hread : ReadFirst (versionedSnapshot channel db₀ n) s.ns program key) :
    (history hist s.ns key).getLast?.filter (fun rec => !rec.isDelete) =
      snapshotRecord channel db₀ n s.ns key := by
  have htracks := simulate_tracks net channel s db₀ n blockNum program
  have hmarker : readMarker (monotonicVersions net) key (snapshotRecord channel db₀ n s.ns key) ∈
      (firstRWS s.ns tx.nsRWS).reads :=
    (hready.reads _).mpr ((htracks.mem_reads rt _).mpr ⟨hread, rfl⟩)
  obtain ⟨found, hfound, hmatches⟩ :=
    checkRead_eq_none.mp (checkMVCC_eq_ok.mp (checkMVCC_none hcheck) _ hmarker)
  have hlast : found = (history hist s.ns key).getLast? :=
    Except.ok.inj (hfound.symm.trans (href.get_eq s.ns key))
  rw [hlast] at hmatches
  change ReadMatches s.monotonicVersions _ _ at hmatches
  rw [hs.versions] at hmatches
  exact (readMatches_marker_iff href.inOrder _ hmem).mp hmatches

/-- The values behind the block of an accepted program. -/
theorem Ready.values {rt : Runtime} {st : SimulationStore} {tx : Transaction}
    (hready : Ready net s rt st program e tx) (hist : List Block) (n : ℕ) (key : GoString) :
    liveValue (history (hist ++ [blockOf n tx]) s.ns key).getLast? =
      valuesAfter (fun key => liveValue (history hist s.ns key).getLast?) program key := by
  have hvalue := Network.liveValue_recordBefore_singleton hist (blockOf n tx) hready.committed
    s.ns key
  rw [hready.writes] at hvalue
  refine hvalue.trans ?_
  rw [valuesAfter]
  cases lastWrite program key with
  | none => rfl
  | some w => exact Network.wireWrite_value net w

end Submission

section Runs

variable {E : Type} {net : FabricTest.Network} {channel : GoString} {s : LocalSubmitter E}
  {db db' db₀ : Database} {past : List Database} {done : List (List State.Call)} {n blockNum : ℕ}
  {program : List State.Call} {e : E} {f : Faults} {hist : List Block}

/-- The store has taken these blocks, an earlier state of it a first part of them. -/
structure RunInv (channel ns : GoString) (db : Database) (past : List Database)
    (done : List (List State.Call)) (hist : List Block) : Prop where
  accepted : Accepted channel db hist
  past : ∀ db₀ ∈ past, ∃ hist₀ more, hist = hist₀ ++ more ∧ Accepted channel db₀ hist₀
  values : ∀ key, liveValue (history hist ns key).getLast? = sequentially done key

theorem RunInv.accept (h : RunInv channel s.ns db past done hist) (hs : Serves net s)
    (hnamed : Named net s.ns) (hc : net.codecs.LawfulConfig) (hf : net.codecs.LawfulFabric)
    (he : Endorses net channel s db₀ n blockNum program e)
    (hsubmit : submit channel s f db e = (.ok (), db')) :
    ∃ b, RunInv channel s.ns db' (past ++ [db']) (done ++ [program]) (hist ++ [b]) := by
  obtain ⟨rt, tx, hready⟩ := he.ready hs hnamed hc hf
  obtain ⟨m, hm, _, hupdate⟩ := (submit_eq_ok hready.prepared).mp hsubmit
  have hnext : Accepted channel db' (hist ++ [blockOf (m + 1) tx]) :=
    h.accepted.next (lt_next h.accepted.refines hm) (List.pairwise_singleton _ _) hupdate
  refine ⟨blockOf (m + 1) tx, hnext, fun db₁ hdb₁ => ?_, fun key => ?_⟩
  · rcases List.mem_append.mp hdb₁ with hdb₁ | hdb₁
    · obtain ⟨hist₀, more, rfl, haccepted⟩ := h.past db₁ hdb₁
      exact ⟨hist₀, more ++ [blockOf (m + 1) tx], List.append_assoc .., haccepted⟩
    · rw [List.mem_singleton.mp hdb₁]
      exact ⟨_, [], (List.append_nil _).symm, hnext⟩
  · rw [hready.values, sequentially, List.foldl_append, List.foldl_cons, List.foldl_nil]
    exact congrArg (fun values => valuesAfter values program key) (funext h.values)

theorem Runs.inv (run : Runs net channel s db past done) (hs : Serves net s)
    (hnamed : Named net s.ns) (hc : net.codecs.LawfulConfig) (hf : net.codecs.LawfulFabric) :
    ∃ hist, RunInv channel s.ns db past done hist := by
  induction run with
  | empty =>
      refine ⟨[], .empty, fun db₀ h => ?_, fun key => rfl⟩
      rw [List.mem_singleton.mp h]
      exact ⟨[], [], rfl, .empty⟩
  | accepted _ _ he h ih =>
      obtain ⟨hist, hinv⟩ := ih
      obtain ⟨b, hinv'⟩ := hinv.accept hs hnamed hc hf he h
      exact ⟨hist ++ [b], hinv'⟩
  | @refused db past done e f out db' _ h hout ih =>
      have hsame : db' = db := by
        have hkept := submit_of_ne_ok (h ▸ hout : (submit channel s f db e).1 ≠ .ok ())
        rw [h] at hkept
        exact hkept
      rw [hsame]
      exact ih

/-- A current snapshot answers with the last record of a key. -/
theorem snapshot_current (href : Refines channel db hist) (hsmall : n < 2 ^ 63)
    {fault : Option Text} (hsnap : snapshot channel fault db = .ok n) (ns key : GoString) :
    getAt channel none db ns key n = .ok (history hist ns key).getLast? := by
  have hall : ∀ r ∈ history hist ns key, decide (r.blockNum ≤ n) = true := by
    intro r hr
    obtain ⟨b, hb, hnum⟩ := blockNum_of_mem_history hr
    have hlt := lt_next href hsnap b hb
    exact decide_eq_true (by omega)
  rw [href.getAt_filter ns key hsmall, List.filter_eq_self.mpr hall]

/-- The endorsement of a program on a current snapshot is accepted. -/
theorem RunInv.accepts_current (h : RunInv channel s.ns db past done hist) (hs : Serves net s)
    (hnamed : Named net s.ns) (hc : net.codecs.LawfulConfig) (hf : net.codecs.LawfulFabric)
    (he : Endorses net channel s db n blockNum program e) (hsmall : n + 1 < 2 ^ 63) :
    ∃ db', submit channel s Faults.none db e = (.ok (), db') := by
  obtain ⟨rt, tx, hready⟩ := he.ready hs hnamed hc hf
  obtain ⟨fault, _, _, _, hsnap, _⟩ := he
  have href := h.accepted.refines
  have hn : blockNumber channel none db = .ok n :=
    blockNumber_eq_ok.mpr ⟨rfl, (blockNumber_eq_ok.mp hsnap).2⟩
  have hupdate := (updateWorldState_new_iff href h.accepted.primaryKey
    (b := blockOf (n + 1) tx) (lt_next href hn) (List.pairwise_singleton _ _)).mpr
    ⟨hsmall, fun t ht _ => List.mem_singleton.mp ht ▸ hready.unambiguous, rfl⟩
  refine ⟨_, (submit_eq_ok hready.prepared).mpr ⟨n, hn, ?_, hupdate⟩⟩
  rw [checkMVCC_eq_ok]
  intro r hr
  obtain ⟨⟨_, fault', _, _, _, found, hfound, hlive⟩, hversion⟩ :=
    ((simulate_tracks net channel s db n blockNum program).mem_reads rt r).mp
      ((hready.reads r).mp hr)
  -- the query up to the height and the one without a bound give the same record
  have hat := versionedSnapshot_ok hfound
  have hlast : (history hist s.ns r.key).getLast? = found :=
    Except.ok.inj ((snapshot_current href (by omega) hsnap s.ns r.key).symm.trans hat)
  have hmarker : r = readMarker (monotonicVersions net) r.key found := by
    rw [snapshotRecord, hat] at hversion
    rw [readMarker, ← hversion]
  refine checkRead_eq_none.mpr ⟨found, (href.get_eq s.ns r.key).trans (congrArg _ hlast), ?_⟩
  change ReadMatches s.monotonicVersions found r
  have hfilter := Network.filter_live hlive
  rw [← hlast] at hmarker hfilter ⊢
  rw [hs.versions, hmarker]
  exact (readMatches_marker_iff href.inOrder _ fun w hw => List.mem_of_getLast? hw).mpr hfilter

/-- The value that a program reads, from what it has written or from the values before it. -/
theorem value_of_record {before : List State.Call} {fault : Option Text} {key : GoString}
    {value : Bytes} {values : GoString → Bytes}
    (hvalue : (getState fault key (simulate net channel s db n blockNum before)).1 = .ok value)
    (hrecord : lastWrite before key = none → ∀ found,
      versionedSnapshot channel db n fault s.ns key = .ok found → liveValue found = values key) :
    value = valuesAfter values before key := by
  have htracks := simulate_tracks net channel s db n blockNum before
  rw [getState_value, htracks.writes, htracks.snap_eq, htracks.ns_eq] at hvalue
  rw [valuesAfter]
  cases hlast : lastWrite before key with
  | some w =>
      rw [hlast] at hvalue
      exact (Except.ok.inj hvalue).symm
  | none =>
      rw [hlast] at hvalue
      cases hfound : versionedSnapshot channel db n fault s.ns key with
      | error err =>
          rw [hfound] at hvalue
          cases hvalue
      | ok found =>
          rw [hfound] at hvalue
          exact (Except.ok.inj hvalue).symm.trans (hrecord hlast found hfound)

theorem liveValue_filter (found : Option WriteRecord) :
    liveValue (found.filter fun rec => !rec.isDelete) = liveValue found := by
  rw [liveValue, liveValue, Option.filter_filter]
  simp only [Bool.and_self]

/-- An accepted program has read what it would have read after the programs accepted before. -/
theorem RunInv.answers (h : RunInv channel s.ns db past done hist) (hs : Serves net s)
    (hnamed : Named net s.ns) (hc : net.codecs.LawfulConfig) (hf : net.codecs.LawfulFabric)
    (hpast : db₀ ∈ past)
    {before after : List State.Call} {fault : Option Text} {key : GoString}
    (he : Endorses net channel s db₀ n blockNum (before ++ .getState fault key :: after) e)
    (hsubmit : submit channel s f db e = (.ok (), db'))
    (hlive : ∀ w, snapshotRecord channel db₀ n s.ns key = some w → w.isDelete = false)
    {value : Bytes}
    (hvalue : (getState fault key (simulate net channel s db₀ n blockNum before)).1 = .ok value) :
    value = valuesAfter (sequentially done) before key := by
  obtain ⟨rt, tx, hready⟩ := he.ready hs hnamed hc hf
  obtain ⟨m, _, hcheck, _⟩ := (submit_eq_ok hready.prepared).mp hsubmit
  obtain ⟨hist₀, more, rfl, haccepted⟩ := h.past db₀ hpast
  refine value_of_record hvalue fun hlast found hfound => ?_
  have hanswer : snapshotRecord channel db₀ n s.ns key = found := by
    rw [snapshotRecord, versionedSnapshot_ok hfound]
  have hrecord := hready.record_eq hs h.accepted.refines hcheck
    (fun w hw => haccepted.refines.snapshotRecord_mem more hw)
    ⟨before, fault, after, rfl, hlast, found, hfound, fun w hw => hlive w (hanswer.trans hw)⟩
  rw [← hanswer, ← hrecord, liveValue_filter, h.values]

/-- A submission that is accepted raises the height by one. -/
theorem Endorses.snapshot_submit (he : Endorses net channel s db₀ n blockNum program e)
    (hs : Serves net s) (hnamed : Named net s.ns) (hc : net.codecs.LawfulConfig)
    (hf : net.codecs.LawfulFabric) {m : ℕ} (hm : height channel db = m)
    (hsubmit : submit channel s f db e = (.ok (), db')) :
    snapshot channel none db' = .ok (m + 1) := by
  obtain ⟨rt, tx, hready⟩ := he.ready hs hnamed hc hf
  obtain ⟨k, hk, _, hupdate⟩ := (submit_eq_ok hready.prepared).mp hsubmit
  have hheight : height channel db' = max (height channel db) (k + 1) := height_update hupdate
  have hkm := (blockNumber_eq_ok.mp hk).2
  exact blockNumber_eq_ok.mpr ⟨rfl, by omega⟩

/-- A local backend runs the accepted programs one after the other: the store holds what
they write in this order, each has read what it would have read in this order, up to keys
that were tombstones in its snapshot, and a program on a current snapshot is accepted. -/
theorem local_backend_serializes (run : Runs net channel s db past done) (hs : Serves net s)
    (hnamed : Named net s.ns) (hc : net.codecs.LawfulConfig) (hf : net.codecs.LawfulFabric) :
    (∀ key, ∃ found, get channel none db s.ns key = .ok found ∧
      liveValue found = sequentially done key) ∧
    (∀ db₀ ∈ past, ∀ n blockNum before fault key after e f db',
      Endorses net channel s db₀ n blockNum (before ++ .getState fault key :: after) e →
      submit channel s f db e = (.ok (), db') →
      (∀ w, snapshotRecord channel db₀ n s.ns key = some w → w.isDelete = false) →
      ∀ value, (getState fault key (simulate net channel s db₀ n blockNum before)).1 = .ok value →
        value = valuesAfter (sequentially done) before key) ∧
    (∀ n blockNum program e, Endorses net channel s db n blockNum program e → n + 1 < 2 ^ 63 →
      ∃ db', submit channel s Faults.none db e = (.ok (), db')) := by
  obtain ⟨hist, hinv⟩ := run.inv hs hnamed hc hf
  refine ⟨fun key => ?_, ?_, ?_⟩
  · exact ⟨_, hinv.accepted.refines.get_eq s.ns key, hinv.values key⟩
  · intro db₀ hpast n blockNum before fault key after e f db' he hsubmit hlive value hvalue
    exact hinv.answers hs hnamed hc hf hpast he hsubmit hlive hvalue
  · intro n blockNum program e he hsmall
    exact hinv.accepts_current hs hnamed hc hf he hsmall

/-- A backend of the sample network, which takes its envelopes as they are. -/
def sampleBackend : LocalSubmitter Proto.Envelope where
  packageTx := .ok
  parseTx := FabricTest.sampleFabricX.parser.parseTx
  ns := [110]
  monotonicVersions := true

theorem exists_endorses {db : Database} {n : ℕ}
    (hsnap : snapshot FabricTest.channel none db = .ok n) (blockNum : ℕ)
    (program : List State.Call) :
    ∃ e, Endorses FabricTest.sampleFabricX FabricTest.channel sampleBackend db n blockNum program
      e := by
  obtain ⟨e, hsub⟩ := Network.exists_submits (result Runtime.canonical
    (simulate FabricTest.sampleFabricX FabricTest.channel sampleBackend db n blockNum program))
  exact ⟨e, none, Runtime.canonical, _, e, hsnap, rfl, hsub⟩

/-- A second program reads what the first one wrote, and replaces it. -/
theorem local_backend_serializes_sample : ∃ e₁ e₂ db₁ db₂,
    submit FabricTest.channel sampleBackend Faults.none Database.empty e₁ = (.ok (), db₁) ∧
    submit FabricTest.channel sampleBackend Faults.none db₁ e₂ = (.ok (), db₂) ∧
    (getState none [107] (simulate FabricTest.sampleFabricX FabricTest.channel sampleBackend
      db₁ 1 2 [])).1 = .ok [1] ∧
    ∃ found, get FabricTest.channel none db₂ [110] [107] = .ok found ∧ liveValue found = [2] := by
  have hc : FabricTest.sampleFabricX.codecs.LawfulConfig := Proto.Codecs.protobuf_lawfulConfig
  have hf : FabricTest.sampleFabricX.codecs.LawfulFabric := Proto.Codecs.protobuf_lawfulFabric
  have hs : Serves FabricTest.sampleFabricX sampleBackend := ⟨rfl, rfl⟩
  have hnamed : Named FabricTest.sampleFabricX sampleBackend.ns := trivial
  have run₀ : Runs FabricTest.sampleFabricX FabricTest.channel sampleBackend Database.empty
    [Database.empty] [] := .empty
  have hfresh : snapshot FabricTest.channel none Database.empty = .ok 0 := rfl
  obtain ⟨e₁, he₁⟩ := exists_endorses hfresh 1 [.putState [107] [1]]
  obtain ⟨db₁, hsubmit₁⟩ :=
    (local_backend_serializes run₀ hs hnamed hc hf).2.2 0 1 _ e₁ he₁ (by decide)
  have run₁ := run₀.accepted (List.mem_singleton_self _) he₁ hsubmit₁
  -- the store is now at height one
  have hsnap : snapshot FabricTest.channel none db₁ = .ok 1 :=
    he₁.snapshot_submit hs hnamed hc hf rfl hsubmit₁
  obtain ⟨e₂, he₂⟩ := exists_endorses hsnap 2 [.getState none [107], .putState [107] [2]]
  obtain ⟨hvalues₁, hanswers, haccepts⟩ := local_backend_serializes run₁ hs hnamed hc hf
  obtain ⟨db₂, hsubmit₂⟩ := haccepts 1 2 _ e₂ he₂ (by decide)
  have run₂ := run₁.accepted (List.mem_append_right _ (List.mem_singleton_self _)) he₂ hsubmit₂
  obtain ⟨found₂, hfound₂, hlive₂⟩ := (local_backend_serializes run₂ hs hnamed hc hf).1 [107]
  obtain ⟨found₁, hfound₁, hlive₁⟩ := hvalues₁ [107]
  -- the second program reads the record of the first, which is not a tombstone
  obtain ⟨hist, hinv⟩ := run₁.inv hs hnamed hc hf
  have hat : getAt FabricTest.channel none db₁ [110] [107] 1 = .ok found₁ :=
    (snapshot_current hinv.accepted.refines (by decide) hsnap [110] [107]).trans
      ((hinv.accepted.refines.get_eq [110] [107]).symm.trans hfound₁)
  have hread : (getState none [107] (simulate FabricTest.sampleFabricX FabricTest.channel
      sampleBackend db₁ 1 2 [])).1 = .ok (liveValue found₁) := by
    rw [getState_value]
    exact congrArg (Except.map liveValue) hat
  have hpresent : ∀ w, snapshotRecord FabricTest.channel db₁ 1 [110] [107] = some w →
      w.isDelete = false := by
    intro w hw
    rw [snapshotRecord, hat] at hw
    cases hw
    cases hdelete : w.isDelete with
    | false => rfl
    | true =>
        have hnone : liveValue (some w) = [] := by simp [liveValue, Option.filter, hdelete]
        have hone : liveValue (some w) = [1] := hlive₁
        cases hnone.symm.trans hone
  have hone : liveValue found₁ = [1] := hanswers db₁
    (List.mem_append_right _ (List.mem_singleton_self _)) 1 2 [] none [107] _ e₂ _ db₂ he₂ hsubmit₂
    hpresent _ hread
  exact ⟨e₁, e₂, db₁, db₂, hsubmit₁, hsubmit₂, hone ▸ hread, found₂, hfound₂, hlive₂⟩

end Runs

end FabricXSdk.Local

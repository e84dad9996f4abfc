import FabricXSdk.Blocks.Exact
import FabricXSdk.State.Simulation

/-!
# The two version modes decide alike

Fabric-X records and compares a counter per key, Fabric the block and the position
of a write. Over one history both name the same record, so a program that was
recorded in either mode and validated in the same mode gets the same status.
-/

namespace FabricXSdk.State

open Golang Blocks Atomic

section Recording

/-- Two stores over one snapshot that have answered the same calls, each with the
markers of its own mode. -/
structure Parallel (answer : GoString → Option WriteRecord) (s s' : SimulationStore) : Prop where
  ns : s'.ns = s.ns
  snap : s'.snap = s.snap
  writes : s'.writes = s.writes
  keys : ∀ key, key ∈ s'.reads ↔ key ∈ s.reads
  marked : ∀ key r, s.reads.lookup key = some r →
    r = readMarker s.monotonicVersions key (answer key)
  marked' : ∀ key r, s'.reads.lookup key = some r →
    r = readMarker s'.monotonicVersions key (answer key)

variable {answer : GoString → Option WriteRecord} {s s' : SimulationStore}

/-- A marker keeps the reads of a store marked. -/
theorem marked_insert {key : GoString} {mode : Bool}
    (h : ∀ k r, s.reads.lookup k = some r → r = readMarker mode k (answer k)) :
    ∀ k r, (s.reads.insert key (readMarker mode key (answer key))).lookup k = some r →
      r = readMarker mode k (answer k) := by
  intro k r hr
  by_cases hk : k = key
  · subst hk
    rw [AList.lookup_insert] at hr
    exact (Option.some.inj hr).symm
  · rw [AList.lookup_insert_ne hk] at hr
    exact h k r hr

theorem Parallel.step (h : Parallel answer s s') (hs : Consistent s answer) (call : Call) :
    Parallel answer (call.step s) (call.step s') := by
  have hs' : Consistent s' answer := by
    intro fault key found hget
    rw [h.snap, h.ns] at hget
    exact hs fault key found hget
  cases call with
  | getState fault key =>
      have hmarks : Marks s' fault key ↔ Marks s fault key := by
        unfold Marks
        rw [h.writes, h.snap, h.ns]
      simp only [Call.step]
      by_cases hm : Marks s fault key
      · rw [(getState_eq hs fault key).1 hm, (getState_eq hs' fault key).1 (hmarks.mpr hm)]
        refine ⟨h.ns, h.snap, h.writes, ?_, marked_insert h.marked, marked_insert h.marked'⟩
        intro k
        simp only [AList.mem_insert, h.keys k]
      · rw [(getState_eq hs fault key).2 hm, (getState_eq hs' fault key).2 (mt hmarks.mp hm)]
        exact h
  | putState key value =>
      simp only [Call.step, putState]
      split
      · exact h
      · split
        · exact ⟨h.ns, h.snap, by simp only [delState, h.writes], h.keys, h.marked, h.marked'⟩
        · exact ⟨h.ns, h.snap, by simp only [h.writes], h.keys, h.marked, h.marked'⟩
  | delState key =>
      exact ⟨h.ns, h.snap, by simp only [Call.step, delState, h.writes], h.keys, h.marked,
        h.marked'⟩

theorem Parallel.runCalls (h : Parallel answer s s') (hs : Consistent s answer)
    (calls : List Call) : Parallel answer (runCalls s calls) (runCalls s' calls) := by
  induction calls generalizing s s' with
  | nil => exact h
  | cons call calls ih => exact ih (h.step hs call) ((extends_step hs call).consistent hs)

/-- The reads of a marked store are the markers of its keys. -/
theorem mem_result_reads_marked {rt : Runtime} {mode : Bool}
    (h : ∀ key r, s.reads.lookup key = some r → r = readMarker mode key (answer key))
    {r : KVRead} :
    r ∈ (result rt s).reads ↔ ∃ key ∈ s.reads, r = readMarker mode key (answer key) := by
  rw [mem_result_reads_iff]
  constructor
  · rintro ⟨key, hr⟩
    exact ⟨key, AList.lookup_isSome.mp (by rw [hr]; rfl), h key r hr⟩
  · rintro ⟨key, hkey, rfl⟩
    obtain ⟨r, hr⟩ := Option.isSome_iff_exists.mp (AList.lookup_isSome.mpr hkey)
    exact ⟨key, by rw [hr, h key r hr]⟩

end Recording

section Twins

/-- One program over one snapshot of an earlier state of the history, recorded with
monotonic versions on the left and with block and transaction numbers on the right. -/
def Recorded (channel : GoString) (hist : List Block) (n n' : NsReadWriteSet) : Prop :=
  ∃ db past more block blockNum calls rt rt', Accepted channel db past ∧ hist = past ++ more ∧
    n'.ns = n.ns ∧
    n.rws = result rt (runCalls (newSimulationStore (versionedSnapshot channel db block) n.ns
      blockNum true) calls) ∧
    n'.rws = result rt' (runCalls (newSimulationStore (versionedSnapshot channel db block) n.ns
      blockNum false) calls)

/-- A transaction recorded in both modes. -/
structure Twins (channel : GoString) (hist : List Block) (t t' : Transaction) : Prop where
  status : t'.status = t.status
  recorded : List.Forall₂ (Recorded channel hist) t.nsRWS t'.nsRWS

/-- Two transactions that write the same keys, under the strings the block keeps. -/
def SameWrites (t t' : Transaction) : Prop := ∀ k, k ∈ pendingKeys t' ↔ k ∈ pendingKeys t

variable {channel : GoString} {hist : List Block} {n n' : NsReadWriteSet} {t t' : Transaction}

/-- What the two recordings of a program have in common: the keys with a marker, the
records the markers stand for, and the writes. -/
theorem Recorded.reads_writes (h : Recorded channel hist n n') :
    n'.ns = n.ns ∧ (∀ w, w ∈ n'.rws.writes ↔ w ∈ n.rws.writes) ∧
    ∃ (K : GoString → Prop) (answer : GoString → Option WriteRecord),
      (∀ r, r ∈ n.rws.reads ↔ ∃ key, K key ∧ r = readMarker true key (answer key)) ∧
      (∀ r, r ∈ n'.rws.reads ↔ ∃ key, K key ∧ r = readMarker false key (answer key)) ∧
      ∀ key w, answer key = some w → w ∈ history hist n.ns key := by
  obtain ⟨db, past, more, block, blockNum, calls, rt, rt', run, rfl, hns, hrws, hrws'⟩ := h
  have hcons := consistent_versionedSnapshot channel db block n.ns blockNum true
  have hstart : Parallel (snapshotRecord channel db block n.ns)
      (newSimulationStore (versionedSnapshot channel db block) n.ns blockNum true)
      (newSimulationStore (versionedSnapshot channel db block) n.ns blockNum false) :=
    ⟨rfl, rfl, rfl, fun _ => Iff.rfl, nofun, nofun⟩
  have hpar := hstart.runCalls hcons calls
  have hmode := (extends_runCalls hcons calls).mode
  have hmode' := (extends_runCalls (consistent_versionedSnapshot channel db block n.ns blockNum
    false) calls).mode
  refine ⟨hns, ?_, fun key => key ∈ (runCalls (newSimulationStore
    (versionedSnapshot channel db block) n.ns blockNum true) calls).reads,
    snapshotRecord channel db block n.ns, ?_, ?_,
    fun key w hw => run.refines.snapshotRecord_mem more hw⟩
  · intro w
    rw [hrws, hrws', result, result, List.mem_map, List.mem_map, hpar.writes]
    simp only [(rt.rangeMap_perm _).mem_iff, (rt'.rangeMap_perm _).mem_iff]
  · intro r
    rw [hrws]
    have hmarked := hpar.marked
    rw [hmode] at hmarked
    exact mem_result_reads_marked hmarked
  · intro r
    have hmarked := hpar.marked'
    rw [hmode'] at hmarked
    rw [hrws', mem_result_reads_marked hmarked]
    simp only [hpar.keys]
    rfl

theorem Twins.sameWrites (h : Twins channel hist t t') : SameWrites t t' := by
  have hmem : ∀ {ns ns' : List NsReadWriteSet}, List.Forall₂ (Recorded channel hist) ns ns' →
      ∀ k, k ∈ ns'.flatMap (fun n => n.rws.writes.map fun w => pendingKey n.ns w.key) ↔
        k ∈ ns.flatMap fun n => n.rws.writes.map fun w => pendingKey n.ns w.key := by
    intro ns ns' hns k
    induction hns with
    | nil => rfl
    | cons hn _ ih =>
        obtain ⟨heq, hwrites, _⟩ := hn.reads_writes
        simp only [List.flatMap_cons, List.mem_append, ih, List.mem_map, heq, hwrites]
  exact hmem h.recorded

/-- The validator of either mode over the state of a history. -/
def validatorAt (channel : GoString) (db : Database) (codes : List (Status × Int))
    (monotonicVersions : Bool) : MVCCValidator :=
  ⟨get channel none db, codes, monotonicVersions⟩

theorem validatorAt_answers (channel : GoString) (db : Database) (codes : List (Status × Int))
    (mode : Bool) : (validatorAt channel db codes mode).db.Answers :=
  fun _ _ => ⟨_, rfl⟩

variable {db : Database} {codes : List (Status × Int)}

/-- A marker passes when its record is the live one, whatever the mode. -/
theorem checkRead_marker_iff (run : Accepted channel db hist) (mode : Bool) {ns key : GoString}
    {found : Option WriteRecord} (hfound : ∀ w, found = some w → w ∈ history hist ns key) :
    checkRead (validatorAt channel db codes mode) ns (readMarker mode key found) = none ↔
      (history hist ns key).getLast?.filter (fun rec => !rec.isDelete) = found := by
  rw [checkRead_eq_none, ← readMatches_marker_iff run.refines.inOrder mode hfound]
  have hget : (validatorAt channel db codes mode).db ns (readMarker mode key found).key =
      .ok (history hist ns key).getLast? := run.refines.get_eq ns key
  simp only [hget, Except.ok.injEq, exists_eq_left']
  rfl

/-- Both modes let the same recordings pass. -/
theorem Recorded.reads_pass_iff (run : Accepted channel db hist) (h : Recorded channel hist n n')
    {pending pending' : List GoString} (hp : ∀ k, k ∈ pending' ↔ k ∈ pending) :
    (∀ r ∈ n'.rws.reads, pendingKey n'.ns r.key ∉ pending' ∧
        checkRead (validatorAt channel db codes false) n'.ns r = none) ↔
      ∀ r ∈ n.rws.reads, pendingKey n.ns r.key ∉ pending ∧
        checkRead (validatorAt channel db codes true) n.ns r = none := by
  obtain ⟨hns, _, K, answer, hreads, hreads', hanswer⟩ := h.reads_writes
  have hside : ∀ (mode : Bool) (reads : List KVRead) (pw : List GoString),
      (∀ r, r ∈ reads ↔ ∃ key, K key ∧ r = readMarker mode key (answer key)) →
      (∀ k, k ∈ pw ↔ k ∈ pending) →
      ((∀ r ∈ reads, pendingKey n.ns r.key ∉ pw ∧
          checkRead (validatorAt channel db codes mode) n.ns r = none) ↔
        ∀ key, K key → pendingKey n.ns key ∉ pending ∧
          (history hist n.ns key).getLast?.filter (fun rec => !rec.isDelete) = answer key) := by
    intro mode reads pw hmem hpw
    simp only [hmem, hpw]
    constructor
    · intro hall key hK
      obtain ⟨hfree, hread⟩ := hall _ ⟨key, hK, rfl⟩
      exact ⟨hfree, (checkRead_marker_iff run mode (hanswer key)).mp hread⟩
    · rintro hall r ⟨key, hK, rfl⟩
      obtain ⟨hfree, hread⟩ := hall key hK
      exact ⟨hfree, (checkRead_marker_iff run mode (hanswer key)).mpr hread⟩
  rw [hns, hside false n'.rws.reads pending' hreads' hp,
    hside true n.rws.reads pending hreads fun _ => Iff.rfl]

/-- Twins get the same verdict over the same pending keys. -/
theorem Twins.checkTx_status (run : Accepted channel db hist) (h : Twins channel hist t t')
    {pending pending' : List GoString} (hp : ∀ k, k ∈ pending' ↔ k ∈ pending) :
    (checkTx (validatorAt channel db codes false) pending' t'.nsRWS).status =
      (checkTx (validatorAt channel db codes true) pending t.nsRWS).status := by
  have hcommitted : (checkTx (validatorAt channel db codes false) pending' t'.nsRWS).status =
      .committed ↔ (checkTx (validatorAt channel db codes true) pending t.nsRWS).status =
        .committed := by
    rw [checkTx_committed, checkTx_committed]
    have hall := h.recorded
    generalize t.nsRWS = ns, t'.nsRWS = ns' at hall
    induction hall with
    | nil => simp
    | cons hn _ ih =>
        rw [List.forall_mem_cons, List.forall_mem_cons]
        exact and_congr (hn.reads_pass_iff run hp) ih
  -- either verdict is committed or a conflict, so they agree when they agree on committed
  have hd := (checkTx_decided (validatorAt_answers channel db codes true) pending t.nsRWS).2
  have hd' := (checkTx_decided (validatorAt_answers channel db codes false) pending' t'.nsRWS).2
  rcases hd with hs | hs
  · rw [hs, hcommitted.mpr hs]
  · rcases hd' with hs' | hs'
    · rw [hcommitted.mp hs'] at hs
      cases hs
    · rw [hs, hs']

theorem mem_pendingAfter_iff {pending pending' : List GoString}
    (hp : ∀ k, k ∈ pending' ↔ k ∈ pending) (hw : SameWrites t t') (status : Status) (k : GoString) :
    k ∈ pendingAfter pending' status t' ↔ k ∈ pendingAfter pending status t := by
  unfold pendingAfter
  split
  · rw [List.mem_append, List.mem_append, hp k, hw k]
  · exact hp k

end Twins

section Blocks

variable {channel : GoString} {hist : List Block} {db : Database} {codes : List (Status × Int)}

/-- The statuses of a list of transactions. -/
def statuses (txs : List Transaction) : List Status := txs.map Transaction.status

theorem statuses_cons (t : Transaction) (txs : List Transaction) :
    statuses (t :: txs) = t.status :: statuses txs := rfl

theorem statuses_of_twins {txs txs' : List Transaction}
    (h : List.Forall₂ (Twins channel hist) txs txs') : statuses txs' = statuses txs := by
  induction h with
  | nil => rfl
  | cons ht _ ih => rw [statuses_cons, statuses_cons, ht.status, ih]

/-- One pass over twins: both loops stop, or both mark the same status and go on with
the same pending keys. -/
theorem validateFrom_twins (run : Accepted channel db hist) {t t' : Transaction}
    (ht : Twins channel hist t t') {pending pending' : List GoString}
    (hp : ∀ k, k ∈ pending' ↔ k ∈ pending) (txs txs' : List Transaction) :
    ((validateFrom (validatorAt channel db codes true) pending (t :: txs)).transactions = t :: txs ∧
      (validateFrom (validatorAt channel db codes false) pending' (t' :: txs')).transactions =
        t' :: txs') ∨
    ∃ m m' status, m.status = status ∧ m'.status = status ∧
      (validateFrom (validatorAt channel db codes true) pending (t :: txs)).transactions =
        m :: (validateFrom (validatorAt channel db codes true) (pendingAfter pending status t)
          txs).transactions ∧
      (validateFrom (validatorAt channel db codes false) pending' (t' :: txs')).transactions =
        m' :: (validateFrom (validatorAt channel db codes false)
          (pendingAfter pending' status t') txs').transactions := by
  have hstatus := @Twins.checkTx_status _ _ _ _ _ codes run ht _ _ hp
  -- the codes are the same in both modes
  by_cases hfits : 0 ≤ (validatorAt channel db codes true).codeFor
      (checkTx (validatorAt channel db codes true) pending t.nsRWS).status ∧
    (validatorAt channel db codes true).codeFor
      (checkTx (validatorAt channel db codes true) pending t.nsRWS).status ≤ 255
  · obtain ⟨m, _, hm, _, htxs⟩ := validateFrom_cons_of_fits
      (validatorAt_answers channel db codes true) txs rfl hfits
    obtain ⟨m', _, hm', _, htxs'⟩ := validateFrom_cons_of_fits
      (validatorAt_answers channel db codes false) txs' hstatus hfits
    exact Or.inr ⟨m, m', _, hm, hm', htxs, htxs'⟩
  · exact Or.inl ⟨(validateFrom_cons_of_not_fits txs rfl hfits).2,
      (validateFrom_cons_of_not_fits txs' hstatus hfits).2⟩

/-- Blocks of twins get the same statuses at every position. -/
theorem validateFrom_alike (run : Accepted channel db hist) {txs txs' : List Transaction}
    (h : List.Forall₂ (Twins channel hist) txs txs') {pending pending' : List GoString}
    (hp : ∀ k, k ∈ pending' ↔ k ∈ pending) :
    statuses (validateFrom (validatorAt channel db codes false) pending' txs').transactions =
      statuses (validateFrom (validatorAt channel db codes true) pending txs).transactions := by
  induction h generalizing pending pending' with
  | nil => rfl
  | @cons t t' txs txs' ht hrest ih =>
      rcases validateFrom_twins run ht hp txs txs' with
        ⟨htxs, htxs'⟩ | ⟨m, m', status, hm, hm', htxs, htxs'⟩
      · rw [htxs, htxs']
        exact statuses_of_twins (.cons ht hrest)
      · rw [htxs, htxs', statuses_cons, statuses_cons, hm, hm']
        exact congrArg _ (ih (mem_pendingAfter_iff hp ht.sameWrites status))

/-- A loop that returns no error has marked its first transaction and gone on. -/
theorem validateFrom_cons_of_no_error {mode : Bool} {pending : List GoString} {t : Transaction}
    {txs : List Transaction}
    (herr : (validateFrom (validatorAt channel db codes mode) pending (t :: txs)).err = none)
    (rest : List Transaction) :
    ∃ m, (validateFrom (validatorAt channel db codes mode) (pendingAfter pending m.status t)
        txs).err = none ∧
      (validateFrom (validatorAt channel db codes mode) pending (t :: txs)).transactions =
        m :: (validateFrom (validatorAt channel db codes mode) (pendingAfter pending m.status t)
          txs).transactions ∧
      statuses (validateFrom (validatorAt channel db codes mode) pending
          (t :: (txs ++ rest))).transactions =
        m.status :: statuses (validateFrom (validatorAt channel db codes mode)
          (pendingAfter pending m.status t) (txs ++ rest)).transactions := by
  have hfits : 0 ≤ (validatorAt channel db codes mode).codeFor
      (checkTx (validatorAt channel db codes mode) pending t.nsRWS).status ∧
    (validatorAt channel db codes mode).codeFor
      (checkTx (validatorAt channel db codes mode) pending t.nsRWS).status ≤ 255 := by
    by_contra hfits
    exact (validateFrom_cons_of_not_fits txs rfl hfits).1 herr
  obtain ⟨m, _, hm, herr₁, htxs⟩ := validateFrom_cons_of_fits
    (validatorAt_answers channel db codes mode) txs rfl hfits
  obtain ⟨m₂, _, hm₂, _, htxs₂⟩ := validateFrom_cons_of_fits
    (validatorAt_answers channel db codes mode) (txs ++ rest) rfl hfits
  rw [herr₁] at herr
  refine ⟨m, ?_, ?_, ?_⟩
  · rw [hm]
    exact herr
  · rw [hm]
    exact htxs
  · rw [htxs₂, statuses_cons, hm₂, hm]

/-- Behind transactions that write the same keys and get the same statuses, twins get
the same status. -/
theorem validateFrom_alike_at (run : Accepted channel db hist) {pre pre' : List Transaction}
    {tx tx' : Transaction} (hpre : List.Forall₂ SameWrites pre pre')
    (htx : Twins channel hist tx tx') (post post' : List Transaction)
    {pending pending' : List GoString} (hp : ∀ k, k ∈ pending' ↔ k ∈ pending)
    (herr : (validateFrom (validatorAt channel db codes true) pending pre).err = none)
    (herr' : (validateFrom (validatorAt channel db codes false) pending' pre').err = none)
    (hstatuses :
      statuses (validateFrom (validatorAt channel db codes false) pending' pre').transactions =
        statuses (validateFrom (validatorAt channel db codes true) pending pre).transactions) :
    (statuses (validateFrom (validatorAt channel db codes false) pending'
        (pre' ++ tx' :: post')).transactions)[pre'.length]? =
      (statuses (validateFrom (validatorAt channel db codes true) pending
        (pre ++ tx :: post)).transactions)[pre.length]? := by
  induction hpre generalizing pending pending' with
  | nil =>
      simp only [List.nil_append, List.length_nil]
      rcases @validateFrom_twins _ _ _ codes run _ _ htx _ _ hp post post' with
        ⟨htxs, htxs'⟩ | ⟨m, m', status, hm, hm', htxs, htxs'⟩
      · rw [htxs, htxs', statuses_cons, statuses_cons, htx.status]
        rfl
      · rw [htxs, htxs', statuses_cons, statuses_cons, hm, hm']
        rfl
  | @cons t t' pre pre' ht hrest ih =>
      obtain ⟨m, herr₁, htxs, hall⟩ := validateFrom_cons_of_no_error herr (tx :: post)
      obtain ⟨m', herr₁', htxs', hall'⟩ := validateFrom_cons_of_no_error herr' (tx' :: post')
      rw [htxs, htxs', statuses_cons, statuses_cons] at hstatuses
      obtain ⟨hm, htail⟩ := List.cons.inj hstatuses
      rw [hm] at herr₁' htail hall'
      simp only [List.cons_append, List.length_cons]
      rw [hall', hall, List.getElem?_cons_succ, List.getElem?_cons_succ]
      exact ih (mem_pendingAfter_iff hp ht m.status) herr₁ herr₁' htail

/-- A transaction recorded and validated with monotonic versions gets the status it
gets when it is recorded and validated with block and transaction numbers: in blocks
of such transactions, and at any position behind transactions that write the same
keys and get the same statuses. -/
theorem modes_decide_alike (run : Accepted channel db hist) (codes : List (Status × Int))
    (b b' : Block) :
    (List.Forall₂ (Twins channel hist) b.transactions b'.transactions →
      statuses (validate (validatorAt channel db codes true) b).1.transactions =
        statuses (validate (validatorAt channel db codes false) b').1.transactions) ∧
    ∀ pre tx post pre' tx' post', b.transactions = pre ++ tx :: post →
      b'.transactions = pre' ++ tx' :: post' → List.Forall₂ SameWrites pre pre' →
      Twins channel hist tx tx' →
      (validate (validatorAt channel db codes true) { b with transactions := pre }).2.2 = none →
      (validate (validatorAt channel db codes false) { b' with transactions := pre' }).2.2 = none →
      statuses (validate (validatorAt channel db codes true)
          { b with transactions := pre }).1.transactions =
        statuses (validate (validatorAt channel db codes false)
          { b' with transactions := pre' }).1.transactions →
      (statuses (validate (validatorAt channel db codes true) b).1.transactions)[pre.length]? =
        (statuses (validate (validatorAt channel db codes false)
          b').1.transactions)[pre'.length]? := by
  constructor
  · intro h
    exact (validateFrom_alike run h fun _ => Iff.rfl).symm
  · intro pre tx post pre' tx' post' hb hb' hpre htx herr herr' hstatuses
    rw [validate, validate, hb, hb']
    exact (validateFrom_alike_at run hpre htx post post' (fun _ => Iff.rfl) herr herr'
      hstatuses.symm).symm

end Blocks

section Sample

/-- The sample program over a snapshot, recorded in a mode. -/
def sampleRecorded (db : Database) (block : ℕ) (monotonicVersions : Bool) : Transaction :=
  { sampleTx 0 .unknown false [] with
    nsRWS := [⟨[110], result Runtime.canonical (runCalls (newSimulationStore
      (versionedSnapshot [99] db block) [110] block monotonicVersions) sampleProgram)⟩] }

theorem sampleRecorded_twins {db : Database} {hist : List Block} (run : Accepted [99] db hist)
    (more : List Block) (block : ℕ) :
    Twins [99] (hist ++ more) (sampleRecorded db block true) (sampleRecorded db block false) where
  status := rfl
  recorded := .cons ⟨db, hist, more, block, block, sampleProgram, Runtime.canonical,
    Runtime.canonical, run, rfl, rfl, rfl, rfl⟩ .nil

/-- A program that read the current record of its key, and one that read it before
the key was deleted and created again. -/
def sampleBoth (monotonicVersions : Bool) : Block :=
  sampleBlock 6 [sampleRecorded sampleLater 4 monotonicVersions,
    sampleRecorded sampleLater 1 monotonicVersions]

theorem modes_decide_alike_sample :
    Accepted [99] sampleLast
        (([sampleCreate, sampleDelete] ++ [sampleRecreate]) ++ [sampleInvalid]) ∧
      statuses (validate (validatorAt [99] sampleLast [] true) (sampleBoth true)).1.transactions =
        statuses (validate (validatorAt [99] sampleLast [] false)
          (sampleBoth false)).1.transactions ∧
      statuses (validate (validatorAt [99] sampleLast [] true)
        (sampleBoth true)).1.transactions = [.committed, .mvccConflict] := by
  refine ⟨sampleLast_accepted, ?_, by decide +kernel⟩
  apply (modes_decide_alike sampleLast_accepted [] (sampleBoth true) (sampleBoth false)).1
  exact .cons (sampleRecorded_twins sampleLater_accepted [sampleInvalid] 4)
    (.cons (sampleRecorded_twins sampleLater_accepted [sampleInvalid] 1) .nil)

end Sample

end FabricXSdk.State

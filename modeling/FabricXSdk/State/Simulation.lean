import FabricXSdk.State.Serializability

/-!
# Simulation on a snapshot

A `SimulationStore` runs the reads and writes of a program over a snapshot and
records them. What a program read from the snapshot is protected by validation
only as far as `GetState` left a read marker: it leaves one for a live record and
for an absent one, and none for a tombstone.
-/

namespace FabricXSdk.State

open Golang Blocks Atomic

/-- `Snapshot.Get`. The first argument is what the driver does to the query. -/
abbrev Snapshot := Option Text → GoString → GoString → Except Text (Option WriteRecord)

/-- `versionedSnapshot`: the store at the height it was opened at. -/
def versionedSnapshot (channel : GoString) (db : Database) (block : ℕ) : Snapshot :=
  fun fault ns key => getAt channel fault db ns key block

structure SimulationStore where
  ns : GoString
  snap : Snapshot
  blockNum : ℕ
  reads : GoMap KVRead
  writes : GoMap KVWrite
  monotonicVersions : Bool

def newSimulationStore (snap : Snapshot) (ns : GoString) (blockNum : ℕ)
    (monotonicVersions : Bool) : SimulationStore where
  ns := ns
  snap := snap
  blockNum := blockNum
  reads := ∅
  writes := ∅
  monotonicVersions := monotonicVersions

/-- The version a live record is read at. -/
def readVersion (monotonicVersions : Bool) (record : WriteRecord) : Version :=
  if monotonicVersions then ⟨record.version, 0⟩ else ⟨record.blockNum, record.txNum⟩

/-- `GetState`: the value or an error, and the store with the read recorded. -/
def getState (fault : Option Text) (key : GoString) (s : SimulationStore) :
    Except Text Bytes × SimulationStore :=
  match s.writes.lookup key with
  | some record => (.ok (if record.isDelete then [] else record.value), s)
  | none =>
      match s.snap fault s.ns key with
      | .error err => (.error err, s)
      | .ok none => (.ok [], { s with reads := s.reads.insert key ⟨key, none⟩ })
      | .ok (some record) =>
          -- Fabric doesn't add a read marker if the value is deleted.
          if record.isDelete then (.ok [], s)
          else
            (.ok record.value, { s with
              reads := s.reads.insert key
                ⟨key, some (readVersion s.monotonicVersions record)⟩ })

def delState (key : GoString) (s : SimulationStore) : Except Text Unit × SimulationStore :=
  (.ok (), { s with writes := s.writes.insert key ⟨key, true, []⟩ })

def putState (key : GoString) (value : Bytes) (s : SimulationStore) :
    Except Text Unit × SimulationStore :=
  if key.length = 0 then (.error [.lit "key is empty"], s)
  else if value.length = 0 then delState key s
  else (.ok (), { s with writes := s.writes.insert key ⟨key, false, value⟩ })

/-- `Result`: both maps are ranged over in an order of the runtime's choosing. -/
def result (rt : Runtime) (s : SimulationStore) : ReadWriteSet where
  reads := (rt.rangeMap s.reads.entries).map fun e => e.2
  writes := (rt.rangeMap s.writes.entries).map fun e => e.2

/-- One call of a program. -/
inductive Call
  | getState (fault : Option Text) (key : GoString)
  | putState (key : GoString) (value : Bytes)
  | delState (key : GoString)
  deriving DecidableEq, Repr

def Call.step (s : SimulationStore) : Call → SimulationStore
  | .getState fault key => (State.getState fault key s).2
  | .putState key value => (State.putState key value s).2
  | .delState key => (State.delState key s).2

/-- A program: its calls one after the other. -/
def runCalls (s : SimulationStore) (calls : List Call) : SimulationStore :=
  calls.foldl Call.step s

section Markers

/-- The snapshot answers each key with one record, whenever it answers. -/
def Consistent (s : SimulationStore) (answer : GoString → Option WriteRecord) : Prop :=
  ∀ fault key found, s.snap fault s.ns key = .ok found → found = answer key

/-- The read `GetState` records for a key with that record. -/
def readMarker (monotonicVersions : Bool) (key : GoString) (found : Option WriteRecord) : KVRead :=
  ⟨key, found.map (readVersion monotonicVersions)⟩

/-- `GetState` records a marker: the key is not written, and the snapshot answers
with something else than a tombstone. -/
def Marks (s : SimulationStore) (fault : Option Text) (key : GoString) : Prop :=
  s.writes.lookup key = none ∧
    ∃ found, s.snap fault s.ns key = .ok found ∧ ∀ w, found = some w → w.isDelete = false

/-- The store after `GetState`, with or without the marker. -/
theorem getState_eq {s : SimulationStore} {answer : GoString → Option WriteRecord}
    (hs : Consistent s answer) (fault : Option Text) (key : GoString) :
    (Marks s fault key → (getState fault key s).2 = { s with
      reads := s.reads.insert key (readMarker s.monotonicVersions key (answer key)) }) ∧
    (¬ Marks s fault key → (getState fault key s).2 = s) := by
  constructor
  · rintro ⟨hwrites, found, hget, hlive⟩
    rw [← hs fault key found hget]
    cases found with
    | none => simp only [getState, hwrites, hget, readMarker, Option.map_none]
    | some w =>
        simp only [getState, hwrites, hget, hlive w rfl, readMarker, Option.map_some,
          Bool.false_eq_true, if_false]
  · intro hmarks
    simp only [getState]
    split
    · rfl
    · rename_i hwrites
      split
      · rfl
      · rename_i hget
        exact absurd ⟨hwrites, none, hget, by simp⟩ hmarks
      · rename_i record hget
        split
        · rfl
        · rename_i hlive
          exact absurd ⟨hwrites, some record, hget, by simpa using hlive⟩ hmarks

/-- What `GetState` does to the reads: nothing, or it records the marker of the
snapshot's record, which is not a tombstone. -/
theorem getState_cases {s : SimulationStore} {answer : GoString → Option WriteRecord}
    (hs : Consistent s answer) (fault : Option Text) (key : GoString) :
    (getState fault key s).2 = s ∨
      (getState fault key s).2 = { s with
        reads := s.reads.insert key (readMarker s.monotonicVersions key (answer key)) } := by
  by_cases hm : Marks s fault key
  · exact Or.inr ((getState_eq hs fault key).1 hm)
  · exact Or.inl ((getState_eq hs fault key).2 hm)

/-- A value that comes from the snapshot, and what `GetState` recorded for it. -/
theorem getState_snapshot {s : SimulationStore} {answer : GoString → Option WriteRecord}
    (hs : Consistent s answer) {fault : Option Text} {key : GoString} {value : Bytes}
    (hw : s.writes.lookup key = none) (h : (getState fault key s).1 = .ok value)
    (hlive : ∀ w, answer key = some w → w.isDelete = false) :
    value = ((answer key).map WriteRecord.value).getD [] ∧
      (getState fault key s).2.reads.lookup key =
        some (readMarker s.monotonicVersions key (answer key)) := by
  simp only [getState, hw] at h ⊢
  split at h
  · cases h
  · rename_i hget
    cases h
    rw [← hs fault key none hget]
    simp [readMarker]
  · rename_i record hget
    have hans := hs fault key (some record) hget
    have hnot := hlive record hans.symm
    rw [if_neg (by simp [hnot])] at h ⊢
    cases h
    rw [← hans]
    simp [readMarker]

/-- A call keeps the snapshot and every read marker already there. -/
structure Extends (answer : GoString → Option WriteRecord) (s s' : SimulationStore) : Prop where
  ns : s'.ns = s.ns
  snap : s'.snap = s.snap
  mode : s'.monotonicVersions = s.monotonicVersions
  reads : ∀ key, s.reads.lookup key = some (readMarker s.monotonicVersions key (answer key)) →
    s'.reads.lookup key = some (readMarker s.monotonicVersions key (answer key))

theorem Extends.refl (answer : GoString → Option WriteRecord) (s : SimulationStore) :
    Extends answer s s := ⟨rfl, rfl, rfl, fun _ h => h⟩

theorem Extends.trans {answer : GoString → Option WriteRecord} {s t u : SimulationStore}
    (h : Extends answer s t) (h' : Extends answer t u) : Extends answer s u where
  ns := h'.ns.trans h.ns
  snap := h'.snap.trans h.snap
  mode := h'.mode.trans h.mode
  reads := fun key hr => by
    have ht := h.reads key hr
    rw [← h.mode] at ht ⊢
    exact h'.reads key ht

theorem Extends.consistent {answer : GoString → Option WriteRecord} {s s' : SimulationStore}
    (h : Extends answer s s') (hs : Consistent s answer) : Consistent s' answer := by
  intro fault key found hget
  rw [h.snap, h.ns] at hget
  exact hs fault key found hget

theorem extends_step {answer : GoString → Option WriteRecord} {s : SimulationStore}
    (hs : Consistent s answer) (call : Call) : Extends answer s (call.step s) := by
  cases call with
  | getState fault key =>
      rcases getState_cases hs fault key with heq | heq
      · rw [Call.step, heq]
        exact Extends.refl answer s
      · rw [Call.step, heq]
        refine ⟨rfl, rfl, rfl, fun key' hr => ?_⟩
        by_cases hk : key' = key
        · subst hk
          exact AList.lookup_insert _
        · rw [AList.lookup_insert_ne hk]
          exact hr
  | putState key value =>
      simp only [Call.step, putState]
      split
      · exact Extends.refl answer s
      · split
        · exact ⟨rfl, rfl, rfl, fun _ h => h⟩
        · exact ⟨rfl, rfl, rfl, fun _ h => h⟩
  | delState key => exact ⟨rfl, rfl, rfl, fun _ h => h⟩

theorem extends_runCalls {answer : GoString → Option WriteRecord} {s : SimulationStore}
    (hs : Consistent s answer) (calls : List Call) : Extends answer s (runCalls s calls) := by
  induction calls generalizing s with
  | nil => exact Extends.refl answer s
  | cons call calls ih =>
      have hstep := extends_step hs call
      exact hstep.trans (ih (hstep.consistent hs))

theorem runCalls_append (s : SimulationStore) (calls calls' : List Call) :
    runCalls s (calls ++ calls') = runCalls (runCalls s calls) calls' :=
  List.foldl_append ..

theorem mem_result_reads_iff {rt : Runtime} {s : SimulationStore} {r : KVRead} :
    r ∈ (result rt s).reads ↔ ∃ key, s.reads.lookup key = some r :=
  rt.mem_rangeMap_values

/-- A value read from the snapshot is protected by a marker in the result of the
whole program, unless the key was a tombstone. -/
theorem marker_mem_result {s : SimulationStore} {answer : GoString → Option WriteRecord}
    (hs : Consistent s answer) {calls : List Call} (calls' : List Call) {fault : Option Text}
    {key : GoString} {value : Bytes} (hw : (runCalls s calls).writes.lookup key = none)
    (h : (getState fault key (runCalls s calls)).1 = .ok value)
    (hlive : ∀ w, answer key = some w → w.isDelete = false) (rt : Runtime) :
    value = ((answer key).map WriteRecord.value).getD [] ∧
      readMarker s.monotonicVersions key (answer key) ∈
        (result rt (runCalls s (calls ++ .getState fault key :: calls'))).reads := by
  have hext := extends_runCalls hs calls
  have hs₁ := hext.consistent hs
  obtain ⟨hvalue, hread⟩ := getState_snapshot hs₁ hw h hlive
  -- the marker is there after the call, and no later call replaces it by another
  have hcall := extends_step hs₁ (.getState fault key)
  have hrest := (extends_runCalls (hcall.consistent hs₁) calls').reads key
  rw [hcall.mode, hext.mode] at hrest
  rw [hext.mode] at hread
  refine ⟨hvalue, ?_⟩
  rw [runCalls_append]
  exact mem_result_reads_iff.mpr ⟨key, hrest hread⟩

end Markers

section Current

/-- The value a key has under its latest record: none for an absent or deleted key. -/
def liveValue (found : Option WriteRecord) : Bytes :=
  ((found.filter fun w => !w.isDelete).map WriteRecord.value).getD []

/-- What `GetAt` answers when the query does not fail. -/
def snapshotRecord (channel : GoString) (db : Database) (block : ℕ) (ns key : GoString) :
    Option WriteRecord :=
  match getAt channel none db ns key block with
  | .ok found => found
  | .error _ => none

theorem snapshotRecord_eq_some {channel : GoString} {db : Database} {block : ℕ}
    {ns key : GoString} {w : WriteRecord} :
    snapshotRecord channel db block ns key = some w ↔
      getAt channel none db ns key block = .ok (some w) := by
  simp only [snapshotRecord]
  cases getAt channel none db ns key block with
  | ok found => simp
  | error err => simp

theorem versionedSnapshot_ok {channel : GoString} {db : Database} {block : ℕ}
    {fault : Option Text} {ns key : GoString} {found : Option WriteRecord}
    (h : versionedSnapshot channel db block fault ns key = .ok found) :
    getAt channel none db ns key block = .ok found := by
  cases fault with
  | none => exact h
  | some err =>
      simp only [versionedSnapshot, getAt, query] at h
      split at h
      · cases h
      · cases h

theorem consistent_versionedSnapshot (channel : GoString) (db : Database) (block : ℕ)
    (ns : GoString) (blockNum : ℕ) (monotonicVersions : Bool) :
    Consistent (newSimulationStore (versionedSnapshot channel db block) ns blockNum
      monotonicVersions) (snapshotRecord channel db block ns) := by
  intro fault key found h
  have hget : getAt channel none db ns key block = .ok found := versionedSnapshot_ok h
  rw [snapshotRecord, hget]

/-- A record of a snapshot is a record of every later history. -/
theorem Refines.snapshotRecord_mem {channel : GoString} {db : Database} {hist : List Block}
    (href : Refines channel db hist) (more : List Block) {block : ℕ} {ns key : GoString}
    {w : WriteRecord} (h : snapshotRecord channel db block ns key = some w) :
    w ∈ history (hist ++ more) ns key := by
  rw [snapshotRecord_eq_some] at h
  have hblock : block < 2 ^ 63 := by
    by_contra hge
    rw [getAt, if_pos (Nat.not_lt.mp hge)] at h
    cases h
  rw [href.getAt_filter ns key hblock] at h
  have hmem := List.mem_of_getLast? (Except.ok.inj h)
  rw [history_append]
  exact List.mem_append_left _ (List.mem_of_mem_filter hmem)

/-- Either version identifies a record among those of its key. -/
theorem eq_of_readVersion_eq {hist : List Block} (ho : InOrder hist) {ns key : GoString}
    {v w : WriteRecord} (hv : v ∈ history hist ns key) (hw : w ∈ history hist ns key)
    {monotonicVersions : Bool}
    (h : readVersion monotonicVersions v = readVersion monotonicVersions w) : v = w := by
  cases monotonicVersions with
  | true =>
      have hnd : ((history hist ns key).map WriteRecord.version).Nodup := by
        rw [history_versions]
        exact List.nodup_range
      exact List.inj_on_of_nodup_map hnd hv hw (by simpa [readVersion] using h)
  | false =>
      have hnd : ((history hist ns key).map fun w => toLex (w.blockNum, w.txNum)).Nodup :=
        List.Pairwise.imp (fun hlt => ne_of_lt hlt)
          (List.pairwise_map.mpr (history_pairwise ho ns key))
      exact List.inj_on_of_nodup_map hnd hv hw (by simpa [readVersion] using h)

/-- In either mode the marker of a record agrees with the last record of its key
exactly if it is the marker of the live one. -/
theorem readMatches_marker_iff {hist : List Block} (ho : InOrder hist) {ns key : GoString}
    (monotonicVersions : Bool) {found : Option WriteRecord}
    (hfound : ∀ w, found = some w → w ∈ history hist ns key) :
    ReadMatches monotonicVersions (history hist ns key).getLast?
        (readMarker monotonicVersions key found) ↔
      (history hist ns key).getLast?.filter (fun rec => !rec.isDelete) = found := by
  simp only [ReadMatches, readMarker]
  cases hlive : (history hist ns key).getLast?.filter (fun rec => !rec.isDelete) with
  | none => cases found <;> simp
  | some last =>
      obtain ⟨hlast, _⟩ := Option.filter_eq_some_iff.mp hlive
      cases found with
      | none => simp
      | some w =>
          have hver : readVersion monotonicVersions last = readVersion monotonicVersions w ↔
              last = w := by
            constructor
            · exact eq_of_readVersion_eq ho (List.mem_of_getLast? hlast) (hfound w rfl)
            · rintro rfl
              rfl
          rw [Option.some.injEq, ← hver]
          cases monotonicVersions with
          | true => simp [readVersion]
          | false => simp [readVersion]

/-- A marker that agrees with the last record of a key stands for its live value. -/
theorem liveValue_of_readMatches {hist : List Block} (ho : InOrder hist) {ns key : GoString}
    {monotonicVersions : Bool} {found : Option WriteRecord}
    (hfound : ∀ w, found = some w → w ∈ history hist ns key)
    (h : ReadMatches monotonicVersions (history hist ns key).getLast?
      (readMarker monotonicVersions key found)) :
    (found.map WriteRecord.value).getD [] = liveValue (history hist ns key).getLast? := by
  rw [liveValue, (readMatches_marker_iff ho monotonicVersions hfound).mp h]

/-- What a committed simulation read from its snapshot is still the live value of
the key when the transaction commits, unless the key was a tombstone in the
snapshot. -/
theorem committed_simulation_reads_current {channel : GoString} {db db' : Database}
    {hist more : List Block} (run : Accepted channel db hist)
    (later : Accepted channel db' (hist ++ more)) {ns : GoString} {block blockNum : ℕ}
    {s : SimulationStore} {l : MVCCValidator}
    (hs : s = newSimulationStore (versionedSnapshot channel db block) ns blockNum
      l.monotonicVersions)
    {calls calls' : List Call} {fault : Option Text} {key : GoString} {value : Bytes}
    (hw : (runCalls s calls).writes.lookup key = none)
    (hget : (getState fault key (runCalls s calls)).1 = .ok value)
    (hlive : ∀ w, getAt channel none db ns key block = .ok (some w) → w.isDelete = false)
    (hg : ReadsFrom channel db' l.db) {b b' : Block} {txFilter : List Byte} {err : Option Text}
    (hv : validate l b = (b', txFilter, err)) {pre post : List Transaction} {tx : Transaction}
    (hm : Marked b pre.length err) (ht : b'.transactions = pre ++ tx :: post)
    (hc : tx.status = .committed) {rt : Runtime}
    (hcarry : ⟨ns, result rt (runCalls s (calls ++ .getState fault key :: calls'))⟩ ∈ tx.nsRWS) :
    value = liveValue (recordBefore (hist ++ more) b' pre ns key) := by
  subst hs
  have hcons := consistent_versionedSnapshot channel db block ns blockNum l.monotonicVersions
  obtain ⟨hvalue, hmem⟩ := marker_mem_result hcons calls' hw hget
    (fun w h => hlive w (snapshotRecord_eq_some.mp h)) rt
  -- the marker is a read of the transaction, which validation has compared
  obtain ⟨hrec, hmatch⟩ := later.refines.committed_read hg hv hm ht hc hcarry hmem
  rw [readMarker] at hrec
  rw [hvalue, hrec]
  exact liveValue_of_readMatches later.refines.inOrder
    (fun w h => run.refines.snapshotRecord_mem more h) hmatch

end Current

section Sample

/-- A block that creates the deleted key of `sampleDb` again. -/
def sampleRecreate : Block := sampleBlock 4 [sampleTx 0 .committed false [9]]

/-- A block whose only transaction is invalid. -/
def sampleInvalid : Block := sampleBlock 5 [sampleTx 0 .mvccConflict false [10]]

def sampleLater : Database := applied [99] sampleDb sampleRecreate

def sampleLast : Database := applied [99] sampleLater sampleInvalid

theorem sampleLater_accepted :
    Accepted [99] sampleLater ([sampleCreate, sampleDelete] ++ [sampleRecreate]) := by
  have u : updateWorldState [99] [] sampleDb sampleRecreate = .ok sampleLater := rfl
  exact Accepted.next sampleDb_accepted (by decide) (List.pairwise_singleton _ _) u

theorem sampleLast_accepted : Accepted [99] sampleLast
    (([sampleCreate, sampleDelete] ++ [sampleRecreate]) ++ [sampleInvalid]) := by
  have u : updateWorldState [99] [] sampleLater sampleInvalid = .ok sampleLast := rfl
  exact Accepted.next sampleLater_accepted (by decide) (List.pairwise_singleton _ _) u

/-- A program that reads the key of the samples and writes another one. -/
def sampleProgram : List Call := [.getState none [107], .putState [113] [1]]

def sampleStore (db : Database) (block : ℕ) : SimulationStore :=
  newSimulationStore (versionedSnapshot [99] db block) [110] block false

def sampleValidator (db : Database) : MVCCValidator := ⟨get [99] none db, [], false⟩

/-- A transaction that carries the result of the program over a snapshot. -/
def sampleCarrying (db : Database) (block : ℕ) : Transaction :=
  { sampleTx 0 .unknown false [] with
    nsRWS := [⟨[110], result Runtime.canonical (runCalls (sampleStore db block) sampleProgram)⟩] }

/-- A key deleted in the snapshot is read as nil without a marker, so the program
commits although the key has been created again. -/
theorem tombstone_read_goes_stale :
    Accepted [99] sampleDb [sampleCreate, sampleDelete] ∧
      Accepted [99] sampleLater ([sampleCreate, sampleDelete] ++ [sampleRecreate]) ∧
      (sampleStore sampleDb 3).writes.lookup [107] = none ∧
      (getState none [107] (sampleStore sampleDb 3)).1 = .ok [] ∧
      ((validate (sampleValidator sampleLater)
        (sampleBlock 5 [sampleCarrying sampleDb 3])).1.transactions.map
          Transaction.status) = [.committed] ∧
      (validate (sampleValidator sampleLater)
        (sampleBlock 5 [sampleCarrying sampleDb 3])).2.2 = none ∧
      liveValue (recordBefore ([sampleCreate, sampleDelete] ++ [sampleRecreate])
        (sampleBlock 5 [sampleCarrying sampleDb 3]) [] [110] [107]) = [9] :=
  ⟨sampleDb_accepted, sampleLater_accepted, rfl, rfl, rfl, rfl, rfl⟩

theorem committed_simulation_reads_current_sample :
    (getState none [107] (sampleStore sampleLater 4)).1 = .ok [9] ∧
      [9] = liveValue (recordBefore
        (([sampleCreate, sampleDelete] ++ [sampleRecreate]) ++ [sampleInvalid])
        (sampleBlock 6 [(sampleCarrying sampleLater 4).setStatus .committed 99 []]) []
        [110] [107]) := by
  have hs : sampleStore sampleLater 4 = newSimulationStore (versionedSnapshot [99] sampleLater 4)
      [110] 4 (sampleValidator sampleLast).monotonicVersions := rfl
  have hlive : ∀ w, getAt [99] none sampleLater [110] [107] 4 = .ok (some w) →
      w.isDelete = false := by
    intro w hw
    cases hw
    rfl
  have hv : validate (sampleValidator sampleLast) (sampleBlock 6 [sampleCarrying sampleLater 4]) =
      (sampleBlock 6 [(sampleCarrying sampleLater 4).setStatus .committed 99 []], [99], none) := rfl
  have ht : (sampleBlock 6 [(sampleCarrying sampleLater 4).setStatus .committed 99 []]).transactions
      = [] ++ (sampleCarrying sampleLater 4).setStatus .committed 99 [] :: [] := rfl
  have hw : (runCalls (sampleStore sampleLater 4) []).writes.lookup [107] = none := rfl
  have hget : (getState none [107] (runCalls (sampleStore sampleLater 4) [])).1 = .ok [9] := rfl
  have hcarry : ⟨[110], result Runtime.canonical (runCalls (sampleStore sampleLater 4)
      ([] ++ .getState none [107] :: [.putState [113] [1]]))⟩ ∈
      ((sampleCarrying sampleLater 4).setStatus .committed 99 []).nsRWS := List.mem_cons_self
  exact ⟨rfl, committed_simulation_reads_current sampleLater_accepted sampleLast_accepted hs hw hget
    hlive (fun _ _ => ⟨none, rfl⟩) hv (Or.inl rfl) ht rfl hcarry⟩

end Sample

end FabricXSdk.State

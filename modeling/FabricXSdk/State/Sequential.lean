import FabricXSdk.State.Simulation

/-!
# The sequential meaning of a program

What a program over a snapshot should see, read off the list of its calls alone: a
key has the value of the last call that wrote it, and the snapshot's value before
that. The simulation store keeps two maps instead of the list. After every call the
maps are what the list says.
-/

namespace FabricXSdk.State

open Golang Blocks Atomic

/-- What a call writes. A put of nothing is a delete, and an empty key is refused by
`PutState` and not by `DelState`. -/
def Call.write : Call → Option KVWrite
  | .getState _ _ => none
  | .putState key value =>
      if key.length = 0 then none else some ⟨key, decide (value.length = 0), value⟩
  | .delState key => some ⟨key, true, []⟩

/-- The call returns an error. -/
def Call.Fails (s : SimulationStore) : Call → Prop
  | .getState fault key => ∃ err, (State.getState fault key s).1 = .error err
  | .putState key value => ∃ err, (State.putState key value s).1 = .error err
  | .delState key => ∃ err, (State.delState key s).1 = .error err

/-- The last operation on a key. -/
def lastWrite (calls : List Call) (key : GoString) : Option KVWrite :=
  ((calls.filterMap Call.write).filter fun w => w.key = key).getLast?

/-- The snapshot has an answer for the key, which is not a tombstone. -/
def Snapshot.Live (snap : Snapshot) (ns : GoString) (fault : Option Text) (key : GoString) : Prop :=
  ∃ found, snap fault ns key = .ok found ∧ ∀ w, found = some w → w.isDelete = false

/-- The key was read from the snapshot before its first write, and was not a
tombstone there. -/
def ReadFirst (snap : Snapshot) (ns : GoString) (calls : List Call) (key : GoString) : Prop :=
  ∃ pre fault post, calls = pre ++ .getState fault key :: post ∧ lastWrite pre key = none ∧
    snap.Live ns fault key

/-- What `GetState` should return after some calls. -/
def sequentialGet (snap : Snapshot) (ns : GoString) (calls : List Call) (fault : Option Text)
    (key : GoString) : Except Text Bytes :=
  match lastWrite calls key with
  | some w => .ok (if w.isDelete then [] else w.value)
  | none => (snap fault ns key).map liveValue

section Calls

variable {snap : Snapshot} {ns : GoString} {calls : List Call} {key : GoString}

theorem lastWrite_concat (calls : List Call) (call : Call) (key : GoString) :
    lastWrite (calls ++ [call]) key =
      match call.write with
      | none => lastWrite calls key
      | some w => if w.key = key then some w else lastWrite calls key := by
  rw [lastWrite, List.filterMap_append, List.filter_append]
  cases hw : call.write with
  | none => simp [hw, lastWrite]
  | some w =>
      by_cases hk : w.key = key
      · simp [hw, hk]
      · simp [hw, hk, lastWrite]

theorem key_of_lastWrite {w : KVWrite} (h : lastWrite calls key = some w) : w.key = key := by
  have hmem := List.mem_of_getLast? h
  simpa using (List.mem_filter.mp hmem).2

/-- A program has read a key first if it had before its last call, or if that call is
the read. -/
theorem readFirst_concat (call : Call) :
    ReadFirst snap ns (calls ++ [call]) key ↔ ReadFirst snap ns calls key ∨
      ∃ fault, call = .getState fault key ∧ lastWrite calls key = none ∧
        snap.Live ns fault key := by
  constructor
  · rintro ⟨pre, fault, post, hcalls, hlast, hlive⟩
    rcases List.eq_nil_or_concat post with rfl | ⟨post, last, rfl⟩
    · obtain ⟨rfl, hcall⟩ := List.append_inj' hcalls rfl
      exact Or.inr ⟨fault, List.singleton_inj.mp hcall, hlast, hlive⟩
    · left
      rw [List.concat_eq_append, ← List.cons_append, ← List.append_assoc] at hcalls
      exact ⟨pre, fault, post, (List.append_inj' hcalls rfl).1, hlast, hlive⟩
  · rintro (⟨pre, fault, post, rfl, hlast, hlive⟩ | ⟨fault, rfl, hlast, hlive⟩)
    · exact ⟨pre, fault, post ++ [call], by simp, hlast, hlive⟩
    · exact ⟨calls, fault, [], rfl, hlast, hlive⟩

end Calls

section Store

/-- The maps of a store say what the calls so far have done. -/
structure Tracks (snap : Snapshot) (ns : GoString) (mode : Bool)
    (answer : GoString → Option WriteRecord) (calls : List Call) (s : SimulationStore) : Prop where
  snap_eq : s.snap = snap
  ns_eq : s.ns = ns
  mode_eq : s.monotonicVersions = mode
  writes : ∀ key, s.writes.lookup key = lastWrite calls key
  reads : ∀ key r, s.reads.lookup key = some r ↔
    ReadFirst snap ns calls key ∧ r = readMarker mode key (answer key)

variable {snap : Snapshot} {ns : GoString} {mode : Bool} {answer : GoString → Option WriteRecord}
  {calls : List Call} {s : SimulationStore}

/-- The value `GetState` returns, from the write of the key or from the snapshot. -/
theorem getState_value (fault : Option Text) (key : GoString) (s : SimulationStore) :
    (getState fault key s).1 =
      match s.writes.lookup key with
      | some w => .ok (if w.isDelete then [] else w.value)
      | none => (s.snap fault s.ns key).map liveValue := by
  simp only [getState]
  cases s.writes.lookup key with
  | some w => rfl
  | none =>
      cases s.snap fault s.ns key with
      | error err => rfl
      | ok found =>
          cases found with
          | none => rfl
          | some w =>
              cases hd : w.isDelete with
              | true => simp [Except.map, liveValue, Option.filter, hd]
              | false => simp [Except.map, liveValue, Option.filter, hd]

theorem fails_step {call : Call} (h : call.Fails s) : call.step s = s := by
  cases call with
  | getState fault key =>
      obtain ⟨err, herr⟩ := h
      rw [Call.step]
      simp only [getState] at herr ⊢
      split at herr
      · cases herr
      · split at herr
        · rfl
        · cases herr
        · split at herr
          · cases herr
          · cases herr
  | putState key value =>
      obtain ⟨err, herr⟩ := h
      simp only [Call.step, putState] at herr ⊢
      split
      · rfl
      · rename_i hkey
        rw [if_neg hkey] at herr
        split at herr
        · cases herr
        · cases herr
  | delState key =>
      obtain ⟨err, herr⟩ := h
      cases herr

/-- A put or a delete changes the writes alone, as the call says. -/
theorem step_of_write {call : Call} {w : KVWrite} (h : call.write = some w) :
    call.step s = { s with writes := s.writes.insert w.key w } := by
  cases call with
  | getState fault key => cases h
  | putState key value =>
      simp only [Call.write] at h
      split at h
      · cases h
      · rename_i hkey
        cases h
        rw [Call.step, putState, if_neg hkey]
        by_cases hv : value.length = 0
        · rw [if_pos hv, List.length_eq_zero_iff.mp hv]
          rfl
        · rw [if_neg hv, decide_eq_false hv]
  | delState key =>
      cases h
      rfl

theorem Tracks.start (snap : Snapshot) (ns : GoString) (blockNum : ℕ) (mode : Bool)
    (answer : GoString → Option WriteRecord) :
    Tracks snap ns mode answer [] (newSimulationStore snap ns blockNum mode) where
  snap_eq := rfl
  ns_eq := rfl
  mode_eq := rfl
  writes := fun _ => rfl
  reads := by
    intro key r
    constructor
    · intro h
      cases h
    · rintro ⟨⟨pre, fault, post, hcalls, _⟩, _⟩
      simp at hcalls

/-- A put or a delete: the reads stay, as no call before it is another one now. -/
theorem Tracks.write (h : Tracks snap ns mode answer calls s) {call : Call} {w : KVWrite}
    (hw : call.write = some w) : Tracks snap ns mode answer (calls ++ [call]) (call.step s) := by
  rw [step_of_write hw]
  refine ⟨h.snap_eq, h.ns_eq, h.mode_eq, ?_, ?_⟩
  · intro key
    rw [lastWrite_concat, hw]
    by_cases hk : w.key = key
    · subst hk
      simp [AList.lookup_insert]
    · rw [AList.lookup_insert_ne (Ne.symm hk)]
      simp [hk, h.writes key]
  · intro key r
    have hnot : ¬ ∃ fault, call = .getState fault key ∧ lastWrite calls key = none ∧
        snap.Live ns fault key := by
      rintro ⟨fault, rfl, _⟩
      cases hw
    rw [readFirst_concat, or_iff_left hnot]
    exact h.reads key r

/-- A read: the writes stay, and the key gets its marker if this is a first read. -/
theorem Tracks.read (h : Tracks snap ns mode answer calls s) (hs : Consistent s answer)
    (fault : Option Text) (key : GoString) :
    Tracks snap ns mode answer (calls ++ [.getState fault key]) (getState fault key s).2 := by
  have hlast : ∀ k, lastWrite (calls ++ [.getState fault key]) k = lastWrite calls k :=
    fun k => lastWrite_concat calls (.getState fault key) k
  have hfirst : ∀ k, ReadFirst snap ns (calls ++ [.getState fault key]) k ↔
      ReadFirst snap ns calls k ∨ k = key ∧ Marks s fault key := by
    intro k
    rw [readFirst_concat]
    apply or_congr_right
    constructor
    · rintro ⟨_, hcall, hnone, hlive⟩
      cases hcall
      rw [← h.snap_eq, ← h.ns_eq] at hlive
      exact ⟨rfl, (h.writes key).trans hnone, hlive⟩
    · rintro ⟨rfl, hnone, hlive⟩
      rw [h.snap_eq, h.ns_eq] at hlive
      exact ⟨fault, rfl, (h.writes k).symm.trans hnone, hlive⟩
  by_cases hm : Marks s fault key
  · rw [(getState_eq hs fault key).1 hm]
    refine ⟨h.snap_eq, h.ns_eq, h.mode_eq, fun k => (h.writes k).trans (hlast k).symm, ?_⟩
    intro k r
    rw [hfirst, lookup_insert_eq_some, h.reads, h.mode_eq]
    by_cases hk : k = key
    · subst hk
      simp [hm, eq_comm]
    · simp [hk]
  · rw [(getState_eq hs fault key).2 hm]
    refine ⟨h.snap_eq, h.ns_eq, h.mode_eq, fun k => (h.writes k).trans (hlast k).symm, ?_⟩
    intro k r
    rw [hfirst, h.reads]
    simp [hm]

theorem Tracks.step (h : Tracks snap ns mode answer calls s) (hs : Consistent s answer)
    (call : Call) : Tracks snap ns mode answer (calls ++ [call]) (call.step s) := by
  cases hw : call.write with
  | some w => exact h.write hw
  | none =>
      cases call with
      | getState fault key => exact h.read hs fault key
      | delState key => cases hw
      | putState key value =>
          -- the put was refused
          have hkey : key.length = 0 := by
            by_contra hkey
            simp [Call.write, hkey] at hw
          have hstep : Call.step s (.putState key value) = s := by
            rw [Call.step, putState, if_pos hkey]
          rw [hstep]
          refine ⟨h.snap_eq, h.ns_eq, h.mode_eq, ?_, ?_⟩
          · intro k
            rw [lastWrite_concat, hw]
            exact h.writes k
          · intro k r
            rw [readFirst_concat, h.reads]
            simp

/-- After any calls the maps are what the list of calls says. -/
theorem runCalls_tracks (hs : ∀ fault key found, snap fault ns key = .ok found → found = answer key)
    (blockNum : ℕ) (calls : List Call) :
    Tracks snap ns mode answer calls
      (runCalls (newSimulationStore snap ns blockNum mode) calls) := by
  induction calls using List.reverseRecOn with
  | nil => exact Tracks.start snap ns blockNum mode answer
  | append_singleton calls call ih =>
      have hcons :
          Consistent (runCalls (newSimulationStore snap ns blockNum mode) calls) answer := by
        intro fault key found hget
        rw [ih.snap_eq, ih.ns_eq] at hget
        exact hs fault key found hget
      rw [runCalls_append]
      exact ih.step hcons call

theorem Tracks.nodup_writes (h : Tracks snap ns mode answer calls s) (rt : Runtime) :
    ((result rt s).writes.map KVWrite.key).Nodup := by
  apply rt.nodup_rangeMap_keys
  intro key w hw
  rw [h.writes] at hw
  exact key_of_lastWrite hw

theorem Tracks.mem_writes (h : Tracks snap ns mode answer calls s) (rt : Runtime) (w : KVWrite) :
    w ∈ (result rt s).writes ↔ lastWrite calls w.key = some w := by
  rw [result, rt.mem_rangeMap_values]
  constructor
  · rintro ⟨key, hw⟩
    rw [h.writes] at hw
    rw [key_of_lastWrite hw, hw]
  · intro hw
    exact ⟨w.key, (h.writes w.key).trans hw⟩

theorem Tracks.nodup_reads (h : Tracks snap ns mode answer calls s) (rt : Runtime) :
    ((result rt s).reads.map KVRead.key).Nodup := by
  apply rt.nodup_rangeMap_keys
  intro key r hr
  rw [((h.reads key r).mp hr).2]
  rfl

theorem Tracks.mem_reads (h : Tracks snap ns mode answer calls s) (rt : Runtime) (r : KVRead) :
    r ∈ (result rt s).reads ↔
      ReadFirst snap ns calls r.key ∧ r.version = (answer r.key).map (readVersion mode) := by
  rw [mem_result_reads_iff]
  constructor
  · rintro ⟨key, hr⟩
    obtain ⟨hfirst, rfl⟩ := (h.reads key r).mp hr
    exact ⟨hfirst, rfl⟩
  · rintro ⟨hfirst, hversion⟩
    refine ⟨r.key, (h.reads r.key r).mpr ⟨hfirst, ?_⟩⟩
    rw [readMarker, ← hversion]

/-- The simulation store computes the sequential meaning of its calls: the value of
every read, one entry in the result for each key written or read first, and nothing
recorded by a call that fails. -/
theorem runCalls_sequential (snap : Snapshot) (ns : GoString) (blockNum : ℕ) (mode : Bool)
    (answer : GoString → Option WriteRecord)
    (hs : ∀ fault key found, snap fault ns key = .ok found → found = answer key) (rt : Runtime)
    (calls : List Call) {s : SimulationStore}
    (hrun : s = runCalls (newSimulationStore snap ns blockNum mode) calls) :
    (∀ fault key, (getState fault key s).1 = sequentialGet snap ns calls fault key) ∧
    ((result rt s).writes.map KVWrite.key).Nodup ∧
    (∀ w, w ∈ (result rt s).writes ↔ lastWrite calls w.key = some w) ∧
    ((result rt s).reads.map KVRead.key).Nodup ∧
    (∀ r, r ∈ (result rt s).reads ↔ ReadFirst snap ns calls r.key ∧
      r.version = (answer r.key).map (readVersion mode)) ∧
    ∀ call : Call, call.Fails s → call.step s = s := by
  have h : Tracks snap ns mode answer calls s := by
    rw [hrun]
    exact runCalls_tracks hs blockNum calls
  refine ⟨?_, h.nodup_writes rt, h.mem_writes rt, h.nodup_reads rt, h.mem_reads rt,
    fun call hfails => fails_step hfails⟩
  intro fault key
  rw [getState_value, sequentialGet, h.writes, h.snap_eq, h.ns_eq]

end Store

section Sample

/-- A program that reads a key, deletes it by an empty put, writes another key and
reads that one. -/
def sampleCalls : List Call :=
  [.getState none [107], .putState [107] [], .putState [113] [1], .putState [113] [2],
    .getState none [113]]

theorem runCalls_sequential_sample :
    (getState none [113] (runCalls (sampleStore sampleLater 4) sampleCalls)).1 = .ok [2] ∧
      (getState none [107] (runCalls (sampleStore sampleLater 4) sampleCalls)).1 = .ok [] ∧
      ⟨[107], true, []⟩ ∈
        (result Runtime.canonical (runCalls (sampleStore sampleLater 4) sampleCalls)).writes ∧
      ⟨[107], some ⟨4, 0⟩⟩ ∈
        (result Runtime.canonical (runCalls (sampleStore sampleLater 4) sampleCalls)).reads ∧
      ¬ ReadFirst (versionedSnapshot [99] sampleLater 4) [110] sampleCalls [113] := by
  have hs := consistent_versionedSnapshot [99] sampleLater 4 [110] 4 false
  obtain ⟨hget, _, hwrites, _, hreads, _⟩ := runCalls_sequential
    (versionedSnapshot [99] sampleLater 4) [110] 4 false (snapshotRecord [99] sampleLater 4 [110])
    hs Runtime.canonical sampleCalls rfl
  refine ⟨hget none [113], hget none [107], (hwrites ⟨[107], true, []⟩).mpr rfl, ?_, ?_⟩
  · apply (hreads ⟨[107], some ⟨4, 0⟩⟩).mpr
    have hlive : Snapshot.Live (versionedSnapshot [99] sampleLater 4) [110] none [107] := by
      refine ⟨snapshotRecord [99] sampleLater 4 [110] [107], rfl, ?_⟩
      intro w hw
      cases hw
      rfl
    exact ⟨⟨[], none, sampleCalls.tail, rfl, rfl, hlive⟩, rfl⟩
  · intro hfirst
    have hmem := (hreads ⟨[113], none⟩).mpr ⟨hfirst, rfl⟩
    revert hmem
    decide

end Sample

end FabricXSdk.State

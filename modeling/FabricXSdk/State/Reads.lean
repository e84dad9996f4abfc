import FabricXSdk.State.History
import Mathlib.Data.List.Induction

/-!
# What the queries answer

Every query of the store answers from the abstract history: the last write, the
last write at or below a height, all writes in order, and the last block. The
version order the reads sort by, the block and transaction order of `GetHistory`
and the order of insertion coincide.
-/

namespace FabricXSdk.State

open Golang Blocks Atomic VersionLog

/-- The databases that accepted updates can lead to, with the blocks applied to
one channel. Blocks of the channel come in order, applied blocks may come again,
and other channels share the tables. -/
inductive Accepted (channel : GoString) : Database → List Block → Prop
  | empty : Accepted channel Database.empty []
  | next {db db' hist b driver} (run : Accepted channel db hist)
      (hlt : ∀ a ∈ hist, a.number < b.number) (hb : b.InOrder)
      (h : updateWorldState channel driver db b = .ok db') : Accepted channel db' (hist ++ [b])
  | replay {db db' hist b b' driver} (run : Accepted channel db hist) (hb : b ∈ hist)
      (hn : b'.number = b.number) (ht : b'.transactions = b.transactions)
      (h : updateWorldState channel driver db b' = .ok db') : Accepted channel db' hist
  | other {db db' hist b channel' driver} (run : Accepted channel db hist)
      (hc : channel' ≠ channel) (h : updateWorldState channel' driver db b = .ok db') :
      Accepted channel db' hist

/-- Accepted updates keep the tables a refinement of the history. -/
theorem Accepted.refines {channel : GoString} {db : Database} {hist : List Block}
    (run : Accepted channel db hist) : Refines channel db hist := by
  induction run with
  | empty => exact refines_empty channel
  | next _ hlt hb h ih =>
      obtain ⟨_, _, rfl⟩ := updateWorldState_ok h
      exact ih.next hlt hb
  | replay _ hb hn ht h ih =>
      obtain ⟨_, _, rfl⟩ := updateWorldState_ok h
      rw [ih.replay hb hn ht]
      exact ih
  | other _ hc h ih =>
      obtain ⟨_, _, rfl⟩ := updateWorldState_ok h
      exact ih.other hc

section Refined

variable {channel : GoString} {db : Database} {hist : List Block}

/-- The rows of a key read out as its history. -/
theorem Refines.toRecord (h : Refines channel db hist) (ns key : GoString) :
    (db.rowsOf channel ns key).map Row.toRecord = history hist ns key := by
  have hnum : (db.rowsOf channel ns key).map Row.version =
      List.range (db.rowsOf channel ns key).length := h.numbered (channel, ns, key)
  rw [history, ← h.rows ns key]
  apply List.ext_getElem
  · simp
  · intro i hi hi'
    have hi : i < (db.rowsOf channel ns key).length := by simpa using hi
    have hver : ((db.rowsOf channel ns key)[i]).version = i := by
      have := congrArg (fun l => l[i]?) hnum
      simpa [List.getElem?_eq_getElem hi, List.getElem?_range hi] using this
    have hmem : (db.rowsOf channel ns key)[i] ∈ db.rowsOf channel ns key := List.getElem_mem hi
    have hkey : rowSchema.key (db.rowsOf channel ns key)[i] = (channel, ns, key) :=
      ((mem_ofKey rowSchema).mp hmem).2
    simp only [rowSchema, Prod.mk.injEq] at hkey
    simp [Write.record, Row.toWrite, Row.toRecord, hver, hkey.2.1, hkey.2.2]

theorem Refines.version_pairwise (h : Refines channel db hist) (ns key : GoString) :
    (db.rowsOf channel ns key).Pairwise fun a b => rowSchema.version a < rowSchema.version b :=
  numbered_pairwise rowSchema (h.numbered (channel, ns, key))

theorem Refines.stamp_pairwise (h : Refines channel db hist) (ns key : GoString) :
    (db.rowsOf channel ns key).Pairwise fun a b => rowSchema.stamp a < rowSchema.stamp b := by
  have hp := writesTo_pairwise h.inOrder ns key
  rw [← h.rows ns key, List.pairwise_map] at hp
  exact hp

theorem Refines.get_eq (h : Refines channel db hist) (ns key : GoString) :
    get channel none db ns key = .ok (history hist ns key).getLast? := by
  unfold get query
  rw [latest_eq_getLast? rowSchema (h.version_pairwise ns key), ← h.toRecord ns key,
    List.getLast?_map]

theorem Refines.getHistory_eq (h : Refines channel db hist) (ns key : GoString) :
    getHistory channel none db ns key = .ok (history hist ns key) := by
  unfold getHistory
  rw [inStampOrder_eq_self rowSchema (h.stamp_pairwise ns key), h.toRecord ns key]

theorem Refines.getAt_filter (h : Refines channel db hist) (ns key : GoString) {lastBlock : ℕ}
    (hl : lastBlock < 2 ^ 63) :
    getAt channel none db ns key lastBlock =
      .ok ((history hist ns key).filter fun r => r.blockNum ≤ lastBlock).getLast? := by
  unfold getAt query
  rw [if_neg (Nat.not_le.mpr hl),
    latest_eq_getLast? rowSchema ((h.version_pairwise ns key).filter _),
    ← h.toRecord ns key, List.filter_map, List.getLast?_map]
  rfl

theorem Refines.blockNumber_eq (h : Refines channel db hist) :
    blockNumber channel none db = .ok ((hist.map Block.number).max?.getD 0) := by
  unfold blockNumber query
  rw [h.progress]
  cases hl : hist.getLast? with
  | none =>
      rw [List.getLast?_eq_none_iff] at hl
      subst hl
      rfl
  | some last =>
      have hmax : (hist.map Block.number).max? = some last.number := by
        rw [List.max?_eq_some_iff]
        refine ⟨List.mem_map_of_mem (List.mem_of_getLast? hl), ?_⟩
        intro n hn
        obtain ⟨b, hb, rfl⟩ := List.mem_map.mp hn
        obtain ⟨m, hm, hle⟩ := h.number_le_last hb
        rw [h.progress, hl] at hm
        cases hm
        exact hle
      simp [hmax]

end Refined

theorem history_append (hist hist' : List Block) (ns key : GoString) :
    history (hist ++ hist') ns key = history hist ns key ++ (writesTo hist' ns key).mapIdx
      fun i => Write.record ns key (i + (writesTo hist ns key).length) := by
  rw [history, writesTo_append, List.mapIdx_append]
  rfl

theorem blockNum_of_mem_history {hist : List Block} {ns key : GoString} {r : WriteRecord}
    (h : r ∈ history hist ns key) : ∃ b ∈ hist, r.blockNum = b.number := by
  obtain ⟨i, hi, rfl⟩ := List.mem_mapIdx.mp h
  obtain ⟨b, hb, hw⟩ := mem_writesTo.mp (List.getElem_mem hi)
  exact ⟨b, hb, blockNum_of_mem_blockWrites hw⟩

/-- In an ordered history the blocks up to a height come first, so cutting the
records of a key at the height is the same as cutting the history. -/
theorem history_filter {hist : List Block} (ho : hist.Pairwise fun a b => a.number < b.number)
    (ns key : GoString) (n : ℕ) :
    (history hist ns key).filter (fun r => r.blockNum ≤ n) =
      history (hist.filter fun b => b.number ≤ n) ns key := by
  induction hist using List.reverseRecOn with
  | nil => rfl
  | append_singleton hist b ih =>
      obtain ⟨ho, _, hlast⟩ := List.pairwise_append.mp ho
      -- induction from the end: if the last block is below the height, so are all
      by_cases hb : b.number ≤ n
      · have hall : ∀ a ∈ hist ++ [b], a.number ≤ n := by
          intro a ha
          rcases List.mem_append.mp ha with ha | ha
          · exact (hlast a ha b (List.mem_singleton.mpr rfl)).le.trans hb
          · rwa [List.mem_singleton.mp ha]
        have hhist : (hist ++ [b]).filter (fun a => a.number ≤ n) = hist ++ [b] :=
          List.filter_eq_self.mpr fun a ha => by simpa using hall a ha
        rw [hhist, List.filter_eq_self]
        intro r hr
        obtain ⟨a, ha, heq⟩ := blockNum_of_mem_history hr
        simpa [heq] using hall a ha
      · have hnone : ((writesTo [b] ns key).mapIdx fun i =>
            Write.record ns key (i + (writesTo hist ns key).length)).filter
              (fun r => r.blockNum ≤ n) = [] := by
          rw [List.filter_eq_nil_iff]
          intro r hr
          obtain ⟨i, hi, rfl⟩ := List.mem_mapIdx.mp hr
          obtain ⟨a, ha, hw⟩ := mem_writesTo.mp (List.getElem_mem hi)
          rw [List.mem_singleton.mp ha] at hw
          simpa [Write.record, blockNum_of_mem_blockWrites hw] using hb
        rw [history_append, List.filter_append, ih ho, hnone, List.append_nil,
          List.filter_append]
        simp [hb]

/-- What a block update met is what it leaves: each row of the block finds its
own content at its primary key. -/
theorem selectIn_of_agrees {rows rs : List Row} (h : Agrees rows rs) {r : Row} (hr : r ∈ rs) :
    ∃ x, selectIn (insertAll rowSchema rows rs) r = some x ∧ SameContent x r := by
  induction rs generalizing rows with
  | nil => cases hr
  | cons r' rs ih =>
      rcases List.mem_cons.mp hr with rfl | hr
      · obtain ⟨x, hx, hs⟩ : ∃ x, selectIn (insert rowSchema rows r) r = some x ∧
            SameContent x r := by
          cases hsel : selectIn rows r with
          | some x => exact ⟨x, selectIn_insert_of_some hsel, h.1 x hsel⟩
          | none => exact ⟨_, selectIn_insert_self hsel, rfl, rfl, rfl⟩
        exact ⟨x, by rw [insertAll_cons]; exact selectIn_insertAll_of_some hx, hs⟩
      · exact ih h.2 hr

/-- Every write of a valid transaction of an applied block is in the history. -/
theorem Accepted.write_mem_history {channel : GoString} {db : Database} {hist : List Block}
    (run : Accepted channel db hist) {b : Block} (hb : b ∈ hist) {tx : Transaction}
    (htx : tx ∈ b.transactions) (hv : tx.valid = true) {n : NsReadWriteSet} (hn : n ∈ tx.nsRWS)
    {w : KVWrite} (hw : w ∈ n.rws.writes) :
    ∃ r ∈ history hist n.ns w.key, r.blockNum = b.number ∧ r.txNum = tx.number ∧
      r.value = w.value ∧ r.isDelete = w.isDelete ∧ r.txID = tx.id := by
  induction run with
  | empty => cases hb
  | @next db db' hist b' driver run hlt hb' h ih =>
      rcases List.mem_append.mp hb with hb | hb
      · obtain ⟨r, hr, heq⟩ := ih hb
        exact ⟨r, by rw [history_append]; exact List.mem_append_left _ hr, heq⟩
      · obtain rfl := List.mem_singleton.mp hb
        obtain ⟨_, hag, rfl⟩ := updateWorldState_ok h
        have href := run.refines.next hlt hb'
        have hrow : writeRow channel b.number tx n.ns w ∈ blockRows channel b :=
          List.mem_flatMap.mpr ⟨tx, htx, mem_txRows.mpr ⟨hv, n, hn, w, hw, rfl⟩⟩
        -- the row was inserted, or met one with its own content
        obtain ⟨x, hx, hvalue, hdel, hid⟩ := selectIn_of_agrees hag hrow
        obtain ⟨hmem, hstamp⟩ := selectIn_eq_some hx
        have hrec : x.toRecord ∈ history (hist ++ [b]) n.ns w.key := by
          rw [← href.toRecord n.ns w.key]
          refine List.mem_map_of_mem ?_
          rw [Database.rowsOf, applied_worldstate]
          exact hmem
        exact ⟨x.toRecord, hrec, congrArg (fun p => (ofLex p).1) hstamp,
          congrArg (fun p => (ofLex p).2) hstamp, hvalue, hdel, hid⟩
  | replay _ _ _ _ _ ih => exact ih hb
  | other _ _ _ ih => exact ih hb

/-- Every record of the history is the write of a valid transaction. -/
theorem valid_of_mem_history {hist : List Block} {ns key : GoString} {r : WriteRecord}
    (h : r ∈ history hist ns key) :
    ∃ b ∈ hist, ∃ tx ∈ b.transactions, tx.valid = true ∧ r.blockNum = b.number ∧
      r.txNum = tx.number ∧ r.txID = tx.id ∧ ∃ n ∈ tx.nsRWS, n.ns = ns ∧
        ∃ w ∈ n.rws.writes, w.key = key ∧ r.value = w.value ∧ r.isDelete = w.isDelete := by
  obtain ⟨i, hi, rfl⟩ := List.mem_mapIdx.mp h
  obtain ⟨b, hb, hw⟩ := mem_writesTo.mp (List.getElem_mem hi)
  obtain ⟨tx, htx, hc⟩ := mem_blockWrites.mp hw
  obtain ⟨hv, kv, hkv, heq⟩ := committedWrite_eq_some.mp hc
  obtain ⟨n, hn, hns, hkv, hkey⟩ := writeTo_eq_some hkv
  rw [heq]
  exact ⟨b, hb, tx, htx, hv, rfl, rfl, rfl, n, hn, hns, kv, hkv, hkey, rfl, rfl⟩

theorem history_versions (hist : List Block) (ns key : GoString) :
    (history hist ns key).map WriteRecord.version = List.range (history hist ns key).length := by
  apply List.ext_getElem
  · simp [history]
  · intro i hi hi'
    simp [history, Write.record]

theorem history_pairwise {hist : List Block} (ho : InOrder hist) (ns key : GoString) :
    (history hist ns key).Pairwise fun v w =>
      toLex (v.blockNum, v.txNum) < toLex (w.blockNum, w.txNum) := by
  have hp := List.pairwise_iff_getElem.mp (writesTo_pairwise ho ns key)
  rw [List.pairwise_iff_getElem]
  intro i j hi hj hij
  simpa [history, Write.record] using
    hp i j (by simpa [history] using hi) (by simpa [history] using hj) hij

/-- The versioned store is the fold of its history, for every mix of new blocks,
replayed blocks and blocks of other channels. -/
theorem accepted_store_folds_history {channel : GoString} {db : Database} {hist : List Block}
    (run : Accepted channel db hist) (ns key : GoString) :
    (∀ h < 2 ^ 63, getAt channel none db ns key h =
      .ok (history (hist.filter fun b => b.number ≤ h) ns key).getLast?) ∧
    get channel none db ns key = .ok (history hist ns key).getLast? ∧
    getHistory channel none db ns key = .ok (history hist ns key) ∧
    (history hist ns key).map WriteRecord.version = List.range (history hist ns key).length ∧
    ((history hist ns key).Pairwise fun v w =>
      toLex (v.blockNum, v.txNum) < toLex (w.blockNum, w.txNum)) ∧
    blockNumber channel none db = .ok ((hist.map Block.number).max?.getD 0) ∧
    (∀ b ∈ hist, ∀ tx ∈ b.transactions, tx.valid = true → ∀ n ∈ tx.nsRWS, n.ns = ns →
      ∀ w ∈ n.rws.writes, w.key = key → ∃ r ∈ history hist ns key, r.blockNum = b.number ∧
        r.txNum = tx.number ∧ r.value = w.value ∧ r.isDelete = w.isDelete ∧ r.txID = tx.id) ∧
    (∀ r ∈ history hist ns key, ∃ b ∈ hist, ∃ tx ∈ b.transactions, tx.valid = true ∧
      r.blockNum = b.number ∧ r.txNum = tx.number ∧ r.txID = tx.id ∧
      ∃ n ∈ tx.nsRWS, n.ns = ns ∧ ∃ w ∈ n.rws.writes, w.key = key ∧ r.value = w.value ∧
        r.isDelete = w.isDelete) := by
  have href := run.refines
  refine ⟨?_, href.get_eq ns key, href.getHistory_eq ns key, history_versions hist ns key,
    history_pairwise href.inOrder ns key, href.blockNumber_eq, ?_, ?_⟩
  · intro h hh
    rw [href.getAt_filter ns key hh, history_filter href.inOrder.1]
  · rintro b hb tx htx hv n hn rfl w hw rfl
    exact run.write_mem_history hb htx hv hn hw
  · intro r hr
    exact valid_of_mem_history hr

section Sample

/-- A transaction with one write or delete of key `k` in namespace `n`. -/
def sampleTx (number : ℕ) (status : Status) (isDelete : Bool) (value : Bytes) : Transaction where
  id := [116, 48]
  number := number
  inputArgs := []
  status := status
  rawCode := 0
  reason := []
  event := []
  eventName := []
  payload := []
  nsRWS := [⟨[110], ⟨[], [⟨[107], isDelete, value⟩]⟩⟩]

def sampleBlock (number : ℕ) (transactions : List Transaction) : Block where
  number := number
  hash := []
  parentHash := []
  timestamp := 0
  transactions := transactions
  configTransaction := none

def sampleCreate : Block := sampleBlock 1 [sampleTx 0 .committed false [7]]

/-- An overwrite that is invalid, then a delete. -/
def sampleDelete : Block :=
  sampleBlock 3 [sampleTx 0 .mvccConflict false [8], sampleTx 2 .committed true []]

/-- Channel `c` after a create, a block of channel `d` and a delete. -/
def sampleDb : Database :=
  applied [99] (applied [100] (applied [99] Database.empty sampleCreate) sampleDelete) sampleDelete

/-- The same tables with the create replayed at the end. -/
theorem sampleDb_accepted : Accepted [99] sampleDb [sampleCreate, sampleDelete] := by
  have hcreate : sampleCreate.InOrder := List.pairwise_singleton _ _
  have hdelete : sampleDelete.InOrder := by
    simp [Block.InOrder, sampleDelete, sampleBlock, sampleTx]
  have u₁ : updateWorldState [99] [] Database.empty sampleCreate =
      .ok (applied [99] Database.empty sampleCreate) := rfl
  have u₂ : updateWorldState [100] [] (applied [99] Database.empty sampleCreate) sampleDelete =
      .ok (applied [100] (applied [99] Database.empty sampleCreate) sampleDelete) := rfl
  have u₃ : updateWorldState [99] []
      (applied [100] (applied [99] Database.empty sampleCreate) sampleDelete) sampleDelete =
      .ok sampleDb := rfl
  have u₄ : updateWorldState [99] [] sampleDb sampleCreate = .ok sampleDb := rfl
  have h₁ := Accepted.next Accepted.empty (by simp) hcreate u₁
  have h₂ := Accepted.other h₁ (by decide) u₂
  have h₃ := Accepted.next h₂ (by decide) hdelete u₃
  exact Accepted.replay h₃ (b := sampleCreate) (by simp) rfl rfl u₄

theorem accepted_store_folds_history_sample :
    Accepted [99] sampleDb [sampleCreate, sampleDelete] ∧
      getHistory [99] none sampleDb [110] [107] =
        .ok [⟨[110], [107], 1, 0, 0, [7], false, [116, 48]⟩,
          ⟨[110], [107], 3, 2, 1, [], true, [116, 48]⟩] :=
  ⟨sampleDb_accepted,
    (accepted_store_folds_history sampleDb_accepted [110] [107]).2.2.1.trans rfl⟩

end Sample

end FabricXSdk.State

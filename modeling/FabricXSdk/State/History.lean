import FabricXSdk.State.Update

/-!
# The store is the fold of its history

The abstract world state of a channel is the list of blocks applied to it. For a
key it gives the list of writes made by valid transactions, in block and then
transaction order; the version of a write is its index in that list. The tables
refine this: the rows of a key are its writes, in the same order.

A transaction makes at most one write to a key. Where its read/write set repeats
one, the block is accepted only if all repetitions agree, and they share the
position of the transaction.
-/

namespace FabricXSdk.State

open Golang Blocks Atomic VersionLog

section Abstract

/-- A write of a valid transaction, at its position in the chain. -/
@[ext] structure Write where
  blockNum : ℕ
  txNum : ℕ
  value : Bytes
  isDelete : Bool
  txID : GoString
  deriving DecidableEq, Repr

/-- The write a transaction's read/write sets make to a key. -/
def writeTo (tx : Transaction) (ns key : GoString) : Option KVWrite :=
  (tx.nsRWS.flatMap fun n => if n.ns = ns then n.rws.writes else []).find? fun w => w.key = key

/-- The write a transaction commits to a key; an invalid transaction commits none. -/
def committedWrite (blockNum : ℕ) (ns key : GoString) (tx : Transaction) : Option Write :=
  if tx.valid then
    (writeTo tx ns key).map fun w => ⟨blockNum, tx.number, w.value, w.isDelete, tx.id⟩
  else none

def blockWrites (ns key : GoString) (b : Block) : List Write :=
  b.transactions.filterMap (committedWrite b.number ns key)

/-- All writes to a key, in block and then transaction order. -/
def writesTo (hist : List Block) (ns key : GoString) : List Write :=
  hist.flatMap (blockWrites ns key)

/-- The record of a write whose index among the writes to its key is `version`. -/
def Write.record (ns key : GoString) (version : ℕ) (w : Write) : WriteRecord where
  ns := ns
  key := key
  blockNum := w.blockNum
  txNum := w.txNum
  version := version
  value := w.value
  isDelete := w.isDelete
  txID := w.txID

/-- The records of a key: its writes, numbered from zero. -/
def history (hist : List Block) (ns key : GoString) : List WriteRecord :=
  (writesTo hist ns key).mapIdx (Write.record ns key)

/-- Blocks in strictly increasing number, each with its transactions in order. -/
def InOrder (hist : List Block) : Prop :=
  hist.Pairwise (fun a b => a.number < b.number) ∧ ∀ b ∈ hist, b.InOrder

theorem writesTo_append (hist hist' : List Block) (ns key : GoString) :
    writesTo (hist ++ hist') ns key = writesTo hist ns key ++ writesTo hist' ns key :=
  List.flatMap_append ..

theorem writesTo_singleton (b : Block) (ns key : GoString) :
    writesTo [b] ns key = blockWrites ns key b := by
  simp [writesTo]

theorem mem_blockWrites {ns key : GoString} {b : Block} {w : Write} :
    w ∈ blockWrites ns key b ↔
      ∃ tx ∈ b.transactions, committedWrite b.number ns key tx = some w :=
  List.mem_filterMap

theorem committedWrite_eq_some {n : ℕ} {ns key : GoString} {tx : Transaction} {w : Write} :
    committedWrite n ns key tx = some w ↔
      tx.valid = true ∧ ∃ kv, writeTo tx ns key = some kv ∧
        w = ⟨n, tx.number, kv.value, kv.isDelete, tx.id⟩ := by
  unfold committedWrite
  split
  · rename_i hv
    rw [Option.map_eq_some_iff]
    constructor
    · rintro ⟨kv, hkv, rfl⟩
      exact ⟨hv, kv, hkv, rfl⟩
    · rintro ⟨_, kv, hkv, rfl⟩
      exact ⟨kv, hkv, rfl⟩
  · simp_all

theorem writeTo_eq_some {tx : Transaction} {ns key : GoString} {kv : KVWrite}
    (h : writeTo tx ns key = some kv) :
    ∃ n ∈ tx.nsRWS, n.ns = ns ∧ kv ∈ n.rws.writes ∧ kv.key = key := by
  have hkey : kv.key = key := by simpa using List.find?_some h
  obtain ⟨n, hn, hkv⟩ := List.mem_flatMap.mp (List.mem_of_find?_eq_some h)
  by_cases hns : n.ns = ns
  · exact ⟨n, hn, hns, by simpa [hns] using hkv, hkey⟩
  · simp [hns] at hkv

/-- A transaction with a write to a key makes a write to it. -/
theorem writeTo_isSome {tx : Transaction} {n : NsReadWriteSet} {kv : KVWrite}
    (hn : n ∈ tx.nsRWS) (hkv : kv ∈ n.rws.writes) : (writeTo tx n.ns kv.key).isSome := by
  rw [writeTo, List.find?_isSome]
  exact ⟨kv, List.mem_flatMap.mpr ⟨n, hn, by simpa using hkv⟩, by simp⟩

theorem blockNum_of_mem_blockWrites {ns key : GoString} {b : Block} {w : Write}
    (h : w ∈ blockWrites ns key b) : w.blockNum = b.number := by
  obtain ⟨tx, _, hw⟩ := mem_blockWrites.mp h
  obtain ⟨_, kv, _, rfl⟩ := committedWrite_eq_some.mp hw
  rfl

theorem mem_writesTo {hist : List Block} {ns key : GoString} {w : Write} :
    w ∈ writesTo hist ns key ↔ ∃ b ∈ hist, w ∈ blockWrites ns key b :=
  List.mem_flatMap

/-- The writes of a block grow in transaction number. -/
theorem blockWrites_pairwise {b : Block} (h : b.InOrder) (ns key : GoString) :
    (blockWrites ns key b).Pairwise fun v w => v.txNum < w.txNum := by
  rw [blockWrites, List.pairwise_filterMap]
  refine h.imp fun {t t'} hlt w hw w' hw' => ?_
  obtain ⟨_, kv, _, rfl⟩ := committedWrite_eq_some.mp hw
  obtain ⟨_, kv', _, rfl⟩ := committedWrite_eq_some.mp hw'
  exact hlt

/-- The writes of an ordered history grow in block and transaction number. -/
theorem writesTo_pairwise {hist : List Block} (h : InOrder hist) (ns key : GoString) :
    (writesTo hist ns key).Pairwise fun v w =>
      toLex (v.blockNum, v.txNum) < toLex (w.blockNum, w.txNum) := by
  rw [writesTo, List.pairwise_flatMap]
  constructor
  · intro b hb
    refine (blockWrites_pairwise (h.2 b hb) ns key).imp_of_mem fun {v w} hv hw hlt => ?_
    rw [Prod.Lex.toLex_lt_toLex]
    exact Or.inr ⟨by rw [blockNum_of_mem_blockWrites hv, blockNum_of_mem_blockWrites hw], hlt⟩
  · refine h.1.imp fun {a b} hlt v hv w hw => ?_
    rw [Prod.Lex.toLex_lt_toLex]
    refine Or.inl ?_
    simpa only [blockNum_of_mem_blockWrites hv, blockNum_of_mem_blockWrites hw] using hlt

end Abstract

section Refinement

/-- The write a row stores. -/
def Row.toWrite (r : Row) : Write where
  blockNum := r.versionBlock
  txNum := r.versionTx
  value := r.value
  isDelete := r.isDelete
  txID := r.txID

/-- The first row a transaction asks for at a key stores the write it commits there. -/
theorem find?_txRows (channel : GoString) (n : ℕ) (tx : Transaction) (ns key : GoString) :
    ((txRows channel n tx).find? fun r => rowSchema.key r = (channel, ns, key)).map Row.toWrite =
      committedWrite n ns key tx := by
  unfold txRows committedWrite
  split
  · rw [writeTo, List.find?_flatMap, List.find?_flatMap, List.map_findSome?, List.map_findSome?]
    congr 1
    funext x
    rw [Function.comp_apply, Function.comp_apply, List.find?_map, Option.map_map]
    by_cases hns : x.ns = ns
    · rw [if_pos hns]
      congr 1
      congr 1
      funext w
      simp [rowSchema, writeRow, hns]
    · rw [if_neg hns, List.find?_eq_none.mpr]
      · rfl
      · intro w _
        simp [rowSchema, writeRow, hns]
  · rfl

/-- The row that is stored for a key, whichever version it is given. -/
theorem toWrite_find?_txRows (channel : GoString) (n : ℕ) (tx : Transaction) (ns key : GoString)
    (version : ℕ) :
    (((txRows channel n tx).find? fun r => rowSchema.key r = (channel, ns, key)).map
      (rowSchema.withVersion version)).toList.map Row.toWrite =
        (committedWrite n ns key tx).toList := by
  rw [← find?_txRows channel n tx ns key]
  cases (txRows channel n tx).find? fun r => rowSchema.key r = (channel, ns, key) with
  | none => rfl
  | some r => rfl

/-- Applying transactions whose stamps are new to a key appends their writes to it. -/
theorem ofKey_insertAll_txs (channel ns key : GoString) (n : ℕ) {txs : List Transaction}
    {rows : List Row} (ho : txs.Pairwise fun t t' => t.number < t'.number)
    (hf : ∀ x ∈ ofKey rowSchema (channel, ns, key) rows, ∀ tx ∈ txs,
      rowSchema.stamp x ≠ toLex (n, tx.number)) :
    (ofKey rowSchema (channel, ns, key)
        (insertAll rowSchema rows (txs.flatMap (txRows channel n)))).map Row.toWrite =
      (ofKey rowSchema (channel, ns, key) rows).map Row.toWrite ++
        txs.filterMap (committedWrite n ns key) := by
  induction txs generalizing rows with
  | nil => simp
  | cons tx txs ih =>
      obtain ⟨hlt, ho⟩ := List.pairwise_cons.mp ho
      -- the rows of `tx` share a stamp that is new to the key, so its first one is stored
      have hstep := ofKey_insertAll_stamp_fresh rowSchema
        (fun r (hr : r ∈ txRows channel n tx) => stamp_of_mem_txRows hr)
        (fun x hx => hf x hx tx List.mem_cons_self)
      have hf' : ∀ x ∈ ofKey rowSchema (channel, ns, key)
          (insertAll rowSchema rows (txRows channel n tx)), ∀ tx' ∈ txs,
          rowSchema.stamp x ≠ toLex (n, tx'.number) := by
        intro x hx tx' htx'
        rw [hstep, List.mem_append, Option.mem_toList, Option.map_eq_some_iff] at hx
        rcases hx with hx | ⟨r, hr, rfl⟩
        · exact hf x hx tx' (List.mem_cons_of_mem _ htx')
        · rw [Schema.stamp_withVersion, stamp_of_mem_txRows (List.mem_of_find?_eq_some hr)]
          intro heq
          have hnum : tx.number = tx'.number := congrArg (fun p => (ofLex p).2) heq
          exact absurd hnum (hlt tx' htx').ne
      rw [List.flatMap_cons, insertAll_append, ih ho hf', hstep, List.map_append,
        toWrite_find?_txRows, List.append_assoc]
      congr 1
      cases h : committedWrite n ns key tx <;> simp [h]

/-- The tables of a channel after a history: for each key the rows store its
writes in order, and progress is at the last block. -/
structure Refines (channel : GoString) (db : Database) (hist : List Block) : Prop where
  inOrder : InOrder hist
  numbered : ∀ k, Numbered rowSchema k db.worldstate
  rows : ∀ ns key, (db.rowsOf channel ns key).map Row.toWrite = writesTo hist ns key
  progress : db.channelProgress.lookup channel = hist.getLast?.map Block.number

theorem refines_empty (channel : GoString) : Refines channel Database.empty [] where
  inOrder := ⟨List.Pairwise.nil, by simp⟩
  numbered := fun k => numbered_nil rowSchema k
  rows := fun _ _ => rfl
  progress := rfl

theorem inOrder_concat {hist : List Block} {b : Block} (h : InOrder hist)
    (hlt : ∀ a ∈ hist, a.number < b.number) (hb : b.InOrder) : InOrder (hist ++ [b]) := by
  constructor
  · rw [List.pairwise_append]
    exact ⟨h.1, List.pairwise_singleton _ _, fun a ha c hc => by
      rw [List.mem_singleton.mp hc]
      exact hlt a ha⟩
  · intro a ha
    rcases List.mem_append.mp ha with ha | ha
    · exact h.2 a ha
    · rw [List.mem_singleton.mp ha]
      exact hb

/-- A stored row of the channel has the stamp of one of the key's writes. -/
theorem Refines.mem_writesTo {channel : GoString} {db : Database} {hist : List Block}
    (h : Refines channel db hist) {ns key : GoString} {x : Row}
    (hx : x ∈ db.rowsOf channel ns key) : x.toWrite ∈ writesTo hist ns key := by
  rw [← h.rows ns key]
  exact List.mem_map_of_mem hx

theorem numbered_applied {db : Database} (h : ∀ k, Numbered rowSchema k db.worldstate)
    (channel : GoString) (b : Block) (k : GoString × GoString × GoString) :
    Numbered rowSchema k (applied channel db b).worldstate := by
  rw [applied_worldstate]
  exact numbered_insertAll rowSchema (h k) _

/-- Applying the next block appends it to the history. -/
theorem Refines.next {channel : GoString} {db : Database} {hist : List Block} {b : Block}
    (h : Refines channel db hist) (hlt : ∀ a ∈ hist, a.number < b.number) (hb : b.InOrder) :
    Refines channel (applied channel db b) (hist ++ [b]) where
  inOrder := inOrder_concat h.inOrder hlt hb
  numbered := numbered_applied h.numbered channel b
  rows := by
    intro ns key
    have hf : ∀ x ∈ db.rowsOf channel ns key, ∀ tx ∈ b.transactions,
        rowSchema.stamp x ≠ toLex (b.number, tx.number) := by
      -- the stored rows belong to earlier blocks
      intro x hx tx _ heq
      obtain ⟨a, ha, hw⟩ := State.mem_writesTo.mp (h.mem_writesTo hx)
      have hnum : x.versionBlock = b.number := congrArg (fun p => (ofLex p).1) heq
      have hblock : x.versionBlock = a.number := blockNum_of_mem_blockWrites hw
      exact absurd (hblock.symm.trans hnum) (hlt a ha).ne
    rw [Database.rowsOf, applied_worldstate, blockRows, ofKey_insertAll_txs channel ns key b.number
      hb hf, writesTo_append, writesTo_singleton, ← h.rows ns key]
    rfl
  progress := by
    rw [applied_progress, h.progress, List.getLast?_concat]
    cases hl : hist.getLast? with
    | none => simp
    | some a =>
        have hab : a.number < b.number := hlt a (List.mem_of_getLast? hl)
        simp [max_eq_right hab.le]

/-- Every row a block of the history asks for is stored. -/
theorem Refines.taken {channel : GoString} {db : Database} {hist : List Block} {b : Block}
    (h : Refines channel db hist) (hb : b ∈ hist) {r : Row} (hr : r ∈ blockRows channel b) :
    ∃ x ∈ ofKey rowSchema (rowSchema.key r) db.worldstate,
      rowSchema.stamp x = rowSchema.stamp r := by
  obtain ⟨tx, htx, hr⟩ := List.mem_flatMap.mp hr
  obtain ⟨hv, n, hn, w, hw, rfl⟩ := mem_txRows.mp hr
  -- the row may be a repetition, but the key has a row with its stamp
  obtain ⟨kv, hkv⟩ := Option.isSome_iff_exists.mp (writeTo_isSome hn hw)
  have hmem : (⟨b.number, tx.number, kv.value, kv.isDelete, tx.id⟩ : Write) ∈
      writesTo hist n.ns w.key :=
    State.mem_writesTo.mpr ⟨b, hb, mem_blockWrites.mpr
      ⟨tx, htx, committedWrite_eq_some.mpr ⟨hv, kv, hkv, rfl⟩⟩⟩
  rw [← h.rows n.ns w.key] at hmem
  obtain ⟨x, hx, heq⟩ := List.mem_map.mp hmem
  have hblock : x.versionBlock = b.number := congrArg Write.blockNum heq
  have htxn : x.versionTx = tx.number := congrArg Write.txNum heq
  refine ⟨x, hx, ?_⟩
  simp only [rowSchema, writeRow, hblock, htxn]

theorem Refines.number_le_last {channel : GoString} {db : Database} {hist : List Block} {b : Block}
    (h : Refines channel db hist) (hb : b ∈ hist) :
    ∃ last, db.channelProgress.lookup channel = some last ∧ b.number ≤ last := by
  have hne : hist ≠ [] := List.ne_nil_of_mem hb
  refine ⟨(hist.getLast hne).number, ?_, ?_⟩
  · rw [h.progress, List.getLast?_eq_some_getLast hne]
    rfl
  · rw [← List.dropLast_append_getLast hne] at hb
    have hpair := h.inOrder.1
    rw [← List.dropLast_append_getLast hne, List.pairwise_append] at hpair
    rcases List.mem_append.mp hb with hb | hb
    · exact (hpair.2.2 b hb _ (List.mem_singleton.mpr rfl)).le
    · rw [List.mem_singleton.mp hb]

/-- A block of the history is already stored, so applying it again changes nothing. -/
theorem Refines.replay {channel : GoString} {db : Database} {hist : List Block} {b b' : Block}
    (h : Refines channel db hist) (hb : b ∈ hist) (hn : b'.number = b.number)
    (ht : b'.transactions = b.transactions) : applied channel db b' = db := by
  have hrows : blockRows channel b' = blockRows channel b := by
    simp only [blockRows, hn, ht]
  obtain ⟨last, hlast, hle⟩ := h.number_le_last hb
  unfold applied
  rw [hrows, insertAll_taken rowSchema fun r hr => h.taken hb hr, hn]
  exact upsertProgress_of_le hlast hle

/-- Blocks of other channels leave a channel alone. -/
theorem Refines.other {channel channel' : GoString} {db : Database} {hist : List Block} {b : Block}
    (h : Refines channel db hist) (hc : channel' ≠ channel) :
    Refines channel (applied channel' db b) hist where
  inOrder := h.inOrder
  numbered := numbered_applied h.numbered channel' b
  rows := by
    intro ns key
    have hne : ∀ r ∈ blockRows channel' b, rowSchema.key r ≠ (channel, ns, key) := by
      intro r hr heq
      exact hc ((channel_of_mem_blockRows hr).1.symm.trans (congrArg Prod.fst heq))
    rw [Database.rowsOf, applied_worldstate, ofKey_insertAll_ne rowSchema _ hne]
    exact h.rows ns key
  progress := by
    rw [applied_progress_ne db b hc]
    exact h.progress

end Refinement

end FabricXSdk.State

import FabricXSdk.Blocks.Mvcc
import FabricXSdk.State.Reads

/-!
# Committed reads are current

The commit pipeline runs every block through `Validate` against `Get` of the
current store and then through `UpdateWorldState`. A transaction it marks as
committed has read, for each of its keys, the write that comes last before it in
commit order.

Two checks carry this. The store answers with the last write of the earlier
blocks, and the pending writes of the block rule out a write by an earlier
transaction of the same block.
-/

namespace FabricXSdk.State

open Golang Blocks Atomic

/-- `Get` of a store handed to the validator; any of its queries may fail. -/
def ReadsFrom (channel : GoString) (db : Database) (g : RecordGetter) : Prop :=
  ∀ ns key, ∃ fault, g ns key = get channel fault db ns key

/-- The record of a key at a position of the chain: after the blocks `pre` and,
in block `b`, after the transactions `txs`. -/
def recordBefore (pre : List Block) (b : Block) (txs : List Transaction) (ns key : GoString) :
    Option WriteRecord :=
  (history (pre ++ [{ b with transactions := txs }]) ns key).getLast?

theorem ReadsFrom.get_eq {channel : GoString} {db : Database} {g : RecordGetter}
    (h : ReadsFrom channel db g) {ns key : GoString} {found : Option WriteRecord}
    (hok : g ns key = .ok found) : get channel none db ns key = .ok found := by
  obtain ⟨fault, hf⟩ := h ns key
  cases fault with
  | none => rw [← hf, hok]
  | some err =>
      rw [hok] at hf
      simp [get, query] at hf

theorem mem_pendingKeys {tx : Transaction} {n : NsReadWriteSet} {w : KVWrite} (hn : n ∈ tx.nsRWS)
    (hw : w ∈ n.rws.writes) : pendingKey n.ns w.key ∈ pendingKeys tx :=
  List.mem_flatMap.mpr ⟨n, hn, List.mem_map_of_mem hw⟩

/-- A key that is not pending after the transactions of a block was not written by them. -/
theorem blockWrites_eq_nil {b : Block} {ns key : GoString}
    (h : ∀ t ∈ b.transactions, t.status = .committed → pendingKey ns key ∉ pendingKeys t) :
    blockWrites ns key b = [] := by
  rw [List.eq_nil_iff_forall_not_mem]
  intro w hw
  obtain ⟨t, ht, hc⟩ := mem_blockWrites.mp hw
  obtain ⟨hv, kv, hkv, _⟩ := committedWrite_eq_some.mp hc
  obtain ⟨n, hn, rfl, hmem, rfl⟩ := writeTo_eq_some hkv
  exact h t ht (t.valid_iff.mp hv) (mem_pendingKeys hn hmem)

/-- Validation gave the transaction at a position its status: it ran to the end,
or the status is not the one the transaction came with. -/
def Marked (b : Block) (i : ℕ) (err : Option Text) : Prop :=
  err = none ∨ ∃ tx, b.transactions[i]? = some tx ∧ tx.status ≠ .committed

/-- A key read by a transaction that validation marks as committed has, immediately
before the transaction, the record of the store, and the read agrees with it. -/
theorem Refines.committed_read {channel : GoString} {db : Database} {hist : List Block}
    (href : Refines channel db hist) {l : MVCCValidator} (hg : ReadsFrom channel db l.db)
    {b b' : Block} {txFilter : List Byte} {err : Option Text}
    (hv : validate l b = (b', txFilter, err)) {pre post : List Transaction} {tx : Transaction}
    (hm : Marked b pre.length err) (ht : b'.transactions = pre ++ tx :: post)
    (hc : tx.status = .committed) {n : NsReadWriteSet} (hn : n ∈ tx.nsRWS) {r : KVRead}
    (hr : r ∈ n.rws.reads) :
    recordBefore hist b' pre n.ns r.key = (history hist n.ns r.key).getLast? ∧
      ReadMatches l.monotonicVersions (history hist n.ns r.key).getLast? r := by
  simp only [validate, Prod.mk.injEq] at hv
  obtain ⟨rfl, _, rfl⟩ := hv
  obtain ⟨_, hpre, found, hfound, hmatch⟩ := validateFrom_committed hm ht hc hn hr
  have hlast : (history hist n.ns r.key).getLast? = found := by
    have hget := hg.get_eq hfound
    rw [href.get_eq] at hget
    exact Except.ok.inj hget
  -- the key is not pending, so no earlier transaction of the block wrote it
  have hnone : ∀ b : Block, writesTo [{ b with transactions := pre }] n.ns r.key = [] := by
    intro b
    rw [writesTo_singleton]
    exact blockWrites_eq_nil hpre
  refine ⟨?_, hlast ▸ hmatch⟩
  rw [recordBefore, history_append, hnone, List.mapIdx_nil, List.append_nil]

/-- The stores the commit pipeline can lead to, with the blocks it has applied:
each block is validated against the store and then applied to it. -/
inductive Pipeline (monotonicVersions : Bool) (channel : GoString) :
    Database → List Block → Prop
  | empty : Pipeline monotonicVersions channel Database.empty []
  | next {db db' hist g codes b b' txFilter driver}
      (run : Pipeline monotonicVersions channel db hist)
      (hlt : ∀ a ∈ hist, a.number < b.number) (hb : b.InOrder) (hg : ReadsFrom channel db g)
      (hv : validate ⟨g, codes, monotonicVersions⟩ b = (b', txFilter, none))
      (h : updateWorldState channel driver db b' = .ok db') :
      Pipeline monotonicVersions channel db' (hist ++ [b'])

theorem validate_number {l : MVCCValidator} {b b' : Block} {txFilter : List Byte}
    {err : Option Text} (hv : validate l b = (b', txFilter, err)) : b'.number = b.number := by
  simp only [validate, Prod.mk.injEq] at hv
  rw [← hv.1]

theorem Pipeline.accepted {monotonicVersions : Bool} {channel : GoString} {db : Database}
    {hist : List Block} (run : Pipeline monotonicVersions channel db hist) :
    Accepted channel db hist := by
  induction run with
  | empty => exact Accepted.empty
  | @next _ _ _ g codes b _ _ _ _ hlt hb _ hv h ih =>
      refine Accepted.next ih ?_ ?_ h
      · rw [validate_number hv]
        exact hlt
      · have hb' : (validate ⟨g, codes, monotonicVersions⟩ b).1.InOrder := validate_inOrder hb
        rw [hv] at hb'
        exact hb'

/-- Every read of a committed transaction agrees with the record its key has
immediately before the transaction, in any block of the pipeline. -/
theorem Pipeline.read_matches {monotonicVersions : Bool} {channel : GoString} {db : Database}
    {hist : List Block} (run : Pipeline monotonicVersions channel db hist)
    {before after : List Block} {b : Block} (hh : hist = before ++ b :: after)
    {pre post : List Transaction} {tx : Transaction} (ht : b.transactions = pre ++ tx :: post)
    (hc : tx.status = .committed) {n : NsReadWriteSet} (hn : n ∈ tx.nsRWS) {r : KVRead}
    (hr : r ∈ n.rws.reads) :
    ReadMatches monotonicVersions (recordBefore before b pre n.ns r.key) r := by
  induction run generalizing after with
  | empty => simp at hh
  | @next db db' hist g codes _ b' txFilter driver run _ _ hg hv _ ih =>
      -- the block is the last one, or one that the run before it has applied
      rcases List.eq_nil_or_concat after with rfl | ⟨after, last, rfl⟩
      · obtain ⟨rfl, hlast⟩ := List.append_inj' hh rfl
        obtain rfl : b' = b := List.singleton_inj.mp hlast
        obtain ⟨hrec, hmatch⟩ :=
          run.accepted.refines.committed_read hg hv (Or.inl rfl) ht hc hn hr
        rw [hrec]
        exact hmatch
      · rw [List.concat_eq_append, ← List.cons_append, ← List.append_assoc] at hh
        exact ih (List.append_inj' hh rfl).1

/-- The commit pipeline is serializable in both version modes: the version of a
committed read is that of the last write before the transaction in commit order,
and it is absent exactly when there is none or it is a delete. -/
theorem pipeline_serializable {monotonicVersions : Bool} {channel : GoString} {db : Database}
    {hist : List Block} (run : Pipeline monotonicVersions channel db hist)
    {before after : List Block} {b : Block} (hh : hist = before ++ b :: after)
    {pre post : List Transaction} {tx : Transaction} (ht : b.transactions = pre ++ tx :: post)
    (hc : tx.status = .committed) {n : NsReadWriteSet} (hn : n ∈ tx.nsRWS) {r : KVRead}
    (hr : r ∈ n.rws.reads) :
    (r.version = none ↔ recordBefore before b pre n.ns r.key = none ∨
      ∃ w, recordBefore before b pre n.ns r.key = some w ∧ w.isDelete = true) ∧
    ∀ v, r.version = some v → ∃ w, recordBefore before b pre n.ns r.key = some w ∧
      w.isDelete = false ∧
      if monotonicVersions then w.version = v.blockNum
      else w.blockNum = v.blockNum ∧ w.txNum = v.txNum := by
  have hmatch := run.read_matches hh ht hc hn hr
  simp only [ReadMatches] at hmatch
  cases hfound : recordBefore before b pre n.ns r.key with
  | none =>
      cases hver : r.version with
      | none => simp
      | some v => simp [hfound, hver] at hmatch
  | some w =>
      cases hdel : w.isDelete with
      | true =>
          cases hver : r.version with
          | none => simp [hdel]
          | some v => simp [hfound, hver, hdel, Option.filter] at hmatch
      | false =>
          cases hver : r.version with
          | none => simp [hfound, hver, hdel, Option.filter] at hmatch
          | some v =>
              simp only [hfound, hver, hdel, Option.filter, Bool.not_false, if_true] at hmatch
              refine ⟨by simp [hdel], fun v' hv' => ⟨w, rfl, hdel, ?_⟩⟩
              cases hv'
              exact hmatch

section Sample

/-- A transaction that reads key `k` of namespace `n` at a version and overwrites it. -/
def sampleUpdate (number : ℕ) (version : Option Version) (isDelete : Bool) : Transaction :=
  { sampleTx number .unknown isDelete [8] with
    nsRWS := [⟨[110], ⟨[⟨[107], version⟩], [⟨[107], isDelete, [8]⟩]⟩⟩] }

/-- A delete of what block 1 wrote, and a second one that comes too late. -/
def sampleRaced : Block :=
  sampleBlock 2 [sampleUpdate 0 (some ⟨1, 0⟩) true, sampleUpdate 1 (some ⟨1, 0⟩) true]

def sampleMark (db : Database) (b : Block) : Block :=
  (validate ⟨get [99] none db, [], false⟩ b).1

def sampleDb₁ : Database := applied [99] Database.empty (sampleMark Database.empty sampleCreate)

def sampleDb₂ : Database := applied [99] sampleDb₁ (sampleMark sampleDb₁ sampleRaced)

theorem sampleRaced_pipeline :
    Pipeline false [99] sampleDb₂
      [sampleMark Database.empty sampleCreate, sampleMark sampleDb₁ sampleRaced] := by
  have hcreate : sampleCreate.InOrder := List.pairwise_singleton _ _
  have hraced : sampleRaced.InOrder := by
    simp [Block.InOrder, sampleRaced, sampleBlock, sampleUpdate, sampleTx]
  have v₁ : validate ⟨get [99] none Database.empty, [], false⟩ sampleCreate =
      (sampleMark Database.empty sampleCreate, [99], none) := rfl
  have u₁ : updateWorldState [99] [] Database.empty (sampleMark Database.empty sampleCreate) =
      .ok sampleDb₁ := rfl
  have v₂ : validate ⟨get [99] none sampleDb₁, [], false⟩ sampleRaced =
      (sampleMark sampleDb₁ sampleRaced, [99, 99], none) := rfl
  have u₂ : updateWorldState [99] [] sampleDb₁ (sampleMark sampleDb₁ sampleRaced) =
      .ok sampleDb₂ := rfl
  have h₁ := Pipeline.next Pipeline.empty (by simp) hcreate (fun _ _ => ⟨none, rfl⟩) v₁ u₁
  exact Pipeline.next h₁ (by decide) hraced (fun _ _ => ⟨none, rfl⟩) v₂ u₂

theorem pipeline_serializable_sample :
    Pipeline false [99] sampleDb₂
        [sampleMark Database.empty sampleCreate, sampleMark sampleDb₁ sampleRaced] ∧
      (sampleMark sampleDb₁ sampleRaced).transactions.map Transaction.status =
        [.committed, .mvccConflict] ∧
      ∃ w, recordBefore [sampleMark Database.empty sampleCreate] (sampleMark sampleDb₁ sampleRaced)
          [] [110] [107] = some w ∧
        w.isDelete = false ∧ w.blockNum = 1 ∧ w.txNum = 0 := by
  have hh : [sampleMark Database.empty sampleCreate, sampleMark sampleDb₁ sampleRaced] =
      [sampleMark Database.empty sampleCreate] ++ sampleMark sampleDb₁ sampleRaced :: [] := rfl
  have ht : (sampleMark sampleDb₁ sampleRaced).transactions =
      [] ++ (sampleUpdate 0 (some ⟨1, 0⟩) true).setStatus .committed 99 [] ::
        (sampleMark sampleDb₁ sampleRaced).transactions.tail := rfl
  have hlast := pipeline_serializable sampleRaced_pipeline hh ht rfl List.mem_cons_self
    List.mem_cons_self
  exact ⟨sampleRaced_pipeline, rfl, by simpa using hlast.2 ⟨1, 0⟩ rfl⟩

end Sample

end FabricXSdk.State

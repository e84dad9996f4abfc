import FabricXSdk.Blocks.Malformed
import FabricXSdk.FabricTest.Ledger

/-!
# The test chain stays well formed

Blocks are numbered and chained off the tip, and the filter is filled in after the hashes
are taken. Whatever the operations on the ledger, in whatever order and with whatever
result, every block has the number of its position, chains onto the block before it,
carries the hash of its data, and has one filter byte for each of its envelopes.
-/

namespace FabricXSdk.FabricTest

open Golang Blocks State

/-- The hash that the block at a position chains onto. -/
def Network.hashBefore (net : Network) (blocks : List Proto.Block) : ℕ → Option Bytes
  | 0 => some []
  | i + 1 => (blocks[i]?.bind Proto.Block.header).map net.headerHash

/-- The block at a position is what it should be there. -/
def WellFormedAt (net : Network) (blocks : List Proto.Block) (i : ℕ) (b : Proto.Block) : Prop :=
  ∃ header data metadata filter, b = ⟨some header, some data, some metadata⟩ ∧
    metadata[Proto.transactionsFilter]? = some filter ∧ header.number = i ∧
    net.hashBefore blocks i = some header.previousHash ∧
    header.dataHash = net.dataHash data ∧ filter.length = data.length

structure WellFormed (net : Network) (l : Ledger) : Prop where
  nonempty : l.blocks ≠ []
  block : ∀ i b, l.blocks[i]? = some b → WellFormedAt net l.blocks i b

/-- The ledger reports its last block. -/
def ReportsTip (net : Network) (l : Ledger) : Prop :=
  ∃ block tip, l.blocks.getLast? = some block ∧ block.header = some tip ∧
    l.height = tip.number + 1 ∧
    net.chainInfo l = .ok (tip.number + 1, net.headerHash tip, tip.previousHash)

/-- The operations of the ledger. A cut is a call of `process` without envelopes. -/
inductive Op
  | process (env : Env) (batch : List Proto.Envelope)
  | truncate (num : ℕ)

def Network.apply (net : Network) (l : Ledger) : Op → Outcome Unit × Ledger
  | .process env batch => net.process env l batch
  | .truncate num => l.truncate num

/-- The ledger after a sequence of operations. -/
def Network.run (net : Network) (l : Ledger) (ops : List Op) : Ledger :=
  ops.foldl (fun l op => (net.apply l op).2) l

section Chain

variable {net : Network} {l l' : Ledger} {blocks blocks' : List Proto.Block} {i : ℕ}
  {b : Proto.Block}

/-- What a block chains onto depends on the blocks before it. -/
theorem hashBefore_congr (h : ∀ j < i, blocks'[j]? = blocks[j]?) :
    net.hashBefore blocks' i = net.hashBefore blocks i := by
  cases i with
  | zero => rfl
  | succ i => rw [Network.hashBefore, Network.hashBefore, h i (Nat.lt_succ_self i)]

theorem WellFormedAt.congr (hb : WellFormedAt net blocks i b)
    (h : ∀ j < i, blocks'[j]? = blocks[j]?) : WellFormedAt net blocks' i b := by
  obtain ⟨header, data, metadata, filter, hblock, hfilter, hnumber, hprev, hrest⟩ := hb
  rw [← hashBefore_congr h] at hprev
  exact ⟨header, data, metadata, filter, hblock, hfilter, hnumber, hprev, hrest⟩

theorem lt_length_of_getElem? (h : blocks[i]? = some b) : i < blocks.length :=
  (List.getElem?_eq_some_iff.mp h).choose

theorem WellFormed.append (h : WellFormed net l)
    (hb : WellFormedAt net (l.blocks ++ [b]) l.blocks.length b)
    (hl' : l'.blocks = l.blocks ++ [b]) : WellFormed net l' where
  nonempty := by
    rw [hl']
    simp
  block := by
    intro i b' hi
    rw [hl'] at hi ⊢
    rcases getElem?_concat_eq_some.mp hi with hi | ⟨rfl, rfl⟩
    · refine (h.block i b' hi).congr fun j hj => ?_
      exact List.getElem?_append_left (hj.trans (lt_length_of_getElem? hi))
    · exact hb

theorem WellFormed.take (h : WellFormed net l) (n : ℕ)
    (hl' : l'.blocks = l.blocks.take (n + 1)) : WellFormed net l' where
  nonempty := by
    rw [hl', Ne, List.take_eq_nil_iff]
    simp [h.nonempty]
  block := by
    intro i b hi
    rw [hl'] at hi ⊢
    have hlt : i < n + 1 := by
      have hlength := lt_length_of_getElem? hi
      rw [List.length_take] at hlength
      omega
    rw [List.getElem?_take_of_lt hlt] at hi
    refine (h.block i b hi).congr fun j hj => ?_
    exact List.getElem?_take_of_lt (hj.trans hlt)

theorem WellFormed.last (h : WellFormed net l) :
    ∃ header data metadata, l.blocks.getLast? = some ⟨some header, some data, some metadata⟩ ∧
      header.number + 1 = l.blocks.length := by
  have hpos := List.length_pos_iff.mpr h.nonempty
  obtain ⟨b, hb⟩ : ∃ b, l.blocks.getLast? = some b := by
    rw [← Option.isSome_iff_exists, List.getLast?_isSome]
    exact h.nonempty
  have hat := hb
  rw [List.getLast?_eq_getElem?] at hat
  obtain ⟨header, data, metadata, filter, rfl, _, hnumber, _⟩ := h.block _ b hat
  exact ⟨header, data, metadata, hb, by omega⟩

theorem WellFormed.reportsTip (h : WellFormed net l) : ReportsTip net l := by
  obtain ⟨header, data, metadata, hlast, hnumber⟩ := h.last
  refine ⟨_, header, hlast, rfl, hnumber.symm, ?_⟩
  rw [Network.chainInfo, Ledger.tip, hlast, hnumber]
  rfl

end Chain

section Operations

variable {net : Network} {l l' : Ledger} {env : Env} {batch : List Proto.Envelope}

theorem length_scatter {txs : List Transaction} {txFilter : List Byte}
    {blockFilter filter : Bytes} (h : scatter txs txFilter blockFilter = .ok filter) :
    filter.length = blockFilter.length := by
  induction txFilter generalizing txs blockFilter with
  | nil =>
      rw [scatter] at h
      cases h
      rfl
  | cons status rest ih =>
      cases txs with
      | nil => cases h
      | cons tx txs =>
          rw [scatter] at h
          split at h
          · rw [ih h, List.length_set]
          · cases h

theorem length_dataOf (net : Network) (batch : List Proto.Envelope) :
    (net.dataOf batch).length = batch.length := List.length_map _

/-- The block that `process` stores is the next one of the chain. -/
theorem wellFormedAt_prepared (h : WellFormed net l) {tip : Proto.BlockHeader} {raw bl : Block}
    {txFilter : List Byte} {filter : Bytes} {fbl : Proto.Block}
    (hp : Prepared net env l batch tip raw bl txFilter filter fbl) :
    WellFormedAt net (l.blocks ++ [fbl]) l.blocks.length fbl := by
  obtain ⟨header, data, metadata, hlast, hnumber⟩ := h.last
  have htip : tip = header := by
    have := hp.ontoTip
    rw [Ledger.tip, hlast] at this
    exact (Outcome.ok.inj this).symm
  refine ⟨_, _, _, filter, hp.stored, rfl, rfl, ?_, rfl, ?_⟩
  · rw [← hnumber, Network.hashBefore, htip]
    rw [List.getLast?_eq_getElem?, ← hnumber, Nat.add_sub_cancel] at hlast
    rw [List.getElem?_append_left (by omega), hlast]
    rfl
  · rw [length_scatter hp.scattered, length_dataOf, List.length_replicate]

theorem process_wellFormed (h : WellFormed net l) (env : Env) (batch : List Proto.Envelope) :
    WellFormed net (net.process env l batch).2 := by
  by_cases hok : (net.process env l batch).1 = .ok ()
  · obtain ⟨bl, fbl, hprepare, hcommit⟩ := process_eq_ok.mp (Prod.ext hok rfl)
    obtain ⟨tip, raw, txFilter, filter, hp⟩ := prepare_eq_ok.mp hprepare
    exact h.append (wellFormedAt_prepared h hp) (commit_eq_ok.mp hcommit).1
  · rw [process_of_ne_ok hok]
    exact h

theorem truncate_wellFormed (h : WellFormed net l) (num : ℕ) :
    WellFormed net (l.truncate num).2 := by
  by_cases hok : (l.truncate num).1 = .ok ()
  · obtain ⟨_, _, hl'⟩ := truncate_eq_ok.mp (Prod.ext hok rfl)
    exact h.take num (congrArg Ledger.blocks hl')
  · rw [truncate_of_ne_ok hok]
    exact h

theorem apply_wellFormed (h : WellFormed net l) (op : Op) : WellFormed net (net.apply l op).2 := by
  cases op with
  | process env batch => exact process_wellFormed h env batch
  | truncate num => exact truncate_wellFormed h num

theorem newLedger_wellFormed {db : Option Database} (h : net.newLedger db = .ok l) :
    WellFormed net l := by
  simp only [Network.newLedger, Network.makeGenesisBlock, Outcome.bind_eq_ok] at h
  obtain ⟨genesis, ⟨_, _, _, _, payload, _, hgenesis⟩, h⟩ := h
  cases hgenesis
  cases h
  refine ⟨by simp, fun i b hi => ?_⟩
  obtain ⟨hlt, hi⟩ := List.getElem?_eq_some_iff.mp hi
  obtain rfl : i = 0 := by simpa using hlt
  cases hi
  exact ⟨_, _, _, [0], rfl, rfl, rfl, rfl, rfl, rfl⟩

theorem run_wellFormed (h : WellFormed net l) (ops : List Op) : WellFormed net (net.run l ops) := by
  induction ops generalizing l with
  | nil => exact h
  | cons op ops ih => exact ih (apply_wellFormed h op)

/-- An operation that returns an error leaves the ledger alone. -/
theorem apply_of_error {op : Op} {err : Text} (h : (net.apply l op).1 = .error err) :
    (net.apply l op).2 = l := by
  cases op with
  | process env batch =>
      apply process_of_ne_ok
      intro hok
      rw [Network.apply, hok] at h
      cases h
  | truncate num =>
      apply truncate_of_ne_ok
      intro hok
      rw [Network.apply, hok] at h
      cases h

/-- After any sequence of operations the chain is well formed and the ledger reports its
tip. An operation that fails changes nothing, and a truncation that succeeds keeps the
blocks up to its number, which is that of a block. -/
theorem ledger_chain_wellFormed {db : Option Database} (h : net.newLedger db = .ok l)
    (ops : List Op) :
    WellFormed net (net.run l ops) ∧ ReportsTip net (net.run l ops) ∧
    (∀ op err, (net.apply (net.run l ops) op).1 = .error err →
      (net.apply (net.run l ops) op).2.blocks = (net.run l ops).blocks) ∧
    ∀ num, (net.apply (net.run l ops) (.truncate num)).1 = .ok () →
      num < (net.run l ops).blocks.length ∧
      (net.apply (net.run l ops) (.truncate num)).2.blocks =
        (net.run l ops).blocks.take (num + 1) := by
  have hwf := run_wellFormed (newLedger_wellFormed h) ops
  refine ⟨hwf, hwf.reportsTip, fun op err herr => by rw [apply_of_error herr], fun num hok => ?_⟩
  obtain ⟨_, hlt, hl'⟩ := truncate_eq_ok.mp (Prod.ext hok rfl)
  exact ⟨hlt, congrArg Ledger.blocks hl'⟩

end Operations

section Sample

/-- The validation codes that the SDK names. -/
def sampleNames : CodeNames (Fabric.statusFromValidationCode sampleCodes) where
  named := [0, 4, 9, 10, 11, 12, 254]
  committed := ⟨0, List.mem_cons_self, rfl⟩
  mvccConflict := ⟨11, by simp, rfl⟩
  byte := by decide

/-- A classic Fabric network whose hashes are the numbers they cover. -/
def sampleFabric : Network where
  codecs := Proto.Codecs.protobuf
  rt := Runtime.canonical
  headerHash := fun header => [Fin.ofNat 256 header.number, Fin.ofNat 256 header.dataHash.length]
  dataHash := fun data => data.flatten
  type := .fabric sampleCodes sampleNames

/-- Nothing fails, and an external world state is empty. -/
def sampleEnv : Env := ⟨0, fun _ _ => none, [], fun _ _ => .ok none⟩

/-- The ledger of the sample network with its genesis block. -/
def sampleLedger (db : Option Database) : Ledger :=
  (sampleFabric.newLedger db).getD ⟨[], db⟩

theorem sampleLedger_new (db : Option Database) :
    sampleFabric.newLedger db = .ok (sampleLedger db) := rfl

/-- A cut, a truncation to the genesis block and one to a block that does not exist. -/
theorem ledger_chain_wellFormed_sample :
    sampleFabric.newLedger none = .ok (sampleLedger none) ∧
    (sampleFabric.apply (sampleLedger none) (.truncate 1)).1 =
      .error [.lit "cannot revert to block ", .num 1, .lit ": height is ", .num 1] ∧
    WellFormed sampleFabric (sampleFabric.run (sampleLedger none)
      [.process sampleEnv [], .truncate 0, .truncate 5, .process sampleEnv []]) :=
  ⟨rfl, rfl, (ledger_chain_wellFormed (sampleLedger_new none) _).1⟩

end Sample

end FabricXSdk.FabricTest

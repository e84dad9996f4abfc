import FabricXSdk.Blocks.Positions
import FabricXSdk.FabricTest.Chain
import FabricXSdk.State.NewBlock

/-!
# The transaction filter of a committed block

`process` validates the transactions of a block and scatters their outcomes to the
positions of their envelopes. The byte of a transaction reports its status. A position that
the parser dropped keeps the byte zero, which is no outcome in Fabric-X and the code of a
valid transaction in classic Fabric.
-/

namespace FabricXSdk.FabricTest

open Golang Blocks State Atomic

section Network

variable (net : Network)

/-- The named codes of the network's protocol. -/
def Network.names : (net : Network) → CodeNames net.mapping
  | ⟨_, _, _, _, .fabric _ names⟩ => names
  | ⟨_, _, _, _, .fabricX _ names⟩ => names

theorem mapping_raw (code : Int) : (net.mapping code).2.1 = code := by
  obtain ⟨_, _, _, _, type⟩ := net
  cases type <;> rfl

theorem validator_codes (db : RecordGetter) :
    (net.validator db).codes = codesByStatus net.rt net.names.named net.mapping := by
  obtain ⟨_, _, _, _, type⟩ := net
  cases type <;> rfl

theorem validator_db (db : RecordGetter) : (net.validator db).db = db := by
  obtain ⟨_, _, _, _, type⟩ := net
  cases type <;> rfl

theorem parser_inStep : net.parser.InStep net.codecs net.mapping := by
  obtain ⟨c, _, _, _, type⟩ := net
  cases type with
  | fabric codes names => exact Fabric.parser_inStep codes
  | fabricX codes names => exact FabricX.parser_inStep codes

end Network

section Scatter

variable {txs : List Transaction} {txFilter : List Byte} {blockFilter filter : Bytes}

theorem scatter_cons {tx : Transaction} {status : Byte}
    (h : scatter (tx :: txs) (status :: txFilter) blockFilter = .ok filter) :
    tx.number < blockFilter.length ∧
      scatter txs txFilter (blockFilter.set tx.number status) = .ok filter := by
  rw [scatter] at h
  split at h
  · rename_i hlt
    exact ⟨hlt, h⟩
  · cases h

/-- A position that no transaction has keeps its byte. -/
theorem scatter_other {R : Transaction → Byte → Prop} (hR : List.Forall₂ R txs txFilter)
    (h : scatter txs txFilter blockFilter = .ok filter) {p : ℕ}
    (hp : ∀ tx ∈ txs, tx.number ≠ p) : filter[p]? = blockFilter[p]? := by
  induction hR generalizing blockFilter with
  | nil =>
      cases h
      rfl
  | @cons tx status txs txFilter _ _ ih =>
      rw [List.forall_mem_cons] at hp
      obtain ⟨_, h⟩ := scatter_cons h
      rw [ih h hp.2, List.getElem?_set_ne hp.1]

/-- The position of a transaction gets the byte of the transaction. -/
theorem scatter_mem {R : Transaction → Byte → Prop} (hR : List.Forall₂ R txs txFilter)
    (horder : txs.Pairwise fun t t' => t.number < t'.number)
    (h : scatter txs txFilter blockFilter = .ok filter) :
    ∀ tx ∈ txs, ∃ status, filter[tx.number]? = some status ∧ R tx status := by
  induction hR generalizing blockFilter with
  | nil => simp
  | @cons tx status txs txFilter htx htail ih =>
      rw [List.pairwise_cons] at horder
      obtain ⟨hlt, h⟩ := scatter_cons h
      refine List.forall_mem_cons.mpr ⟨⟨status, ?_, htx⟩, ih horder.2 h⟩
      -- the transactions behind it write to other positions
      rw [scatter_other htail h fun t ht => (horder.1 t ht).ne',
        List.getElem?_set_self hlt]

/-- Positions within the block never panic. -/
theorem exists_scatter {R : Transaction → Byte → Prop} (hR : List.Forall₂ R txs txFilter)
    (hlt : ∀ tx ∈ txs, tx.number < blockFilter.length) :
    ∃ filter, scatter txs txFilter blockFilter = .ok filter := by
  induction hR generalizing blockFilter with
  | nil => exact ⟨blockFilter, rfl⟩
  | @cons tx status txs txFilter _ _ ih =>
      rw [List.forall_mem_cons] at hlt
      rw [scatter, if_pos hlt.1]
      exact ih fun t ht => by rw [List.length_set]; exact hlt.2 t ht

end Scatter

section Prepared

variable {net : Network} {env : Env} {l l' : Ledger} {batch : List Proto.Envelope}
  {tip : Proto.BlockHeader} {raw bl : Block} {txFilter : List Byte} {filter : Bytes}
  {fbl : Proto.Block}

/-- The transactions that the data of a block decodes to, each with its position and the
outcome that a filter gives it. -/
def Network.transactions (net : Network) (filter : Bytes) (data : List Bytes) :
    List Transaction :=
  data.zipIdx.filterMap fun e =>
    (accepted net.codecs net.parser e.1).map (placedAt net.mapping filter e.2)

theorem parse_transactions {now : Int} {header : Proto.BlockHeader} {data : List Bytes}
    (h : net.parse now ⟨some header, some data, some [[], [], filter]⟩ = .ok bl) :
    bl.number = header.number ∧ bl.transactions = net.transactions filter data := by
  obtain ⟨_, _, txFilter, _, hheader, hmetadata, hfilter, hdata, hnumber, htxs⟩ :=
    parseBlock_ok h
  cases hheader
  cases hmetadata
  cases hfilter
  cases hdata
  exact ⟨hnumber, htxs.trans (transactionsFrom_eq (parser_inStep net) _ 0 data)⟩

theorem Prepared.raw_transactions (h : Prepared net env l batch tip raw bl txFilter filter fbl) :
    raw.number = l.blocks.length ∧
      raw.transactions = net.transactions (List.replicate batch.length 0) (net.dataOf batch) :=
  parse_transactions h.parsed

theorem Prepared.validateFrom_eq
    (h : Prepared net env l batch tip raw bl txFilter filter fbl) :
    let v := validateFrom (net.validator (env.recordGetter l)) [] raw.transactions
    bl = { raw with transactions := v.transactions } ∧ txFilter = v.txFilter ∧ v.err = none := by
  have hvalidated := h.validated
  simp only [validate, Prod.mk.injEq] at hvalidated
  exact ⟨hvalidated.1.symm, hvalidated.2.1.symm, hvalidated.2.2⟩

theorem Prepared.sameBody (h : Prepared net env l batch tip raw bl txFilter filter fbl) :
    List.Forall₂ SameBody raw.transactions bl.transactions := by
  rw [h.validateFrom_eq.1]
  exact validateFrom_sameBody (net.validator (env.recordGetter l)) [] raw.transactions

theorem Prepared.number (h : Prepared net env l batch tip raw bl txFilter filter fbl) :
    bl.number = l.blocks.length := by
  rw [h.validateFrom_eq.1]
  exact h.raw_transactions.1

theorem Prepared.inOrder (h : Prepared net env l batch tip raw bl txFilter filter fbl) :
    bl.InOrder := by
  rw [h.validateFrom_eq.1]
  exact validate_inOrder (parseBlock_inOrder h.parsed)

theorem Prepared.reports (h : Prepared net env l batch tip raw bl txFilter filter fbl) :
    List.Forall₂ (Reports net.mapping) bl.transactions txFilter := by
  obtain ⟨hbl, hfilter, herr⟩ := h.validateFrom_eq
  rw [hbl, hfilter]
  exact validateFrom_reports
    (codeFor_back (mapping_raw net) (validator_codes net (env.recordGetter l))) herr

/-- The numbers of the transactions are the positions of the envelopes that decode. -/
theorem Prepared.exists_number_iff
    (h : Prepared net env l batch tip raw bl txFilter filter fbl) (p : ℕ) :
    (∃ tx ∈ bl.transactions, tx.number = p) ↔
      ∃ e, (net.dataOf batch)[p]? = some e ∧ (accepted net.codecs net.parser e).isSome := by
  have hnumbers := map_number_of_sameBody h.sameBody
  have hmem : (∃ tx ∈ bl.transactions, tx.number = p) ↔
      p ∈ bl.transactions.map Transaction.number := by
    rw [List.mem_map]
  rw [hmem, hnumbers, h.raw_transactions.2, Network.transactions, List.mem_map]
  simp only [List.mem_filterMap, Option.map_eq_some_iff, Prod.exists, List.mem_zipIdx_iff_getElem?,
    Option.isSome_iff_exists]
  constructor
  · rintro ⟨_, ⟨e, i, hat, tx, hacc, rfl⟩, rfl⟩
    exact ⟨e, hat, tx, hacc⟩
  · rintro ⟨e, hat, tx, hacc⟩
    exact ⟨_, ⟨e, p, hat, tx, hacc, rfl⟩, rfl⟩

/-- A byte of the filter: the report of the transaction at its position, or zero. -/
theorem Prepared.filter_at (h : Prepared net env l batch tip raw bl txFilter filter fbl) {p : ℕ}
    {byte : Byte} (hbyte : filter[p]? = some byte) :
    (∃ tx ∈ bl.transactions, tx.number = p ∧ Reports net.mapping tx byte) ∨
      ((∀ tx ∈ bl.transactions, tx.number ≠ p) ∧ byte = 0) := by
  by_cases hp : ∃ tx ∈ bl.transactions, tx.number = p
  · obtain ⟨tx, htx, rfl⟩ := hp
    obtain ⟨status, hstatus, hreports⟩ := scatter_mem h.reports h.inOrder h.scattered tx htx
    rw [hbyte] at hstatus
    cases hstatus
    exact Or.inl ⟨tx, htx, rfl, hreports⟩
  · have hno : ∀ tx ∈ bl.transactions, tx.number ≠ p := fun tx htx heq => hp ⟨tx, htx, heq⟩
    rw [scatter_other h.reports h.scattered hno] at hbyte
    exact Or.inr ⟨hno, (List.mem_replicate.mp (List.mem_of_getElem? hbyte)).2⟩

end Prepared

section Applied

variable {net : Network} {env : Env} {l l' : Ledger} {batch : List Proto.Envelope} {bl : Block}
  {fbl : Proto.Block}

/-- The own world state, if there is one, has the writes of the transaction. -/
def AppliedIn (l : Ledger) (bl : Block) (tx : Transaction) : Prop :=
  ∀ db, l.db = some db → ∀ r ∈ txRows channel bl.number tx,
    ∃ x, selectIn db.worldstate r = some x ∧ SameContent x r

/-- The filter of a committed block marks the applied transactions as committed, and
nothing else. -/
def MarksApplied (net : Network) (l : Ledger) (bl : Block) (fbl : Proto.Block) : Prop :=
  ∀ metadata filter, fbl.metadata = some metadata →
    metadata[Proto.transactionsFilter]? = some filter → ∀ p byte, filter[p]? = some byte →
      ((net.mapping byte.val).1 = .committed ↔
        ∃ tx ∈ bl.transactions, tx.number = p ∧ tx.status = .committed ∧ AppliedIn l bl tx)

/-- A block that is committed has been applied. -/
theorem appliedIn_of_commit (h : l.commit env bl fbl = (.ok (), l')) :
    ∀ tx ∈ bl.transactions, AppliedIn l' bl tx := by
  intro tx htx db' hdb' r hr
  rcases (commit_eq_ok.mp h).2 with ⟨_, hnone⟩ | ⟨db, db'', _, hsome, hu⟩
  · rw [hnone] at hdb'
    cases hdb'
  · rw [hsome] at hdb'
    cases hdb'
    exact (settled_of_update hu).rows r (List.mem_flatMap.mpr ⟨tx, htx, hr⟩)

/-- No envelope was dropped exactly if there is a transaction for every filter byte. -/
theorem Prepared.all_parsed_iff {tip : Proto.BlockHeader} {raw : Block} {txFilter : List Byte}
    {filter : Bytes} (hp : Prepared net env l batch tip raw bl txFilter filter fbl) :
    (∀ e ∈ net.dataOf batch, (accepted net.codecs net.parser e).isSome) ↔
      ∀ p < filter.length, ∃ tx ∈ bl.transactions, tx.number = p := by
  have hlength : filter.length = (net.dataOf batch).length := by
    rw [length_scatter hp.scattered, length_dataOf, List.length_replicate]
  rw [hlength]
  constructor
  · intro hall p hlt
    exact (hp.exists_number_iff p).mpr
      ⟨_, List.getElem?_eq_getElem hlt, hall _ (List.getElem_mem hlt)⟩
  · intro hall e he
    obtain ⟨p, hlt, rfl⟩ := List.getElem_of_mem he
    obtain ⟨e, he, hacc⟩ := (hp.exists_number_iff p).mp (hall p hlt)
    rw [List.getElem?_eq_getElem hlt, Option.some.injEq] at he
    rw [he]
    exact hacc

/-- The filter marks the applied transactions exactly if the zero byte is not the code of
a committed transaction, or no position of the block keeps it. -/
theorem filter_marks_applied_iff (hprepare : net.prepare env l batch = .ok (bl, fbl))
    (hprocess : net.process env l batch = (.ok (), l')) :
    MarksApplied net l' bl fbl ↔
      (net.mapping 0).1 ≠ .committed ∨
        ∀ e ∈ net.dataOf batch, (accepted net.codecs net.parser e).isSome := by
  obtain ⟨tip, raw, txFilter, filter, hp⟩ := prepare_eq_ok.mp hprepare
  have happlied := appliedIn_of_commit (commit_of_process hprepare hprocess)
  rw [hp.all_parsed_iff]
  constructor
  · intro h
    rw [or_iff_not_imp_left, not_not]
    intro hzero p hlt
    -- a dropped position keeps the zero byte, which then has to be a transaction's
    have hbyte : filter[p]? = some filter[p] := List.getElem?_eq_getElem hlt
    have hiff := h _ filter (by rw [hp.stored]) rfl p filter[p] hbyte
    rcases hp.filter_at hbyte with ⟨tx, htx, hnumber, _⟩ | ⟨_, hz⟩
    · exact ⟨tx, htx, hnumber⟩
    · rw [hz] at hiff
      obtain ⟨tx, htx, hnumber, _⟩ := hiff.mp hzero
      exact ⟨tx, htx, hnumber⟩
  · rintro h metadata filter' hmetadata hfilter' p byte hbyte
    rw [hp.stored] at hmetadata
    cases hmetadata
    cases hfilter'
    rcases hp.filter_at hbyte with ⟨tx, htx, hnumber, hreports⟩ | ⟨hno, rfl⟩
    · rw [hreports]
      constructor
      · intro hc
        exact ⟨tx, htx, hnumber, hc, happlied tx htx⟩
      · rintro ⟨tx', htx', hnumber', hc, _⟩
        rwa [eq_of_number hp.inOrder htx htx' (hnumber.trans hnumber'.symm)]
    · -- a dropped position: nothing was parsed there
      refine iff_of_false (h.resolve_right fun hall => ?_) ?_
      · obtain ⟨tx, htx, hnumber⟩ := hall p (List.getElem?_eq_some_iff.mp hbyte).choose
        exact hno tx htx hnumber
      · rintro ⟨tx, htx, hnumber, _⟩
        exact hno tx htx hnumber

end Applied

section Sample

/-- An envelope without a payload, which no parser reads. -/
def sampleEmpty : Proto.Envelope := ⟨[], []⟩

/-- The committer statuses that the SDK names. -/
def sampleStatusNames : CodeNames (FabricX.statusFromCommitterStatus sampleStatusCodes) where
  named := [0, 1, 2, 3, 100]
  committed := ⟨1, by simp, rfl⟩
  mvccConflict := ⟨3, by simp, rfl⟩
  byte := by decide

def sampleFabricX : Network :=
  { sampleFabric with type := .fabricX sampleStatusCodes sampleStatusNames }

/-- The block that holds the empty envelope, with a zero filter byte. -/
def sampleStored : Proto.Block :=
  ⟨some ⟨1, sampleFabric.headerHash ⟨0, [], sampleFabric.dataHash
      (((sampleLedger none).blocks.getLast?.bind Proto.Block.data).getD [])⟩, []⟩,
    some [[]], some [[], [], [0]]⟩

def sampleParsed : Block :=
  ⟨1, sampleFabric.headerHash ⟨1, [], []⟩, sampleFabric.headerHash ⟨0, [], sampleFabric.dataHash
      (((sampleLedger none).blocks.getLast?.bind Proto.Block.data).getD [])⟩, 0, [], none⟩

/-- The ledger with that block on its chain. -/
def sampleAfter : Ledger :=
  ⟨(sampleLedger none).blocks ++ [sampleStored],
    some (applied channel Database.empty sampleParsed)⟩

/-- In Fabric-X a dropped position is unspecified. -/
theorem filter_marks_applied_iff_fabricX :
    MarksApplied sampleFabricX sampleAfter sampleParsed sampleStored := by
  have hprepare : sampleFabricX.prepare sampleEnv (sampleLedger (some Database.empty))
      [sampleEmpty] = .ok (sampleParsed, sampleStored) := rfl
  have hprocess : sampleFabricX.process sampleEnv (sampleLedger (some Database.empty))
      [sampleEmpty] = (.ok (), sampleAfter) := rfl
  exact (filter_marks_applied_iff hprepare hprocess).mpr (Or.inl (by decide))

/-- In classic Fabric the zero byte is `VALID`, so the position of an envelope that was
dropped is marked as a committed transaction. -/
theorem dropped_position_marked_valid :
    sampleFabric.prepare sampleEnv (sampleLedger (some Database.empty)) [sampleEmpty] =
      .ok (sampleParsed, sampleStored) ∧
    sampleFabric.process sampleEnv (sampleLedger (some Database.empty)) [sampleEmpty] =
      (.ok (), sampleAfter) ∧
    (sampleFabric.mapping 0).1 = .committed ∧
    ¬ MarksApplied sampleFabric sampleAfter sampleParsed sampleStored := by
  refine ⟨rfl, rfl, rfl, fun h => ?_⟩
  obtain ⟨tx, htx, _⟩ := (h _ [0] rfl rfl 0 0 rfl).mp rfl
  cases htx

end Sample

end FabricXSdk.FabricTest

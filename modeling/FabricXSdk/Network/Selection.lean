import FabricXSdk.Network.BlockEvent

/-!
# What a subscription selects of a block

A request to the sidecar names statuses and namespaces, and says which parts of a
transaction to include. The event that the sidecar builds for a block, converted to a batch,
has the transactions that the request selects of those the parser reads out of the block,
each cut down to the parts it includes. There is no event for a block without any.
-/

namespace FabricXSdk.Network.FabricX

open Golang Blocks Notification
open FabricTest (statusMatches filterNamespaces buildTxEvent buildTxEvents buildBlockEvent)
open Blocks.FabricX (CommitterCodes decodeMetadata decodeNamespaces)

section Selection

variable (req : Proto.StreamBlocksRequest)

/-- The namespaces of a transaction that a request is about. -/
def selectNamespaces (nsRWS : List NsReadWriteSet) : List NsReadWriteSet :=
  if req.filterNamespaces = [] then nsRWS
  else nsRWS.filter fun n => n.ns ∈ req.filterNamespaces

/-- The request is about the transaction. -/
def Selects (tx : Transaction) : Prop :=
  (req.filterStatus = [] ∨ tx.rawCode ∈ req.filterStatus) ∧
    (req.filterNamespaces = [] ∨ selectNamespaces req tx.nsRWS ≠ [])

instance (tx : Transaction) : Decidable (Selects req tx) :=
  inferInstanceAs (Decidable (_ ∧ _))

/-- The parts of a transaction that the request includes. -/
def cutDown (tx : Transaction) : Transaction :=
  { tx with
    inputArgs := if req.includeMetadata then tx.inputArgs else []
    event := if req.includeMetadata then tx.event else []
    eventName := if req.includeMetadata then tx.eventName else []
    payload := if req.includeMetadata then tx.payload else []
    nsRWS := if req.includeReadWriteSets then selectNamespaces req tx.nsRWS else [] }

def select (tx : Transaction) : Option Transaction :=
  if Selects req tx then some (cutDown req tx) else none

/-- What the request selects of a block. -/
def selection (block : Block) : List Transaction := block.transactions.filterMap (select req)

/-- A batch has the number and the hashes of a block, and what the request selects of it. -/
structure Shows (batch : AllTxBatch) (block : Block) : Prop where
  number : batch.blockNumber = block.number
  hash : batch.hash = block.hash
  parentHash : batch.parentHash = block.parentHash
  transactions : batch.events.map CommittedTxEvent.transaction = selection req block

/-- The request is about some transaction of the block. -/
def Touches (block : Block) : Prop := selection req block ≠ []

instance (block : Block) : Decidable (Touches req block) :=
  inferInstanceAs (Decidable (_ ≠ _))

/-- The events that the sidecar builds for everything, narrowed to the request. -/
def selectEvent (e : Proto.TxEvent) : Option Proto.TxEvent :=
  if statusMatches e.status req.filterStatus ∧
      (filterNamespaces e.namespaces req.filterNamespaces).2 then
    some { e with
      namespaces :=
        if req.includeReadWriteSets then (filterNamespaces e.namespaces req.filterNamespaces).1
        else []
      endorsements := if req.includeEndorsements then e.endorsements else []
      metadata := if req.includeMetadata then e.metadata else [] }
  else none

end Selection

section Events

variable {c : Proto.Codecs} {codes : CommitterCodes} {req : Proto.StreamBlocksRequest}
  {header : Proto.BlockHeader} {txFilter : Bytes}

@[simp] theorem statusMatches_nil (status : Int) : statusMatches status [] = true := by
  simp [statusMatches]

@[simp] theorem filterNamespaces_nil (all : List Proto.TxNamespace) :
    filterNamespaces all [] = (all, true) :=
  if_pos rfl

/-- The event of an envelope is narrowed after it was built for everything. -/
theorem buildTxEvent_select (txNum : ℕ) (envBytes : Bytes) :
    buildTxEvent c req (some header) txFilter txNum envBytes =
      buildTxEvent c completeRequest (some header) txFilter txNum envBytes >>= fun e =>
        .ok (e.bind (selectEvent req)) := by
  cases henv : c.envelope.unmarshal envBytes with
  | error err => simp only [buildTxEvent, henv, Outcome.ok_bind, Option.bind_none]
  | ok env =>
      cases hopen : openEnvelope c env with
      | error err => simp only [buildTxEvent, henv, hopen, Outcome.ok_bind, Option.bind_none]
      | ok opened =>
          obtain ⟨pl, chdr⟩ := opened
          by_cases htype : chdr.type = Proto.headerTypeMessage
          · cases htx : c.tx.unmarshal pl.data with
            | error err => simp [buildTxEvent, henv, hopen, htype, htx]
            | ok ptx =>
                cases hcode : txFilter[txNum]? with
                | none => simp [buildTxEvent, henv, hopen, htype, htx, hcode, Outcome.deref]
                | some code =>
                    by_cases hstatus : statusMatches code.val req.filterStatus = true <;>
                      by_cases htouched :
                        (filterNamespaces ptx.namespaces req.filterNamespaces).2 = true <;>
                      simp [buildTxEvent, henv, hopen, htype, htx, hcode, Outcome.deref,
                        completeRequest, selectEvent, hstatus, htouched]
          · simp [buildTxEvent, henv, hopen, htype]

theorem buildTxEvents_select (txNum : ℕ) (data : List Bytes) :
    buildTxEvents c req (some header) txFilter txNum data =
      buildTxEvents c completeRequest (some header) txFilter txNum data >>= fun events =>
        .ok (events.filterMap (selectEvent req)) := by
  induction data generalizing txNum with
  | nil => rfl
  | cons envBytes rest ih =>
      rw [buildTxEvents, buildTxEvents, buildTxEvent_select, ih]
      cases buildTxEvent c completeRequest (some header) txFilter txNum envBytes with
      | error err => rfl
      | panic => rfl
      | ok event =>
          cases buildTxEvents c completeRequest (some header) txFilter (txNum + 1) rest with
          | error err => rfl
          | panic => rfl
          | ok events =>
              cases event with
              | none => rfl
              | some e =>
                  cases hselected : selectEvent req e <;>
                    simp [hselected]

/-- Namespaces are selected before or after they are decoded. -/
theorem decodeNamespaces_filter (all : List Proto.TxNamespace) :
    decodeNamespaces (filterNamespaces all req.filterNamespaces).1 =
      selectNamespaces req (decodeNamespaces all) := by
  by_cases hempty : req.filterNamespaces = []
  · rw [selectNamespaces, if_pos hempty, hempty, filterNamespaces_nil]
  · rw [selectNamespaces, if_neg hempty, filterNamespaces,
      if_neg (mt List.length_eq_zero_iff.mp hempty), decodeNamespaces, decodeNamespaces,
      List.filter_map]
    rfl

theorem filterNamespaces_touched (all : List Proto.TxNamespace) :
    (filterNamespaces all req.filterNamespaces).2 = true ↔ req.filterNamespaces = [] ∨
      selectNamespaces req (decodeNamespaces all) ≠ [] := by
  rw [← decodeNamespaces_filter]
  by_cases hempty : req.filterNamespaces = []
  · simp [hempty]
  · simp [filterNamespaces, hempty, decodeNamespaces, List.length_pos_iff]

theorem statusMatches_iff {status : Int} {filter : List Int} :
    statusMatches status filter = true ↔ filter = [] ∨ status ∈ filter := by
  rw [statusMatches, decide_eq_true_eq, List.length_eq_zero_iff]

theorem decodeNamespaces_nil : decodeNamespaces [] = [] := rfl

theorem decodeMetadata_nil (c : Proto.Codecs) :
    decodeMetadata c [] = Blocks.FabricX.Metadata.empty := rfl

/-- Narrowing an event selects its transaction. -/
theorem convert_selectEvent (e : Proto.TxEvent) :
    (selectEvent req e).map (fun e => (convertTxEvent c codes e).transaction) =
      select req (convertTxEvent c codes e).transaction := by
  have hselects : Selects req (convertTxEvent c codes e).transaction ↔
      statusMatches e.status req.filterStatus = true ∧
        (filterNamespaces e.namespaces req.filterNamespaces).2 = true := by
    rw [statusMatches_iff, filterNamespaces_touched]
    rfl
  rw [select, selectEvent]
  by_cases hs : Selects req (convertTxEvent c codes e).transaction
  · rw [if_pos hs, if_pos (hselects.mp hs), Option.map_some, cutDown]
    cases req.includeMetadata <;> cases req.includeReadWriteSets <;>
      simp [convertTxEvent, decodeNamespaces_filter, decodeMetadata_nil, decodeNamespaces_nil,
        Blocks.FabricX.Metadata.empty]
  · rw [if_neg hs, if_neg (mt hselects.mpr hs), Option.map_none]

/-- The sidecar shows a block that parses if the request is about some transaction of it, and
passes it over otherwise. -/
theorem buildBlockEvent_shows {hash : Proto.BlockHeader → Bytes} {now : Int} {b : Proto.Block}
    {block : Block} (h : Blocks.FabricX.parse c codes hash now b = .ok block)
    (hfilter : FilterPerEnvelope b) (req : Proto.StreamBlocksRequest) :
    (buildBlockEvent c b req = .ok none ∧ ¬ Touches req block) ∨
      ∃ e, buildBlockEvent c b req = .ok (some e) ∧ Touches req block ∧
        Shows req (convertBlockEvent c codes hash e) block := by
  obtain ⟨header, metadata, txFilter, data, hheader, hmetadata, hslot, hdata, hnumber, htxs⟩ :=
    parseBlock_ok h
  obtain ⟨hlen, hsmall⟩ := hfilter metadata txFilter data hmetadata hslot hdata
  obtain ⟨hhash, hparent⟩ := parseBlock_hashes h hheader
  obtain ⟨events, hevents, hconvert⟩ :=
    @convert_buildTxEvents c codes header txFilter 0 data (by omega) (by omega)
  rw [← htxs] at hconvert
  have hselection : (events.filterMap (selectEvent req)).map
      (fun e => (convertTxEvent c codes e).transaction) = selection req block := by
    rw [selection, ← hconvert, List.filterMap_map, List.map_filterMap]
    exact List.filterMap_congr fun e _ => convert_selectEvent e
  have hselected : buildTxEvents c req (some header) txFilter 0 data =
      .ok (events.filterMap (selectEvent req)) := by
    rw [buildTxEvents_select, hevents, Outcome.ok_bind]
  have hbuild : buildBlockEvent c b req =
      .ok (if (events.filterMap (selectEvent req)).length = 0 then none
        else some ⟨b.header, events.filterMap (selectEvent req)⟩) := by
    simp only [buildBlockEvent, hmetadata, hslot, hdata, hheader, Outcome.deref,
      hselected, Outcome.ok_bind, Outcome.pure_eq]
  rw [hbuild]
  by_cases hempty : (events.filterMap (selectEvent req)).length = 0
  · refine Or.inl ⟨by rw [if_pos hempty], fun htouches => htouches ?_⟩
    rw [← hselection, List.length_eq_zero_iff.mp hempty, List.map_nil]
  · refine Or.inr ⟨_, by rw [if_neg hempty], fun hnil => hempty ?_, ?_⟩
    · rw [← hselection, List.map_eq_nil_iff] at hnil
      rw [hnil, List.length_nil]
    · rw [hheader]
      refine ⟨hnumber.symm, hhash.symm, hparent.symm, ?_⟩
      rw [← hselection, convertBlockEvent, List.map_map]
      rfl

end Events

end FabricXSdk.Network.FabricX

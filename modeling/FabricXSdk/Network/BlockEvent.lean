import FabricXSdk.Blocks.Positions
import FabricXSdk.FabricTest.Sidecar
import FabricXSdk.Notification.Types

/-!
# Two ways a block is delivered

A block reaches a handler through the block parser, or as an event of the sidecar
that `convertBlockEvent` maps to a batch of transactions. Both ways give the same
transactions under the same block number and hashes.
-/

namespace FabricXSdk.Network.FabricX

open Golang Blocks Notification

section Model

variable (c : Proto.Codecs)

/-- One pass of the loop of `convertBlockEvent`. The getters of a missing reference
return zero values. -/
def convertTxEvent (codes : Blocks.FabricX.CommitterCodes) (e : Proto.TxEvent) :
    CommittedTxEvent :=
  let md := Blocks.FabricX.decodeMetadata c e.metadata
  let ref := e.ref.getD ⟨0, 0, []⟩
  let (status, rawCode, reason) := Blocks.FabricX.statusFromCommitterStatus codes e.status
  { transaction :=
      { id := ref.txId
        number := ref.txNum
        inputArgs := md.inputArgs
        status := status
        rawCode := rawCode
        reason := reason
        event := md.event
        eventName := md.eventName
        payload := md.payload
        nsRWS := Blocks.FabricX.decodeNamespaces e.namespaces }
    blockNum := ref.blockNum
    endorsements := e.endorsements }

def convertBlockEvent (codes : Blocks.FabricX.CommitterCodes) (hash : Proto.BlockHeader → Bytes)
    (batch : Proto.BlockEvent) : AllTxBatch :=
  let events := batch.events.map (convertTxEvent c codes)
  match batch.header with
  -- an older or partial committer leaves the hashes empty
  | none => ⟨0, [], [], events⟩
  | some h => ⟨h.number, hash h, h.previousHash, events⟩

end Model

/-- A request without filters that includes everything. -/
def completeRequest : Proto.StreamBlocksRequest where
  filterNamespaces := []
  filterStatus := []
  includeReadWriteSets := true
  includeEndorsements := true
  includeMetadata := true

section Agreement

variable {c : Proto.Codecs} {codes : Blocks.FabricX.CommitterCodes}

/-- An event built from an envelope converts to the transaction the parser reads out
of it, and there is an event just where there is a transaction. -/
theorem convert_buildTxEvent (header : Proto.BlockHeader) {txFilter : Bytes} {txNum : ℕ}
    (hfilter : txNum < txFilter.length) (hnum : txNum < 2 ^ 32) (envBytes : Bytes) :
    ∃ event, FabricTest.buildTxEvent c completeRequest (some header) txFilter txNum envBytes =
        .ok event ∧
      event.map (fun e => (convertTxEvent c codes e).transaction) =
        transactionAt c (Blocks.FabricX.parser c codes) txFilter txNum envBytes := by
  have hcode : txFilter[txNum]? = some txFilter[txNum] := List.getElem?_eq_getElem hfilter
  cases henv : c.envelope.unmarshal envBytes with
  | error err =>
      refine ⟨none, ?_, ?_⟩
      · simp only [FabricTest.buildTxEvent, henv]
      · simp only [transactionAt, henv, Option.map_none]
  | ok env =>
      cases hopen : openEnvelope c env with
      | error err =>
          refine ⟨none, ?_, ?_⟩
          · simp only [FabricTest.buildTxEvent, henv, hopen]
          · simp only [transactionAt, henv, hopen, Option.map_none]
      | ok opened =>
          obtain ⟨pl, chdr⟩ := opened
          by_cases htype : chdr.type = Proto.headerTypeMessage
          · -- both sides read the transaction in the payload
            have hconfig : Proto.headerTypeMessage ≠ Proto.headerTypeConfig := by decide
            cases htx : c.tx.unmarshal pl.data with
            | error err =>
                refine ⟨none, ?_, ?_⟩
                · simp only [FabricTest.buildTxEvent, henv, hopen, htype, htx, ne_eq,
                    not_true_eq_false, if_false]
                · simp only [transactionAt, henv, hopen, hconfig, Blocks.FabricX.parser,
                    Blocks.FabricX.parseTx, htype, htx, ne_eq, not_true_eq_false, if_false,
                    Outcome.ofExcept, Outcome.error_bind, Option.map_none]
            | ok ptx =>
                refine ⟨some ⟨some ⟨header.number, txNum % 2 ^ 32, chdr.txId⟩,
                  ((txFilter[txNum]).val : Int), ptx.namespaces, ptx.endorsements, ptx.metadata⟩,
                  ?_, ?_⟩
                · simp [FabricTest.buildTxEvent, henv, hopen, htype, htx, hcode,
                    FabricTest.statusMatches, FabricTest.filterNamespaces, completeRequest,
                    Outcome.deref]
                · simp [transactionAt, henv, hopen, hconfig, Blocks.FabricX.parser,
                    Blocks.FabricX.parseTx, htype, htx, Blocks.FabricX.statusForTx, hcode,
                    Outcome.ofExcept, convertTxEvent, Transaction.setStatus]
                  exact hnum
          · refine ⟨none, ?_, ?_⟩
            · simp only [FabricTest.buildTxEvent, henv, hopen, htype, ne_eq, not_false_eq_true,
                if_true]
            · simp only [transactionAt, henv, hopen, Blocks.FabricX.parser,
                Blocks.FabricX.parseTx, htype, ne_eq, not_false_eq_true, if_true, ite_self,
                Option.map_none]

/-- The events of the envelopes convert to the transactions the parser reads. -/
theorem convert_buildTxEvents (header : Proto.BlockHeader) {txFilter : Bytes} {txNum : ℕ}
    {data : List Bytes} (hfilter : txNum + data.length ≤ txFilter.length)
    (hnum : txNum + data.length ≤ 2 ^ 32) :
    ∃ events, FabricTest.buildTxEvents c completeRequest (some header) txFilter txNum data =
        .ok events ∧
      events.map (fun e => (convertTxEvent c codes e).transaction) =
        transactionsFrom c (Blocks.FabricX.parser c codes) txFilter txNum data := by
  induction data generalizing txNum with
  | nil => exact ⟨[], rfl, rfl⟩
  | cons envBytes rest ih =>
      rw [List.length_cons] at hfilter hnum
      obtain ⟨event, hevent, htx⟩ :=
        @convert_buildTxEvent c codes header txFilter txNum (by omega) (by omega) envBytes
      obtain ⟨events, hevents, htxs⟩ := @ih (txNum + 1) (by omega) (by omega)
      refine ⟨event.toList ++ events, ?_, ?_⟩
      · rw [FabricTest.buildTxEvents, hevent, Outcome.bind_eq_ok]
        exact ⟨event, rfl, Outcome.bind_eq_ok.mpr ⟨events, hevents, rfl⟩⟩
      · rw [transactionsFrom, ← htx, ← htxs, List.map_append]
        cases event <;> rfl

/-- The filter of the block has one entry for each envelope, and the positions of the
envelopes fit an `int32`. -/
def FilterPerEnvelope (b : Proto.Block) : Prop :=
  ∀ metadata txFilter data, b.metadata = some metadata →
    metadata[Proto.transactionsFilter]? = some txFilter → b.data = some data →
      txFilter.length = data.length ∧ data.length < 2 ^ 31

/-- The sidecar event of a block that parses converts to the parsed block: the same
transactions, number and hashes. There is no event just where there are no
transactions. -/
theorem delivery_paths_agree {hash : Proto.BlockHeader → Bytes} {now : Int} {b : Proto.Block}
    {block : Block} (h : Blocks.FabricX.parse c codes hash now b = .ok block)
    (hfilter : FilterPerEnvelope b) :
    ∃ event, FabricTest.buildBlockEvent c b completeRequest = .ok event ∧
      (event = none ↔ block.transactions = []) ∧
      ∀ e, event = some e →
        (convertBlockEvent c codes hash e).events.map CommittedTxEvent.transaction =
          block.transactions ∧
        (convertBlockEvent c codes hash e).blockNumber = block.number ∧
        (convertBlockEvent c codes hash e).hash = block.hash ∧
        (convertBlockEvent c codes hash e).parentHash = block.parentHash := by
  obtain ⟨header, metadata, txFilter, data, hheader, hmetadata, hslot, hdata, hnumber, htxs⟩ :=
    parseBlock_ok h
  obtain ⟨hlen, hsmall⟩ := hfilter metadata txFilter data hmetadata hslot hdata
  obtain ⟨hhash, hparent⟩ := parseBlock_hashes h hheader
  obtain ⟨events, hevents, hconvert⟩ :=
    @convert_buildTxEvents c codes header txFilter 0 data (by omega) (by omega)
  have hbuild : FabricTest.buildBlockEvent c b completeRequest =
      .ok (if events.length = 0 then none else some ⟨b.header, events⟩) := by
    simp only [FabricTest.buildBlockEvent, hmetadata, hslot, hdata, hheader, Outcome.deref,
      hevents, Outcome.ok_bind, Outcome.pure_eq]
  rw [← htxs] at hconvert
  refine ⟨_, hbuild, ?_, ?_⟩
  · rw [← hconvert]
    simp
  · intro e he
    split at he
    · cases he
    · cases he
      rw [hheader, hnumber, hhash, hparent, ← hconvert]
      simp only [convertBlockEvent, List.map_map, Function.comp_def]
      exact ⟨trivial, trivial, trivial, trivial⟩

end Agreement

section Sample

open Proto

/-- Bytes that are no envelope, and a message that was committed. -/
def sampleDelivered : Proto.Block where
  header := some ⟨1, [2], [3]⟩
  data := some [[255], sampleEnvelopeOf headerTypeMessage (txBody.encode ⟨[], [], []⟩)]
  metadata := some [[], [], [0, 1]]

theorem delivery_paths_agree_sample :
    ∃ block event,
      Blocks.FabricX.parse Codecs.protobuf sampleStatusCodes (fun h => h.dataHash) 0
        sampleDelivered = .ok block ∧
      FilterPerEnvelope sampleDelivered ∧
      block.transactions.map Transaction.number = [1] ∧
      FabricTest.buildBlockEvent Codecs.protobuf sampleDelivered completeRequest =
        .ok (some event) ∧
      (convertBlockEvent Codecs.protobuf sampleStatusCodes (fun h => h.dataHash)
        event).events.map CommittedTxEvent.transaction = block.transactions := by
  have hfilter : FilterPerEnvelope sampleDelivered := by
    rintro metadata txFilter data ⟨⟩ ⟨⟩ ⟨⟩
    exact ⟨rfl, by decide⟩
  obtain ⟨block, hblock, hnumbers⟩ : ∃ block,
      Blocks.FabricX.parse Codecs.protobuf sampleStatusCodes (fun h => h.dataHash) 0
        sampleDelivered = .ok block ∧ block.transactions.map Transaction.number = [1] :=
    ⟨_, rfl, by decide +kernel⟩
  obtain ⟨event, hevent, hnone, hsome⟩ := delivery_paths_agree hblock hfilter
  cases event with
  | none =>
      rw [hnone.mp rfl] at hnumbers
      cases hnumbers
  | some e => exact ⟨block, e, hblock, hfilter, hnumbers, hevent, (hsome e rfl).1⟩

end Sample

end FabricXSdk.Network.FabricX

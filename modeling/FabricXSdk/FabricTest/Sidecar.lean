import FabricXSdk.Blocks.Parser

/-!
# Block events of the test sidecar

The peer of package `fabrictest` unwraps the envelopes of a block once more, on its
own, to stream the transactions of the block as events. It skips what is not a
Fabric-X transaction, and what the filters of the request leave out.
-/

namespace FabricXSdk.FabricTest

open Golang Blocks

/-- An empty filter matches every status. -/
def statusMatches (status : Int) (filter : List Int) : Bool :=
  filter.length = 0 ∨ status ∈ filter

/-- The namespaces that match, and whether there are any. An empty filter matches
all, also if a transaction has none. -/
def filterNamespaces (all : List Proto.TxNamespace) (filter : List GoString) :
    List Proto.TxNamespace × Bool :=
  if filter.length = 0 then (all, true)
  else
    let matching := all.filter fun ns => ns.nsId ∈ filter
    (matching, 0 < matching.length)

section Model

variable (c : Proto.Codecs)

/-- One pass of the loop of `buildBlockEvent`. -/
def buildTxEvent (req : Proto.StreamBlocksRequest) (header : Option Proto.BlockHeader)
    (txFilter : Bytes) (txNum : ℕ) (envBytes : Bytes) : Outcome (Option Proto.TxEvent) :=
  match c.envelope.unmarshal envBytes with
  | .error _ => .ok none
  | .ok env =>
      match openEnvelope c env with
      | .error _ => .ok none
      | .ok (pl, chdr) =>
          -- a configuration, or a classic transaction
          if chdr.type ≠ Proto.headerTypeMessage then .ok none
          else
            match c.tx.unmarshal pl.data with
            | .error _ => .ok none
            | .ok ptx => do
                -- an index out of range panics
                let code ← Outcome.deref txFilter[txNum]?
                let status : Int := code.val
                if statusMatches status req.filterStatus then
                  let (namespaces, touched) := filterNamespaces ptx.namespaces req.filterNamespaces
                  if touched then do
                    let header ← Outcome.deref header
                    pure (some
                      { ref := some ⟨header.number, txNum % 2 ^ 32, chdr.txId⟩
                        status := status
                        namespaces := if req.includeReadWriteSets then namespaces else []
                        endorsements := if req.includeEndorsements then ptx.endorsements else []
                        metadata := if req.includeMetadata then ptx.metadata else [] })
                  else pure none
                else pure none

def buildTxEvents (req : Proto.StreamBlocksRequest) (header : Option Proto.BlockHeader)
    (txFilter : Bytes) : ℕ → List Bytes → Outcome (List Proto.TxEvent)
  | _, [] => .ok []
  | txNum, envBytes :: rest => do
      let event ← buildTxEvent c req header txFilter txNum envBytes
      let events ← buildTxEvents req header txFilter (txNum + 1) rest
      pure (event.toList ++ events)

/-- The block as an event, or nothing if no transaction matches the filters. -/
def buildBlockEvent (block : Proto.Block) (req : Proto.StreamBlocksRequest) :
    Outcome (Option Proto.BlockEvent) := do
  let metadata ← Outcome.deref block.metadata
  let txFilter ← Outcome.deref metadata[Proto.transactionsFilter]?
  let data ← Outcome.deref block.data
  let events ← buildTxEvents c req block.header txFilter 0 data
  pure (if events.length = 0 then none else some ⟨block.header, events⟩)

end Model

end FabricXSdk.FabricTest

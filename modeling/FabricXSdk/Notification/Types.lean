import FabricXSdk.Blocks.Types
import FabricXSdk.Proto.Messages

/-!
# Events of package `notification`

What the sidecar streams deliver, in protocol-neutral form: the status of a
transaction somebody waits for, and the transactions of a committed block.
-/

namespace FabricXSdk.Notification

open Golang Blocks

/-- A status notification for one transaction. -/
structure TxStatusEvent where
  txID : GoString
  blockNum : ℕ
  txNum : ℕ
  status : Status
  rawCode : Int
  reason : Text
  deriving DecidableEq, Repr

/-- A transaction received from `StreamAllTransactions`. -/
structure CommittedTxEvent where
  transaction : Transaction
  blockNum : ℕ
  endorsements : List Proto.Endorsements
  deriving DecidableEq, Repr

/-- The transaction events of one committed block. -/
structure AllTxBatch where
  blockNumber : ℕ
  hash : Bytes
  parentHash : Bytes
  events : List CommittedTxEvent
  deriving DecidableEq, Repr

/-- What a subscription to all transactions asks for. An empty filter delivers all
events. -/
structure StreamAllRequest where
  filterNamespaces : List GoString
  filterStatus : List Status
  includeReadWriteSets : Bool
  includeEndorsements : Bool
  includeMetadata : Bool
  deriving DecidableEq, Repr

end FabricXSdk.Notification

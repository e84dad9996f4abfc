import FabricXSdk.Lib.Golang

/-!
# Parsed blocks, transactions and read/write sets

The protocol-neutral data model of package `blocks`. Integers of the source are
natural numbers here: block numbers and versions are `uint64`, and a transaction
number is the index of an envelope in its block.
-/

namespace FabricXSdk.Blocks

open Golang

/-- The protocol-neutral outcome of a transaction. -/
inductive Status
  | unknown
  | committed
  | invalidSignature
  | mvccConflict
  | duplicateTxID
  | malformed
  | unrecognized
  | endorsementPolicyFailure
  deriving DecidableEq, Repr

/-- Whether a status is an outcome, rather than not known yet. -/
def Status.isFinal (s : Status) : Bool := s ≠ .unknown

/-- `StatusCommitted` is the only valid status. -/
def Status.valid (s : Status) : Bool := s = .committed

/-- The stable, upper-case label of a status. -/
def Status.string : Status → String
  | .committed => "COMMITTED"
  | .invalidSignature => "INVALID_SIGNATURE"
  | .mvccConflict => "MVCC_CONFLICT"
  | .duplicateTxID => "DUPLICATE_TX_ID"
  | .malformed => "MALFORMED"
  | .unrecognized => "UNRECOGNIZED"
  | .endorsementPolicyFailure => "ENDORSEMENT_POLICY_FAILURE"
  | .unknown => "UNKNOWN"

/-- The state of a key at the time it was read. Fabric compares both fields,
Fabric-X only `blockNum`, which then holds the per-key version. -/
structure Version where
  blockNum : ℕ
  txNum : ℕ
  deriving DecidableEq, Repr

/-- A read of a simulation; the version is `none` when the key was absent. -/
structure KVRead where
  key : GoString
  version : Option Version
  deriving DecidableEq, Repr

structure KVWrite where
  key : GoString
  isDelete : Bool
  value : Bytes
  deriving DecidableEq, Repr

structure ReadWriteSet where
  reads : List KVRead
  writes : List KVWrite
  deriving DecidableEq, Repr

structure NsReadWriteSet where
  ns : GoString
  rws : ReadWriteSet
  deriving DecidableEq, Repr

/-- One write or delete in the world state. -/
structure WriteRecord where
  ns : GoString
  key : GoString
  blockNum : ℕ
  txNum : ℕ
  version : ℕ
  value : Bytes
  isDelete : Bool
  txID : GoString
  deriving DecidableEq, Repr

structure Transaction where
  id : GoString
  number : ℕ
  inputArgs : List Bytes
  status : Status
  rawCode : Int
  reason : Text
  event : Bytes
  eventName : GoString
  payload : Bytes
  nsRWS : List NsReadWriteSet
  deriving DecidableEq, Repr

def Transaction.valid (t : Transaction) : Bool := t.status.valid

def Transaction.setStatus (t : Transaction) (status : Status) (rawCode : Int) (reason : Text) :
    Transaction :=
  { t with status := status, rawCode := rawCode, reason := reason }

/-- A channel configuration committed by the orderer. -/
structure ConfigTransaction where
  sequence : ℕ
  config : Bytes
  deriving DecidableEq, Repr

structure Block where
  number : ℕ
  hash : Bytes
  parentHash : Bytes
  timestamp : Int
  transactions : List Transaction
  configTransaction : Option ConfigTransaction
  deriving DecidableEq, Repr

theorem Transaction.valid_iff (t : Transaction) : t.valid = true ↔ t.status = .committed := by
  simp [Transaction.valid, Status.valid]

/-- Transactions come in strictly increasing position, as both parsers emit them. -/
def Block.InOrder (b : Block) : Prop := b.transactions.Pairwise fun t t' => t.number < t'.number

end FabricXSdk.Blocks

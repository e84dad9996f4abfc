import FabricXSdk.Lib.Atomic
import FabricXSdk.Lib.VersionLog
import FabricXSdk.Blocks.Types
import Mathlib.Data.Prod.Lex

/-!
# The versioned world state

The two tables behind `VersionedDB` and the SQL statements issued against them.
A statement is a function of the tables; each call to the SQL driver may fail,
and an error anywhere in `UpdateWorldState` rolls the whole block back.

## Implementation notes

The column `created_at` is left out, since no statement reads it. Parameters of
type `uint64` with the high bit set are refused by `database/sql` before the
statement runs, so a stored block number is below `2 ^ 63`; `BlockNumber` never
meets the negative number it guards against.
-/

namespace FabricXSdk.State

open Golang Blocks Atomic

/-- A row of table `worldstate`. -/
structure Row where
  channel : GoString
  ns : GoString
  key : GoString
  versionBlock : ℕ
  versionTx : ℕ
  version : ℕ
  value : Bytes
  isDelete : Bool
  txID : GoString
  deriving DecidableEq, Repr

/-- What `Scan` reads out of a row. -/
def Row.toRecord (r : Row) : WriteRecord where
  ns := r.ns
  key := r.key
  blockNum := r.versionBlock
  txNum := r.versionTx
  version := r.version
  value := r.value
  isDelete := r.isDelete
  txID := r.txID

/-- Primary key `(channel, namespace, key, version_block, version_tx)`, split into
what identifies the key and what identifies the write. -/
def rowSchema : VersionLog.Schema Row (GoString × GoString × GoString) (ℕ ×ₗ ℕ) where
  key := fun r => (r.channel, r.ns, r.key)
  stamp := fun r => toLex (r.versionBlock, r.versionTx)
  version := Row.version
  withVersion := fun n r => { r with version := n }
  key_withVersion := fun _ _ => rfl
  stamp_withVersion := fun _ _ => rfl
  version_withVersion := fun _ _ => rfl

@[ext] structure Database where
  worldstate : List Row
  channelProgress : GoMap ℕ

def Database.empty : Database where
  worldstate := []
  channelProgress := ∅

/-- The rows stored for one key of one channel. -/
def Database.rowsOf (db : Database) (channel ns key : GoString) : List Row :=
  VersionLog.ofKey rowSchema (channel, ns, key) db.worldstate

/-- The row at a primary key, in a list of rows. -/
def selectIn (rows : List Row) (r : Row) : Option Row :=
  rows.find? fun x => rowSchema.key x = rowSchema.key r ∧ rowSchema.stamp x = rowSchema.stamp r

section Statements

/-- `INSERT ... ON CONFLICT DO NOTHING`, with the number of rows affected. -/
def Database.insert (db : Database) (r : Row) : Database × ℕ :=
  let rows := VersionLog.insert rowSchema db.worldstate r
  ({ db with worldstate := rows }, rows.length - db.worldstate.length)

/-- The conflict check: the row stored at the primary key of `r`. -/
def Database.select (db : Database) (r : Row) : Option Row := selectIn db.worldstate r

/-- `INSERT ... ON CONFLICT DO UPDATE ... WHERE EXCLUDED.last_block > last_block`. -/
def Database.upsertProgress (db : Database) (channel : GoString) (n : ℕ) : Database :=
  match db.channelProgress.lookup channel with
  | none => { db with channelProgress := db.channelProgress.insert channel n }
  | some last =>
      if last < n then { db with channelProgress := db.channelProgress.insert channel n } else db

end Statements

abbrev SqlM := TxM Text Database

/-- `fmt.Errorf("what: %w", err)`. -/
def wrapErr (what : String) (err : Text) : Text := .lit what :: .lit ": " :: err

/-- `database/sql` converts the arguments of a statement before it runs. -/
def bindUint64 (what : String) (arg n : ℕ) : SqlM Unit :=
  if 2 ^ 63 ≤ n then
    fail (wrapErr what [.lit "sql: converting argument $", .num arg,
      .lit " type: uint64 values with high bit set are not supported"])
  else pure ()

/-- The row a write of a transaction asks for, before it gets its version. -/
def writeRow (channel : GoString) (blockNum : ℕ) (tx : Transaction) (ns : GoString)
    (w : KVWrite) : Row where
  channel := channel
  ns := ns
  key := w.key
  versionBlock := blockNum
  versionTx := tx.number
  version := 0
  value := w.value
  isDelete := w.isDelete
  txID := tx.id

/-- The stored row carries the content of the replayed one. -/
def SameContent (existing r : Row) : Prop :=
  existing.value = r.value ∧ existing.isDelete = r.isDelete ∧ existing.txID = r.txID

instance (existing r : Row) : Decidable (SameContent existing r) :=
  inferInstanceAs (Decidable (_ ∧ _ ∧ _))

def conflictErr (existing r : Row) : Text :=
  [.lit "conflicting write at channel=", .str r.channel, .lit " namespace=", .str r.ns,
    .lit " key=", .str r.key, .lit " block=", .num r.versionBlock, .lit " tx=",
    .num r.versionTx, .lit ": existing (is_delete=", .lit (toString existing.isDelete),
    .lit " tx_id=", .str existing.txID, .lit ") differs from replayed (is_delete=",
    .lit (toString r.isDelete), .lit " tx_id=", .str r.txID, .lit ")"]

/-- The row already existed: verify that it is identical. -/
def checkConflicting (db : Database) (r : Row) : SqlM Unit := do
  call (wrapErr "check conflicting write")
  match db.select r with
  | none => fail (wrapErr "check conflicting write" [.lit "sql: no rows in result set"])
  | some existing => if SameContent existing r then pure () else fail (conflictErr existing r)

/-- One pass of the innermost loop of `UpdateWorldState`. -/
def execWrite (r : Row) : SqlM Unit := do
  bindUint64 "batch insert exec" 4 r.versionBlock
  call (wrapErr "batch insert exec")
  let db ← read
  let (db', affected) := db.insert r
  write db'
  call (wrapErr "batch insert rows affected")
  -- no row is affected if the primary key was taken
  if 0 < affected then pure () else checkConflicting db' r

/-- The statements of `UpdateWorldState` between `BeginTx` and `Commit`. -/
def updateStatements (channel : GoString) (b : Block) : SqlM Unit := do
  call (wrapErr "begin batch insert")
  call (wrapErr "prepare batch insert")
  call (wrapErr "prepare conflict check")
  forM b.transactions fun tx =>
    if tx.valid then
      forM tx.nsRWS fun nsrws =>
        forM nsrws.rws.writes fun w => execWrite (writeRow channel b.number tx nsrws.ns w)
    else pure ()
  -- a block without writes meets its number here first
  bindUint64 "update last block" 2 b.number
  call (wrapErr "update last block")
  let db ← read
  write (db.upsertProgress channel b.number)
  call (wrapErr "commit batch insert")

/-- `UpdateWorldState`. An error leaves the tables as they were. -/
def updateWorldState (channel : GoString) (driver : Driver Text) (db : Database) (b : Block) :
    Except Text Database :=
  commit (updateStatements channel b) driver db

/-- A failed query, or its answer. -/
def query {α : Type} (what : String) (fault : Option Text) (answer : α) : Except Text α :=
  match fault with
  | some err => .error (wrapErr what err)
  | none => .ok answer

/-- `GetAt`: the write of greatest version at or below a height. -/
def getAt (channel : GoString) (fault : Option Text) (db : Database) (ns key : GoString)
    (lastBlock : ℕ) : Except Text (Option WriteRecord) :=
  if 2 ^ 63 ≤ lastBlock then
    .error (wrapErr "get" [.lit "sql: converting argument $", .num 4,
      .lit " type: uint64 values with high bit set are not supported"])
  else
    query "get" fault ((VersionLog.latest rowSchema
      ((db.rowsOf channel ns key).filter fun r => r.versionBlock ≤ lastBlock)).map Row.toRecord)

/-- `Get`: the write of greatest version. -/
def get (channel : GoString) (fault : Option Text) (db : Database) (ns key : GoString) :
    Except Text (Option WriteRecord) :=
  query "get current" fault
    ((VersionLog.latest rowSchema (db.rowsOf channel ns key)).map Row.toRecord)

/-- Where `GetHistory` can fail. -/
inductive HistoryStage
  | query
  | scan
  | iterate
  deriving DecidableEq, Repr

def HistoryStage.what : HistoryStage → String
  | .query => "get history"
  | .scan => "scan history"
  | .iterate => "iterate history"

/-- `GetHistory`: every write, ordered by block and transaction. -/
def getHistory (channel : GoString) (fault : Option (HistoryStage × Text)) (db : Database)
    (ns key : GoString) : Except Text (List WriteRecord) :=
  match fault with
  | some (stage, err) => .error (wrapErr stage.what err)
  | none => .ok ((VersionLog.inStampOrder rowSchema (db.rowsOf channel ns key)).map Row.toRecord)

/-- `BlockNumber`: zero for a channel without progress, as well as after block zero. -/
def blockNumber (channel : GoString) (fault : Option Text) (db : Database) : Except Text ℕ :=
  query "query last processed block" fault
    (match db.channelProgress.lookup channel with
    | none => 0
    | some last => last)

end FabricXSdk.State

import FabricXSdk.Blocks.Codes
import FabricXSdk.State.Update

/-!
# The ledger of the test network

The ledger of package `fabrictest` keeps the chain and, unless it was given a world state,
one of its own. `process` puts a batch of envelopes into a block, parses and validates it,
writes the outcome of each transaction into the filter of the block, applies the block and
appends it. `truncate` drops the blocks after a number.

## Implementation notes

The hashes and the tables of code names come from libraries, so they belong to the
parameters of a network. `Env` is what one call meets outside the ledger: the clock, the
failures of its database, and the world state it was given. The channels of the
subscribers are left to `FabricXSdk.FabricTest.Deliver`. Truncation keeps the backing
array of the slice, and a later block is written over a dropped one; nothing reads the
slice beyond its length, so a list models it.
-/

namespace FabricXSdk.FabricTest

open Golang Blocks State Atomic

/-- The network types of `Start`, with the codes of their protocols. -/
inductive NetworkType
  | fabric (codes : Fabric.TxValidationCodes)
      (names : CodeNames (Fabric.statusFromValidationCode codes))
  | fabricX (codes : FabricX.CommitterCodes)
      (names : CodeNames (FabricX.statusFromCommitterStatus codes))

structure Network where
  codecs : Proto.Codecs
  rt : Runtime
  headerHash : Proto.BlockHeader → Bytes
  dataHash : List Bytes → Bytes
  type : NetworkType

structure Ledger where
  blocks : List Proto.Block
  /-- The own world state, `none` when an external one is used. -/
  db : Option Database

structure Env where
  now : Int
  /-- The reads of the own world state that fail. -/
  get : GoString → GoString → Option Text
  driver : Driver Text
  /-- The record getter of an external world state. -/
  external : RecordGetter

/-- `"mychannel"`, the channel of the own world state. -/
def channel : GoString := [109, 121, 99, 104, 97, 110, 110, 101, 108]

section Network

variable (net : Network)

/-- The mapping of filter bytes to statuses. -/
def Network.mapping : Int → Status × Int × Text :=
  match net.type with
  | .fabric codes _ => Fabric.statusFromValidationCode codes
  | .fabricX codes _ => FabricX.statusFromCommitterStatus codes

def Network.parser : TxParser :=
  match net.type with
  | .fabric codes _ => Fabric.parser net.codecs codes
  | .fabricX codes _ => FabricX.parser net.codecs codes

def Network.validator (db : RecordGetter) : MVCCValidator :=
  match net.type with
  | .fabric _ names => Fabric.newMVCCValidator net.rt names db
  | .fabricX _ names => FabricX.newMVCCValidator net.rt names db

/-- `l.parser.Parse`. -/
def Network.parse (now : Int) (b : Proto.Block) : Outcome Block :=
  parseBlock net.codecs net.headerHash net.parser now b

/-- The bytes of an envelope; `makeBlock` ignores an error. -/
def Network.envelopeBytes (env : Proto.Envelope) : Bytes :=
  match net.codecs.envelope.marshal env with
  | .ok b => b
  | .error _ => []

def Network.makeBlock (blockNum : ℕ) (prevHash : Bytes) (envs : List Proto.Envelope) :
    Proto.Block :=
  let data := envs.map net.envelopeBytes
  ⟨some ⟨blockNum, prevHash, net.dataHash data⟩, some data,
    -- signatures, last configuration, transaction filter
    some [[], [], List.replicate envs.length 0]⟩

def marshalOrPanic : Except Text Bytes → Outcome Bytes
  | .ok b => .ok b
  | .error _ => .panic

/-- Block 0: a configuration with an empty channel group and sequence zero. -/
def Network.makeGenesisBlock : Outcome Proto.Block := do
  let channelHeader ← marshalOrPanic
    (net.codecs.channelHeader.marshal ⟨Proto.headerTypeConfig, 0, none, [], [], 0, [], []⟩)
  let data ← marshalOrPanic (net.codecs.configEnvelope.marshal ⟨some ⟨0, some []⟩⟩)
  let payload ← marshalOrPanic (net.codecs.payload.marshal ⟨some ⟨channelHeader, []⟩, data⟩)
  pure (net.makeBlock 0 [] [⟨payload, []⟩])

def Network.newLedger (db : Option Database) : Outcome Ledger := do
  let genesis ← net.makeGenesisBlock
  pure ⟨[genesis], db⟩

def Ledger.height (l : Ledger) : ℕ := l.blocks.length

/-- The header of the last block, behind an index and a pointer. -/
def Ledger.tip (l : Ledger) : Outcome Proto.BlockHeader := do
  let block ← Outcome.deref l.blocks.getLast?
  Outcome.deref block.header

/-- The number the next block takes, and the hash it chains onto. -/
def Network.next (l : Ledger) : Outcome (ℕ × Bytes) := do
  let tip ← l.tip
  pure (l.blocks.length, net.headerHash tip)

def Network.chainInfo (l : Ledger) : Outcome (ℕ × Bytes × Bytes) := do
  let tip ← l.tip
  pure (l.blocks.length, net.headerHash tip, tip.previousHash)

/-- The record getter that the validator was made with. -/
def Env.recordGetter (env : Env) (l : Ledger) : RecordGetter :=
  match l.db with
  | some db => fun ns key => State.get channel (env.get ns key) db ns key
  | none => env.external

/-- The loop that writes the outcomes of the transactions to their positions in the block.
An index out of range panics. -/
def scatter : List Transaction → List Byte → Bytes → Outcome Bytes
  | _, [], blockFilter => .ok blockFilter
  | [], _ :: _, _ => .panic
  | tx :: txs, status :: txFilter, blockFilter =>
      if tx.number < blockFilter.length then
        scatter txs txFilter (blockFilter.set tx.number status)
      else .panic

/-- `process` up to the commit: the parsed and validated block, and the block to store. -/
def Network.prepare (env : Env) (l : Ledger) (batch : List Proto.Envelope) :
    Outcome (Block × Proto.Block) := do
  let (blockNum, prevHash) ← net.next l
  let fbl := net.makeBlock blockNum prevHash batch
  let bl ← net.parse env.now fbl
  match validate (net.validator (env.recordGetter l)) bl with
  | (_, _, some err) => .error err
  | (bl, txFilter, none) => do
      let metadata ← Outcome.deref fbl.metadata
      let blockFilter ← Outcome.deref metadata[Proto.transactionsFilter]?
      let blockFilter ← scatter bl.transactions txFilter blockFilter
      pure (bl, { fbl with metadata := some (metadata.set Proto.transactionsFilter blockFilter) })

def Ledger.commit (env : Env) (l : Ledger) (bl : Block) (fbl : Proto.Block) :
    Outcome Unit × Ledger :=
  match l.db with
  | none => (.ok (), { l with blocks := l.blocks ++ [fbl] })
  | some db =>
      match updateWorldState channel env.driver db bl with
      | .error err => (.error err, l)
      | .ok db' => (.ok (), ⟨l.blocks ++ [fbl], some db'⟩)

def Network.process (env : Env) (l : Ledger) (batch : List Proto.Envelope) :
    Outcome Unit × Ledger :=
  match net.prepare env l batch with
  | .panic => (.panic, l)
  | .error err => (.error err, l)
  | .ok (bl, fbl) => l.commit env bl fbl

def Ledger.truncate (l : Ledger) (num : ℕ) : Outcome Unit × Ledger :=
  match l.db with
  | some _ => (.error [.lit "revert requires an external world state (db1)"], l)
  | none =>
      if l.blocks.length ≤ num then
        (.error [.lit "cannot revert to block ", .num num, .lit ": height is ",
          .num l.blocks.length], l)
      else (.ok (), { l with blocks := l.blocks.take (num + 1) })

end Network

section Spec

variable {net : Network} {env : Env} {l l' : Ledger} {batch : List Proto.Envelope} {bl : Block}
  {fbl : Proto.Block}

/-- The data of a block of these envelopes. -/
def Network.dataOf (net : Network) (batch : List Proto.Envelope) : List Bytes :=
  batch.map net.envelopeBytes

/-- What `process` has put together by the time it commits. -/
structure Prepared (net : Network) (env : Env) (l : Ledger) (batch : List Proto.Envelope)
    (tip : Proto.BlockHeader) (raw bl : Block) (txFilter : List Byte) (filter : Bytes)
    (fbl : Proto.Block) : Prop where
  ontoTip : l.tip = .ok tip
  parsed : net.parse env.now (net.makeBlock l.blocks.length (net.headerHash tip) batch) = .ok raw
  validated : validate (net.validator (env.recordGetter l)) raw = (bl, txFilter, none)
  scattered : scatter bl.transactions txFilter (List.replicate batch.length 0) = .ok filter
  stored : fbl =
    ⟨some ⟨l.blocks.length, net.headerHash tip, net.dataHash (net.dataOf batch)⟩,
      some (net.dataOf batch), some [[], [], filter]⟩

theorem prepare_eq_ok : net.prepare env l batch = .ok (bl, fbl) ↔
    ∃ tip raw txFilter filter, Prepared net env l batch tip raw bl txFilter filter fbl := by
  constructor
  · intro h
    rw [Network.prepare, Outcome.bind_eq_ok] at h
    obtain ⟨⟨blockNum, prevHash⟩, hnext, h⟩ := h
    rw [Network.next, Outcome.bind_eq_ok] at hnext
    obtain ⟨tip, htip, hnext⟩ := hnext
    cases hnext
    rw [Outcome.bind_eq_ok] at h
    obtain ⟨raw, hparsed, h⟩ := h
    split at h
    · cases h
    · rename_i bl' txFilter hvalidated
      rw [Outcome.bind_eq_ok] at h
      obtain ⟨metadata, hmetadata, h⟩ := h
      cases hmetadata
      rw [Outcome.bind_eq_ok] at h
      obtain ⟨zeros, hzeros, h⟩ := h
      cases hzeros
      rw [Outcome.bind_eq_ok] at h
      obtain ⟨filter, hscattered, h⟩ := h
      cases h
      exact ⟨tip, raw, txFilter, filter, htip, hparsed, hvalidated, hscattered, rfl⟩
  · rintro ⟨tip, raw, txFilter, filter, htip, hparsed, hvalidated, hscattered, rfl⟩
    rw [Network.prepare, Network.next, htip]
    simp only [Outcome.ok_bind, Outcome.pure_eq, hparsed, hvalidated]
    change (scatter bl.transactions txFilter (List.replicate batch.length 0) >>= fun _ => _) = _
    rw [hscattered]
    rfl

/-- What `commit` does when it succeeds. -/
theorem commit_eq_ok :
    l.commit env bl fbl = (.ok (), l') ↔
      l'.blocks = l.blocks ++ [fbl] ∧
        ((l.db = none ∧ l'.db = none) ∨
          ∃ db db', l.db = some db ∧ l'.db = some db' ∧
            updateWorldState channel env.driver db bl = .ok db') := by
  obtain ⟨blocks, db⟩ := l
  obtain ⟨blocks', db'⟩ := l'
  rw [Ledger.commit]
  cases db with
  | none => simp [eq_comm]
  | some db =>
      cases hu : updateWorldState channel env.driver db bl with
      | error err => simp [hu]
      | ok db₁ => simp [hu, eq_comm]

theorem process_eq_ok :
    net.process env l batch = (.ok (), l') ↔
      ∃ bl fbl, net.prepare env l batch = .ok (bl, fbl) ∧ l.commit env bl fbl = (.ok (), l') := by
  rw [Network.process]
  cases hprepare : net.prepare env l batch with
  | panic => simp
  | error err => simp
  | ok out =>
      obtain ⟨bl, fbl⟩ := out
      simp

theorem commit_of_process (hprepare : net.prepare env l batch = .ok (bl, fbl))
    (h : net.process env l batch = (.ok (), l')) : l.commit env bl fbl = (.ok (), l') := by
  rw [Network.process, hprepare] at h
  exact h

/-- A call that succeeds appends one block, which holds the envelopes of the batch. -/
theorem process_appends (h : net.process env l batch = (.ok (), l')) :
    ∃ block, l'.blocks = l.blocks ++ [block] ∧ block.data = some (net.dataOf batch) := by
  obtain ⟨bl, fbl, hprepare, hcommit⟩ := process_eq_ok.mp h
  obtain ⟨tip, raw, txFilter, filter, hp⟩ := prepare_eq_ok.mp hprepare
  refine ⟨fbl, (commit_eq_ok.mp hcommit).1, ?_⟩
  rw [hp.stored]

/-- An operation that does not succeed leaves the ledger as it was. -/
theorem process_of_ne_ok (h : (net.process env l batch).1 ≠ .ok ()) :
    (net.process env l batch).2 = l := by
  rw [Network.process] at h ⊢
  split
  · rfl
  · rfl
  · rename_i bl fbl hprepare
    simp only [hprepare, Ledger.commit] at h ⊢
    cases hdb : l.db with
    | none =>
        simp only [hdb] at h
        exact absurd rfl h
    | some db =>
        simp only [hdb] at h ⊢
        cases hu : updateWorldState channel env.driver db bl with
        | error err => rfl
        | ok db' =>
            rw [hu] at h
            exact absurd rfl h

theorem truncate_eq_ok {num : ℕ} :
    l.truncate num = (.ok (), l') ↔
      l.db = none ∧ num < l.blocks.length ∧ l' = { l with blocks := l.blocks.take (num + 1) } := by
  rw [Ledger.truncate]
  cases hdb : l.db with
  | some db => simp
  | none =>
      by_cases hnum : l.blocks.length ≤ num
      · simp only [if_pos hnum]
        constructor
        · intro h
          cases h
        · rintro ⟨_, hlt, _⟩
          omega
      · simp only [if_neg hnum, true_and]
        constructor
        · intro h
          cases h
          exact ⟨by omega, rfl⟩
        · rintro ⟨_, rfl⟩
          rfl

theorem truncate_of_ne_ok {num : ℕ} (h : (l.truncate num).1 ≠ .ok ()) : (l.truncate num).2 = l := by
  rw [Ledger.truncate] at h ⊢
  split
  · rfl
  · rename_i hdb
    simp only [hdb] at h
    split
    · rfl
    · rename_i hnum
      simp only [if_neg hnum] at h
      exact absurd rfl h

end Spec

end FabricXSdk.FabricTest

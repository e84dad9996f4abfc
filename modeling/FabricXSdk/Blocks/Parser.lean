import FabricXSdk.Blocks.Types
import FabricXSdk.Proto.Messages

/-!
# The loop of the block parsers

Both parsers walk over the envelopes of a block in the same way and differ in how
they read a transaction and a filter byte. An envelope is skipped, or it carries a
channel configuration, or it carries a transaction; only a configuration that does
not decode stops the loop with an error.

## Implementation notes

Warnings are not modelled. With an error the source also returns the block as far
as it was read, which no caller looks at.
-/

namespace FabricXSdk.Blocks

open Golang

/-- What one of the parsers brings to the shared loop. -/
structure TxParser where
  parseTx : Proto.Envelope → Outcome (Option Transaction)
  statusForTx : Bytes → ℕ → Status × Int × Text

/-- What an envelope contributes to its block. -/
inductive Entry
  | skipped
  | config (c : ConfigTransaction)
  | transaction (tx : Transaction)
  deriving DecidableEq, Repr

section Model

variable (c : Proto.Codecs)

/-- The payload and the channel header of an envelope. -/
def openEnvelope (env : Proto.Envelope) : Except Text (Proto.Payload × Proto.ChannelHeader) :=
  match c.payload.unmarshal env.payload with
  | .error err => .error (.lit "payload: " :: err)
  | .ok pl =>
      match pl.header with
      | none => .error [.lit "payload has no header"]
      | some header =>
          match c.channelHeader.unmarshal header.channelHeader with
          | .error err => .error (.lit "channel header: " :: err)
          | .ok chdr => .ok (pl, chdr)

def decodeConfig (data : Bytes) : Except Text ConfigTransaction :=
  match c.configEnvelope.unmarshal data with
  | .error err => .error (.lit "config envelope: " :: err)
  | .ok configEnvelope =>
      match configEnvelope.config with
      | none => .error [.lit "missing config"]
      | some config =>
          match c.config.marshal config with
          | .error err => .error (.lit "marshal config: " :: err)
          | .ok configBytes => .ok ⟨config.sequence, configBytes⟩

/-- The branch for a `CONFIG` envelope. -/
def parseConfig (blockNum txNum : ℕ) (data : Bytes) : Outcome Entry :=
  match decodeConfig c data with
  | .error err =>
      .error ([.lit "CONFIG [", .num blockNum, .lit ":", .num txNum, .lit "]: "] ++ err)
  | .ok config => .ok (.config config)

/-- One pass of the loop over the envelopes. -/
def parseEnvelope (p : TxParser) (blockNum : ℕ) (txFilter : Bytes) (txNum : ℕ)
    (envBytes : Bytes) : Outcome Entry :=
  match c.envelope.unmarshal envBytes with
  | .error _ => .ok .skipped
  | .ok env =>
      match openEnvelope c env with
      | .error _ => .ok .skipped
      | .ok (pl, chdr) =>
          -- the only branch that can end the loop with an error
          if chdr.type = Proto.headerTypeConfig then parseConfig c blockNum txNum pl.data
          else
            match p.parseTx env with
            | .panic => .panic
            | .error _ => .ok .skipped
            -- an envelope of another type
            | .ok none => .ok .skipped
            | .ok (some tx) =>
                -- invalid transactions are kept, with their status
                let (status, rawCode, reason) := p.statusForTx txFilter txNum
                .ok (.transaction { tx.setStatus status rawCode reason with number := txNum })

def Block.add (b : Block) : Entry → Block
  | .skipped => b
  | .config config => { b with configTransaction := some config }
  | .transaction tx => { b with transactions := b.transactions ++ [tx] }

def parseEnvelopes (p : TxParser) (txFilter : Bytes) : ℕ → List Bytes → Block → Outcome Block
  | _, [], block => .ok block
  | txNum, envBytes :: rest, block => do
      let entry ← parseEnvelope c p block.number txFilter txNum envBytes
      parseEnvelopes p txFilter (txNum + 1) rest (block.add entry)

/-- `Parse`, given the header hash and the clock. -/
def parseBlock (hash : Proto.BlockHeader → Bytes) (p : TxParser) (now : Int) (b : Proto.Block) :
    Outcome Block := do
  let header ← Outcome.deref b.header
  let metadata ← Outcome.deref b.metadata
  match metadata[Proto.transactionsFilter]? with
  | none => .error [.lit "block metadata missing TRANSACTIONS_FILTER"]
  | some txFilter =>
      let data ← Outcome.deref b.data
      parseEnvelopes c p txFilter 0 data ⟨header.number, hash header, header.previousHash, now, [],
        none⟩

end Model

section Spec

variable {c : Proto.Codecs}

/-- An envelope of type `CONFIG`, with the data of its payload. -/
def IsConfig (c : Proto.Codecs) (envBytes data : Bytes) : Prop :=
  ∃ env pl chdr, c.envelope.unmarshal envBytes = .ok env ∧ openEnvelope c env = .ok (pl, chdr) ∧
    chdr.type = Proto.headerTypeConfig ∧ data = pl.data

/-- The data of a `CONFIG` envelope holds a configuration. -/
def HoldsConfig (c : Proto.Codecs) (data : Bytes) : Prop :=
  ∃ configEnvelope config configBytes, c.configEnvelope.unmarshal data = .ok configEnvelope ∧
    configEnvelope.config = some config ∧ c.config.marshal config = .ok configBytes

/-- A `CONFIG` envelope without a configuration, which stops `Parse`. -/
def BadConfig (c : Proto.Codecs) (envBytes : Bytes) : Prop :=
  ∃ data, IsConfig c envBytes data ∧ ¬ HoldsConfig c data

/-- The transaction an envelope at a position contributes on its own: none unless
its contents decode to one. -/
def transactionAt (c : Proto.Codecs) (p : TxParser) (txFilter : Bytes) (txNum : ℕ)
    (envBytes : Bytes) : Option Transaction :=
  match c.envelope.unmarshal envBytes with
  | .error _ => none
  | .ok env =>
      match openEnvelope c env with
      | .error _ => none
      | .ok (_, chdr) =>
          if chdr.type = Proto.headerTypeConfig then none
          else
            match p.parseTx env with
            | .ok (some tx) =>
                let (status, rawCode, reason) := p.statusForTx txFilter txNum
                some { tx.setStatus status rawCode reason with number := txNum }
            | _ => none

/-- The transactions of the envelopes from a position on. -/
def transactionsFrom (c : Proto.Codecs) (p : TxParser) (txFilter : Bytes) :
    ℕ → List Bytes → List Transaction
  | _, [] => []
  | txNum, envBytes :: rest =>
      (transactionAt c p txFilter txNum envBytes).toList ++
        transactionsFrom c p txFilter (txNum + 1) rest

theorem decodeConfig_eq_ok {data : Bytes} :
    (∃ config, decodeConfig c data = .ok config) ↔ HoldsConfig c data := by
  constructor
  · rintro ⟨config, h⟩
    simp only [decodeConfig] at h
    split at h
    · cases h
    · rename_i configEnvelope hce
      split at h
      · cases h
      · rename_i config hconfig
        split at h
        · cases h
        · rename_i configBytes hbytes
          exact ⟨configEnvelope, config, configBytes, hce, hconfig, hbytes⟩
  · rintro ⟨configEnvelope, config, configBytes, hce, hconfig, hbytes⟩
    exact ⟨⟨config.sequence, configBytes⟩, by simp [decodeConfig, hce, hconfig, hbytes]⟩

/-- An envelope whose contents reach `ParseTx`. -/
def Reaches (c : Proto.Codecs) (envBytes : Bytes) (env : Proto.Envelope) : Prop :=
  c.envelope.unmarshal envBytes = .ok env ∧
    ∃ pl chdr, openEnvelope c env = .ok (pl, chdr) ∧ chdr.type ≠ Proto.headerTypeConfig

/-- The envelope decodes down to its channel header. -/
def Opens (c : Proto.Codecs) (envBytes : Bytes) (env : Proto.Envelope) (pl : Proto.Payload)
    (chdr : Proto.ChannelHeader) : Prop :=
  c.envelope.unmarshal envBytes = .ok env ∧ openEnvelope c env = .ok (pl, chdr)

section Opens

variable {envBytes : Bytes} {env env' : Proto.Envelope} {pl pl' : Proto.Payload}
  {chdr chdr' : Proto.ChannelHeader}

theorem Opens.unique (h : Opens c envBytes env pl chdr) (h' : Opens c envBytes env' pl' chdr') :
    env' = env ∧ pl' = pl ∧ chdr' = chdr := by
  obtain ⟨henv, hopen⟩ := h
  obtain ⟨henv', hopen'⟩ := h'
  rw [henv] at henv'
  cases henv'
  rw [hopen] at hopen'
  cases hopen'
  exact ⟨rfl, rfl, rfl⟩

theorem Opens.isConfig_iff (h : Opens c envBytes env pl chdr) {data : Bytes} :
    IsConfig c envBytes data ↔ chdr.type = Proto.headerTypeConfig ∧ data = pl.data := by
  constructor
  · rintro ⟨env', pl', chdr', henv', hopen', htype, hdata⟩
    obtain ⟨_, rfl, rfl⟩ := h.unique ⟨henv', hopen'⟩
    exact ⟨htype, hdata⟩
  · rintro ⟨htype, hdata⟩
    exact ⟨env, pl, chdr, h.1, h.2, htype, hdata⟩

theorem Opens.reaches_iff (h : Opens c envBytes env pl chdr) :
    Reaches c envBytes env' ↔ env' = env ∧ chdr.type ≠ Proto.headerTypeConfig := by
  constructor
  · rintro ⟨henv', pl', chdr', hopen', htype⟩
    obtain ⟨heq, _, rfl⟩ := h.unique ⟨henv', hopen'⟩
    exact ⟨heq, htype⟩
  · rintro ⟨rfl, htype⟩
    exact ⟨h.1, pl, chdr, h.2, htype⟩

end Opens

/-- How the loop treats one envelope: a configuration decodes or stops it, any
other envelope panics in `ParseTx` or contributes the transaction it holds. -/
inductive Treated (c : Proto.Codecs) (p : TxParser) (txFilter : Bytes) (txNum : ℕ)
    (envBytes : Bytes) : Outcome Entry → Prop
  | config (config : ConfigTransaction) (hok : ¬ BadConfig c envBytes)
      (hnone : transactionAt c p txFilter txNum envBytes = none)
      (hreach : ∀ env, ¬ Reaches c envBytes env) :
      Treated c p txFilter txNum envBytes (.ok (.config config))
  | badConfig (err : Text) (hbad : BadConfig c envBytes) :
      Treated c p txFilter txNum envBytes (.error err)
  | panic (env : Proto.Envelope) (hreach : Reaches c envBytes env)
      (hpanic : p.parseTx env = .panic) : Treated c p txFilter txNum envBytes .panic
  | skipped (hok : ¬ BadConfig c envBytes)
      (hnone : transactionAt c p txFilter txNum envBytes = none)
      (hreach : ∀ env, Reaches c envBytes env → p.parseTx env ≠ .panic) :
      Treated c p txFilter txNum envBytes (.ok .skipped)
  | transaction (tx : Transaction) (hok : ¬ BadConfig c envBytes)
      (hsome : transactionAt c p txFilter txNum envBytes = some tx)
      (hreach : ∀ env, Reaches c envBytes env → p.parseTx env ≠ .panic) :
      Treated c p txFilter txNum envBytes (.ok (.transaction tx))

section Treated

variable {p : TxParser} {txFilter : Bytes} {txNum : ℕ} {envBytes : Bytes} {env : Proto.Envelope}
  {pl : Proto.Payload} {chdr : Proto.ChannelHeader}

theorem treated_closed (h : ∀ env pl chdr, ¬ Opens c envBytes env pl chdr)
    (hnone : transactionAt c p txFilter txNum envBytes = none) :
    Treated c p txFilter txNum envBytes (.ok .skipped) := by
  refine .skipped ?_ hnone ?_
  · rintro ⟨data, ⟨env, pl, chdr, henv, hopen, _⟩, _⟩
    exact h env pl chdr ⟨henv, hopen⟩
  · rintro env ⟨henv, pl, chdr, hopen, _⟩
    exact absurd ⟨henv, hopen⟩ (h env pl chdr)

theorem treated_config (h : Opens c envBytes env pl chdr)
    (htype : chdr.type = Proto.headerTypeConfig) (blockNum : ℕ) :
    Treated c p txFilter txNum envBytes (parseConfig c blockNum txNum pl.data) := by
  have hbad : BadConfig c envBytes ↔ ¬ HoldsConfig c pl.data := by
    simp [BadConfig, h.isConfig_iff, htype]
  rw [← decodeConfig_eq_ok] at hbad
  rw [parseConfig]
  cases hconfig : decodeConfig c pl.data with
  | error err =>
      apply Treated.badConfig
      simp [hbad, hconfig]
  | ok config =>
      apply Treated.config
      · simp [hbad, hconfig]
      · simp [transactionAt, h.1, h.2, htype]
      · simp [h.reaches_iff, htype]

theorem treated_parseTx (h : Opens c envBytes env pl chdr)
    (htype : chdr.type ≠ Proto.headerTypeConfig) (blockNum : ℕ) :
    Treated c p txFilter txNum envBytes (parseEnvelope c p blockNum txFilter txNum envBytes) := by
  have hok : ¬ BadConfig c envBytes := by
    simp [BadConfig, h.isConfig_iff, htype]
  have hreach : p.parseTx env ≠ .panic →
      ∀ env', Reaches c envBytes env' → p.parseTx env' ≠ .panic := by
    intro hne env' henv'
    rw [(h.reaches_iff.mp henv').1]
    exact hne
  simp only [parseEnvelope, h.1, h.2, htype, if_false]
  cases htx : p.parseTx env with
  | panic => exact .panic env (h.reaches_iff.mpr ⟨rfl, htype⟩) htx
  | error err =>
      exact .skipped hok (by simp [transactionAt, h.1, h.2, htype, htx]) (hreach (by simp [htx]))
  | ok found =>
      have hnone := hreach (by simp [htx])
      cases found with
      | none => exact .skipped hok (by simp [transactionAt, h.1, h.2, htype, htx]) hnone
      | some tx => exact .transaction _ hok (by simp [transactionAt, h.1, h.2, htype, htx]) hnone

end Treated

theorem treated_parseEnvelope (c : Proto.Codecs) (p : TxParser) (blockNum : ℕ) (txFilter : Bytes)
    (txNum : ℕ) (envBytes : Bytes) :
    Treated c p txFilter txNum envBytes (parseEnvelope c p blockNum txFilter txNum envBytes) := by
  cases henv : c.envelope.unmarshal envBytes with
  | error err =>
      simp only [parseEnvelope, henv]
      apply treated_closed
      · rintro env pl chdr ⟨henv', _⟩
        rw [henv] at henv'
        cases henv'
      · simp [transactionAt, henv]
  | ok env =>
      cases hopen : openEnvelope c env with
      | error err =>
          simp only [parseEnvelope, henv, hopen]
          apply treated_closed
          · rintro env' pl chdr ⟨henv', hopen'⟩
            rw [henv] at henv'
            cases henv'
            rw [hopen] at hopen'
            cases hopen'
          · simp [transactionAt, henv, hopen]
      | ok opened =>
          obtain ⟨pl, chdr⟩ := opened
          have h : Opens c envBytes env pl chdr := ⟨henv, hopen⟩
          by_cases htype : chdr.type = Proto.headerTypeConfig
          · simp only [parseEnvelope, henv, hopen, htype, if_true]
            exact treated_config h htype blockNum
          · exact treated_parseTx h htype blockNum

@[simp] theorem Block.add_number (b : Block) (e : Entry) : (b.add e).number = b.number := by
  cases e <;> rfl

/-- `ParseTx` panics on the envelope. -/
def Panics (c : Proto.Codecs) (p : TxParser) (envBytes : Bytes) : Prop :=
  ∃ env, Reaches c envBytes env ∧ p.parseTx env = .panic

theorem Treated.panics_iff {p : TxParser} {txFilter : Bytes} {txNum : ℕ} {envBytes : Bytes}
    {out : Outcome Entry} (h : Treated c p txFilter txNum envBytes out) :
    Panics c p envBytes ↔ out = .panic := by
  cases h with
  | config config _ _ hreach => exact iff_of_false (fun ⟨env, henv, _⟩ => hreach env henv) nofun
  | badConfig err hbad =>
      refine iff_of_false ?_ nofun
      rintro ⟨env, ⟨henv, pl, chdr, hopen, htype⟩, _⟩
      obtain ⟨data, hconfig, _⟩ := hbad
      exact htype ((Opens.isConfig_iff ⟨henv, hopen⟩).mp hconfig).1
  | panic env hreach hpanic => exact iff_of_true ⟨env, hreach, hpanic⟩ rfl
  | skipped _ _ hreach =>
      exact iff_of_false (fun ⟨env, henv, hpanic⟩ => hreach env henv hpanic) nofun
  | transaction tx _ _ hreach =>
      exact iff_of_false (fun ⟨env, henv, hpanic⟩ => hreach env henv hpanic) nofun

/-- A first element with a property: the head, or one behind a head without the other. -/
theorem exists_append_cons_iff {α : Type} {P Q : α → Prop} {a : α} {l : List α} :
    (∃ pre x post, a :: l = pre ++ x :: post ∧ (∀ y ∈ pre, P y) ∧ Q x) ↔
      Q a ∨ P a ∧ ∃ pre x post, l = pre ++ x :: post ∧ (∀ y ∈ pre, P y) ∧ Q x := by
  constructor
  · rintro ⟨pre, x, post, heq, hpre, hx⟩
    cases pre with
    | nil =>
        obtain ⟨rfl, _⟩ := List.cons.inj heq
        exact Or.inl hx
    | cons y pre =>
        obtain ⟨rfl, hrest⟩ := List.cons.inj heq
        rw [List.forall_mem_cons] at hpre
        exact Or.inr ⟨hpre.1, pre, x, post, hrest, hpre.2, hx⟩
  · rintro (hx | ⟨ha, pre, x, post, rfl, hpre, hx⟩)
    · exact ⟨[], a, l, rfl, by simp, hx⟩
    · exact ⟨a :: pre, x, post, rfl, List.forall_mem_cons.mpr ⟨ha, hpre⟩, hx⟩

/-- The loop panics exactly if it gets to an envelope on which `ParseTx` does. -/
theorem parseEnvelopes_eq_panic {p : TxParser} {txFilter : Bytes} {txNum : ℕ} {data : List Bytes}
    {block : Block} :
    parseEnvelopes c p txFilter txNum data block = .panic ↔
      ∃ pre envBytes post, data = pre ++ envBytes :: post ∧ (∀ e ∈ pre, ¬ BadConfig c e) ∧
        Panics c p envBytes := by
  induction data generalizing txNum block with
  | nil => simp [parseEnvelopes]
  | cons e rest ih =>
      rw [exists_append_cons_iff, parseEnvelopes, Outcome.bind_eq_panic]
      have htreated := treated_parseEnvelope c p block.number txFilter txNum e
      -- one pass either ends the loop or leaves the rest to the induction hypothesis
      rw [htreated.panics_iff]
      generalize parseEnvelope c p block.number txFilter txNum e = out at htreated
      cases htreated with
      | config config hok _ _ => simp [hok, ih]
      | badConfig err hbad => simp [hbad]
      | panic env _ _ => simp
      | skipped hok _ _ => simp [hok, ih]
      | transaction tx hok _ _ => simp [hok, ih]

/-- What the loop returns: every envelope contributes what it holds, whatever the
others are, and only a configuration that does not decode is an error. -/
theorem parseEnvelopes_returns {p : TxParser} {txFilter : Bytes} {txNum : ℕ} {data : List Bytes}
    {block : Block} :
    (∀ block', parseEnvelopes c p txFilter txNum data block = .ok block' →
      block'.transactions = block.transactions ++ transactionsFrom c p txFilter txNum data) ∧
    ∀ err, parseEnvelopes c p txFilter txNum data block = .error err →
      ∃ e ∈ data, BadConfig c e := by
  induction data generalizing txNum block with
  | nil => simp [parseEnvelopes, transactionsFrom]
  | cons e rest ih =>
      simp only [parseEnvelopes, transactionsFrom, List.exists_mem_cons_iff]
      generalize hout : parseEnvelope c p block.number txFilter txNum e = out
      have htreated := treated_parseEnvelope c p block.number txFilter txNum e
      rw [hout] at htreated
      cases htreated with
      | config config _ hnone _ =>
          refine ⟨fun block' h => ?_, fun err h => Or.inr (ih.2 err h)⟩
          rw [ih.1 block' h, hnone]
          rfl
      | badConfig err hbad => exact ⟨by simp, fun _ _ => Or.inl hbad⟩
      | panic env _ _ => exact ⟨by simp, by simp⟩
      | skipped _ hnone _ =>
          refine ⟨fun block' h => ?_, fun err h => Or.inr (ih.2 err h)⟩
          rw [ih.1 block' h, hnone]
          rfl
      | transaction tx _ hsome _ =>
          refine ⟨fun block' h => ?_, fun err h => Or.inr (ih.2 err h)⟩
          rw [ih.1 block' h, hsome, Block.add, List.append_assoc]
          rfl

theorem parseEnvelopes_number {p : TxParser} {txFilter : Bytes} {txNum : ℕ} {data : List Bytes}
    {block block' : Block} (h : parseEnvelopes c p txFilter txNum data block = .ok block') :
    block'.number = block.number := by
  induction data generalizing txNum block with
  | nil =>
      cases h
      rfl
  | cons e rest ih =>
      rw [parseEnvelopes, Outcome.bind_eq_ok] at h
      obtain ⟨entry, _, h⟩ := h
      rw [ih h, Block.add_number]

theorem parseEnvelopes_hashes {p : TxParser} {txFilter : Bytes} {txNum : ℕ} {data : List Bytes}
    {block block' : Block} (h : parseEnvelopes c p txFilter txNum data block = .ok block') :
    block'.hash = block.hash ∧ block'.parentHash = block.parentHash := by
  induction data generalizing txNum block with
  | nil =>
      cases h
      exact ⟨rfl, rfl⟩
  | cons e rest ih =>
      rw [parseEnvelopes, Outcome.bind_eq_ok] at h
      obtain ⟨entry, _, h⟩ := h
      obtain ⟨hhash, hparent⟩ := ih h
      rw [hhash, hparent]
      cases entry <;> exact ⟨rfl, rfl⟩

/-- A transaction carries the position of its envelope. -/
theorem transactionAt_number {p : TxParser} {txFilter : Bytes} {txNum : ℕ} {envBytes : Bytes}
    {tx : Transaction} (h : transactionAt c p txFilter txNum envBytes = some tx) :
    tx.number = txNum := by
  simp only [transactionAt] at h
  split at h
  · cases h
  · split at h
    · cases h
    · split at h
      · cases h
      · split at h
        · cases h
          rfl
        · cases h

theorem le_number_of_mem_transactionsFrom {p : TxParser} {txFilter : Bytes} {txNum : ℕ}
    {data : List Bytes} {tx : Transaction} (h : tx ∈ transactionsFrom c p txFilter txNum data) :
    txNum ≤ tx.number := by
  induction data generalizing txNum with
  | nil => cases h
  | cons e rest ih =>
      rw [transactionsFrom, List.mem_append, Option.mem_toList] at h
      rcases h with h | h
      · exact (transactionAt_number h).ge
      · exact Nat.le_of_succ_le (ih h)

theorem transactionsFrom_pairwise (p : TxParser) (txFilter : Bytes) (txNum : ℕ)
    (data : List Bytes) :
    (transactionsFrom c p txFilter txNum data).Pairwise fun t t' => t.number < t'.number := by
  induction data generalizing txNum with
  | nil => exact List.Pairwise.nil
  | cons e rest ih =>
      rw [transactionsFrom, List.pairwise_append]
      refine ⟨?_, ih (txNum + 1), fun t ht t' ht' => ?_⟩
      · cases transactionAt c p txFilter txNum e with
        | none => exact List.Pairwise.nil
        | some tx => exact List.pairwise_singleton _ tx
      · rw [Option.mem_toList] at ht
        rw [transactionAt_number ht]
        exact le_number_of_mem_transactionsFrom ht'

theorem parseBlock_missing_filter {hash : Proto.BlockHeader → Bytes} {p : TxParser} {now : Int}
    {header : Proto.BlockHeader} {data : Option (List Bytes)} {metadata : List Bytes}
    (h : metadata[Proto.transactionsFilter]? = none) :
    parseBlock c hash p now ⟨some header, data, some metadata⟩ =
      .error [.lit "block metadata missing TRANSACTIONS_FILTER"] := by
  simp [parseBlock, Outcome.deref, h]

theorem parseBlock_eq {hash : Proto.BlockHeader → Bytes} {p : TxParser} {now : Int}
    {header : Proto.BlockHeader} {data metadata : List Bytes} {txFilter : Bytes}
    (h : metadata[Proto.transactionsFilter]? = some txFilter) :
    parseBlock c hash p now ⟨some header, some data, some metadata⟩ =
      parseEnvelopes c p txFilter 0 data
        ⟨header.number, hash header, header.previousHash, now, [], none⟩ := by
  simp [parseBlock, Outcome.deref, h]

/-- What `Parse` returns: the number of the header and the transactions of the data. -/
theorem parseBlock_ok {hash : Proto.BlockHeader → Bytes} {p : TxParser} {now : Int}
    {b : Proto.Block} {block : Block} (h : parseBlock c hash p now b = .ok block) :
    ∃ header metadata txFilter data, b.header = some header ∧ b.metadata = some metadata ∧
      metadata[Proto.transactionsFilter]? = some txFilter ∧ b.data = some data ∧
      block.number = header.number ∧ block.transactions = transactionsFrom c p txFilter 0 data := by
  simp only [parseBlock, Outcome.bind_eq_ok, Outcome.deref_eq_ok] at h
  obtain ⟨header, hheader, metadata, hmetadata, h⟩ := h
  split at h
  · cases h
  · rename_i txFilter hfilter
    rw [Outcome.bind_eq_ok] at h
    obtain ⟨data, hdata, h⟩ := h
    rw [Outcome.deref_eq_ok] at hdata
    refine ⟨header, metadata, txFilter, data, hheader, hmetadata, hfilter, hdata,
      parseEnvelopes_number h, ?_⟩
    simpa using parseEnvelopes_returns.1 block h

/-- The hashes of a parsed block are those of the header. -/
theorem parseBlock_hashes {hash : Proto.BlockHeader → Bytes} {p : TxParser} {now : Int}
    {b : Proto.Block} {block : Block} {header : Proto.BlockHeader}
    (h : parseBlock c hash p now b = .ok block) (hheader : b.header = some header) :
    block.hash = hash header ∧ block.parentHash = header.previousHash := by
  obtain ⟨_, metadata, txFilter, data, _, hmetadata, hfilter, hdata, _⟩ := parseBlock_ok h
  obtain ⟨bheader, bdata, bmetadata⟩ := b
  cases hheader
  cases hmetadata
  cases hdata
  rw [parseBlock_eq hfilter] at h
  exact parseEnvelopes_hashes h

theorem parseBlock_inOrder {hash : Proto.BlockHeader → Bytes} {p : TxParser} {now : Int}
    {b : Proto.Block} {block : Block} (h : parseBlock c hash p now b = .ok block) :
    block.InOrder := by
  obtain ⟨_, _, txFilter, data, _, _, _, _, _, htxs⟩ := parseBlock_ok h
  rw [Block.InOrder, htxs]
  exact transactionsFrom_pairwise p txFilter 0 data

/-- Parsing a block again gives the same number and transactions; only the clock differs. -/
theorem parseBlock_again {hash : Proto.BlockHeader → Bytes} {p : TxParser} {now now' : Int}
    {b : Proto.Block} {block block' : Block} (h : parseBlock c hash p now b = .ok block)
    (h' : parseBlock c hash p now' b = .ok block') :
    block'.number = block.number ∧ block'.transactions = block.transactions := by
  obtain ⟨header, metadata, txFilter, data, hh, hm, hf, hd, hnum, htxs⟩ := parseBlock_ok h
  obtain ⟨header', metadata', txFilter', data', hh', hm', hf', hd', hnum', htxs'⟩ :=
    parseBlock_ok h'
  obtain rfl := Option.some.inj (hh'.symm.trans hh)
  obtain rfl := Option.some.inj (hm'.symm.trans hm)
  obtain rfl := Option.some.inj (hf'.symm.trans hf)
  obtain rfl := Option.some.inj (hd'.symm.trans hd)
  exact ⟨hnum'.trans hnum.symm, htxs'.trans htxs.symm⟩

end Spec

end FabricXSdk.Blocks

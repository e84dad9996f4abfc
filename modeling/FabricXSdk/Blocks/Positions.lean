import FabricXSdk.Blocks.Malformed

/-!
# Positions and statuses of parsed transactions

The loop of `Parse` compacts the envelopes of a block to its transactions, while
the number and the status of a transaction go by the position of its envelope in
the block. Both stay in step whatever stands between the transactions, and the
configuration of the block is that of its last `CONFIG` envelope.
-/

namespace FabricXSdk.Blocks

open Golang

/-- The transaction `ParseTx` finds in an envelope. -/
def accepted (c : Proto.Codecs) (p : TxParser) (envBytes : Bytes) : Option Transaction :=
  match c.envelope.unmarshal envBytes with
  | .error _ => none
  | .ok env =>
      match p.parseTx env with
      | .ok tx => tx
      | _ => none

/-- The outcome the filter gives to a position, by a mapping of its bytes. -/
def statusAt (mapping : Int → Status × Int × Text) (txFilter : Bytes) (txNum : ℕ) :
    Status × Int × Text :=
  match txFilter[txNum]? with
  | none => (.unknown, 0, [.lit "missing tx filter entry"])
  | some code => mapping code.val

/-- A transaction with its position, and the outcome of the position. -/
def placedAt (mapping : Int → Status × Int × Text) (txFilter : Bytes) (txNum : ℕ)
    (tx : Transaction) : Transaction :=
  let outcome := statusAt mapping txFilter txNum
  { tx.setStatus outcome.1 outcome.2.1 outcome.2.2 with number := txNum }

/-- The data of a `CONFIG` envelope decodes to this configuration. -/
def DecodesTo (c : Proto.Codecs) (data : Bytes) (config : Proto.Config) : Prop :=
  ∃ configEnvelope, c.configEnvelope.unmarshal data = .ok configEnvelope ∧
    configEnvelope.config = some config

/-- What `ConfigTransaction` holds of a configuration. -/
def Records (c : Proto.Codecs) (config : Proto.Config) (t : ConfigTransaction) : Prop :=
  t.sequence = config.sequence ∧ c.config.marshal config = .ok t.config

/-- The two facts about a parser that keep its transactions in step: it reads no
transaction out of a `CONFIG` envelope, and its status goes by the filter byte. -/
structure TxParser.InStep (c : Proto.Codecs) (mapping : Int → Status × Int × Text)
    (p : TxParser) : Prop where
  opens : ∀ env tx, p.parseTx env = .ok (some tx) →
    ∃ pl chdr, openEnvelope c env = .ok (pl, chdr) ∧ chdr.type ≠ Proto.headerTypeConfig
  status : p.statusForTx = statusAt mapping

/-- A parsed block is aligned with the envelopes and the filter it came from. -/
structure Aligned (c : Proto.Codecs) (p : TxParser) (mapping : Int → Status × Int × Text)
    (txFilter : Bytes) (data : List Bytes) (block : Block) : Prop where
  transactions : block.transactions =
    data.zipIdx.filterMap fun e => (accepted c p e.1).map (placedAt mapping txFilter e.2)
  increasing : block.transactions.Pairwise fun t t' => t.number < t'.number
  lastConfig : ∀ pre envBytes post, data = pre ++ envBytes :: post →
    ∀ d, IsConfig c envBytes d → (∀ e ∈ post, ∀ d', ¬ IsConfig c e d') →
      ∃ config t, DecodesTo c d config ∧ Records c config t ∧ block.configTransaction = some t
  noConfig : (∀ e ∈ data, ∀ d, ¬ IsConfig c e d) → block.configTransaction = none

section Transactions

variable {c : Proto.Codecs} {p : TxParser} {mapping : Int → Status × Int × Text}

theorem transactionAt_eq (hp : p.InStep c mapping) (txFilter : Bytes) (txNum : ℕ)
    (envBytes : Bytes) :
    transactionAt c p txFilter txNum envBytes =
      (accepted c p envBytes).map (placedAt mapping txFilter txNum) := by
  cases henv : c.envelope.unmarshal envBytes with
  | error err => simp only [transactionAt, accepted, henv, Option.map_none]
  | ok env =>
      by_cases htx : ∃ tx, p.parseTx env = .ok (some tx)
      · obtain ⟨tx, htx⟩ := htx
        obtain ⟨pl, chdr, hopen, htype⟩ := hp.opens env tx htx
        simp only [transactionAt, accepted, henv, hopen, htype, htx, if_false, hp.status]
        rfl
      · -- anything but a transaction leaves nothing on either side
        have hnone : accepted c p envBytes = none := by
          cases hout : p.parseTx env with
          | panic => simp only [accepted, henv, hout]
          | error err => simp only [accepted, henv, hout]
          | ok found =>
              cases found with
              | none => simp only [accepted, henv, hout]
              | some tx => exact absurd ⟨tx, hout⟩ htx
        rw [hnone]
        simp only [transactionAt, henv]
        split
        · rfl
        · split
          · rfl
          · split
            · rename_i tx hout
              exact absurd ⟨tx, hout⟩ htx
            · rfl

theorem transactionsFrom_eq (hp : p.InStep c mapping) (txFilter : Bytes) (txNum : ℕ)
    (data : List Bytes) :
    transactionsFrom c p txFilter txNum data =
      (data.zipIdx txNum).filterMap fun e =>
        (accepted c p e.1).map (placedAt mapping txFilter e.2) := by
  induction data generalizing txNum with
  | nil => rfl
  | cons envBytes rest ih =>
      rw [transactionsFrom, ih, transactionAt_eq hp, List.zipIdx_cons, List.filterMap_cons]
      cases accepted c p envBytes with
      | none => rfl
      | some tx => rfl

end Transactions

section Configuration

variable {c : Proto.Codecs} {p : TxParser} {txFilter : Bytes}

theorem decodeConfig_eq_ok_iff {data : Bytes} {t : ConfigTransaction} :
    decodeConfig c data = .ok t ↔ ∃ config, DecodesTo c data config ∧ Records c config t := by
  constructor
  · intro h
    simp only [decodeConfig] at h
    split at h
    · cases h
    · rename_i configEnvelope hce
      split at h
      · cases h
      · rename_i config hconfig
        split at h
        · cases h
        · rename_i configBytes hbytes
          cases h
          exact ⟨config, ⟨configEnvelope, hce, hconfig⟩, rfl, hbytes⟩
  · rintro ⟨config, ⟨configEnvelope, hce, hconfig⟩, hseq, hbytes⟩
    simp only [decodeConfig, hce, hconfig, hbytes, ← hseq]

/-- If a decoded configuration can be marshaled again, what holds a configuration
is what decodes to one. -/
theorem holdsConfig_iff
    (hmarshal : ∀ d config, DecodesTo c d config → ∃ bytes, c.config.marshal config = .ok bytes)
    {data : Bytes} : HoldsConfig c data ↔ ∃ config, DecodesTo c data config := by
  constructor
  · rintro ⟨configEnvelope, config, _, hce, hconfig, _⟩
    exact ⟨config, configEnvelope, hce, hconfig⟩
  · rintro ⟨config, configEnvelope, hce, hconfig⟩
    obtain ⟨bytes, hbytes⟩ := hmarshal data config ⟨configEnvelope, hce, hconfig⟩
    exact ⟨configEnvelope, config, bytes, hce, hconfig, hbytes⟩

theorem parseEnvelope_of_isConfig {envBytes d : Bytes} (h : IsConfig c envBytes d)
    (blockNum txNum : ℕ) :
    parseEnvelope c p blockNum txFilter txNum envBytes = parseConfig c blockNum txNum d := by
  obtain ⟨env, pl, chdr, henv, hopen, htype, rfl⟩ := h
  simp only [parseEnvelope, henv, hopen, htype, if_true]

/-- Only a `CONFIG` envelope changes the configuration of the block. -/
theorem add_configTransaction {envBytes : Bytes} (h : ∀ d, ¬ IsConfig c envBytes d)
    {blockNum txNum : ℕ} {entry : Entry}
    (hout : parseEnvelope c p blockNum txFilter txNum envBytes = .ok entry) (block : Block) :
    (block.add entry).configTransaction = block.configTransaction := by
  cases entry with
  | skipped => rfl
  | transaction tx => rfl
  | config t =>
      simp only [parseEnvelope] at hout
      split at hout
      · cases hout
      · rename_i env henv
        split at hout
        · cases hout
        · rename_i pl chdr hopen
          split at hout
          · rename_i htype
            exact absurd ⟨env, pl, chdr, henv, hopen, htype, rfl⟩ (h pl.data)
          · split at hout <;> cases hout

/-- The configuration of the block after the loop: that of the last `CONFIG`
envelope, and the one before the loop if there was none. -/
theorem parseEnvelopes_configTransaction {txNum : ℕ} {data : List Bytes} {block block' : Block}
    (h : parseEnvelopes c p txFilter txNum data block = .ok block') :
    ((∀ e ∈ data, ∀ d, ¬ IsConfig c e d) →
      block'.configTransaction = block.configTransaction) ∧
    ∀ pre envBytes post, data = pre ++ envBytes :: post →
      ∀ d, IsConfig c envBytes d → (∀ e ∈ post, ∀ d', ¬ IsConfig c e d') →
        ∃ t, decodeConfig c d = .ok t ∧ block'.configTransaction = some t := by
  induction data generalizing txNum block with
  | nil =>
      cases h
      exact ⟨fun _ => rfl, by simp⟩
  | cons envBytes rest ih =>
      rw [parseEnvelopes, Outcome.bind_eq_ok] at h
      obtain ⟨entry, hentry, h⟩ := h
      obtain ⟨hnone, hlast⟩ := ih h
      constructor
      · intro hno
        rw [List.forall_mem_cons] at hno
        rw [hnone hno.2, add_configTransaction hno.1 hentry]
      · rintro pre e post heq d hd hpost
        cases pre with
        | cons _ pre =>
            obtain ⟨rfl, hrest⟩ := List.cons.inj heq
            exact hlast pre e post hrest d hd hpost
        | nil =>
            -- the head is the last configuration, and the rest leaves it alone
            obtain ⟨rfl, rfl⟩ := List.cons.inj heq
            rw [parseEnvelope_of_isConfig hd, parseConfig] at hentry
            cases ht : decodeConfig c d with
            | error err =>
                rw [ht] at hentry
                cases hentry
            | ok t =>
                rw [ht] at hentry
                cases hentry
                exact ⟨t, rfl, hnone hpost⟩

/-- A loop that returns has met no bad configuration. -/
theorem not_badConfig_of_parseEnvelopes {txNum : ℕ} {data : List Bytes} {block block' : Block}
    (h : parseEnvelopes c p txFilter txNum data block = .ok block') :
    ∀ e ∈ data, ¬ BadConfig c e := by
  induction data generalizing txNum block with
  | nil => simp
  | cons envBytes rest ih =>
      rw [parseEnvelopes, Outcome.bind_eq_ok] at h
      obtain ⟨entry, hentry, h⟩ := h
      refine List.forall_mem_cons.mpr ⟨?_, ih h⟩
      rintro ⟨d, hd, hbad⟩
      rw [parseEnvelope_of_isConfig hd, parseConfig] at hentry
      split at hentry
      · cases hentry
      · rename_i t ht
        exact hbad (decodeConfig_eq_ok.mp ⟨t, ht⟩)

end Configuration

section Parsers

variable {c : Proto.Codecs}

theorem Fabric.parser_inStep (codes : Fabric.TxValidationCodes) :
    (Fabric.parser c codes).InStep c (Fabric.statusFromValidationCode codes) where
  opens := by
    intro env tx h
    simp only [Fabric.parser, Fabric.parseTx] at h
    split at h
    · cases h
    · rename_i pl chdr hopen
      split at h
      · cases h
      · rename_i htype
        refine ⟨pl, chdr, hopen, ?_⟩
        rw [not_not.mp htype]
        decide
  status := rfl

theorem FabricX.parser_inStep (codes : FabricX.CommitterCodes) :
    (FabricX.parser c codes).InStep c (FabricX.statusFromCommitterStatus codes) where
  opens := by
    intro env tx h
    simp only [FabricX.parser, FabricX.parseTx] at h
    split at h
    · cases h
    · rename_i pl chdr hopen
      split at h
      · cases h
      · rename_i htype
        refine ⟨pl, chdr, hopen, ?_⟩
        rw [not_not.mp htype]
        decide
  status := rfl

/-- What `Parse` returns for a block: one that is aligned with its envelopes and its
filter, or an error if the filter slot is missing or a `CONFIG` envelope does not
decode to a configuration. -/
structure AlignedOn (c : Proto.Codecs) (p : TxParser) (mapping : Int → Status × Int × Text)
    (b : Proto.Block) (out : Outcome Block) : Prop where
  aligned : ∀ block, out = .ok block → ∃ metadata txFilter data, b.metadata = some metadata ∧
    metadata[Proto.transactionsFilter]? = some txFilter ∧ b.data = some data ∧
    Aligned c p mapping txFilter data block
  errors : out ≠ .panic → ((∃ err, out = .error err) ↔
    (∃ metadata, b.metadata = some metadata ∧ metadata[Proto.transactionsFilter]? = none) ∨
      ∃ data, b.data = some data ∧
        ∃ e ∈ data, ∃ d, IsConfig c e d ∧ ∀ config, ¬ DecodesTo c d config)

theorem alignedOn_panic {p : TxParser} {mapping : Int → Status × Int × Text} {b : Proto.Block} :
    AlignedOn c p mapping b .panic :=
  ⟨by simp, by simp⟩

theorem aligned_of_parseEnvelopes {p : TxParser} {mapping : Int → Status × Int × Text}
    (hp : p.InStep c mapping) {txFilter : Bytes} {data : List Bytes} {start block : Block}
    (h : parseEnvelopes c p txFilter 0 data start = .ok block) (htxs : start.transactions = [])
    (hconfig : start.configTransaction = none) : Aligned c p mapping txFilter data block := by
  have hblock : block.transactions = transactionsFrom c p txFilter 0 data := by
    rw [parseEnvelopes_returns.1 block h, htxs, List.nil_append]
  obtain ⟨hnone, hlast⟩ := parseEnvelopes_configTransaction h
  refine ⟨?_, ?_, ?_, ?_⟩
  · rw [hblock, transactionsFrom_eq hp]
  · rw [hblock]
    exact transactionsFrom_pairwise p txFilter 0 data
  · intro pre envBytes post heq d hd hpost
    obtain ⟨t, ht, hblockt⟩ := hlast pre envBytes post heq d hd hpost
    obtain ⟨config, hdecodes, hrecords⟩ := decodeConfig_eq_ok_iff.mp ht
    exact ⟨config, t, hdecodes, hrecords, hblockt⟩
  · intro hno
    rw [hnone hno, hconfig]

theorem parseBlock_alignedOn {p : TxParser} {mapping : Int → Status × Int × Text}
    (hp : p.InStep c mapping)
    (hmarshal : ∀ d config, DecodesTo c d config → ∃ bytes, c.config.marshal config = .ok bytes)
    (hash : Proto.BlockHeader → Bytes) (now : Int) (b : Proto.Block) :
    AlignedOn c p mapping b (parseBlock c hash p now b) := by
  obtain ⟨header, data, metadata⟩ := b
  -- without a header or metadata `Parse` panics before it looks at anything else
  cases header with
  | none => exact alignedOn_panic
  | some header =>
  cases metadata with
  | none => exact alignedOn_panic
  | some metadata =>
  cases hfilter : metadata[Proto.transactionsFilter]? with
  | none =>
      rw [parseBlock_missing_filter hfilter]
      exact ⟨by simp, fun _ => iff_of_true ⟨_, rfl⟩ (Or.inl ⟨metadata, rfl, hfilter⟩)⟩
  | some txFilter =>
  cases data with
  | none =>
      have hparse : parseBlock c hash p now ⟨some header, none, some metadata⟩ = .panic := by
        simp [parseBlock, Outcome.deref, hfilter]
      rw [hparse]
      exact alignedOn_panic
  | some data =>
      rw [parseBlock_eq hfilter]
      refine ⟨fun block h => ⟨metadata, txFilter, data, rfl, hfilter, rfl,
        aligned_of_parseEnvelopes hp h rfl rfl⟩, ?_⟩
      intro hpanic
      have hbad : (∃ e ∈ data, BadConfig c e) ↔
          ∃ e ∈ data, ∃ d, IsConfig c e d ∧ ∀ config, ¬ DecodesTo c d config := by
        simp only [BadConfig, holdsConfig_iff hmarshal, not_exists]
      simp only [Option.some.injEq, exists_eq_left', hfilter, reduceCtorEq, false_or, ← hbad]
      constructor
      · rintro ⟨err, herr⟩
        exact parseEnvelopes_returns.2 err herr
      · rintro ⟨e, he, hbade⟩
        generalize hout : parseEnvelopes c p txFilter 0 data _ = out at hpanic ⊢
        cases out with
        | ok block => exact absurd hbade (not_badConfig_of_parseEnvelopes hout e he)
        | error err => exact ⟨err, rfl⟩
        | panic => exact absurd rfl hpanic

/-- Both parsers keep positions and statuses aligned on every block, and return an
error on just those without a filter slot or with a `CONFIG` envelope that does not
decode to a configuration. -/
theorem parsers_aligned
    (hmarshal : ∀ d config, DecodesTo c d config → ∃ bytes, c.config.marshal config = .ok bytes)
    (hash : Proto.BlockHeader → Bytes) (fabricCodes : Fabric.TxValidationCodes)
    (fabricXCodes : FabricX.CommitterCodes) (now : Int) (b : Proto.Block) :
    AlignedOn c (Fabric.parser c fabricCodes) (Fabric.statusFromValidationCode fabricCodes) b
        (Fabric.parse c fabricCodes hash now b) ∧
      AlignedOn c (FabricX.parser c fabricXCodes)
        (FabricX.statusFromCommitterStatus fabricXCodes) b
        (FabricX.parse c fabricXCodes hash now b) :=
  ⟨parseBlock_alignedOn (Fabric.parser_inStep fabricCodes) hmarshal hash now b,
    parseBlock_alignedOn (FabricX.parser_inStep fabricXCodes) hmarshal hash now b⟩

end Parsers

section Sample

open Proto

/-- What the protobuf encoding has decoded it can encode again. -/
theorem protobuf_config_marshals (d : Bytes) (config : Config)
    (h : DecodesTo Codecs.protobuf d config) :
    ∃ bytes, Codecs.protobuf.config.marshal config = .ok bytes := by
  obtain ⟨configEnvelope, hce, hconfig⟩ := h
  have hdecode : configEnvelopeBody.decode d = some configEnvelope := by
    simp only [Codecs.protobuf, Protobuf.Body.codec] at hce
    split at hce
    · rename_i m hm
      cases hce
      exact hm
    · cases hce
  have hok := Protobuf.Body.decode_ok configEnvelopeBody hdecode
  simp only [configEnvelopeBody, Protobuf.Body.iso, Protobuf.Body.field, Protobuf.Kind.message,
    hconfig, Bool.and_eq_true, Option.all_some] at hok
  refine ⟨configBody.encode config, ?_⟩
  simp only [Codecs.protobuf, Protobuf.Body.codec, hok.1, if_true]

def sampleStatusCodes : FabricX.CommitterCodes where
  committed := 1
  statusUnspecified := 0
  abortedSignatureInvalid := 2
  abortedMvccConflict := 3
  rejectedDuplicateTxId := 100
  string := fun _ => []
  distinct := by decide

def sampleEnvelopeOf (type : Int) (data : Bytes) : Bytes :=
  envelopeBody.encode
    { payload := payloadBody.encode
        { header := some
            { channelHeader := channelHeaderBody.encode ⟨type, 0, none, [99], [116], 0, [], []⟩
              signatureHeader := [] }
          data := data }
      signature := [] }

/-- Bytes that are no envelope, a configuration, and a message, under a filter that
ends before the message. -/
def sampleMixed : Proto.Block where
  header := some ⟨1, [], []⟩
  data := some [[255], sampleEnvelopeOf headerTypeConfig
      (configEnvelopeBody.encode ⟨some ⟨5, some [1]⟩⟩),
    sampleEnvelopeOf headerTypeMessage (txBody.encode ⟨[], [], []⟩)]
  metadata := some [[], [], [0, 0]]

/-- The message keeps its place in the block, behind an envelope that does not
decode and a configuration, and has no entry in the filter. -/
theorem parsers_aligned_sample :
    (∀ d config, DecodesTo Codecs.protobuf d config →
      ∃ bytes, Codecs.protobuf.config.marshal config = .ok bytes) ∧
    ∃ block txFilter data,
      FabricX.parse Codecs.protobuf sampleStatusCodes (fun _ => []) 0 sampleMixed = .ok block ∧
      block.transactions.map (fun tx => (tx.number, tx.status)) = [(2, .unknown)] ∧
      Aligned Codecs.protobuf (FabricX.parser Codecs.protobuf sampleStatusCodes)
        (FabricX.statusFromCommitterStatus sampleStatusCodes) txFilter data block := by
  refine ⟨protobuf_config_marshals, ?_⟩
  obtain ⟨block, hblock, htxs⟩ : ∃ block,
      FabricX.parse Codecs.protobuf sampleStatusCodes (fun _ => []) 0 sampleMixed = .ok block ∧
        block.transactions.map (fun tx => (tx.number, tx.status)) = [(2, .unknown)] :=
    ⟨_, rfl, by decide +kernel⟩
  obtain ⟨_, txFilter, data, _, _, _, haligned⟩ :=
    (parsers_aligned protobuf_config_marshals (fun _ => []) sampleCodes
      sampleStatusCodes 0 sampleMixed).2.aligned block hblock
  exact ⟨block, txFilter, data, hblock, htxs, haligned⟩

end Sample

end FabricXSdk.Blocks

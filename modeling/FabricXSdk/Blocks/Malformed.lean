import FabricXSdk.Blocks.Fabric
import FabricXSdk.Blocks.FabricX
import FabricXSdk.Proto.Encoding

/-!
# Malformed transactions in a block

Any envelope an orderer accepted can stand in a block. Both parsers skip an
envelope they cannot decode, and the Fabric-X parser returns on every block. The
Fabric parser panics on an endorser transaction whose chaincode action payload
decodes but carries no endorsed action.
-/

namespace FabricXSdk.Blocks

open Golang

/-- The parser ends with a block or an error. A block holds what each envelope
contributes on its own, and an error comes from the block or a configuration,
so an envelope that cannot be decoded is skipped and holds up no other. -/
structure Robust (c : Proto.Codecs) (hash : Proto.BlockHeader → Bytes) (p : TxParser) (now : Int)
    (header : Proto.BlockHeader) (data metadata : List Bytes) : Prop where
  returns : parseBlock c hash p now ⟨some header, some data, some metadata⟩ ≠ .panic
  transactions : ∀ block,
    parseBlock c hash p now ⟨some header, some data, some metadata⟩ = .ok block →
      ∃ txFilter, metadata[Proto.transactionsFilter]? = some txFilter ∧
        block.transactions = transactionsFrom c p txFilter 0 data
  errors : ∀ err,
    parseBlock c hash p now ⟨some header, some data, some metadata⟩ = .error err →
      metadata[Proto.transactionsFilter]? = none ∨ ∃ e ∈ data, BadConfig c e

theorem robust_iff {c : Proto.Codecs} {hash : Proto.BlockHeader → Bytes} {p : TxParser} {now : Int}
    {header : Proto.BlockHeader} {data metadata : List Bytes} :
    Robust c hash p now header data metadata ↔
      (metadata[Proto.transactionsFilter]? ≠ none → ∀ pre envBytes post,
        data = pre ++ envBytes :: post → (∀ e ∈ pre, ¬ BadConfig c e) →
          ¬ Panics c p envBytes) := by
  cases hfilter : metadata[Proto.transactionsFilter]? with
  | none =>
      have hparse := @parseBlock_missing_filter c hash p now header (some data) metadata hfilter
      refine ⟨fun _ h => absurd rfl h, fun _ => ⟨?_, ?_, ?_⟩⟩
      · simp [hparse]
      · simp [hparse]
      · exact fun _ _ => Or.inl hfilter
  | some txFilter =>
      have hparse := @parseBlock_eq c hash p now header data metadata txFilter hfilter
      constructor
      · rintro h _ pre envBytes post rfl hpre hpanic
        apply h.returns
        rw [hparse, parseEnvelopes_eq_panic]
        exact ⟨pre, envBytes, post, rfl, hpre, hpanic⟩
      · intro h
        refine ⟨?_, ?_, ?_⟩
        · rw [hparse, Ne, parseEnvelopes_eq_panic]
          rintro ⟨pre, envBytes, post, heq, hpre, hpanic⟩
          exact h (by simp) pre envBytes post heq hpre hpanic
        · intro block hblock
          rw [hparse] at hblock
          exact ⟨txFilter, hfilter, by simpa using parseEnvelopes_returns.1 block hblock⟩
        · intro err herr
          rw [hparse] at herr
          exact Or.inr (parseEnvelopes_returns.2 err herr)

/-- An envelope the Fabric parser follows down to a missing endorsed action. -/
def LacksAction (c : Proto.Codecs) (envBytes : Bytes) : Prop :=
  ∃ env, c.envelope.unmarshal envBytes = .ok env ∧ Fabric.LacksAction c env

theorem panics_fabric {c : Proto.Codecs} {codes : Fabric.TxValidationCodes} {envBytes : Bytes} :
    Panics c (Fabric.parser c codes) envBytes ↔ LacksAction c envBytes := by
  constructor
  · rintro ⟨env, ⟨henv, _⟩, hpanic⟩
    exact ⟨env, henv, Fabric.parseTx_eq_panic.mp hpanic⟩
  · rintro ⟨env, henv, hlacks⟩
    refine ⟨env, ⟨henv, ?_⟩, Fabric.parseTx_eq_panic.mpr hlacks⟩
    obtain ⟨pl, chdr, _, _, _, _, _, hopen, htype, _⟩ := hlacks
    exact ⟨pl, chdr, hopen, by rw [htype]; decide⟩

theorem not_panics_fabricX {c : Proto.Codecs} {codes : FabricX.CommitterCodes} {envBytes : Bytes} :
    ¬ Panics c (FabricX.parser c codes) envBytes := by
  rintro ⟨env, _, hpanic⟩
  exact FabricX.parseTx_ne_panic c env hpanic

/-- Both parsers are robust on a block exactly if the filter slot is missing or no
envelope ahead of the first bad configuration lacks its endorsed action. -/
theorem parsers_robust_iff (c : Proto.Codecs) (hash : Proto.BlockHeader → Bytes)
    (fabricCodes : Fabric.TxValidationCodes) (fabricXCodes : FabricX.CommitterCodes) (now : Int)
    (header : Proto.BlockHeader) (data metadata : List Bytes) :
    (Robust c hash (Fabric.parser c fabricCodes) now header data metadata ∧
        Robust c hash (FabricX.parser c fabricXCodes) now header data metadata) ↔
      (metadata[Proto.transactionsFilter]? ≠ none → ∀ pre envBytes post,
        data = pre ++ envBytes :: post → (∀ e ∈ pre, ¬ BadConfig c e) →
          ¬ LacksAction c envBytes) := by
  have hfabricX : Robust c hash (FabricX.parser c fabricXCodes) now header data metadata :=
    robust_iff.mpr fun _ _ _ _ _ _ => not_panics_fabricX
  simp only [hfabricX, and_true, robust_iff, panics_fabric]

section Sample

open Proto

/-- An endorser transaction whose chaincode action payload is empty. -/
def sampleEnvelope : Envelope where
  payload := payloadBody.encode
    { header := some
        { channelHeader := channelHeaderBody.encode
            ⟨headerTypeEndorserTransaction, 0, none, [99], [116], 0, [], []⟩
          signatureHeader := [] }
      data := transactionBody.encode ⟨[⟨[], []⟩]⟩ }
  signature := []

def sampleHeader : BlockHeader := ⟨1, [], []⟩

def sampleCodes : Fabric.TxValidationCodes where
  valid := 0
  badCreatorSignature := 4
  duplicateTxid := 9
  mvccReadConflict := 11
  phantomReadConflict := 12
  endorsementPolicyFailure := 10
  notValidated := 254
  string := fun _ => []
  distinct := by decide

/-- One envelope of eighteen bytes makes the Fabric parser panic. -/
theorem fabric_parser_panics :
    Fabric.parse Codecs.protobuf sampleCodes (fun _ => []) 0
      ⟨some sampleHeader, some [envelopeBody.encode sampleEnvelope], some [[], [], [0]]⟩ =
        .panic := by
  decide

end Sample

end FabricXSdk.Blocks

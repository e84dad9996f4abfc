import FabricXSdk.Endorsement.Proposals
import FabricXSdk.Lib.ForkJoin
import FabricXSdk.Network.Classic
import FabricXSdk.Network.SeekInfo

/-!
# Endorsements of several peers

`ExecuteTransaction` sends one signed proposal to all peers of a client at once and collects
what they answer. The responses are in the order of the peers, whichever of them is fastest,
and an envelope that is packaged from them holds what every one of the peers has executed.

## Implementation notes

`GetSignedProposal` of `protoutil` is a parameter; `GetSignedProposal.Signs` says what is
relied on. The goroutines of a call are the tasks of a `ForkJoin`. A peer is one that runs an
endorser of the SDK: it parses the proposal by its own clock, executes it and endorses the
result. Over the connection an error may take the place of its response.
-/

namespace FabricXSdk.Network.Fabric

open Golang Blocks Endorsement Transition ForkJoin

/-- An `sdk.Endorsement`. -/
structure Endorsement where
  proposal : Option Proto.Proposal
  responses : List Proto.ProposalResponse

/-- `protoutil.GetSignedProposal`. -/
abbrev GetSignedProposal := Proto.Proposal → Signer → Outcome Proto.SignedProposal

/-- A signed proposal has the bytes of the proposal, and there is one if these can be encoded
and signed. -/
structure GetSignedProposal.Signs (sign : GetSignedProposal) (c : Proto.Codecs) : Prop where
  bytes : ∀ prop signer signed, sign prop signer = .ok signed →
    c.proposal.marshal prop = .ok signed.proposalBytes
  signs : ∀ prop signer bytes sig, c.proposal.marshal prop = .ok bytes →
    signer.sign bytes = .ok sig → ∃ signed, sign prop signer = .ok signed

section Model

variable (c : Proto.Codecs) (pu : Fabric.Protoutil)

def newSignedProposal (sign : GetSignedProposal) (signer : Signer) (rand : Except Text Bytes)
    (channel ns : GoString) (args : List Bytes) : Outcome Proto.SignedProposal := do
  let creator ← Outcome.lift signer.serialize
  let nonce ← mustNonce rand
  let proposal ← pu.createChaincodeProposal (pu.computeTxID nonce creator)
    Proto.headerTypeEndorserTransaction channel
    ⟨some ⟨Fabric.chaincodeSpecCAR, some ⟨[], ns, []⟩, some ⟨args⟩⟩⟩ nonce creator
  sign proposal signer

/-- `ProcessProposal` of a client, from the answer of its peer. -/
def processProposal : Except Text Proto.ProposalResponse → Except Text Proto.ProposalResponse
  | .error err => .error (.lit "peer: " :: err)
  | .ok resp =>
      match resp.response with
      | none => .error [.lit "peer returned nil response"]
      | some _ => .ok resp

/-- The loop over the results. -/
def collect : List (Except Text Proto.ProposalResponse) → Outcome (List Proto.ProposalResponse)
  | [] => .ok []
  | .error err :: _ => .error (.lit "peer endorsement: " :: err)
  | .ok resp :: results => do
      let responses ← collect results
      pure (resp :: responses)

/-- `ExecuteTransaction` after it has waited. -/
def endorsementOf (prop : Proto.SignedProposal)
    (results : List (Except Text Proto.ProposalResponse)) : Outcome Endorsement := do
  let responses ← collect results
  let proposal ← Outcome.ofExcept "error unmarshaling Proposal"
    (c.proposal.unmarshal prop.proposalBytes)
  pure ⟨some proposal, responses⟩

/-- What `ExecuteTransaction` returns, once all goroutines are done. -/
def executeTransaction (prop : Proto.SignedProposal)
    (slots : List (Option (Except Text Proto.ProposalResponse))) : Option (Outcome Endorsement) :=
  (join slots).map (endorsementOf c prop)

/-- A peer with an endorser: its own runtime and clock, and what it executes. -/
structure Endorser where
  rt : Runtime
  signer : Signer
  clock : Option Int
  execute : Invocation → ExecutionResult

def Endorser.processProposal (e : Endorser) (prop : Proto.SignedProposal) :
    Outcome Proto.ProposalResponse := do
  let inv ← Fabric.parse c pu prop e.clock
  Fabric.endorse c pu e.rt e.signer inv (e.execute inv)

structure EndorsementClient where
  peers : List Endorser
  /-- `"no peers configured"` otherwise. -/
  configured : peers ≠ []
  signer : Signer
  channel : GoString

/-- What comes back from a peer: the response of its endorser, or an error. -/
def Answers (prop : Proto.SignedProposal) (e : Endorser)
    (answer : Except Text Proto.ProposalResponse) : Prop :=
  ∀ r, answer = .ok r → e.processProposal c pu prop = .ok r

/-- A run of the goroutines of a call with these answers. -/
def Collecting (answers : List (Except Text Proto.ProposalResponse))
    (slots : List (Option (Except Text Proto.ProposalResponse))) : Prop :=
  Reaches (Finishes (answers.map processProposal)) Free (start _ answers.length) slots

/-- The first peer that fails, in the order of the configuration. -/
def FirstFailure (answers : List (Except Text Proto.ProposalResponse)) (err : Text) : Prop :=
  ∃ pre answer post, answers = pre ++ answer :: post ∧
    (∀ a ∈ pre, ∃ r, processProposal a = .ok r) ∧ processProposal answer = .error err

/-- An envelope around several responses carries the response payload of each of them. -/
def CreateSignedTx.WrapsAll (create : CreateSignedTx) (c : Proto.Codecs) : Prop :=
  ∀ prop signer resps env hdr cpp, create (some prop) signer resps = .ok env →
    c.header.unmarshal prop.header = .ok hdr →
    c.chaincodeProposalPayload.unmarshal prop.payload = .ok cpp →
      ∀ r ∈ resps, Wraps c hdr cpp r.payload env

end Model

section Collect

variable {c : Proto.Codecs} {prop : Proto.SignedProposal}
  {answers results : List (Except Text Proto.ProposalResponse)}
  {responses : List Proto.ProposalResponse} {err : Text}

theorem processProposal_eq_ok {answer : Except Text Proto.ProposalResponse}
    {r : Proto.ProposalResponse} (h : processProposal answer = .ok r) : answer = .ok r := by
  cases answer with
  | error err => cases h
  | ok resp =>
      rw [processProposal] at h
      split at h <;> cases h
      rfl

theorem collect_eq_ok (h : collect results = .ok responses) : results = responses.map .ok := by
  induction results generalizing responses with
  | nil =>
      cases h
      rfl
  | cons result results ih =>
      cases result with
      | error err => cases h
      | ok resp =>
          rw [collect, Outcome.bind_eq_ok] at h
          obtain ⟨rest, hrest, h⟩ := h
          cases h
          rw [ih hrest, List.map_cons]

/-- A call that does not fail has the answers of all peers. -/
theorem answers_of_collect (h : collect (answers.map processProposal) = .ok responses) :
    answers = responses.map .ok := by
  have hresults := collect_eq_ok h
  apply List.ext_getElem?
  intro i
  have hi : (answers.map processProposal)[i]? = (responses.map .ok)[i]? := by rw [hresults]
  rw [List.getElem?_map, List.getElem?_map] at hi
  rw [List.getElem?_map]
  cases hr : responses[i]? with
  | none =>
      rw [hr] at hi
      exact Option.map_eq_none_iff.mp hi
  | some r =>
      rw [hr] at hi
      obtain ⟨answer, hanswer, hok⟩ := Option.map_eq_some_iff.mp hi
      rw [hanswer, processProposal_eq_ok hok]
      rfl

/-- The call fails with the first failure in the order of the peers. -/
theorem collect_eq_error (h : collect (answers.map processProposal) = .error err) :
    ∃ first, FirstFailure answers first ∧ err = .lit "peer endorsement: " :: first := by
  induction answers with
  | nil => cases h
  | cons answer answers ih =>
      rw [List.map_cons] at h
      cases hresult : processProposal answer with
      | error first =>
          rw [hresult] at h
          cases h
          exact ⟨first, ⟨[], answer, answers, rfl, by simp, hresult⟩, rfl⟩
      | ok resp =>
          rw [hresult, collect, Outcome.bind_eq_error] at h
          obtain h | ⟨_, _, h⟩ := h
          · obtain ⟨first, ⟨pre, failed, post, rfl, hpre, hfailed⟩, rfl⟩ := ih h
            refine ⟨first, ⟨answer :: pre, failed, post, rfl, ?_, hfailed⟩, rfl⟩
            exact List.forall_mem_cons.mpr ⟨⟨resp, hresult⟩, hpre⟩
          · cases h

theorem collect_ne_panic : collect results ≠ .panic := by
  induction results with
  | nil => simp [collect]
  | cons result results ih =>
      cases result with
      | error err => simp [collect]
      | ok resp => simp [collect, Outcome.bind_eq_panic, ih]

/-- What the call returns does not depend on the order of the answers. -/
theorem executeTransaction_eq {slots : List (Option (Except Text Proto.ProposalResponse))}
    (hrun : Collecting answers slots) {out : Outcome Endorsement}
    (hout : executeTransaction c prop slots = some out) :
    out = endorsementOf c prop (answers.map processProposal) := by
  obtain ⟨results, hjoin, rfl⟩ := Option.map_eq_some_iff.mp hout
  rw [Collecting, ← List.length_map (f := processProposal)] at hrun
  rw [join_eq_results hrun hjoin]

theorem executeTransaction_inevitable
    (answers : List (Except Text Proto.ProposalResponse)) :
    Inevitable (Finishes (answers.map processProposal))
      (fun slots => (executeTransaction c prop slots).isSome = true)
      (start _ answers.length) := by
  rw [← List.length_map (f := processProposal)]
  refine (join_inevitable (answers.map processProposal)).mono fun slots hjoin => ?_
  rw [executeTransaction, hjoin]
  rfl

end Collect

section Proposal

variable {c : Proto.Codecs} {pu : Fabric.Protoutil} {sign : GetSignedProposal}
  {now : Proto.Timestamp} {signer : Signer} {rand : Except Text Bytes} {channel ns : GoString}
  {args : List Bytes} {signed : Proto.SignedProposal}

/-- A signed proposal is the bytes of one that was created for the client. -/
theorem newSignedProposal_eq_ok (hpu : pu.Proposes c now) (hsign : sign.Signs c)
    (h : newSignedProposal pu sign signer rand channel ns args = .ok signed) :
    ∃ creator nonce prop, signer.serialize = .ok creator ∧ rand = .ok nonce ∧
      Fabric.Created c now (pu.computeTxID nonce creator) Proto.headerTypeEndorserTransaction
        channel ⟨some ⟨Fabric.chaincodeSpecCAR, some ⟨[], ns, []⟩, some ⟨args⟩⟩⟩ nonce creator
        prop ∧
      c.proposal.marshal prop = .ok signed.proposalBytes := by
  simp only [newSignedProposal, Outcome.bind_eq_ok, Outcome.lift_eq_ok] at h
  obtain ⟨creator, hcreator, nonce, hnonce, prop, hprop, hsigned⟩ := h
  refine ⟨creator, nonce, prop, hcreator, ?_, hpu.created _ _ _ _ _ _ _ hprop,
    hsign.bytes _ _ _ hsigned⟩
  cases rand with
  | error err => cases hnonce
  | ok nonce' =>
      cases hnonce
      rfl

/-- Whenever an endorser accepts a created proposal, it finds what that was created with. -/
theorem parse_of_created (hc : c.LawfulFabric) {txID : GoString} {nonce creator : Bytes}
    {prop : Proto.Proposal} {chaincodeVersion : GoString} {expectedTime : Option Int}
    {inv : Invocation}
    (hcreated : Fabric.Created c now txID Proto.headerTypeEndorserTransaction channel
      ⟨some ⟨Fabric.chaincodeSpecCAR, some ⟨[], ns, chaincodeVersion⟩, some ⟨args⟩⟩⟩ nonce creator
      prop)
    (hbytes : c.proposal.marshal prop = .ok signed.proposalBytes)
    (h : Fabric.parse c pu signed expectedTime = .ok inv) :
    ∃ hdr, c.header.unmarshal prop.header = .ok hdr ∧
      pu.getProposalHash1 hdr prop.payload = .ok inv.proposalHash ∧
      inv = ⟨txID, nonce, creator, args, ns, chaincodeVersion, 0, channel, some prop,
        inv.proposalHash⟩ := by
  obtain ⟨hdr, chdr, cpp, hhdr, hchdr, _, rfl, rfl, _, _, hshdr, hcpp, hcis⟩ := hcreated
  simp only [Endorsement.Fabric.parse, Outcome.bind_eq_ok, Outcome.ofExcept_eq_ok,
    Outcome.lift_eq_ok, Outcome.pure_eq, Outcome.ok.injEq] at h
  obtain ⟨prop', hprop', hdr', hhdr', chdr', hchdr', _, _, shdr', hshdr', _, _, cpp', hcpp', cis',
    hcis', spec, hspec, hash, hhash, rfl⟩ := h
  obtain rfl : prop = prop' :=
    Except.ok.inj ((hc.proposal.unmarshal_marshal _ _ hbytes).symm.trans hprop')
  obtain rfl : hdr = hdr' := Except.ok.inj (hhdr.symm.trans hhdr')
  obtain rfl : chdr = chdr' := Except.ok.inj (hchdr.symm.trans hchdr')
  obtain rfl := Except.ok.inj (hshdr.symm.trans hshdr')
  obtain rfl : cpp = cpp' := Except.ok.inj (hcpp.symm.trans hcpp')
  obtain rfl := Except.ok.inj (hcis.symm.trans hcis')
  cases args with
  | nil => cases hspec
  | cons arg rest =>
      cases hspec
      exact ⟨hdr, hhdr, hhash, rfl⟩

end Proposal

section Execution

variable {c : Proto.Codecs} {pu : Fabric.Protoutil} {sign : GetSignedProposal}
  {now : Proto.Timestamp} {signed : Proto.SignedProposal} {inv : Invocation}

/-- An endorser that answers has executed the invocation it parsed. -/
theorem Endorser.processProposal_eq_ok {e : Endorser} {r : Proto.ProposalResponse}
    (h : e.processProposal c pu signed = .ok r) :
    ∃ inv, Fabric.parse c pu signed e.clock = .ok inv ∧
      Fabric.endorse c pu e.rt e.signer inv (e.execute inv) = .ok r := by
  rw [Endorser.processProposal, Outcome.bind_eq_ok] at h
  exact h

/-- The invocation of a signed proposal, for every endorser that accepts it. -/
structure Invokes (c : Proto.Codecs) (pu : Fabric.Protoutil) (client : EndorsementClient)
    (ns : GoString) (args : List Bytes) (signed : Proto.SignedProposal) (inv : Invocation) :
    Prop where
  channel : inv.channel = client.channel
  ns : inv.ns = ns
  args : inv.args = args
  creator : client.signer.serialize = .ok inv.creator
  txID : inv.txID = pu.computeTxID inv.nonce inv.creator
  unique : ∀ expectedTime inv', Fabric.parse c pu signed expectedTime = .ok inv' → inv' = inv
  proposal : ∃ prop, inv.proposal = some prop ∧
    c.proposal.unmarshal signed.proposalBytes = .ok prop

theorem invokes_of_parse (hc : c.LawfulFabric) (hpu : pu.Proposes c now) (hsign : sign.Signs c)
    {client : EndorsementClient} {rand : Except Text Bytes} {ns : GoString} {args : List Bytes}
    (hsigned : newSignedProposal pu sign client.signer rand client.channel ns args = .ok signed)
    {expectedTime : Option Int} (hparse : Fabric.parse c pu signed expectedTime = .ok inv) :
    Invokes c pu client ns args signed inv ∧ Proposed c now inv := by
  obtain ⟨creator, nonce, prop, hcreator, _, hcreated, hbytes⟩ :=
    newSignedProposal_eq_ok hpu hsign hsigned
  obtain ⟨hdr, hhdr, hhash, hinv⟩ := parse_of_created hc hcreated hbytes hparse
  have hprop : c.proposal.unmarshal signed.proposalBytes = .ok prop :=
    hc.proposal.unmarshal_marshal _ _ hbytes
  have hunique : ∀ expectedTime inv', Fabric.parse c pu signed expectedTime = .ok inv' →
      inv' = inv := by
    intro expectedTime inv' hparse'
    obtain ⟨hdr', hhdr', hhash', hinv'⟩ := parse_of_created hc hcreated hbytes hparse'
    obtain rfl : hdr = hdr' := Except.ok.inj (hhdr.symm.trans hhdr')
    rw [hinv', hinv, Except.ok.inj (hhash'.symm.trans hhash)]
  rw [hinv]
  exact ⟨⟨rfl, rfl, rfl, hcreator, rfl, hinv ▸ hunique, prop, rfl, hprop⟩, prop, rfl, hcreated⟩

theorem CreateSignedTx.WrapsAll.encloses {create : CreateSignedTx} (hcreate : create.WrapsAll c)
    {signer : Option Signer} {resps : List Proto.ProposalResponse} {env : Proto.Envelope}
    (henv : packageTx create signer inv.proposal resps = .ok env) {r : Proto.ProposalResponse}
    (hr : r ∈ resps) : Encloses c inv r.payload env := by
  intro prop hdr cpp hinv hhdr hcpp
  rw [packageTx, hinv] at henv
  exact hcreate _ _ _ _ _ _ henv hhdr hcpp r hr

/-- When all peers have answered the call returns. In whatever order they did, it fails with
the first failure in the order of the configuration, or it has one response of each peer, in
that order, to the same invocation. An envelope made from them parses to what every peer has
executed. -/
theorem execute_package_parse (hc : c.LawfulFabric) (hpu : pu.Proposes c now)
    (hsign : sign.Signs c) (hresp : pu.Responds c) {create : CreateSignedTx}
    (hcreate : create.WrapsAll c) (client : EndorsementClient) {rand : Except Text Bytes}
    {ns : GoString} {args : List Bytes}
    (hsigned : newSignedProposal pu sign client.signer rand client.channel ns args = .ok signed)
    {answers : List (Except Text Proto.ProposalResponse)}
    (hanswers : List.Forall₂ (Answers c pu signed) client.peers answers) :
    Inevitable (Finishes (answers.map processProposal))
      (fun slots => (executeTransaction c signed slots).isSome = true) (start _ answers.length) ∧
    ∀ slots out, Collecting answers slots → executeTransaction c signed slots = some out →
    (∃ first, FirstFailure answers first ∧ out = .error (.lit "peer endorsement: " :: first)) ∨
    ∃ inv responses, out = .ok ⟨inv.proposal, responses⟩ ∧ answers = responses.map .ok ∧
      Invokes c pu client ns args signed inv ∧
      ∀ signer env, packageTx create signer inv.proposal responses = .ok env → ns ≠ [] →
        (∀ e ∈ client.peers, Distinct (e.execute inv).rws) →
        ∃ tx, Blocks.Fabric.parseTx c env = .ok (some tx) ∧
          ∀ e ∈ client.peers, CarriesOver inv (e.execute inv) tx := by
  refine ⟨executeTransaction_inevitable answers, fun slots out hrun hout => ?_⟩
  rw [executeTransaction_eq hrun hout, endorsementOf]
  cases hcollect : collect (answers.map processProposal) with
  | panic => exact absurd hcollect collect_ne_panic
  | error err =>
      obtain ⟨first, hfirst, rfl⟩ := collect_eq_error hcollect
      exact Or.inl ⟨first, hfirst, rfl⟩
  | ok responses =>
      right
      obtain rfl := answers_of_collect hcollect
      have hanswered : List.Forall₂ (fun e r => e.processProposal c pu signed = .ok r) client.peers
          responses :=
        (List.forall₂_map_right_iff.mp hanswers).imp fun e r h => h r rfl
      -- the first peer has parsed the proposal, and the others find the same
      obtain ⟨first, hfirst⟩ := List.exists_mem_of_ne_nil _ client.configured
      have hendorsed : ∀ e ∈ client.peers, ∃ r ∈ responses,
          e.processProposal c pu signed = .ok r := by
        have hflip : List.Forall₂ (fun r e => e.processProposal c pu signed = .ok r) responses
            client.peers := hanswered.flip
        intro e he
        exact exists_mem_of_forall₂ hflip he
      obtain ⟨r₀, hr₀, hprocess₀⟩ := hendorsed first hfirst
      obtain ⟨inv, hparse, hendorse₀⟩ := Endorser.processProposal_eq_ok hprocess₀
      obtain ⟨hinvokes, hproposed⟩ := invokes_of_parse hc hpu hsign hsigned hparse
      obtain ⟨prop, hprop, hunmarshal⟩ := hinvokes.proposal
      refine ⟨inv, responses, ?_, rfl, hinvokes, fun signer env henv hns hd => ?_⟩
      · simp [hunmarshal, hprop, Outcome.ofExcept]
      · have hcarried : ∀ e ∈ client.peers, ∃ tx, Blocks.Fabric.parseTx c env = .ok (some tx) ∧
            CarriesOver inv (e.execute inv) tx := by
          intro e he
          obtain ⟨r, hr, hprocess⟩ := hendorsed e he
          obtain ⟨inv', hparse', hendorse⟩ := Endorser.processProposal_eq_ok hprocess
          obtain rfl := hinvokes.unique _ _ hparse'
          exact parseTx_of_encloses hc hresp hproposed (hinvokes.ns ▸ hns) (hd e he) hendorse
            (hcreate.encloses henv hr)
        obtain ⟨tx, htx, _⟩ := hcarried first hfirst
        refine ⟨tx, htx, fun e he => ?_⟩
        obtain ⟨tx', htx', hcarries⟩ := hcarried e he
        rw [htx] at htx'
        cases htx'
        exact hcarries

end Execution

section Sample

/-- `GetSignedProposal` as `protoutil` has it. -/
def referenceGetSignedProposal (c : Proto.Codecs) : GetSignedProposal := fun prop signer => do
  let propBytes ← Outcome.lift (c.proposal.marshal prop)
  let signature ← Outcome.lift (signer.sign propBytes)
  pure ⟨propBytes, signature⟩

theorem referenceGetSignedProposal_signs (c : Proto.Codecs) :
    GetSignedProposal.Signs (referenceGetSignedProposal c) c where
  bytes := by
    intro prop signer signed h
    simp only [referenceGetSignedProposal, Outcome.bind_eq_ok, Outcome.lift_eq_ok,
      Outcome.pure_eq, Outcome.ok.injEq] at h
    obtain ⟨bytes, hbytes, _, _, rfl⟩ := h
    exact hbytes
  signs := by
    intro prop signer bytes sig hbytes hsig
    refine ⟨⟨bytes, sig⟩, ?_⟩
    simp [referenceGetSignedProposal, hbytes, hsig, Outcome.lift]

theorem referenceCreateSignedTx_wrapsAll {c : Proto.Codecs} (hc : c.LawfulFabric) :
    CreateSignedTx.WrapsAll (referenceCreateSignedTx c) c :=
  fun _ _ _ _ _ _ h hhdr hcpp _ hr => referenceCreateSignedTx_wraps hc h hr hhdr hcpp

def sampleEndorser (certificate : Byte) : Endorser :=
  ⟨Runtime.canonical, FabricX.sampleSigner certificate, none, fun _ => FabricX.sampleResult⟩

def sampleEndorsers : EndorsementClient :=
  ⟨[sampleEndorser 1, sampleEndorser 2], List.cons_ne_nil _ _, Fabric.sampleClient, [99]⟩

def sampleSigned : Proto.SignedProposal :=
  (newSignedProposal Fabric.sampleProposer (referenceGetSignedProposal Proto.Codecs.protobuf)
    Fabric.sampleClient (.ok (List.replicate 24 1)) [99] [110] [[97]]).getD ⟨[], []⟩

def sampleAnswer (certificate : Byte) : Proto.ProposalResponse :=
  ((sampleEndorser certificate).processProposal Proto.Codecs.protobuf Fabric.sampleProposer
    sampleSigned).getD ⟨0, none, [], none⟩

def sampleProposal : Proto.Proposal :=
  (Proto.Codecs.protobuf.proposal.unmarshal sampleSigned.proposalBytes).toOption.getD ⟨[], [], []⟩

def samplePackaged : Proto.Envelope :=
  (packageTx (referenceCreateSignedTx Proto.Codecs.protobuf) (some Fabric.sampleClient)
    (some sampleProposal) [sampleAnswer 1, sampleAnswer 2]).getD ⟨[], []⟩

theorem sampleAnswer_eq : ∀ certificate ∈ ([1, 2] : List Byte),
    (sampleEndorser certificate).processProposal Proto.Codecs.protobuf Fabric.sampleProposer
        sampleSigned = .ok (sampleAnswer certificate) ∧
      processProposal (.ok (sampleAnswer certificate)) = .ok (sampleAnswer certificate) := by
  decide +kernel

/-- The second peer is faster. -/
theorem execute_package_parse_sample :
    ∃ slots inv tx, Collecting [.ok (sampleAnswer 1), .ok (sampleAnswer 2)] slots ∧
      executeTransaction Proto.Codecs.protobuf sampleSigned slots =
        some (.ok ⟨some sampleProposal, [sampleAnswer 1, sampleAnswer 2]⟩) ∧
      Blocks.Fabric.parseTx Proto.Codecs.protobuf samplePackaged = .ok (some tx) ∧
      CarriesOver inv FabricX.sampleResult tx := by
  have hc := Proto.Codecs.protobuf_lawfulFabric
  have hsigned : newSignedProposal Fabric.sampleProposer
      (referenceGetSignedProposal Proto.Codecs.protobuf) Fabric.sampleClient
      (.ok (List.replicate 24 1)) [99] [110] [[97]] = .ok sampleSigned := by
    decide +kernel
  have hrun : Collecting [.ok (sampleAnswer 1), .ok (sampleAnswer 2)]
      [some (.ok (sampleAnswer 1)), some (.ok (sampleAnswer 2))] := by
    rw [Collecting, List.map_cons, List.map_singleton, (sampleAnswer_eq 1 (by decide)).2,
      (sampleAnswer_eq 2 (by decide)).2]
    exact Reaches.of_foldlM [1, 0] rfl
  have hprop : Proto.Codecs.protobuf.proposal.unmarshal sampleSigned.proposalBytes =
      .ok sampleProposal := by
    decide +kernel
  have hout : executeTransaction Proto.Codecs.protobuf sampleSigned
      [some (.ok (sampleAnswer 1)), some (.ok (sampleAnswer 2))] =
        some (.ok ⟨some sampleProposal, [sampleAnswer 1, sampleAnswer 2]⟩) := by
    simp [executeTransaction, join, endorsementOf, collect, hprop, Outcome.ofExcept]
  have hpackaged : packageTx (referenceCreateSignedTx Proto.Codecs.protobuf)
      (some Fabric.sampleClient) (some sampleProposal) [sampleAnswer 1, sampleAnswer 2] =
        .ok samplePackaged := by
    decide +kernel
  have hanswers : List.Forall₂ (Answers Proto.Codecs.protobuf Fabric.sampleProposer sampleSigned)
      sampleEndorsers.peers [.ok (sampleAnswer 1), .ok (sampleAnswer 2)] := by
    refine .cons (fun r hr => ?_) (.cons (fun r hr => ?_) .nil)
    · rw [← Except.ok.inj hr]
      exact (sampleAnswer_eq 1 (by decide)).1
    · rw [← Except.ok.inj hr]
      exact (sampleAnswer_eq 2 (by decide)).1
  obtain ⟨_, _, hfail⟩ | ⟨inv, responses, hok, _, _, hparses⟩ :=
    (execute_package_parse hc Fabric.sampleProposer_proposes
      (referenceGetSignedProposal_signs Proto.Codecs.protobuf)
      (Fabric.Protoutil.reference_responds id ⟨1000, 5⟩) (referenceCreateSignedTx_wrapsAll hc)
      sampleEndorsers hsigned hanswers).2 _ _ hrun hout
  · cases hfail
  · obtain ⟨hproposal, hresponses⟩ := Endorsement.mk.inj (Outcome.ok.inj hok)
    rw [hproposal, hresponses] at hpackaged
    have hdistinct : ∀ e ∈ sampleEndorsers.peers, Distinct (e.execute inv).rws := by
      intro e he
      have hexecute : e.execute inv = FabricX.sampleResult := by
        rcases List.mem_pair.mp he with rfl | rfl <;> rfl
      rw [hexecute]
      exact ⟨by decide, by decide⟩
    obtain ⟨tx, htx, hcarries⟩ := hparses _ _ hpackaged (List.cons_ne_nil 110 []) hdistinct
    exact ⟨_, inv, tx, hrun, hout, htx, hcarries _ List.mem_cons_self⟩

end Sample

end FabricXSdk.Network.Fabric

import FabricXSdk.FabricTest.Filter

/-!
# A client of the test network

A client reads the blocks of the chain with the filters they were committed with. The byte
of a transaction is mapped back to the status that the ledger gave it, so the client gets
the transactions that the ledger applied, and a store that is fed with them answers as the
ledger's own.
-/

namespace FabricXSdk.FabricTest

open Golang Blocks State Atomic

/-- A parsed block has the number and the transactions of another one, with their
numbers and statuses. The raw code and the reason of a transaction may differ. -/
structure SameOutcome (bl bl' : Block) : Prop where
  number : bl'.number = bl.number
  transactions : List.Forall₂ (fun t t' => SameBody t t' ∧ t'.status = t.status)
    bl.transactions bl'.transactions

/-- The ledger with its own world state after calls of `process` that succeeded, with the
blocks that they validated and applied. -/
inductive Produced (net : Network) : Ledger → List Block → Prop
  | genesis {l} (h : net.newLedger (some Database.empty) = .ok l) : Produced net l []
  | process {l l' applied bl fbl env batch} (run : Produced net l applied)
      (hprepare : net.prepare env l batch = .ok (bl, fbl))
      (h : net.process env l batch = (.ok (), l')) : Produced net l' (applied ++ [bl])

/-- A store that is fed with blocks in order, while no call fails. -/
def feed (channel : GoString) : Database → List Block → Except Text Database
  | db, [] => .ok db
  | db, b :: rest => do
      let db' ← updateWorldState channel [] db b
      feed channel db' rest

/-- Two stores give the same answers. -/
def SameAnswers (channel : GoString) (db : Database) (channel' : GoString) (db' : Database) :
    Prop :=
  ∀ ns key, get channel' none db' ns key = get channel none db ns key ∧
    getHistory channel' none db' ns key = getHistory channel none db ns key ∧
    ∀ n, getAt channel' none db' ns key n = getAt channel none db ns key n

section Reparse

variable {c : Proto.Codecs} {p : TxParser} {net : Network} {env : Env} {l : Ledger}
  {batch : List Proto.Envelope} {tip : Proto.BlockHeader} {raw bl : Block}
  {txFilter : List Byte} {filter : Bytes} {fbl : Proto.Block}

/-- Whether a block parses does not depend on its filter or on the clock. -/
theorem parseEnvelopes_any_filter {txFilter txFilter' : Bytes} {txNum : ℕ} {data : List Bytes}
    {block block' start : Block} (h : parseEnvelopes c p txFilter txNum data block = .ok block') :
    ∃ result, parseEnvelopes c p txFilter' txNum data start = .ok result := by
  cases hout : parseEnvelopes c p txFilter' txNum data start with
  | ok result => exact ⟨result, rfl⟩
  | error err =>
      obtain ⟨e, he, hbad⟩ := parseEnvelopes_returns.2 err hout
      exact absurd hbad (not_badConfig_of_parseEnvelopes h e he)
  | panic =>
      rw [parseEnvelopes_eq_panic, ← @parseEnvelopes_eq_panic c p txFilter txNum data block, h]
        at hout
      cases hout

/-- Two filters give a block the same transactions, up to their outcomes. -/
theorem transactions_sameBody (net : Network) (filter filter' : Bytes) (data : List Bytes) :
    List.Forall₂ SameBody (net.transactions filter data) (net.transactions filter' data) := by
  rw [Network.transactions, Network.transactions]
  induction data.zipIdx with
  | nil => exact List.Forall₂.nil
  | cons e rest ih =>
      simp only [List.filterMap_cons]
      cases accepted net.codecs net.parser e.1 with
      | none => exact ih
      | some tx => exact List.Forall₂.cons rfl ih

theorem status_of_mem_transactions {data : List Bytes} {t : Transaction}
    (h : t ∈ net.transactions filter data) :
    t.status = (statusAt net.mapping filter t.number).1 := by
  obtain ⟨e, _, he⟩ := List.mem_filterMap.mp h
  obtain ⟨tx, _, rfl⟩ := Option.map_eq_some_iff.mp he
  rfl

/-- Lists with the bodies of a third one and equal statuses have the same outcome. -/
theorem sameOutcome_of_bodies {txs₀ txs txs' : List Transaction}
    (h : List.Forall₂ SameBody txs₀ txs) (h' : List.Forall₂ SameBody txs₀ txs')
    (hstatus : ∀ t ∈ txs, ∀ t' ∈ txs', t'.number = t.number → t'.status = t.status) :
    List.Forall₂ (fun t t' => SameBody t t' ∧ t'.status = t.status) txs txs' := by
  induction h generalizing txs' with
  | nil =>
      cases h'
      exact List.Forall₂.nil
  | @cons t₀ t _ _ ht _ ih =>
      cases h' with
      | @cons _ t' _ _ ht' htail =>
          have hsame : SameBody t t' := SameBody.trans (SameBody.symm ht) ht'
          refine List.Forall₂.cons ⟨hsame, ?_⟩ (ih htail fun a ha a' ha' => ?_)
          · exact hstatus t List.mem_cons_self t' List.mem_cons_self hsame.number
          · exact hstatus a (List.mem_cons_of_mem _ ha) a' (List.mem_cons_of_mem _ ha')

/-- Parsing the stored block again gives what was validated. -/
theorem Prepared.reparse (h : Prepared net env l batch tip raw bl txFilter filter fbl)
    (now : Int) : ∃ bl', net.parse now fbl = .ok bl' ∧ SameOutcome bl bl' := by
  have hparse : ∃ bl', net.parse now fbl = .ok bl' := by
    have hraw := h.parsed
    rw [Network.parse, Network.makeBlock, parseBlock_eq rfl] at hraw
    rw [h.stored, Network.parse, parseBlock_eq rfl]
    exact parseEnvelopes_any_filter hraw
  obtain ⟨bl', hbl'⟩ := hparse
  refine ⟨bl', hbl', ?_⟩
  rw [h.stored] at hbl'
  obtain ⟨hnumber, htxs⟩ := parse_transactions hbl'
  refine ⟨by rw [hnumber, h.number], sameOutcome_of_bodies h.sameBody ?_ ?_⟩
  · rw [htxs, h.raw_transactions.2]
    exact transactions_sameBody net _ filter _
  · -- the byte at the position of a transaction reports the status it was given
    intro t ht t' ht' heq
    rw [htxs] at ht'
    obtain ⟨byte, hbyte, hreports⟩ := scatter_mem h.reports h.inOrder h.scattered t ht
    rw [status_of_mem_transactions ht', heq, statusAt, hbyte]
    exact hreports

end Reparse

section Feeding

variable {channel : GoString} {db : Database} {hist blocks : List Block} {b b' : Block}

/-- A store with only smaller numbers takes the block. -/
structure Storable (b : Block) : Prop where
  inOrder : b.InOrder
  number : b.number < 2 ^ 63
  unambiguous : ∀ tx ∈ b.transactions, tx.valid = true → ¬ Ambiguous tx

/-- Blocks of increasing number that can be stored are all taken. -/
theorem exists_feed (run : Accepted channel db hist) (hs : ∀ b ∈ blocks, Storable b)
    (hp : (hist ++ blocks).Pairwise fun a b => a.number < b.number) :
    ∃ db', feed channel db blocks = .ok db' ∧ Accepted channel db' (hist ++ blocks) := by
  induction blocks generalizing db hist with
  | nil =>
      refine ⟨db, rfl, ?_⟩
      rw [List.append_nil]
      exact run
  | cons b rest ih =>
      rw [List.forall_mem_cons] at hs
      have hlt : ∀ a ∈ hist, a.number < b.number := fun a ha =>
        (List.pairwise_append.mp hp).2.2 a ha b List.mem_cons_self
      have hu := (updateWorldState_new_iff run.refines run.primaryKey hlt hs.1.inOrder).mpr
        ⟨hs.1.number, hs.1.unambiguous, rfl⟩
      have hrun := run.next hlt hs.1.inOrder hu
      rw [List.append_cons] at hp ⊢
      obtain ⟨db', hfeed, hrun'⟩ := ih hrun hs.2 hp
      refine ⟨db', ?_, hrun'⟩
      rw [feed, hu]
      exact hfeed

/-- The store that took a new block says that it can be stored. -/
theorem storable_of_update {driver : Driver Text} {db' : Database}
    (run : Accepted channel db hist) (hlt : ∀ a ∈ hist, a.number < b.number) (hb : b.InOrder)
    (h : updateWorldState channel driver db b = .ok db') : Storable b := by
  have hfree := updateWorldState_free_iff.mpr (updateWorldState_ok h)
  obtain ⟨hnumber, hunambiguous, _⟩ :=
    (updateWorldState_new_iff run.refines run.primaryKey hlt hb).mp hfree
  exact ⟨hb, hnumber, hunambiguous⟩

theorem SameOutcome.storable (h : SameOutcome b b') (hb : Storable b) : Storable b' where
  inOrder := by
    have hnumbers := map_number_of_sameBody (h.transactions.imp fun _ _ ht => ht.1)
    have horder : (b.transactions.map Transaction.number).Pairwise (· < ·) :=
      List.pairwise_map.mpr hb.inOrder
    rw [← hnumbers] at horder
    exact List.pairwise_map.mp horder
  number := h.number ▸ hb.number
  unambiguous := by
    intro t' ht' hv
    obtain ⟨t, ht, hbody, hstatus⟩ := exists_mem_of_forall₂ h.transactions ht'
    rw [Transaction.valid_iff, hstatus, ← Transaction.valid_iff] at hv
    rw [Ambiguous, hbody.nsRWS]
    exact hb.unambiguous t ht hv

theorem blockWrites_of_sameOutcome (h : SameOutcome b b') (ns key : GoString) :
    blockWrites ns key b' = blockWrites ns key b := by
  rw [blockWrites, blockWrites, h.number]
  have htxs := h.transactions
  generalize b.transactions = txs, b'.transactions = txs' at htxs
  induction htxs with
  | nil => rfl
  | @cons t t' _ _ ht _ ih =>
      have hwrite : committedWrite b.number ns key t' = committedWrite b.number ns key t := by
        obtain ⟨hbody, hstatus⟩ := ht
        rw [SameBody, hstatus] at hbody
        rw [hbody]
        rfl
      rw [List.filterMap_cons, List.filterMap_cons, hwrite, ih]

theorem writesTo_of_sameOutcome (h : List.Forall₂ SameOutcome hist blocks) (ns key : GoString) :
    writesTo blocks ns key = writesTo hist ns key := by
  induction h with
  | nil => rfl
  | cons hb _ ih =>
      rw [writesTo, writesTo] at ih ⊢
      rw [List.flatMap_cons, List.flatMap_cons, blockWrites_of_sameOutcome hb, ih]

theorem numbers_of_sameOutcome (h : List.Forall₂ SameOutcome hist blocks) :
    blocks.map Block.number = hist.map Block.number := by
  induction h with
  | nil => rfl
  | cons hb _ ih => rw [List.map_cons, List.map_cons, hb.number, ih]

/-- Stores of two channels with the same history give the same answers. -/
theorem sameAnswers_of_history {channel' : GoString} {db' : Database} {hist' : List Block}
    (h : Refines channel db hist) (h' : Refines channel' db' hist')
    (hsame : ∀ ns key, history hist' ns key = history hist ns key) :
    SameAnswers channel db channel' db' := by
  intro ns key
  refine ⟨?_, ?_, fun n => ?_⟩
  · rw [h.get_eq, h'.get_eq, hsame]
  · rw [h.getHistory_eq, h'.getHistory_eq, hsame]
  · rcases Nat.lt_or_ge n (2 ^ 63) with hn | hn
    · rw [h.getAt_filter ns key hn, h'.getAt_filter ns key hn, hsame]
    · rw [getAt, getAt, if_pos hn, if_pos hn]

end Feeding

section Client

variable {net : Network} {l : Ledger} {applied : List Block}

/-- The block holds no transactions and stands at the start of the chain. -/
structure IsFirst (b : Block) : Prop where
  number : b.number = 0
  transactions : b.transactions = []

/-- The genesis block parses to a block without transactions. -/
theorem genesis_parse (hc : net.codecs.LawfulConfig) {db : Option Database}
    (h : net.newLedger db = .ok l) :
    ∃ genesis, l = ⟨[genesis], db⟩ ∧
      ∀ now, ∃ bl, net.parse now genesis = .ok bl ∧ IsFirst bl := by
  simp only [Network.newLedger, Network.makeGenesisBlock, Outcome.bind_eq_ok] at h
  obtain ⟨genesis, ⟨chdr, hchdr, data, hdata, payload, hpayload, hgenesis⟩, h⟩ := h
  cases hgenesis
  cases h
  refine ⟨_, rfl, fun now => ?_⟩
  have hmarshal : ∀ {x : Except Text Bytes} {b : Bytes}, marshalOrPanic x = .ok b → x = .ok b := by
    intro x b hx
    cases x with
    | error err => cases hx
    | ok b' => cases hx; rfl
  obtain ⟨envBytes, henv⟩ := hc.envelope.marshal_ok ⟨payload, []⟩ trivial
  obtain ⟨configBytes, hconfig⟩ := hc.config.marshal_ok ⟨0, some []⟩ trivial
  have hpayload' := hc.payload.unmarshal_marshal _ _ (hmarshal hpayload)
  have hchdr' := hc.channelHeader.unmarshal_marshal _ _ (hmarshal hchdr)
  have hdata' := hc.configEnvelope.unmarshal_marshal _ _ (hmarshal hdata)
  -- the only envelope is a configuration that decodes
  have hconfigEnv : IsConfig net.codecs envBytes data := by
    refine ⟨⟨payload, []⟩, ⟨some ⟨chdr, []⟩, data⟩,
      ⟨Proto.headerTypeConfig, 0, none, [], [], 0, [], []⟩,
      hc.envelope.unmarshal_marshal _ _ henv, ?_, rfl, rfl⟩
    simp only [openEnvelope, hpayload', hchdr']
  obtain ⟨config, hdecoded⟩ := decodeConfig_eq_ok.mpr ⟨_, _, configBytes, hdata', rfl, hconfig⟩
  have hbytes : net.envelopeBytes ⟨payload, []⟩ = envBytes := by
    rw [Network.envelopeBytes, henv]
  have hentry : ∀ blockNum filter, parseEnvelope net.codecs net.parser blockNum filter 0 envBytes =
      .ok (.config config) := by
    intro blockNum filter
    rw [parseEnvelope_of_isConfig hconfigEnv, parseConfig, hdecoded]
  rw [Network.parse, Network.makeBlock, parseBlock_eq rfl, List.map_singleton, hbytes,
    parseEnvelopes, hentry]
  exact ⟨_, rfl, rfl, rfl⟩

/-- What a ledger that only had successful calls has stored. -/
structure Kept (net : Network) (l : Ledger) (applied : List Block) (genesis : Proto.Block)
    (stored : List Proto.Block) (db : Database) : Prop where
  chain : l.blocks = genesis :: stored
  first : ∀ now, ∃ bl, net.parse now genesis = .ok bl ∧ IsFirst bl
  others : List.Forall₂ (fun bl fbl => ∀ now, ∃ bl', net.parse now fbl = .ok bl' ∧
    SameOutcome bl bl') applied stored
  ownDb : l.db = some db
  accepted : Accepted channel db applied
  storable : ∀ bl ∈ applied, Storable bl ∧ 0 < bl.number ∧ bl.number < l.blocks.length
  increasing : applied.Pairwise fun a b => a.number < b.number

/-- The own world state after a commit. -/
theorem commit_ownDb {bl : Block} {fbl : Proto.Block} {db : Database}
    (h : l.commit env bl fbl = (.ok (), l')) (hdb : l.db = some db) :
    ∃ db', l'.db = some db' ∧ updateWorldState channel env.driver db bl = .ok db' := by
  rcases (commit_eq_ok.mp h).2 with ⟨hnone, _⟩ | ⟨db₀, db', hsome, hdb', hu⟩
  · rw [hdb] at hnone
    cases hnone
  · rw [hdb] at hsome
    cases hsome
    exact ⟨db', hdb', hu⟩

theorem Kept.process {genesis : Proto.Block} {stored : List Proto.Block} {db : Database}
    {tip : Proto.BlockHeader} {raw bl : Block} {txFilter : List Byte} {filter : Bytes}
    {fbl : Proto.Block} (h : Kept net l applied genesis stored db)
    (hp : Prepared net env l batch tip raw bl txFilter filter fbl)
    (hcommit : l.commit env bl fbl = (.ok (), l')) :
    ∃ db', Kept net l' (applied ++ [bl]) genesis (stored ++ [fbl]) db' := by
  obtain ⟨db', hdb', hu⟩ := commit_ownDb hcommit h.ownDb
  have hblocks := (commit_eq_ok.mp hcommit).1
  have hlt : ∀ a ∈ applied, a.number < bl.number := by
    intro a ha
    rw [hp.number]
    exact (h.storable a ha).2.2
  refine ⟨db', ?_, h.first, List.rel_append h.others (.cons hp.reparse .nil), hdb',
    h.accepted.next hlt hp.inOrder hu, ?_, ?_⟩
  · rw [hblocks, h.chain, List.cons_append]
  · intro a ha
    rw [hblocks, List.length_append, List.length_singleton]
    rcases List.mem_append.mp ha with ha | ha
    · obtain ⟨hs, h0, hlen⟩ := h.storable a ha
      exact ⟨hs, h0, hlen.trans (Nat.lt_succ_self _)⟩
    · obtain rfl := List.mem_singleton.mp ha
      refine ⟨storable_of_update h.accepted hlt hp.inOrder hu, ?_, ?_⟩
      · rw [hp.number, h.chain]
        exact Nat.zero_lt_succ _
      · rw [hp.number]
        exact Nat.lt_succ_self _
  · refine List.pairwise_append.mpr ⟨h.increasing, List.pairwise_singleton _ _, ?_⟩
    intro a ha b hb
    obtain rfl := List.mem_singleton.mp hb
    exact hlt a ha

theorem Produced.kept (hc : net.codecs.LawfulConfig) (run : Produced net l applied) :
    ∃ genesis stored db, Kept net l applied genesis stored db := by
  induction run with
  | genesis h =>
      obtain ⟨genesis, rfl, hparse⟩ := genesis_parse hc h
      exact ⟨genesis, [], Database.empty, rfl, hparse, .nil, rfl, .empty, by simp, .nil⟩
  | @process l l' applied bl fbl env batch _ hprepare h ih =>
      obtain ⟨genesis, stored, db, hkept⟩ := ih
      obtain ⟨tip, raw, txFilter, filter, hp⟩ := prepare_eq_ok.mp hprepare
      obtain ⟨db', hkept'⟩ := hkept.process hp (commit_of_process hprepare h)
      exact ⟨genesis, stored ++ [fbl], db', hkept'⟩

/-- What a client parses out of the stored blocks, whenever it does. -/
theorem sameOutcome_of_parsed {stored : List Proto.Block} {parsed : List Block}
    (h : List.Forall₂ (fun bl fbl => ∀ now, ∃ bl', net.parse now fbl = .ok bl' ∧
      SameOutcome bl bl') applied stored)
    (hparsed : List.Forall₂ (fun fbl bl => ∃ now, net.parse now fbl = .ok bl) stored parsed) :
    List.Forall₂ SameOutcome applied parsed := by
  induction h generalizing parsed with
  | nil =>
      cases hparsed
      exact List.Forall₂.nil
  | cons hb _ ih =>
      cases hparsed with
      | cons hbl htail =>
          obtain ⟨now, hnow⟩ := hbl
          obtain ⟨bl', hbl', hsame⟩ := hb now
          rw [hnow] at hbl'
          cases hbl'
          exact List.Forall₂.cons hsame (ih htail)

/-- A store that starts with the genesis block and goes on with the parsed blocks answers
as the ledger's own. -/
theorem Kept.sameAnswers {genesis : Proto.Block} {stored : List Proto.Block} {db : Database}
    (h : Kept net l applied genesis stored db) {first : Block} {rest : List Block}
    (hfirst : IsFirst first) (hrest : List.Forall₂ SameOutcome applied rest)
    (channel' : GoString) :
    ∃ db', feed channel' Database.empty (first :: rest) = .ok db' ∧
      SameAnswers channel db channel' db' := by
  have hstorable : ∀ b ∈ rest, Storable b ∧ 0 < b.number := by
    intro b' hb'
    obtain ⟨b, hb, hsame⟩ := exists_mem_of_forall₂ hrest hb'
    obtain ⟨hs, hpos, _⟩ := h.storable b hb
    exact ⟨hsame.storable hs, by rw [hsame.number]; exact hpos⟩
  have hincreasing : rest.Pairwise fun a b => a.number < b.number := by
    have hp : (applied.map Block.number).Pairwise (· < ·) := List.pairwise_map.mpr h.increasing
    rw [← numbers_of_sameOutcome hrest] at hp
    exact List.pairwise_map.mp hp
  have hfirst' : Storable first := by
    refine ⟨?_, by rw [hfirst.number]; exact Nat.two_pow_pos 63, ?_⟩
    · rw [Block.InOrder, hfirst.transactions]
      exact List.Pairwise.nil
    · rw [hfirst.transactions]
      simp
  obtain ⟨db', hfeed, haccepted⟩ := exists_feed (@Accepted.empty channel')
    (List.forall_mem_cons.mpr ⟨hfirst', fun b hb => (hstorable b hb).1⟩)
    (List.pairwise_cons.mpr ⟨fun b hb => hfirst.number ▸ (hstorable b hb).2, hincreasing⟩)
  refine ⟨db', hfeed, sameAnswers_of_history h.accepted.refines haccepted.refines ?_⟩
  intro ns key
  -- the genesis block writes nothing
  have hwrites : writesTo (first :: rest) ns key = writesTo applied ns key := by
    rw [writesTo, List.flatMap_cons, blockWrites, hfirst.transactions]
    exact writesTo_of_sameOutcome hrest ns key
  rw [List.nil_append, history, hwrites]
  rfl

/-- A client that parses the chain of the test network gets the transactions that the
ledger validated and applied, with their numbers and statuses, since a filter byte is the
smallest code of its status. A fresh store fed with them, under whatever channel name,
answers like the ledger's own. -/
theorem client_reconstructs_state (hc : net.codecs.LawfulConfig)
    (run : Produced net l applied) :
    (∀ rt status code, (codesByStatus rt net.names.named net.mapping).lookup status = some code ↔
      code ∈ net.names.named ∧ (net.mapping code).1 = status ∧
        ∀ other ∈ net.names.named, (net.mapping other).1 = status → code ≤ other) ∧
    (∀ b ∈ l.blocks, ∀ now, ∃ bl, net.parse now b = .ok bl) ∧
    ∀ parsed, List.Forall₂ (fun b bl => ∃ now, net.parse now b = .ok bl) l.blocks parsed →
      ∃ first rest db, parsed = first :: rest ∧ first.transactions = [] ∧
        List.Forall₂ SameOutcome applied rest ∧ l.db = some db ∧
        ∀ channel', ∃ db', feed channel' Database.empty parsed = .ok db' ∧
          SameAnswers channel db channel' db' := by
  obtain ⟨genesis, stored, db, hkept⟩ := run.kept hc
  refine ⟨fun rt status code => lookup_codesByStatus rt _ (mapping_raw net) code, ?_, ?_⟩
  · rw [hkept.chain, List.forall_mem_cons]
    refine ⟨fun now => ?_, fun b hb now => ?_⟩
    · obtain ⟨bl, hbl, _⟩ := hkept.first now
      exact ⟨bl, hbl⟩
    · obtain ⟨_, _, hparse⟩ := exists_mem_of_forall₂ hkept.others hb
      obtain ⟨bl', hbl', _⟩ := hparse now
      exact ⟨bl', hbl'⟩
  · intro parsed hparsed
    rw [hkept.chain] at hparsed
    cases hparsed with
    | @cons _ first _ rest hfirst htail =>
        obtain ⟨now, hnow⟩ := hfirst
        obtain ⟨bl, hbl, hisFirst⟩ := hkept.first now
        rw [hnow] at hbl
        cases hbl
        have hrest := sameOutcome_of_parsed hkept.others htail
        exact ⟨first, rest, db, rfl, hisFirst.transactions, hrest, hkept.ownDb,
          hkept.sameAnswers hisFirst hrest⟩

end Client

section Sample

open Proto in
/-- A Fabric-X transaction with these namespaces. -/
def sampleMessage (namespaces : List TxNamespace) : Envelope where
  payload := payloadBody.encode
    { header := some
        { channelHeader := channelHeaderBody.encode
            ⟨headerTypeMessage, 0, none, [99], [116], 0, [], []⟩
          signatureHeader := [] }
      data := txBody.encode ⟨namespaces, [], []⟩ }
  signature := []

/-- A write of key `"k"`, an envelope that does not decode, and a read of the key. -/
def sampleBatch : List Proto.Envelope :=
  [sampleMessage [⟨[110], 0, [], [], [⟨[107], [1]⟩]⟩], sampleEmpty,
    sampleMessage [⟨[110], 0, [⟨[107], none⟩], [], []⟩]]

def sampleOut : Block × Proto.Block :=
  (sampleFabricX.prepare sampleEnv (sampleLedger (some Database.empty)) sampleBatch).getD
    (sampleParsed, sampleStored)

def sampleProduced : Ledger :=
  (sampleFabricX.process sampleEnv (sampleLedger (some Database.empty)) sampleBatch).2

theorem sampleProduced_run : Produced sampleFabricX sampleProduced [sampleOut.1] := by
  have hprepare : sampleFabricX.prepare sampleEnv (sampleLedger (some Database.empty))
      sampleBatch = .ok sampleOut := by
    rfl
  have hok : (sampleFabricX.process sampleEnv (sampleLedger (some Database.empty))
      sampleBatch).1 = .ok () := by
    rfl
  exact (Produced.genesis rfl).process hprepare (Prod.ext hok rfl)

/-- The second transaction reads what the first wrote, and a client sees the conflict. -/
theorem client_reconstructs_state_sample :
    sampleOut.1.transactions.map (fun t => (t.number, t.status)) =
      [(0, .committed), (2, .mvccConflict)] ∧
    ∀ b ∈ sampleProduced.blocks, ∀ now, ∃ bl, sampleFabricX.parse now b = .ok bl :=
  ⟨by rfl, (client_reconstructs_state Proto.Codecs.protobuf_lawfulConfig sampleProduced_run).2.1⟩

end Sample

end FabricXSdk.FabricTest

import FabricXSdk.Blocks.Malformed
import FabricXSdk.FabricTest.Client

/-!
# What the test network can order

`process` returns an error if a batch does not parse, does not validate or is refused by
the world state, and the batching loop panics with that error. Without failures of the
database the batches it orders are those without an envelope that stops the parser and,
with an own world state, without a committed transaction that writes one key twice.
-/

namespace FabricXSdk.FabricTest

open Golang Blocks State Atomic

/-- The database does not fail in the call. -/
structure Env.Sound (env : Env) : Prop where
  get : ∀ ns key, env.get ns key = none
  driver : env.driver = []
  external : env.external.Answers

/-- The world state of a ledger that was made without an external one. -/
def ownState (own : Bool) : Option Database := if own then some Database.empty else none

/-- The batch becomes the next block, with its envelopes and no others. -/
def Orders (net : Network) (env : Env) (l : Ledger) (batch : List Proto.Envelope) : Prop :=
  ∃ l' block, net.process env l batch = (.ok (), l') ∧ l'.blocks = l.blocks ++ [block] ∧
    block.data = some (net.dataOf batch)

/-- The transactions of a batch as the validator marks them. -/
def Network.marked (net : Network) (env : Env) (l : Ledger) (batch : List Proto.Envelope) :
    List Transaction :=
  (validateFrom (net.validator (env.recordGetter l)) []
    (net.transactions (List.replicate batch.length 0) (net.dataOf batch))).transactions

/-- A batch that nothing in it keeps from being ordered. -/
structure Orderable (net : Network) (env : Env) (l : Ledger) (batch : List Proto.Envelope) :
    Prop where
  /-- Every `CONFIG` envelope holds a configuration. -/
  config : ∀ e ∈ net.dataOf batch, ¬ BadConfig net.codecs e
  /-- On classic Fabric every endorser transaction that decodes has its endorsed action. -/
  action : ∀ codes names, net.type = .fabric codes names →
    ∀ e ∈ net.dataOf batch, ¬ LacksAction net.codecs e
  /-- The own world state can number the block. -/
  number : l.db ≠ none → l.blocks.length < 2 ^ 63
  /-- No transaction that is applied to it writes one key twice with different content. -/
  unambiguous : l.db ≠ none → ∀ tx ∈ net.marked env l batch, tx.valid = true → ¬ Ambiguous tx

section Reachable

variable {net : Network} {l l₀ : Ledger} {env : Env} {batch : List Proto.Envelope}

/-- An own world state has taken blocks with smaller numbers than the next one. -/
def Behind (l : Ledger) : Prop :=
  ∀ db, l.db = some db → ∃ hist, Accepted channel db hist ∧
    ∀ a ∈ hist, a.number < l.blocks.length

theorem behind_process (h : Behind l) (env : Env) (batch : List Proto.Envelope) :
    Behind (net.process env l batch).2 := by
  by_cases hok : (net.process env l batch).1 = .ok ()
  · obtain ⟨bl, fbl, hprepare, hcommit⟩ := process_eq_ok.mp (Prod.ext hok rfl)
    obtain ⟨tip, raw, txFilter, filter, hp⟩ := prepare_eq_ok.mp hprepare
    obtain ⟨hblocks, hdb⟩ := commit_eq_ok.mp hcommit
    intro db' hdb'
    rcases hdb with ⟨_, hnone⟩ | ⟨db, db'', hsome, hsome', hu⟩
    · rw [hnone] at hdb'
      cases hdb'
    · rw [hsome'] at hdb'
      cases hdb'
      obtain ⟨hist, hrun, hlt⟩ := h db hsome
      rw [← hp.number] at hlt
      refine ⟨hist ++ [bl], hrun.next hlt hp.inOrder hu, fun a ha => ?_⟩
      rw [hblocks, List.length_append, List.length_singleton, ← hp.number]
      rcases List.mem_append.mp ha with ha | ha
      · exact (hlt a ha).trans (Nat.lt_succ_self _)
      · rw [List.mem_singleton.mp ha]
        exact Nat.lt_succ_self _
  · rw [process_of_ne_ok hok]
    exact h

theorem behind_truncate (h : Behind l) (num : ℕ) : Behind (l.truncate num).2 := by
  by_cases hok : (l.truncate num).1 = .ok ()
  · obtain ⟨hnone, _, hl'⟩ := truncate_eq_ok.mp (Prod.ext hok rfl)
    intro db hdb
    have hdb' := congrArg Ledger.db hl'
    rw [hdb, hnone] at hdb'
    cases hdb'
  · rw [truncate_of_ne_ok hok]
    exact h

theorem behind_run (h : Behind l) (ops : List Op) : Behind (net.run l ops) := by
  induction ops generalizing l with
  | nil => exact h
  | cons op ops ih =>
      apply ih
      cases op with
      | process env batch => exact behind_process h env batch
      | truncate num => exact behind_truncate h num

theorem behind_new {own : Bool} (h : net.newLedger (ownState own) = .ok l) : Behind l := by
  simp only [Network.newLedger, Outcome.bind_eq_ok] at h
  obtain ⟨genesis, _, h⟩ := h
  cases h
  intro db hdb
  cases own with
  | false => cases hdb
  | true =>
      cases hdb
      exact ⟨[], .empty, by simp⟩

end Reachable

section Ordering

variable {net : Network} {l : Ledger} {env : Env} {batch : List Proto.Envelope}
  {c : Proto.Codecs} {p : TxParser}

/-- `ParseTx` follows a nil pointer in the envelopes without an endorsed action, on classic
Fabric only. -/
theorem forall_not_panics_iff {data : List Bytes} :
    (∀ e ∈ data, ¬ Panics net.codecs net.parser e) ↔
      ∀ codes names, net.type = .fabric codes names →
        ∀ e ∈ data, ¬ LacksAction net.codecs e := by
  rw [Network.parser]
  cases net.type with
  | fabric codes names =>
      simp only [panics_fabric]
      exact ⟨fun h _ _ _ => h, fun h => h codes names rfl⟩
  | fabricX codes names =>
      refine iff_of_true (fun _ _ => not_panics_fabricX) fun _ _ h => ?_
      cases h

/-- The loop over the envelopes comes to its end if no envelope stops it. -/
theorem parseEnvelopes_ok_iff {txFilter : Bytes} {txNum : ℕ} {data : List Bytes} {block : Block} :
    (∃ block', parseEnvelopes c p txFilter txNum data block = .ok block') ↔
      (∀ e ∈ data, ¬ BadConfig c e) ∧ ∀ e ∈ data, ¬ Panics c p e := by
  constructor
  · rintro ⟨block', h⟩
    have hbad := not_badConfig_of_parseEnvelopes h
    refine ⟨hbad, fun e he hpanics => ?_⟩
    obtain ⟨pre, post, rfl⟩ := List.append_of_mem he
    have hpanic : parseEnvelopes c p txFilter txNum (pre ++ e :: post) block = .panic :=
      parseEnvelopes_eq_panic.mpr ⟨pre, e, post, rfl,
        fun e' he' => hbad e' (List.mem_append_left _ he'), hpanics⟩
    rw [h] at hpanic
    cases hpanic
  · rintro ⟨hbad, hpanics⟩
    cases hout : parseEnvelopes c p txFilter txNum data block with
    | ok block' => exact ⟨block', rfl⟩
    | error err =>
        obtain ⟨e, he, h⟩ := parseEnvelopes_returns.2 err hout
        exact absurd h (hbad e he)
    | panic =>
        obtain ⟨pre, e, post, rfl, _, h⟩ := parseEnvelopes_eq_panic.mp hout
        exact absurd h (hpanics e (by simp))

theorem recordGetter_answers (henv : env.Sound) (l : Ledger) :
    (env.recordGetter l).Answers := by
  intro ns key
  rw [Env.recordGetter]
  cases l.db with
  | none => exact henv.external ns key
  | some db =>
      simp only [henv.get]
      exact ⟨_, rfl⟩

/-- A transaction of a batch stands at the position of an envelope. -/
theorem number_lt_of_mem_transactions {filter : Bytes} {data : List Bytes} {t : Transaction}
    (h : t ∈ net.transactions filter data) : t.number < data.length := by
  obtain ⟨⟨e, i⟩, hmem, he⟩ := List.mem_filterMap.mp h
  obtain ⟨tx, _, rfl⟩ := Option.map_eq_some_iff.mp he
  exact (List.getElem?_eq_some_iff.mp (List.mem_zipIdx_iff_getElem?.mp hmem)).choose

theorem parse_makeBlock_ok_iff (number : ℕ) (prevHash : Bytes) (now : Int) :
    (∃ raw, net.parse now (net.makeBlock number prevHash batch) = .ok raw) ↔
      (∀ e ∈ net.dataOf batch, ¬ BadConfig net.codecs e) ∧
        ∀ e ∈ net.dataOf batch, ¬ Panics net.codecs net.parser e := by
  rw [Network.parse, Network.makeBlock, parseBlock_eq rfl]
  exact parseEnvelopes_ok_iff

/-- With a database that answers, validation runs to the end, and every outcome has its
position in the filter. -/
theorem exists_validated (henv : env.Sound) {raw : Block}
    (hraw : raw.transactions =
      net.transactions (List.replicate batch.length 0) (net.dataOf batch)) :
    ∃ bl txFilter filter, validate (net.validator (env.recordGetter l)) raw = (bl, txFilter, none) ∧
      scatter bl.transactions txFilter (List.replicate batch.length 0) = .ok filter := by
  let checked := validateFrom (net.validator (env.recordGetter l)) [] raw.transactions
  have herr : checked.err = none := by
    apply validateFrom_err
    · rw [validator_db]
      exact recordGetter_answers henv l
    · exact codesFit_of_names (mapping_raw net) (validator_codes net _)
  have hreports := validateFrom_reports
    (codeFor_back (mapping_raw net) (validator_codes net (env.recordGetter l))) herr
  have hlt : ∀ tx ∈ checked.transactions,
      tx.number < (List.replicate batch.length (0 : Byte)).length := by
    intro tx htx
    obtain ⟨tx₀, htx₀, hbody⟩ := exists_mem_of_forall₂ (validateFrom_sameBody _ _ _) htx
    rw [hraw] at htx₀
    rw [hbody.number, List.length_replicate, ← length_dataOf net batch]
    exact number_lt_of_mem_transactions htx₀
  obtain ⟨filter, hfilter⟩ := exists_scatter hreports hlt
  refine ⟨{ raw with transactions := checked.transactions }, checked.txFilter, filter, ?_, hfilter⟩
  rw [validate, ← herr]

/-- A batch gets to the commit exactly if it parses. -/
theorem exists_prepare_iff (hwf : WellFormed net l) (henv : env.Sound) :
    (∃ bl fbl, net.prepare env l batch = .ok (bl, fbl)) ↔
      (∀ e ∈ net.dataOf batch, ¬ BadConfig net.codecs e) ∧
        ∀ e ∈ net.dataOf batch, ¬ Panics net.codecs net.parser e := by
  constructor
  · rintro ⟨bl, fbl, h⟩
    obtain ⟨tip, raw, txFilter, filter, hp⟩ := prepare_eq_ok.mp h
    exact (parse_makeBlock_ok_iff ..).mp ⟨raw, hp.parsed⟩
  · intro h
    obtain ⟨header, data, metadata, hlast, _⟩ := hwf.last
    have htip : l.tip = .ok header := by
      rw [Ledger.tip, hlast]
      rfl
    obtain ⟨raw, hraw⟩ :=
      (parse_makeBlock_ok_iff l.blocks.length (net.headerHash header) env.now).mpr h
    obtain ⟨bl, txFilter, filter, hvalidate, hscatter⟩ :=
      @exists_validated _ l _ _ henv raw (parse_transactions hraw).2
    exact ⟨bl, _, prepare_eq_ok.mpr
      ⟨header, raw, txFilter, filter, htip, hraw, hvalidate, hscatter, rfl⟩⟩

theorem Prepared.transactions_eq {tip : Proto.BlockHeader} {raw bl : Block}
    {txFilter : List Byte} {filter : Bytes} {fbl : Proto.Block}
    (h : Prepared net env l batch tip raw bl txFilter filter fbl) :
    bl.transactions = net.marked env l batch := by
  rw [h.validateFrom_eq.1, Network.marked, ← h.raw_transactions.2]

/-- When the own world state takes the block that a batch was made into. -/
theorem exists_commit_iff (hbehind : Behind l) (henv : env.Sound) {tip : Proto.BlockHeader}
    {raw bl : Block} {txFilter : List Byte} {filter : Bytes} {fbl : Proto.Block}
    (h : Prepared net env l batch tip raw bl txFilter filter fbl) :
    (∃ l', l.commit env bl fbl = (.ok (), l')) ↔
      (l.db ≠ none → l.blocks.length < 2 ^ 63) ∧
        (l.db ≠ none → ∀ tx ∈ net.marked env l batch, tx.valid = true → ¬ Ambiguous tx) := by
  rw [← h.transactions_eq, ← h.number]
  cases hdb : l.db with
  | none =>
      refine iff_of_true ⟨⟨l.blocks ++ [fbl], none⟩, commit_eq_ok.mpr ⟨rfl, Or.inl ⟨hdb, rfl⟩⟩⟩ ?_
      simp
  | some db =>
      obtain ⟨hist, hrun, hlt⟩ := hbehind db hdb
      rw [← h.number] at hlt
      have hu := @updateWorldState_new_iff channel db hist bl
      constructor
      · rintro ⟨l', hcommit⟩
        obtain ⟨db', _, hupdate⟩ := commit_ownDb hcommit hdb
        rw [henv.driver] at hupdate
        obtain ⟨hnumber, hunambiguous, _⟩ :=
          (hu hrun.refines hrun.primaryKey hlt h.inOrder).mp hupdate
        exact ⟨fun _ => hnumber, fun _ => hunambiguous⟩
      · rintro ⟨hnumber, hunambiguous⟩
        have hupdate := (hu hrun.refines hrun.primaryKey hlt h.inOrder).mpr
          ⟨hnumber (by simp), hunambiguous (by simp), rfl⟩
        refine ⟨⟨l.blocks ++ [fbl], some (applied channel db bl)⟩,
          commit_eq_ok.mpr ⟨rfl, Or.inr ⟨db, _, hdb, rfl, ?_⟩⟩⟩
        rw [henv.driver]
        exact hupdate

/-- In every state of the ledger, and with a database that does not fail, exactly the
orderable batches are ordered. -/
theorem process_orders_iff {own : Bool} {l₀ : Ledger}
    (h₀ : net.newLedger (ownState own) = .ok l₀) (ops : List Op) (henv : env.Sound)
    (batch : List Proto.Envelope) :
    Orders net env (net.run l₀ ops) batch ↔ Orderable net env (net.run l₀ ops) batch := by
  have hwf := run_wellFormed (newLedger_wellFormed h₀) ops
  have hbehind : Behind (net.run l₀ ops) := behind_run (behind_new h₀) ops
  generalize net.run l₀ ops = l at hwf hbehind
  constructor
  · rintro ⟨l', block, hprocess, _⟩
    obtain ⟨bl, fbl, hprepare, hcommit⟩ := process_eq_ok.mp hprocess
    obtain ⟨tip, raw, txFilter, filter, hp⟩ := prepare_eq_ok.mp hprepare
    obtain ⟨hconfig, hpanics⟩ := (exists_prepare_iff hwf henv).mp ⟨bl, fbl, hprepare⟩
    obtain ⟨hnumber, hunambiguous⟩ := (exists_commit_iff hbehind henv hp).mp ⟨l', hcommit⟩
    exact ⟨hconfig, forall_not_panics_iff.mp hpanics, hnumber, hunambiguous⟩
  · rintro ⟨hconfig, haction, hnumber, hunambiguous⟩
    obtain ⟨bl, fbl, hprepare⟩ := (exists_prepare_iff hwf henv).mpr
      ⟨hconfig, forall_not_panics_iff.mpr haction⟩
    obtain ⟨tip, raw, txFilter, filter, hp⟩ := prepare_eq_ok.mp hprepare
    obtain ⟨l', hcommit⟩ := (exists_commit_iff hbehind henv hp).mpr ⟨hnumber, hunambiguous⟩
    have hprocess := process_eq_ok.mpr ⟨bl, fbl, hprepare, hcommit⟩
    obtain ⟨block, hblocks, hdata⟩ := process_appends hprocess
    exact ⟨l', block, hprocess, hblocks, hdata⟩

end Ordering

section Sample

open Proto

theorem sampleEnv_sound : sampleEnv.Sound :=
  ⟨fun _ _ => rfl, rfl, fun _ _ => ⟨none, rfl⟩⟩

/-- A conflict and an envelope that does not decode do not keep a batch from being ordered. -/
theorem process_orders_iff_sample :
    Orders sampleFabricX sampleEnv (sampleLedger (some Database.empty)) sampleBatch ∧
    Orderable sampleFabricX sampleEnv (sampleLedger (some Database.empty)) sampleBatch := by
  have hok : (sampleFabricX.process sampleEnv (sampleLedger (some Database.empty))
      sampleBatch).1 = .ok () := by
    rfl
  have horders : Orders sampleFabricX sampleEnv (sampleLedger (some Database.empty))
      sampleBatch :=
    ⟨sampleProduced, sampleOut.2, Prod.ext hok rfl, by rfl, by rfl⟩
  exact ⟨horders, (@process_orders_iff _ _ true _ rfl [] sampleEnv_sound _).mp horders⟩

/-- A `CONFIG` envelope that holds no configuration. -/
def sampleNoConfig : Envelope where
  payload := payloadBody.encode
    { header := some
        { channelHeader := channelHeaderBody.encode ⟨headerTypeConfig, 0, none, [], [], 0, [], []⟩
          signatureHeader := [] }
      data := [] }
  signature := []

/-- A transaction with two blind writes of key `"k"`. -/
def sampleTwice : Envelope := sampleMessage [⟨[110], 0, [], [], [⟨[107], [1]⟩, ⟨[107], [2]⟩]⟩]

/-- A malformed configuration fails in `Parse`, a second write of a key in
`UpdateWorldState`; the database answers throughout. -/
theorem batch_not_ordered :
    sampleFabricX.newLedger (ownState true) = .ok (sampleLedger (some Database.empty)) ∧
    sampleEnv.Sound ∧
    ¬ Orders sampleFabricX sampleEnv (sampleLedger (some Database.empty)) [sampleNoConfig] ∧
    ¬ Orders sampleFabricX sampleEnv (sampleLedger (some Database.empty)) [sampleTwice] := by
  refine ⟨rfl, sampleEnv_sound, ?_, ?_⟩
  · rintro ⟨l', block, h, _⟩
    cases congrArg Prod.fst h
  · rintro ⟨l', block, h, _⟩
    cases congrArg Prod.fst h

end Sample

end FabricXSdk.FabricTest

import FabricXSdk.Blocks.Mvcc
import Mathlib.Data.List.Basic

/-!
# When the marks of a block are exact

A transaction should be in conflict when one of its reads names a pair of
namespace and key that a committed transaction of the same block has written
before it, or does not match the record stored for the pair. `Validate` keeps the
written pairs under one string each, and two pairs may share it, so a block can
also get a conflict that no pair accounts for.

The rule is stated here twice: as a property of marked transactions (`Exact`), and
as a run over the block as it came (`passes`, `committedPairs`). The marks are
exact when no transaction that passes by the rule reads a string that an earlier
one has written under another pair.
-/

namespace FabricXSdk.Blocks

open Golang

/-- The getter answers for every key. -/
def RecordGetter.Answers (g : RecordGetter) : Prop := ∀ ns key, ∃ found, g ns key = .ok found

/-- Every code fits in a byte of the transaction filter. -/
def MVCCValidator.CodesFit (l : MVCCValidator) : Prop :=
  ∀ status, 0 ≤ l.codeFor status ∧ l.codeFor status ≤ 255

section Totality

variable {l : MVCCValidator}

/-- Without database errors a read passes or is a conflict. -/
theorem checkRead_conflict (hdb : l.db.Answers) {ns : GoString} {r : KVRead} {c : Check}
    (h : checkRead l ns r = some c) : c.status = .mvccConflict ∧ c.err = none := by
  obtain ⟨found, hfound⟩ := hdb ns r.key
  simp only [checkRead, hfound] at h
  split at h
  · cases h
  · cases h
    exact ⟨rfl, rfl⟩
  · cases h
    exact ⟨rfl, rfl⟩
  · split at h
    · split at h
      · cases h
        exact ⟨rfl, rfl⟩
      · cases h
    · split at h
      · cases h
        exact ⟨rfl, rfl⟩
      · cases h

/-- A verdict of the checks when the database answers. -/
def Check.Decided (c : Check) : Prop :=
  c.err = none ∧ (c.status = .committed ∨ c.status = .mvccConflict)

theorem checkReads_decided (hdb : l.db.Answers) (ns : GoString) (reads : List KVRead) :
    (checkReads l ns reads).Decided := by
  induction reads with
  | nil => exact ⟨rfl, Or.inl rfl⟩
  | cons r rest ih =>
      rw [checkReads]
      cases h : checkRead l ns r with
      | none => exact ih
      | some c =>
          obtain ⟨hstatus, herr⟩ := checkRead_conflict hdb h
          exact ⟨herr, Or.inr hstatus⟩

theorem checkTx_decided (hdb : l.db.Answers) (pendingWrites : List GoString)
    (nsRWS : List NsReadWriteSet) : (checkTx l pendingWrites nsRWS).Decided := by
  induction nsRWS with
  | nil => exact ⟨rfl, Or.inl rfl⟩
  | cons n rest ih =>
      have hns : (checkNs l pendingWrites n.ns n.rws.reads).Decided := by
        rw [checkNs]
        split
        · exact ⟨rfl, Or.inr rfl⟩
        · exact checkReads_decided hdb n.ns n.rws.reads
      simp only [checkTx, hns.1]
      split
      · exact hns
      · exact ih

/-- The pending writes behind a transaction with this verdict. -/
def pendingAfter (pendingWrites : List GoString) (status : Status) (tx : Transaction) :
    List GoString :=
  if status = .committed then pendingWrites ++ pendingKeys tx else pendingWrites

/-- With answers for every key, the loop marks a transaction whose code fits with its
verdict and goes on. -/
theorem validateFrom_cons_of_fits (hdb : l.db.Answers) {pendingWrites : List GoString}
    {tx : Transaction} {status : Status} (rest : List Transaction)
    (hstatus : (checkTx l pendingWrites tx.nsRWS).status = status)
    (hfits : 0 ≤ l.codeFor status ∧ l.codeFor status ≤ 255) :
    ∃ tx', SameBody tx tx' ∧ tx'.status = status ∧
      (validateFrom l pendingWrites (tx :: rest)).err =
        (validateFrom l (pendingAfter pendingWrites status tx) rest).err ∧
      (validateFrom l pendingWrites (tx :: rest)).transactions =
        tx' :: (validateFrom l (pendingAfter pendingWrites status tx) rest).transactions := by
  subst hstatus
  have herr := (checkTx_decided hdb pendingWrites tx.nsRWS).1
  have hfits' : ¬ (l.codeFor (checkTx l pendingWrites tx.nsRWS).status < 0 ∨
      255 < l.codeFor (checkTx l pendingWrites tx.nsRWS).status) := by omega
  simp only [validateFrom, if_neg hfits', herr]
  exact ⟨_, sameBody_setStatus .., rfl, rfl, rfl⟩

/-- A code that does not fit stops the loop before the transaction is marked. -/
theorem validateFrom_cons_of_not_fits {pendingWrites : List GoString} {tx : Transaction}
    {status : Status} (rest : List Transaction)
    (hstatus : (checkTx l pendingWrites tx.nsRWS).status = status)
    (hfits : ¬ (0 ≤ l.codeFor status ∧ l.codeFor status ≤ 255)) :
    (validateFrom l pendingWrites (tx :: rest)).err ≠ none ∧
      (validateFrom l pendingWrites (tx :: rest)).transactions = tx :: rest := by
  subst hstatus
  have hfits' : l.codeFor (checkTx l pendingWrites tx.nsRWS).status < 0 ∨
      255 < l.codeFor (checkTx l pendingWrites tx.nsRWS).status := by omega
  simp only [validateFrom, if_pos hfits']
  exact ⟨by simp, trivial⟩

theorem validateFrom_err (hdb : l.db.Answers) (hcodes : l.CodesFit)
    (pendingWrites : List GoString) (txs : List Transaction) :
    (validateFrom l pendingWrites txs).err = none := by
  induction txs generalizing pendingWrites with
  | nil => rfl
  | cons tx rest ih =>
      obtain ⟨_, _, _, herr, _⟩ := validateFrom_cons_of_fits hdb rest rfl (hcodes _)
      rw [herr]
      exact ih _

end Totality

section Rule

/-- A pair of namespace and key. -/
abbrev Pair := GoString × GoString

def writtenPairs (tx : Transaction) : List Pair :=
  tx.nsRWS.flatMap fun n => n.rws.writes.map fun w => (n.ns, w.key)

theorem pendingKeys_eq (tx : Transaction) :
    pendingKeys tx = (writtenPairs tx).map fun p => pendingKey p.1 p.2 := by
  simp only [pendingKeys, writtenPairs, List.map_flatMap, List.map_map, Function.comp_def]

theorem SameBody.writtenPairs_eq {tx tx' : Transaction} (h : SameBody tx tx') :
    writtenPairs tx' = writtenPairs tx := by
  rw [writtenPairs, h.nsRWS, writtenPairs]

/-- The read matches the record the getter finds. -/
def Current (l : MVCCValidator) (ns : GoString) (r : KVRead) : Prop :=
  ∃ found, l.db ns r.key = .ok found ∧ ReadMatches l.monotonicVersions found r

instance (mode : Bool) (found : Option WriteRecord) (r : KVRead) :
    Decidable (ReadMatches mode found r) := by
  unfold ReadMatches
  split <;> infer_instance

instance (l : MVCCValidator) (ns : GoString) (r : KVRead) : Decidable (Current l ns r) :=
  decidable_of_iff (checkRead l ns r = none) checkRead_eq_none

/-- A marked transaction follows the rule: it is in conflict when a read names a pair
that an earlier committed transaction has written or is not current, and is
committed otherwise. -/
def FollowsRule (l : MVCCValidator) (before : List Transaction) (tx : Transaction) : Prop :=
  (tx.status = .mvccConflict ↔ ∃ n ∈ tx.nsRWS, ∃ r ∈ n.rws.reads,
    (∃ t ∈ before, t.status = .committed ∧ (n.ns, r.key) ∈ writtenPairs t) ∨
      ¬ Current l n.ns r) ∧
  (tx.status ≠ .mvccConflict → tx.status = .committed)

/-- Every marked transaction follows the rule, after those in `before`. -/
def Exact (l : MVCCValidator) (before marked : List Transaction) : Prop :=
  ∀ pre tx post, marked = pre ++ tx :: post → FollowsRule l (before ++ pre) tx

/-- A transaction passes when its reads are current and name no pair written so far. -/
def passes (l : MVCCValidator) (written : List Pair) (tx : Transaction) : Bool :=
  tx.nsRWS.all fun n => n.rws.reads.all fun r =>
    decide ((n.ns, r.key) ∉ written) && decide (Current l n.ns r)

/-- The pairs written by the transactions that pass. -/
def committedPairs (l : MVCCValidator) : List Pair → List Transaction → List Pair
  | written, [] => written
  | written, tx :: rest =>
      committedPairs l (if passes l written tx then written ++ writtenPairs tx else written) rest

/-- No read of the transaction shares its string with a pair written so far. -/
def Apart (written : List Pair) (tx : Transaction) : Prop :=
  ∀ n ∈ tx.nsRWS, ∀ r ∈ n.rws.reads, ∀ p ∈ written,
    pendingKey p.1 p.2 ≠ pendingKey n.ns r.key

/-- No transaction that passes reads a string an earlier one has written. -/
def Unambiguous (l : MVCCValidator) (written : List Pair) (txs : List Transaction) : Prop :=
  ∀ pre tx post, txs = pre ++ tx :: post →
    passes l (committedPairs l written pre) tx = true → Apart (committedPairs l written pre) tx

end Rule

section Agreement

variable {l : MVCCValidator} {before rest : List Transaction} {written : List Pair}
  {tx tx' : Transaction}

theorem exact_cons :
    Exact l before (tx :: rest) ↔ FollowsRule l before tx ∧ Exact l (before ++ [tx]) rest := by
  unfold Exact
  rw [forall_append_cons_iff]
  simp

theorem unambiguous_cons :
    Unambiguous l written (tx :: rest) ↔
      (passes l written tx = true → Apart written tx) ∧
        Unambiguous l (if passes l written tx then written ++ writtenPairs tx else written)
          rest := by
  unfold Unambiguous
  rw [forall_append_cons_iff]
  rfl

theorem passes_iff : passes l written tx = true ↔
    ∀ n ∈ tx.nsRWS, ∀ r ∈ n.rws.reads, (n.ns, r.key) ∉ written ∧ Current l n.ns r := by
  simp [passes]

/-- A string that is apart from every written pair belongs to none of them. -/
theorem passes_of_apart (h : Apart written tx)
    (hcurrent : ∀ n ∈ tx.nsRWS, ∀ r ∈ n.rws.reads, Current l n.ns r) :
    passes l written tx = true := by
  rw [passes_iff]
  intro n hn r hr
  refine ⟨?_, hcurrent n hn r hr⟩
  intro hp
  exact h n hn r hr _ hp rfl

/-- What `checkTx` commits, in terms of the written pairs. -/
theorem checkTx_committed_iff_apart :
    (checkTx l (written.map fun p => pendingKey p.1 p.2) tx.nsRWS).status = .committed ↔
      Apart written tx ∧ ∀ n ∈ tx.nsRWS, ∀ r ∈ n.rws.reads, Current l n.ns r := by
  rw [checkTx_committed]
  simp only [checkRead_eq_none, List.mem_map, not_exists, not_and]
  constructor
  · intro h
    exact ⟨fun n hn r hr p hp => (h n hn r hr).1 p hp, fun n hn r hr => (h n hn r hr).2⟩
  · rintro ⟨hapart, hcurrent⟩ n hn r hr
    exact ⟨hapart n hn r hr, hcurrent n hn r hr⟩

/-- The pairs written by the committed ones among marked transactions. -/
def WrittenBy (before : List Transaction) (written : List Pair) : Prop :=
  ∀ p, p ∈ written ↔ ∃ t ∈ before, t.status = .committed ∧ p ∈ writtenPairs t

theorem writtenBy_nil : WrittenBy [] [] := by
  intro p
  simp

theorem WrittenBy.concat (h : WrittenBy before written) (hbody : SameBody tx tx') :
    WrittenBy (before ++ [tx'])
      (if tx'.status = .committed then written ++ writtenPairs tx else written) := by
  intro p
  have hp := h p
  rw [← hbody.writtenPairs_eq]
  split
  · rename_i hc
    simp [hp, or_and_right, exists_or, hc]
  · rename_i hc
    simp [hp, or_and_right, exists_or, hc]

/-- A transaction with a verdict of its own follows the rule when the verdict is
that of the rule. -/
theorem followsRule_iff (h : WrittenBy before written) (hbody : SameBody tx tx')
    (hstatus : tx'.status = .committed ∨ tx'.status = .mvccConflict) :
    FollowsRule l before tx' ↔ (tx'.status = .committed ↔ passes l written tx = true) := by
  have hpairs : (∃ n ∈ tx'.nsRWS, ∃ r ∈ n.rws.reads,
      (∃ t ∈ before, t.status = .committed ∧ (n.ns, r.key) ∈ writtenPairs t) ∨
        ¬ Current l n.ns r) ↔ ¬ passes l written tx = true := by
    rw [passes_iff, hbody.nsRWS]
    simp only [← h _]
    simp only [not_forall, not_and_or, not_not, exists_prop]
  unfold FollowsRule
  rw [hpairs]
  rcases hstatus with hs | hs
  · simp [hs]
  · simp [hs]

/-- The check commits what the rule lets pass, when the transaction is apart or does
not pass. -/
theorem apart_iff_verdicts_agree :
    (Apart written tx ∧ (∀ n ∈ tx.nsRWS, ∀ r ∈ n.rws.reads, Current l n.ns r) ↔
      passes l written tx = true) ↔ (passes l written tx = true → Apart written tx) := by
  constructor
  · intro h hp
    exact (h.mpr hp).1
  · intro h
    constructor
    · rintro ⟨hapart, hcurrent⟩
      exact passes_of_apart hapart hcurrent
    · intro hp
      exact ⟨h hp, fun n hn r hr => (passes_iff.mp hp n hn r hr).2⟩

/-- From pending strings that are those of the pairs written so far, the marks are
exact when the rest of the block is unambiguous. -/
theorem validateFrom_exact_iff (hdb : l.db.Answers) (hcodes : l.CodesFit)
    (h : WrittenBy before written) (txs : List Transaction) :
    Exact l before
        (validateFrom l (written.map fun p => pendingKey p.1 p.2) txs).transactions ↔
      Unambiguous l written txs := by
  induction txs generalizing before written with
  | nil => simp [validateFrom, Exact, Unambiguous]
  | cons tx rest ih =>
      obtain ⟨tx', hbody, hstatus, _, htxs⟩ :=
        validateFrom_cons_of_fits hdb rest
          (rfl : (checkTx l (written.map fun p => pendingKey p.1 p.2) tx.nsRWS).status = _)
          (hcodes _)
      have hdecided := (checkTx_decided hdb (written.map fun p => pendingKey p.1 p.2) tx.nsRWS).2
      rw [← hstatus] at hdecided htxs
      have hcommitted : tx'.status = .committed ↔
          Apart written tx ∧ ∀ n ∈ tx.nsRWS, ∀ r ∈ n.rws.reads, Current l n.ns r := by
        rw [hstatus]
        exact checkTx_committed_iff_apart
      have hpending : pendingAfter (written.map fun p => pendingKey p.1 p.2) tx'.status tx =
          (if tx'.status = .committed then written ++ writtenPairs tx
            else written).map fun p => pendingKey p.1 p.2 := by
        rw [pendingAfter, pendingKeys_eq, ← List.map_append]
        split <;> rfl
      have hverdict : (tx'.status = .committed ↔ passes l written tx = true) ↔
          (passes l written tx = true → Apart written tx) := by
        rw [← apart_iff_verdicts_agree, ← hcommitted]
      rw [htxs, exact_cons, unambiguous_cons, hpending, ih (h.concat hbody),
        followsRule_iff h hbody hdecided, ← hverdict]
      -- where the verdicts agree, both sides go on with the same pairs
      apply and_congr_right
      intro hrule
      rw [if_congr hrule rfl rfl]

/-- With a getter that answers and codes that fit, `Validate` returns no error, and
its marks are exact in just the blocks where no transaction that passes by the rule
reads a string that an earlier passing one has written under another pair. -/
theorem validate_exact_iff {l : MVCCValidator} (hdb : l.db.Answers) (hcodes : l.CodesFit)
    (b : Block) :
    ((validate l b).2.2 = none ∧ Exact l [] (validate l b).1.transactions) ↔
      Unambiguous l [] b.transactions := by
  have herr : (validate l b).2.2 = none := validateFrom_err hdb hcodes [] b.transactions
  have hexact : Exact l [] (validate l b).1.transactions ↔ Unambiguous l [] b.transactions :=
    validateFrom_exact_iff hdb hcodes writtenBy_nil b.transactions
  rw [hexact]
  exact and_iff_right herr

theorem mem_committedPairs {txs : List Transaction} {p : Pair}
    (h : p ∈ committedPairs l written txs) : p ∈ written ∨ ∃ t ∈ txs, p ∈ writtenPairs t := by
  induction txs generalizing written with
  | nil => exact Or.inl h
  | cons tx rest ih =>
      rw [committedPairs] at h
      rcases ih h with hp | ⟨t, ht, hp⟩
      · split at hp
        · rcases List.mem_append.mp hp with hp | hp
          · exact Or.inl hp
          · exact Or.inr ⟨tx, List.mem_cons_self, hp⟩
        · exact Or.inl hp
      · exact Or.inr ⟨t, List.mem_cons_of_mem _ ht, hp⟩

/-- Namespaces without a colon can be read off the string. -/
theorem pendingKey_injective {ns ns' key key' : GoString} (hns : 58 ∉ ns) (hns' : 58 ∉ ns')
    (h : pendingKey ns key = pendingKey ns' key') : (ns, key) = (ns', key') := by
  unfold pendingKey at h
  rw [List.append_assoc, List.append_assoc, List.append_eq_append_iff] at h
  -- one namespace begins with the other, and what it has more begins with the colon
  rcases h with ⟨more, hmore, heq⟩ | ⟨more, hmore, heq⟩
  · cases more with
    | nil =>
        rw [List.append_nil] at hmore
        rw [hmore, List.append_cancel_left heq]
    | cons c more =>
        rw [hmore, ← (List.cons.inj heq).1] at hns'
        simp at hns'
  · cases more with
    | nil =>
        rw [List.append_nil] at hmore
        rw [hmore, List.append_cancel_left heq]
    | cons c more =>
        rw [hmore, ← (List.cons.inj heq).1] at hns
        simp at hns

/-- A block whose namespaces have no colon is unambiguous, so its marks are exact. -/
theorem unambiguous_of_no_colon {txs : List Transaction}
    (h : ∀ tx ∈ txs, ∀ n ∈ tx.nsRWS, 58 ∉ n.ns) : Unambiguous l [] txs := by
  rintro pre tx post rfl hpasses n hn r hr p hp heq
  -- the pair was written by a transaction before this one
  rcases mem_committedPairs hp with hp' | ⟨t, ht, hp'⟩
  · cases hp'
  · obtain ⟨m, hm, w, _, rfl⟩ : ∃ m ∈ t.nsRWS, ∃ w ∈ m.rws.writes, (m.ns, w.key) = p := by
      simpa [writtenPairs] using hp'
    have hns : 58 ∉ n.ns := h tx (by simp) n hn
    have hms : 58 ∉ m.ns := h t (by simp [ht]) m hm
    rw [pendingKey_injective hms hns heq] at hp
    exact (passes_iff.mp hpasses n hn r hr).1 hp

end Agreement

section Sample

/-- A store without records, and no code customized. -/
def sampleEmptyValidator (monotonicVersions : Bool) : MVCCValidator :=
  ⟨fun _ _ => .ok none, [], monotonicVersions⟩

theorem sampleEmptyValidator_answers (mode : Bool) : (sampleEmptyValidator mode).db.Answers :=
  fun _ _ => ⟨none, rfl⟩

theorem sampleEmptyValidator_codesFit (mode : Bool) :
    (sampleEmptyValidator mode).CodesFit := by
  intro status
  simp [MVCCValidator.codeFor, sampleEmptyValidator, uncustomizedCode]

def sampleTouching (number : ℕ) (ns : GoString) (rws : ReadWriteSet) : Transaction where
  id := [116]
  number := number
  inputArgs := []
  status := .unknown
  rawCode := 0
  reason := []
  event := []
  eventName := []
  payload := []
  nsRWS := [⟨ns, rws⟩]

/-- A block whose first transaction writes one pair and whose second reads another. -/
def sampleTouchingBlock (write read : Pair) : Block where
  number := 1
  hash := []
  parentHash := []
  timestamp := 0
  transactions :=
    [sampleTouching 0 write.1 ⟨[], [⟨write.2, false, [1]⟩]⟩,
      sampleTouching 1 read.1 ⟨[⟨read.2, none⟩], []⟩]
  configTransaction := none

/-- A read of the pair written just before. -/
def sampleRereading : Block := sampleTouchingBlock ([97], [107]) ([97], [107])

theorem validate_exact_iff_sample :
    (sampleEmptyValidator true).db.Answers ∧ (sampleEmptyValidator true).CodesFit ∧
      (validate (sampleEmptyValidator true) sampleRereading).2.2 = none ∧
      Exact (sampleEmptyValidator true) []
        (validate (sampleEmptyValidator true) sampleRereading).1.transactions := by
  refine ⟨sampleEmptyValidator_answers true, sampleEmptyValidator_codesFit true, ?_⟩
  apply (validate_exact_iff (sampleEmptyValidator_answers true)
    (sampleEmptyValidator_codesFit true) sampleRereading).mpr
  apply unambiguous_of_no_colon
  decide

/-- The first transaction writes `c` in namespace `a:b`, the second reads `b:c` in
namespace `a`. Both pairs are kept as `a:b:c`. -/
def sampleColliding : Block := sampleTouchingBlock ([97, 58, 98], [99]) ([97], [98, 58, 99])

/-- The verdicts on a block are not exact, though the getter answers and the codes fit. -/
def Inexact (l : MVCCValidator) (b : Block) : Prop :=
  l.db.Answers ∧ l.CodesFit ∧ (validate l b).2.2 = none ∧
    ¬ Exact l [] (validate l b).1.transactions

theorem sampleColliding_inexact (mode : Bool) :
    Inexact (sampleEmptyValidator mode) sampleColliding := by
  refine ⟨sampleEmptyValidator_answers mode, sampleEmptyValidator_codesFit mode, ?_, ?_⟩
  · cases mode <;> decide +kernel
  · intro hexact
    -- by the rule the second transaction passes, but it is not apart from the first
    have hun : Unambiguous (sampleEmptyValidator mode) [] sampleColliding.transactions :=
      (validateFrom_exact_iff (sampleEmptyValidator_answers mode)
        (sampleEmptyValidator_codesFit mode) writtenBy_nil _).mp hexact
    have hpasses : passes (sampleEmptyValidator mode)
        (committedPairs (sampleEmptyValidator mode) [] (sampleColliding.transactions.take 1))
        (sampleTouching 1 [97] ⟨[⟨[98, 58, 99], none⟩], []⟩) = true := by
      cases mode <;> decide +kernel
    have hapart := hun _ _ [] rfl hpasses
    exact hapart _ List.mem_cons_self _ List.mem_cons_self ([97, 58, 98], [99])
      (by cases mode <;> decide +kernel) rfl

/-- In both modes the second transaction is marked in conflict, though its only read
is current and nothing has written the pair it names. -/
theorem validate_spurious_conflict :
    (validate (sampleEmptyValidator false) sampleColliding).1.transactions.map
        Transaction.status = [.committed, .mvccConflict] ∧
      (validate (sampleEmptyValidator true) sampleColliding).1.transactions.map
        Transaction.status = [.committed, .mvccConflict] ∧
      Inexact (sampleEmptyValidator false) sampleColliding ∧
        Inexact (sampleEmptyValidator true) sampleColliding := by
  refine ⟨?_, ?_, sampleColliding_inexact false, sampleColliding_inexact true⟩
  · decide +kernel
  · decide +kernel

end Sample

end FabricXSdk.Blocks

import FabricXSdk.Blocks.Parser
import FabricXSdk.Blocks.Mvcc
import FabricXSdk.State.Update

/-!
# Local submission

`LocalSubmitter.Submit` packages an endorsement, parses it back, checks the reads of the
submitter's namespace against the shared state and stores the writes as the next block.

## Implementation notes

The packager and the parser are interfaces in the source, so they are functions of the
submitter here, over any type of endorsement. The shared state and the record getter are
both the database of the channel, which is how `NewLocalSubmitter` documents them. The
field `channel` of the source is read by none of its functions; the channel here is that
of the database.
-/

namespace FabricXSdk.Local

open Golang Blocks State Atomic

structure LocalSubmitter (E : Type) where
  packageTx : E → Except Text Proto.Envelope
  parseTx : Proto.Envelope → Outcome (Option Transaction)
  ns : GoString
  monotonicVersions : Bool

/-- The calls to the database that fail while a submission runs. -/
structure Faults where
  number : Option Text
  get : GoString → GoString → Option Text
  driver : Driver Text

/-- No call fails. -/
def Faults.none : Faults := ⟨Option.none, fun _ _ => Option.none, []⟩

variable {E : Type} {s : LocalSubmitter E} {e : E} {channel : GoString} {f : Faults}
  {db db' : Database} {tx : Transaction} {getter : RecordGetter}

/-- Package the endorsement and unpackage it again. The status is set through the pointer
that the parser returned. -/
def prepare (s : LocalSubmitter E) (e : E) : Outcome Transaction := do
  let env ← Outcome.ofExcept "package proposal" (s.packageTx e)
  match s.parseTx env with
  | .error err => .error (.lit "unpackage proposal: " :: err)
  | .panic => .panic
  | .ok parsed => do
      let tx ← Outcome.deref parsed
      pure (tx.setStatus .committed 0 [])

def recordGetter (channel : GoString) (f : Faults) (db : Database) : RecordGetter :=
  fun ns key => State.get channel (f.get ns key) db ns key

/-- The validator that every call makes for itself, without codes. -/
def newMVCCValidator (s : LocalSubmitter E) (getter : RecordGetter) : MVCCValidator :=
  ⟨getter, [], s.monotonicVersions⟩

/-- A block of one transaction, as the two composite literals of `submit.go` leave it. -/
def blockOf (number : ℕ) (tx : Transaction) : Block := ⟨number, [], [], 0, [tx], none⟩

/-- A transaction with these read/write sets and nothing else. -/
def bareTx (nsRWS : List NsReadWriteSet) : Transaction :=
  ⟨[], 0, [], .unknown, 0, [], [], [], [], nsRWS⟩

/-- The read/write set that the loop of `checkMVCC` breaks with. -/
def firstRWS (ns : GoString) (nsRWS : List NsReadWriteSet) : ReadWriteSet :=
  match nsRWS.find? fun n => n.ns = ns with
  | none => ⟨[], []⟩
  | some n => n.rws

def checkMVCC (s : LocalSubmitter E) (getter : RecordGetter) (tx : Transaction) :
    Outcome Unit :=
  let block := blockOf 0 (bareTx [⟨s.ns, firstRWS s.ns tx.nsRWS⟩])
  match validate (newMVCCValidator s getter) block with
  | (_, _, some err) => .error (.lit "failed to get state for read validation: " :: err)
  | (block, _, none) => do
      let checked ← Outcome.deref block.transactions[0]?
      if checked.valid then pure ()
      else .error ([.lit "RWS INVALID for tx ", .quoted tx.id, .lit " in namespace ",
        .quoted s.ns, .lit ": "] ++ checked.reason)

/-- `Submit`, running alone: the result and the tables after it. -/
def submit (channel : GoString) (s : LocalSubmitter E) (f : Faults) (db : Database) (e : E) :
    Outcome Unit × Database :=
  let ready : Outcome (Transaction × ℕ) := do
    let tx ← prepare s e
    let blockNum ← Outcome.lift (blockNumber channel f.number db)
    checkMVCC s (recordGetter channel f db) tx
    pure (tx, blockNum)
  match ready with
  | .panic => (.panic, db)
  | .error err => (.error err, db)
  | .ok (tx, blockNum) =>
      match updateWorldState channel f.driver db (blockOf (blockNum + 1) tx) with
      | .error err => (.error err, db)
      | .ok db' => (.ok (), db')

section Spec

/-- What `BlockNumber` returns unless the query fails. -/
def height (channel : GoString) (db : Database) : ℕ :=
  match db.channelProgress.lookup channel with
  | none => 0
  | some last => last

theorem blockNumber_eq_ok {fault : Option Text} {n : ℕ} :
    blockNumber channel fault db = .ok n ↔ fault = none ∧ height channel db = n := by
  rw [blockNumber, height]
  cases fault with
  | none => cases db.channelProgress.lookup channel <;> simp [query]
  | some err => simp [query]

/-- A validator without codes marks the only transaction of a block, and stops with the
error of its check. -/
theorem validate_blockOf (s : LocalSubmitter E) (getter : RecordGetter) (n : ℕ)
    (tx : Transaction) :
    validate (newMVCCValidator s getter) (blockOf n tx) =
      let c := checkTx (newMVCCValidator s getter) [] tx.nsRWS
      (blockOf n (tx.setStatus c.status uncustomizedCode c.reason),
        [filterByte uncustomizedCode], c.err) := by
  have hcode : ∀ status, (newMVCCValidator s getter).codeFor status = uncustomizedCode :=
    fun _ => rfl
  simp only [validate, blockOf, validateFrom, hcode]
  rw [if_neg (by decide)]
  cases (checkTx (newMVCCValidator s getter) [] tx.nsRWS).err with
  | none => rfl
  | some err => rfl

/-- The reads of an entry all match what the getter returns. -/
def ReadsPass (s : LocalSubmitter E) (getter : RecordGetter) (reads : List KVRead) : Prop :=
  ∀ r ∈ reads, checkRead (newMVCCValidator s getter) s.ns r = none

/-- The check of the transaction that `checkMVCC` puts together. -/
def nsCheck (s : LocalSubmitter E) (getter : RecordGetter) (tx : Transaction) : Check :=
  checkTx (newMVCCValidator s getter) [] [⟨s.ns, firstRWS s.ns tx.nsRWS⟩]

theorem nsCheck_committed : (nsCheck s getter tx).status = .committed ↔
    ReadsPass s getter (firstRWS s.ns tx.nsRWS).reads := by
  rw [nsCheck, checkTx_committed]
  simp [ReadsPass]

theorem checkMVCC_eq (s : LocalSubmitter E) (getter : RecordGetter) (tx : Transaction) :
    checkMVCC s getter tx =
      match (nsCheck s getter tx).err with
      | some err => .error (.lit "failed to get state for read validation: " :: err)
      | none =>
          if (nsCheck s getter tx).status = .committed then .ok ()
          else .error ([.lit "RWS INVALID for tx ", .quoted tx.id, .lit " in namespace ",
            .quoted s.ns, .lit ": "] ++ (nsCheck s getter tx).reason) := by
  have hcheck : checkTx (newMVCCValidator s getter) []
      (bareTx [⟨s.ns, firstRWS s.ns tx.nsRWS⟩]).nsRWS = nsCheck s getter tx := rfl
  rw [checkMVCC, validate_blockOf, hcheck]
  obtain ⟨status, reason, err⟩ := nsCheck s getter tx
  cases err with
  | some err => rfl
  | none =>
      by_cases hc : status = .committed
      · rw [hc]
        rfl
      · rw [if_neg hc]
        exact if_neg fun hv => hc ((Transaction.valid_iff _).mp hv)

theorem checkMVCC_eq_ok :
    checkMVCC s getter tx = .ok () ↔ ReadsPass s getter (firstRWS s.ns tx.nsRWS).reads := by
  rw [checkMVCC_eq, ← nsCheck_committed]
  constructor
  · intro h
    split at h
    · cases h
    · split at h
      · assumption
      · cases h
  · intro hc
    have herr : (nsCheck s getter tx).err = none := checkTx_err hc
    rw [herr]
    exact if_pos hc

theorem checkMVCC_ne_panic : checkMVCC s getter tx ≠ .panic := by
  rw [checkMVCC_eq]
  split
  · simp
  · split <;> simp

/-- A submission returns nil if it has a block number, its check passes and the store
takes the block. -/
theorem submit_eq_ok (hprepare : prepare s e = .ok tx) :
    submit channel s f db e = (.ok (), db') ↔
      ∃ n, blockNumber channel f.number db = .ok n ∧
        checkMVCC s (recordGetter channel f db) tx = .ok () ∧
        updateWorldState channel f.driver db (blockOf (n + 1) tx) = .ok db' := by
  simp only [submit, hprepare, Outcome.ok_bind]
  cases hn : blockNumber channel f.number db with
  | error err => simp [Outcome.lift]
  | ok n =>
      simp only [Outcome.lift, Outcome.ok_bind, Except.ok.injEq, exists_eq_left']
      cases hc : checkMVCC s (recordGetter channel f db) tx with
      | error err => simp
      | panic => exact absurd hc checkMVCC_ne_panic
      | ok u =>
          simp only [Outcome.ok_bind, Outcome.pure_eq, true_and]
          cases updateWorldState channel f.driver db (blockOf (n + 1) tx) with
          | error err => simp
          | ok db₁ => simp

/-- A submission that fails leaves the store as it was. -/
theorem submit_of_ne_ok (h : (submit channel s f db e).1 ≠ .ok ()) :
    (submit channel s f db e).2 = db := by
  rw [submit] at h ⊢
  split
  · rfl
  · rfl
  · rename_i tx n hready
    simp only [hready] at h
    cases hu : updateWorldState channel f.driver db (blockOf (n + 1) tx) with
    | error err => rfl
    | ok db' =>
        rw [hu] at h
        exact absurd rfl h

end Spec

section Namespace

/-- The transaction with all of its entries for one namespace and no others. -/
def restrictTo (ns : GoString) (tx : Transaction) : Transaction :=
  { tx with nsRWS := tx.nsRWS.filter fun n => n.ns = ns }

/-- The entries for a namespace that the loop of `checkMVCC` does not come to. -/
def laterEntries (ns : GoString) (tx : Transaction) : List NsReadWriteSet :=
  (tx.nsRWS.filter fun n => n.ns = ns).tail

theorem validate_restrictTo {n : ℕ} :
    (validate (newMVCCValidator s getter) (blockOf n (restrictTo s.ns tx))).1.transactions.map
        Transaction.status = [.committed] ↔
      ReadsPass s getter (firstRWS s.ns tx.nsRWS).reads ∧
        ∀ n ∈ laterEntries s.ns tx, ReadsPass s getter n.rws.reads := by
  rw [validate_blockOf]
  change [(checkTx (newMVCCValidator s getter) [] (restrictTo s.ns tx).nsRWS).status] = _ ↔ _
  have hns : ∀ n ∈ tx.nsRWS.filter fun n => n.ns = s.ns, n.ns = s.ns := by
    intro n hn
    exact of_decide_eq_true (List.mem_filter.mp hn).2
  rw [List.singleton_inj, checkTx_committed, restrictTo, laterEntries, firstRWS,
    ← List.head?_filter]
  -- the entries of the namespace are the first one and the later ones
  cases hentries : tx.nsRWS.filter fun n => n.ns = s.ns with
  | nil => simp [ReadsPass]
  | cons first later =>
      rw [hentries, List.forall_mem_cons] at hns
      simp only [List.head?_cons, List.tail_cons, List.forall_mem_cons, List.not_mem_nil,
        not_false_eq_true, true_and, ReadsPass, hns.1]
      refine and_congr_right fun _ => forall₂_congr fun n hn => ?_
      rw [hns.2 n hn]

/-- What keeps a submission from returning nil, whatever the later entries are: a read of the
first entry does not match, the query for the block number fails, or the store does not take
the next block, because of its number, of rows with other content or of a failing call. -/
def Refused (channel : GoString) (s : LocalSubmitter E) (f : Faults) (db : Database)
    (tx : Transaction) : Prop :=
  ¬ ReadsPass s (recordGetter channel f db) (firstRWS s.ns tx.nsRWS).reads ∨
    f.number ≠ none ∨ ¬ Takes channel f.driver db (blockOf (height channel db + 1) tx)

/-- A submission running alone returns nil only for a transaction whose reads in the
submitter's namespace are all valid, and leaves the store alone if it fails. -/
def ChecksNamespace (channel : GoString) (s : LocalSubmitter E) (f : Faults) (db : Database)
    (e : E) (tx : Transaction) : Prop :=
  ((submit channel s f db e).1 = .ok () →
    (validate (newMVCCValidator s (recordGetter channel f db))
      (blockOf 0 (restrictTo s.ns tx))).1.transactions.map Transaction.status = [.committed]) ∧
  ∀ err, (submit channel s f db e).1 = .error err → (submit channel s f db e).2 = db

/-- When a submission returns nil, by the transaction, the tables and the failing calls. -/
theorem submit_ok_iff (hprepare : prepare s e = .ok tx) :
    (submit channel s f db e).1 = .ok () ↔ ¬ Refused channel s f db tx := by
  rw [Refused, not_or, not_or, not_not, not_not, not_not, ← checkMVCC_eq_ok]
  constructor
  · intro h
    obtain ⟨n, hn, hcheck, hupdate⟩ := (submit_eq_ok hprepare).mp (Prod.ext h rfl)
    obtain ⟨hnumber, rfl⟩ := blockNumber_eq_ok.mp hn
    exact ⟨hcheck, hnumber, (updateWorldState_iff.mp hupdate).1⟩
  · rintro ⟨hcheck, hnumber, htakes⟩
    have hn : blockNumber channel f.number db = .ok (height channel db) :=
      blockNumber_eq_ok.mpr ⟨hnumber, rfl⟩
    rw [(submit_eq_ok hprepare).mpr ⟨_, hn, hcheck, updateWorldState_iff.mpr ⟨htakes, rfl⟩⟩]

/-- `checkMVCC` stops at the first entry of the namespace. Submission checks the namespace
exactly if the reads of the later entries match as well, or it is refused anyway. -/
theorem submit_checks_namespace_iff (hprepare : prepare s e = .ok tx) :
    ChecksNamespace channel s f db e tx ↔
      (∀ n ∈ laterEntries s.ns tx, ReadsPass s (recordGetter channel f db) n.rws.reads) ∨
        Refused channel s f db tx := by
  have hok := @submit_ok_iff _ s e channel f db tx hprepare
  have hfail : ∀ err, (submit channel s f db e).1 = .error err →
      (submit channel s f db e).2 = db := by
    intro err herr
    exact submit_of_ne_ok (by rw [herr]; simp)
  rw [ChecksNamespace, hok, validate_restrictTo]
  constructor
  · intro h
    by_cases hr : Refused channel s f db tx
    · exact Or.inr hr
    · exact Or.inl (h.1 hr).2
  · intro h
    refine ⟨fun hr => ?_, hfail⟩
    exact ⟨not_not.mp fun hreads => hr (Or.inl hreads), h.resolve_right hr⟩

/-- A submitter for namespace `"n"` whose parser returns this transaction. -/
def sampleSubmitter (nsRWS : List NsReadWriteSet) : LocalSubmitter Unit where
  packageTx _ := .ok ⟨[], []⟩
  parseTx _ := .ok (some (bareTx nsRWS))
  ns := [110]
  monotonicVersions := false

/-- A read of key `"k"`, at version 1:0. -/
def sampleRead : NsReadWriteSet := ⟨[110], ⟨[⟨[107], some ⟨1, 0⟩⟩], []⟩⟩

/-- A write of key `"k"`, without reads. -/
def sampleWrite : NsReadWriteSet := ⟨[110], ⟨[], [⟨[107], false, [1]⟩]⟩⟩

/-- A read that does not match is found in the only entry of the namespace. -/
theorem submit_checks_namespace_iff_single :
    prepare (sampleSubmitter [sampleRead]) () =
      .ok ((bareTx [sampleRead]).setStatus .committed 0 []) ∧
    ChecksNamespace [99] (sampleSubmitter [sampleRead]) Faults.none Database.empty ()
      ((bareTx [sampleRead]).setStatus .committed 0 []) :=
  ⟨rfl, (submit_checks_namespace_iff rfl).mpr (Or.inl (by
    intro n hn
    exact absurd hn List.not_mem_nil))⟩

/-- The entry of the read comes second, so it is not checked: the submission returns nil,
and the validator marks the same entries as a conflict. -/
theorem submit_skips_later_entry :
    prepare (sampleSubmitter [sampleWrite, sampleRead]) () =
      .ok ((bareTx [sampleWrite, sampleRead]).setStatus .committed 0 []) ∧
    (submit [99] (sampleSubmitter [sampleWrite, sampleRead]) Faults.none Database.empty ()).1 =
      .ok () ∧
    (validate (newMVCCValidator (sampleSubmitter [sampleWrite, sampleRead])
        (recordGetter [99] Faults.none Database.empty))
      (blockOf 0 (restrictTo [110] ((bareTx [sampleWrite, sampleRead]).setStatus .committed 0
        [])))).1.transactions.map Transaction.status = [.mvccConflict] ∧
    ¬ ChecksNamespace [99] (sampleSubmitter [sampleWrite, sampleRead]) Faults.none
      Database.empty () ((bareTx [sampleWrite, sampleRead]).setStatus .committed 0 []) := by
  refine ⟨rfl, rfl, rfl, fun h => ?_⟩
  have hmarked := h.1 rfl
  cases hmarked

end Namespace

end FabricXSdk.Local

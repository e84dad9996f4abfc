import FabricXSdk.Blocks.Types

/-!
# MVCC validation of a block

`Validate` checks the reads of every transaction against a record getter and
against the keys written by valid transactions earlier in the same block, and
records a status, a ledger-specific code and a reason. A database error or a code
that does not fit a filter byte stops it part way: the transactions checked so
far keep their new status and the rest of the filter stays zero.

## Implementation notes

The keys written earlier in the block are kept under `namespace + ":" + key`.
Two different pairs can share that string, which can only add conflicts.
-/

namespace FabricXSdk.Blocks

open Golang

/-- `RecordGetter.Get`: a record, nothing, or an error. -/
abbrev RecordGetter := GoString → GoString → Except Text (Option WriteRecord)

/-- What `codeFor` returns for a status without an entry in `Codes`. -/
def uncustomizedCode : Int := 99

structure MVCCValidator where
  db : RecordGetter
  codes : List (Status × Int)
  monotonicVersions : Bool

def MVCCValidator.codeFor (l : MVCCValidator) (status : Status) : Int :=
  match l.codes.lookup status with
  | some code => code
  | none => uncustomizedCode

/-- The string under which a written key is kept for the rest of the block. -/
def pendingKey (ns key : GoString) : GoString := ns ++ [58] ++ key

/-- What `checkNs` and the loop over namespaces return: status, reason and error. -/
structure Check where
  status : Status
  reason : Text
  err : Option Text

def Check.ok : Check := ⟨.committed, [], none⟩

def conflict (reason : Text) : Check := ⟨.mvccConflict, reason, none⟩

/-- One read against the committed state. `none` lets the loop go on. -/
def checkRead (l : MVCCValidator) (ns : GoString) (r : KVRead) : Option Check :=
  match l.db ns r.key with
  | .error err =>
      some ⟨.unknown, [], some ([.lit "failed to get state for key ", .quoted r.key, .lit ": "]
        ++ err)⟩
  | .ok found =>
      -- a tombstone has no live value: treat it as no record
      match found.filter (fun rec => !rec.isDelete), r.version with
      | none, none => none
      | none, some v =>
          some (conflict [.lit "key ", .quoted r.key, .lit ": expected version ",
            .num v.blockNum, .lit ":", .num v.txNum, .lit ", but key does not exist"])
      | some _, none =>
          some (conflict [.lit "key ", .quoted r.key,
            .lit ": expected no existing record, but one exists"])
      | some rec, some v =>
          if l.monotonicVersions then
            if rec.version ≠ v.blockNum then
              some (conflict [.lit "key ", .quoted r.key, .lit ": read version=",
                .num v.blockNum, .lit ", blockchain version=", .num rec.version])
            else none
          else if rec.blockNum ≠ v.blockNum ∨ rec.txNum ≠ v.txNum then
            some (conflict [.lit "key ", .quoted r.key, .lit ": read version=",
              .num v.blockNum, .lit ":", .num v.txNum, .lit ", blockchain version=",
              .num rec.blockNum, .lit ":", .num rec.txNum])
          else none

/-- The second loop of `checkNs`. -/
def checkReads (l : MVCCValidator) (ns : GoString) : List KVRead → Check
  | [] => Check.ok
  | r :: rest =>
      match checkRead l ns r with
      | some c => c
      | none => checkReads l ns rest

/-- Check the reads of one namespace, first against the block and then against
the committed state. -/
def checkNs (l : MVCCValidator) (pendingWrites : List GoString) (ns : GoString)
    (reads : List KVRead) : Check :=
  match reads.find? fun r => pendingKey ns r.key ∈ pendingWrites with
  | some r =>
      conflict [.lit "key ", .quoted r.key, .lit " was already written earlier in this block"]
  | none => checkReads l ns reads

/-- The loop over the namespaces of a transaction, up to the first that fails. -/
def checkTx (l : MVCCValidator) (pendingWrites : List GoString) : List NsReadWriteSet → Check
  | [] => Check.ok
  | rws :: rest =>
      let c := checkNs l pendingWrites rws.ns rws.rws.reads
      match c.err with
      -- the error is also the reason of the transaction
      | some err => ⟨c.status, err, some err⟩
      | none => if c.status ≠ .committed then c else checkTx l pendingWrites rest

/-- The strings a committed transaction adds to the pending writes. -/
def pendingKeys (tx : Transaction) : List GoString :=
  tx.nsRWS.flatMap fun rws => rws.rws.writes.map fun w => pendingKey rws.ns w.key

/-- The transactions with their new status, the filter, and the error. -/
structure Validated where
  transactions : List Transaction
  txFilter : List Byte
  err : Option Text

/-- The filter byte of a code that fits in one. -/
def filterByte (code : Int) : Byte := Fin.ofNat 256 code.toNat

/-- The main loop of `Validate`. -/
def validateFrom (l : MVCCValidator) : List GoString → List Transaction → Validated
  | _, [] => ⟨[], [], none⟩
  | pendingWrites, tx :: rest =>
      let c := checkTx l pendingWrites tx.nsRWS
      let code := l.codeFor c.status
      let unset := rest.map fun _ => (0 : Byte)
      -- this return comes before `SetStatus` and before the filter byte
      if code < 0 ∨ 255 < code then
        ⟨tx :: rest, 0 :: unset, some [.lit "validation code ", .num code, .lit " for status ",
          .lit c.status.string, .lit " does not fit in a transaction filter byte"]⟩
      else
        let tx' := tx.setStatus c.status code c.reason
        match c.err with
        | some err => ⟨tx' :: rest, filterByte code :: unset, some err⟩
        | none =>
            -- an invalid transaction writes nothing that a later one could conflict with
            let pendingWrites' :=
              if c.status = .committed then pendingWrites ++ pendingKeys tx else pendingWrites
            let v := validateFrom l pendingWrites' rest
            ⟨tx' :: v.transactions, filterByte code :: v.txFilter, v.err⟩

/-- `Validate`: the block with its transactions marked, the filter, and the error. -/
def validate (l : MVCCValidator) (b : Block) : Block × List Byte × Option Text :=
  let v := validateFrom l [] b.transactions
  ({ b with transactions := v.transactions }, v.txFilter, v.err)

section Spec

/-- A read agrees with the record found for its key: no version for no live
record, and otherwise the version the mode compares. -/
def ReadMatches (monotonicVersions : Bool) (found : Option WriteRecord) (r : KVRead) : Prop :=
  match found.filter (fun rec => !rec.isDelete), r.version with
  | none, none => True
  | some rec, some v =>
      if monotonicVersions then rec.version = v.blockNum
      else rec.blockNum = v.blockNum ∧ rec.txNum = v.txNum
  | _, _ => False

theorem checkRead_eq_none {l : MVCCValidator} {ns : GoString} {r : KVRead} :
    checkRead l ns r = none ↔
      ∃ found, l.db ns r.key = .ok found ∧ ReadMatches l.monotonicVersions found r := by
  cases hdb : l.db ns r.key with
  | error err => simp [checkRead, hdb]
  | ok found =>
      simp only [checkRead, hdb, Except.ok.injEq, exists_eq_left', ReadMatches]
      cases found.filter fun rec => !rec.isDelete with
      | none => cases r.version <;> simp
      | some rec =>
          cases r.version with
          | none => simp
          | some v => cases l.monotonicVersions <;> simp [not_or]

/-- A read that stops the loop does not leave the transaction committed. -/
theorem checkRead_status {l : MVCCValidator} {ns : GoString} {r : KVRead} {c : Check}
    (h : checkRead l ns r = some c) : c.status ≠ .committed := by
  simp only [checkRead] at h
  split at h
  · cases h; simp
  · split at h
    · cases h
    · cases h; simp [conflict]
    · cases h; simp [conflict]
    · split at h
      · split at h
        · cases h; simp [conflict]
        · cases h
      · split at h
        · cases h; simp [conflict]
        · cases h

theorem checkReads_committed {l : MVCCValidator} {ns : GoString} {reads : List KVRead} :
    (checkReads l ns reads).status = .committed ↔ ∀ r ∈ reads, checkRead l ns r = none := by
  induction reads with
  | nil => simp [checkReads, Check.ok]
  | cons r rest ih =>
      simp only [checkReads, List.forall_mem_cons]
      cases h : checkRead l ns r with
      | none => simpa using ih
      | some c => simpa using checkRead_status h

theorem checkNs_committed {l : MVCCValidator} {pendingWrites : List GoString} {ns : GoString}
    {reads : List KVRead} :
    (checkNs l pendingWrites ns reads).status = .committed ↔
      ∀ r ∈ reads, pendingKey ns r.key ∉ pendingWrites ∧ checkRead l ns r = none := by
  simp only [checkNs]
  split
  · rename_i r hr
    constructor
    · intro h
      simp [conflict] at h
    · intro h
      have hp : pendingKey ns r.key ∈ pendingWrites := by simpa using List.find?_some hr
      exact absurd hp (h r (List.mem_of_find?_eq_some hr)).1
  · rename_i hnone
    rw [checkReads_committed]
    have hfree : ∀ r ∈ reads, pendingKey ns r.key ∉ pendingWrites := by
      simpa using List.find?_eq_none.mp hnone
    exact ⟨fun h r hr => ⟨hfree r hr, h r hr⟩, fun h r hr => (h r hr).2⟩

theorem checkNs_err {l : MVCCValidator} {pendingWrites : List GoString} {ns : GoString}
    {reads : List KVRead} (h : (checkNs l pendingWrites ns reads).status = .committed) :
    (checkNs l pendingWrites ns reads).err = none := by
  have hreads := checkNs_committed.mp h
  have hnone : reads.find? (fun r => pendingKey ns r.key ∈ pendingWrites) = none := by
    rw [List.find?_eq_none]
    intro r hr
    simpa using (hreads r hr).1
  simp only [checkNs, hnone]
  clear h hnone
  induction reads with
  | nil => rfl
  | cons r rest ih =>
      simp only [checkReads, (hreads r List.mem_cons_self).2]
      exact ih fun r' hr' => hreads r' (List.mem_cons_of_mem _ hr')

/-- A transaction passes when every read of every namespace does. -/
theorem checkTx_committed {l : MVCCValidator} {pendingWrites : List GoString}
    {nsRWS : List NsReadWriteSet} :
    (checkTx l pendingWrites nsRWS).status = .committed ↔
      ∀ n ∈ nsRWS, ∀ r ∈ n.rws.reads,
        pendingKey n.ns r.key ∉ pendingWrites ∧ checkRead l n.ns r = none := by
  induction nsRWS with
  | nil => simp [checkTx, Check.ok]
  | cons n rest ih =>
      rw [List.forall_mem_cons, ← checkNs_committed, ← ih]
      by_cases hc : (checkNs l pendingWrites n.ns n.rws.reads).status = .committed
      · simp [checkTx, checkNs_err hc, hc]
      · simp only [checkTx, hc, false_and, iff_false]
        split
        · exact hc
        · simp [hc]

/-- Validation rewrites the outcome of a transaction and nothing else. -/
def SameBody (tx tx' : Transaction) : Prop :=
  tx' = { tx with status := tx'.status, rawCode := tx'.rawCode, reason := tx'.reason }

theorem sameBody_setStatus (tx : Transaction) (status : Status) (rawCode : Int) (reason : Text) :
    SameBody tx (tx.setStatus status rawCode reason) := rfl

theorem SameBody.number {tx tx' : Transaction} (h : SameBody tx tx') : tx'.number = tx.number := by
  rw [SameBody] at h
  rw [h]

theorem SameBody.nsRWS {tx tx' : Transaction} (h : SameBody tx tx') : tx'.nsRWS = tx.nsRWS := by
  rw [SameBody] at h
  rw [h]

theorem SameBody.symm {tx tx' : Transaction} (h : SameBody tx tx') : SameBody tx' tx := by
  rw [SameBody] at h ⊢
  rw [h]

theorem SameBody.trans {t t' t'' : Transaction} (h : SameBody t t') (h' : SameBody t' t'') :
    SameBody t t'' := by
  rw [SameBody] at h h' ⊢
  rw [h', h]

theorem SameBody.pendingKeys_eq {tx tx' : Transaction} (h : SameBody tx tx') :
    pendingKeys tx' = pendingKeys tx := by
  rw [pendingKeys, h.nsRWS, pendingKeys]

theorem validateFrom_sameBody (l : MVCCValidator) (pendingWrites : List GoString)
    (txs : List Transaction) :
    List.Forall₂ SameBody txs (validateFrom l pendingWrites txs).transactions := by
  have hrefl : ∀ ts : List Transaction, List.Forall₂ SameBody ts ts :=
    fun ts => List.forall₂_same.mpr fun _ _ => rfl
  induction txs generalizing pendingWrites with
  | nil => exact List.Forall₂.nil
  | cons tx rest ih =>
      simp only [validateFrom]
      split
      · exact hrefl _
      · split
        · exact List.Forall₂.cons (sameBody_setStatus ..) (hrefl rest)
        · exact List.Forall₂.cons (sameBody_setStatus ..) (ih _)

theorem map_number_of_sameBody {txs txs' : List Transaction} (h : List.Forall₂ SameBody txs txs') :
    txs'.map Transaction.number = txs.map Transaction.number := by
  induction h with
  | nil => rfl
  | cons hbody _ ih => rw [List.map_cons, List.map_cons, hbody.number, ih]

theorem validate_inOrder {l : MVCCValidator} {b : Block} (h : b.InOrder) :
    (validate l b).1.InOrder := by
  have hp := List.pairwise_map.mpr h
  rw [← map_number_of_sameBody (validateFrom_sameBody l [] b.transactions)] at hp
  exact List.pairwise_map.mp hp

theorem checkTx_err {l : MVCCValidator} {pendingWrites : List GoString}
    {nsRWS : List NsReadWriteSet} (h : (checkTx l pendingWrites nsRWS).status = .committed) :
    (checkTx l pendingWrites nsRWS).err = none := by
  induction nsRWS with
  | nil => rfl
  | cons n rest ih =>
      have hns : (checkNs l pendingWrites n.ns n.rws.reads).status = .committed :=
        checkNs_committed.mpr (checkTx_committed.mp h n List.mem_cons_self)
      have heq : checkTx l pendingWrites (n :: rest) = checkTx l pendingWrites rest := by
        simp [checkTx, checkNs_err hns, hns]
      rw [heq] at h ⊢
      exact ih h

/-- What one pass of the loop does: it stops without marking a transaction as
committed, or it marks one and goes on. -/
theorem validateFrom_cons (l : MVCCValidator) (pendingWrites : List GoString) (tx : Transaction)
    (rest : List Transaction) :
    ((validateFrom l pendingWrites (tx :: rest)).err ≠ none ∧
      ∃ tx', (tx' = tx ∨ tx'.status ≠ .committed) ∧
        (validateFrom l pendingWrites (tx :: rest)).transactions = tx' :: rest) ∨
    ∃ tx' pendingWrites', SameBody tx tx' ∧
      tx'.status = (checkTx l pendingWrites tx.nsRWS).status ∧
      pendingWrites' = (if tx'.status = .committed then pendingWrites ++ pendingKeys tx
        else pendingWrites) ∧
      (validateFrom l pendingWrites (tx :: rest)).err = (validateFrom l pendingWrites' rest).err ∧
      (validateFrom l pendingWrites (tx :: rest)).transactions =
        tx' :: (validateFrom l pendingWrites' rest).transactions := by
  simp only [validateFrom]
  split
  · exact Or.inl ⟨by simp, tx, Or.inl rfl, rfl⟩
  · split
    · rename_i err herr
      refine Or.inl ⟨by simp, _, Or.inr ?_, rfl⟩
      intro hc
      rw [checkTx_err hc] at herr
      cases herr
    · exact Or.inr ⟨_, _, sameBody_setStatus .., rfl, rfl, rfl, rfl⟩

/-- A transaction behind the point where validation stops keeps the status it came with. -/
theorem not_committed_of_stopped {t t' tx tx₀ : Transaction} {rest pre post : List Transaction}
    (h : t' :: rest = pre ++ tx :: post) (ht' : t' = t ∨ t'.status ≠ .committed)
    (hat : (t :: rest)[pre.length]? = some tx₀) (hne : tx₀.status ≠ .committed) :
    tx.status ≠ .committed := by
  cases pre with
  | nil =>
      obtain ⟨rfl, _⟩ := List.cons.inj h
      obtain rfl : t = tx₀ := by simpa using hat
      rcases ht' with rfl | ht'
      · exact hne
      · exact ht'
  | cons p pre =>
      obtain ⟨_, rfl⟩ := List.cons.inj h
      obtain rfl : tx = tx₀ := by simpa using hat
      exact hne

/-- The pending writes only grow, by the keys of a committed transaction. -/
theorem not_mem_of_not_mem_pending {pendingWrites pendingWrites' : List GoString}
    {tx : Transaction} {status : Status} {key : GoString}
    (hpending : pendingWrites' =
      if status = .committed then pendingWrites ++ pendingKeys tx else pendingWrites)
    (h : key ∉ pendingWrites') :
    key ∉ pendingWrites ∧ (status = .committed → key ∉ pendingKeys tx) := by
  by_cases hc : status = .committed
  · rw [hpending, if_pos hc, List.mem_append, not_or] at h
    exact ⟨h.1, fun _ => h.2⟩
  · rw [hpending, if_neg hc] at h
    exact ⟨h, fun hc' => absurd hc' hc⟩

/-- What a transaction has been checked for when validation marks it as committed.
Validation marks a transaction when it runs to the end, and also when it stops
later but has changed the status the transaction came with. -/
theorem validateFrom_committed {l : MVCCValidator} {pendingWrites : List GoString}
    {txs pre post : List Transaction} {tx : Transaction}
    (hmarked : (validateFrom l pendingWrites txs).err = none ∨
      ∃ tx₀, txs[pre.length]? = some tx₀ ∧ tx₀.status ≠ .committed)
    (h : (validateFrom l pendingWrites txs).transactions = pre ++ tx :: post)
    (hc : tx.status = .committed) {n : NsReadWriteSet} (hn : n ∈ tx.nsRWS) {r : KVRead}
    (hr : r ∈ n.rws.reads) :
    pendingKey n.ns r.key ∉ pendingWrites ∧
      (∀ t ∈ pre, t.status = .committed → pendingKey n.ns r.key ∉ pendingKeys t) ∧
      ∃ found, l.db n.ns r.key = .ok found ∧ ReadMatches l.monotonicVersions found r := by
  induction txs generalizing pendingWrites pre with
  | nil => simp [validateFrom] at h
  | cons t rest ih =>
      rcases validateFrom_cons l pendingWrites t rest with
        ⟨herr, t', ht', htxs⟩ | ⟨t', pending', hbody, hstatus, hpending, herr, htxs⟩
      -- validation stopped here, so the status is the one the transaction came with
      · obtain ⟨tx₀, hat, hne⟩ := hmarked.resolve_left herr
        rw [htxs] at h
        exact absurd hc (not_committed_of_stopped h ht' hat hne)
      · rw [htxs] at h
        cases pre with
        | nil =>
            obtain ⟨rfl, _⟩ := List.cons.inj h
            rw [hc] at hstatus
            rw [hbody.nsRWS] at hn
            -- the transaction itself was checked against the pending writes and the store
            obtain ⟨hfree, hread⟩ := checkTx_committed.mp hstatus.symm n hn r hr
            exact ⟨hfree, by simp, checkRead_eq_none.mp hread⟩
        | cons p pre =>
            obtain ⟨rfl, hrest⟩ := List.cons.inj h
            rw [herr] at hmarked
            obtain ⟨hfree, hpre, hread⟩ := ih (by simpa using hmarked) hrest
            -- what is not pending later is neither pending now nor written by this transaction
            obtain ⟨hfree', hkeys⟩ := not_mem_of_not_mem_pending hpending hfree
            rw [← hbody.pendingKeys_eq] at hkeys
            exact ⟨hfree', List.forall_mem_cons.mpr ⟨hkeys, hpre⟩, hread⟩

end Spec

end FabricXSdk.Blocks

import FabricXSdk.Blocks.Exact
import FabricXSdk.Blocks.Fabric
import FabricXSdk.Blocks.FabricX

/-!
# The codes of statuses

`CodesByStatus` inverts the mapping from the codes of a protocol to statuses. Several codes
may have one status, and the smallest of them stands for it, so a code that a validator
writes is mapped back to the status it was written for.

## Implementation notes

The names of the codes are a table of the protocol definition, and so a parameter. It
comes with the facts about it that the SDK relies on.
-/

namespace FabricXSdk.Blocks

open Golang

/-- The codes that the protocol names. They fit in a byte of the transaction filter, and
the two statuses of a validator are among their statuses. -/
structure CodeNames (fn : Int → Status × Int × Text) where
  named : List Int
  committed : ∃ code ∈ named, (fn code).1 = .committed
  mvccConflict : ∃ code ∈ named, (fn code).1 = .mvccConflict
  byte : ∀ code ∈ named, 0 ≤ code ∧ code ≤ 255

/-- One pass of the second loop of `CodesByStatus`. -/
def addCode (fn : Int → Status × Int × Text) (result : List (Status × Int)) (code : Int) :
    List (Status × Int) :=
  let (status, rawCode, _) := fn code
  match result.lookup status with
  | some _ => result
  | none => result ++ [(status, rawCode)]

def codesByStatus (rt : Runtime) (names : List Int) (fn : Int → Status × Int × Text) :
    List (Status × Int) :=
  let codes := rt.sortBy id (rt.rangeMap names)
  codes.foldl (addCode fn) []

def Fabric.newMVCCValidator {codes : Fabric.TxValidationCodes} (rt : Runtime)
    (names : CodeNames (Fabric.statusFromValidationCode codes)) (db : RecordGetter) :
    MVCCValidator :=
  ⟨db, codesByStatus rt names.named (Fabric.statusFromValidationCode codes), false⟩

def FabricX.newMVCCValidator {codes : FabricX.CommitterCodes} (rt : Runtime)
    (names : CodeNames (FabricX.statusFromCommitterStatus codes)) (db : RecordGetter) :
    MVCCValidator :=
  ⟨db, codesByStatus rt names.named (FabricX.statusFromCommitterStatus codes), true⟩

section Smallest

variable {fn : Int → Status × Int × Text} {status : Status}

theorem lookup_addCode (result : List (Status × Int)) (code : Int) (status : Status) :
    (addCode fn result code).lookup status =
      (result.lookup status).or (if (fn code).1 = status then some (fn code).2.1 else none) := by
  rw [addCode]
  obtain ⟨s, rawCode, reason⟩ := fn code
  by_cases hs : s = status
  · subst hs
    cases hfound : result.lookup s with
    | some c => simp [hfound]
    | none => simp [hfound, List.lookup_append]
  · have hne : (status == s) = false := beq_eq_false_iff_ne.mpr (Ne.symm hs)
    cases hfound : result.lookup s with
    | some c => simp [hfound, hs]
    | none => simp [hfound, hs, List.lookup_append, List.lookup_cons, hne]

theorem lookup_foldl_addCode (codes : List Int) (result : List (Status × Int))
    (status : Status) :
    (codes.foldl (addCode fn) result).lookup status =
      (result.lookup status).or
        ((codes.find? fun code => (fn code).1 = status).map fun code => (fn code).2.1) := by
  induction codes generalizing result with
  | nil => simp
  | cons code codes ih =>
      rw [List.foldl_cons, ih, lookup_addCode, Option.or_assoc, List.find?_cons]
      by_cases hs : (fn code).1 = status
      · simp [hs]
      · simp [hs]

/-- Whatever the order in which the map is visited, a status gets the smallest named code
that maps to it. -/
theorem lookup_codesByStatus (rt : Runtime) (names : List Int)
    (hraw : ∀ code, (fn code).2.1 = code) (code : Int) :
    (codesByStatus rt names fn).lookup status = some code ↔
      code ∈ names ∧ (fn code).1 = status ∧
        ∀ other ∈ names, (fn other).1 = status → code ≤ other := by
  have hmem : ∀ x, x ∈ rt.sortBy id (rt.rangeMap names) ↔ x ∈ names := fun x =>
    ((rt.sortBy_perm id _).trans (rt.rangeMap_perm _)).mem_iff
  rw [codesByStatus, lookup_foldl_addCode, List.lookup_nil, Option.none_or,
    Option.map_eq_some_iff]
  simp only [hraw, exists_eq_right]
  rw [find?_eq_some_iff_least (rt.sortBy_sorted id (rt.rangeMap names))]
  simp only [hmem, decide_eq_true_eq]

end Smallest

section Filter

variable {l : MVCCValidator} {fn : Int → Status × Int × Text} {pendingWrites : List GoString}

/-- The statuses that a validator gives when it does not stop. -/
def Status.Verdict (s : Status) : Prop := s = .committed ∨ s = .mvccConflict

theorem checkRead_verdict {ns : GoString} {r : KVRead} {c : Check}
    (h : checkRead l ns r = some c) (herr : c.err = none) : c.status.Verdict := by
  simp only [checkRead] at h
  split at h
  · cases h
    cases herr
  · split at h
    · cases h
    · cases h
      exact Or.inr rfl
    · cases h
      exact Or.inr rfl
    · split at h
      · split at h
        · cases h
          exact Or.inr rfl
        · cases h
      · split at h
        · cases h
          exact Or.inr rfl
        · cases h

theorem checkReads_verdict {ns : GoString} {reads : List KVRead}
    (herr : (checkReads l ns reads).err = none) : (checkReads l ns reads).status.Verdict := by
  induction reads with
  | nil => exact Or.inl rfl
  | cons r rest ih =>
      rw [checkReads] at herr ⊢
      cases h : checkRead l ns r with
      | none =>
          rw [h] at herr
          exact ih herr
      | some c =>
          rw [h] at herr
          exact checkRead_verdict h herr

theorem checkTx_verdict {nsRWS : List NsReadWriteSet}
    (herr : (checkTx l pendingWrites nsRWS).err = none) :
    (checkTx l pendingWrites nsRWS).status.Verdict := by
  induction nsRWS with
  | nil => exact Or.inl rfl
  | cons n rest ih =>
      have hns : (checkNs l pendingWrites n.ns n.rws.reads).err = none →
          (checkNs l pendingWrites n.ns n.rws.reads).status.Verdict := by
        intro h
        rw [checkNs] at h ⊢
        split
        · exact Or.inr rfl
        · rename_i hfind
          simp only [hfind] at h
          exact checkReads_verdict h
      rw [checkTx] at herr ⊢
      cases hc : (checkNs l pendingWrites n.ns n.rws.reads).err with
      | some err =>
          simp only [hc] at herr
          cases herr
      | none =>
          simp only [hc] at herr ⊢
          split
          · exact hns hc
          · rename_i hok
            rw [if_neg hok] at herr
            exact ih herr

theorem filterByte_val {code : Int} (h : 0 ≤ code ∧ code ≤ 255) :
    ((filterByte code).val : Int) = code := by
  have hlt : code.toNat < 256 := by omega
  rw [filterByte, Fin.val_ofNat, Nat.mod_eq_of_lt hlt]
  omega

/-- The byte of a transaction is mapped to its status. -/
def Reports (fn : Int → Status × Int × Text) (tx : Transaction) (byte : Byte) : Prop :=
  (fn byte.val).1 = tx.status

/-- Validation that runs to the end writes bytes that report the statuses. -/
theorem validateFrom_reports
    (hback : ∀ status : Status, status.Verdict → (fn (l.codeFor status)).1 = status)
    {txs : List Transaction} (herr : (validateFrom l pendingWrites txs).err = none) :
    List.Forall₂ (Reports fn) (validateFrom l pendingWrites txs).transactions
      (validateFrom l pendingWrites txs).txFilter := by
  induction txs generalizing pendingWrites with
  | nil => exact List.Forall₂.nil
  | cons tx rest ih =>
      rw [validateFrom] at herr ⊢
      split
      · rename_i hrange
        simp only [if_pos hrange] at herr
        cases herr
      · rename_i hrange
        simp only [if_neg hrange] at herr
        cases hc : (checkTx l pendingWrites tx.nsRWS).err with
        | some err =>
            simp only [hc] at herr
            cases herr
        | none =>
            simp only [hc] at herr ⊢
            refine List.Forall₂.cons ?_ (ih herr)
            rw [Reports, filterByte_val (by omega)]
            exact hback _ (checkTx_verdict hc)

section Named

variable {rt : Runtime} {names : CodeNames fn}

/-- The code of a verdict is mapped back to it. -/
theorem codeFor_back (hraw : ∀ code, (fn code).2.1 = code)
    (hcodes : l.codes = codesByStatus rt names.named fn) (status : Status)
    (h : status.Verdict) : (fn (l.codeFor status)).1 = status := by
  have hnamed : ∃ code ∈ names.named, (fn code).1 = status := by
    rcases h with rfl | rfl
    · exact names.committed
    · exact names.mvccConflict
  -- a status with a named code has a smallest one
  obtain ⟨code, hcode, hstatus⟩ := hnamed
  have hlookup : ∃ code, (codesByStatus rt names.named fn).lookup status = some code := by
    rw [← Option.isSome_iff_exists, codesByStatus, lookup_foldl_addCode, List.lookup_nil,
      Option.none_or, Option.isSome_map, List.find?_isSome]
    refine ⟨code, ?_, by simpa using hstatus⟩
    exact ((rt.sortBy_perm id _).trans (rt.rangeMap_perm _)).mem_iff.mpr hcode
  obtain ⟨least, hleast⟩ := hlookup
  rw [MVCCValidator.codeFor, hcodes, hleast]
  exact ((lookup_codesByStatus rt names.named hraw least).mp hleast).2.1

theorem codesFit_of_names (hraw : ∀ code, (fn code).2.1 = code)
    (hcodes : l.codes = codesByStatus rt names.named fn) : l.CodesFit := by
  intro status
  rw [MVCCValidator.codeFor, hcodes]
  cases hlookup : (codesByStatus rt names.named fn).lookup status with
  | none => decide
  | some code =>
      exact names.byte code ((lookup_codesByStatus rt names.named hraw code).mp hlookup).1

end Named

end Filter

end FabricXSdk.Blocks

import FabricXSdk.Blocks.Positions
import FabricXSdk.FabricTest.Sidecar
import FabricXSdk.Notification.Types

/-!
# Status filters of a subscription

A subscription names the statuses it wants in protocol-neutral form, and the request to
the sidecar names codes. The expansion is the inverse image of
`StatusFromCommitterStatus`, except that a status without any code expands to nothing,
and a filter of such statuses alone to the empty list, which the service takes for no
filter.
-/

namespace FabricXSdk.Network.FabricX

open Golang Blocks Notification
open FabricTest (statusMatches)
open Blocks.FabricX (CommitterCodes statusFromCommitterStatus)

/-- The keys of `committerpb.Status_name`: the codes the SDK names, and from 101 on those
for malformed transactions. -/
structure StatusNames (codes : CommitterCodes) where
  named : List Int
  known : ∀ s ∈ [codes.committed, codes.statusUnspecified, codes.abortedSignatureInvalid,
    codes.abortedMvccConflict, codes.rejectedDuplicateTxId], s ∈ named ∧ s < 101
  others : ∀ s ∈ named, s ∈ [codes.committed, codes.statusUnspecified,
    codes.abortedSignatureInvalid, codes.abortedMvccConflict, codes.rejectedDuplicateTxId] ∨ 101 ≤ s
  malformed : ∃ s ∈ named, 101 ≤ s

section Model

variable {codes : CommitterCodes} (rt : Runtime) (names : StatusNames codes)

/-- The codes one pass of the loop of `toProtoFilterStatus` appends. -/
def statusCodes : Status → List Int
  | .committed => [codes.committed]
  | .invalidSignature => [codes.abortedSignatureInvalid]
  -- the committer does not tell the two apart
  | .endorsementPolicyFailure => [codes.abortedSignatureInvalid]
  | .mvccConflict => [codes.abortedMvccConflict]
  | .duplicateTxID => [codes.rejectedDuplicateTxId]
  | .malformed => (rt.rangeMap names.named).filter fun code => 101 ≤ code
  | .unknown => [codes.statusUnspecified]
  | .unrecognized => []

def toProtoFilterStatus (statuses : List Status) : List Int :=
  if statuses.length = 0 then [] else statuses.flatMap (statusCodes rt names)

def toProtoStreamAllRequest : Option StreamAllRequest → Proto.StreamBlocksRequest
  | none => ⟨[], [], false, false, false⟩
  | some req =>
      { filterNamespaces := req.filterNamespaces
        filterStatus := toProtoFilterStatus rt names req.filterStatus
        includeReadWriteSets := req.includeReadWriteSets
        includeEndorsements := req.includeEndorsements
        includeMetadata := req.includeMetadata }

end Model

/-- The status filter of a request, which is empty for no request. -/
def requested (req : Option StreamAllRequest) : List Status :=
  (req.map StreamAllRequest.filterStatus).getD []

/-- The committer has one code for two statuses of classic Fabric. -/
def asReported : Status → Status
  | .endorsementPolicyFailure => .invalidSignature
  | s => s

/-- The filter lets exactly the codes through whose status it names. -/
def FiltersExactly {codes : CommitterCodes} (rt : Runtime) (names : StatusNames codes)
    (req : Option StreamAllRequest) : Prop :=
  ∀ s ∈ names.named,
    statusMatches s (toProtoStreamAllRequest rt names req).filterStatus = true ↔
      requested req = [] ∨
        (statusFromCommitterStatus codes s).1 ∈ (requested req).map asReported

section Exact

variable {codes : CommitterCodes} {rt : Runtime} {names : StatusNames codes}

theorem toProtoFilterStatus_eq (statuses : List Status) :
    toProtoFilterStatus rt names statuses = statuses.flatMap (statusCodes rt names) := by
  cases statuses with
  | nil => rfl
  | cons s rest => rfl

theorem filterStatus_eq (req : Option StreamAllRequest) :
    (toProtoStreamAllRequest rt names req).filterStatus =
      (requested req).flatMap (statusCodes rt names) := by
  cases req with
  | none => rfl
  | some req => exact toProtoFilterStatus_eq req.filterStatus

/-- A named code is malformed from 101 on, and below that one of the five. -/
theorem reported_malformed_iff {code : Int} (h : code ∈ names.named) :
    (statusFromCommitterStatus codes code).1 = .malformed ↔ 101 ≤ code := by
  have hknown := names.known
  have hothers := names.others code h
  simp only [List.mem_cons, List.not_mem_nil, or_false, forall_eq_or_imp, forall_eq]
    at hknown hothers
  simp only [statusFromCommitterStatus]
  grind

/-- The codes of a status are those it is reported for. -/
theorem mem_statusCodes {code : Int} (h : code ∈ names.named) (s : Status) :
    code ∈ statusCodes rt names s ↔ asReported s = (statusFromCommitterStatus codes code).1 := by
  have hdistinct := codes.distinct
  have hothers := names.others code h
  simp only [List.nodup_cons, List.mem_cons, List.not_mem_nil, or_false, not_or]
    at hdistinct hothers
  cases s with
  | malformed =>
      have hmem : code ∈ rt.rangeMap names.named := (rt.rangeMap_perm _).mem_iff.mpr h
      rw [statusCodes, List.mem_filter, decide_eq_true_eq, and_iff_right hmem,
        ← reported_malformed_iff h, asReported, eq_comm]
      simp
  | _ =>
      simp only [statusCodes, statusFromCommitterStatus, asReported]
      grind

theorem statusCodes_eq_nil {s : Status} : statusCodes rt names s = [] ↔ s = .unrecognized := by
  cases s with
  | malformed =>
      obtain ⟨code, hcode, hge⟩ := names.malformed
      have hmem : code ∈ statusCodes rt names .malformed :=
        List.mem_filter.mpr ⟨(rt.rangeMap_perm _).mem_iff.mpr hcode, decide_eq_true hge⟩
      simp [List.ne_nil_of_mem hmem]
  | _ => simp [statusCodes]

/-- A named code is on the list that is sent exactly if its status is asked for. -/
theorem mem_flatMap_statusCodes {code : Int} (h : code ∈ names.named) (statuses : List Status) :
    code ∈ statuses.flatMap (statusCodes rt names) ↔
      (statusFromCommitterStatus codes code).1 ∈ statuses.map asReported := by
  rw [List.mem_flatMap, List.mem_map]
  simp only [mem_statusCodes h]

theorem flatMap_statusCodes_eq_nil (statuses : List Status) :
    statuses.flatMap (statusCodes rt names) = [] ↔ ∀ s ∈ statuses, s = .unrecognized := by
  rw [List.flatMap_eq_nil_iff]
  simp only [statusCodes_eq_nil]

/-- A status filter means what it says exactly if it is empty or names some status that
has a code. -/
theorem filtersExactly_iff (rt : Runtime) (names : StatusNames codes)
    (req : Option StreamAllRequest) :
    FiltersExactly rt names req ↔
      requested req = [] ∨ ∃ s ∈ requested req, s ≠ .unrecognized := by
  unfold FiltersExactly
  rw [filterStatus_eq]
  constructor
  · intro h
    by_contra hnot
    rw [not_or] at hnot
    obtain ⟨hne, hall⟩ := hnot
    have hempty : (requested req).flatMap (statusCodes rt names) = [] := by
      rw [flatMap_statusCodes_eq_nil]
      intro s hs
      by_contra hs'
      exact hall ⟨s, hs, hs'⟩
    -- nothing is left of the filter, so the service lets a committed transaction through
    have hcommitted := (names.known codes.committed (by simp)).1
    have hnone := @mem_flatMap_statusCodes _ rt _ _ hcommitted (requested req)
    rw [hempty] at hnone h
    rcases (h codes.committed hcommitted).mp (by simp [statusMatches]) with hnil | hin
    · exact hne hnil
    · exact absurd (hnone.mpr hin) (by simp)
  · rintro (hnil | ⟨s, hs, hs'⟩) code hcode
    · simp [hnil, statusMatches]
    · have hne : (requested req).flatMap (statusCodes rt names) ≠ [] := by
        rw [Ne, flatMap_statusCodes_eq_nil]
        exact fun hall => hs' (hall s hs)
      have hreq : requested req ≠ [] := List.ne_nil_of_mem hs
      simp only [statusMatches, decide_eq_true_eq, List.length_eq_zero_iff, hne, hreq, false_or]
      exact mem_flatMap_statusCodes hcode (requested req)

end Exact

section Sample

/-- The codes of the committer with two of those for malformed transactions. -/
def sampleCommitterNames : StatusNames sampleStatusCodes where
  named := [0, 1, 2, 3, 100, 101, 102]
  known := by decide
  others := by decide
  malformed := ⟨101, by decide, by decide⟩

/-- A filter for unrecognized statuses alone, which no named code has, lets a committed
transaction through. -/
theorem unrecognized_filter_widens :
    (statusFromCommitterStatus sampleStatusCodes 1).1 = .committed ∧
      Status.committed ∉ requested (some ⟨[], [.unrecognized], false, false, false⟩) ∧
      statusMatches 1 (toProtoStreamAllRequest Runtime.canonical sampleCommitterNames
        (some ⟨[], [.unrecognized], false, false, false⟩)).filterStatus = true := by
  decide

end Sample

end FabricXSdk.Network.FabricX

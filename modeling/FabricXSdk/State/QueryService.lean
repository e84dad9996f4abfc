import FabricXSdk.Blocks.Types
import FabricXSdk.Lib.Memo

/-!
# The query-service store

A `queryservice.Store` has no world state of its own, since every read goes to the query
service. As a block handler it tracks the last block it has seen, for a synchronizer to
resume from. A snapshot reads through one view of the query service and keeps what it has
read in a cache. The main result says when the cache is transparent.

## Implementation notes

The counter is atomic in the source, and blocks arrive one at a time. The client is a
parameter of the functions that use it, one for each call: a call may fail while another
does not, and what two calls have in common is the content of the view.
-/

namespace FabricXSdk.State.QueryService

open Golang Blocks

structure Store where
  height : ℕ
  deriving DecidableEq, Repr

def newStore : Store := ⟨0⟩

/-- `Handle`, which never returns an error. -/
def Store.handle (s : Store) (b : Block) : Store :=
  if s.height < b.number then { s with height := b.number } else s

def Store.setBlockNumber (s : Store) (n : ℕ) : Store := { s with height := n }

/-- `BlockNumber`, the last block seen. -/
def Store.blockNumber (s : Store) : Except Text ℕ := .ok s.height

@[simp] theorem Store.handle_height (s : Store) (b : Block) :
    (s.handle b).height = max s.height b.number := by
  rw [Store.handle]
  split
  · rename_i hlt
    exact (Nat.max_eq_right hlt.le).symm
  · rename_i hle
    exact (Nat.max_eq_left (Nat.le_of_not_lt hle)).symm

section Snapshot

/-- One committed key, with its value and its version. -/
structure Row where
  key : Bytes
  value : Bytes
  version : ℕ
  deriving DecidableEq, Repr

/-- The query service as one call meets it. -/
structure Client where
  beginView : Except Text GoString
  getRows : (viewID ns : GoString) → (keys : List Bytes) → Except Text (List Row)

/-- The record made of a row; the row does not carry the other fields. -/
def record (ns key : GoString) (r : Row) : WriteRecord :=
  ⟨ns, key, 0, 0, r.version, r.value, false, []⟩

/-- `Store.get`, a read that goes to the query service. -/
def get (client : Client) (viewID ns key : GoString) : Except Text (Option WriteRecord) := do
  let rows ← client.getRows viewID ns [key]
  return (rows.find? fun r => r.key = key).map (record ns key)

/-- A snapshot; `none` in the cache is a key known to be absent. -/
structure Snapshot where
  viewID : GoString
  cache : GoMap (Option WriteRecord)

/-- `Store.Snapshot`, which opens a view. -/
def snapshot (client : Client) : Except Text Snapshot := do
  let viewID ← client.beginView
  return ⟨viewID, ∅⟩

/-- The key of the cache, `namespace + "\x00" + key`. -/
def cacheKey (ns key : GoString) : GoString := ns ++ 0 :: key

/-- `snapshot.Get`, with the snapshot after the call. -/
def Snapshot.get (s : Snapshot) (client : Client) (ns key : GoString) :
    Except Text (Option WriteRecord) × Snapshot :=
  match s.cache.lookup (cacheKey ns key) with
  | some rec => (.ok rec, s)
  | none =>
      match QueryService.get client s.viewID ns key with
      | .error err => (.error err, s)
      | .ok rec => (.ok rec, { s with cache := s.cache.insert (cacheKey ns key) rec })

/-- A call of `snapshot.Get`, with the client it meets. -/
structure Request where
  client : Client
  ns : GoString
  key : GoString

/-- The snapshot after a sequence of calls. -/
def Snapshot.after (s : Snapshot) (requests : List Request) : Snapshot :=
  requests.foldl (fun s q => (s.get q.client q.ns q.key).2) s

/-- The entry of the cache a request uses. -/
def Request.entry (q : Request) : GoString := cacheKey q.ns q.key

/-- The uncached read of a request. -/
def Request.fetch (viewID : GoString) (q : Request) : Except Text (Option WriteRecord) :=
  QueryService.get q.client viewID q.ns q.key

/-- What a view that holds these rows has for a request. -/
def Request.recordIn (view : GoString → GoString → Option Row) (q : Request) :
    Option WriteRecord :=
  (view q.ns q.key).map (record q.ns q.key)

/-- The view answers consistently: a read that succeeds gets what the view holds. -/
def Consistent (viewID : GoString) (view : GoString → GoString → Option Row)
    (requests : List Request) : Prop :=
  ∀ q ∈ requests, ∀ rec, q.fetch viewID = .ok rec → rec = q.recordIn view

/-- Two requests for different keys that share an entry of the cache. -/
def Clash (q q' : Request) : Prop :=
  (q.ns, q.key) ≠ (q'.ns, q'.key) ∧ q.entry = q'.entry

theorem cacheKey_injective (ns : GoString) : Function.Injective (cacheKey ns) := by
  intro key key' h
  exact (List.cons.inj (List.append_cancel_left h)).2

theorem Snapshot.get_eq_ask (s : Snapshot) (q : Request) :
    s.get q.client q.ns q.key =
      ((Memo.ask Request.entry (Request.fetch s.viewID) s.cache q).1,
        ⟨s.viewID, (Memo.ask Request.entry (Request.fetch s.viewID) s.cache q).2⟩) := by
  rw [Snapshot.get, Memo.ask, Request.fetch, Request.entry]
  cases s.cache.lookup (cacheKey q.ns q.key) with
  | some rec => rfl
  | none => cases QueryService.get q.client s.viewID q.ns q.key <;> rfl

theorem Snapshot.after_eq_askAll (s : Snapshot) (requests : List Request) :
    s.after requests =
      ⟨s.viewID, Memo.askAll Request.entry (Request.fetch s.viewID) s.cache requests⟩ := by
  induction requests generalizing s with
  | nil => rfl
  | cons q requests ih =>
      change (s.get q.client q.ns q.key).2.after requests = _
      rw [ih, Snapshot.get_eq_ask]
      rfl

theorem snapshot_cache {client : Client} {s : Snapshot} (h : snapshot client = .ok s) :
    s.cache = ∅ := by
  rw [snapshot] at h
  cases hv : client.beginView with
  | error err => rw [hv] at h; cases h
  | ok viewID => rw [hv] at h; cases h; rfl

/-- A call that fails caches nothing. -/
theorem Snapshot.get_snd_of_error {s : Snapshot} {q : Request} {err : Text}
    (h : (s.get q.client q.ns q.key).1 = .error err) : (s.get q.client q.ns q.key).2 = s := by
  rw [Snapshot.get_eq_ask] at h ⊢
  rw [Memo.ask_snd_of_error _ _ h]

/-- A record names the key it was read for, so two keys have the same record only if the
view has neither. -/
theorem recordIn_eq_iff {view : GoString → GoString → Option Row} {q q' : Request}
    (hkey : q.entry = q'.entry) :
    q.recordIn view = q'.recordIn view ↔
      (Clash q q' → view q.ns q.key = none ∧ view q'.ns q'.key = none) := by
  by_cases heq : (q.ns, q.key) = (q'.ns, q'.key)
  · obtain ⟨hns, hk⟩ := Prod.mk.inj heq
    constructor
    · intro _ hclash
      exact absurd heq hclash.1
    · intro _
      rw [Request.recordIn, Request.recordIn, hns, hk]
  · have hns : q.ns ≠ q'.ns := by
      intro hns
      rw [Request.entry, Request.entry, hns] at hkey
      exact heq (Prod.ext hns (cacheKey_injective _ hkey))
    constructor
    · intro hrec _
      rw [Request.recordIn, Request.recordIn] at hrec
      cases hv : view q.ns q.key with
      | none =>
          rw [hv, Option.map_none] at hrec
          exact ⟨rfl, Option.map_eq_none_iff.mp hrec.symm⟩
      | some r =>
          rw [hv, Option.map_some] at hrec
          obtain ⟨r', _, hr'⟩ := Option.map_eq_some_iff.mp hrec.symm
          exact absurd (congrArg WriteRecord.ns hr').symm hns
    · intro h
      obtain ⟨hq, hq'⟩ := h ⟨heq, hkey⟩
      rw [Request.recordIn, Request.recordIn, hq, hq']
      rfl

/-- A request that does not fail returns what the view has for it, and one that fails
leaves the cache as it was. -/
def Transparent (s : Snapshot) (view : GoString → GoString → Option Row)
    (requests : List Request) : Prop :=
  ∀ before q after, requests = before ++ q :: after →
    (∀ rec, ((s.after before).get q.client q.ns q.key).1 = .ok rec → rec = q.recordIn view) ∧
    ∀ err, ((s.after before).get q.client q.ns q.key).1 = .error err →
      ((s.after before).get q.client q.ns q.key).2 = s.after before

/-- The cache of a snapshot is transparent exactly for the sequences of calls where a
request that shares its entry with an earlier, answered one for another key finds neither
key in the view. -/
theorem snapshot_transparent_iff {client : Client} {s : Snapshot}
    {view : GoString → GoString → Option Row} {requests : List Request}
    (hs : snapshot client = .ok s) (hview : Consistent s.viewID view requests) :
    Transparent s view requests ↔
      requests.Pairwise fun q q' => (∃ rec, q.fetch s.viewID = .ok rec) → Clash q q' →
        view q.ns q.key = none ∧ view q'.ns q'.key = none := by
  have hmemo := Memo.transparent_iff Request.entry (Request.fetch s.viewID)
    (Request.recordIn view) hview
  have hget : ∀ before (q : Request), ((s.after before).get q.client q.ns q.key).1 =
      (Memo.ask Request.entry (Request.fetch s.viewID)
        (Memo.askAll Request.entry (Request.fetch s.viewID) ∅ before) q).1 := by
    intro before q
    rw [Snapshot.get_eq_ask, Snapshot.after_eq_askAll, snapshot_cache hs]
  constructor
  · intro h
    have hpairs := hmemo.mp fun before q after heq rec hrec =>
      (h before q after heq).1 rec (by rw [hget]; exact hrec)
    refine hpairs.imp fun {q q'} hvalue hfetch hclash => ?_
    exact (recordIn_eq_iff hclash.2).mp (hvalue hfetch hclash.2) hclash
  · intro hpairs before q after heq
    refine ⟨fun rec hrec => ?_, fun err => Snapshot.get_snd_of_error⟩
    rw [hget] at hrec
    refine hmemo.mpr (hpairs.imp fun {q q'} h hfetch hkey => ?_) before q after heq rec hrec
    exact (recordIn_eq_iff hkey).mpr (h hfetch)

/-- A view that holds key `"\x00b"` of namespace `"a"` and nothing else. -/
def sampleView (ns key : GoString) : Option Row :=
  if ns = [97] ∧ key = [0, 98] then some ⟨[0, 98], [1], 7⟩ else none

def sampleClient : Client :=
  ⟨.ok [118], fun _ ns keys => .ok (keys.filterMap (sampleView ns))⟩

/-- A request for the key that the view holds. -/
def samplePresent : Request := ⟨sampleClient, [97], [0, 98]⟩

/-- A request for key `"b"` of namespace `"a\x00"`, which shares the entry of the other. -/
def sampleAbsent : Request := ⟨sampleClient, [97, 0], [98]⟩

theorem sample_consistent (requests : List Request)
    (h : ∀ q ∈ requests, q = samplePresent ∨ q = sampleAbsent) :
    Consistent [118] sampleView requests := by
  intro q hq rec hrec
  rcases h q hq with rfl | rfl
  · exact (Except.ok.inj hrec).symm
  · exact (Except.ok.inj hrec).symm

/-- Asked twice, the key that the view holds is read as it is. -/
theorem snapshot_transparent_iff_twice :
    Transparent ⟨[118], ∅⟩ sampleView [samplePresent, samplePresent] := by
  rw [snapshot_transparent_iff (show snapshot sampleClient = .ok ⟨[118], ∅⟩ from rfl)
    (sample_consistent _ (by simp))]
  refine List.pairwise_pair.mpr fun _ hclash => ?_
  exact absurd rfl hclash.1

/-- The view does not hold key `"b"` of namespace `"a\x00"`, but after a read of key
`"\x00b"` of namespace `"a"` the snapshot returns the record of that key. -/
theorem snapshot_returns_other_key :
    snapshot sampleClient = .ok ⟨[118], ∅⟩ ∧
    Consistent [118] sampleView [samplePresent, sampleAbsent] ∧
    (((⟨[118], ∅⟩ : Snapshot).after [samplePresent]).get sampleClient [97, 0] [98]).1 =
      .ok (some ⟨[97], [0, 98], 0, 0, 7, [1], false, []⟩) ∧
    get sampleClient [118] [97, 0] [98] = .ok none ∧
    ¬ Transparent ⟨[118], ∅⟩ sampleView [samplePresent, sampleAbsent] := by
  refine ⟨rfl, sample_consistent _ (by simp), rfl, rfl, fun h => ?_⟩
  have hrec := (h [samplePresent] sampleAbsent [] rfl).1 _ rfl
  cases hrec

end Snapshot

end FabricXSdk.State.QueryService

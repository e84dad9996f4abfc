import FabricXSdk.Network.CaughtUp
import FabricXSdk.Network.Coverage
import FabricXSdk.State.QueryService

/-!
# Priming the query-service store

The synchronizer with a `queryservice.Store` instead of a database, which was given a
block number before it starts. The number counts as the last block seen: the loop asks
for the block behind it, and a monitor takes the blocks up to it for processed. So as long
as no handler behind the store fails, every handler sees every block above the number. A
committer's height is the number of the next block, though, and a store primed with the
height has its synchronizer skip that block.

## Implementation notes

The processor is that of `Setup`, with the store at the position of the database. A
handler other than the store may fail, which the record of a `QueryNode` shows. One behind
the store that fails misses the block, as it does with a database.
-/

namespace FabricXSdk.Network

open Golang Blocks State Transition

section Model

/-- The store, and a record of the calls to the handlers of the chain, by the position of
the handler and the number of the block: those that returned nil and those that failed. -/
structure QueryNode where
  store : QueryService.Store
  returned : List (ℕ × ℕ)
  failed : List (ℕ × ℕ)

/-- A store after `SetBlockNumber`, and no calls. -/
def primed (n : ℕ) : QueryNode := ⟨QueryService.newStore.setBlockNumber n, [], []⟩

def QueryNode.withReturned (node : QueryNode) (i n : ℕ) : QueryNode :=
  { node with returned := node.returned ++ [(i, n)] }

def QueryNode.withFailed (node : QueryNode) (i n : ℕ) : QueryNode :=
  { node with failed := node.failed ++ [(i, n)] }

namespace Setup

variable (p : Setup)

/-- The store's `Handle` at its position, and elsewhere a handler that fails if its driver
does. -/
def queryHandlerAt (fate : Fate) (i : ℕ) : Handler QueryNode := fun b node =>
  if i = p.position then
    (.ok (), { node with store := node.store.handle b }.withReturned i b.number)
  else
    match fate.driver i with
    | some err :: _ => (.error err, node.withFailed i b.number)
    | _ => (.ok (), node.withReturned i b.number)

def queryBackend : Backend QueryNode Fate where
  height := fun _ node => node.store.blockNumber
  process := fun fate n node =>
    processBlock (p.parse fate.now) ((List.range' 0 p.handlers).map (p.queryHandlerAt fate))
      (p.chain n) node

end Setup

/-- Every handler of the chain has returned nil for the block. -/
def QueryNode.Handled (node : QueryNode) (p : Setup) (m : ℕ) : Prop :=
  ∀ i < p.handlers, (i, m) ∈ node.returned

/-- In a call to `ProcessBlock` no handler behind the store fails. -/
def NoneFailsBehind (p : Setup) (_ : System QueryNode) (a : Label Fate) : Prop :=
  ∀ fate, a = .process fate → fate.ClearBehind p

end Model

section Process

variable {p : Setup}

theorem QueryNode.Handled.mono {node node' : QueryNode} {m : ℕ} (h : node.Handled p m)
    (hgrows : node.returned <+: node'.returned) : node'.Handled p m :=
  fun i hi => hgrows.subset (h i hi)

/-- A handler other than the store fails if what it depends on does, or returns nil, and
leaves the store alone. -/
theorem queryHandlerAt_other (p : Setup) (fate : Fate) {i : ℕ} (hi : i ≠ p.position) (b : Block)
    (node : QueryNode) :
    (¬ fate.Clear i ∧ ∃ err,
      p.queryHandlerAt fate i b node = (.error err, node.withFailed i b.number)) ∨
    p.queryHandlerAt fate i b node = (.ok (), node.withReturned i b.number) := by
  simp only [Setup.queryHandlerAt, if_neg hi]
  cases hdriver : fate.driver i with
  | nil => exact Or.inr rfl
  | cons answer rest =>
      cases answer with
      | none => exact Or.inr rfl
      | some err => exact Or.inl ⟨fun hclear => hclear err rest hdriver, err, rfl⟩

theorem withReturned_all {node : QueryNode} {i n : ℕ} (h : ∀ x < i, (x, n) ∈ node.returned) :
    ∀ x < i + 1, (x, n) ∈ (node.withReturned i n).returned := by
  intro x hx
  rw [QueryNode.withReturned, List.mem_append, List.mem_singleton]
  rcases Nat.lt_or_eq_of_le (Nat.le_of_lt_succ hx) with hlt | rfl
  · exact Or.inl (h x hlt)
  · exact Or.inr rfl

/-- The handlers behind the store. -/
theorem runHandlers_after {fate : Fate} {b : Block} {k i : ℕ} {node node' : QueryNode}
    {out : Except Text Unit}
    (h : runHandlers ((List.range' i k).map (p.queryHandlerAt fate)) b node = (out, node'))
    (hall : i + k = p.handlers) (hi : p.position < i) (hclear : fate.ClearBehind p)
    (hdone : ∀ x < i, (x, b.number) ∈ node.returned) :
    node.returned <+: node'.returned ∧ node'.store = node.store ∧ node'.Handled p b.number := by
  induction k generalizing i node with
  | zero =>
      cases h
      exact ⟨List.prefix_rfl, rfl, fun x hx => hdone x (by omega)⟩
  | succ k ih =>
      rw [List.range'_succ, List.map_cons, runHandlers] at h
      rcases queryHandlerAt_other p fate hi.ne' b node with ⟨hfails, _⟩ | hrun
      · exact absurd (hclear i hi (by omega)) hfails
      · rw [hrun] at h
        obtain ⟨hgrows, hstore, hhandled⟩ := ih h (by omega) (by omega) (withReturned_all hdone)
        exact ⟨(List.prefix_append _ _).trans hgrows, hstore, hhandled⟩

/-- The handlers up to the store, and those behind it. A failure before the store keeps
the block from it. -/
theorem runHandlers_before {fate : Fate} {b : Block} {k i : ℕ} {node node' : QueryNode}
    {out : Except Text Unit}
    (h : runHandlers ((List.range' i k).map (p.queryHandlerAt fate)) b node = (out, node'))
    (hall : i + k = p.handlers) (hi : i ≤ p.position) (hclear : fate.ClearBehind p)
    (hdone : ∀ x < i, (x, b.number) ∈ node.returned) :
    node.returned <+: node'.returned ∧
    (node'.store = node.store ∧ out ≠ .ok () ∨
      node'.store = node.store.handle b ∧ node'.Handled p b.number) := by
  induction k generalizing i node with
  | zero =>
      have hlt := p.position_lt
      omega
  | succ k ih =>
      rw [List.range'_succ, List.map_cons, runHandlers] at h
      by_cases hstore : i = p.position
      · have hrun : p.queryHandlerAt fate i b node =
            (.ok (), { node with store := node.store.handle b }.withReturned i b.number) :=
          if_pos hstore
        rw [hrun] at h
        obtain ⟨hgrows, hstore, hhandled⟩ := runHandlers_after h (by omega) (by omega) hclear
          (withReturned_all hdone)
        exact ⟨(List.prefix_append _ _).trans hgrows, Or.inr ⟨hstore, hhandled⟩⟩
      · rcases queryHandlerAt_other p fate hstore b node with ⟨_, err, hrun⟩ | hrun
        · rw [hrun] at h
          cases h
          exact ⟨List.prefix_rfl, Or.inl ⟨rfl, by simp⟩⟩
        · rw [hrun] at h
          obtain ⟨hgrows, hcase⟩ := ih h (by omega) (by omega) (withReturned_all hdone)
          exact ⟨(List.prefix_append _ _).trans hgrows, hcase⟩

/-- A call to `ProcessBlock` in which no handler behind the store fails: it fails before the
store, or raises the height of the store to the block and has every handler return nil. -/
theorem queryBackend_process {fate : Fate} {n : ℕ} {node node' : QueryNode} {out : Outcome Unit}
    (h : p.queryBackend.process fate n node = (out, node')) (hclear : fate.ClearBehind p) :
    node.returned <+: node'.returned ∧
    (node'.store = node.store ∧ out ≠ .ok () ∨
      node'.store.height = max node.store.height n ∧ node'.Handled p n) := by
  simp only [Setup.queryBackend, processBlock] at h
  cases hparse : p.parse fate.now (p.chain n) with
  | panic =>
      rw [hparse] at h
      cases h
      exact ⟨List.prefix_rfl, Or.inl ⟨rfl, by simp⟩⟩
  | error err =>
      rw [hparse] at h
      cases h
      exact ⟨List.prefix_rfl, Or.inl ⟨rfl, by simp⟩⟩
  | ok b =>
      rw [hparse] at h
      cases h
      obtain ⟨hgrows, hcase⟩ := @runHandlers_before p fate b p.handlers 0 node _ _ rfl (by omega)
        (Nat.zero_le _) hclear (by omega)
      rw [number_of_parse hparse] at hcase
      refine ⟨hgrows, ?_⟩
      rcases hcase with ⟨hstore, hfailed⟩ | ⟨hstore, hhandled⟩
      · refine Or.inl ⟨hstore, ?_⟩
        rwa [ne_eq, Outcome.lift_eq_ok]
      · refine Or.inr ⟨?_, hhandled⟩
        rw [hstore, QueryService.Store.handle_height, number_of_parse hparse]

end Process

section Run

variable {p : Setup} {m : ℕ}

/-- The loop is about to ask the peer for block `x`, or waits for it. -/
def LoopPc.At (pc : LoopPc) (x : ℕ) : Prop := pc = .subscribing x ∨ pc = .streaming x

theorem LoopPc.Away.not_at {pc : LoopPc} (h : pc.Away) (x : ℕ) : ¬ pc.At x := by
  rintro (hpc | hpc)
  · exact (h x).1 hpc
  · exact (h x).2 hpc

/-- The invariant of a run that does not skip block `m`: neither the position of the loop
nor the height of the store is beyond the block before it has been handled. -/
structure Waits (p : Setup) (m : ℕ) (s : System QueryNode) : Prop where
  asked : ∀ x, s.sync.pc.At x → m < x → s.store.Handled p m
  counted : m < blockHeight s.store.store.height → s.store.Handled p m

theorem blockHeight_le (last : ℕ) : blockHeight last ≤ last + 1 := Nat.mod_le _ _

theorem startBlock_le_blockHeight (last : ℕ) : startBlock last ≤ blockHeight last := by
  rw [startBlock]
  split
  · exact le_rfl
  · exact Nat.zero_le _

theorem waits_init (p : Setup) {n m : ℕ} (h : blockHeight n ≤ m) :
    Waits p m ⟨Sync.init, primed n⟩ where
  asked := by
    rintro x (hx | hx)
    · cases hx
    · cases hx
  counted := by
    intro hlt
    exact absurd hlt (Nat.not_lt.mpr h)

/-- A step that leaves the store alone. -/
theorem Waits.keep {s t : System QueryNode} (hs : Waits p m s) (hstore : t.store = s.store)
    (hasked : ∀ x, t.sync.pc.At x → m < x → s.store.Handled p m) : Waits p m t where
  asked := by
    rw [hstore]
    exact hasked
  counted := by
    rw [hstore]
    exact hs.counted

/-- The block has been handled when the stream is behind it. -/
theorem Waits.of_le {s : System QueryNode} {node : QueryNode} {x : ℕ} (hs : Waits p m s)
    (hpc : s.sync.pc = .streaming x) (hgrows : s.store.returned <+: node.returned)
    (hhandled : node.Handled p x) (hm : m ≤ x) : node.Handled p m := by
  rcases Nat.lt_or_eq_of_le hm with hlt | rfl
  · exact (hs.asked x (Or.inr hpc) hlt).mono hgrows
  · exact hhandled

/-- A call to `ProcessBlock` from the position of the stream. -/
theorem Waits.process {s t : System QueryNode} {fate : Fate} {x : ℕ} {out : Outcome Unit}
    (hs : Waits p m s) (hpc : s.sync.pc = .streaming x)
    (hout : p.queryBackend.process fate x s.store = (out, t.store))
    (ht : out = .ok () ∧ t.sync.pc = .streaming (x + 1) ∨ out ≠ .ok () ∧ t.sync.pc.Away)
    (hclear : fate.ClearBehind p) : Waits p m t := by
  obtain ⟨hgrows, ⟨hstore, hfailed⟩ | ⟨hheight, hhandled⟩⟩ := queryBackend_process hout hclear
  · -- the store has not seen the block, and the stream has ended
    have haway := (ht.resolve_left fun hok => hfailed hok.1).2
    refine ⟨fun y hy => absurd hy (haway.not_at y), fun hlt => ?_⟩
    rw [hstore] at hlt
    exact (hs.counted hlt).mono hgrows
  · refine ⟨fun y hy hlt => ?_, fun hlt => ?_⟩
    · rcases ht with ⟨_, hnext⟩ | ⟨_, haway⟩
      · rw [hnext] at hy
        rcases hy with hy | hy
        · cases hy
        · cases hy
          exact hs.of_le hpc hgrows hhandled (Nat.le_of_lt_succ hlt)
      · exact absurd hy (haway.not_at y)
    · rw [hheight] at hlt
      -- the height is that of the store before, or that of the block
      rcases Nat.le_total x s.store.store.height with hle | hle
      · rw [Nat.max_eq_left hle] at hlt
        exact (hs.counted hlt).mono hgrows
      · rw [Nat.max_eq_right hle] at hlt
        have hbound := blockHeight_le x
        exact hs.of_le hpc hgrows hhandled (by omega)

theorem Waits.step {s t : System QueryNode} {a : Label Fate} (hs : Waits p m s)
    (hgood : NoneFailsBehind p s a) (h : Step p.queryBackend s a t) : Waits p m t := by
  cases step_storeEffect h with
  | away hstore hpc => exact hs.keep hstore fun x hx => absurd hx (hpc.not_at x)
  | stay hstore hpc =>
      apply hs.keep hstore
      rw [hpc]
      exact hs.asked
  | resume fault last hstore hheight hpc =>
      have hlast : s.store.store.height = last := Except.ok.inj hheight
      refine hs.keep hstore fun x hx hlt => ?_
      rw [hpc] at hx
      rcases hx with hx | hx
      · cases hx
        apply hs.counted
        rw [hlast]
        exact hlt.trans_le (startBlock_le_blockHeight last)
      · cases hx
  | subscribed x hstore hpc hpc' =>
      refine hs.keep hstore fun y hy => ?_
      rw [hpc'] at hy
      rcases hy with hy | hy
      · cases hy
      · cases hy
        exact hs.asked x (Or.inl hpc)
  | processed fate x out ha hpc hout ht => exact hs.process hpc hout ht (hgood fate ha)

theorem Waits.reaches {s t : System QueryNode} (hs : Waits p m s)
    (h : Reaches (Step p.queryBackend) (NoneFailsBehind p) s t) : Waits p m t :=
  h.invariant hs fun _ _ _ hs hgood hstep => Waits.step hs hgood hstep

/-- Calls are added to the record. -/
theorem step_grows {s t : System QueryNode} {a : Label Fate} (hgood : NoneFailsBehind p s a)
    (h : Step p.queryBackend s a t) : s.store.returned <+: t.store.returned := by
  cases step_storeEffect h with
  | away hstore _ | stay hstore _ | resume _ _ hstore _ _ | subscribed _ hstore _ _ =>
      exact hstore ▸ List.prefix_rfl
  | processed fate _ _ ha _ hout _ => exact (queryBackend_process hout (hgood fate ha)).1

theorem reaches_grows {s t : System QueryNode}
    (h : Reaches (Step p.queryBackend) (NoneFailsBehind p) s t) :
    s.store.returned <+: t.store.returned := by
  apply h.invariant
  · exact List.prefix_rfl
  · intro u a v hu hgood hstep
    exact hu.trans (step_grows hgood hstep)

end Run

section Main

/-- Block `m` is not skipped on a store primed with `n`: when the loop asks for a later
block, every handler has returned nil for block `m`. -/
def NotSkipped (p : Setup) (n m : ℕ) : Prop :=
  ∀ s x, Reaches (Step p.queryBackend) (NoneFailsBehind p) ⟨Sync.init, primed n⟩ s →
    s.sync.pc.At x → m < x → s.store.Handled p m

/-- `Ready` waits for block `m` on a store primed with `n`: after a monitor has observed a
height above the block, no monitor makes its call before every handler has returned nil for
the block. -/
def ReadyWaits (p : Setup) (n m : ℕ) : Prop :=
  ∀ s a t u v i j height,
    Reaches (Step p.queryBackend) (NoneFailsBehind p) ⟨Sync.init, primed n⟩ s →
    CatchesUp p.queryBackend s a t i height →
    Reaches (Step p.queryBackend) (NoneFailsBehind p) t u →
    Step p.queryBackend u (.ready j) v → m < height → v.store.Handled p m

variable {p : Setup} {n m : ℕ}

theorem noneFailsBehind_internal (p : Setup) (s : System QueryNode) :
    NoneFailsBehind p s .internal := nofun

theorem notSkipped_of_le (h : blockHeight n ≤ m) : NotSkipped p n m := by
  intro s x hs hx hlt
  exact ((waits_init p h).reaches hs).asked x hx hlt

theorem readyWaits_of_le (h : blockHeight n ≤ m) : ReadyWaits p n m := by
  intro s a t u v i j height hs hcatches hu hready hlt
  obtain ⟨hstore, fault, last, hheight, hle⟩ := hcatches.localHeight
  have hlast : s.store.store.height = last := Except.ok.inj hheight
  have hhandled : t.store.Handled p m := by
    rw [hstore]
    apply ((waits_init p h).reaches hs).counted
    rw [hlast]
    exact hlt.trans_le hle
  have hgood : NoneFailsBehind p u (.ready j) := nofun
  exact hhandled.mono ((reaches_grows hu).trans (step_grows hgood hready))

theorem not_handled_primed (p : Setup) (n m : ℕ) : ¬ (primed n).Handled p m := by
  intro h
  exact absurd (h p.position p.position_lt) List.not_mem_nil

/-- A monitor may report readiness before any block was delivered. -/
theorem not_readyWaits_of_lt (h : m < blockHeight n) : ¬ ReadyWaits p n m := by
  intro hwaits
  have hheight : p.queryBackend.height none (primed n) = .ok n := rfl
  have hcatches := firstPeriod_catchesUp (startBlock n) (blockHeight n) hheight le_rfl
  have hrun := reaches_comparing (noneFailsBehind_internal p) (blockHeight n) hheight
  have hhandled := hwaits _ _ _ _ _ 0 0 (blockHeight n) hrun hcatches Reaches.refl
    (@Step.ready _ _ _ _ _ 0 hcatches.caughtUp) h
  exact not_handled_primed p n m hhandled

/-- On a store primed with a committer's height, and as long as no handler behind the store
fails, a block from that height on is not skipped and is waited for if and only if it is not
the next block of the committer. The exception is a height whose successor is not a `uint64`:
there the loop asks for block zero. -/
theorem passes_iff_not_next (p : Setup) (height m : ℕ) (hm : height ≤ m) :
    NotSkipped p height m ∧ ReadyWaits p height m ↔ height < m ∨ 2 ^ 64 ≤ height + 1 := by
  constructor
  · rintro ⟨_, hwaits⟩
    by_contra hnext
    refine not_readyWaits_of_lt ?_ hwaits
    rw [blockHeight, Nat.mod_eq_of_lt (by omega)]
    omega
  · intro hcase
    have hle : blockHeight height ≤ m := by
      rcases hcase with hlt | hwrap
      · exact (blockHeight_le height).trans hlt
      · have hmod : blockHeight height < 2 ^ 64 := Nat.mod_lt _ (by decide)
        omega
    exact ⟨notSkipped_of_le hle, readyWaits_of_le hle⟩

end Main

section Sample

/-- The store, and a handler behind it. -/
def sampleWatched : Setup := sampleSetup 2 0 Nat.zero_lt_two

theorem sampleWatched_height : sampleWatched.queryBackend.height none (primed 5) = .ok 5 := rfl

theorem sampleWatched_process :
    (sampleWatched.queryBackend.process sampleFate 6 (primed 5)).1 = .ok () := by
  decide +kernel

/-- Block six is the first one that is delivered, and both handlers see it. -/
theorem passes_iff_not_next_sample :
    ∃ s, Reaches (Step sampleWatched.queryBackend) (NoneFailsBehind sampleWatched)
        ⟨Sync.init, primed 5⟩ s ∧
      s.sync.pc.At 7 ∧ s.store.Handled sampleWatched 6 := by
  have hgood : ∀ s, NoneFailsBehind sampleWatched s (.process sampleFate) := by
    rintro s fate ⟨⟩ i _ _ err rest h
    cases h
  have hrun := (reaches_comparing (noneFailsBehind_internal sampleWatched) 6
    sampleWatched_height).step (hgood _) (Step.deliver rfl (Prod.ext sampleWatched_process rfl))
  have hat : LoopPc.At (.streaming 7) 7 := Or.inr rfl
  have hsix := (passes_iff_not_next sampleWatched 5 6 (by decide)).mpr (Or.inl (by decide))
  exact ⟨_, hrun, hat, hsix.1 _ 7 hrun hat (by decide)⟩

/-- A committer with five blocks gives its height as five, and the next block is block
five. With a store that is primed with the height, no handler sees block five, and `Ready`
returns nil when the peer has six blocks. -/
theorem primed_block_skipped :
    ∃ s t u v a, Reaches (Step sampleWatched.queryBackend) Free ⟨Sync.init, primed 5⟩ s ∧
      CatchesUp sampleWatched.queryBackend s a t 0 6 ∧
      Step sampleWatched.queryBackend t (.ready 0) u ∧ u.sync.isReady = none ∧
      Step sampleWatched.queryBackend u (.process sampleFate) v ∧ v.sync.pc = .streaming 7 ∧
      v.store.returned = [(0, 6), (1, 6)] ∧ v.store.failed = [] := by
  have hcatches := firstPeriod_catchesUp 6 6 sampleWatched_height (by decide)
  refine ⟨_, _, _, _, _, reaches_comparing (fun _ => trivial) 6 sampleWatched_height,
    hcatches,
    @Step.ready _ _ _ _ _ 0 hcatches.caughtUp, rfl,
    Step.deliver rfl (Prod.ext sampleWatched_process rfl), rfl, ?_, ?_⟩
  · dsimp only
    decide +kernel
  · dsimp only
    decide +kernel

end Sample

end FabricXSdk.Network

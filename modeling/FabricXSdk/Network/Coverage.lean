import FabricXSdk.Network.Resume

/-!
# Which handlers have seen a block

The loop resumes after the last block of the store. A handler that stands after the
store and fails on a block leaves the store advanced, and that block is not delivered
to it again. As long as no handler after the store fails, every handler has returned
nil for every delivered block up to `BlockNumber`.

`BlockNumber` is zero for an empty store as well. So no handler may fail on block zero
before all of them have returned nil for it, wherever it stands.
-/

namespace FabricXSdk.Network

open Golang Blocks State Transition

variable {p : Setup}

/-- Every handler of the chain has returned nil for the block. -/
def Handled (p : Setup) (node : Node) (m : ℕ) : Prop :=
  ∀ i < p.handlers, (i, m) ∈ node.returned

/-- Every delivered block up to `BlockNumber` has been handled. -/
def Covered (p : Setup) (node : Node) : Prop :=
  ∀ last, blockNumber p.channel none node.db = .ok last →
    ∀ m ∈ node.delivered, m ≤ last → Handled p node m

/-- What the handler depends on does not fail in this call. -/
def Fate.Clear (fate : Fate) (i : ℕ) : Prop := ∀ err rest, fate.driver i ≠ some err :: rest

/-- No handler behind the store fails in this call. -/
def Fate.ClearBehind (fate : Fate) (p : Setup) : Prop :=
  ∀ i, p.position < i → i < p.handlers → fate.Clear i

/-- The block parses, its rows meet no others, and the database does not fail. -/
def Accepts (p : Setup) (fate : Fate) (n : ℕ) (node : Node) : Prop :=
  ∃ b, p.parse fate.now (p.chain n) = .ok b ∧
    Takes p.channel (fate.driver p.position) node.db b

instance (p : Setup) (fate : Fate) (n : ℕ) (node : Node) : Decidable (Accepts p fate n node) :=
  match hparse : p.parse fate.now (p.chain n) with
  | .ok b =>
      decidable_of_iff (Takes p.channel (fate.driver p.position) node.db b)
        ⟨fun h => ⟨b, hparse, h⟩, fun ⟨_, hparse', h⟩ =>
          Outcome.ok.inj (hparse'.symm.trans hparse) ▸ h⟩
  | .error _ => isFalse fun ⟨_, hparse', _⟩ => nomatch hparse'.symm.trans hparse
  | .panic => isFalse fun ⟨_, hparse', _⟩ => nomatch hparse'.symm.trans hparse

/-- Neither the store nor any other handler fails on the block. -/
def Smooth (p : Setup) (fate : Fate) (n : ℕ) (node : Node) : Prop :=
  Accepts p fate n node ∧ ∀ i < p.handlers, i ≠ p.position → fate.Clear i

/-- In a call to `ProcessBlock` no handler after the store fails. None fails on block zero
as long as some handler has not returned nil for it. -/
def NoLateFailure (p : Setup) (s : System Node) (a : Label Fate) : Prop :=
  ∀ fate, a = .process fate →
    fate.ClearBehind p ∧
    (s.sync.pc = .streaming 0 → Handled p s.store 0 ∨ Smooth p fate 0 s.store)

/-- The invariant of a run without late failures. -/
structure Complete (p : Setup) (s : System Node) (bs : List Block) : Prop
    extends Synced p s bs where
  handled : ∀ m < bs.length, Handled p s.store m
  zero : 0 ∈ s.store.delivered → Handled p s.store 0

theorem complete_init (p : Setup) : Complete p Setup.init [] where
  toSynced := synced_init p
  handled := by simp
  zero := by simp [Setup.init]

theorem Handled.mono {node node' : Node} {m : ℕ} {more : List (ℕ × ℕ)} (h : Handled p node m)
    (hreturned : node'.returned = node.returned ++ more) : Handled p node' m := by
  intro i hi
  rw [hreturned, List.mem_append]
  exact Or.inl (h i hi)

/-- A call without error has every handler return nil. -/
theorem Ran.handled {fate : Fate} {n j : ℕ} {bs bs' : List Block} {node node' : Node} {ok : Prop}
    (h : Ran p fate n 0 j p.handlers bs bs' node node' ok) (hok : ok) : Handled p node' n := by
  intro i hi
  rw [h.returned, h.ok_iff.mp hok, List.mem_append, List.mem_map]
  exact Or.inr ⟨i, by simpa [List.mem_range'_1] using hi, rfl⟩

/-- A call that has stored the block ends without an error if no later handler fails. -/
theorem Ran.ok_of_stored {fate : Fate} {n j : ℕ} {bs bs' : List Block} {node node' : Node}
    {ok : Prop} (h : Ran p fate n 0 j p.handlers bs bs' node node' ok)
    (hlate : fate.ClearBehind p) (hj : p.position < j) : ok := by
  rcases Nat.lt_or_eq_of_le h.le with hlt | heq
  · obtain ⟨err, rest, hdriver⟩ := h.failed hlt (by omega)
    rw [Nat.zero_add] at hdriver
    exact absurd hdriver (hlate j hj hlt err rest)
  · exact h.ok_iff.mpr heq

theorem runHandlers_ok {fate : Fate} {b : Block} (k i : ℕ) {node : Node}
    (hclear : ∀ x, i ≤ x → x < i + k → x ≠ p.position → fate.Clear x)
    (hstore : i ≤ p.position → Takes p.channel (fate.driver p.position) node.db b) :
    (runHandlers ((List.range' i k).map (p.handlerAt fate)) b node).1 = .ok () := by
  induction k generalizing i node with
  | zero => rfl
  | succ k ih =>
      rw [List.range'_succ, List.map_cons, runHandlers]
      rcases handlerAt_cases p fate i b node with ⟨err, hrun, hfail⟩ | ⟨db, hrun, _, hother⟩
      · exfalso
        by_cases hi : i = p.position
        · have hupdate := updateWorldState_iff.mpr ⟨hstore hi.le, rfl⟩
          simp only [Setup.handlerAt, recorded, if_pos hi, storeHandler] at hrun
          rw [hi, hupdate] at hrun
          cases hrun
        · obtain ⟨e, rest, hdriver⟩ := hfail hi
          exact hclear i (le_refl i) (by omega) hi e rest hdriver
      · rw [hrun]
        apply ih (i + 1)
        · intro x hlow hhigh hx
          exact hclear x (by omega) (by omega) hx
        · intro hle
          rw [hother (by omega)]
          exact hstore (by omega)

/-- `ProcessBlock` ends without an error if nothing it does fails. -/
theorem Smooth.ok {fate : Fate} {n : ℕ} {node : Node} (h : Smooth p fate n node) :
    (p.backend.process fate n node).1 = .ok () := by
  obtain ⟨⟨b, hparse, htakes⟩, hclear⟩ := h
  simp only [Setup.backend, processBlock, hparse, Outcome.lift_eq_ok]
  apply runHandlers_ok p.handlers 0
  · intro i _ hi hne
    exact hclear i (by omega) hne
  · intro _
    exact htakes

theorem Complete.process {s t : System Node} {bs : List Block} {fate : Fate} {n : ℕ}
    {out : Outcome Unit} (hs : Complete p s bs) (hgood : NoLateFailure p s (.process fate))
    (hpc : s.sync.pc = .streaming n) (hout : p.backend.process fate n s.store = (out, t.store))
    (ht : out = .ok () ∧ t.sync.pc = .streaming (n + 1) ∨ out ≠ .ok () ∧ t.sync.pc.Away) :
    ∃ bs', Complete p t bs' := by
  obtain ⟨hlate, hzero⟩ := hgood fate rfl
  obtain ⟨j, bs', hran, hsynced⟩ := hs.toSynced.process hpc hout ht
  have hmono : ∀ m, Handled p s.store m → Handled p t.store m :=
    fun m hm => hm.mono hran.returned
  refine ⟨bs', hsynced, fun m hm => ?_, fun hdelivered => ?_⟩
  · by_cases hj : p.position < j
    · obtain ⟨_, hcase⟩ := hran.stored (Nat.zero_le _) (by omega)
      rcases hcase with rfl | ⟨heq, b, rfl⟩
      · exact hmono m (hs.handled m hm)
      · rw [List.length_append, List.length_singleton] at hm
        rcases Nat.lt_or_ge m bs.length with hlt | hge
        · exact hmono m (hs.handled m hlt)
        -- the block that was added; no later handler failed, so all of them returned nil
        · have hmn : m = n := by omega
          rw [hmn]
          exact hran.handled (hran.ok_of_stored hlate hj)
    · rw [hran.skipped (by omega)] at hm
      exact hmono m (hs.handled m hm)
  · rw [hran.delivered, List.mem_append, List.mem_singleton] at hdelivered
    rcases hdelivered with hbefore | rfl
    · exact hmono 0 (hs.zero hbefore)
    -- block zero counts as soon as it is delivered, since `BlockNumber` is zero before
    · rcases hzero hpc with hhandled | hsmooth
      · exact hmono 0 hhandled
      · have hok := hsmooth.ok
        rw [hout] at hok
        exact hran.handled hok

theorem Complete.step {s t : System Node} {a : Label Fate} {bs : List Block}
    (hs : Complete p s bs) (hgood : NoLateFailure p s a) (h : Step p.backend s a t) :
    ∃ bs', Complete p t bs' := by
  rcases hs.toSynced.step_cases h with ⟨hstore, hsynced⟩ | ⟨fate, n, out, rfl, hpc, hout, ht⟩
  · refine ⟨bs, hsynced, ?_, ?_⟩
    · rw [hstore]
      exact hs.handled
    · rw [hstore]
      exact hs.zero
  · exact hs.process hgood hpc hout ht

/-- In every state of a run without late failures, every handler of the chain has
returned nil for every delivered block up to `BlockNumber`. -/
theorem every_handler_sees_every_block (p : Setup) {s : System Node}
    (h : Reaches (Step p.backend) (NoLateFailure p) Setup.init s) : Covered p s.store := by
  have hinv : ∃ bs, Complete p s bs := by
    apply h.invariant ⟨[], complete_init p⟩
    rintro s a t ⟨bs, hs⟩ hgood hstep
    exact hs.step hgood hstep
  obtain ⟨bs, hs⟩ := hinv
  intro last hlast m hm hle
  have hheight := hs.holds.height hlast
  -- above zero `BlockNumber` is the last block of the store
  rcases Nat.eq_zero_or_pos m with rfl | hpos
  · exact hs.zero hm
  · exact hs.handled m (by omega)

/-- The condition is about calls to `ProcessBlock` only. -/
theorem noLateFailure_internal (p : Setup) (s : System Node) : NoLateFailure p s .internal := nofun

/-- A call in which nothing fails meets the condition. -/
theorem ReachesAt.deliver_of_smooth {s₀ : System Node} {n : ℕ} {st : Node}
    (h : ReachesAt p.backend (NoLateFailure p) s₀ (.streaming n) st) (fate : Fate)
    (hsmooth : Smooth p fate n st) :
    ReachesAt p.backend (NoLateFailure p) s₀ (.streaming (n + 1))
      (p.backend.process fate n st).2 := by
  refine h.deliver fate ?_ hsmooth.ok
  rintro s hpc _ ⟨⟩
  refine ⟨fun i hi hlt => hsmooth.2 i hlt (by omega), fun hzero => Or.inr ?_⟩
  obtain rfl : n = 0 := LoopPc.streaming.inj (hpc.symm.trans hzero)
  exact hsmooth

section Sample

/-- A store with a handler before it. -/
def sampleStoreLast : Setup := sampleSetup 2 1 (by decide)

/-- A store with a handler after it. -/
def sampleStoreFirst : Setup := sampleSetup 2 0 (by decide)

/-- The handler at a position fails, and the others do not. -/
def failAt (i : ℕ) : Fate := ⟨0, fun j => if j = i then [some [.lit "unavailable"]] else []⟩

/-- A handler before the store fails on block one, which is then delivered again. -/
theorem every_handler_sees_every_block_sample :
    ∃ s, Reaches (Step sampleStoreLast.backend) (NoLateFailure sampleStoreLast) Setup.init s ∧
      s.store.delivered = [0, 1, 0, 1] ∧ Covered sampleStoreLast s.store := by
  have hinternal := noLateFailure_internal sampleStoreLast
  have hclear : ∀ i < 2, i ≠ 1 → sampleFate.Clear i := by
    intro i _ _ err rest h
    cases h
  have hstream := (reachesAt_init sampleStoreLast hinternal).connect hinternal 0 rfl
  have hzero := hstream.deliver_of_smooth sampleFate ⟨by decide +kernel, hclear⟩
  have hfailed := hzero.fail hinternal (failAt 0) [.lit "handle: ", .lit "unavailable"]
    (by
      rintro s hpc _ ⟨⟩
      refine ⟨fun i hi hlt => ?_, fun hzero => ?_⟩
      · change 1 < i at hi
        change i < 2 at hlt
        omega
      · rw [hpc] at hzero
        cases hzero)
    (by decide +kernel)
  have hagain := hfailed.connect hinternal 0 (by decide +kernel)
  have hzero' := hagain.deliver_of_smooth sampleFate ⟨by decide +kernel, hclear⟩
  have hone := hzero'.deliver_of_smooth sampleFate ⟨by decide +kernel, hclear⟩
  obtain ⟨s, _, _, hs⟩ := hone
  refine ⟨_, hs, ?_, every_handler_sees_every_block _ hs⟩
  dsimp only
  decide +kernel

/-- A handler after the store fails on block one. The loop then asks for block two. -/
theorem handler_after_store_misses_block :
    ∃ s, Reaches (Step sampleStoreFirst.backend) Free Setup.init s ∧
      s.sync.pc = .streaming 2 ∧ ¬ Covered sampleStoreFirst s.store := by
  have htop := @reachesAt_init sampleStoreFirst Free (fun _ => trivial)
  have hzero := (htop.connect (fun _ => trivial) 0 rfl).deliver sampleFate (fun _ _ => trivial)
    (by decide +kernel)
  have hfailed := hzero.fail (fun _ => trivial) (failAt 1) [.lit "handle: ", .lit "unavailable"]
    (fun _ _ => trivial) (by decide +kernel)
  have htwo := hfailed.connect (fun _ => trivial) 1 (by decide +kernel)
  obtain ⟨s, hpc, _, hs⟩ := htwo
  refine ⟨_, hs, hpc, fun hcovered => ?_⟩
  dsimp only at hcovered
  have hreturned := hcovered 1 (by decide +kernel) 1 (by decide +kernel) le_rfl 1 (by decide)
  revert hreturned
  decide +kernel

end Sample

end FabricXSdk.Network

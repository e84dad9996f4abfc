import FabricXSdk.Network.Delivery
import FabricXSdk.Network.Endorsed

/-!
# Resuming without a gap

`BlockNumber` is zero both for an empty store and after block zero, so the loop may
ask for block zero again, and only for that one. Whatever fails and however often the
loop reconnects or is restarted, the store holds the first blocks of the chain,
applied once each and in order.
-/

namespace FabricXSdk.Network

open Golang Blocks State Transition

section Run

variable {p : Setup}

/-- The blocks the store has accepted, in the order of the calls. -/
def commits (p : Setup) (node : Node) : List ℕ :=
  (node.returned.filter fun e => e.1 = p.position).map Prod.snd

theorem filter_range' (q n i j : ℕ) :
    (((List.range' i j).map fun x => (x, n)).filter fun e => e.1 = q).map Prod.snd =
      if i ≤ q ∧ q < i + j then [n] else [] := by
  induction j generalizing i with
  | zero =>
      rw [if_neg (by omega)]
      rfl
  | succ j ih =>
      rw [List.range'_succ, List.map_cons, List.filter_cons]
      by_cases hi : i = q
      · have hrest := ih (i + 1)
        rw [if_neg (by omega)] at hrest
        rw [if_pos (by simpa using hi), if_pos (by omega), List.map_cons, hrest]
      · rw [if_neg (by simpa using hi), ih]
        by_cases hq : i + 1 ≤ q ∧ q < i + 1 + j
        · rw [if_pos hq, if_pos (by omega)]
        · rw [if_neg hq, if_neg (by omega)]

theorem Ran.commits_eq {fate : Fate} {n j k : ℕ} {bs bs' : List Block} {node node' : Node}
    {ok : Prop} (h : Ran p fate n 0 j k bs bs' node node' ok) :
    commits p node' = commits p node ++ if p.position < j then [n] else [] := by
  rw [commits, h.returned, List.filter_append, List.map_append, filter_range']
  simp [commits]

/-- The loop asks for the next block, or again for block zero while it is the only one. -/
def Positioned (pc : LoopPc) (length : ℕ) : Prop :=
  ∀ n, pc = .subscribing n ∨ pc = .streaming n → n = length ∨ n = 0 ∧ length = 1

/-- A log of block numbers that skips none below a length and repeats none but zero. -/
def Once (log : List ℕ) (length : ℕ) : Prop :=
  ∃ k, log = List.replicate k 0 ++ List.range' 1 (length - 1) ∧ (k = 0 ↔ length = 0)

theorem Once.again {log : List ℕ} (h : Once log 1) : Once (log ++ [0]) 1 := by
  obtain ⟨k, rfl, _⟩ := h
  refine ⟨k + 1, ?_, by simp⟩
  rw [List.replicate_succ']
  simp

theorem Once.next {log : List ℕ} {n : ℕ} (h : Once log n) : Once (log ++ [n]) (n + 1) := by
  obtain ⟨k, rfl, hk⟩ := h
  cases n with
  | zero => exact ⟨1, by simp [hk.mpr rfl], by simp⟩
  | succ n =>
      refine ⟨k, ?_, by simpa using hk⟩
      rw [List.append_assoc]
      change _ ++ (List.range' 1 n ++ [n + 1]) = _ ++ List.range' 1 (n + 1)
      rw [List.range'_concat, Nat.one_mul, Nat.add_comm 1 n]

/-- The invariant of every run. -/
structure Synced (p : Setup) (s : System Node) (bs : List Block) : Prop where
  holds : Holds p s.store.db bs
  positioned : Positioned s.sync.pc bs.length
  once : Once (commits p s.store) bs.length

theorem synced_init (p : Setup) : Synced p Setup.init [] where
  holds := holds_empty p
  positioned := by
    rintro n (h | h) <;> cases h
  once := ⟨0, rfl, by simp⟩

theorem positioned_of_away {pc : LoopPc} (h : pc.Away) (length : ℕ) : Positioned pc length := by
  rintro n (hpc | hpc)
  · exact absurd hpc (h n).1
  · exact absurd hpc (h n).2

/-- A step that leaves the store alone. -/
theorem Synced.keep {s t : System Node} {bs : List Block} (hs : Synced p s bs)
    (hstore : t.store = s.store) (hpc : Positioned t.sync.pc bs.length) : Synced p t bs where
  holds := by
    rw [hstore]
    exact hs.holds
  positioned := hpc
  once := by
    rw [hstore]
    exact hs.once

/-- After a call without error the stream stands behind the last block of the store. -/
theorem Ran.length {fate : Fate} {n j : ℕ} {bs bs' : List Block} {node node' : Node} {ok : Prop}
    (h : Ran p fate n 0 j p.handlers bs bs' node node' ok)
    (hn : n = bs.length ∨ n = 0 ∧ bs.length = 1) (hok : ok) : bs'.length = n + 1 := by
  have hlt := p.position_lt
  have hj : j = p.handlers := h.ok_iff.mp hok
  obtain ⟨hstored, hcase⟩ := h.stored (Nat.zero_le _) (by omega)
  rcases hcase with rfl | ⟨heq, b, rfl⟩
  · omega
  · rw [List.length_append, List.length_singleton, heq]

theorem Ran.once {fate : Fate} {n j : ℕ} {bs bs' : List Block} {node node' : Node} {ok : Prop}
    (h : Ran p fate n 0 j p.handlers bs bs' node node' ok)
    (hn : n = bs.length ∨ n = 0 ∧ bs.length = 1) (honce : Once (commits p node) bs.length) :
    Once (commits p node') bs'.length := by
  rw [h.commits_eq]
  by_cases hj : p.position < j
  · rw [if_pos hj]
    obtain ⟨hstored, hcase⟩ := h.stored (Nat.zero_le _) (by omega)
    rcases hcase with rfl | ⟨rfl, b, rfl⟩
    -- a block that was there already can only be block zero
    · obtain ⟨rfl, hone⟩ : n = 0 ∧ bs'.length = 1 := by omega
      rw [hone] at honce ⊢
      exact honce.again
    · rw [List.length_append, List.length_singleton]
      exact honce.next
  · rw [if_neg hj, List.append_nil, h.skipped (by omega)]
    exact honce

/-- A call to `ProcessBlock` from the position of the stream. -/
theorem Synced.process {s t : System Node} {bs : List Block} {fate : Fate} {n : ℕ}
    {out : Outcome Unit} (hs : Synced p s bs) (hpc : s.sync.pc = .streaming n)
    (hout : p.backend.process fate n s.store = (out, t.store))
    (ht : out = .ok () ∧ t.sync.pc = .streaming (n + 1) ∨ out ≠ .ok () ∧ t.sync.pc.Away) :
    ∃ j bs', Ran p fate n 0 j p.handlers bs bs'
      { s.store with delivered := s.store.delivered ++ [n] } t.store (out = .ok ()) ∧
      Synced p t bs' := by
  have hn := hs.positioned n (Or.inr hpc)
  obtain ⟨j, bs', hran⟩ := @ran_process p fate n s.store bs hs.holds (by omega)
  rw [hout] at hran
  refine ⟨j, bs', hran, hran.holds, ?_, hran.once hn hs.once⟩
  rcases ht with ⟨hok, hnext⟩ | ⟨_, haway⟩
  · rw [hnext, hran.length hn hok]
    rintro m (hm | hm)
    · cases hm
    · cases hm
      exact Or.inl rfl
  · exact positioned_of_away haway _

/-- A step leaves the store and its blocks alone, or is a call to `ProcessBlock`. -/
theorem Synced.step_cases {s t : System Node} {a : Label Fate} {bs : List Block}
    (hs : Synced p s bs) (h : Step p.backend s a t) :
    t.store = s.store ∧ Synced p t bs ∨
      ∃ fate n out, a = .process fate ∧ s.sync.pc = .streaming n ∧
        p.backend.process fate n s.store = (out, t.store) ∧
        (out = .ok () ∧ t.sync.pc = .streaming (n + 1) ∨ out ≠ .ok () ∧ t.sync.pc.Away) := by
  cases step_storeEffect h with
  | away hstore hpc => exact Or.inl ⟨hstore, hs.keep hstore (positioned_of_away hpc _)⟩
  | stay hstore hpc => exact Or.inl ⟨hstore, hs.keep hstore (hpc ▸ hs.positioned)⟩
  | resume fault n hstore hheight hpc =>
      refine Or.inl ⟨hstore, hs.keep hstore ?_⟩
      rw [hpc]
      rintro m (hm | hm)
      · cases hm
        -- the height comes from the store, so the loop asks for the block behind it
        exact hs.holds.startBlock hheight
      · cases hm
  | subscribed n hstore hpc hpc' =>
      refine Or.inl ⟨hstore, hs.keep hstore ?_⟩
      rw [hpc']
      rintro m (hm | hm)
      · cases hm
      · cases hm
        exact hs.positioned n (Or.inl hpc)
  | processed fate n out ha hpc hout ht => exact Or.inr ⟨fate, n, out, ha, hpc, hout, ht⟩

theorem Synced.step {s t : System Node} {a : Label Fate} {bs : List Block} (hs : Synced p s bs)
    (h : Step p.backend s a t) : ∃ bs', Synced p t bs' := by
  rcases hs.step_cases h with ⟨_, hsynced⟩ | ⟨fate, n, out, _, hpc, hout, ht⟩
  · exact ⟨bs, hsynced⟩
  · obtain ⟨_, bs', _, hsynced⟩ := hs.process hpc hout ht
    exact ⟨bs', hsynced⟩

/-- In every state that any run reaches, the store has the content of the first blocks
of the chain, applied to an empty store once each and in order. It has accepted them
in that order too, where only block zero may have been accepted more than once. -/
theorem store_follows_chain (p : Setup) {s : System Node}
    (h : Reaches (Step p.backend) Free Setup.init s) :
    ∃ bs : List Block, (∀ i b, bs[i]? = some b → ∃ now, p.parse now (p.chain i) = .ok b) ∧
      bs.foldlM (updateWorldState p.channel []) Database.empty = .ok s.store.db ∧
      Once (commits p s.store) bs.length ∧
      blockNumber p.channel none s.store.db = .ok (bs.length - 1) := by
  have hinv : ∃ bs, Synced p s bs := by
    apply h.invariant ⟨[], synced_init p⟩
    rintro s a t ⟨bs, hs⟩ _ hstep
    exact hs.step hstep
  obtain ⟨bs, hs⟩ := hinv
  refine ⟨bs, hs.holds.parsed, hs.holds.content, hs.once, ?_⟩
  have hheight : blockNumber p.channel none s.store.db = .ok _ := rfl
  rw [hheight, hs.holds.height hheight]

end Run

section Loop

variable {σ Fate : Type} {b : Backend σ Fate} {Good : System σ → Label Fate → Prop}
  {s₀ : System σ} {st : σ}

/-- A run that has brought the loop to a position, with a context that is not done. -/
def ReachesAt (b : Backend σ Fate) (Good : System σ → Label Fate → Prop) (s₀ : System σ)
    (pc : LoopPc) (st : σ) : Prop :=
  ∃ s : Sync, s.pc = pc ∧ s.ctxDone = false ∧ Reaches (Step b) Good s₀ ⟨s, st⟩

/-- A new synchronizer starts its loop. -/
theorem ReachesAt.start (hgood : ∀ s, Good s .internal)
    (h : Reaches (Step b) Good s₀ ⟨Sync.init, st⟩) : ReachesAt b Good s₀ .top st :=
  ⟨_, rfl, rfl, h.step (hgood _) (Step.start rfl)⟩

theorem reachesAt_init (p : Setup) {Good : System Node → Label Network.Fate → Prop}
    (hgood : ∀ s, Good s .internal) :
    ReachesAt p.backend Good Setup.init .top ⟨Database.empty, [], []⟩ :=
  ReachesAt.start hgood Reaches.refl

/-- The loop reads the height and subscribes. -/
theorem ReachesAt.connect (hgood : ∀ s, Good s .internal) (h : ReachesAt b Good s₀ .top st)
    (last : ℕ) (hheight : b.height none st = .ok last) :
    ReachesAt b Good s₀ (.streaming (startBlock last)) st := by
  obtain ⟨s, hpc, hdone, hs⟩ := h
  have hread := (hs.step (hgood _) (Step.proceed hpc hdone)).step (hgood _)
    (Step.readHeight rfl hheight)
  refine ⟨_, rfl, ?_, hread.step (hgood _) (Step.subscribe rfl)⟩
  simpa using hdone

/-- A block is processed without an error. -/
theorem ReachesAt.deliver {n : ℕ} (h : ReachesAt b Good s₀ (.streaming n) st) (fate : Fate)
    (hgood : ∀ s : Sync, s.pc = .streaming n → Good ⟨s, st⟩ (.process fate))
    (hok : (b.process fate n st).1 = .ok ()) :
    ReachesAt b Good s₀ (.streaming (n + 1)) (b.process fate n st).2 := by
  obtain ⟨s, hpc, hdone, hs⟩ := h
  refine ⟨{ s with pc := .streaming (n + 1) }, rfl, hdone, ?_⟩
  exact hs.step (hgood s hpc) (Step.deliver hpc (Prod.ext hok rfl))

/-- Processing a block fails, and the loop comes back to its top after the backoff. -/
theorem ReachesAt.fail {n : ℕ} (hinternal : ∀ s, Good s .internal)
    (h : ReachesAt b Good s₀ (.streaming n) st) (fate : Fate) (err : Text)
    (hgood : ∀ s : Sync, s.pc = .streaming n → Good ⟨s, st⟩ (.process fate))
    (herr : (b.process fate n st).1 = .error err) :
    ReachesAt b Good s₀ .top (b.process fate n st).2 := by
  obtain ⟨s, hpc, hdone, hs⟩ := h
  have hfailed := hs.step (hgood s hpc) (Step.processFailed hpc (Prod.ext herr rfl))
  have hsleeping := (hfailed.step (hinternal _) (Step.persist rfl hdone)).step (hinternal _)
    (Step.retry rfl)
  refine ⟨_, rfl, ?_, hsleeping.step (hinternal _) (Step.wake rfl)⟩
  simpa using hdone

end Loop

section Sample

def sampleCommitterCodes : Blocks.FabricX.CommitterCodes where
  committed := 1
  statusUnspecified := 0
  abortedSignatureInvalid := 2
  abortedMvccConflict := 3
  rejectedDuplicateTxId := 4
  string := fun _ => []
  distinct := by decide

/-- A Fabric-X chain with one transaction, in block one. -/
def sampleSetup (handlers position : ℕ) (h : position < handlers) : Setup where
  codecs := Proto.Codecs.protobuf
  hash := fun _ => []
  parser := Blocks.FabricX.parser Proto.Codecs.protobuf sampleCommitterCodes
  channel := [99]
  handlers := handlers
  position := position
  position_lt := h
  chain := fun n =>
    { header := some ⟨n, [], []⟩
      data := some (if n = 1 then [Proto.envelopeBody.encode FabricX.sampleEnvelope] else [])
      metadata := some [[], [], [1]] }
  chain_number := fun n => ⟨⟨n, [], []⟩, rfl, rfl⟩

def sampleFate : Fate := ⟨0, fun _ => []⟩

/-- The synchronizer is replaced after block zero, which is then delivered again. -/
theorem store_follows_chain_sample :
    ∃ s, Reaches (Step (sampleSetup 1 0 (by decide)).backend) Free Setup.init s ∧
      commits (sampleSetup 1 0 (by decide)) s.store = [0, 0, 1] ∧
      s.store.db.worldstate.length = 3 ∧
      ∃ bs : List Block, bs.foldlM (updateWorldState [99] []) Database.empty = .ok s.store.db ∧
        Once (commits (sampleSetup 1 0 (by decide)) s.store) bs.length := by
  have htop := @reachesAt_init (sampleSetup 1 0 (by decide)) Free (fun _ => trivial)
  have hzero := (htop.connect (fun _ => trivial) 0 rfl).deliver sampleFate (fun _ _ => trivial)
    (by decide +kernel)
  obtain ⟨_, _, _, hstopped⟩ := hzero
  have htop' := ReachesAt.start (fun _ => trivial) (hstopped.step trivial Step.restart)
  have hzero' := (htop'.connect (fun _ => trivial) 0 rfl).deliver sampleFate (fun _ _ => trivial)
    (by decide +kernel)
  have hone := hzero'.deliver sampleFate (fun _ _ => trivial) (by decide +kernel)
  obtain ⟨s, _, _, hs⟩ := hone
  obtain ⟨bs, _, hcontent, honce, _⟩ := store_follows_chain (sampleSetup 1 0 (by decide)) hs
  refine ⟨_, hs, ?_, ?_, bs, hcontent, honce⟩
  · dsimp only
    decide +kernel
  · dsimp only
    decide +kernel

end Sample

end FabricXSdk.Network

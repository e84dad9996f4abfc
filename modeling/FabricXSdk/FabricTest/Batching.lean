import FabricXSdk.FabricTest.Chain
import FabricXSdk.Lib.Transition

/-!
# The batching loop of the test orderer

One goroutine collects the envelopes that arrive into a batch and cuts it into a block when
the batch is large enough or its timer expires. Requests for an empty block and for a
revert go through the same loop.

## Implementation notes

A label is one turn of the loop, with what `process` meets outside the ledger in it. The
loop panics if `process` fails for a batch, which is no step. The state also records what
has arrived, and the blocks and the dropped batches in the order in which the loop was done
with them.
-/

namespace FabricXSdk.FabricTest

open Golang Transition

/-- The part of `Config` that the loop reads. -/
structure Config where
  /-- A duration, possibly negative. -/
  blockCutTime : Int
  maxTxPerBlock : Int

/-- A timer that will deliver its expiry, or whose expiry was received. -/
inductive Timer
  | running (d : Int)
  | received
  deriving DecidableEq, Repr

inductive LogEntry
  /-- The block that `flush` made of the batch. -/
  | flushed (block : Proto.Block)
  /-- The block of a request for an empty one. -/
  | cut (block : Proto.Block)
  /-- The batch that was waiting when a revert came in. -/
  | dropped (batch : List Proto.Envelope)

structure BatchingLoop where
  ledger : Ledger
  batch : List Proto.Envelope
  timer : Option Timer
  stopped : Bool
  arrived : List Proto.Envelope
  log : List LogEntry

/-- The loop on a ledger, before its first turn. -/
def BatchingLoop.start (l : Ledger) : BatchingLoop := ⟨l, [], none, false, [], []⟩

inductive LoopEvent
  | arrive (env : Env) (envelope : Proto.Envelope)
  | expire (env : Env)
  | cut (env : Env)
  | revert (num : ℕ)
  | stop

/-- `flush` cuts a block, unless the batch is empty. -/
def BatchingLoop.flush (net : Network) (env : Env) (o : BatchingLoop) : Outcome BatchingLoop :=
  if o.batch = [] then .ok o
  else
    match net.process env o.ledger o.batch with
    | (.ok _, l') => do
        let block ← Outcome.deref l'.blocks.getLast?
        pure { o with ledger := l', batch := [], timer := none, log := o.log ++ [.flushed block] }
    | _ => .panic

/-- The batch with one more envelope, and the timer that the first one starts. -/
def BatchingLoop.append (cfg : Config) (o : BatchingLoop) (e : Proto.Envelope) : BatchingLoop :=
  { o with
    batch := o.batch ++ [e]
    timer := if (o.batch ++ [e]).length = 1 ∧ 0 < cfg.blockCutTime then
        some (.running cfg.blockCutTime) else o.timer
    arrived := o.arrived ++ [e] }

/-- The batch is to be cut at once. -/
def BatchingLoop.Full (cfg : Config) (o : BatchingLoop) : Prop :=
  cfg.blockCutTime = 0 ∨ 0 < cfg.maxTxPerBlock ∧ cfg.maxTxPerBlock ≤ o.batch.length

instance (cfg : Config) (o : BatchingLoop) : Decidable (o.Full cfg) :=
  inferInstanceAs (Decidable (_ ∨ _))

/-- The cases of the `select`, `none` for one that is not ready. -/
def BatchingLoop.turn (net : Network) (cfg : Config) (o : BatchingLoop) :
    LoopEvent → Option (Outcome BatchingLoop)
  | .arrive env e =>
      let o := o.append cfg e
      if o.Full cfg then some (o.flush net env) else some (.ok o)
  | .expire env =>
      match o.timer with
      | some (.running _) => some (BatchingLoop.flush net env { o with timer := some .received })
      | _ => none
  | .cut env =>
      match net.process env o.ledger [] with
      | (.ok _, l') => some do
          let block ← Outcome.deref l'.blocks.getLast?
          pure { o with ledger := l', log := o.log ++ [.cut block] }
      | (.error _, l') => some (.ok { o with ledger := l' })
      | (.panic, _) => some .panic
  | .revert num =>
      some (.ok { o with
        ledger := (o.ledger.truncate num).2
        batch := []
        timer := none
        log := o.log ++ [.dropped o.batch] })
  | .stop => some (.ok { o with stopped := true })

def BatchingLoop.step (net : Network) (cfg : Config) (o : BatchingLoop) (e : LoopEvent) :
    Option BatchingLoop :=
  if o.stopped then none
  else
    match o.turn net cfg e with
    | some (.ok o') => some o'
    | _ => none

/-- Steps of the loop. -/
def LoopStep (net : Network) (cfg : Config) (o : BatchingLoop) (e : LoopEvent)
    (o' : BatchingLoop) : Prop :=
  o.step net cfg e = some o'

/-- The envelopes that an entry accounts for. -/
def LogEntry.data (net : Network) : LogEntry → List Bytes
  | .flushed block => block.data.getD []
  | .cut block => block.data.getD []
  | .dropped batch => net.dataOf batch

/-- What the configuration says of the blocks that are cut from a batch. -/
structure CutBy (cfg : Config) (data : List Bytes) : Prop where
  nonempty : data ≠ []
  limit : 0 < cfg.maxTxPerBlock → (data.length : Int) ≤ cfg.maxTxPerBlock
  single : cfg.blockCutTime = 0 → data.length = 1

/-- A block from `flush` fits the configuration, and one that was asked for is empty. -/
def LogEntry.Ok (cfg : Config) : LogEntry → Prop
  | .flushed block => ∃ data, block.data = some data ∧ CutBy cfg data
  | .cut block => block.data = some []
  | .dropped _ => True

/-- The blocks, the batches where they were dropped, and the batch are what has arrived. -/
structure Accounts (net : Network) (cfg : Config) (o : BatchingLoop) : Prop where
  arrived : o.log.flatMap (LogEntry.data net) ++ net.dataOf o.batch = net.dataOf o.arrived
  entries : ∀ entry ∈ o.log, entry.Ok cfg

/-- No envelope is lost, invented or moved, and none waits without a timer. -/
structure Conserves (net : Network) (cfg : Config) (o : BatchingLoop) : Prop
    extends Accounts net cfg o where
  timer : o.batch ≠ [] → 0 < cfg.blockCutTime → o.timer = some (.running cfg.blockCutTime)

section Loop

variable {net : Network} {cfg : Config} {o o' : BatchingLoop} {env : Env}

@[simp] theorem dataOf_nil : net.dataOf [] = [] := rfl

@[simp] theorem dataOf_append (batch batch' : List Proto.Envelope) :
    net.dataOf (batch ++ batch') = net.dataOf batch ++ net.dataOf batch' :=
  List.map_append

/-- What holds between two turns of the loop. -/
structure LoopInv (net : Network) (cfg : Config) (o : BatchingLoop) : Prop
    extends Conserves net cfg o where
  /-- Without a cut time nothing waits. -/
  immediate : cfg.blockCutTime = 0 → o.batch = []
  below : 0 < cfg.maxTxPerBlock → (o.batch.length : Int) < cfg.maxTxPerBlock

/-- What holds when `flush` is called. -/
structure Flushable (net : Network) (cfg : Config) (o : BatchingLoop) : Prop
    extends Accounts net cfg o where
  single : cfg.blockCutTime = 0 → o.batch.length ≤ 1
  limit : 0 < cfg.maxTxPerBlock → (o.batch.length : Int) ≤ cfg.maxTxPerBlock

/-- An entry accounts for what leaves the batch with it. -/
theorem Accounts.log (h : Accounts net cfg o) (entry : LogEntry) (hok : entry.Ok cfg)
    (hlog : o'.log = o.log ++ [entry]) (harrived : o'.arrived = o.arrived)
    (hbatch : entry.data net ++ net.dataOf o'.batch = net.dataOf o.batch) :
    Accounts net cfg o' where
  arrived := by
    rw [hlog, harrived, ← h.arrived, ← hbatch, List.flatMap_append, List.flatMap_singleton,
      List.append_assoc]
  entries := by
    intro entry' hentry'
    rw [hlog] at hentry'
    rcases List.mem_append.mp hentry' with hentry' | hentry'
    · exact h.entries entry' hentry'
    · rw [List.mem_singleton.mp hentry']
      exact hok

/-- The three results of `flush`: nothing to do, a block, or a panic. -/
theorem flush_eq_ok (h : o.flush net env = .ok o') :
    o.batch = [] ∧ o' = o ∨ o.batch ≠ [] ∧ ∃ l' block, block.data = some (net.dataOf o.batch) ∧
      o' = { o with
        ledger := l', batch := [], timer := none, log := o.log ++ [.flushed block] } := by
  rw [BatchingLoop.flush] at h
  split at h
  · rename_i hempty
    cases h
    exact Or.inl ⟨hempty, rfl⟩
  · rename_i hne
    split at h
    · rename_i u l' hprocess
      obtain ⟨block, hblocks, hdata⟩ := process_appends hprocess
      rw [hblocks, List.getLast?_concat] at h
      cases h
      exact Or.inr ⟨hne, l', block, hdata, rfl⟩
    · cases h

theorem Flushable.cutBy (h : Flushable net cfg o) (hne : o.batch ≠ []) :
    CutBy cfg (net.dataOf o.batch) := by
  have hlength : (net.dataOf o.batch).length = o.batch.length := List.length_map ..
  refine ⟨fun hnil => hne (List.map_eq_nil_iff.mp hnil), fun hmax => ?_, fun hzero => ?_⟩
  · rw [hlength]
    exact h.limit hmax
  · have hpos := List.length_pos_iff.mpr hne
    have hsingle := h.single hzero
    omega

theorem Flushable.flush (h : Flushable net cfg o) (hflush : o.flush net env = .ok o') :
    LoopInv net cfg o' := by
  rcases flush_eq_ok hflush with ⟨hempty, rfl⟩ | ⟨hne, l', block, hdata, rfl⟩
  · refine ⟨⟨h.toAccounts, fun hne => absurd hempty hne⟩, fun _ => hempty, fun hmax => ?_⟩
    rw [hempty]
    exact hmax
  · refine ⟨⟨?_, fun hne => absurd rfl hne⟩, fun _ => rfl, fun hmax => hmax⟩
    refine h.toAccounts.log (.flushed block) ⟨_, hdata, h.cutBy hne⟩ rfl rfl ?_
    simp [LogEntry.data, hdata]

theorem LoopInv.flushable_append (h : LoopInv net cfg o) (e : Proto.Envelope) :
    Flushable net cfg (o.append cfg e) where
  arrived := by
    rw [BatchingLoop.append, dataOf_append, dataOf_append, ← List.append_assoc, h.arrived]
  entries := h.entries
  single := by
    intro hzero
    rw [BatchingLoop.append, h.immediate hzero]
    rfl
  limit := by
    intro hmax
    have hbelow := h.below hmax
    rw [BatchingLoop.append, List.length_append, List.length_singleton]
    omega

/-- The first envelope of a batch starts the timer, the others find it running. -/
theorem LoopInv.timer_append (h : LoopInv net cfg o) (e : Proto.Envelope)
    (hpos : 0 < cfg.blockCutTime) :
    (o.append cfg e).timer = some (.running cfg.blockCutTime) := by
  rw [BatchingLoop.append]
  split
  · rfl
  · rename_i hnot
    apply h.timer _ hpos
    rintro hempty
    rw [hempty] at hnot
    exact hnot ⟨rfl, hpos⟩

theorem LoopInv.arrive (h : LoopInv net cfg o) {e : Proto.Envelope}
    (hfull : ¬ (o.append cfg e).Full cfg) : LoopInv net cfg (o.append cfg e) := by
  rw [BatchingLoop.Full, not_or, not_and, not_le] at hfull
  exact ⟨⟨(h.flushable_append e).toAccounts, fun _ => h.timer_append e⟩,
    fun hzero => absurd hzero hfull.1, hfull.2⟩

theorem LoopInv.flushable_received (h : LoopInv net cfg o) :
    Flushable net cfg { o with timer := some .received } where
  toAccounts := ⟨h.arrived, h.entries⟩
  single := by
    intro hzero
    rw [h.immediate hzero]
    exact Nat.zero_le 1
  limit := fun hmax => (h.below hmax).le

/-- An empty block overtakes the batch, which keeps its timer. -/
theorem LoopInv.cutBlock (h : LoopInv net cfg o) {block : Proto.Block} {l' : Ledger}
    (hdata : block.data = some []) :
    LoopInv net cfg { o with ledger := l', log := o.log ++ [.cut block] } := by
  refine ⟨⟨h.toAccounts.log (.cut block) hdata rfl rfl ?_, h.timer⟩, h.immediate, h.below⟩
  simp [LogEntry.data, hdata]

theorem LoopInv.revert (h : LoopInv net cfg o) (l' : Ledger) :
    LoopInv net cfg { o with
      ledger := l', batch := [], timer := none, log := o.log ++ [.dropped o.batch] } := by
  refine ⟨⟨?_, fun hne => absurd rfl hne⟩, fun _ => rfl, fun hmax => hmax⟩
  exact h.toAccounts.log (.dropped o.batch) trivial rfl rfl (List.append_nil _)

theorem step_eq_some {e : LoopEvent} (h : LoopStep net cfg o e o') :
    o.turn net cfg e = some (.ok o') := by
  rw [LoopStep, BatchingLoop.step] at h
  split at h
  · cases h
  · split at h
    · rename_i hturn
      cases h
      exact hturn
    · cases h

theorem LoopInv.step {e : LoopEvent} (h : LoopInv net cfg o) (hstep : LoopStep net cfg o e o') :
    LoopInv net cfg o' := by
  have hturn := step_eq_some hstep
  cases e with
  | arrive env e =>
      simp only [BatchingLoop.turn] at hturn
      split at hturn
      · exact (h.flushable_append e).flush (Option.some.inj hturn)
      · rename_i hfull
        cases hturn
        exact h.arrive hfull
  | expire env =>
      rw [BatchingLoop.turn] at hturn
      split at hturn
      · exact h.flushable_received.flush (Option.some.inj hturn)
      · cases hturn
  | cut env =>
      rw [BatchingLoop.turn] at hturn
      split at hturn
      · rename_i u l' hprocess
        obtain ⟨block, hblocks, hdata⟩ := process_appends hprocess
        rw [hblocks, List.getLast?_concat] at hturn
        cases hturn
        exact h.cutBlock hdata
      · cases hturn
        exact ⟨⟨⟨h.arrived, h.entries⟩, h.timer⟩, h.immediate, h.below⟩
      · cases hturn
  | revert num =>
      cases hturn
      exact h.revert _
  | stop =>
      cases hturn
      exact ⟨⟨⟨h.arrived, h.entries⟩, h.timer⟩, h.immediate, h.below⟩

theorem start_inv (l : Ledger) : LoopInv net cfg (.start l) where
  arrived := rfl
  entries := nofun
  timer := fun hne => absurd rfl hne
  immediate := fun _ => rfl
  below := fun hmax => hmax

/-- Whatever the configuration, and whatever the loop meets, envelopes are conserved. -/
theorem batching_conserves {l : Ledger} (h : Reaches (LoopStep net cfg) Free (.start l) o) :
    Conserves net cfg o :=
  (h.invariant (start_inv l) fun _ _ _ hinv _ hstep => hinv.step hstep).toConserves

end Loop

section Sample

def sampleArrival : Proto.Envelope := ⟨[], [7]⟩

/-- A batch that the limit cuts with an empty block in between, one that is dropped, and
one that waits. -/
def sampleTurns : List LoopEvent :=
  [.arrive sampleEnv sampleArrival, .cut sampleEnv, .arrive sampleEnv sampleArrival,
    .arrive sampleEnv sampleArrival, .revert 1, .arrive sampleEnv sampleArrival]

theorem batching_conserves_sample :
    ∃ o, sampleTurns.foldlM (BatchingLoop.step sampleFabric ⟨5, 2⟩)
        (.start (sampleLedger none)) = some o ∧
      o.log.map (fun entry => (entry.data sampleFabric).length) = [0, 2, 1] ∧
      o.timer = some (.running 5) ∧ Conserves sampleFabric ⟨5, 2⟩ o := by
  have hrun : (sampleTurns.foldlM (BatchingLoop.step sampleFabric ⟨5, 2⟩)
      (.start (sampleLedger none))).map (fun o =>
        (o.log.map (fun entry => (entry.data sampleFabric).length), o.timer)) =
      some ([0, 2, 1], some (.running 5)) := by
    rfl
  obtain ⟨o, ho, hpair⟩ := Option.map_eq_some_iff.mp hrun
  obtain ⟨hlog, htimer⟩ := Prod.mk.inj hpair
  exact ⟨o, ho, hlog, htimer, batching_conserves (Reaches.of_foldlM sampleTurns ho)⟩

end Sample

end FabricXSdk.FabricTest

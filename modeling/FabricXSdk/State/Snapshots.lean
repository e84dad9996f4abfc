import FabricXSdk.State.Replay
import FabricXSdk.State.Simulation

/-!
# Snapshots are stable

A snapshot of the versioned store is no copy: it is a height, and every read through
it is a query of the tables bounded by that height. Blocks that come later have
greater numbers or have been applied before, so the rows a view sees do not change.

## Implementation notes

An empty store and a store that holds block zero give the same height, so a view of
the empty store would take in the writes of block zero if it had any.
-/

namespace FabricXSdk.State

open Golang Blocks Atomic VersionLog

/-- `Snapshot`: the height the view is pinned to. -/
def snapshot (channel : GoString) (fault : Option Text) (db : Database) : Except Text ℕ :=
  blockNumber channel fault db

/-- `SnapshotAt`. A block above the current height is capped at it. -/
def snapshotAt (channel : GoString) (fault : Option Text) (db : Database) (block : ℕ) :
    Except Text ℕ :=
  match blockNumber channel fault db with
  | .error err => .error err
  | .ok n => .ok (min block n)

/-- A block that can come after the blocks of a log: it is above all blocks of its
channel, or is one of them again. -/
def Follows (channel : GoString) (log : List (GoString × Block)) (b : Block) : Prop :=
  (∀ a, (channel, a) ∈ log → a.number < b.number) ∨
    ∃ a, (channel, a) ∈ log ∧ b.number = a.number ∧ b.transactions = a.transactions

/-- The blocks of a channel come in order. -/
def InSequence (channel : GoString) (log : List (GoString × Block)) : Prop :=
  ∀ pre b post, log = pre ++ (channel, b) :: post → Follows channel pre b

/-- No valid transaction of the block writes anything. -/
def Writeless (b : Block) : Prop :=
  ∀ tx ∈ b.transactions, tx.valid = true → ∀ n ∈ tx.nsRWS, n.rws.writes = []

/-- The blocks of the channel that are applied after a view was opened. -/
structure Later (channel : GoString) (log later : List (GoString × Block)) : Prop where
  follows : ∀ b, (channel, b) ∈ later → Follows channel log b
  zero : ∀ b, (channel, b) ∈ later → b.number = 0 → Writeless b

/-- The tables after the blocks of the channel up to a number, and no others. -/
def asOf (channel : GoString) (log : List (GoString × Block)) (n : ℕ) : Database :=
  (log.filter fun e => e.1 = channel ∧ e.2.number ≤ n).foldl
    (fun db e => applied channel db e.2) Database.empty

/-- The rows of a key that a view at height `n` sees. -/
def rowsUpTo (channel : GoString) (db : Database) (n : ℕ) (ns key : GoString) : List Row :=
  (db.rowsOf channel ns key).filter fun r => r.versionBlock ≤ n

/-- A view at height `n`, opened after the updates of `log`: it reads the same in both
databases, and what it reads is the state as of block `n`. -/
structure Pinned (channel : GoString) (log : List (GoString × Block)) (db db' : Database)
    (n : ℕ) : Prop where
  same : ∀ fault ns key,
    versionedSnapshot channel db' n fault ns key = versionedSnapshot channel db n fault ns key
  state : ∀ ns key,
    versionedSnapshot channel db n none ns key = get channel none (asOf channel log n) ns key

section Log

variable {channel : GoString} {db : Database} {log : List (GoString × Block)}

theorem InSequence.of_append {later : List (GoString × Block)}
    (h : InSequence channel (log ++ later)) : InSequence channel log := by
  rintro pre b post rfl
  exact h pre b (post ++ later) (by simp)

/-- The last update of a log, and the database before it. -/
theorem Reached.last {db' : Database} {e : GoString × Block} (h : Reached db' (log ++ [e])) :
    ∃ db driver, Reached db log ∧ updateWorldState e.1 driver db e.2 = .ok db' := by
  generalize hl : log ++ [e] = l at h
  cases h with
  | empty => simp at hl
  | update run hupdate =>
      obtain ⟨rfl, hlast⟩ := List.append_inj' hl rfl
      cases List.singleton_inj.mp hlast
      exact ⟨_, _, run, hupdate⟩

/-- The updates of a log lead to one database. -/
theorem Reached.unique {db' : Database} (h : Reached db log) (h' : Reached db' log) : db' = db := by
  induction h generalizing db' with
  | empty =>
      generalize hl : ([] : List (GoString × Block)) = l at h'
      cases h' with
      | empty => rfl
      | update _ _ => simp at hl
  | update _ hupdate ih =>
      obtain ⟨db₁, _, run', hupdate'⟩ := h'.last
      rw [(updateWorldState_ok hupdate').2.2, (updateWorldState_ok hupdate).2.2, ih run']

/-- A stored row belongs to a block of the log. -/
theorem Reached.block_of_row (h : Reached db log) {ns key : GoString} {x : Row}
    (hx : x ∈ db.rowsOf channel ns key) : ∃ b, (channel, b) ∈ log ∧ x.versionBlock = b.number := by
  induction h with
  | empty => cases hx
  | @update db₀ db₁ log₀ channel' driver b _ hupdate ih =>
      obtain ⟨hmem, hkey⟩ := (mem_ofKey rowSchema).mp hx
      rw [(updateWorldState_ok hupdate).2.2, applied_worldstate] at hmem
      rcases mem_insertAll rowSchema hmem with hold | ⟨r, hr, hsame, hstamp⟩
      · obtain ⟨a, ha, hnumber⟩ := ih ((mem_ofKey rowSchema).mpr ⟨hold, hkey⟩)
        exact ⟨a, List.mem_append_left _ ha, hnumber⟩
      · obtain ⟨hchannel, hnumber⟩ := channel_of_mem_blockRows hr
        have hown : channel' = channel := by
          rw [hkey] at hsame
          exact hchannel.symm.trans (congrArg Prod.fst hsame).symm
        have hblock : x.versionBlock = r.versionBlock := congrArg (fun p => (ofLex p).1) hstamp
        subst hown
        exact ⟨b, by simp, hblock.trans hnumber⟩

/-- The progress of a channel is the number of one of its blocks. -/
theorem Reached.block_of_progress (h : Reached db log) {last : ℕ}
    (hlast : db.channelProgress.lookup channel = some last) :
    ∃ b, (channel, b) ∈ log ∧ b.number = last := by
  induction h generalizing last with
  | empty => cases hlast
  | @update db₀ db₁ log₀ channel' driver b _ hupdate ih =>
      rw [(updateWorldState_ok hupdate).2.2] at hlast
      by_cases hc : channel' = channel
      · subst hc
        rw [applied_progress] at hlast
        cases hold : db₀.channelProgress.lookup channel' with
        | none =>
            rw [hold] at hlast
            exact ⟨b, by simp, Option.some.inj hlast⟩
        | some old =>
            rw [hold] at hlast
            obtain ⟨a, ha, hnumber⟩ := ih hold
            have hmax : max old b.number = last := Option.some.inj hlast
            rcases le_total old b.number with hle | hle
            · exact ⟨b, by simp, by rw [← hmax, max_eq_right hle]⟩
            · exact ⟨a, List.mem_append_left _ ha, by rw [← hmax, max_eq_left hle, hnumber]⟩
      · rw [applied_progress_ne _ _ hc] at hlast
        obtain ⟨a, ha, hnumber⟩ := ih hlast
        exact ⟨a, List.mem_append_left _ ha, hnumber⟩

/-- `BlockNumber` is the greatest number of a block of the channel, or zero if the
channel has none. -/
theorem Reached.height (h : Reached db log) {fault : Option Text} {n : ℕ}
    (hn : blockNumber channel fault db = .ok n) :
    n < 2 ^ 63 ∧ (∀ a, (channel, a) ∈ log → a.number ≤ n) ∧
      ((∃ a, (channel, a) ∈ log ∧ a.number = n) ∨ n = 0 ∧ ∀ a, (channel, a) ∉ log) := by
  cases fault with
  | some err => cases hn
  | none =>
      cases hlast : db.channelProgress.lookup channel with
      | none =>
          simp only [blockNumber, query, hlast, Except.ok.injEq] at hn
          have hnone : ∀ a, (channel, a) ∉ log := by
            intro a ha
            obtain ⟨last, hsome, _⟩ := (h.settled ha).progress
            rw [hlast] at hsome
            cases hsome
          exact ⟨by omega, fun a ha => absurd ha (hnone a), Or.inr ⟨hn.symm, hnone⟩⟩
      | some last =>
          simp only [blockNumber, query, hlast, Except.ok.injEq] at hn
          subst hn
          obtain ⟨b, hb, hnumber⟩ := h.block_of_progress hlast
          refine ⟨hnumber ▸ (h.settled hb).number, ?_, Or.inl ⟨b, hb, hnumber⟩⟩
          intro a ha
          obtain ⟨_, hsome, hle⟩ := (h.settled ha).progress
          rw [hlast] at hsome
          cases hsome
          exact hle

end Log

section View

variable {channel : GoString} {db db' : Database} {log later : List (GoString × Block)} {n : ℕ}

theorem blockRows_of_writeless {b : Block} (h : Writeless b) : blockRows channel b = [] := by
  rw [blockRows, List.flatMap_eq_nil_iff]
  intro tx htx
  by_cases hv : tx.valid = true
  · rw [txRows, if_pos hv, List.flatMap_eq_nil_iff]
    intro ns hns
    rw [h tx htx hv ns hns]
    rfl
  · rw [txRows, if_neg hv]

/-- A block with the number and the transactions of a settled one is settled. -/
theorem Settled.again {a b : Block} (h : Settled channel db a) (hn : b.number = a.number)
    (ht : b.transactions = a.transactions) : Settled channel db b := by
  have hrows : blockRows channel b = blockRows channel a := by
    simp only [blockRows, hn, ht]
  refine ⟨by rw [hn]; exact h.number, ?_, ?_⟩
  · rw [hrows]
    exact h.rows
  · rw [hn]
    exact h.progress

/-- An update above the height of a view, of another channel or of an applied block
does not change what the view sees. -/
theorem rowsUpTo_update {channel' : GoString} {driver : Driver Text} {b : Block}
    (hupdate : updateWorldState channel' driver db b = .ok db')
    (h : channel' = channel → n < b.number ∨ Settled channel db b) (ns key : GoString) :
    rowsUpTo channel db' n ns key = rowsUpTo channel db n ns key := by
  obtain ⟨_, _, rfl⟩ := updateWorldState_ok hupdate
  by_cases hc : channel' = channel
  · subst hc
    rcases h rfl with hn | hs
    · have hout : ∀ r ∈ blockRows channel' b, ∀ v,
          decide ((rowSchema.withVersion v r).versionBlock ≤ n) = false := by
        intro r hr v
        have hblock : (rowSchema.withVersion v r).versionBlock = b.number :=
          (channel_of_mem_blockRows hr).2
        rw [hblock]
        exact decide_eq_false (Nat.not_le.mpr hn)
      rw [rowsUpTo, rowsUpTo, Database.rowsOf, Database.rowsOf, applied_worldstate, ofKey, ofKey,
        List.filter_comm, filter_insertAll rowSchema _ hout, List.filter_comm]
    · rw [hs.applied_eq]
  · have hother : ∀ r ∈ blockRows channel' b, rowSchema.key r ≠ (channel, ns, key) := by
      intro r hr heq
      exact hc ((channel_of_mem_blockRows hr).1.symm.trans (congrArg Prod.fst heq))
    rw [rowsUpTo, rowsUpTo, Database.rowsOf, Database.rowsOf, applied_worldstate,
      ofKey_insertAll_ne rowSchema _ hother]

theorem Later.of_append {e : GoString × Block} (h : Later channel log (later ++ [e])) :
    Later channel log later where
  follows b hb := h.follows b (List.mem_append_left _ hb)
  zero b hb := h.zero b (List.mem_append_left _ hb)

/-- What a view sees stays the same over any number of later updates. -/
theorem rowsUpTo_stable (run : Reached db log) (run' : Reached db' (log ++ later))
    (hlater : Later channel log later) {fault : Option Text} {height : ℕ}
    (hheight : blockNumber channel fault db = .ok height) (hn : n ≤ height) (ns key : GoString) :
    rowsUpTo channel db' n ns key = rowsUpTo channel db n ns key := by
  induction later using List.reverseRecOn generalizing db' with
  | nil =>
      rw [List.append_nil] at run'
      rw [run.unique run']
  | append_singleton later e ih =>
      rw [← List.append_assoc] at run'
      obtain ⟨db₁, driver, run₁, hupdate⟩ := run'.last
      rw [← ih run₁ hlater.of_append]
      by_cases hzero : e.1 = channel ∧ e.2.number = 0 ∧ ∀ a, (channel, a) ∉ log
      -- the store was empty and may have taken block zero for applied
      · have hempty : blockRows e.1 e.2 = [] :=
          blockRows_of_writeless (hlater.zero e.2 (by simp [← hzero.1]) hzero.2.1)
        rw [(updateWorldState_ok hupdate).2.2, rowsUpTo, rowsUpTo, Database.rowsOf, Database.rowsOf,
          applied_worldstate, hempty, insertAll_nil]
      · apply rowsUpTo_update hupdate
        intro hc
        rcases hlater.follows e.2 (by simp [← hc]) with hnew | ⟨a, ha, hnumber, htxs⟩
        · left
          rcases (run.height hheight).2.2 with ⟨a, ha, hnumber⟩ | ⟨hempty, hnone⟩
          · have hlt := hnew a ha
            omega
          · have hpos : e.2.number ≠ 0 := fun h => hzero ⟨hc, h, hnone⟩
            omega
        · exact Or.inr ((run₁.settled (List.mem_append_left _ ha)).again hnumber htxs)

theorem asOf_concat (channel' : GoString) (b : Block) :
    asOf channel (log ++ [(channel', b)]) n =
      if channel' = channel ∧ b.number ≤ n then applied channel (asOf channel log n) b
      else asOf channel log n := by
  rw [asOf, List.filter_append, List.foldl_append]
  split
  · rename_i h
    rw [List.filter_singleton]
    simp [h, asOf]
  · rename_i h
    rw [List.filter_singleton]
    simp [h, asOf]

/-- A view at or above every block of the channel sees all rows. -/
theorem rowsUpTo_eq_rowsOf (run : Reached db log) (h : ∀ b, (channel, b) ∈ log → b.number ≤ n)
    (ns key : GoString) : rowsUpTo channel db n ns key = db.rowsOf channel ns key := by
  apply List.filter_eq_self.mpr
  intro x hx
  obtain ⟨b, hb, hnumber⟩ := run.block_of_row hx
  rw [decide_eq_true_eq, hnumber]
  exact h b hb

/-- The rows of a settled block are there already in the state as of its number. -/
theorem Settled.taken_of_rowsUpTo {db₀ : Database} {b : Block} (hs : Settled channel db b)
    (hn : b.number ≤ n)
    (h : ∀ ns key, rowsUpTo channel db n ns key = db₀.rowsOf channel ns key) :
    (applied channel db₀ b).worldstate = db₀.worldstate := by
  rw [applied_worldstate]
  apply insertAll_taken
  intro r hr
  obtain ⟨x, hx, _⟩ := hs.rows r hr
  obtain ⟨hmem, hstamp⟩ := selectIn_eq_some hx
  obtain ⟨hchannel, hnumber⟩ := channel_of_mem_blockRows hr
  have hkey : rowSchema.key r = (channel, r.ns, r.key) := by
    rw [← hchannel]
    rfl
  have hblock : x.versionBlock = r.versionBlock := congrArg (fun p => (ofLex p).1) hstamp
  have hseen : x ∈ rowsUpTo channel db n r.ns r.key := by
    apply List.mem_filter.mpr
    rw [hkey] at hmem
    exact ⟨hmem, decide_eq_true (by rw [hblock, hnumber]; exact hn)⟩
  rw [h] at hseen
  refine ⟨x, ?_, hstamp⟩
  rw [hkey]
  exact hseen

/-- What a view sees are the rows of the blocks up to its height alone. -/
theorem rowsUpTo_eq_asOf (run : Reached db log) (hseq : InSequence channel log) (n : ℕ)
    (ns key : GoString) :
    rowsUpTo channel db n ns key = (asOf channel log n).rowsOf channel ns key := by
  induction run generalizing ns key with
  | empty => rfl
  | @update db₀ db₁ log₀ channel' driver b run hupdate ih =>
      have hbefore := ih hseq.of_append
      rw [asOf_concat]
      by_cases h : channel' = channel ∧ b.number ≤ n
      · rw [if_pos h]
        obtain ⟨rfl, hn⟩ := h
        rcases hseq log₀ b [] rfl with hnew | ⟨a, ha, hnumber, htxs⟩
        -- the next block: all blocks so far are below it, and so at or below `n`
        · have hall : ∀ a, (channel', a) ∈ log₀ → a.number ≤ n :=
            fun a ha => (hnew a ha).le.trans hn
          have hall' : ∀ a, (channel', a) ∈ log₀ ++ [(channel', b)] → a.number ≤ n := by
            intro a ha
            rcases List.mem_append.mp ha with ha | ha
            · exact hall a ha
            · cases List.mem_singleton.mp ha
              exact hn
          have hkey := hbefore ns key
          rw [rowsUpTo_eq_rowsOf run hall] at hkey
          rw [rowsUpTo_eq_rowsOf (run.update hupdate) hall', (updateWorldState_ok hupdate).2.2,
            Database.rowsOf, Database.rowsOf, applied_worldstate, applied_worldstate]
          exact ofKey_insertAll_congr rowSchema hkey _
        · have hs := (run.settled ha).again hnumber htxs
          rw [(updateWorldState_ok hupdate).2.2, hs.applied_eq, hbefore, Database.rowsOf,
            Database.rowsOf, hs.taken_of_rowsUpTo hn hbefore]
      · rw [if_neg h, ← hbefore]
        apply rowsUpTo_update hupdate
        intro hc
        exact Or.inl (Nat.lt_of_not_le fun hn => h ⟨hc, hn⟩)

theorem versionedSnapshot_eq (fault : Option Text) (hn : n < 2 ^ 63) (ns key : GoString) :
    versionedSnapshot channel db n fault ns key =
      query "get" fault ((latest rowSchema (rowsUpTo channel db n ns key)).map Row.toRecord) := by
  rw [versionedSnapshot, getAt, if_neg (Nat.not_le.mpr hn), rowsUpTo]

/-- A view at or below the height of the store is pinned. -/
theorem pinned_of_le (run : Reached db log) (run' : Reached db' (log ++ later))
    (hseq : InSequence channel log) (hlater : Later channel log later) {fault : Option Text}
    {height : ℕ} (hheight : blockNumber channel fault db = .ok height) (hn : n ≤ height) :
    Pinned channel log db db' n := by
  have hsmall : n < 2 ^ 63 := hn.trans_lt (run.height hheight).1
  constructor
  · intro fault' ns key
    rw [versionedSnapshot_eq fault' hsmall, versionedSnapshot_eq fault' hsmall,
      rowsUpTo_stable run run' hlater hheight hn]
  · intro ns key
    rw [versionedSnapshot_eq none hsmall, rowsUpTo_eq_asOf run hseq]
    rfl

/-- A snapshot reads the same whatever is applied after it was opened, new blocks or
applied ones again: the state as of the requested block, or of the height of the store
if that is less. -/
theorem snapshot_stable (run : Reached db log) (run' : Reached db' (log ++ later))
    (hseq : InSequence channel log) (hlater : Later channel log later) (fault : Option Text) :
    (∀ n, snapshot channel fault db = .ok n →
      blockNumber channel none db = .ok n ∧ Pinned channel log db db' n) ∧
    ∀ block n, snapshotAt channel fault db block = .ok n →
      ∃ height, blockNumber channel none db = .ok height ∧ n = min block height ∧
        Pinned channel log db db' n := by
  have hfree : ∀ height, blockNumber channel fault db = .ok height →
      blockNumber channel none db = .ok height := by
    intro height h
    cases fault with
    | none => exact h
    | some err => cases h
  constructor
  · intro n h
    exact ⟨hfree n h, pinned_of_le run run' hseq hlater h le_rfl⟩
  · intro block n h
    rw [snapshotAt] at h
    split at h
    · cases h
    · rename_i height hheight
      cases h
      exact ⟨height, hfree height hheight, rfl,
        pinned_of_le run run' hseq hlater hheight (min_le_right block height)⟩

end View

section Sample

/-- The blocks of `sampleDb`, with the channel of each. -/
def sampleLog : List (GoString × Block) :=
  [([99], sampleCreate), ([100], sampleDelete), ([99], sampleDelete)]

/-- A new block after them, and one of them again. -/
def sampleAfter : List (GoString × Block) := [([99], sampleRecreate), ([99], sampleCreate)]

theorem sampleLog_inSequence : InSequence [99] sampleLog := by
  intro pre b post h
  rcases pre with _ | ⟨e₁, _ | ⟨e₂, _ | ⟨e₃, rest⟩⟩⟩
  · exact Or.inl nofun
  · cases h
  · cases h
    left
    intro a ha
    rcases List.mem_cons.mp ha with heq | ha
    · cases heq
      decide
    · cases List.mem_singleton.mp ha
  · simp [sampleLog] at h

theorem sampleAfter_later : Later [99] sampleLog sampleAfter where
  follows b hb := by
    rcases List.mem_cons.mp hb with heq | hb
    · cases heq
      left
      intro a ha
      have hnumber : ∀ e ∈ sampleLog, e.2.number < sampleRecreate.number := by decide
      exact hnumber _ ha
    · cases List.mem_singleton.mp hb
      exact Or.inr ⟨sampleCreate, List.mem_cons_self, rfl, rfl⟩
  zero b hb hzero := by
    have hnumber : ∀ e ∈ sampleAfter, e.2.number ≠ 0 := by decide
    exact absurd hzero (hnumber _ hb)

theorem sampleLater_reached : Reached sampleLater (sampleLog ++ sampleAfter) := by
  have u : updateWorldState [99] [] sampleDb sampleRecreate = .ok sampleLater := rfl
  have u' : updateWorldState [99] [] sampleLater sampleCreate = .ok sampleLater := rfl
  exact (sampleDb_reached.update u).update u'

/-- The key is a tombstone in the snapshot, and still is one there after it has been
created again. -/
theorem snapshot_stable_sample :
    snapshot [99] none sampleDb = .ok 3 ∧ snapshotAt [99] none sampleDb (2 ^ 64 - 1) = .ok 3 ∧
      versionedSnapshot [99] sampleLater 3 none [110] [107] =
        versionedSnapshot [99] sampleDb 3 none [110] [107] ∧
      Pinned [99] sampleLog sampleDb sampleLater 3 ∧
      get [99] none sampleLater [110] [107] ≠ get [99] none sampleDb [110] [107] := by
  have hstable := snapshot_stable sampleDb_reached sampleLater_reached sampleLog_inSequence
    sampleAfter_later none
  have hpinned := (hstable.1 3 rfl).2
  exact ⟨rfl, rfl, hpinned.same none [110] [107], hpinned, by decide⟩

end Sample

end FabricXSdk.State

import FabricXSdk.Blocks.Processor
import FabricXSdk.Lib.Transition
import FabricXSdk.Network.Synchronizer
import FabricXSdk.State.History

/-!
# Block delivery

The synchronizer with a block processor whose handler chain contains a `VersionedDB`,
on a peer that delivers the blocks of a chain in order and stops or fails anywhere.
A store that holds the first blocks of the chain does so after a call to
`ProcessBlock` too, whichever handlers fail.

## Implementation notes

The chain is a function of the block number, and a peer that ends its stream stands
for one that has no more blocks. The handlers other than the store are known only by
whether they fail. A `Node` records which blocks were delivered and which calls of
handlers have returned nil; nothing reads these records.
-/

namespace FabricXSdk.Network

open Golang Blocks State Transition
open Atomic (Driver)

section Model

/-- The store, and a record of what the handlers of the chain did: the calls that
returned nil, by the position of the handler and the number of the block. -/
structure Node where
  db : Database
  delivered : List ℕ
  returned : List (ℕ × ℕ)

/-- What one call to `ProcessBlock` meets: the clock, and at each position of the
handler chain what the driver behind the handler does. -/
structure Fate where
  now : Int
  driver : ℕ → Driver Text

/-- A peer's chain and a processor with the store at one position of its handlers. -/
structure Setup where
  codecs : Proto.Codecs
  hash : Proto.BlockHeader → Bytes
  parser : TxParser
  channel : GoString
  handlers : ℕ
  position : ℕ
  position_lt : position < handlers
  chain : ℕ → Proto.Block
  chain_number : ∀ n, ∃ header, (chain n).header = some header ∧ header.number = n

/-- `VersionedDB.Handle`. -/
def storeHandler (channel : GoString) (driver : Driver Text) : Handler Node := fun b node =>
  match updateWorldState channel driver node.db b with
  | .ok db => (.ok (), { node with db := db })
  | .error err => (.error err, node)

/-- A handler that fails if its driver does. -/
def otherHandler (driver : Driver Text) : Handler Node := fun _ node =>
  match driver with
  | some err :: _ => (.error err, node)
  | _ => (.ok (), node)

/-- Record the calls of a handler that return nil. -/
def recorded (i : ℕ) (h : Handler Node) : Handler Node := fun b node =>
  match h b node with
  | (.ok (), node') => (.ok (), { node' with returned := node'.returned ++ [(i, b.number)] })
  | (.error err, node') => (.error err, node')

namespace Setup

variable (p : Setup)

def parse (now : Int) (b : Proto.Block) : Outcome Block :=
  parseBlock p.codecs p.hash p.parser now b

def handlerAt (fate : Fate) (i : ℕ) : Handler Node :=
  recorded i (if i = p.position then storeHandler p.channel (fate.driver i)
    else otherHandler (fate.driver i))

def backend : Backend Node Fate where
  height := fun fault node => blockNumber p.channel fault node.db
  process := fun fate n node =>
    processBlock (p.parse fate.now) ((List.range' 0 p.handlers).map (p.handlerAt fate)) (p.chain n)
      { node with delivered := node.delivered ++ [n] }

/-- A new synchronizer on an empty store. -/
def init : System Node := ⟨Sync.init, ⟨Database.empty, [], []⟩⟩

end Setup

end Model

section Store

variable {p : Setup}

/-- The store holds the first blocks of the chain: they are parsed from the chain, and
applying them to an empty store without failures gives the same tables. -/
structure Holds (p : Setup) (db : Database) (bs : List Block) : Prop where
  parsed : ∀ i b, bs[i]? = some b → ∃ now, p.parse now (p.chain i) = .ok b
  content : bs.foldlM (updateWorldState p.channel []) Database.empty = .ok db
  refines : Refines p.channel db bs
  small : bs.length ≤ 2 ^ 63

theorem holds_empty (p : Setup) : Holds p Database.empty [] where
  parsed := by simp
  content := rfl
  refines := refines_empty p.channel
  small := by simp

theorem number_of_parse {now : Int} {n : ℕ} {b : Block} (h : p.parse now (p.chain n) = .ok b) :
    b.number = n := by
  obtain ⟨header, hheader, hnumber⟩ := p.chain_number n
  obtain ⟨header', _, _, _, hheader', _, _, _, hnum, _⟩ := parseBlock_ok h
  obtain rfl := Option.some.inj (hheader'.symm.trans hheader)
  rw [hnum, hnumber]

theorem Holds.number_lt {db : Database} {bs : List Block} (h : Holds p db bs) {b : Block}
    (hb : b ∈ bs) : b.number < bs.length := by
  obtain ⟨i, hi⟩ := List.mem_iff_getElem?.mp hb
  obtain ⟨now, hparse⟩ := h.parsed i b hi
  rw [number_of_parse hparse]
  exact (List.getElem?_eq_some_iff.mp hi).1

/-- The blocks of a store with the next one added to them. -/
theorem Holds.concat {db : Database} {bs : List Block} (h : Holds p db bs) {now : Int} {b : Block}
    (hparse : p.parse now (p.chain bs.length) = .ok b)
    (hupdate : updateWorldState p.channel [] db b = .ok (applied p.channel db b)) :
    Holds p (applied p.channel db b) (bs ++ [b]) where
  parsed := by
    intro i b' hi
    rcases getElem?_concat_eq_some.mp hi with hi | ⟨rfl, rfl⟩
    · exact h.parsed i b' hi
    · exact ⟨now, hparse⟩
  content := by
    rw [List.foldlM_append, h.content]
    calc
      [b].foldlM (updateWorldState p.channel []) db
          = updateWorldState p.channel [] db b >>= pure := rfl
      _ = .ok (applied p.channel db b) := by
          rw [hupdate]
          rfl
  refines := by
    refine h.refines.next (fun a ha => ?_) (parseBlock_inOrder hparse)
    rw [number_of_parse hparse]
    exact h.number_lt ha
  small := by
    have hsmall := (updateWorldState_free_iff.mp hupdate).1
    rw [number_of_parse hparse] at hsmall
    rw [List.length_append, List.length_singleton]
    omega

/-- Handling a block of the chain changes nothing if the store has it, and otherwise
adds the next one. -/
theorem Holds.update {db db' : Database} {bs : List Block} (h : Holds p db bs) {now : Int}
    {n : ℕ} {b : Block} {driver : Driver Text} (hparse : p.parse now (p.chain n) = .ok b)
    (hn : n ≤ bs.length) (hupdate : updateWorldState p.channel driver db b = .ok db') :
    n < bs.length ∧ db' = db ∨ n = bs.length ∧ Holds p db' (bs ++ [b]) := by
  obtain ⟨hsmall, hagrees, rfl⟩ := updateWorldState_ok hupdate
  rcases Nat.lt_or_eq_of_le hn with hlt | rfl
  · left
    refine ⟨hlt, ?_⟩
    -- a block the store has: parsed again it has the same transactions
    obtain ⟨now', hparse'⟩ := h.parsed n bs[n] (List.getElem?_eq_getElem hlt)
    obtain ⟨hnum, htxs⟩ := parseBlock_again hparse' hparse
    exact h.refines.replay (List.getElem_mem hlt) hnum htxs
  · right
    refine ⟨rfl, h.concat hparse ?_⟩
    exact updateWorldState_free_iff.mpr ⟨hsmall, hagrees, rfl⟩

/-- `BlockNumber` is the number of the last block, and zero without one. -/
theorem Holds.height {db : Database} {bs : List Block} (h : Holds p db bs) {fault : Option Text}
    {n : ℕ} (hn : blockNumber p.channel fault db = .ok n) : n = bs.length - 1 := by
  cases fault with
  | some err => cases hn
  | none =>
      simp only [blockNumber, query, h.refines.progress] at hn
      cases hlast : bs.getLast? with
      | none =>
          rw [hlast] at hn
          rw [List.getLast?_eq_none_iff.mp hlast]
          exact (Except.ok.inj hn).symm
      | some b =>
          rw [hlast] at hn
          have hnum : b.number = n := Except.ok.inj hn
          rw [List.getLast?_eq_getElem?] at hlast
          obtain ⟨now, hparse⟩ := h.parsed _ b hlast
          rw [← hnum, number_of_parse hparse]

/-- The loop resumes at the next block, or at block zero if that is the only one. -/
theorem Holds.startBlock {db : Database} {bs : List Block} (h : Holds p db bs)
    {fault : Option Text} {n : ℕ} (hn : blockNumber p.channel fault db = .ok n) :
    startBlock n = bs.length ∨ startBlock n = 0 ∧ bs.length = 1 := by
  have hsmall := h.small
  rw [h.height hn, Network.startBlock]
  split
  · left
    -- numbers are below `2 ^ 63`, so the successor does not wrap
    rw [Nat.mod_eq_of_lt (by omega)]
    omega
  · by_cases hone : bs.length = 1
    · exact Or.inr ⟨rfl, hone⟩
    · left
      omega

end Store

section Process

variable {p : Setup}

/-- A handler either fails and changes nothing, or returns nil and is recorded. -/
theorem handlerAt_cases (p : Setup) (fate : Fate) (i : ℕ) (b : Block) (node : Node) :
    (∃ err, p.handlerAt fate i b node = (.error err, node) ∧
      (i ≠ p.position → ∃ e rest, fate.driver i = some e :: rest)) ∨
    ∃ db, p.handlerAt fate i b node =
        (.ok (), { node with db := db, returned := node.returned ++ [(i, b.number)] }) ∧
      (i = p.position → updateWorldState p.channel (fate.driver i) node.db b = .ok db) ∧
      (i ≠ p.position → db = node.db) := by
  by_cases hi : i = p.position
  · simp only [Setup.handlerAt, recorded, if_pos hi, storeHandler]
    cases hupdate : updateWorldState p.channel (fate.driver i) node.db b with
    | error err => exact Or.inl ⟨err, rfl, fun hne => absurd hi hne⟩
    | ok db => exact Or.inr ⟨db, rfl, fun _ => rfl, fun hne => absurd hi hne⟩
  · simp only [Setup.handlerAt, recorded, if_neg hi, otherHandler]
    match hdriver : fate.driver i with
    | [] => exact Or.inr ⟨node.db, rfl, fun h => absurd h hi, fun _ => rfl⟩
    | none :: rest => exact Or.inr ⟨node.db, rfl, fun h => absurd h hi, fun _ => rfl⟩
    | some err :: rest => exact Or.inl ⟨err, rfl, fun _ => ⟨err, rest, rfl⟩⟩

/-- The run of the handlers at positions `i`, ..., `i + k - 1` on block `n`: the first
`j` of them return nil, and the store holds `bs'` instead of `bs` afterwards. -/
structure Ran (p : Setup) (fate : Fate) (n i j k : ℕ) (bs bs' : List Block) (node node' : Node)
    (ok : Prop) : Prop where
  le : j ≤ k
  holds : Holds p node'.db bs'
  delivered : node'.delivered = node.delivered
  returned : node'.returned = node.returned ++ (List.range' i j).map fun x => (x, n)
  ok_iff : ok ↔ j = k
  failed : j < k → p.position < i + j → ∃ err rest, fate.driver (i + j) = some err :: rest
  stored : i ≤ p.position → p.position < i + j →
    n < bs'.length ∧ (bs' = bs ∨ n = bs.length ∧ ∃ b, bs' = bs ++ [b])
  skipped : ¬ (i ≤ p.position ∧ p.position < i + j) → bs' = bs

/-- No handler returns nil. -/
theorem ran_none {fate : Fate} {n i k : ℕ} {bs : List Block} {node : Node} {ok : Prop}
    (h : Holds p node.db bs) (hok : ok ↔ k = 0)
    (hfailed : 0 < k → p.position < i → ∃ err rest, fate.driver i = some err :: rest) :
    Ran p fate n i 0 k bs bs node node ok where
  le := Nat.zero_le k
  holds := h
  delivered := rfl
  returned := (List.append_nil _).symm
  ok_iff := by
    rw [hok]
    exact eq_comm
  failed := hfailed
  stored := by omega
  skipped := fun _ => rfl

/-- What the blocks of the store become when the handler at position `i` returns nil. -/
theorem Holds.handle {node : Node} {bs : List Block} (h : Holds p node.db bs) {now : Int}
    {n i : ℕ} {b : Block} (hparse : p.parse now (p.chain n) = .ok b) (hn : n ≤ bs.length)
    {driver : Driver Text} {db : Database}
    (hstore : i = p.position → updateWorldState p.channel driver node.db b = .ok db)
    (hother : i ≠ p.position → db = node.db) :
    ∃ bs₁, Holds p db bs₁ ∧ n ≤ bs₁.length ∧
      (i = p.position → n < bs₁.length ∧ (bs₁ = bs ∨ n = bs.length ∧ bs₁ = bs ++ [b])) ∧
      (i ≠ p.position → bs₁ = bs) := by
  by_cases hi : i = p.position
  · rcases h.update hparse hn (hstore hi) with ⟨hlt, rfl⟩ | ⟨heq, hholds⟩
    · exact ⟨bs, h, hn, fun _ => ⟨hlt, Or.inl rfl⟩, fun _ => rfl⟩
    · have hlength : (bs ++ [b]).length = n + 1 := by
        rw [List.length_append, List.length_singleton, heq]
      refine ⟨bs ++ [b], hholds, by omega, fun _ => ⟨by omega, ?_⟩, fun hne => absurd hi hne⟩
      exact Or.inr ⟨heq, rfl⟩
  · rw [hother hi]
    exact ⟨bs, h, hn, fun h => absurd h hi, fun _ => rfl⟩

/-- The handler at position `i` returns nil, and then the others run. -/
theorem Ran.cons {fate : Fate} {n i j k : ℕ} {b : Block} {bs bs₁ bs' : List Block}
    {node node' : Node} {db : Database} {ok : Prop}
    (hstored : i = p.position → n < bs₁.length ∧ (bs₁ = bs ∨ n = bs.length ∧ bs₁ = bs ++ [b]))
    (hskipped : i ≠ p.position → bs₁ = bs)
    (h : Ran p fate n (i + 1) j k bs₁ bs'
      { node with db := db, returned := node.returned ++ [(i, n)] } node' ok) :
    Ran p fate n i (j + 1) (k + 1) bs bs' node node' ok where
  le := Nat.succ_le_succ h.le
  holds := h.holds
  delivered := h.delivered
  returned := by
    rw [h.returned, List.range'_succ, List.map_cons, List.append_assoc]
    rfl
  ok_iff := by
    rw [h.ok_iff]
    omega
  failed := by
    intro hlt hafter
    have hshift : i + 1 + j = i + (j + 1) := by omega
    rw [← hshift] at hafter ⊢
    exact h.failed (by omega) hafter
  stored := by
    intro hlow hhigh
    by_cases hi : i = p.position
    -- the store was this handler, so the others leave its blocks alone
    · rw [h.skipped (by omega)]
      obtain ⟨hlt, hcase⟩ := hstored hi
      exact ⟨hlt, hcase.imp_right fun hnext => ⟨hnext.1, b, hnext.2⟩⟩
    · rw [hskipped hi] at h
      exact h.stored (by omega) (by omega)
  skipped := by
    intro hout
    rw [h.skipped (by omega), hskipped (by omega)]

theorem ran_handlers {fate : Fate} {now : Int} {n : ℕ} {b : Block}
    (hparse : p.parse now (p.chain n) = .ok b) (k i : ℕ) {node : Node} {bs : List Block}
    (h : Holds p node.db bs) (hn : n ≤ bs.length) :
    ∃ j bs', Ran p fate n i j k bs bs' node
      (runHandlers ((List.range' i k).map (p.handlerAt fate)) b node).2
      ((runHandlers ((List.range' i k).map (p.handlerAt fate)) b node).1 = .ok ()) := by
  induction k generalizing i node bs with
  | zero => exact ⟨0, bs, ran_none h (iff_of_true rfl rfl) (by omega)⟩
  | succ k ih =>
      rw [List.range'_succ, List.map_cons, runHandlers]
      rcases handlerAt_cases p fate i b node with ⟨err, hrun, hfail⟩ | ⟨db, hrun, hstore, hother⟩
      · rw [hrun]
        refine ⟨0, bs, ran_none h (iff_of_false (by simp) (by omega)) ?_⟩
        intro _ hafter
        exact hfail (by omega)
      · rw [hrun, number_of_parse hparse]
        -- the store may have the block now, so the rest runs on `bs₁`
        obtain ⟨bs₁, hholds, hle, hstored, hskipped⟩ := h.handle hparse hn hstore hother
        obtain ⟨j, bs', hran⟩ := @ih (i + 1)
          { node with db := db, returned := node.returned ++ [(i, n)] } bs₁ hholds hle
        exact ⟨j + 1, bs', hran.cons hstored hskipped⟩

/-- A call to `ProcessBlock` with the next block of the chain, or with an earlier one. -/
theorem ran_process {fate : Fate} {n : ℕ} {node : Node} {bs : List Block}
    (h : Holds p node.db bs) (hn : n ≤ bs.length) :
    ∃ j bs', Ran p fate n 0 j p.handlers bs bs' { node with delivered := node.delivered ++ [n] }
      (p.backend.process fate n node).2 ((p.backend.process fate n node).1 = .ok ()) := by
  have hpos := p.position_lt
  simp only [Setup.backend, processBlock]
  cases hparse : p.parse fate.now (p.chain n) with
  | panic => exact ⟨0, bs, ran_none h (iff_of_false (by simp) (by omega)) (by omega)⟩
  | error err => exact ⟨0, bs, ran_none h (iff_of_false (by simp) (by omega)) (by omega)⟩
  | ok b =>
      simp only [Outcome.lift_eq_ok]
      exact ran_handlers hparse p.handlers 0 h hn

end Process

end FabricXSdk.Network

import FabricXSdk.State.Database

/-!
# What a block update does to the tables

`UpdateWorldState` inserts the rows of a block's valid transactions one after the
other, skips the rows whose primary key is taken by the same content, and moves
the channel's progress forward. It commits exactly when the block number can be
stored, no taken row disagrees and none of the calls it makes to the driver fails.
-/

namespace FabricXSdk.State

open Golang Blocks Atomic VersionLog

/-- The rows a transaction asks for, in the order the loops visit them. -/
def txRows (channel : GoString) (blockNum : ℕ) (tx : Transaction) : List Row :=
  if tx.valid then
    tx.nsRWS.flatMap fun nsrws =>
      nsrws.rws.writes.map fun w => writeRow channel blockNum tx nsrws.ns w
  else []

def blockRows (channel : GoString) (b : Block) : List Row :=
  b.transactions.flatMap fun tx => txRows channel b.number tx

theorem mem_txRows {channel : GoString} {n : ℕ} {tx : Transaction} {r : Row} :
    r ∈ txRows channel n tx ↔ tx.valid = true ∧ ∃ nsrws ∈ tx.nsRWS, ∃ w ∈ nsrws.rws.writes,
      writeRow channel n tx nsrws.ns w = r := by
  unfold txRows
  split <;> simp_all

/-- Every row of a transaction has the transaction's stamp and channel. -/
theorem stamp_of_mem_txRows {channel : GoString} {n : ℕ} {tx : Transaction} {r : Row}
    (h : r ∈ txRows channel n tx) : rowSchema.stamp r = toLex (n, tx.number) := by
  obtain ⟨_, nsrws, _, w, _, rfl⟩ := mem_txRows.mp h
  rfl

theorem channel_of_mem_blockRows {channel : GoString} {b : Block} {r : Row}
    (h : r ∈ blockRows channel b) : r.channel = channel ∧ r.versionBlock = b.number := by
  obtain ⟨tx, _, hr⟩ := List.mem_flatMap.mp h
  obtain ⟨_, nsrws, _, w, _, rfl⟩ := mem_txRows.mp hr
  exact ⟨rfl, rfl⟩

theorem selectIn_eq_some {rows : List Row} {r x : Row} (h : selectIn rows r = some x) :
    x ∈ ofKey rowSchema (rowSchema.key r) rows ∧ rowSchema.stamp x = rowSchema.stamp r := by
  have hp := List.find?_some h
  simp only [decide_eq_true_eq] at hp
  exact ⟨(mem_ofKey rowSchema).mpr ⟨List.mem_of_find?_eq_some h, hp.1⟩, hp.2⟩

theorem selectIn_eq_none {rows : List Row} {r : Row} :
    selectIn rows r = none ↔
      ∀ x ∈ ofKey rowSchema (rowSchema.key r) rows, rowSchema.stamp x ≠ rowSchema.stamp r := by
  simp only [selectIn, List.find?_eq_none, decide_eq_true_eq, not_and, mem_ofKey]
  exact ⟨fun h x hx => h x hx.1 hx.2, fun h x hx hk => h x ⟨hx, hk⟩⟩

theorem selectIn_insert_of_some {rows : List Row} {r r' x : Row} (h : selectIn rows r = some x) :
    selectIn (insert rowSchema rows r') r = some x := by
  rcases insert_taken_or_fresh rowSchema rows r' with ht | hf
  · rwa [insert_taken rowSchema ht]
  · rw [insert_fresh rowSchema hf]
    unfold selectIn at h ⊢
    rw [List.find?_append, h]
    rfl

theorem selectIn_insert_self {rows : List Row} {r : Row} (h : selectIn rows r = none) :
    selectIn (insert rowSchema rows r) r =
      some (rowSchema.withVersion (nextVersion rowSchema (rowSchema.key r) rows) r) := by
  rw [insert_fresh rowSchema (selectIn_eq_none.mp h)]
  unfold selectIn at h ⊢
  rw [List.find?_append, h]
  simp

theorem selectIn_insertAll_of_some {rows rs : List Row} {r x : Row}
    (h : selectIn rows r = some x) : selectIn (insertAll rowSchema rows rs) r = some x := by
  induction rs generalizing rows with
  | nil => exact h
  | cons r' rs ih => exact ih (selectIn_insert_of_some h)

/-- Each row in turn meets either a free primary key or its own content. -/
def Agrees : List Row → List Row → Prop
  | _, [] => True
  | rows, r :: rs =>
      (∀ x, selectIn rows r = some x → SameContent x r) ∧ Agrees (insert rowSchema rows r) rs

theorem steady_bindUint64 (what : String) (arg n : ℕ) : Steady (bindUint64 what arg n) := by
  unfold bindUint64
  split
  · exact steady_fail _
  · exact steady_pure ()

theorem steady_checkConflicting (db : Database) (r : Row) : Steady (checkConflicting db r) := by
  refine (steady_call _).bind fun _ => ?_
  split
  · exact steady_fail _
  · split
    · exact steady_pure ()
    · exact steady_fail _

theorem steady_execWrite (r : Row) : Steady (execWrite r) := by
  refine (steady_bindUint64 _ _ _).bind fun _ => (steady_call _).bind fun _ =>
    steady_read.bind fun db => (steady_write _).bind fun _ => (steady_call _).bind fun _ => ?_
  split
  · exact steady_pure ()
  · exact steady_checkConflicting _ r

theorem affected_pos_iff (db : Database) (r : Row) :
    0 < (db.insert r).2 ↔ selectIn db.worldstate r = none := by
  rw [selectIn_eq_none]
  rcases insert_taken_or_fresh rowSchema db.worldstate r with ht | hf
  · obtain ⟨x, hx, hs⟩ := ht
    constructor
    · intro h
      simp [Database.insert, insert_taken rowSchema ⟨x, hx, hs⟩] at h
    · intro h
      exact absurd hs (h x hx)
  · constructor
    · intro _
      exact hf
    · intro _
      simp [Database.insert, insert_fresh rowSchema hf]

/-- The conflict check, when no driver call fails. -/
theorem checkConflicting_free {db : Database} {r x : Row} (h : selectIn db.worldstate r = some x) :
    checkConflicting db r ([], db) =
      (if SameContent x r then pure () else fail (conflictErr x r) : SqlM Unit) ([], db) := by
  have hsel : db.select r = some x := h
  unfold checkConflicting
  simp only [hsel]
  rfl

/-- A block number the driver cannot bind. -/
theorem execWrite_overflow {r : Row} {db : Database} (h : 2 ^ 63 ≤ r.versionBlock) :
    execWrite r ([], db) = .error (wrapErr "batch insert exec"
      [.lit "sql: converting argument $", .num 4,
        .lit " type: uint64 values with high bit set are not supported"]) := by
  rw [execWrite, bindUint64, if_pos h]
  rfl

theorem execWrite_eq {r : Row} {db : Database} (h : r.versionBlock < 2 ^ 63) :
    execWrite r ([], db) = (if 0 < (db.insert r).2 then pure ()
      else checkConflicting (db.insert r).1 r : SqlM Unit) ([], (db.insert r).1) := by
  rw [execWrite, bindUint64, if_neg (Nat.not_le.mpr h)]
  rfl

theorem execWrite_fresh {r : Row} {db : Database} (h : r.versionBlock < 2 ^ 63)
    (hsel : selectIn db.worldstate r = none) :
    execWrite r ([], db) =
      .ok ((), [], { db with worldstate := insert rowSchema db.worldstate r }) := by
  rw [execWrite_eq h, if_pos ((affected_pos_iff db r).mpr hsel)]
  rfl

/-- A row whose primary key is taken leaves the table alone. -/
theorem execWrite_taken {r x : Row} {db : Database} (h : r.versionBlock < 2 ^ 63)
    (hsel : selectIn db.worldstate r = some x) :
    execWrite r ([], db) =
      if SameContent x r then .ok ((), [], db) else .error (conflictErr x r) := by
  have haff : ¬ 0 < (db.insert r).2 := by
    rw [affected_pos_iff, hsel]
    simp
  have hdb : (db.insert r).1 = db := by
    simp [Database.insert, insert_taken rowSchema ⟨x, selectIn_eq_some hsel⟩]
  rw [execWrite_eq h, if_neg haff, hdb, checkConflicting_free hsel]
  split <;> rfl

/-- One row, when no driver call fails. -/
theorem execWrite_free_iff {r : Row} {db db' : Database} :
    execWrite r ([], db) = .ok ((), [], db') ↔
      r.versionBlock < 2 ^ 63 ∧ (∀ x, selectIn db.worldstate r = some x → SameContent x r) ∧
        db' = { db with worldstate := insert rowSchema db.worldstate r } := by
  rcases Nat.lt_or_ge r.versionBlock (2 ^ 63) with hlt | hge
  · cases hsel : selectIn db.worldstate r with
    | none =>
        rw [execWrite_fresh hlt hsel]
        constructor
        · rintro ⟨⟩
          exact ⟨hlt, by simp, rfl⟩
        · rintro ⟨_, _, rfl⟩
          rfl
    | some x =>
        rw [execWrite_taken hlt hsel, insert_taken rowSchema ⟨x, selectIn_eq_some hsel⟩]
        by_cases hsame : SameContent x r
        · rw [if_pos hsame]
          constructor
          · rintro ⟨⟩
            exact ⟨hlt, by simpa using hsame, rfl⟩
          · rintro ⟨_, _, rfl⟩
            rfl
        · rw [if_neg hsame]
          constructor
          · rintro ⟨⟩
          · rintro ⟨_, hagrees, _⟩
            exact absurd (hagrees x rfl) hsame
  · rw [execWrite_overflow hge]
    constructor
    · rintro ⟨⟩
    · rintro ⟨hlt, _⟩
      exact absurd hge (Nat.not_le.mpr hlt)

theorem execWrites_free_iff {rs : List Row} {db db' : Database} :
    (forM rs execWrite : SqlM Unit) ([], db) = .ok ((), [], db') ↔
      (∀ r ∈ rs, r.versionBlock < 2 ^ 63) ∧ Agrees db.worldstate rs ∧
        db' = { db with worldstate := insertAll rowSchema db.worldstate rs } := by
  induction rs generalizing db with
  | nil =>
      simp only [List.forM_nil, pure_run, Agrees, insertAll_nil, Except.ok.injEq, Prod.mk.injEq]
      simp [eq_comm]
  | cons r rs ih =>
      rw [List.forM_cons, bind_eq_ok]
      constructor
      · rintro ⟨⟨⟩, ⟨d, db₁⟩, h₁, h₂⟩
        -- without failures the driver has nothing left after the row either
        have hd : execWrite r ([], db) = .ok ((), [], db₁) := steady_execWrite r _ _ _ _ _ h₁
        rw [h₁] at hd
        cases hd
        obtain ⟨hb, hs, rfl⟩ := execWrite_free_iff.mp h₁
        obtain ⟨hbs, hag, rfl⟩ := ih.mp h₂
        exact ⟨List.forall_mem_cons.mpr ⟨hb, hbs⟩, ⟨hs, hag⟩, rfl⟩
      · rintro ⟨hb, ⟨hs, hag⟩, rfl⟩
        obtain ⟨hb, hbs⟩ := List.forall_mem_cons.mp hb
        exact ⟨(), ([], _), execWrite_free_iff.mpr ⟨hb, hs, rfl⟩, ih.mpr ⟨hbs, hag, rfl⟩⟩

/-- The three nested loops are one loop over the rows of the block. -/
theorem updateLoops_eq (channel : GoString) (b : Block) :
    (forM b.transactions fun tx =>
      if tx.valid then
        forM tx.nsRWS fun nsrws =>
          forM nsrws.rws.writes fun w => execWrite (writeRow channel b.number tx nsrws.ns w)
      else pure () : SqlM Unit) = forM (blockRows channel b) execWrite := by
  rw [blockRows, forM_flatMap]
  congr 1
  funext tx
  unfold txRows
  split
  · rw [forM_flatMap]
    congr 1
    funext nsrws
    rw [List.forM_map]
  · rfl

/-- The tables after a block whose rows all agree. -/
def applied (channel : GoString) (db : Database) (b : Block) : Database :=
  { db with worldstate := insertAll rowSchema db.worldstate (blockRows channel b) }.upsertProgress
    channel b.number

theorem upsertProgress_worldstate (db : Database) (channel : GoString) (n : ℕ) :
    (db.upsertProgress channel n).worldstate = db.worldstate := by
  unfold Database.upsertProgress
  split
  · rfl
  · split <;> rfl

theorem applied_worldstate (channel : GoString) (db : Database) (b : Block) :
    (applied channel db b).worldstate =
      insertAll rowSchema db.worldstate (blockRows channel b) :=
  upsertProgress_worldstate ..

/-- Progress never moves back. -/
theorem applied_progress (channel : GoString) (db : Database) (b : Block) :
    (applied channel db b).channelProgress.lookup channel =
      some (match db.channelProgress.lookup channel with
        | none => b.number
        | some last => max last b.number) := by
  rw [applied, Database.upsertProgress]
  cases hlast : db.channelProgress.lookup channel with
  | none => exact AList.lookup_insert _
  | some last =>
      dsimp only
      rcases Nat.lt_or_ge last b.number with hlt | hle
      · rw [max_eq_right hlt.le, if_pos hlt]
        exact AList.lookup_insert _
      · rw [max_eq_left hle, if_neg (Nat.not_lt.mpr hle)]
        exact hlast

theorem upsertProgress_of_le {db : Database} {channel : GoString} {n last : ℕ}
    (h : db.channelProgress.lookup channel = some last) (hn : n ≤ last) :
    db.upsertProgress channel n = db := by
  unfold Database.upsertProgress
  rw [h]
  exact if_neg (Nat.not_lt.mpr hn)

theorem applied_progress_ne {channel channel' : GoString} (db : Database) (b : Block)
    (hc : channel' ≠ channel) :
    (applied channel' db b).channelProgress.lookup channel =
      db.channelProgress.lookup channel := by
  unfold applied Database.upsertProgress
  simp only
  split
  · exact AList.lookup_insert_ne hc.symm
  · split
    · exact AList.lookup_insert_ne hc.symm
    · rfl

/-- What follows the loops: the progress row and the commit. -/
def updateProgress (channel : GoString) (n : ℕ) : SqlM Unit := do
  bindUint64 "update last block" 2 n
  call (wrapErr "update last block")
  let db ← read
  write (db.upsertProgress channel n)
  call (wrapErr "commit batch insert")

theorem steady_updateProgress (channel : GoString) (n : ℕ) :
    Steady (updateProgress channel n) :=
  (steady_bindUint64 _ _ _).bind fun _ => (steady_call _).bind fun _ =>
    steady_read.bind fun _ => (steady_write _).bind fun _ => steady_call _

theorem updateProgress_free_iff {channel : GoString} {n : ℕ} {db db' : Database} :
    updateProgress channel n ([], db) = .ok ((), [], db') ↔
      n < 2 ^ 63 ∧ db' = db.upsertProgress channel n := by
  unfold updateProgress bindUint64
  by_cases hb : 2 ^ 63 ≤ n
  · rw [if_pos hb]
    constructor
    · intro h
      cases h
    · rintro ⟨hlt, _⟩
      omega
  · rw [if_neg hb]
    constructor
    · intro h
      cases h
      exact ⟨Nat.lt_of_not_le hb, rfl⟩
    · rintro ⟨_, rfl⟩
      rfl

theorem updateStatements_eq (channel : GoString) (b : Block) :
    updateStatements channel b = (do
      call (wrapErr "begin batch insert")
      call (wrapErr "prepare batch insert")
      call (wrapErr "prepare conflict check")
      forM (blockRows channel b) execWrite
      updateProgress channel b.number) := by
  rw [← updateLoops_eq]
  rfl

theorem steady_updateStatements (channel : GoString) (b : Block) :
    Steady (updateStatements channel b) := by
  rw [updateStatements_eq]
  exact (steady_call _).bind fun _ => (steady_call _).bind fun _ => (steady_call _).bind fun _ =>
    (Steady.forM steady_execWrite).bind fun _ => steady_updateProgress channel b.number

/-- A block is applied, when no driver call fails, exactly if its number can be
stored and its rows agree with the rows they meet. -/
theorem updateWorldState_free_iff {channel : GoString} {b : Block} {db db' : Database} :
    updateWorldState channel [] db b = .ok db' ↔
      b.number < 2 ^ 63 ∧ Agrees db.worldstate (blockRows channel b) ∧
        db' = applied channel db b := by
  have hrun : updateStatements channel b ([], db) =
      ((forM (blockRows channel b) execWrite : SqlM Unit) >>= fun _ =>
        updateProgress channel b.number) ([], db) := by
    rw [updateStatements_eq]
    rfl
  unfold updateWorldState
  rw [commit_eq_ok, hrun]
  constructor
  · rintro ⟨d, h⟩
    obtain ⟨⟨⟩, ⟨d₁, db₁⟩, h₁, h₂⟩ := bind_eq_ok.mp h
    have h₁' := Steady.forM steady_execWrite _ _ _ _ _ h₁
    have h₂' := steady_updateProgress channel b.number _ _ _ _ _ h₂
    obtain ⟨_, hag, rfl⟩ := execWrites_free_iff.mp h₁'
    obtain ⟨hn, rfl⟩ := updateProgress_free_iff.mp h₂'
    exact ⟨hn, hag, rfl⟩
  · rintro ⟨hn, hag, rfl⟩
    refine ⟨[], bind_eq_ok.mpr ⟨(), ([], _), execWrites_free_iff.mpr ⟨?_, hag, rfl⟩,
      updateProgress_free_iff.mpr ⟨hn, rfl⟩⟩⟩
    intro r hr
    rw [(channel_of_mem_blockRows hr).2]
    exact hn

/-- Whatever the driver did, an accepted block was applied. -/
theorem updateWorldState_ok {channel : GoString} {driver : Driver Text} {b : Block}
    {db db' : Database} (h : updateWorldState channel driver db b = .ok db') :
    b.number < 2 ^ 63 ∧ Agrees db.worldstate (blockRows channel b) ∧
      db' = applied channel db b :=
  updateWorldState_free_iff.mp ((steady_updateStatements channel b).commit_free h)

section Calls

variable {channel : GoString} {b : Block} {r : Row} {rs : List Row} {db db' : Database}
  {driver : Driver Text}

/-- The calls to the driver for one row: a taken primary key is looked up as well. -/
def rowCalls (rows : List Row) (r : Row) : ℕ :=
  match selectIn rows r with
  | none => 2
  | some _ => 3

/-- The calls for rows that are inserted one after the other. -/
def insertCalls : List Row → List Row → ℕ
  | _, [] => 0
  | rows, r :: rs => rowCalls rows r + insertCalls (insert rowSchema rows r) rs

/-- The calls that `UpdateWorldState` makes when none of them fails. -/
def updateCalls (channel : GoString) (db : Database) (b : Block) : ℕ :=
  3 + (insertCalls db.worldstate (blockRows channel b) + 2)

/-- Nothing keeps the store from taking the block: its number can be stored, no row meets
other content at its primary key, and the calls to the driver do not fail. -/
structure Takes (channel : GoString) (driver : Driver Text) (db : Database) (b : Block) : Prop where
  number : b.number < 2 ^ 63
  rows : Agrees db.worldstate (blockRows channel b)
  calls : NoFailure driver (updateCalls channel db b)

/-- Whether the rows agree, row by row. -/
def decidableAgrees : (rows rs : List Row) → Decidable (Agrees rows rs)
  | _, [] => isTrue trivial
  | rows, r :: rs =>
      have : Decidable (Agrees (insert rowSchema rows r) rs) := decidableAgrees _ rs
      inferInstanceAs (Decidable ((∀ x ∈ selectIn rows r, SameContent x r) ∧ _))

instance (rows rs : List Row) : Decidable (Agrees rows rs) := decidableAgrees rows rs

instance (channel : GoString) (driver : Driver Text) (db : Database) (b : Block) :
    Decidable (Takes channel driver db b) :=
  decidable_of_iff (b.number < 2 ^ 63 ∧ Agrees db.worldstate (blockRows channel b) ∧
      NoFailure driver (updateCalls channel db b))
    ⟨fun h => ⟨h.1, h.2.1, h.2.2⟩, fun h => ⟨h.number, h.rows, h.calls⟩⟩

theorem bindUint64_of_lt {what : String} {arg n : ℕ} (h : n < 2 ^ 63) :
    bindUint64 what arg n = pure () := by
  rw [bindUint64, if_neg (Nat.not_le.mpr h)]

/-- A taken primary key, at which the row meets its own content. -/
theorem makes_checkConflicting {x : Row} (hsel : selectIn db.worldstate r = some x)
    (hsame : SameContent x r) : Makes (checkConflicting db r) db 1 () db := by
  have hselect : db.select r = some x := hsel
  rw [checkConflicting]
  refine Makes.count ((makes_call _ _).bind ?_) (Nat.add_zero 1)
  rw [hselect]
  dsimp only
  rw [if_pos hsame]
  exact makes_pure _ _

theorem makes_execWrite (hnumber : r.versionBlock < 2 ^ 63)
    (hagrees : ∀ x, selectIn db.worldstate r = some x → SameContent x r) :
    Makes (execWrite r) db (rowCalls db.worldstate r) ()
      { db with worldstate := insert rowSchema db.worldstate r } := by
  rw [execWrite, bindUint64_of_lt hnumber]
  -- the calls before the number of affected rows is looked at
  have hfirst : ∀ {k : ℕ} {db' : Database},
      Makes (if 0 < (db.insert r).2 then pure () else checkConflicting (db.insert r).1 r :
        SqlM Unit) (db.insert r).1 k () db' →
      Makes (do
        call (wrapErr "batch insert exec")
        let db ← read
        write (db.insert r).1
        call (wrapErr "batch insert rows affected")
        if 0 < (db.insert r).2 then pure () else checkConflicting (db.insert r).1 r : SqlM Unit) db
          (1 + (0 + (0 + (1 + k)))) () db' :=
    fun hrest => (makes_call _ _).bind ((makes_read _).bind ((makes_write _ _).bind
      ((makes_call _ _).bind hrest)))
  cases hsel : selectIn db.worldstate r with
  | none =>
      refine (hfirst (k := 0) ?_).count (by rw [rowCalls, hsel])
      rw [if_pos ((affected_pos_iff db r).mpr hsel)]
      exact makes_pure _ _
  | some x =>
      have haffected : ¬ 0 < (db.insert r).2 := by
        rw [affected_pos_iff, hsel]
        simp
      refine (hfirst (k := 1) ?_).count (by rw [rowCalls, hsel])
      rw [if_neg haffected]
      exact makes_checkConflicting (selectIn_insert_of_some hsel) (hagrees x hsel)

theorem makes_execWrites (hnumber : ∀ r ∈ rs, r.versionBlock < 2 ^ 63)
    (hagrees : Agrees db.worldstate rs) :
    Makes (forM rs execWrite : SqlM Unit) db (insertCalls db.worldstate rs) ()
      { db with worldstate := insertAll rowSchema db.worldstate rs } := by
  induction rs generalizing db with
  | nil => exact makes_pure () db
  | cons r rs ih =>
      obtain ⟨hrow, hrest⟩ := hagrees
      rw [List.forM_cons, insertCalls]
      exact (makes_execWrite (hnumber r List.mem_cons_self) hrow).bind
        (ih (fun x hx => hnumber x (List.mem_cons_of_mem r hx)) hrest)

theorem makes_updateProgress {n : ℕ} (hnumber : n < 2 ^ 63) :
    Makes (updateProgress channel n) db 2 () (db.upsertProgress channel n) := by
  rw [updateProgress, bindUint64_of_lt hnumber]
  have hcalls : Makes (do
      call (wrapErr "update last block")
      let db ← read
      write (db.upsertProgress channel n)
      call (wrapErr "commit batch insert") : SqlM Unit) db (1 + (0 + (0 + 1))) ()
        (db.upsertProgress channel n) :=
    (makes_call _ _).bind ((makes_read _).bind ((makes_write _ _).bind (makes_call _ _)))
  exact hcalls

theorem makes_updateStatements (hnumber : b.number < 2 ^ 63)
    (hagrees : Agrees db.worldstate (blockRows channel b)) :
    Makes (updateStatements channel b) db (updateCalls channel db b) () (applied channel db b) := by
  have hrows : ∀ r ∈ blockRows channel b, r.versionBlock < 2 ^ 63 := by
    intro r hr
    rw [(channel_of_mem_blockRows hr).2]
    exact hnumber
  rw [updateStatements_eq]
  refine Makes.count ((makes_call _ _).bind ((makes_call _ _).bind ((makes_call _ _).bind
    ((makes_execWrites hrows hagrees).bind (makes_updateProgress hnumber))))) ?_
  rw [updateCalls]
  omega

/-- When the store takes a block, for any driver. -/
theorem updateWorldState_iff :
    updateWorldState channel driver db b = .ok db' ↔
      Takes channel driver db b ∧ db' = applied channel db b := by
  constructor
  · intro h
    obtain ⟨hnumber, hrows, hdb⟩ := updateWorldState_ok h
    rw [updateWorldState, (makes_updateStatements hnumber hrows).commit_eq_ok] at h
    exact ⟨⟨hnumber, hrows, h.1⟩, hdb⟩
  · rintro ⟨⟨hnumber, hrows, hcalls⟩, hdb⟩
    rw [updateWorldState, (makes_updateStatements hnumber hrows).commit_eq_ok]
    exact ⟨hcalls, hdb⟩

end Calls

end FabricXSdk.State
